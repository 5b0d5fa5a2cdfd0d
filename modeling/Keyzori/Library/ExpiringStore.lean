import Mathlib.Data.List.Nodup
import Mathlib.Logic.Function.Basic

/-! A key-value store with expiring keys and expiring sets of keys, as its
clients see it between commands: an entry past its time is the same as none,
and a set without members does not exist. Sets serve as indices of keys; the
rules at the end say when an index keeps covering the keys that belong to it. -/

namespace ExpiringStore

structure Members (κ : Type) where
  members : List κ
  expiresAt : Option Int
  nodup : members.Nodup

def Members.none {κ : Type} : Members κ := ⟨[], Option.none, List.nodup_nil⟩

/-- The set a command works on at a given time: an expired one is gone. -/
def Members.live {κ : Type} (set : Members κ) (now : Int) : Members κ :=
  match set.expiresAt with
  | some expiresAt => if now ≤ expiresAt then set else .none
  | Option.none => set

structure Store (κ ν σ : Type) where
  now : Int
  keys : κ → Option (ν × Int)
  sets : σ → Members κ

namespace Store

set_option linter.unusedSectionVars false

variable {κ ν σ : Type} [DecidableEq κ] [DecidableEq σ]

def current (now : Int) (entry : ν × Int) : Option ν :=
  if now ≤ entry.2 then some entry.1 else none

def get (store : Store κ ν σ) (key : κ) : Option ν := (store.keys key).bind (current store.now)

def del (store : Store κ ν σ) (key : κ) : Store κ ν σ :=
  { store with keys := Function.update store.keys key none }

def setEx (store : Store κ ν σ) (key : κ) (value : ν) (ttl : Nat) : Store κ ν σ :=
  { store with keys := Function.update store.keys key (some (value, store.now + ttl)) }

def expire (store : Store κ ν σ) (key : κ) (ttl : Nat) : Store κ ν σ :=
  match store.get key with
  | some value => store.setEx key value ttl
  | none => store

def live (store : Store κ ν σ) (index : σ) : Members κ := (store.sets index).live store.now

def smembers (store : Store κ ν σ) (index : σ) : List κ := (store.live index).members

def scard (store : Store κ ν σ) (index : σ) : Nat := (store.smembers index).length

def put (store : Store κ ν σ) (index : σ) (changed : Members κ) : Store κ ν σ :=
  { store with sets := Function.update store.sets index changed }

def sadd (store : Store κ ν σ) (index : σ) (key : κ) : Store κ ν σ :=
  if fresh : key ∈ store.smembers index then store
  else store.put index
    ⟨key :: store.smembers index,
      if store.smembers index = [] then none else (store.live index).expiresAt,
      List.nodup_cons.mpr ⟨fresh, (store.live index).nodup⟩⟩

def srem (store : Store κ ν σ) (index : σ) (key : κ) : Store κ ν σ :=
  store.put index
    ⟨(store.live index).members.filter fun member => member ≠ key, (store.live index).expiresAt,
      (store.live index).nodup.filter _⟩

def expireSet (store : Store κ ν σ) (index : σ) (ttl : Nat) : Store κ ν σ :=
  if store.smembers index = [] then store
  else store.put index
    ⟨(store.live index).members, some (store.now + ttl), (store.live index).nodup⟩

def delSet (store : Store κ ν σ) (index : σ) : Store κ ν σ := store.put index .none

def advance (store : Store κ ν σ) (elapsed : Nat) : Store κ ν σ :=
  { store with now := store.now + elapsed }

/-- One round of a loop over the members of a set: from the value of the
member's key, whether to delete the key and whether to drop the member. -/
def sweepMember (index : σ) (choose : Option ν → Bool × Bool) (state : Store κ ν σ × Nat)
    (member : κ) : Store κ ν σ × Nat :=
  let (store, removed) := state
  let value := store.get member
  let (delete, drop) := choose value
  let store := if delete then store.del member else store
  let store := if drop then store.srem index member else store
  (store, if delete && value.isSome then removed + 1 else removed)

def sweep (store : Store κ ν σ) (index : σ) (choose : Option ν → Bool × Bool) :
    Store κ ν σ × Nat :=
  (store.smembers index).foldl (sweepMember index choose) (store, 0)

@[simp] theorem get_del (store : Store κ ν σ) (key other : κ) :
    (store.del key).get other = if other = key then none else store.get other := by
  by_cases same : other = key
  · simp [get, del, same]
  · simp [get, del, same]

@[simp] theorem get_setEx (store : Store κ ν σ) (key other : κ) (value : ν) (ttl : Nat) :
    (store.setEx key value ttl).get other = if other = key then some value else store.get other := by
  by_cases same : other = key
  · subst same
    simp only [get, setEx, Function.update_self, Option.bind_some, if_true, current]
    exact if_pos (by omega)
  · simp [get, setEx, same]

theorem get_some {store : Store κ ν σ} {key : κ} {value : ν} :
    store.get key = some value ↔
      ∃ expiresAt, store.keys key = some (value, expiresAt) ∧ store.now ≤ expiresAt := by
  simp only [get, current, Option.bind_eq_some_iff, Prod.exists]
  constructor
  · rintro ⟨stored, expiresAt, present, alive⟩
    split at alive
    · next inTime =>
      cases alive
      exact ⟨expiresAt, present, inTime⟩
    · cases alive
  · rintro ⟨expiresAt, present, inTime⟩
    exact ⟨value, expiresAt, present, if_pos inTime⟩

@[simp] theorem get_expire (store : Store κ ν σ) (key other : κ) (ttl : Nat) :
    (store.expire key ttl).get other = store.get other := by
  simp only [expire]
  split
  · next value present =>
    rw [get_setEx]
    split
    · next same => rw [same, present]
    · rfl
  · rfl

@[simp] theorem get_srem (store : Store κ ν σ) (index : σ) (key other : κ) :
    (store.srem index key).get other = store.get other := rfl

@[simp] theorem get_delSet (store : Store κ ν σ) (index : σ) (other : κ) :
    (store.delSet index).get other = store.get other := rfl

theorem keys_sadd (store : Store κ ν σ) (index : σ) (key : κ) :
    (store.sadd index key).keys = store.keys ∧ (store.sadd index key).now = store.now := by
  simp only [sadd]
  split <;> exact ⟨rfl, rfl⟩

theorem keys_expireSet (store : Store κ ν σ) (index : σ) (ttl : Nat) :
    (store.expireSet index ttl).keys = store.keys ∧
      (store.expireSet index ttl).now = store.now := by
  simp only [expireSet]
  split <;> exact ⟨rfl, rfl⟩

theorem get_congr {store other : Store κ ν σ} (keys : other.keys = store.keys)
    (now : other.now = store.now) (key : κ) : other.get key = store.get key := by
  simp only [get, keys, now]

@[simp] theorem get_sadd (store : Store κ ν σ) (index : σ) (key other : κ) :
    (store.sadd index key).get other = store.get other :=
  get_congr (keys_sadd store index key).1 (keys_sadd store index key).2 other

@[simp] theorem get_expireSet (store : Store κ ν σ) (index : σ) (ttl : Nat) (other : κ) :
    (store.expireSet index ttl).get other = store.get other :=
  get_congr (keys_expireSet store index ttl).1 (keys_expireSet store index ttl).2 other

theorem live_current (store : Store κ ν σ) (index : σ) :
    ∀ expiresAt, (store.live index).expiresAt = some expiresAt → store.now ≤ expiresAt := by
  intro expiresAt
  simp only [live, Members.live]
  split
  · next stored present =>
    split
    · next current =>
      rw [present]
      rintro ⟨⟩
      exact current
    · simp [Members.none]
  · next absent =>
    rw [absent]
    simp

theorem live_put {store : Store κ ν σ} {index : σ} {changed : Members κ}
    (current : ∀ expiresAt, changed.expiresAt = some expiresAt → store.now ≤ expiresAt) (other : σ) :
    (store.put index changed).live other = if other = index then changed else store.live other := by
  by_cases same : other = index
  · subst same
    simp only [live, Members.live, put, Function.update_self, if_true]
    split
    · next expiresAt present => rw [if_pos (current expiresAt present)]
    · rfl
  · simp only [live, put, Function.update_of_ne same, if_neg same]

theorem mem_sadd {store : Store κ ν σ} {index other : σ} {key member : κ} :
    member ∈ (store.sadd index key).smembers other ↔
      (other = index ∧ member = key) ∨ member ∈ store.smembers other := by
  simp only [sadd]
  split
  · next present =>
    constructor
    · exact .inr
    · rintro (⟨rfl, rfl⟩ | old)
      · exact present
      · exact old
  · rw [smembers, live_put]
    · by_cases same : other = index
      · subst same
        simp
      · simp [same, smembers]
    · dsimp only
      split
      · simp
      · exact store.live_current index

theorem deadline_sadd {store : Store κ ν σ} {index other : σ} {key : κ}
    (nonempty : other = index → store.smembers other ≠ []) :
    ((store.sadd index key).live other).expiresAt = (store.live other).expiresAt := by
  simp only [sadd]
  split
  · rfl
  · rw [live_put]
    · split
      · next same =>
        subst same
        exact if_neg (nonempty rfl)
      · rfl
    · dsimp only
      split
      · simp
      · exact store.live_current index

theorem mem_srem {store : Store κ ν σ} {index other : σ} {key member : κ} :
    member ∈ (store.srem index key).smembers other ↔
      member ∈ store.smembers other ∧ ¬(other = index ∧ member = key) := by
  rw [srem, smembers, live_put]
  · by_cases same : other = index
    · subst same
      simp [smembers]
    · simp [same, smembers]
  · exact store.live_current index

@[simp] theorem deadline_srem (store : Store κ ν σ) (index other : σ) (key : κ) :
    ((store.srem index key).live other).expiresAt = (store.live other).expiresAt := by
  rw [srem, live_put]
  · split
    · next same => rw [same]
    · rfl
  · exact store.live_current index

@[simp] theorem smembers_expireSet (store : Store κ ν σ) (index other : σ) (ttl : Nat) :
    (store.expireSet index ttl).smembers other = store.smembers other := by
  simp only [expireSet]
  split
  · rfl
  · rw [smembers, live_put]
    · split
      · next same =>
        rw [same]
        rfl
      · rfl
    · rintro _ ⟨⟩
      omega

theorem deadline_expireSet {store : Store κ ν σ} {index : σ} (other : σ) (ttl : Nat)
    (nonempty : store.smembers index ≠ []) :
    ((store.expireSet index ttl).live other).expiresAt =
      if other = index then some (store.now + ttl) else (store.live other).expiresAt := by
  rw [expireSet, if_neg nonempty, live_put]
  · split <;> rfl
  · rintro _ ⟨⟩
    omega

section Sweep

variable (index : σ) (choose : Option ν → Bool × Bool)

theorem sweepMember_keys (state : Store κ ν σ × Nat) (member key : κ) :
    (sweepMember index choose state member).1.keys key =
      if key = member ∧ (choose (state.1.get member)).1 then none else state.1.keys key := by
  have deleted : ∀ store : Store κ ν σ, (store.del member).keys key =
      if key = member then none else store.keys key := fun store => Function.update_apply ..
  have dropped : ∀ store : Store κ ν σ, (store.srem index member).keys = store.keys := fun _ => rfl
  simp only [sweepMember]
  cases (choose (state.1.get member)).1 <;> cases (choose (state.1.get member)).2 <;>
    simp [deleted, dropped]

theorem sweepMember_now (state : Store κ ν σ × Nat) (member : κ) :
    (sweepMember index choose state member).1.now = state.1.now := by
  simp only [sweepMember]
  cases (choose (state.1.get member)).1 <;> cases (choose (state.1.get member)).2 <;> rfl

theorem sweepMember_count (state : Store κ ν σ × Nat) (member : κ) :
    (sweepMember index choose state member).2 =
      state.2 + if (choose (state.1.get member)).1 && (state.1.get member).isSome then 1 else 0 := by
  simp only [sweepMember]
  split <;> rfl

theorem sweepMember_mem (state : Store κ ν σ × Nat) (member key : κ) (other : σ) :
    key ∈ (sweepMember index choose state member).1.smembers other ↔
      key ∈ state.1.smembers other ∧
        ¬(other = index ∧ key = member ∧ (choose (state.1.get member)).2) := by
  have kept : ∀ store : Store κ ν σ, (store.del member).smembers other = store.smembers other :=
    fun _ => rfl
  simp only [sweepMember]
  cases (choose (state.1.get member)).1 <;> cases (choose (state.1.get member)).2 <;>
    simp [mem_srem, kept]

/-- What a whole loop deletes, drops and counts, by the values at its start. -/
theorem sweep_members (members : List κ) (nodup : members.Nodup) (state : Store κ ν σ × Nat) :
    (∀ key, (members.foldl (sweepMember index choose) state).1.keys key =
      if key ∈ members ∧ (choose (state.1.get key)).1 then none else state.1.keys key) ∧
    (∀ key other, key ∈ (members.foldl (sweepMember index choose) state).1.smembers other ↔
      key ∈ state.1.smembers other ∧
        ¬(other = index ∧ key ∈ members ∧ (choose (state.1.get key)).2)) ∧
    (members.foldl (sweepMember index choose) state).1.now = state.1.now ∧
    (members.foldl (sweepMember index choose) state).2 = state.2 +
      (members.filter fun key => (choose (state.1.get key)).1 && (state.1.get key).isSome).length := by
  induction members generalizing state with
  | nil => simp
  | cons member members ih =>
      obtain ⟨fresh, nodup⟩ := List.nodup_cons.mp nodup
      obtain ⟨values, kept, now, count⟩ := ih nodup (sweepMember index choose state member)
      have untouched : ∀ key ∈ members, (sweepMember index choose state member).1.get key =
          state.1.get key := by
        intro key present
        rw [get, get, sweepMember_now, sweepMember_keys, if_neg]
        rintro ⟨rfl, -⟩
        exact fresh present
      refine ⟨?_, ?_, ?_, ?_⟩
      · intro key
        rw [List.foldl_cons, values]
        by_cases present : key ∈ members
        · have distinct : key ≠ member := fun same => fresh (same ▸ present)
          simp [untouched key present, present, sweepMember_keys, distinct]
        · by_cases same : key = member
          · subst same
            simp [present, sweepMember_keys]
          · simp [present, same, sweepMember_keys]
      · intro key other
        rw [List.foldl_cons, kept, sweepMember_mem]
        by_cases present : key ∈ members
        · have distinct : key ≠ member := fun same => fresh (same ▸ present)
          simp [untouched key present, present, distinct]
        · by_cases same : key = member
          · subst same
            simp [present]
          · simp [present, same]
      · rw [List.foldl_cons, now, sweepMember_now]
      · have same : (members.filter fun key =>
            (choose ((sweepMember index choose state member).1.get key)).1 &&
              ((sweepMember index choose state member).1.get key).isSome) =
            members.filter fun key => (choose (state.1.get key)).1 && (state.1.get key).isSome :=
          List.filter_congr fun key present => by rw [untouched key present]
        rw [List.foldl_cons, count, same, sweepMember_count, List.filter_cons]
        split
        · rw [List.length_cons]
          omega
        · rfl

theorem sweep_keys (store : Store κ ν σ) (key : κ) :
    (store.sweep index choose).1.keys key =
      if key ∈ store.smembers index ∧ (choose (store.get key)).1 then none else store.keys key :=
  (sweep_members index choose (store.smembers index) (store.live index).nodup (store, 0)).1 key

theorem sweep_get (store : Store κ ν σ) (key : κ) :
    (store.sweep index choose).1.get key =
      if key ∈ store.smembers index ∧ (choose (store.get key)).1 then none else store.get key := by
  obtain ⟨-, -, now, -⟩ :=
    sweep_members index choose (store.smembers index) (store.live index).nodup (store, 0)
  rw [get, sweep_keys, show (store.sweep index choose).1.now = store.now from now]
  split <;> rfl

theorem sweep_mem (store : Store κ ν σ) (key : κ) (other : σ) :
    key ∈ (store.sweep index choose).1.smembers other ↔
      key ∈ store.smembers other ∧
        ¬(other = index ∧ key ∈ store.smembers index ∧ (choose (store.get key)).2) :=
  (sweep_members index choose (store.smembers index) (store.live index).nodup (store, 0)).2.1 key other

theorem sweep_count (store : Store κ ν σ) :
    (store.sweep index choose).2 = ((store.smembers index).filter fun key =>
      (choose (store.get key)).1 && (store.get key).isSome).length := by
  obtain ⟨-, -, -, count⟩ :=
    sweep_members index choose (store.smembers index) (store.live index).nodup (store, 0)
  exact count.trans (Nat.zero_add _)

end Sweep

/-- The sets are indices of the live keys. `owner` says which index a value
belongs to, and `issued` lists the keys that were ever set. -/
structure Indexed (owner : ν → Option σ) (ttl : Nat) (issued : List κ) (store : Store κ ν σ) :
    Prop where
  bound : ∀ key value expiresAt, store.keys key = some (value, expiresAt) →
    expiresAt ≤ store.now + ttl
  member : ∀ key value expiresAt index, store.keys key = some (value, expiresAt) →
    store.now ≤ expiresAt → owner value = some index → key ∈ store.smembers index
  outlives : ∀ key value expiresAt index deadline, store.keys key = some (value, expiresAt) →
    store.now ≤ expiresAt → owner value = some index →
    (store.live index).expiresAt = some deadline → expiresAt ≤ deadline
  home : ∀ key index value, key ∈ store.smembers index → store.get key = some value →
    owner value = some index
  knownKeys : ∀ key, store.keys key ≠ none → key ∈ issued
  knownMembers : ∀ key index, key ∈ store.smembers index → key ∈ issued

section Indexed

variable {owner : ν → Option σ} {ttl : Nat} {issued : List κ} {store : Store κ ν σ}

theorem indexed_issued (indexed : Indexed owner ttl issued store) {more : List κ}
    (known : ∀ key ∈ issued, key ∈ more) : Indexed owner ttl more store :=
  ⟨indexed.bound, indexed.member, indexed.outlives, indexed.home,
    fun key present => known key (indexed.knownKeys key present),
    fun key index present => known key (indexed.knownMembers key index present)⟩

theorem indexed_del (indexed : Indexed owner ttl issued store) (key : κ) :
    Indexed owner ttl issued (store.del key) := by
  have stays : ∀ other entry, (store.del key).keys other = some entry →
      store.keys other = some entry := by
    intro other entry present
    by_cases same : other = key
    · simp [del, same] at present
    · simpa [del, same] using present
  constructor
  · intro other value expiresAt present
    exact indexed.bound other value expiresAt (stays other _ present)
  · intro other value expiresAt index present
    exact indexed.member other value expiresAt index (stays other _ present)
  · intro other value expiresAt index deadline present
    exact indexed.outlives other value expiresAt index deadline (stays other _ present)
  · intro other index value present alive
    refine indexed.home other index value present ?_
    rw [get_del] at alive
    split at alive
    · cases alive
    · exact alive
  · intro other present
    obtain ⟨entry, stored⟩ := Option.ne_none_iff_exists'.mp present
    exact indexed.knownKeys other (by simp [stays other entry stored])
  · exact indexed.knownMembers

theorem indexed_srem (indexed : Indexed owner ttl issued store) {index : σ} {key : κ}
    (gone : store.get key = none) : Indexed owner ttl issued (store.srem index key) := by
  constructor
  · exact indexed.bound
  · intro other value expiresAt home present alive owned
    refine mem_srem.mpr ⟨indexed.member other value expiresAt home present alive owned, ?_⟩
    rintro ⟨rfl, rfl⟩
    have stored : store.get other = some value := get_some.mpr ⟨expiresAt, present, alive⟩
    rw [stored] at gone
    cases gone
  · intro other value expiresAt home deadline present alive owned ends
    rw [deadline_srem] at ends
    exact indexed.outlives other value expiresAt home deadline present alive owned ends
  · intro other home value present
    exact indexed.home other home value (mem_srem.mp present).1
  · exact indexed.knownKeys
  · intro other home present
    exact indexed.knownMembers other home (mem_srem.mp present).1

theorem indexed_sweepMember {state : Store κ ν σ × Nat} {index : σ}
    {choose : Option ν → Bool × Bool} {member : κ}
    (safe : ∀ value, (choose (some value)).2 → (choose (some value)).1)
    (indexed : Indexed owner ttl issued state.1) :
    Indexed owner ttl issued (sweepMember index choose state member).1 := by
  simp only [sweepMember]
  cases delete : (choose (state.1.get member)).1 with
  | true =>
      have deleted := indexed_del indexed member
      cases (choose (state.1.get member)).2 with
      | true => exact indexed_srem deleted (by simp)
      | false => exact deleted
  | false =>
      cases drop : (choose (state.1.get member)).2 with
      | true =>
          refine indexed_srem indexed ?_
          cases present : state.1.get member with
          | none => rfl
          | some value =>
              rw [present] at delete drop
              rw [safe value drop] at delete
              cases delete
      | false => exact indexed

theorem indexed_sweep {index : σ} {choose : Option ν → Bool × Bool}
    (safe : ∀ value, (choose (some value)).2 → (choose (some value)).1)
    (indexed : Indexed owner ttl issued store) :
    Indexed owner ttl issued (store.sweep index choose).1 := by
  have folded : ∀ (members : List κ) (state : Store κ ν σ × Nat),
      Indexed owner ttl issued state.1 →
        Indexed owner ttl issued (members.foldl (sweepMember index choose) state).1 := by
    intro members
    induction members with
    | nil => exact fun _ indexed => indexed
    | cons member members ih =>
        intro state indexed
        exact ih _ (indexed_sweepMember safe indexed)
  exact folded _ (store, 0) indexed

theorem indexed_delSet (indexed : Indexed owner ttl issued store) {index : σ}
    (empty : store.smembers index = []) : Indexed owner ttl issued (store.delSet index) := by
  have live : ∀ other, (store.delSet index).live other =
      if other = index then .none else store.live other := by
    intro other
    exact live_put (by rintro _ ⟨⟩) other
  have members : ∀ other, (store.delSet index).smembers other = store.smembers other := by
    intro other
    simp only [smembers, live]
    split
    · next same => exact (same ▸ empty).symm
    · rfl
  constructor
  · exact indexed.bound
  · intro key value expiresAt home present alive owned
    rw [members]
    exact indexed.member key value expiresAt home present alive owned
  · intro key value expiresAt home deadline present alive owned ends
    rw [live] at ends
    split at ends
    · cases ends
    · exact indexed.outlives key value expiresAt home deadline present alive owned ends
  · intro key home value present
    rw [members] at present
    exact indexed.home key home value present
  · exact indexed.knownKeys
  · intro key home present
    rw [members] at present
    exact indexed.knownMembers key home present

theorem live_advance (store : Store κ ν σ) (elapsed : Nat) (index : σ) :
    (store.advance elapsed).live index = (store.live index).live (store.now + elapsed) := by
  change (store.sets index).live (store.now + elapsed) = _
  simp only [live, Members.live]
  cases time : (store.sets index).expiresAt with
  | none => simp only [time]
  | some expiresAt =>
      by_cases current : store.now ≤ expiresAt
      · simp only [if_pos current, time]
      · have expired : ¬store.now + elapsed ≤ expiresAt := by omega
        simp only [if_neg current, if_neg expired, Members.none]

theorem indexed_advance (indexed : Indexed owner ttl issued store) (elapsed : Nat) :
    Indexed owner ttl issued (store.advance elapsed) := by
  have fewer : ∀ key index, key ∈ (store.advance elapsed).smembers index →
      key ∈ store.smembers index := by
    intro key index present
    rw [smembers, live_advance, Members.live] at present
    split at present
    · split at present
      · exact present
      · cases present
    · exact present
  constructor
  · intro key value expiresAt present
    have bound := indexed.bound key value expiresAt present
    simp only [advance]
    omega
  · intro key value expiresAt home present alive owned
    have before : store.now ≤ expiresAt := by
      simp only [advance] at alive
      omega
    have stored := indexed.member key value expiresAt home present before owned
    rw [smembers, live_advance, Members.live]
    split
    · next deadline ends =>
      have outlives := indexed.outlives key value expiresAt home deadline present before owned ends
      have inTime : store.now + elapsed ≤ deadline := Int.le_trans alive outlives
      rw [if_pos inTime]
      exact stored
    · exact stored
  · intro key value expiresAt home deadline present alive owned ends
    have before : store.now ≤ expiresAt := by
      simp only [advance] at alive
      omega
    rw [live_advance, Members.live] at ends
    split at ends
    · split at ends
      · exact indexed.outlives key value expiresAt home deadline present before owned ends
      · cases ends
    · exact indexed.outlives key value expiresAt home deadline present before owned ends
  · intro key home value present alive
    obtain ⟨expiresAt, stored, inTime⟩ := get_some.mp alive
    have before : store.now ≤ expiresAt := by
      simp only [advance] at inTime
      omega
    exact indexed.home key home value (fewer key home present)
      (get_some.mpr ⟨expiresAt, stored, before⟩)
  · exact indexed.knownKeys
  · intro key home present
    exact indexed.knownMembers key home (fewer key home present)

theorem indexed_setEx (indexed : Indexed owner ttl issued store) {index : σ} {key : κ} {value : ν}
    (owned : owner value = some index)
    (only : ∀ other, key ∈ store.smembers other → other = index) :
    Indexed owner ttl (key :: issued)
      (((store.setEx key value ttl).sadd index key).expireSet index ttl) := by
  have same : ∀ other, (store.setEx key value ttl).smembers other = store.smembers other :=
    fun _ => rfl
  have mem : ∀ member other,
      member ∈ (((store.setEx key value ttl).sadd index key).expireSet index ttl).smembers other ↔
        (other = index ∧ member = key) ∨ member ∈ store.smembers other := by
    intro member other
    rw [smembers_expireSet, mem_sadd, same]
  have nonempty : ((store.setEx key value ttl).sadd index key).smembers index ≠ [] :=
    List.ne_nil_of_mem (mem_sadd.mpr (.inl ⟨rfl, rfl⟩))
  have deadlines : ∀ other,
      ((((store.setEx key value ttl).sadd index key).expireSet index ttl).live other).expiresAt =
        if other = index then some (store.now + ttl) else (store.live other).expiresAt := by
    intro other
    rw [deadline_expireSet other ttl nonempty, (keys_sadd _ index key).2]
    split
    · rfl
    · next distinct => exact deadline_sadd fun matched => absurd matched distinct
  have keys : (((store.setEx key value ttl).sadd index key).expireSet index ttl).keys =
      Function.update store.keys key (some (value, store.now + ttl)) := by
    rw [(keys_expireSet _ index ttl).1, (keys_sadd _ index key).1]
    rfl
  have now : (((store.setEx key value ttl).sadd index key).expireSet index ttl).now = store.now := by
    rw [(keys_expireSet _ index ttl).2, (keys_sadd _ index key).2]
    rfl
  constructor
  · intro other stored expiresAt present
    rw [keys] at present
    rw [now]
    by_cases matched : other = key
    · subst matched
      rw [Function.update_self] at present
      cases present
      exact Int.le_refl _
    · rw [Function.update_of_ne matched] at present
      exact indexed.bound other stored expiresAt present
  · intro other stored expiresAt home present alive belongs
    rw [mem]
    rw [keys] at present
    by_cases matched : other = key
    · subst matched
      rw [Function.update_self] at present
      cases present
      rw [owned] at belongs
      cases belongs
      exact .inl ⟨rfl, rfl⟩
    · rw [Function.update_of_ne matched] at present
      rw [now] at alive
      exact .inr (indexed.member other stored expiresAt home present alive belongs)
  · intro other stored expiresAt home deadline present alive belongs ends
    rw [keys] at present
    rw [deadlines] at ends
    rw [now] at alive
    by_cases matched : other = key
    · subst matched
      rw [Function.update_self] at present
      cases present
      rw [owned] at belongs
      cases belongs
      rw [if_pos rfl] at ends
      cases ends
      exact Int.le_refl _
    · rw [Function.update_of_ne matched] at present
      split at ends
      · cases ends
        exact indexed.bound other stored expiresAt present
      · exact indexed.outlives other stored expiresAt home deadline present alive belongs ends
  · intro other home stored present alive
    rw [get_expireSet, get_sadd, get_setEx] at alive
    rw [mem] at present
    split at alive
    · next matched =>
      subst matched
      cases alive
      rcases present with ⟨rfl, -⟩ | old
      · exact owned
      · rw [only home old]
        exact owned
    · next distinct =>
      rcases present with ⟨-, matched⟩ | old
      · exact absurd matched distinct
      · exact indexed.home other home stored old alive
  · intro other present
    rw [keys] at present
    by_cases matched : other = key
    · simp [matched]
    · rw [Function.update_of_ne matched] at present
      exact List.mem_cons_of_mem _ (indexed.knownKeys other present)
  · intro other home present
    rw [mem] at present
    rcases present with ⟨-, rfl⟩ | old
    · simp
    · exact List.mem_cons_of_mem _ (indexed.knownMembers other home old)

end Indexed

end Store

end ExpiringStore
