import Keyzori.Sessions.Repository

namespace Keyzori

open ExpiringStore Store

structure Session where
  licenseId : LicenseId
  revision : Nat
  binding : String
  deriving DecidableEq

def Session.value (session : Session) : String :=
  sessionValue session.licenseId session.revision session.binding

@[simp] theorem sessionFields_value (session : Session) :
    sessionFields session.value =
      some ⟨session.licenseId.text, Nat.repr session.revision, session.binding⟩ :=
  sessionFields_sessionValue _ _ _

theorem licenseId_ext {first second : LicenseId} (same : first.text = second.text) :
    first = second := by
  cases first
  cases second
  cases same
  rfl

theorem session_value_injective {first second : Session} (same : first.value = second.value) :
    first = second := by
  have fields := congrArg sessionFields same
  simp only [sessionFields_value, Option.some.injEq, SessionFields.mk.injEq, repr_inj] at fields
  cases first
  cases second
  simp only [Session.mk.injEq]
  exact ⟨licenseId_ext fields.1, fields.2.1, fields.2.2⟩

/-- The token has an unexpired key that holds this session. -/
def Carries (store : SessionStore) (token : String) (session : Session) : Prop :=
  store.get token = some session.value

theorem carries_unique {store : SessionStore} {token : String} {first second : Session}
    (one : Carries store token first) (other : Carries store token second) : first = second :=
  session_value_injective (Option.some.inj (one.symm.trans other))

def valueOwner (value : String) : Option String := (sessionFields value).map SessionFields.licenseId

@[simp] theorem valueOwner_value (session : Session) :
    valueOwner session.value = some session.licenseId.text := by
  simp [valueOwner]

@[simp] theorem staleMember_value (revision : Nat) (session : Session) :
    staleMember (Nat.repr revision) (some session.value) = decide (session.revision ≠ revision) := by
  simp only [staleMember, Option.bind_some, sessionFields_value, Option.map_some, ne_eq, Option.some.injEq, repr_inj]

@[simp] theorem removedMember_value (preserveFromRevision : Option Nat) (session : Session) :
    removedMember preserveFromRevision (some session.value) =
      match preserveFromRevision with
      | none => (true, true)
      | some minimum => (decide (session.revision < minimum), decide (session.revision < minimum)) := by
  cases preserveFromRevision with
  | none => rfl
  | some minimum => simp [removedMember]

section Specifications

variable {store : SessionStore} {id : LicenseId} {revision ttl : Nat} {hash token : String}
  {maximum : Int}

theorem sweep_carries (store : SessionStore) (choose : Option String → Bool × Bool) (index other : String)
    (session : Session) :
    Carries (store.sweep index choose).1 other session ↔
      Carries store other session ∧
        ¬(other ∈ store.smembers index ∧ (choose (some session.value)).1) := by
  simp only [Carries, sweep_get]
  split
  · next deleted =>
    constructor
    · intro none
      cases none
    · rintro ⟨carried, kept⟩
      rw [carried] at deleted
      exact absurd deleted kept
  · next spared =>
    constructor
    · intro carried
      rw [carried] at spared
      exact ⟨carried, spared⟩
    · exact And.left

/-- A registration deletes indexed sessions of other revisions and no others. -/
theorem registerSession_carries (other : String) (session : Session) :
    Carries (registerSession store id revision hash ttl maximum token).1 other session ↔
      if other = token ∧ (registerSession store id revision hash ttl maximum token).2 =
          .registered token then session = ⟨id, revision, hash⟩
      else Carries store other session ∧
        ¬(other ∈ store.smembers id.text ∧ session.revision ≠ revision) := by
  have swept := sweep_carries store (fun value =>
    (staleMember (Nat.repr revision) value, staleMember (Nat.repr revision) value)) id.text other
      session
  simp only [staleMember_value, decide_eq_true_eq] at swept
  simp only [registerSession]
  split
  · simpa using swept
  · simp only [and_true]
    by_cases same : other = token
    · subst same
      simp only [Carries, get_expireSet, get_sadd, get_setEx, if_true, Option.some.injEq]
      constructor
      · intro equal
        exact session_value_injective equal.symm
      · rintro rfl
        rfl
    · rw [if_neg same, ← swept]
      simp only [Carries, get_expireSet, get_sadd, get_setEx, if_neg same]

theorem boundSession_some {fields : SessionFields} :
    boundSession store token hash = some fields ↔
      ∃ value, store.get token = some value ∧ sessionFields value = some fields ∧
        fields.binding = hash := by
  simp only [boundSession, Option.bind_eq_bind, Option.bind_eq_some_iff]
  constructor
  · rintro ⟨value, present, stored, cut, same⟩
    split at same
    · cases same
    · next bound =>
      cases same
      exact ⟨value, present, cut, not_not.mp bound⟩
  · rintro ⟨value, present, cut, rfl⟩
    exact ⟨value, present, fields, cut, if_neg (by simp)⟩

theorem refreshSession_carries (other : String) (session : Session) :
    Carries (refreshSession store token hash ttl).1 other session ↔ Carries store other session := by
  simp only [refreshSession]
  split
  · exact Iff.rfl
  · simp [Carries]

theorem get_dropEmptyIndex (index other : String) :
    (dropEmptyIndex store index).get other = store.get other := by
  simp only [dropEmptyIndex]
  split <;> rfl

theorem removeSession_carries (other : String) (session : Session) :
    Carries (removeSession store token hash).1 other session ↔
      Carries store other session ∧ ¬(other = token ∧ session.binding = hash) := by
  simp only [removeSession]
  split
  · next unbound =>
    constructor
    · intro carried
      refine ⟨carried, ?_⟩
      rintro ⟨rfl, rfl⟩
      have found : boundSession store other session.binding = some _ :=
        boundSession_some.mpr ⟨_, carried, sessionFields_value session, rfl⟩
      rw [unbound] at found
      cases found
    · exact And.left
  · next fields bound =>
    obtain ⟨value, present, cut, rfl⟩ := boundSession_some.mp bound
    simp only [Carries, get_del, get_dropEmptyIndex, get_srem]
    split
    · next same =>
      subst same
      constructor
      · intro none
        cases none
      · rintro ⟨carried, kept⟩
        rw [present] at carried
        cases carried
        rw [sessionFields_value] at cut
        cases cut
        exact absurd ⟨rfl, rfl⟩ kept
    · next distinct => simp [distinct]

theorem removeAllSessions_carries (preserveFromRevision : Option Nat) (other : String)
    (session : Session) :
    Carries (removeAllSessions store id preserveFromRevision).1 other session ↔
      Carries store other session ∧ ¬(other ∈ store.smembers id.text ∧
        ∀ minimum, preserveFromRevision = some minimum → session.revision < minimum) := by
  have swept := sweep_carries store (removedMember preserveFromRevision) id.text other
    session
  simp only [removeAllSessions, Carries, get_dropEmptyIndex]
  refine swept.trans ?_
  rw [removedMember_value]
  cases preserveFromRevision <;> simp [Carries]

/-- The indices cover the sessions, and every value is a session's. -/
structure Kept (ttl : Nat) (issued : List String) (store : SessionStore) : Prop where
  indexed : Indexed valueOwner (1000 * ttl) issued store
  sessions : ∀ token value, store.get token = some value → ∃ session : Session, value = session.value

variable {issued : List String}

theorem kept_dropEmptyIndex (kept : Kept ttl issued store) (index : String) :
    Kept ttl issued (dropEmptyIndex store index) := by
  constructor
  · simp only [dropEmptyIndex]
    split
    · next empty => exact indexed_delSet kept.indexed (List.length_eq_zero_iff.mp empty)
    · exact kept.indexed
  · simp only [get_dropEmptyIndex]
    exact kept.sessions

theorem kept_sweep (kept : Kept ttl issued store) {choose : Option String → Bool × Bool}
    (safe : ∀ value, (choose (some value)).2 → (choose (some value)).1) (index : String) :
    Kept ttl issued (store.sweep index choose).1 := by
  refine ⟨indexed_sweep safe kept.indexed, ?_⟩
  intro token value present
  rw [sweep_get] at present
  split at present
  · cases present
  · exact kept.sessions token value present

theorem registerSession_kept (kept : Kept ttl issued store) (fresh : token ∉ issued) :
    Kept ttl (token :: issued) (registerSession store id revision hash ttl maximum token).1 := by
  have swept : Kept ttl issued (store.sweep id.text fun value =>
      (staleMember (Nat.repr revision) value, staleMember (Nat.repr revision) value)).1 :=
    kept_sweep kept (fun value stale => stale) id.text
  have older : ∀ key ∈ issued, key ∈ token :: issued := fun key => List.mem_cons_of_mem token
  simp only [registerSession]
  split
  · exact ⟨indexed_issued swept.indexed older, swept.sessions⟩
  · constructor
    · refine indexed_setEx swept.indexed (valueOwner_value ⟨id, revision, hash⟩) ?_
      intro other member
      exact absurd (swept.indexed.knownMembers token other member) fresh
    · intro other value present
      rw [get_expireSet, get_sadd, get_setEx] at present
      split at present
      · cases present
        exact ⟨⟨id, revision, hash⟩, rfl⟩
      · exact swept.sessions other value present

theorem refreshSession_kept (kept : Kept ttl issued store) :
    Kept ttl issued (refreshSession store token hash ttl).1 := by
  simp only [refreshSession]
  split
  · exact kept
  · next fields bound =>
    obtain ⟨value, present, cut, -⟩ := boundSession_some.mp bound
    have owned : valueOwner value = some fields.licenseId := by simp [valueOwner, cut]
    have renewed : store.expire token (1000 * ttl) = store.setEx token value (1000 * ttl) := by
      simp only [expire, present]
    constructor
    · rw [renewed]
      refine indexed_issued (indexed_setEx kept.indexed owned ?_) ?_
      · intro other member
        have home := kept.indexed.home token other value member present
        exact Option.some.inj (home.symm.trans owned)
      · intro key member
        rcases List.mem_cons.mp member with rfl | old
        · obtain ⟨expiresAt, stored, -⟩ := get_some.mp present
          exact kept.indexed.knownKeys key (by simp [stored])
        · exact old
    · intro other stored found
      rw [get_expireSet, get_sadd, get_expire] at found
      exact kept.sessions other stored found

theorem removeSession_kept (kept : Kept ttl issued store) :
    Kept ttl issued (removeSession store token hash).1 := by
  simp only [removeSession]
  split
  · exact kept
  · next fields bound =>
    -- The key goes last, but the commands touch different parts of the store.
    have reordered : (dropEmptyIndex (store.srem fields.licenseId token) fields.licenseId).del token =
        dropEmptyIndex ((store.del token).srem fields.licenseId token) fields.licenseId := by
      simp only [dropEmptyIndex, apply_ite (fun store : SessionStore => store.del token)]
      rfl
    have deleted : Kept ttl issued (store.del token) := by
      refine ⟨indexed_del kept.indexed token, ?_⟩
      intro other value present
      rw [get_del] at present
      split at present
      · cases present
      · exact kept.sessions other value present
    rw [reordered]
    apply kept_dropEmptyIndex
    exact ⟨indexed_srem deleted.indexed (by simp), deleted.sessions⟩

theorem removeAllSessions_kept (kept : Kept ttl issued store) (preserveFromRevision : Option Nat) :
    Kept ttl issued (removeAllSessions store id preserveFromRevision).1 := by
  refine kept_dropEmptyIndex (kept_sweep kept ?_ id.text) id.text
  intro value dropped
  cases preserveFromRevision with
  | none => rfl
  | some minimum => exact dropped

theorem advance_carries {elapsed : Nat} {session : Session}
    (carried : Carries (store.advance elapsed) token session) : Carries store token session := by
  obtain ⟨expiresAt, stored, inTime⟩ := get_some.mp carried
  refine get_some.mpr ⟨expiresAt, stored, ?_⟩
  simp only [advance] at inTime
  omega

theorem advance_kept (kept : Kept ttl issued store) (elapsed : Nat) :
    Kept ttl issued (store.advance elapsed) := by
  refine ⟨indexed_advance kept.indexed elapsed, ?_⟩
  intro token value present
  obtain ⟨expiresAt, stored, inTime⟩ := get_some.mp present
  have before : store.now ≤ expiresAt := by
    simp only [advance] at inTime
    omega
  exact kept.sessions token value (get_some.mpr ⟨expiresAt, stored, before⟩)

end Specifications

end Keyzori
