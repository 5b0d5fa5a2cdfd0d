import Keyzori.Sessions.Scripts

namespace Keyzori

open ExpiringStore Store

/-- The store, the revision each license row carries and the tokens drawn so far. -/
structure SessionSystem where
  store : SessionStore
  revisions : LicenseId → Nat
  issued : List String

inductive SessionEvent
  | register (id : LicenseId) (bindingHash : String) (maxSessions : Int) (token : String)
  | refresh (token bindingHash : String)
  | remove (token bindingHash : String)
  | removeAll (id : LicenseId) (preserveFromRevision : Option Nat)
  | bump (id : LicenseId)
  | advance (elapsed : Nat)

namespace SessionSystem

def start (now : Instant) (revisions : LicenseId → Nat) : SessionSystem :=
  ⟨⟨now, fun _ => none, fun _ => .none⟩, revisions, []⟩

/-- A registration runs under the license lock, with the current revision. -/
def register (ttl : Nat) (state : SessionSystem) (id : LicenseId) (bindingHash : String)
    (maxSessions : Int) (token : String) : SessionStore × SessionRegistrationResult :=
  registerSession state.store id (state.revisions id) bindingHash ttl maxSessions token

def next (ttl : Nat) (state : SessionSystem) : SessionEvent → SessionSystem
  | .register id bindingHash maxSessions token =>
      { state with
        store := (state.register ttl id bindingHash maxSessions token).1
        issued := token :: state.issued }
  | .refresh token bindingHash =>
      { state with store := (refreshSession state.store token bindingHash ttl).1 }
  | .remove token bindingHash =>
      { state with store := (removeSession state.store token bindingHash).1 }
  | .removeAll id preserveFromRevision =>
      { state with store := (removeAllSessions state.store id preserveFromRevision).1 }
  | .bump id =>
      { state with revisions := Function.update state.revisions id (state.revisions id + 1) }
  | .advance elapsed => { state with store := state.store.advance elapsed }

def Admissible (state : SessionSystem) : SessionEvent → Prop
  | .register _ _ _ token => token ∉ state.issued
  | _ => True

inductive Reachable (ttl : Nat) : SessionSystem → Prop
  | start (now : Instant) (revisions : LicenseId → Nat) : Reachable ttl (start now revisions)
  | step {state : SessionSystem} (event : SessionEvent) :
      Reachable ttl state → state.Admissible event → Reachable ttl (state.next ttl event)

def isCurrent (state : SessionSystem) (id : LicenseId) (token : String) : Bool :=
  match (state.store.get token).bind sessionFields with
  | some fields =>
      fields.licenseId = id.text && fields.revision = Nat.repr (state.revisions id)
  | none => false

def currentSessions (state : SessionSystem) (id : LicenseId) : List String :=
  state.issued.filter (state.isCurrent id)

theorem reachable_kept {ttl : Nat} {state : SessionSystem} (reachable : Reachable ttl state) :
    Kept ttl state.issued state.store ∧ state.issued.Nodup := by
  induction reachable with
  | start now revisions =>
      refine ⟨⟨?_, by simp [start, Store.get]⟩, .nil⟩
      have empty : ∀ index, (start now revisions).store.smembers index = [] := fun _ => rfl
      constructor
      · rintro key value expiresAt ⟨⟩
      · rintro key value expiresAt index ⟨⟩
      · rintro key value expiresAt index deadline ⟨⟩
      · intro key index value member
        simp [empty] at member
      · intro key present
        exact absurd rfl present
      · intro key index member
        simp [empty] at member
  | @step state event _ admissible ih =>
      obtain ⟨kept, nodup⟩ := ih
      cases event with
      | register id bindingHash maxSessions token =>
          exact ⟨registerSession_kept kept admissible, List.nodup_cons.mpr ⟨admissible, nodup⟩⟩
      | refresh token bindingHash => exact ⟨refreshSession_kept kept, nodup⟩
      | remove token bindingHash => exact ⟨removeSession_kept kept, nodup⟩
      | removeAll id preserveFromRevision => exact ⟨removeAllSessions_kept kept _, nodup⟩
      | bump id => exact ⟨kept, nodup⟩
      | advance elapsed => exact ⟨advance_kept kept elapsed, nodup⟩

section Current

variable {ttl : Nat} {state : SessionSystem} {id : LicenseId}

theorem isCurrent_iff (kept : Kept ttl state.issued state.store) {token : String} :
    state.isCurrent id token = true ↔
      ∃ binding, Carries state.store token ⟨id, state.revisions id, binding⟩ := by
  simp only [isCurrent]
  constructor
  · intro current
    cases present : state.store.get token with
    | none => simp [present] at current
    | some value =>
        obtain ⟨session, rfl⟩ := kept.sessions token value present
        simp only [present, Option.bind_some, sessionFields_value, Bool.and_eq_true,
          decide_eq_true_eq, repr_inj] at current
        obtain ⟨owner, revision, binding⟩ := session
        obtain rfl : owner = id := licenseId_ext current.1
        obtain rfl : revision = state.revisions owner := current.2
        exact ⟨binding, present⟩
  · rintro ⟨binding, carried⟩
    rw [Carries] at carried
    simp [carried]

theorem mem_currentSessions (kept : Kept ttl state.issued state.store) {token : String} :
    token ∈ state.currentSessions id ↔
      ∃ binding, Carries state.store token ⟨id, state.revisions id, binding⟩ := by
  rw [currentSessions, List.mem_filter, isCurrent_iff kept]
  constructor
  · exact And.right
  · rintro ⟨binding, carried⟩
    obtain ⟨expiresAt, stored, -⟩ := get_some.mp carried
    exact ⟨kept.indexed.knownKeys token (by simp [stored]), binding, carried⟩

theorem scard_pruned (id : LicenseId) (kept : Kept ttl state.issued state.store)
    (nodup : state.issued.Nodup) :
    (state.store.sweep id.text fun value => (staleMember (Nat.repr (state.revisions id)) value,
      staleMember (Nat.repr (state.revisions id)) value)).1.scard id.text =
      (state.currentSessions id).length := by
  refine List.Perm.length_eq ((List.perm_ext_iff_of_nodup (live _ _).nodup (nodup.filter _)).mpr ?_)
  intro token
  refine (sweep_mem id.text _ state.store token id.text).trans ?_
  refine Iff.trans ?_ (mem_currentSessions kept).symm
  simp only [true_and]
  constructor
  · rintro ⟨member, kept'⟩
    have current := fun stale => kept' ⟨member, stale⟩
    cases present : state.store.get token with
    | none => exact absurd (by simp [present, staleMember]) current
    | some value =>
        obtain ⟨session, rfl⟩ := kept.sessions token value present
        simp only [present, staleMember_value, decide_eq_true_eq, imp_false, not_not] at current
        have home := kept.indexed.home token id.text _ member present
        obtain ⟨owner, revision, binding⟩ := session
        simp only [valueOwner_value, Option.some.injEq] at home
        obtain rfl : owner = id := licenseId_ext home
        obtain rfl : revision = state.revisions owner := current
        exact ⟨binding, present⟩
  · rintro ⟨binding, carried⟩
    obtain ⟨expiresAt, stored, inTime⟩ := get_some.mp carried
    refine ⟨kept.indexed.member token _ expiresAt id.text stored inTime (valueOwner_value _), ?_⟩
    rw [Carries] at carried
    simp [carried]

theorem currentSessions_register {bindingHash token : String} {maxSessions : Int}
    (kept : Kept ttl state.issued state.store) (fresh : token ∉ state.issued)
    (registered : (state.register ttl id bindingHash maxSessions token).2 = .registered token) :
    (state.next ttl (.register id bindingHash maxSessions token)).currentSessions id =
      token :: state.currentSessions id := by
  have after : Kept ttl (token :: state.issued)
      (state.register ttl id bindingHash maxSessions token).1 := registerSession_kept kept fresh
  have carries := fun other session => @registerSession_carries state.store id
    (state.revisions id) ttl bindingHash token maxSessions other session
  change (state.register ttl id bindingHash maxSessions token).2 = _ at registered
  have current : ∀ other, (state.next ttl
      (.register id bindingHash maxSessions token)).isCurrent id other = true ↔
        other = token ∨ state.isCurrent id other = true := by
    intro other
    rw [isCurrent_iff (by exact after), isCurrent_iff kept]
    constructor
    · rintro ⟨binding, carried⟩
      have origin := (carries other _).mp carried
      split at origin
      · next new => exact .inl new.1
      · exact .inr ⟨binding, origin.1⟩
    · intro origin
      by_cases new : other = token
      · refine ⟨bindingHash, (carries other _).mpr ?_⟩
        rw [if_pos ⟨new, registered⟩]
        rfl
      · obtain ⟨binding, carried⟩ := origin.resolve_left new
        refine ⟨binding, (carries other _).mpr ?_⟩
        rw [if_neg fun both => new both.1]
        exact ⟨carried, fun stale => stale.2 rfl⟩
  change (token :: state.issued).filter _ = _
  rw [List.filter_cons_of_pos ((current token).mpr (.inl rfl))]
  refine congrArg (token :: ·) (List.filter_congr fun other member => ?_)
  have distinct : other ≠ token := fun same => fresh (same ▸ member)
  rw [Bool.eq_iff_iff, current other]
  exact ⟨fun origin => origin.resolve_left distinct, .inr⟩

end Current

/-- The cap, and the index invariant it rests on. -/
theorem session_cap {ttl : Nat} {state : SessionSystem} (reachable : Reachable ttl state) :
    (∀ id bindingHash maxSessions token, token ∉ state.issued → 0 < maxSessions →
      let result := (state.register ttl id bindingHash maxSessions token).2
      let registered := state.next ttl (.register id bindingHash maxSessions token)
      (result = .registered token → ((registered.currentSessions id).length : Int) ≤ maxSessions) ∧
        (result = .limitReached → maxSessions ≤ (state.currentSessions id).length)) ∧
    ∀ (token : String) (session : Session) (expiresAt : Int),
      state.store.keys token = some (session.value, expiresAt) → state.store.now ≤ expiresAt →
        token ∈ state.store.smembers session.licenseId.text ∧
          ∀ deadline, (state.store.live session.licenseId.text).expiresAt = some deadline →
            expiresAt ≤ deadline := by
  obtain ⟨kept, nodup⟩ := reachable_kept reachable
  refine ⟨?_, ?_⟩
  · intro id bindingHash maxSessions token fresh positive
    have pruned := scard_pruned id kept nodup
    constructor
    · intro registered
      have room : ((state.currentSessions id).length : Int) < maxSessions := by
        rw [← pruned]
        simp only [register, registerSession] at registered
        split at registered
        · cases registered
        · next room => omega
      have grown := currentSessions_register kept fresh registered
      rw [grown, List.length_cons]
      omega
    · intro refused
      rw [← pruned]
      simp only [register, registerSession] at refused
      split at refused
      · next full => exact full.2
      · cases refused
  · intro token session expiresAt stored inTime
    exact ⟨kept.indexed.member token _ expiresAt _ stored inTime (valueOwner_value session),
      fun deadline => kept.indexed.outlives token _ expiresAt _ deadline stored inTime
        (valueOwner_value session)⟩

theorem cap_id_plain : '|' ∉ "4f1c".toList := by decide

def sampleSessions : SessionSystem :=
  (start 0 fun _ => 1).next 45 (.register ⟨"4f1c", cap_id_plain⟩ "laptop" 1 "first")

theorem session_cap_sample :
    (sampleSessions.currentSessions ⟨"4f1c", by decide⟩).length = 1 ∧
      (1 : Int) ≤ (sampleSessions.currentSessions ⟨"4f1c", by decide⟩).length := by
  have reachable : Reachable 45 sampleSessions := .step _ (.start 0 fun _ => 1) List.not_mem_nil
  have capped := (session_cap reachable).1 ⟨"4f1c", by decide⟩ "phone" 1 "second" (by decide)
    (by decide)
  exact ⟨rfl, capped.2 rfl⟩

end SessionSystem

end Keyzori
