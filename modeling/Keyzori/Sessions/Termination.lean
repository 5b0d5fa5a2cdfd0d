import Keyzori.Sessions.Cap
import Mathlib.Data.Set.Card

namespace Keyzori

open ExpiringStore Store

/-- What `removeAllSessions` is to end: the sessions of the license, or those
below the revision that is preserved. -/
def Session.Ends (session : Session) (id : LicenseId) (preserveFromRevision : Option Nat) : Prop :=
  session.licenseId = id ∧ ∀ minimum, preserveFromRevision = some minimum → session.revision < minimum

section Termination

variable {ttl : Nat} {issued : List String} {store : SessionStore} {id : LicenseId}
  {preserveFromRevision : Option Nat} {token : String} {session : Session}

theorem carried_listed (kept : Kept ttl issued store) (carried : Carries store token session) :
    token ∈ store.smembers session.licenseId.text := by
  obtain ⟨expiresAt, stored, inTime⟩ := get_some.mp carried
  exact kept.indexed.member token _ expiresAt _ stored inTime (valueOwner_value session)

theorem listed_home (kept : Kept ttl issued store) (carried : Carries store token session)
    (member : token ∈ store.smembers id.text) : session.licenseId = id := by
  have home := kept.indexed.home token id.text _ member carried
  exact licenseId_ext (Option.some.inj ((valueOwner_value session).symm.trans home))

theorem ends_iff (kept : Kept ttl issued store) (carried : Carries store token session) :
    session.Ends id preserveFromRevision ↔ token ∈ store.smembers id.text ∧
      (removedMember preserveFromRevision (some session.value)).1 = true := by
  have chosen : (removedMember preserveFromRevision (some session.value)).1 = true ↔
      ∀ minimum, preserveFromRevision = some minimum → session.revision < minimum := by
    rw [removedMember_value]
    cases preserveFromRevision <;> simp
  rw [chosen]
  constructor
  · rintro ⟨rfl, below⟩
    exact ⟨carried_listed kept carried, below⟩
  · rintro ⟨member, below⟩
    exact ⟨listed_home kept carried member, below⟩

theorem smembers_dropEmptyIndex (store : SessionStore) (index other : String) :
    (dropEmptyIndex store index).smembers other = store.smembers other := by
  rw [dropEmptyIndex]
  split
  · next empty =>
      rw [delSet, smembers, live_put]
      · split
        · next same =>
            rw [same]
            exact (List.length_eq_zero_iff.mp empty).symm
        · rfl
      · rintro _ ⟨⟩
  · rfl

theorem removeAllSessions_keys (kept : Kept ttl issued store) (carried : Carries store token session)
    (spared : ¬session.Ends id preserveFromRevision) :
    (removeAllSessions store id preserveFromRevision).1.keys token = store.keys token := by
  have plain : ∀ store : SessionStore, (dropEmptyIndex store id.text).keys = store.keys := by
    intro store
    rw [dropEmptyIndex]
    split <;> rfl
  rw [removeAllSessions, plain, sweep_keys, if_neg]
  rw [ends_iff kept carried] at spared
  rwa [show store.get token = _ from carried]

theorem removeAllSessions_count (kept : Kept ttl issued store) :
    (removeAllSessions store id preserveFromRevision).2 =
      {token | ∃ session, Carries store token session ∧ session.Ends id preserveFromRevision}.ncard := by
  let deleted := (store.smembers id.text).filter fun token =>
    (removedMember preserveFromRevision (store.get token)).1 && (store.get token).isSome
  have listed : {token | ∃ session, Carries store token session ∧
      session.Ends id preserveFromRevision} = (deleted.toFinset : Set String) := by
    ext token
    simp only [Set.mem_ofPred_eq, List.coe_toFinset, deleted, List.mem_filter, Bool.and_eq_true]
    constructor
    · rintro ⟨session, carried, ends⟩
      obtain ⟨member, chosen⟩ := (ends_iff kept carried).mp ends
      rw [show store.get token = _ from carried]
      exact ⟨member, chosen, rfl⟩
    · rintro ⟨member, chosen, present⟩
      obtain ⟨value, stored⟩ := Option.isSome_iff_exists.mp present
      obtain ⟨session, rfl⟩ := kept.sessions token value stored
      rw [stored] at chosen
      exact ⟨session, stored, (ends_iff kept stored).mpr ⟨member, chosen⟩⟩
  have nodup : deleted.Nodup := (store.live id.text).nodup.filter _
  calc
    _ = deleted.length := sweep_count id.text (removedMember preserveFromRevision) store
    _ = deleted.toFinset.card := (List.toFinset_card_of_nodup nodup).symm
    _ = _ := by rw [listed, Set.ncard_coe_finset]

theorem removeAllSessions_members (kept : Kept ttl issued store)
    (carried : Carries store token session) (own : session.licenseId = id) :
    token ∈ (removeAllSessions store id preserveFromRevision).1.smembers id.text ↔
      ¬session.Ends id preserveFromRevision := by
  have member : token ∈ store.smembers id.text := own ▸ carried_listed kept carried
  have both : (removedMember preserveFromRevision (some session.value)).2 =
      (removedMember preserveFromRevision (some session.value)).1 := by
    rw [removedMember_value]
    cases preserveFromRevision <;> rfl
  rw [removeAllSessions, smembers_dropEmptyIndex, sweep_mem, ends_iff kept carried,
    show store.get token = _ from carried, both]
  simp only [member, true_and]

end Termination

namespace SessionSystem

/-- A termination ends every session it is to end and no other, counts them, and
leaves the index with the survivors. -/
theorem termination_exact {ttl : Nat} {state : SessionSystem} (reachable : Reachable ttl state)
    (id : LicenseId) (preserveFromRevision : Option Nat) :
    let after := removeAllSessions state.store id preserveFromRevision
    (∀ token value, after.1.get token = some value → ∃ session, Carries after.1 token session) ∧
    (∀ token session, Carries after.1 token session ↔
      Carries state.store token session ∧ ¬session.Ends id preserveFromRevision) ∧
    (∀ token session, Carries state.store token session → ¬session.Ends id preserveFromRevision →
      after.1.keys token = state.store.keys token) ∧
    after.2 = {token | ∃ session, Carries state.store token session ∧
      session.Ends id preserveFromRevision}.ncard ∧
    (∀ token session, Carries state.store token session → session.Ends id preserveFromRevision →
      token ∉ after.1.smembers id.text) ∧
    ∀ token session, Carries after.1 token session → session.licenseId = id →
      token ∈ after.1.smembers id.text := by
  obtain ⟨kept, -⟩ := reachable_kept reachable
  have exact_iff : ∀ token session,
      Carries (removeAllSessions state.store id preserveFromRevision).1 token session ↔
        Carries state.store token session ∧ ¬session.Ends id preserveFromRevision := by
    intro token session
    rw [removeAllSessions_carries]
    refine and_congr_right fun carried => not_congr ?_
    rw [ends_iff kept carried, removedMember_value]
    cases preserveFromRevision <;> simp
  refine ⟨?_, exact_iff, fun token session carried spared => removeAllSessions_keys kept carried spared,
    removeAllSessions_count kept, ?_, ?_⟩
  · intro token value present
    obtain ⟨session, rfl⟩ := (removeAllSessions_kept kept preserveFromRevision).sessions token value present
    exact ⟨session, present⟩
  · intro token session carried ends member
    exact (removeAllSessions_members kept carried ends.1).mp member ends
  · intro token session survived own
    obtain ⟨carried, spared⟩ := (exact_iff token session).mp survived
    exact (removeAllSessions_members kept carried own).mpr spared

theorem termination_exact_sample :
    (removeAllSessions sampleSessions.store ⟨"4f1c", by decide⟩ (some 2)).2 = 1 ∧
      ∀ token session, Carries sampleSessions.store token session →
        session.Ends ⟨"4f1c", by decide⟩ (some 2) →
          token ∉ (removeAllSessions sampleSessions.store ⟨"4f1c", by decide⟩
            (some 2)).1.smembers "4f1c" := by
  have reachable : Reachable 45 sampleSessions := .step _ (.start 0 fun _ => 1) List.not_mem_nil
  exact ⟨by decide +kernel, (termination_exact reachable ⟨"4f1c", by decide⟩ (some 2)).2.2.2.2.1⟩

end SessionSystem

end Keyzori
