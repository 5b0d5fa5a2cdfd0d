import Keyzori.Server.Cleanups
import Keyzori.Server.StaleActivations

namespace Keyzori

open Interleaving ExpiringStore Store

variable {host : Host} {now : Instant} {state : ServerState}

/-- What the fences of a run are worth. The cleanup is only sure to spare the sessions of the
revision that the license has by then, since a revision is read again after it was moved on. -/
structure SessionsFenced (host : Host) (state : ServerState) : Prop where
  sessions : ∀ early fence late request id, state.view.history = early ++ fence :: late →
    state.view.requests fence.call = some request → Invalidates request fence id →
    ∀ reservation ∈ early, ∀ token, Admits reservation id token →
      ∀ call request, state.view.requests call = some request → request.presented = some token →
        ∀ response, state.pool call = some (.done (.ok response)) →
          ∀ read ∈ late, read.call = call → ∀ other, read.act ≠ .findLicense other
  activations : ∀ early fence late request id, state.view.history = early ++ fence :: late →
    state.view.requests fence.call = some request → Invalidates request fence id →
    ∀ call licenseKey deviceId ip, state.view.requests call = some (.activate licenseKey deviceId ip) →
      LookedUpBefore early call id →
      (∀ event ∈ early, event.call = call → event.act ≠ .lock (.registration id)) →
      (∀ event ∈ state.view.history, event.call = call → ∀ token, ¬Reserves event token) ∧
        ∀ result, state.pool call = some (.done result) → (∃ error, result = .error error) ∧
          ∀ event ∈ state.view.history, event.call = call →
            event.after.tables.licenses = event.before.tables.licenses
  rotations : ∀ early fence late id expected keyHash keyPrefix written,
    state.view.history = early ++ fence :: late →
    Landed fence id expected [.rotateKey keyHash keyPrefix] written →
    ∀ event ∈ state.view.history, ∀ token, Reserves event token → ∀ licenseKey deviceId ip,
      state.view.requests event.call = some (.activate licenseKey deviceId ip) →
      host.hashLicenseKey licenseKey = written.before.row.keyHash →
      event ∉ late ∧ ∀ call request, state.view.requests call = some request →
        request.presented = some token → ∀ response, state.pool call = some (.done (.ok response)) →
          ∀ read ∈ late, read.call = call → ∀ other, read.act ≠ .findLicense other
  cleanups : ∀ early cleanup late id preserve token session data,
    state.view.history = early ++ cleanup :: late → cleanup.act = .removeAllSessions id preserve →
    Carries cleanup.before.sessions token session →
    cleanup.before.tables.licenses session.licenseId = some data →
    data.row.sessionRevision ≤ session.revision →
    Carries cleanup.after.sessions token session ∨
      preserve = none ∧ id = session.licenseId ∧ ∃ customerId,
        state.view.requests cleanup.call = some (.deleteCustomer customerId) ∧
        ∃ first listing between deletion last,
          Moves early cleanup.call customerId id first listing between deletion last

theorem session_fencing (run : ServerRun host now state) : SessionsFenced host state where
  sessions _ _ _ _ _ history asked invalidates _ member _ admits _ _ requested presented _ ended _ listed mine other :=
    fenced_refused run history (invalidates_fences run history asked invalidates) member admits requested presented
      ended listed mine other
  activations _ _ _ _ _ history asked invalidates _ _ _ _ requested before unlocked :=
    stale_refused run history (invalidates_fences run history asked invalidates) requested before unlocked
  rotations _ _ _ _ _ _ _ _ history landed _ member _ reserves _ _ _ asked presented :=
    ⟨fun after => rotated_refused run history landed after reserves asked presented,
      fun _ _ requested presents _ ended _ listed mine other =>
        rotated_fenced run history landed member reserves asked presented requested presents ended listed mine other⟩
  cleanups _ _ _ _ _ _ _ _ history act carried present current :=
    cleanup_spared run history act carried present current

section Samples

theorem session_fencing_sample :
    (∃ state early fence late, ServerRun sampleHost 0 state ∧ state.view.history = early ++ fence :: late ∧
      (∃ reservation ∈ early, Admits reservation sampleId "214-0") ∧ (∃ event ∈ late, event.call = 4) ∧
      ∀ read ∈ late, read.call = 4 → ∀ other, read.act ≠ .findLicense other) ∧
    (∃ state early fence late, ServerRun sampleHost 0 state ∧ state.view.history = early ++ fence :: late ∧
      LookedUpBefore early 4 sampleId ∧ (∃ error, state.pool 4 = some (.done (.error error))) ∧
      (∀ event ∈ state.view.history, event.call = 4 → ∀ token, ¬Reserves event token) ∧
      ∃ event ∈ state.view.history, (∃ token, Reserves event token) ∧ event ∉ late) ∧
    ∃ state, ServerRun sampleHost 0 state ∧ ∃ cleanup ∈ state.view.history, ∃ id revision token session,
      cleanup.act = .removeAllSessions id (some revision) ∧ Carries cleanup.after.sessions token session := by
  refine ⟨?_, ?_, ?_⟩
  · obtain ⟨state, early, fence, late, _, _, written, request, response, run, history, operator, landed,
      ⟨reservation, member, admits⟩, beats, asked, presented, ended⟩ := overtaken_heartbeat
    exact ⟨state, early, fence, late, run, history, ⟨reservation, member, admits⟩, beats,
      (session_fencing run).sessions _ fence _ _ sampleId history operator (.committed none _ written rfl landed)
        reservation member "214-0" admits 4 request asked presented response ended⟩
  · obtain ⟨state, early, fence, late, keyHash, keyPrefix, written, licenseKey, deviceId, ip, result, run, history,
      operator, landed, stale, looked, unlocked, ended, event, listed, token, reserves, oldKey, oldDevice, oldIp,
      presented, key⟩ := overtaken_activation
    have fencing := session_fencing run
    obtain ⟨unreserved, failed⟩ := fencing.activations _ fence _ _ sampleId history operator
      (.committed none _ written rfl landed) 4 licenseKey deviceId ip stale looked unlocked
    obtain ⟨⟨error, rfl⟩, -⟩ := failed result ended
    exact ⟨state, early, fence, late, run, history, looked, ⟨error, ended⟩, unreserved, event, listed,
      ⟨token, reserves⟩, (fencing.rotations _ fence _ sampleId none keyHash keyPrefix written history landed event
        listed token reserves oldKey oldDevice oldIp presented key).1⟩
  · obtain ⟨state, early, cleanup, late, id, revision, token, session, data, run, history, act, carried, present,
      current⟩ := rotated_cleanup
    refine ⟨state, run, cleanup, by rw [history]; simp, id, revision, token, session, act, ?_⟩
    refine ((session_fencing run).cleanups _ cleanup _ id _ token session data history act carried present
      current).resolve_right ?_
    rintro ⟨none, -⟩
    cases none

/-- A termination that reads the revision only after another one has moved it on again. An
activation comes between the two. -/
def reloadedSample : List (Choice Input Move Request) :=
  subscriptionSample ++ sampleCall 2 (.terminateLicenseSessions sampleId) 2 2 ++
    sampleCall 3 (.activate "key 102" "laptop" "10.0.0.1") 3 22 ++
      sampleCall 4 (.terminateLicenseSessions sampleId) 4 2 ++ sampleActs 2 5 2 2

/-- A customer is deleted after its license was listed for the cleanup, and then moved away. -/
def movedSample : List (Choice Input Move Request) :=
  subscriptionSample ++ sampleCall 2 (.createCustomer "other") 2 2 ++
    sampleCall 3 (.activate "key 102" "laptop" "10.0.0.1") 3 22 ++
      sampleCall 4 (.deleteCustomer "customer") 4 2 ++
        sampleCall 5 (.updateLicense sampleId { customerId := some "other" }) 4 11 ++ sampleActs 4 5 2 2

/-- The second request has moved the revision on to the first. -/
def terminates (state : ServerState) (event : ServerEvent) : Bool :=
  match state.view.requests event.call, event.deed with
  | some (.terminateLicenseSessions owner), ⟨.commit id none [.incrementSessionRevision], .ok (some written)⟩ =>
      event.call = 2 && owner = sampleId && id = sampleId && written.after.row.sessionRevision = 1
  | _, _ => false

theorem terminates_landed {state : ServerState} {event : ServerEvent} (holds : terminates state event = true)
    (ran : ∃ input, exec event.call event.act input event.before = some (event.after, event.result)) :
    event.call = 2 ∧ state.view.requests event.call = some (.terminateLicenseSessions sampleId) ∧
      ∃ written, Landed event sampleId none [.incrementSessionRevision] written ∧
        written.after.row.sessionRevision = 1 := by
  unfold terminates at holds
  split at holds
  · next owner id written asked deed =>
    simp only [Bool.and_eq_true, decide_eq_true_eq] at holds
    obtain ⟨⟨⟨own, rfl⟩, rfl⟩, revision⟩ := holds
    exact ⟨own, asked, written, deed_landed deed ran, revision⟩
  · cases holds

def admits (event : ServerEvent) : Bool :=
  match event.deed with
  | ⟨.registerSession id _ _ _, .ok (.registered token)⟩ => id = sampleId && token = "314-0"
  | _ => false

theorem admits_sample {event : ServerEvent} (holds : admits event = true) : Admits event sampleId "314-0" := by
  unfold admits at holds
  split at holds
  · next id sessionRevision bindingHash maxSessions token deed =>
    simp only [Bool.and_eq_true, decide_eq_true_eq] at holds
    obtain ⟨rfl, rfl⟩ := holds
    exact ⟨_, _, _, deed⟩
  · cases holds

/-- A cleanup of the call ends the session of a license that is still there. -/
def ends (call revision latest : Nat) (event : ServerEvent) : Bool :=
  match event.act with
  | .removeAllSessions id _ => event.call = call && id = sampleId &&
      event.before.sessions.get "314-0" = some (Session.value ⟨sampleId, revision, "10.0.0.1 laptop"⟩) &&
        event.after.sessions.get "314-0" = none &&
          (event.before.tables.licenses sampleId).any fun data => data.row.sessionRevision = latest
  | _ => false

theorem ends_cleanup {revision latest : Nat} {cleanup : ServerEvent} {call : Nat}
    (holds : ends call revision latest cleanup = true) : cleanup.call = call ∧
      ∃ preserve session data, cleanup.act = .removeAllSessions sampleId preserve ∧
        Carries cleanup.before.sessions "314-0" session ∧ ¬Carries cleanup.after.sessions "314-0" session ∧
        session.licenseId = sampleId ∧ session.revision = revision ∧
        cleanup.before.tables.licenses sampleId = some data ∧ data.row.sessionRevision = latest := by
  unfold ends at holds
  split at holds
  · next id preserve act =>
    simp only [Bool.and_eq_true, decide_eq_true_eq] at holds
    obtain ⟨⟨⟨⟨own, rfl⟩, carried⟩, gone⟩, there⟩ := holds
    obtain ⟨data, present, same⟩ := (Option.any_eq_true _ _).mp there
    refine ⟨own, preserve, ⟨sampleId, revision, "10.0.0.1 laptop"⟩, data, act, carried, fun carries => ?_, rfl, rfl,
      present, of_decide_eq_true same⟩
    cases gone.symm.trans carries
  · cases holds

def deletes (state : ServerState) : Bool :=
  match state.view.requests 4 with
  | some (.deleteCustomer _) => true
  | _ => false

/-- The cleanup of a termination ends a session that an activation registered after it, under
the revision that it made; and the cleanup of a deletion ends a session of a license that it
did not delete, under the revision of the license. -/
theorem cleanups_overreach :
    (∃ state early fence between reservation rest cleanup late written session, ServerRun sampleHost 0 state ∧
      state.view.history = early ++ fence :: (between ++ reservation :: (rest ++ cleanup :: late)) ∧
      state.view.requests fence.call = some (.terminateLicenseSessions sampleId) ∧ cleanup.call = fence.call ∧
      Landed fence sampleId none [.incrementSessionRevision] written ∧ Admits reservation sampleId "314-0" ∧
      written.after.row.sessionRevision ≤ session.revision ∧ session.licenseId = sampleId ∧
      cleanup.before.tables.licenses sampleId ≠ none ∧
      (∃ preserve, cleanup.act = .removeAllSessions sampleId preserve) ∧
      Carries cleanup.before.sessions "314-0" session ∧ ¬Carries cleanup.after.sessions "314-0" session) ∧
    ∃ state cleanup session data, ServerRun sampleHost 0 state ∧ cleanup ∈ state.view.history ∧
      (∃ customerId, state.view.requests cleanup.call = some (.deleteCustomer customerId)) ∧
      cleanup.before.tables.licenses sampleId = some data ∧ data.row.sessionRevision ≤ session.revision ∧
      session.licenseId = sampleId ∧ (∃ preserve, cleanup.act = .removeAllSessions sampleId preserve) ∧
      Carries cleanup.before.sessions "314-0" session ∧ ¬Carries cleanup.after.sessions "314-0" session := by
  constructor
  · obtain ⟨state, run, holds⟩ := @sampled_run reloadedSample (fun state =>
      state.view.history.any (terminates state) &&
        let after := eventsAfter (terminates state) state.view.history
        after.any admits && (eventsAfter admits after).any (ends 2 1 2)) (by decide +kernel)
    simp only [Bool.and_eq_true] at holds
    obtain ⟨fenced, registered, ended⟩ := holds
    obtain ⟨fence, history, terminates⟩ := first_event fenced
    obtain ⟨reservation, shape, admits⟩ := first_event registered
    obtain ⟨cleanup, member, ends⟩ := List.any_eq_true.mp ended
    obtain ⟨rest, late, last⟩ := List.append_of_mem member
    rw [last] at shape
    rw [shape] at history
    obtain ⟨own, asked, written, landed, revision⟩ := terminates_landed terminates
      ((server_run_sound run).recorded fence (by rw [history]; simp)).ran
    obtain ⟨mine, preserve, session, data, act, carried, gone, home, same, present, -⟩ := ends_cleanup ends
    exact ⟨state, _, fence, _, reservation, rest, cleanup, late, written, session, run, history, asked,
      mine.trans own.symm, landed, admits_sample admits, by omega, home, by simp [present], ⟨preserve, act⟩, carried,
      gone⟩
  · obtain ⟨state, run, holds⟩ := @sampled_run movedSample
      (fun state => deletes state && state.view.history.any (ends 4 0 0)) (by decide +kernel)
    obtain ⟨asked, ended⟩ := (Bool.and_eq_true _ _).mp holds
    obtain ⟨cleanup, member, ends⟩ := List.any_eq_true.mp ended
    obtain ⟨mine, preserve, session, data, act, carried, gone, home, same, present, latest⟩ := ends_cleanup ends
    unfold deletes at asked
    split at asked
    · next customerId requested =>
      exact ⟨state, cleanup, session, data, run, member, ⟨customerId, mine ▸ requested⟩, present, by omega, home,
        ⟨preserve, act⟩, carried, gone⟩
    · cases asked

end Samples

end Keyzori
