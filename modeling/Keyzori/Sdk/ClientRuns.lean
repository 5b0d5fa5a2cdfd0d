import Keyzori.Sdk.ClientProtocol

namespace Keyzori.Sdk

section Replies

variable {client : LicenseClient} {id : Nat} {request : Request}

theorem settle_sound (sound : Sound client) (member : (id, request) ∈ client.pending) :
    Sound (client.settle id) := by
  obtain ⟨sent, unsettled⟩ := (sound.flight id request).mp member
  have fewer : (client.settle id).pending ⊆ client.pending := List.filter_subset_self _
  have less : heartbeats (client.settle id) ≤ heartbeats client :=
    Nat.add_le_add_left ((List.filter_sublist.filter _).length_le) _
  refine ⟨legal_append sound.legal ⟨unsettled, request, sent⟩, ?_, ?_, ?_, sound.idle,
    fun id member => sound.activating id (fewer member), sound.result, ?_, Nat.le_trans less sound.heartbeats,
    fun id token member => sound.heartbeatRequest id token (fewer member),
    fun id token member => sound.usageRequests id token (fewer member), sound.called, ?_, ?_, ?_⟩
  · simpa [LicenseClient.settle, LicenseClient.record, stateOf_append] using sound.state
  · intro other same
    simp only [LicenseClient.settle, LicenseClient.record, List.mem_filter, List.mem_append,
      List.mem_singleton, reduceCtorEq, or_false, Entry.settled.injEq, sound.flight]
    grind
  · simpa [LicenseClient.settle, LicenseClient.record] using sound.fresh
  · intro early
    obtain ⟨none, sessions, unready⟩ := sound.begun early
    refine ⟨Nat.le_zero.mp (none ▸ less), ?_, ?_⟩
    · simpa [LicenseClient.settle, LicenseClient.record] using sessions
    · simpa [LicenseClient.settle, LicenseClient.record] using unready
  · intro called
    exact (not_deactivating_append (by simp)).mpr (sound.deactivating called)
  · have phase := sound.phase
    simp only [Phase, LicenseClient.settle, LicenseClient.record] at phase ⊢
    split
    case h_6 asked =>
      simp only [asked] at phase
      simp [phase.2] at member
    all_goals
      next asked =>
        have quiet := @not_deactivating_append client.log (.settled id) (by simp)
        simp only [asked, quiet] at phase ⊢
        simp only [lastSession_append, List.mem_append, List.mem_singleton, reduceCtorEq, or_false,
          List.mem_filter]
        grind
  · intro open'
    simpa [LicenseClient.settle, LicenseClient.record, lastSession_append] using sound.token open'

theorem settle_heartbeats (sound : Sound client) (member : (id, request) ∈ client.pending)
    (beats : request.isHeartbeat = true) : heartbeats (client.settle id) = 0 := by
  have bound := sound.heartbeats
  have counted : (id, request) ∈ client.pending.filter fun entry => entry.2.isHeartbeat :=
    List.mem_filter.mpr ⟨member, beats⟩
  have one := List.length_pos_of_mem counted
  unfold heartbeats at bound
  have timers : client.timers.length = 0 := by omega
  have alone : (client.pending.filter fun entry => entry.2.isHeartbeat) = [(id, request)] := by
    obtain ⟨only, single⟩ := List.length_eq_one_iff.mp (by omega :
      (client.pending.filter fun entry => entry.2.isHeartbeat).length = 1)
    rw [single] at counted ⊢
    rw [List.mem_singleton.mp counted]
  have gone : ((client.settle id).pending.filter fun entry => entry.2.isHeartbeat) = [] := by
    rw [LicenseClient.settle, List.filter_filter, List.filter_congr (fun entry _ => Bool.and_comm _ _),
      ← List.filter_filter, alone]
    simp
  rw [heartbeats, gone]
  exact timers

theorem schedule_sound (sound : Sound client) (none : heartbeats client = 0) :
    Sound client.scheduleHeartbeat := by
  unfold LicenseClient.scheduleHeartbeat
  split
  · exact sound
  · next active =>
    rw [not_not] at active
    obtain ⟨legal, state, flight, fresh, idle, activating, result, begun, beats, request, usage,
      called, deactivating, phase, token⟩ := sound
    refine ⟨legal, state, flight, fun id request sent => Nat.lt_succ_of_lt (fresh id request sent), idle,
      activating, result, fun early => ?_, ?_, request, usage, called, deactivating, phase, token⟩
    · rcases early with first | second
      · exact absurd (active.symm.trans first) (by decide)
      · exact absurd (active.symm.trans second) (by decide)
    · simp only [heartbeats, List.length_append, List.length_singleton] at none ⊢
      omega

theorem storeSession_sound (sound : Sound client) (response : ActivateResponse)
    (begun : client.state ≠ .idle ∧ client.state ≠ .activating)
    (early : ∀ id, client.deactivation ≠ some (.request id)) : Sound (client.storeSession response) := by
  refine ⟨legal_append sound.legal trivial, ?_, ?_, ?_, sound.idle, sound.activating, fun _ => rfl,
    fun wrong => absurd wrong (not_or.mpr begun), sound.heartbeats, sound.heartbeatRequest,
    sound.usageRequests, sound.called, ?_, ?_, ?_⟩
  · simpa [LicenseClient.storeSession, LicenseClient.record, stateOf_append] using sound.state
  · simpa [LicenseClient.storeSession, LicenseClient.record] using sound.flight
  · simpa [LicenseClient.storeSession, LicenseClient.record] using sound.fresh
  · intro called
    exact (not_deactivating_append (by simp)).mpr (sound.deactivating called)
  · have phase := sound.phase
    simp only [Phase, LicenseClient.storeSession, LicenseClient.record] at phase ⊢
    split
    case h_5 id asked => exact absurd asked (early id)
    all_goals
      next asked =>
        have quiet := @not_deactivating_append client.log (.session response.sessionToken) (by simp)
        simp only [asked, quiet] at phase ⊢
        simpa using phase
  · intro _
    simp [LicenseClient.storeSession, LicenseClient.record, lastSession_append]

theorem activated_sound (sound : Sound client) (response : ActivateResponse)
    (activating : client.state = .activating) (begun : client.activation.isSome)
    (alone : ∀ id, (id, .activate) ∉ client.pending) :
    Sound ((client.storeSession response).setState .active) := by
  have closed : client.deactivation = none := (called_none sound).mpr (by simp [activating])
  have phase := phase_none sound closed
  have stored : Legal (client.storeSession response).log := legal_append sound.legal trivial
  have state : stateOf (client.storeSession response).log = .activating := by
    simpa [LicenseClient.storeSession, LicenseClient.record, stateOf_append, activating] using sound.state
  refine ⟨legal_append stored ⟨?_, .inl ?_, (fun wrong => by cases wrong)⟩, ?_, ?_, ?_, ?_,
    fun id member => absurd member (alone id), fun _ => rfl, (by simp [LicenseClient.setState]), sound.heartbeats,
    sound.heartbeatRequest, sound.usageRequests, ?_, ?_, ?_, ?_⟩
  · exact activating.trans state.symm
  · simp [LicenseClient.storeSession, LicenseClient.record, activating, ClientState.rank]
  · simp [LicenseClient.setState, LicenseClient.record, stateOf_append]
  · simpa [LicenseClient.setState, LicenseClient.storeSession, LicenseClient.record] using sound.flight
  · simpa [LicenseClient.setState, LicenseClient.storeSession, LicenseClient.record] using sound.fresh
  · intro unstarted
    exact absurd unstarted (by simpa [LicenseClient.setState, LicenseClient.storeSession,
      LicenseClient.record, Option.isSome_iff_ne_none] using begun)
  · simp [LicenseClient.setState, LicenseClient.storeSession, LicenseClient.record, closed]
  · simp [LicenseClient.setState, LicenseClient.storeSession, LicenseClient.record, closed]
  · simp only [Phase, LicenseClient.setState, LicenseClient.storeSession, LicenseClient.record, closed]
    refine ⟨fun called => phase.1 ?_, by simpa using phase.2⟩
    exact (not_deactivating_append (by simp)).mp ((not_deactivating_append (by simp)).mp called)
  · intro _
    exact ((lastSession_moved _ _).trans (lastSession_session _)).symm

theorem rejectActivation_sound (sound : Sound client) (sent : .sent id .activate ∈ client.log)
    (settled : .settled id ∈ client.log) (alone : ∀ id, (id, .activate) ∉ client.pending) :
    Sound (client.rejectActivation id) := by
  have recorded : Sound (client.record (.activationFailed id)) :=
    quiet_sound sound rfl ⟨sent, settled⟩ (fun same => by cases same)
  have back : Sound (if (client.record (.activationFailed id)).state = .activating then
      (client.record (.activationFailed id)).setState .idle else client.record (.activationFailed id)) := by
    split
    · next activating =>
      have closed := (called_none recorded).mpr (by simp [activating])
      have phase := phase_none recorded closed
      obtain ⟨none, sessions, unready⟩ := recorded.begun (.inr activating)
      refine ⟨legal_append recorded.legal ⟨recorded.state.symm, .inr ⟨activating, rfl, id, ?_⟩,
        (fun wrong => by cases wrong)⟩, ?_, ?_, ?_, fun _ => .inl rfl, fun id member => absurd member (alone id),
        (fun wrong => by cases wrong), fun _ => ⟨none, ?_, ?_⟩, recorded.heartbeats, recorded.heartbeatRequest,
        recorded.usageRequests, ?_, ?_, ?_, ?_⟩
      · simp [LicenseClient.record]
      · exact stateOf_append
      · simpa [LicenseClient.setState, LicenseClient.record] using recorded.flight
      · simpa [LicenseClient.setState, LicenseClient.record] using recorded.fresh
      · simpa [LicenseClient.setState, LicenseClient.record] using sessions
      · simpa [LicenseClient.setState, LicenseClient.record] using unready
      · simpa [LicenseClient.setState, LicenseClient.record] using closed
      · simp [LicenseClient.setState, LicenseClient.record, show client.deactivation = _ from closed]
      · simp only [Phase, LicenseClient.setState, LicenseClient.record, show client.deactivation = _ from closed]
        refine ⟨fun called => phase.1 ((not_deactivating_append (by simp)).mp called), ?_⟩
        simpa [LicenseClient.record] using phase.2
      · intro _
        exact (recorded.token (by simp [activating])).trans (lastSession_moved _ _).symm
    · exact recorded
  obtain ⟨legal, state, flight, fresh, idle, activating, result, begun, beats, request, usage,
    called, deactivating, phase, token⟩ := back
  exact ⟨legal, state, flight, fresh, idle, activating, result, begun, beats, request, usage,
    called, deactivating, phase, token⟩

theorem storeSession_follows (sound : Sound client) (response : ActivateResponse)
    (begun : client.state ≠ .idle ∧ client.state ≠ .activating)
    (early : ∀ id, client.deactivation ≠ some (.request id)) :
    Follows client (client.storeSession response) :=
  ⟨fun _ => storeSession_sound sound response begun early, Nat.le_refl _, List.subset_append_left _ _, fun _ => rfl⟩

theorem pending_early (sound : Sound client) (member : (id, request) ∈ client.pending)
    (stays : ∀ token, request ≠ .deactivate token) : ∀ last, client.deactivation ≠ some (.request last) := by
  intro last asked
  have phase := sound.phase
  simp only [Phase, asked] at phase
  obtain ⟨-, token, only, -⟩ := phase
  exact stays token (Prod.mk.inj (only _ member)).2

theorem activationReply_sound (sound : Sound client) (react : LicenseEvent → List Call)
    (member : (id, .activate) ∈ client.pending) (reply : Reply) :
    Sound (client.activationReply react id reply) := by
  have settled := settle_sound sound member
  obtain ⟨started, state⟩ := sound.activating id member
  have begun : (client.settle id).activation = some id := started
  have sent : .sent id .activate ∈ (client.settle id).log :=
    List.mem_append_left _ ((sound.flight id .activate).mp member).1
  have idled : .settled id ∈ (client.settle id).log := List.mem_append_right _ (.head _)
  have alone {next : LicenseClient} (sound : Sound next) (follows : Follows (client.settle id) next) :
      ∀ other, (other, .activate) ∉ next.pending := by
    intro other member
    have same := (sound.activating other member).1
    rw [follows.activation (by simp [begun]), begun] at same
    obtain rfl := Option.some.inj same
    exact ((sound.flight _ _).mp member).2 (follows.log idled)
  have rejects {next : LicenseClient} (follows : Follows (client.settle id) next) :
      Sound (next.rejectActivation id) :=
    rejectActivation_sound (follows.sound settled) (follows.log sent) (follows.log idled)
      (alone (follows.sound settled) follows)
  match reply with
  | .ok (some response) =>
      simp only [LicenseClient.activationReply]
      split
      · next overtaken =>
        have called : client.deactivation.isSome := state.resolve_left overtaken
        have begun : client.state ≠ .idle ∧ client.state ≠ .activating := by
          refine ⟨fun idle => ?_, overtaken⟩
          simpa [idle] using sound.called.mp called
        have early := pending_early sound member (by simp)
        exact rejects (storeSession_follows settled response begun early)
      · next activating =>
        rw [not_not] at activating
        have active := activated_sound settled response activating (by simp [begun])
          (alone settled (follows_refl _))
        obtain ⟨none, sessions, unready⟩ := settled.begun (.inr activating)
        have announced : Sound ((((client.settle id).storeSession response).setState .active).record
            (.emitted .ready)) := by
          refine quiet_sound active rfl ?_ (fun _ => by simp [LicenseClient.setState])
          simpa [Allowed, LicenseClient.setState, LicenseClient.storeSession, LicenseClient.record] using unready
        have follows := calls_follow ((((client.settle id).storeSession response).setState .active).record
            (.emitted .ready)) (react .ready)
        exact schedule_sound (follows.sound announced) (Nat.le_zero.mp (none ▸ follows.heartbeats))
  | .ok none => exact rejects (follows_refl _)
  | .failed => exact rejects (follows_refl _)
  | .rejection status code used =>
      exact rejects (emit_follows _ react (rejectionEvent_plain code))

theorem recordHeartbeatFailure_follows (client : LicenseClient) (react : LicenseEvent → List Call)
    (maxRetries : Nat) : Follows client (client.recordHeartbeatFailure react maxRetries) := by
  unfold LicenseClient.recordHeartbeatFailure
  split
  · exact follows_refl client
  · have failed := follows_trans
      (aside_follows client (client.failureStrikes + 1) client.throttleRetries
        client.expiryProtectedThrottleRetryUsed client.fatalCleanupScheduled client.fatalQueued)
      (emit_follows _ react (by simp : LicenseEvent.heartbeatFailed ≠ .ready))
    dsimp only
    split
    · exact follows_trans failed (follows_trans (emit_follows _ react (by simp)) (handleFatalError_follows _))
    · exact failed

theorem throttle_follows (client : LicenseClient) (react : LicenseEvent → List Call) (maxRetries : Nat)
    (used : Bool) : Follows client (client.throttle react maxRetries used) := by
  unfold LicenseClient.throttle
  have counted (used : Bool) := aside_follows client client.failureStrikes (client.throttleRetries + 1) used
    client.fatalCleanupScheduled client.fatalQueued
  dsimp only
  split
  · exact follows_trans (counted _) (follows_trans (emit_follows _ react (by simp))
      (handleFatalError_follows _))
  · exact follows_trans (counted _) (emit_follows _ react (by simp))

theorem heartbeatOutcome_follows (sound : Sound client) (react : LicenseEvent → List Call) (maxRetries : Nat)
    (begun : client.state ≠ .idle ∧ client.state ≠ .activating)
    (early : ∀ id, client.deactivation ≠ some (.request id)) (reply : Reply) :
    Follows client (client.heartbeatOutcome react maxRetries reply) := by
  match reply with
  | .ok (some response) =>
      have stored := follows_trans (storeSession_follows sound response begun early)
        (aside_follows (client.storeSession response) 0 0 false client.fatalCleanupScheduled client.fatalQueued)
      simp only [LicenseClient.heartbeatOutcome]
      split
      · exact follows_trans stored (emit_follows _ react (by simp))
      · exact stored
  | .rejection status code used =>
      simp only [LicenseClient.heartbeatOutcome]
      split_ifs
      · exact throttle_follows client react maxRetries used
      · exact follows_trans (emit_follows client react (rejectionEvent_plain code)) (handleFatalError_follows _)
      · exact recordHeartbeatFailure_follows client react maxRetries
  | .ok none => exact recordHeartbeatFailure_follows client react maxRetries
  | .failed => exact recordHeartbeatFailure_follows client react maxRetries

theorem heartbeatReply_sound (sound : Sound client) (react : LicenseEvent → List Call) (maxRetries : Nat)
    {token : String} (member : (id, .heartbeat token) ∈ client.pending) (reply : Reply) :
    Sound (client.heartbeatReply react maxRetries id reply) := by
  have counted : (id, .heartbeat token) ∈ client.pending.filter fun entry => entry.2.isHeartbeat :=
    List.mem_filter.mpr ⟨member, rfl⟩
  have begun : ¬(client.state = .idle ∨ client.state = .activating) := by
    intro early
    have none := (sound.begun early).1
    have one := List.length_pos_of_mem counted
    unfold heartbeats at none
    omega
  have early := pending_early sound member (by simp)
  have follows := heartbeatOutcome_follows (settle_sound sound member) react maxRetries (not_or.mp begun) early reply
  have kept := follows.sound (settle_sound sound member)
  simp only [LicenseClient.heartbeatReply]
  split
  · exact kept
  · exact schedule_sound kept (Nat.le_zero.mp (settle_heartbeats sound member rfl ▸ follows.heartbeats))

theorem usageReply_sound (sound : Sound client) (react : LicenseEvent → List Call) {token : String}
    (member : (id, .usage token) ∈ client.pending) (reply : Reply) :
    Sound (client.usageReply react id reply) := by
  have settled := settle_sound sound member
  match reply with
  | .rejection status code used =>
      have rejected := emit_follows (client.settle id) react (rejectionEvent_plain code)
      simp only [LicenseClient.usageReply]
      split
      · exact (follows_trans rejected (handleFatalError_follows _)).sound settled
      · exact rejected.sound settled
  | .ok _ => exact settled
  | .failed => exact settled

end Replies

section Steps

variable {client : LicenseClient} {id : Nat}

theorem not_inFlight (idled : client.inFlight id = false) (request : Request) : (id, request) ∉ client.pending := by
  intro member
  have flying : client.inFlight id = true := List.any_eq_true.mpr ⟨_, member, by simp⟩
  rw [idled] at flying
  cases flying

theorem finish_sound (sound : Sound client) (called : client.deactivation.isSome)
    (state : client.state = .deactivating) (idled : client.pending = [])
    (released : ∀ token, lastSession client.log = some token → ∃ id, .sent id (.deactivate token) ∈ client.log) :
    Sound client.finish := by
  refine ⟨legal_append sound.legal ⟨sound.state.symm, .inl ?_, fun _ => released⟩, ?_, ?_, ?_, fun _ => .inr rfl,
    ?_, (fun wrong => by cases wrong), (by simp [LicenseClient.finish, LicenseClient.setState]), sound.heartbeats,
    sound.heartbeatRequest, sound.usageRequests, ?_, ?_, ⟨rfl, idled⟩, fun open' => absurd rfl open'⟩
  · rw [state]
    decide
  · exact stateOf_append
  · simpa [LicenseClient.finish, LicenseClient.setState, LicenseClient.record] using sound.flight
  · simpa [LicenseClient.finish, LicenseClient.setState, LicenseClient.record] using sound.fresh
  · intro id member
    rw [show client.finish.pending = [] from idled] at member
    cases member
  · simp [LicenseClient.finish, LicenseClient.setState, LicenseClient.record]
  · intro _
    exact (not_deactivating_append (by simp)).mpr (sound.deactivating called)

theorem sendDeactivate_sound (sound : Sound client) (called : client.deactivation.isSome)
    (state : client.state = .deactivating) (idled : client.pending = [])
    (first : ∀ other token, .sent other (.deactivate token) ∉ client.log) {token : String}
    (stored : client.sessionToken = some token) :
    Sound { client.send (.deactivate token) with deactivation := some (.request client.next) } := by
  have last : lastSession client.log = some token := (sound.token (by simp [state])).symm.trans stored
  have unsent : ∀ request, .sent client.next request ∉ client.log := fun request member =>
    absurd (sound.fresh _ _ member) (Nat.lt_irrefl _)
  have settled : ∀ other request, .sent other request ∈ client.log → .settled other ∈ client.log := by
    intro other request sent
    by_contra unsettled
    have member := (sound.flight other request).mpr ⟨sent, unsettled⟩
    rw [idled] at member
    cases member
  have unsettled : .settled client.next ∉ client.log := by
    intro member
    obtain ⟨before, after, split⟩ := List.append_of_mem member
    obtain ⟨-, request, earlier⟩ := sound.legal before _ after split
    exact unsent request (split ▸ List.mem_append_left _ earlier)
  have sent : (client.send (.deactivate token)).pending = [(client.next, .deactivate token)] := by
    simp [LicenseClient.send, idled]
  refine ⟨legal_append sound.legal ⟨⟨unsent, first⟩, sound.deactivating called, settled, last⟩, ?_, ?_, ?_,
    fun _ => .inr rfl, ?_, sound.result, ?_, ?_, ?_, ?_, ?_, ?_, ?_, ?_⟩
  · simpa [LicenseClient.send, LicenseClient.record, stateOf_append] using sound.state
  · intro id request
    dsimp only
    rw [sent]
    simp only [LicenseClient.send, LicenseClient.record, List.mem_append, List.mem_singleton, Prod.mk.injEq,
      Entry.sent.injEq, reduceCtorEq, or_false]
    grind
  · intro id request member
    simp only [LicenseClient.send, LicenseClient.record, List.mem_append, List.mem_singleton,
      Entry.sent.injEq] at member ⊢
    rcases member with old | ⟨rfl, -⟩
    · exact Nat.lt_succ_of_lt (sound.fresh id request old)
    · exact Nat.lt_succ_self _
  · intro id member
    simp [sent] at member
  · intro early
    rcases early with idle | activating
    · exact absurd (state.symm.trans idle) (by decide)
    · exact absurd (state.symm.trans activating) (by decide)
  · have bound := sound.heartbeats
    simp only [heartbeats, sent, idled] at bound ⊢
    exact bound
  · intro id other member
    simp [sent] at member
  · intro id other member
    simp [sent] at member
  · simp [LicenseClient.send, LicenseClient.record, state]
  · intro _
    exact (not_deactivating_append (by simp)).mpr (sound.deactivating called)
  · refine ⟨state, token, ?_, List.mem_append_right _ (.head _), ?_⟩
    · simp [sent]
    · simpa [LicenseClient.send, LicenseClient.record, lastSession_append] using last
  · intro open'
    simpa [LicenseClient.send, LicenseClient.record, lastSession_append] using sound.token open'

theorem proceed_sound {next : LicenseClient} (sound : Sound client) (went : client.proceed = some next) :
    Sound next := by
  have phase := sound.phase
  unfold LicenseClient.proceed at went
  split at went
  · next request asked =>
    simp only [Phase, asked] at phase
    split at went
    · cases went
    · next idled =>
      obtain ⟨state, first, waited⟩ := phase
      have alone : ∀ id, (id, .activate) ∉ client.pending := by
        intro id member
        have same := waited id member
        rw [same] at idled
        exact not_inFlight (by simpa using idled) _ member
      obtain rfl := Option.some.inj went
      obtain ⟨legal, shown, flight, fresh, idle, activating, result, begun, beats, request, usage,
        called, deactivating, -, token⟩ := sound
      exact ⟨legal, shown, flight, fresh, fun _ => .inr rfl, fun id member => absurd member (alone id), result, begun,
        beats, request, usage, ⟨fun _ => .inl state, fun _ => rfl⟩, fun _ => deactivating (by simp [asked]),
        ⟨state, first, alone, request⟩, token⟩
  · next request asked =>
    simp only [Phase, asked] at phase
    split at went
    · cases went
    · next idled =>
      obtain ⟨state, first, alone, waited⟩ := phase
      have calm : ∀ id token, (id, .heartbeat token) ∉ client.pending := by
        intro id token member
        have same := waited id token member
        rw [same] at idled
        exact not_inFlight (by simpa using idled) _ member
      obtain rfl := Option.some.inj went
      obtain ⟨legal, shown, flight, fresh, idle, activating, result, begun, beats, request, usage,
        called, deactivating, -, token⟩ := sound
      exact ⟨legal, shown, flight, fresh, fun _ => .inr rfl, fun id member => absurd member (alone id), result, begun,
        beats, request, usage, ⟨fun _ => .inl state, fun _ => rfl⟩, fun _ => deactivating (by simp [asked]),
        ⟨state, first, alone, calm, usage⟩, token⟩
  · next requests asked =>
    simp only [Phase, asked] at phase
    split at went
    · cases went
    · next idled =>
      obtain ⟨state, first, alone, calm, waited⟩ := phase
      have called : client.deactivation.isSome := by simp [asked]
      have empty : client.pending = [] := by
        rw [List.eq_nil_iff_forall_not_mem]
        rintro ⟨id, request⟩ member
        cases request with
        | activate => exact alone id member
        | heartbeat token => exact calm id token member
        | usage token =>
            refine not_inFlight ?_ _ member
            by_contra flying
            exact idled (List.any_eq_true.mpr ⟨id, waited id token member, by simpa using flying⟩)
        | deactivate token => exact first id token ((sound.flight id _).mp member).1
      split at went
      · next unstored =>
        obtain rfl := Option.some.inj went
        refine finish_sound sound called state empty fun token last => ?_
        rw [← sound.token (by simp [state]), unstored] at last
        cases last
      · next token stored =>
        obtain rfl := Option.some.inj went
        exact sendDeactivate_sound sound called state empty first stored
  · cases went

theorem deactivateReply_sound (sound : Sound client) {token : String}
    (member : (id, .deactivate token) ∈ client.pending) : Sound (client.settle id).finish := by
  have phase := sound.phase
  have sent := ((sound.flight _ _).mp member).1
  obtain ⟨last, asked⟩ : ∃ last, client.deactivation = some (.request last) := by
    simp only [Phase] at phase
    split at phase
    · exact absurd sent (phase.2 _ _)
    · exact absurd sent (phase.2.1 _ _)
    · exact absurd sent (phase.2.1 _ _)
    · exact absurd sent (phase.2.1 _ _)
    · next last asked => exact ⟨last, asked⟩
    · rw [phase.2] at member
      cases member
  simp only [Phase, asked] at phase
  obtain ⟨state, token', only, done, latest⟩ := phase
  refine finish_sound (settle_sound sound member) (show client.deactivation.isSome by simp [asked]) state ?_ ?_
  · rw [List.eq_nil_iff_forall_not_mem]
    intro entry left
    obtain ⟨earlier, other⟩ := List.mem_filter.mp left
    rw [only _ earlier, ← (Prod.mk.inj (only _ member)).1] at other
    simp at other
  · intro token released
    have same : lastSession (client.settle id).log = lastSession client.log := by
      simp [LicenseClient.settle, LicenseClient.record, lastSession_append]
    rw [same, latest] at released
    obtain rfl := Option.some.inj released
    exact ⟨last, List.mem_append_left _ done⟩

theorem runHeartbeat_sound (sound : Sound client) (member : id ∈ client.timers) :
    Sound (client.runHeartbeat id) := by
  have bound := sound.heartbeats
  have one := List.length_pos_of_mem member
  unfold heartbeats at bound
  obtain ⟨timer, alone⟩ := List.length_eq_one_iff.mp (by omega : client.timers.length = 1)
  obtain rfl : id = timer := List.mem_singleton.mp (alone ▸ member)
  have calm : (client.pending.filter fun entry => entry.2.isHeartbeat) = [] :=
    List.length_eq_zero_iff.mp (by omega)
  have silent : ∀ other token, (other, .heartbeat token) ∉ client.pending := by
    intro other token beating
    have counted : (other, .heartbeat token) ∈ client.pending.filter fun entry => entry.2.isHeartbeat :=
      List.mem_filter.mpr ⟨beating, rfl⟩
    rw [calm] at counted
    cases counted
  have idle (started : Option Nat) (next : Nat) (fresh : client.next ≤ next) : Sound { client with
      timers := client.timers.filter fun live => live ≠ id
      heartbeatRequest := started
      next := next } := by
    have none : heartbeats { client with
        timers := client.timers.filter fun live => live ≠ id
        heartbeatRequest := started
        next := next } = 0 := by simp [heartbeats, alone, calm]
    refine ⟨sound.legal, sound.state, sound.flight, fun other request sent => Nat.lt_of_lt_of_le
      (sound.fresh other request sent) fresh, sound.idle, sound.activating, sound.result,
      fun early => ⟨none, (sound.begun early).2⟩, none ▸ Nat.zero_le 1,
      fun other token beating => absurd beating (silent other token), sound.usageRequests, sound.called,
      sound.deactivating, sound.phase, sound.token⟩
  unfold LicenseClient.runHeartbeat
  dsimp only
  split
  · exact idle _ _ (Nat.le_succ _)
  · next token stored =>
    split
    · exact idle _ _ (Nat.le_succ _)
    · next active =>
      rw [not_not] at active
      have closed : client.deactivation = none := (called_none sound).mpr (by simp [active])
      have phase := phase_none sound closed
      have resting := idle (some client.next) client.next (Nat.le_refl _)
      refine send_sound resting
        ⟨⟨fun request sent => absurd (sound.fresh _ _ sent) (Nat.lt_irrefl _), phase.2⟩, phase.1, ?_⟩ closed
        (by simp) (fun _ => ⟨by simp [heartbeats, alone, calm], rfl, active⟩) (by simp) (by simp)
      intro other token' sent
      by_contra unsettled
      exact silent other token' ((sound.flight _ _).mpr ⟨sent, unsettled⟩)

theorem catchActivation_sound (sound : Sound client) (rejected : List Nat) : Sound { client with
    rejected := rejected
    activation := if client.activation = some id ∧ client.state = .idle then none else client.activation } := by
  obtain ⟨legal, shown, flight, fresh, idle, activating, result, begun, beats, request, usage,
    called, deactivating, phase, token⟩ := sound
  refine ⟨legal, shown, flight, fresh, ?_, ?_, result, begun, beats, request, usage, called, deactivating,
    phase, token⟩
  · intro unstarted
    simp only at unstarted
    split at unstarted
    · next failed => exact .inl failed.2
    · exact idle unstarted
  · intro other member
    obtain ⟨started, state⟩ := activating other member
    have busy : client.state ≠ .idle := by
      intro waits
      rcases state with state | asked
      · exact absurd (waits.symm.trans state) (by decide)
      · simpa [waits] using called.mp asked
    exact ⟨by simpa [busy] using started, state⟩

theorem step_sound {maxRetries : Nat} {next : LicenseClient} (sound : Sound client) (taken : ClientStep)
    (went : step maxRetries client taken = some next) : Sound next := by
  cases taken with
  | call call =>
      obtain rfl := Option.some.inj went
      exact call_sound sound call
  | timer id =>
      simp only [step] at went
      split at went
      · next member =>
        obtain rfl := Option.some.inj went
        exact runHeartbeat_sound sound member
      · cases went
  | reply id reply react =>
      simp only [step] at went
      have found : ∀ {other request}, (client.pending.find? fun entry => entry.1 = id) = some (other, request) →
          (id, request) ∈ client.pending := by
        intro other request found
        obtain rfl : other = id := by simpa using List.find?_some found
        exact List.mem_of_find?_eq_some found
      split at went
      · next same =>
        obtain rfl := Option.some.inj went
        exact activationReply_sound sound react (found same) reply
      · next same =>
        obtain rfl := Option.some.inj went
        exact heartbeatReply_sound sound react maxRetries (found same) reply
      · next same =>
        obtain rfl := Option.some.inj went
        exact usageReply_sound sound react (found same) reply
      · next same =>
        obtain rfl := Option.some.inj went
        exact deactivateReply_sound sound (found same)
      · cases went
  | catchActivation id =>
      simp only [step] at went
      split at went
      · cases went
      · obtain rfl := Option.some.inj went
        exact catchActivation_sound sound _
  | finallyHeartbeat id =>
      simp only [step] at went
      split at went
      · cases went
      · next idled =>
        obtain rfl := Option.some.inj went
        obtain ⟨legal, shown, flight, fresh, idle, activating, result, begun, beats, request, usage,
          called, deactivating, phase, token⟩ := sound
        refine ⟨legal, shown, flight, fresh, idle, activating, result, begun, beats, ?_, usage, called,
          deactivating, phase, token⟩
        intro other token member
        have other' : client.heartbeatRequest ≠ some id := by
          intro same
          have this := request other token member
          rw [same] at this
          obtain rfl := Option.some.inj this
          have settled : client.inFlight id = false := by simpa using idled
          exact not_inFlight settled _ member
        simpa [other'] using request other token member
  | finallyUsage id =>
      simp only [step] at went
      split at went
      · cases went
      · next idled =>
        obtain rfl := Option.some.inj went
        obtain ⟨legal, shown, flight, fresh, idle, activating, result, begun, beats, request, usage,
          called, deactivating, phase, token⟩ := sound
        refine ⟨legal, shown, flight, fresh, idle, activating, result, begun, beats, request, ?_, called,
          deactivating, phase, token⟩
        intro other token member
        refine List.mem_filter.mpr ⟨usage other token member, decide_eq_true ?_⟩
        rintro rfl
        have settled : client.inFlight other = false := by simpa using idled
        exact not_inFlight settled _ member
  | fatalCleanup =>
      simp only [step] at went
      split at went
      · obtain rfl := Option.some.inj went
        exact deactivate_sound ((aside_follows client client.failureStrikes client.throttleRetries
          client.expiryProtectedThrottleRetryUsed client.fatalCleanupScheduled false).sound sound)
      · cases went
  | proceed => exact proceed_sound sound went

theorem reachable_sound {maxRetries : Nat} (reachable : Reachable maxRetries client) : Sound client := by
  induction reachable with
  | start => exact sound_start
  | step taken _ went ih => exact step_sound ih taken went

theorem deactivate_called (sound : Sound client) : Deactivating client.deactivate.log := by
  unfold LicenseClient.deactivate
  split
  · next asked => exact sound.deactivating asked
  · unfold LicenseClient.clearHeartbeatTimer
    split <;> exact ⟨client.state, List.mem_append_right _ (.head _)⟩

def play (maxRetries : Nat) (client : LicenseClient) : List ClientStep → Option LicenseClient
  | [] => some client
  | taken :: steps => (step maxRetries client taken).bind fun next => play maxRetries next steps

theorem play_reachable {maxRetries : Nat} {next : LicenseClient} (steps : List ClientStep)
    (reachable : Reachable maxRetries client) (played : play maxRetries client steps = some next) :
    Reachable maxRetries next := by
  induction steps generalizing client with
  | nil => exact Option.some.inj played ▸ reachable
  | cons taken steps ih =>
      obtain ⟨middle, went, rest⟩ := Option.bind_eq_some_iff.mp played
      exact ih (.step taken reachable went) rest

/-- A client follows its protocol, whatever is called, answered or fires when. -/
theorem client_protocol {maxRetries : Nat} (reachable : Reachable maxRetries client) :
    Legal client.log ∧ stateOf client.log = client.state ∧
      (∀ id request, (id, request) ∈ client.pending ↔
        .sent id request ∈ client.log ∧ .settled id ∉ client.log) ∧
      (∀ id other, (id, .activate) ∈ client.pending → (other, .activate) ∈ client.pending → id = other) ∧
      heartbeats client ≤ 1 ∧ Deactivating client.deactivate.log := by
  have sound := reachable_sound reachable
  refine ⟨sound.legal, sound.state, sound.flight, fun id other first second => ?_, sound.heartbeats,
    deactivate_called sound⟩
  exact Option.some.inj ((sound.activating id first).1.symm.trans (sound.activating other second).1)

def sampleSession : ActivateResponse where
  licenseType := .lifetime
  metadata := "{}"
  sessionToken := "0123456789abcdef0123456789abcdef"
  long := by decide

/-- A deactivation overtakes the answer to the activation. -/
def overtaken : List ClientStep :=
  [.call .activate, .call .deactivate, .reply 0 (.ok (some sampleSession)) (fun _ => []), .catchActivation 0,
    .proceed, .proceed, .proceed, .reply 1 .failed (fun _ => [])]

theorem client_protocol_sample : ∃ client, play 2 {} overtaken = some client ∧
    .sent 1 (.deactivate sampleSession.sessionToken) ∈ client.log ∧ client.state = .deactivated ∧
    Legal client.log ∧ heartbeats client ≤ 1 := by
  obtain ⟨client, played⟩ := Option.isSome_iff_exists.mp
    (by decide : (play 2 {} overtaken).isSome = true)
  have follows := client_protocol (play_reachable overtaken .start played)
  refine ⟨client, played, ?_, ?_, follows.1, follows.2.2.2.2.1⟩
  · obtain rfl := Option.some.inj (played.symm.trans (rfl : play 2 {} overtaken = _))
    decide
  · obtain rfl := Option.some.inj (played.symm.trans (rfl : play 2 {} overtaken = _))
    rfl

end Steps

end Keyzori.Sdk
