import Keyzori.Sdk.HeartbeatSpacing

namespace Keyzori.Sdk

section Delays

variable {config : HeartbeatConfig} {sessionTtlSeconds : Int}

theorem clampHeartbeatInterval_bounds (valid : config.Valid) (sessionTtlSeconds : Int) :
    1 ≤ clampHeartbeatInterval config sessionTtlSeconds ∧
      clampHeartbeatInterval config sessionTtlSeconds ≤ config.requestedHeartbeatIntervalMs ∧
      clampHeartbeatInterval config sessionTtlSeconds ≤ max 1 (2000 * sessionTtlSeconds / 3) := by
  have interval := valid.interval.1
  have same : sessionTtlSeconds * 1000 * 2 / 3 = 2000 * sessionTtlSeconds / 3 := by
    congr 1
    omega
  simp only [clampHeartbeatInterval, same]
  omega

theorem clampHeartbeatInterval_budget
    (fits : config.requestTimeoutMs * 2 + renewalSafetyMs sessionTtlSeconds < sessionTtlSeconds * 1000) :
    clampHeartbeatInterval config sessionTtlSeconds + (config.requestTimeoutMs * 2 +
      renewalSafetyMs sessionTtlSeconds) ≤ sessionTtlSeconds * 1000 := by
  simp only [clampHeartbeatInterval, if_pos fits]
  omega

theorem renewalSafetyMs_bound (positive : 1 ≤ sessionTtlSeconds) : 100 ≤ renewalSafetyMs sessionTtlSeconds := by
  simp only [renewalSafetyMs]
  omega

theorem clampRetry_before (valid : config.Valid) {sessionExpiresAtMs now : Int} (left : 2 ≤ sessionExpiresAtMs - now)
    (desiredDelayMs : Int) :
    now + clampRetryBeforeSessionExpiry config (some sessionExpiresAtMs) now desiredDelayMs < sessionExpiresAtMs := by
  have timeout := valid.timeout.1
  simp only [clampRetryBeforeSessionExpiry]
  omega

end Delays

def TimedReply.opens : TimedReply → Bool
  | .ok (some _) => true
  | _ => false

def Request.opening : Request → Bool
  | .activate | .heartbeat _ => true
  | _ => false

/-- A step with exact timers, whose requests are over in time and open no session. -/
def Prompt (config : HeartbeatConfig) (timed : TimedClient) : TimedStep → Prop
  | .timer id => timed.now = timed.due id
  | .reply id reply _ => ∀ entry ∈ timed.client.pending, entry.1 = id → entry.2.opening = true →
      timed.now ≤ timed.requestStartedAtMs id + config.requestTimeoutMs ∧ reply.opens = false
  | _ => True

inductive Promptly (config : HeartbeatConfig) (opened : TimedClient) : TimedClient → Prop
  | refl : Promptly config opened opened
  | step {timed after : TimedClient} (taken : TimedStep) : Promptly config opened timed →
      timedStep config timed taken = some after → Prompt config timed taken → Promptly config opened after

/-- The first heartbeat of a session, and the one after it, from the time the
session was opened and the time it expires. -/
structure Budgeted (opened expiry interval : Int) (timed : TimedClient) : Prop where
  known : timed.sessionExpiresAtMs = some expiry
  calm : heartbeatsSent timed.client.log = 0 → ∀ id token, (id, .heartbeat token) ∉ timed.client.pending
  first : heartbeatsSent timed.client.log = 0 → ∀ id ∈ timed.client.timers, timed.due id = opened + interval
  flight : heartbeatsSent timed.client.log = 1 → ∀ id token, (id, .heartbeat token) ∈ timed.client.pending →
    timed.requestStartedAtMs id = opened + interval
  retry : heartbeatsSent timed.client.log = 1 → ∀ id ∈ timed.client.timers, timed.due id < expiry

section Steps

variable {config : HeartbeatConfig} {timed after : TimedClient} {client next : LicenseClient} {id : Nat}
  {opened expiry interval : Int}

theorem flying {request : Request} (member : (id, request) ∈ client.pending) : client.inFlight id = true :=
  List.any_eq_true.mpr ⟨_, member, decide_eq_true rfl⟩

theorem budgeted_mild (budgeted : Budgeted opened expiry interval timed) (mild : Mild timed.client after.client)
    (known : after.sessionExpiresAtMs = timed.sessionExpiresAtMs)
    (started : ∀ other, timed.client.inFlight other = true →
      after.requestStartedAtMs other = timed.requestStartedAtMs other)
    (due : ∀ other ∈ timed.client.timers, after.due other = timed.due other) :
    Budgeted opened expiry interval after := by
  refine ⟨known.trans budgeted.known, ?_, ?_, ?_, ?_⟩
  · rw [mild.sent]
    exact fun none id token member => budgeted.calm none id token (mild.pending id token member)
  · rw [mild.sent]
    intro none id member
    rw [due id (mild.timers.1 member)]
    exact budgeted.first none id (mild.timers.1 member)
  · rw [mild.sent]
    intro one id token member
    have before := mild.pending id token member
    rw [started id (flying before)]
    exact budgeted.flight one id token before
  · rw [mild.sent]
    intro one id member
    rw [due id (mild.timers.1 member)]
    exact budgeted.retry one id (mild.timers.1 member)

theorem failure_mild (client : LicenseClient) (react : LicenseEvent → List Call) (maxRetries : Nat) :
    Mild client (client.recordHeartbeatFailure react maxRetries) := by
  unfold LicenseClient.recordHeartbeatFailure
  split
  · exact mild_refl client
  · have failed := mild_trans (counters_mild client (client.failureStrikes + 1) client.throttleRetries
      client.expiryProtectedThrottleRetryUsed) (emit_steady _ react .heartbeatFailed).toMild
    dsimp only
    split
    · exact mild_trans failed (mild_trans (emit_steady _ react .networkOffline).toMild
        (handleFatalError_steady _).toMild)
    · exact failed

theorem throttle_mild (client : LicenseClient) (react : LicenseEvent → List Call) (maxRetries : Nat) (used : Bool) :
    Mild client (client.throttle react maxRetries used) := by
  unfold LicenseClient.throttle
  dsimp only
  split
  · exact mild_trans (counters_mild client client.failureStrikes (client.throttleRetries + 1)
      client.expiryProtectedThrottleRetryUsed) (mild_trans (emit_steady _ react .networkOffline).toMild
        (handleFatalError_steady _).toMild)
  · exact mild_trans (counters_mild client client.failureStrikes (client.throttleRetries + 1) _)
      (emit_steady _ react .heartbeatThrottled).toMild

theorem outcome_mild (client : LicenseClient) (react : LicenseEvent → List Call) (maxRetries : Nat) {reply : Reply}
    (failed : ∀ session, reply ≠ .ok (some session)) :
    Mild client (client.heartbeatOutcome react maxRetries reply) := by
  match reply with
  | .ok (some response) => exact absurd rfl (failed response)
  | .rejection status code used =>
      simp only [LicenseClient.heartbeatOutcome]
      split_ifs
      · exact throttle_mild client react maxRetries used
      · exact (steady_trans (emit_steady client react _) (handleFatalError_steady _)).toMild
      · exact failure_mild client react maxRetries
  | .ok none => exact failure_mild client react maxRetries
  | .failed => exact failure_mild client react maxRetries

theorem heartbeatReply_outcome (client : LicenseClient) (react : LicenseEvent → List Call) (maxRetries id : Nat)
    (reply : Reply) :
    let outcome := (client.settle id).heartbeatOutcome react maxRetries reply
    let next := client.heartbeatReply react maxRetries id reply
    next.log = outcome.log ∧ next.pending = outcome.pending ∧ next.state = outcome.state ∧
      (outcome.fatalCleanupScheduled = true → next.timers = outcome.timers) := by
  simp only [LicenseClient.heartbeatReply]
  split
  · exact ⟨rfl, rfl, rfl, fun _ => rfl⟩
  · next calm =>
    unfold LicenseClient.scheduleHeartbeat
    split
    · exact ⟨rfl, rfl, rfl, fun fatal => absurd fatal calm⟩
    · exact ⟨rfl, rfl, rfl, fun fatal => absurd fatal calm⟩

theorem handleFatalError_fatal (client : LicenseClient) : client.handleFatalError.fatalCleanupScheduled = true := by
  unfold LicenseClient.handleFatalError
  split
  · next scheduled => exact scheduled
  · rfl

theorem scheduledDelay_clamped {reply : TimedReply} {react : LicenseEvent → List Call} {token : String}
    (sound : Sound timed.client) (replied : Replied config timed id reply react (.heartbeat token) after)
    (failed : ∀ session, reply ≠ .ok (some session)) {other : Nat} (member : other ∈ after.client.timers) :
    ∃ desired, timed.scheduledDelay config reply =
      clampRetryBeforeSessionExpiry config timed.sessionExpiresAtMs timed.now desired := by
  match reply with
  | .ok (some session) => exact absurd rfl (failed session)
  | .ok none => exact ⟨_, rfl⟩
  | .failed => exact ⟨_, rfl⟩
  | .rejection status code retryAfter =>
      by_cases throttled : status = 429
      · exact ⟨_, if_pos throttled⟩
      · by_cases refused : 400 ≤ status ∧ status < 500
        · let seen := timed.untimed config (.rejection status code retryAfter)
          have outcome : (timed.client.settle id).heartbeatOutcome react config.maxRetries seen =
              ((timed.client.settle id).emit react (LicenseClient.rejectionEvent code)).handleFatalError :=
            (if_neg throttled).trans (if_pos refused)
          have stopped := (heartbeatReply_outcome timed.client react config.maxRetries id seen).2.2.2
            (outcome ▸ handleFatalError_fatal _)
          have quiet := (steady_trans (emit_steady (timed.client.settle id) react
            (LicenseClient.rejectionEvent code)) (handleFatalError_steady _)).timers.1
          rw [replied.client] at member
          have left := quiet (outcome ▸ stopped ▸ member)
          have none : timed.client.timers = [] := flight_timers sound replied.member
          rw [show (timed.client.settle id).timers = [] from none] at left
          cases left
        · exact ⟨_, (if_neg throttled).trans (if_neg refused)⟩

theorem opens_none {reply : TimedReply} (closed : reply.opens = false) : ∀ session, reply ≠ .ok (some session) := by
  rintro session rfl
  cases closed

theorem untimed_failed {reply : TimedReply} (failed : ∀ session, reply ≠ .ok (some session)) :
    ∀ session, timed.untimed config reply ≠ .ok (some session) := by
  intro session same
  match reply with
  | .ok (some session) => exact failed session rfl
  | .ok none => cases same
  | .failed => cases same
  | .rejection status code retryAfter => cases same

theorem answered_failed {reply : TimedReply} (failed : ∀ session, reply ≠ .ok (some session)) (request : Request) :
    (timed.answered config id request reply).sessionExpiresAtMs = timed.sessionExpiresAtMs := by
  unfold TimedClient.answered
  split
  · next session => exact absurd rfl (failed session)
  · next session => exact absurd rfl (failed session)
  · rfl

theorem failed_budgeted {reply : TimedReply} {react : LicenseEvent → List Call} {token : String}
    (sound : Sound timed.client) (budgeted : Budgeted opened expiry interval timed)
    (replied : Replied config timed id reply react (.heartbeat token) after)
    (failed : ∀ session, reply ≠ .ok (some session)) (active : after.client.state = .active)
    (soon : heartbeatsSent timed.client.log = 1 → ∀ desired,
      timed.now + clampRetryBeforeSessionExpiry config (some expiry) timed.now desired < expiry) :
    Budgeted opened expiry interval after := by
  have failed' : ∀ session, timed.untimed config reply ≠ .ok (some session) := untimed_failed failed
  have mild := outcome_mild (timed.client.settle id) react config.maxRetries failed'
  obtain ⟨log, pending, -, -⟩ := heartbeatReply_outcome timed.client react config.maxRetries id
    (timed.untimed config reply)
  have client : after.client = timed.client.heartbeatReply react config.maxRetries id (timed.untimed config reply) :=
    replied.client
  have sent : heartbeatsSent after.client.log = heartbeatsSent timed.client.log := by
    rw [client, log, mild.sent]
    exact heartbeatsSent_besides _ (.settled id) rfl
  have sending : heartbeatsSent timed.client.log ≠ 0 := fun none => budgeted.calm none id token replied.member
  refine ⟨?_, ?_, ?_, ?_, ?_⟩
  · rw [replied.expiry (by rw [active]; exact nofun), answered_failed failed]
    exact budgeted.known
  · exact fun none => absurd (sent.symm.trans none) sending
  · exact fun none => absurd (sent.symm.trans none) sending
  · intro one other token' member
    rw [client, pending] at member
    have before := mild.pending other token' member
    have counted : (other, .heartbeat token') ∈
        (timed.client.settle id).pending.filter fun entry => entry.2.isHeartbeat :=
      List.mem_filter.mpr ⟨before, rfl⟩
    have none := settle_heartbeats sound replied.member rfl
    have some := List.length_pos_of_mem counted
    unfold heartbeats at none
    omega
  · intro one other member
    obtain ⟨desired, clamped⟩ := scheduledDelay_clamped sound replied failed member
    rw [replied.due other, flight_timers sound replied.member, if_neg List.not_mem_nil, clamped, budgeted.known]
    exact soon (sent.symm.trans one) desired

theorem runHeartbeat_sends (id : Nat) {token : String} (active : client.state = .active)
    (stored : client.sessionToken = some token) :
    (client.runHeartbeat id).log = client.log ++ [.sent client.next (.heartbeat token)] ∧
      (client.runHeartbeat id).pending = client.pending ++ [(client.next, .heartbeat token)] ∧
      (client.runHeartbeat id).timers = client.timers.filter fun live => live ≠ id := by
  simp only [LicenseClient.runHeartbeat, stored, active, ne_eq, not_true_eq_false, if_false]
  exact ⟨rfl, rfl, rfl⟩

theorem fired_budgeted (sound : Sound timed.client) (paced : Paced config.maxRetries timed.client)
    (budgeted : Budgeted opened expiry interval timed) (active : timed.client.state = .active)
    (member : id ∈ timed.client.timers) (exact' : timed.now = timed.due id)
    (client : after.client = timed.client.runHeartbeat id)
    (known : after.sessionExpiresAtMs = timed.sessionExpiresAtMs)
    (started : ∀ other, after.requestStartedAtMs other =
      if timed.client.inFlight other then timed.requestStartedAtMs other else timed.now) :
    Budgeted opened expiry interval after := by
  obtain ⟨token, stored⟩ := Option.isSome_iff_exists.mp (paced.alive active).1
  obtain ⟨log, pending, timers⟩ := runHeartbeat_sends id active stored
  have sent : heartbeatsSent after.client.log = heartbeatsSent timed.client.log + 1 := by
    rw [client, log]
    exact heartbeatsSent_append _ _
  refine ⟨known.trans budgeted.known, ?_, ?_, ?_, ?_⟩
  · omega
  · omega
  · intro one other token' inside
    have none : heartbeatsSent timed.client.log = 0 := by omega
    rw [client, pending] at inside
    have fresh := (List.mem_append.mp inside).resolve_left (budgeted.calm none other token')
    obtain rfl := (Prod.mk.inj (List.mem_singleton.mp fresh)).1
    have idle : timed.client.inFlight timed.client.next = false := by
      rw [Bool.eq_false_iff]
      intro flies
      obtain ⟨⟨other, request⟩, listed, same⟩ := List.any_eq_true.mp flies
      obtain rfl : other = timed.client.next := of_decide_eq_true same
      exact Nat.lt_irrefl _ (sound.fresh _ request ((sound.flight _ request).mp listed).1)
    rw [started, idle]
    exact exact'.trans (budgeted.first none id member)
  · intro one other listed
    rw [client, timers, (timer_alone sound member).1] at listed
    simp at listed

theorem besides_budgeted {reply : TimedReply} {react : LicenseEvent → List Call} {request : Request}
    (budgeted : Budgeted opened expiry interval timed) (replied : Replied config timed id reply react request after)
    (steady : Steady timed.client after.client) (active : after.client.state = .active)
    (known : (timed.answered config id request reply).sessionExpiresAtMs = timed.sessionExpiresAtMs) :
    Budgeted opened expiry interval after := by
  refine budgeted_mild budgeted steady.toMild ?_ ?_ ?_
  · rw [replied.expiry (by rw [active]; exact nofun), known]
  · exact fun other flies => (replied.started other).trans (if_pos flies)
  · exact fun other member => (replied.due other).trans (if_pos member)

theorem reply_budgeted (valid : config.Valid) (sound : Sound timed.client) {reply : TimedReply}
    {react : LicenseEvent → List Call}
    (budgeted : timed.client.state = .active → Budgeted opened expiry interval timed)
    (room : opened + interval + config.requestTimeoutMs + 2 ≤ expiry)
    (went : timedStep config timed (.reply id reply react) = some after)
    (prompt : Prompt config timed (.reply id reply react)) (active : after.client.state = .active) :
    Budgeted opened expiry interval after := by
  obtain ⟨request, replied⟩ := timed_replied went
  have member := replied.member
  cases request with
  | activate =>
      have failed := opens_none (prompt _ member rfl rfl).2
      have failed' : ∀ session, timed.untimed config reply ≠ .ok (some session) := untimed_failed failed
      have steady : Steady timed.client after.client :=
        replied.client ▸ rejected_steady sound member react failed'
      exact besides_budgeted (budgeted (steady.beating active).1) replied steady active
        (answered_failed failed _)
  | heartbeat token =>
      obtain ⟨quick, closed⟩ := prompt _ member rfl rfl
      have failed := opens_none closed
      have failed' : ∀ session, timed.untimed config reply ≠ .ok (some session) := untimed_failed failed
      have here : timed.client.state = .active := by
        have state := (heartbeatReply_outcome timed.client react config.maxRetries id
          (timed.untimed config reply)).2.2.1
        rw [replied.client] at active
        exact ((outcome_mild _ react config.maxRetries failed').beating (state.symm.trans active)).1
      refine failed_budgeted sound (budgeted here) replied failed active fun one desired => ?_
      have started := (budgeted here).flight one id token member
      exact clampRetry_before valid (by omega) desired
  | usage token =>
      have steady : Steady timed.client after.client := replied.client ▸ usageReply_steady sound member react _
      exact besides_budgeted (budgeted (steady.beating active).1) replied steady active rfl
  | deactivate token =>
      have steady : Steady timed.client after.client :=
        replied.client ▸ steady_trans (settle_steady sound member rfl) (finish_steady _)
      exact besides_budgeted (budgeted (steady.beating active).1) replied steady active rfl

theorem prompt_budgeted (valid : config.Valid) (reachable : TimedReachable config timed)
    (budgeted : timed.client.state = .active → Budgeted opened expiry interval timed)
    (room : opened + interval + config.requestTimeoutMs + 2 ≤ expiry) {taken : TimedStep}
    (went : timedStep config timed taken = some after) (prompt : Prompt config timed taken)
    (active : after.client.state = .active) : Budgeted opened expiry interval after := by
  have sound := reachable_sound (timedReachable_reachable reachable)
  have paced := reachable_paced valid.retries (timedReachable_reachable reachable)
  cases taken with
  | tick elapsed =>
      obtain rfl := Option.some.inj went
      exact budgeted_mild (budgeted active) (mild_refl _) rfl (fun _ _ => rfl) fun _ _ => rfl
  | timer id =>
      simp only [timedStep] at went
      split at went
      · cases went
      · obtain ⟨next, stepped, rfl⟩ := Option.map_eq_some_iff.mp went
        obtain ⟨member, rfl, -⟩ := timer_paced sound paced stepped
        have here : timed.client.state = .active := by
          have state : (timed.client.runHeartbeat id).state = timed.client.state := by
            unfold LicenseClient.runHeartbeat
            dsimp only
            split
            · rfl
            · split <;> rfl
          exact state.symm.trans active
        refine fired_budgeted sound paced (budgeted here) here member prompt rfl (if_neg ?_) fun _ => rfl
        change (timed.client.runHeartbeat id).state ≠ _
        rw [show (timed.client.runHeartbeat id).state = .active from active]
        decide
  | reply id reply react => exact reply_budgeted valid sound budgeted room went prompt active
  | plain taken =>
      simp only [timedStep] at went
      split at went
      · next plain =>
        obtain ⟨next, stepped, rfl⟩ := Option.map_eq_some_iff.mp went
        have steady := plain_steady sound plain stepped
        refine budgeted_mild (budgeted (steady.beating active).1) steady.toMild (if_neg ?_)
          (fun other flies => if_pos flies) fun other member => if_pos member
        rw [show next.state = .active from active]
        decide
      · cases went

theorem heartbeats_none (none : heartbeats client = 0) :
    client.timers = [] ∧ ∀ id token, (id, .heartbeat token) ∉ client.pending := by
  unfold heartbeats at none
  refine ⟨List.length_eq_zero_iff.mp (by omega), fun id token member => ?_⟩
  have some := List.length_pos_of_mem (List.mem_filter.mpr ⟨member, rfl⟩ :
    (id, Request.heartbeat token) ∈ client.pending.filter fun entry => entry.2.isHeartbeat)
  omega

theorem schedule_log (client : LicenseClient) :
    client.scheduleHeartbeat.log = client.log ∧ client.scheduleHeartbeat.pending = client.pending ∧
      client.scheduleHeartbeat.state = client.state := by
  unfold LicenseClient.scheduleHeartbeat
  split <;> exact ⟨rfl, rfl, rfl⟩

theorem activated_rested (sound : Sound client) (member : (id, .activate) ∈ client.pending)
    (react : LicenseEvent → List Call) (response : ActivateResponse)
    (active : (client.activationReply react id (.ok (some response))).state = .active) :
    client.timers = [] ∧ heartbeatsSent (client.activationReply react id (.ok (some response))).log = 0 ∧
      ∀ other token, (other, .heartbeat token) ∉ (client.activationReply react id (.ok (some response))).pending := by
  simp only [LicenseClient.activationReply] at active ⊢
  split at active
  · next late =>
    have here := ((rejectActivation_steady _ id).beating active).1
    rcases (sound.activating id member).2 with activating | asked
    · exact absurd activating late
    · rcases sound.called.mp asked with state | state
      · exact absurd (state.symm.trans here) (by decide)
      · exact absurd (state.symm.trans here) (by decide)
  · next activating =>
    rw [not_not] at activating
    rw [if_neg (not_not_intro activating)]
    obtain ⟨timers, calm⟩ := heartbeats_none (sound.begun (.inr activating)).1
    have announced := emit_steady (((client.settle id).storeSession response).setState .active) react .ready
    obtain ⟨log, pending, -⟩ := schedule_log
      ((((client.settle id).storeSession response).setState .active).emit react .ready)
    refine ⟨timers, ?_, fun other token inside => ?_⟩
    · rw [log, announced.sent]
      have stored : heartbeatsSent ((client.settle id).storeSession response).log = 0 :=
        heartbeatsSent_append (client.settle id).log (.session response.sessionToken)
      exact (heartbeatsSent_append _ (.moved _ .active)).trans stored
    · rw [pending] at inside
      exact calm other token (List.filter_subset_self _ (announced.pending other token inside))

theorem renewed_rested (sound : Sound client) {token : String} (member : (id, .heartbeat token) ∈ client.pending)
    (react : LicenseEvent → List Call) (maxRetries : Nat) (response : ActivateResponse) :
    heartbeatsSent (client.heartbeatReply react maxRetries id (.ok (some response))).log = 0 ∧
      ∀ other token,
        (other, .heartbeat token) ∉ (client.heartbeatReply react maxRetries id (.ok (some response))).pending := by
  obtain ⟨-, calm⟩ := heartbeats_none (settle_heartbeats sound member rfl)
  obtain ⟨log, pending, -, -⟩ := heartbeatReply_outcome client react maxRetries id (.ok (some response))
  have stored : heartbeatsSent ((client.settle id).storeSession response).log = 0 :=
    heartbeatsSent_append (client.settle id).log (.session response.sessionToken)
  have counted := counters_mild ((client.settle id).storeSession response) 0 0 false
  have mild : Mild ((client.settle id).storeSession response)
      ((client.settle id).heartbeatOutcome react maxRetries (.ok (some response))) := by
    simp only [LicenseClient.heartbeatOutcome]
    split
    · exact mild_trans counted (emit_steady _ react .heartbeatSuccess).toMild
    · exact counted
  refine ⟨?_, fun other token inside => ?_⟩
  · rw [log, mild.sent, stored]
  · rw [pending] at inside
    exact calm other token (mild.pending other token inside)

theorem opened_budgeted (sound : Sound timed.client) {session : SessionAnswer} {react : LicenseEvent → List Call}
    {request : Request} (opening : request.opening = true)
    (replied : Replied config timed id (.ok (some session)) react request after)
    (active : after.client.state = .active) :
    Budgeted timed.now (timed.requestStartedAtMs id + session.sessionTtlSeconds * 1000)
      (clampHeartbeatInterval config session.sessionTtlSeconds) after := by
  have begins (timers : timed.client.timers = []) (none : heartbeatsSent after.client.log = 0)
      (calm : ∀ other token, (other, .heartbeat token) ∉ after.client.pending)
      (known : (timed.answered config id request (.ok (some session))).sessionExpiresAtMs =
        some (timed.requestStartedAtMs id + session.sessionTtlSeconds * 1000)) :
      Budgeted timed.now (timed.requestStartedAtMs id + session.sessionTtlSeconds * 1000)
        (clampHeartbeatInterval config session.sessionTtlSeconds) after := by
    refine ⟨?_, fun _ => calm, fun _ other member => ?_, fun one => ?_, fun one => ?_⟩
    · rw [replied.expiry (by rw [active]; exact nofun), known]
    · rw [replied.due other, timers, if_neg List.not_mem_nil]
      rfl
    · omega
    · omega
  have client := replied.client
  cases request with
  | activate =>
      rw [client] at active
      obtain ⟨timers, none, calm⟩ := activated_rested sound replied.member react _ active
      exact begins timers (client ▸ none) (client ▸ calm) rfl
  | heartbeat token =>
      obtain ⟨none, calm⟩ := renewed_rested sound replied.member react config.maxRetries
        session.toActivateResponse
      exact begins (flight_timers sound replied.member) (client ▸ none) (client ▸ calm) rfl
  | usage token => cases opening
  | deactivate token => cases opening

/-- The interval is within its bounds, and where the session lives long enough
for two requests and the margin, the retry of the first heartbeat after it was
opened starts before it expires. -/
theorem retry_before_expiry (valid : config.Valid) (session : SessionAnswer) :
    let interval := clampHeartbeatInterval config session.sessionTtlSeconds
    (1 ≤ interval ∧ interval ≤ config.requestedHeartbeatIntervalMs ∧
      interval ≤ max 1 (2000 * session.sessionTtlSeconds / 3)) ∧
    ∀ timed opened later id request react, TimedReachable config timed →
      (id, request) ∈ timed.client.pending → request.opening = true →
      timedStep config timed (.reply id (.ok (some session)) react) = some opened →
      timed.now ≤ timed.requestStartedAtMs id + config.requestTimeoutMs →
      config.requestTimeoutMs * 2 + renewalSafetyMs session.sessionTtlSeconds < session.sessionTtlSeconds * 1000 →
      Promptly config opened later → later.client.state = .active →
        let expiry := timed.requestStartedAtMs id + session.sessionTtlSeconds * 1000
        later.sessionExpiresAtMs = some expiry ∧
          (heartbeatsSent later.client.log = 0 → ∀ timer ∈ later.client.timers,
            later.due timer = timed.now + interval) ∧
          (heartbeatsSent later.client.log = 1 → ∀ timer ∈ later.client.timers, later.due timer < expiry) := by
  refine ⟨clampHeartbeatInterval_bounds valid _, ?_⟩
  intro timed opened later id request react reachable member opening went quick fits promptly active
  have sound := reachable_sound (timedReachable_reachable reachable)
  obtain ⟨request', replied⟩ := timed_replied went
  obtain rfl := sent_unique sound.legal ((sound.flight id request').mp replied.member).1
    ((sound.flight id request).mp member).1
  have budget := clampHeartbeatInterval_budget fits
  have margin := renewalSafetyMs_bound session.lifetime.1
  have run : ∀ {later}, Promptly config opened later → TimedReachable config later ∧
      (later.client.state = .active → Budgeted timed.now
        (timed.requestStartedAtMs id + session.sessionTtlSeconds * 1000)
        (clampHeartbeatInterval config session.sessionTtlSeconds) later) := by
    intro later promptly
    induction promptly with
    | refl => exact ⟨.step _ reachable went, opened_budgeted sound opening replied⟩
    | step taken _ stepped prompt ih =>
        exact ⟨.step _ ih.1 stepped, prompt_budgeted valid ih.1 ih.2 (by omega) stepped prompt⟩
  have budgeted := (run promptly).2 active
  exact ⟨budgeted.known, budgeted.first, budgeted.retry⟩

instance (config : HeartbeatConfig) (timed : TimedClient) : DecidablePred (Prompt config timed)
  | .timer id => inferInstanceAs (Decidable (timed.now = timed.due id))
  | .reply id reply _ => inferInstanceAs (Decidable (∀ entry ∈ timed.client.pending, entry.1 = id →
      entry.2.opening = true → timed.now ≤ timed.requestStartedAtMs id + config.requestTimeoutMs ∧
        reply.opens = false))
  | .tick _ => .isTrue trivial
  | .plain _ => .isTrue trivial

def playPromptly (config : HeartbeatConfig) (timed : TimedClient) : List TimedStep → Option TimedClient
  | [] => some timed
  | taken :: steps =>
      if Prompt config timed taken then
        (timedStep config timed taken).bind fun next => playPromptly config next steps
      else none

theorem playPromptly_promptly {opened : TimedClient} (steps : List TimedStep)
    (reached : Promptly config opened timed) (played : playPromptly config timed steps = some after) :
    Promptly config opened after := by
  induction steps generalizing timed with
  | nil => exact Option.some.inj played ▸ reached
  | cons taken steps ih =>
      rw [playPromptly] at played
      split at played
      · next prompt =>
        obtain ⟨middle, went, rest⟩ := Option.bind_eq_some_iff.mp played
        exact ih (.step taken reached went prompt) rest
      · cases played

def sampleActivating : TimedClient :=
  { TimedClient.start sampleTiming with
    client := ({} : LicenseClient).activate }

def failedAtLast : List TimedStep :=
  [.tick 24000, .timer 1, .tick 10000, .reply 2 .failed (fun _ => [])]

theorem retry_before_expiry_sample : ∃ later : TimedClient, heartbeatsSent later.client.log = 1 ∧
    later.client.timers = [3] ∧ later.due 3 = 34001 ∧ later.due 3 < 45000 := by
  have reachable : TimedReachable sampleTiming sampleActivating := .step (.plain (.call .activate)) .start rfl
  have counts : ((timedStep sampleTiming sampleActivating
      (.reply 0 (.ok (some sampleAnswer)) fun _ => [])).bind fun opened =>
        (playPromptly sampleTiming opened failedAtLast).map fun later =>
          (later.client.state, heartbeatsSent later.client.log, later.client.timers, later.due 3)) =
      some (.active, 1, [3], 34001) := by decide +kernel
  obtain ⟨opened, went, counts⟩ := Option.bind_eq_some_iff.mp counts
  obtain ⟨later, played, counts⟩ := Option.map_eq_some_iff.mp counts
  simp only [Prod.mk.injEq] at counts
  obtain ⟨active, sent, timers, due⟩ := counts
  have budget := (retry_before_expiry ⟨by decide, by decide, by decide⟩ sampleAnswer).2 sampleActivating opened
    later 0 .activate (fun _ => []) reachable (.head _) rfl went (by decide) (by decide)
    (playPromptly_promptly failedAtLast .refl played) active
  exact ⟨later, sent, timers, due, budget.2.2 sent 3 (by rw [timers]; exact .head _)⟩

end Steps

end Keyzori.Sdk
