import Keyzori.Sdk.HeartbeatRetries

namespace Keyzori.Sdk

/-- The heartbeats since the last session that came before they were wanted, and
the time from which the next one is. -/
def earlyBeats (beats : List Beat) : Nat × Option Int :=
  beats.foldl (fun (early, wanted) beat => match beat with
    | .sent time => (if wanted.any (time < ·) then early + 1 else early, none)
    | .throttled earliest => (early, some earliest)
    | .failed => (early, none)
    | .renewed => (0, none)) (0, none)

structure Spaced (timed : TimedClient) : Prop where
  once : (earlyBeats timed.beats).1 ≤ 1
  used : (earlyBeats timed.beats).1 = 1 → timed.client.expiryProtectedThrottleRetryUsed = true
  due : ∀ earliest, (earlyBeats timed.beats).2 = some earliest → ∀ id ∈ timed.client.timers,
    earliest ≤ timed.due id ∨
      (timed.client.expiryProtectedThrottleRetryUsed = true ∧ (earlyBeats timed.beats).1 = 0)

section Steps

variable {config : HeartbeatConfig} {timed after : TimedClient} {client next : LicenseClient} {id : Nat}

theorem earlyBeats_append (beats : List Beat) (beat : Beat) :
    earlyBeats (beats ++ [beat]) = match beat with
      | .sent time => (if (earlyBeats beats).2.any (time < ·) then (earlyBeats beats).1 + 1
          else (earlyBeats beats).1, none)
      | .throttled earliest => ((earlyBeats beats).1, some earliest)
      | .failed => ((earlyBeats beats).1, none)
      | .renewed => (0, none) := by
  rw [earlyBeats, List.foldl_append]
  cases beat <;> rfl

theorem timedReachable_reachable (reachable : TimedReachable config timed) :
    Reachable config.maxRetries timed.client := by
  induction reachable with
  | start => exact .start
  | @step timed after taken _ went ih =>
      cases taken with
      | tick elapsed => exact Option.some.inj went ▸ ih
      | timer id =>
          simp only [timedStep] at went
          split at went
          · cases went
          · obtain ⟨next, stepped, rfl⟩ := Option.map_eq_some_iff.mp went
            exact .step _ ih stepped
      | reply id reply react =>
          simp only [timedStep, Option.bind_eq_bind, Option.bind_eq_some_iff] at went
          obtain ⟨request, -, next, stepped, same⟩ := went
          cases same
          exact .step _ ih stepped
      | plain taken =>
          simp only [timedStep] at went
          split at went
          · obtain ⟨next, stepped, rfl⟩ := Option.map_eq_some_iff.mp went
            exact .step _ ih stepped
          · cases went

theorem spaced_kept (spaced : Spaced timed) (beats : after.beats = timed.beats)
    (used : after.client.expiryProtectedThrottleRetryUsed = timed.client.expiryProtectedThrottleRetryUsed)
    (timers : after.client.timers ⊆ timed.client.timers)
    (due : ∀ id ∈ timed.client.timers, after.due id = timed.due id) : Spaced after := by
  refine ⟨beats ▸ spaced.once, ?_, ?_⟩
  · rw [beats, used]
    exact spaced.used
  · rw [beats, used]
    intro earliest wanted id member
    rw [due id (timers member)]
    exact spaced.due earliest wanted id (timers member)

theorem spaced_none (once : (earlyBeats timed.beats).1 ≤ 1)
    (used : (earlyBeats timed.beats).1 = 1 → timed.client.expiryProtectedThrottleRetryUsed = true)
    (none : (earlyBeats timed.beats).2 = none) : Spaced timed :=
  ⟨once, used, fun earliest wanted => by rw [none] at wanted; cases wanted⟩

theorem moved_due (timed : TimedClient) (delay : Int) (next : LicenseClient) :
    ∀ id ∈ timed.client.timers, (timed.moved delay next).due id = timed.due id :=
  fun _ member => if_pos member

theorem runHeartbeat_used (client : LicenseClient) (id : Nat) :
    (client.runHeartbeat id).expiryProtectedThrottleRetryUsed = client.expiryProtectedThrottleRetryUsed ∧
      (client.runHeartbeat id).timers ⊆ client.timers := by
  unfold LicenseClient.runHeartbeat
  dsimp only
  split
  · exact ⟨rfl, List.filter_subset_self _⟩
  · split
    · exact ⟨rfl, List.filter_subset_self _⟩
    · exact ⟨rfl, List.filter_subset_self _⟩

/-- A timer that fires early was allowed to, once. -/
theorem sent_spaced (spaced : Spaced timed) (member : id ∈ timed.client.timers)
    (late : ¬timed.now < timed.due id) :
    (earlyBeats (timed.beats ++ [.sent timed.now])).1 ≤ 1 ∧
      ((earlyBeats (timed.beats ++ [.sent timed.now])).1 = 1 →
        timed.client.expiryProtectedThrottleRetryUsed = true) := by
  rw [earlyBeats_append]
  dsimp only
  cases wanted : (earlyBeats timed.beats).2 with
  | none => exact ⟨spaced.once, spaced.used⟩
  | some earliest =>
      rw [Option.any_some]
      split
      · next soon =>
        have sooner := of_decide_eq_true soon
        rcases spaced.due earliest wanted id member with ready | ⟨used, none⟩
        · omega
        · exact ⟨Nat.le_of_eq (congrArg (· + 1) none), fun _ => used⟩
      · exact ⟨spaced.once, spaced.used⟩

theorem timer_spaced (spaced : Spaced timed) (went : timedStep config timed (.timer id) = some after) :
    Spaced after := by
  simp only [timedStep] at went
  split at went
  · cases went
  · next late =>
    obtain ⟨next, stepped, rfl⟩ := Option.map_eq_some_iff.mp went
    simp only [step] at stepped
    split at stepped
    · next member =>
      obtain rfl := Option.some.inj stepped
      obtain ⟨used, fewer⟩ := runHeartbeat_used timed.client id
      cases beating : timed.client.beating with
      | true =>
          obtain ⟨once, early⟩ := sent_spaced spaced member late
          refine spaced_none ?_ ?_ ?_
          · exact once
          · exact fun one => used.trans (early one)
          · exact congrArg Prod.snd (earlyBeats_append _ _)
      | false => exact spaced_kept spaced rfl used fewer (moved_due timed 0 _)
    · cases stepped

theorem flight_timers (sound : Sound client) {token : String} (member : (id, .heartbeat token) ∈ client.pending) :
    client.timers = [] := by
  have counted : (id, .heartbeat token) ∈ client.pending.filter fun entry => entry.2.isHeartbeat :=
    List.mem_filter.mpr ⟨member, rfl⟩
  have one := List.length_pos_of_mem counted
  have bound := sound.heartbeats
  unfold heartbeats at bound
  exact List.length_eq_zero_iff.mp (by omega)

theorem schedule_used (client : LicenseClient) :
    client.scheduleHeartbeat.expiryProtectedThrottleRetryUsed = client.expiryProtectedThrottleRetryUsed := by
  unfold LicenseClient.scheduleHeartbeat
  split <;> rfl

theorem failure_used (client : LicenseClient) (react : LicenseEvent → List Call) (maxRetries : Nat) :
    (client.recordHeartbeatFailure react maxRetries).expiryProtectedThrottleRetryUsed =
      client.expiryProtectedThrottleRetryUsed := by
  unfold LicenseClient.recordHeartbeatFailure
  split
  · rfl
  · have failed := emit_steady { client with failureStrikes := client.failureStrikes + 1 } react .heartbeatFailed
    dsimp only
    split
    · exact ((steady_trans failed (steady_trans (emit_steady _ react .networkOffline)
        (handleFatalError_steady _))).used)
    · exact failed.used

theorem outcome_used (client : LicenseClient) (react : LicenseEvent → List Call) (maxRetries : Nat) {reply : Reply}
    (failed : ∀ session, reply ≠ .ok (some session)) (other : ∀ code used, reply ≠ .rejection 429 code used) :
    (client.heartbeatOutcome react maxRetries reply).expiryProtectedThrottleRetryUsed =
      client.expiryProtectedThrottleRetryUsed := by
  match reply with
  | .ok (some response) => exact absurd rfl (failed response)
  | .rejection status code used =>
      simp only [LicenseClient.heartbeatOutcome]
      split_ifs with throttled
      · exact absurd (congrArg (Reply.rejection · code used) throttled) (other code used)
      · exact (steady_trans (emit_steady client react _) (handleFatalError_steady _)).used
      · exact failure_used client react maxRetries
  | .ok none => exact failure_used client react maxRetries
  | .failed => exact failure_used client react maxRetries

/-- A throttling either ends the heartbeats, or sets the flag if it used it. -/
theorem throttle_used (client : LicenseClient) (react : LicenseEvent → List Call) (maxRetries : Nat) (used : Bool) :
    (client.expiryProtectedThrottleRetryUsed = true →
      (client.throttle react maxRetries used).expiryProtectedThrottleRetryUsed = true) ∧
    ((client.throttle react maxRetries used).fatalCleanupScheduled = false →
      ¬(used = true ∧ client.expiryProtectedThrottleRetryUsed = true) ∧
        (client.throttle react maxRetries used).expiryProtectedThrottleRetryUsed =
          (client.expiryProtectedThrottleRetryUsed || used)) := by
  unfold LicenseClient.throttle
  dsimp only
  split
  · have whole := steady_trans (emit_steady { client with throttleRetries := client.throttleRetries + 1 } react
      .networkOffline) (handleFatalError_steady _)
    refine ⟨fun before => whole.used.trans before, fun calm => ?_⟩
    unfold LicenseClient.handleFatalError at calm
    split at calm
    · next scheduled => rw [scheduled] at calm; cases calm
    · cases calm
  · next left =>
    rw [not_or] at left
    have slowed := emit_steady { client with
      throttleRetries := client.throttleRetries + 1
      expiryProtectedThrottleRetryUsed := client.expiryProtectedThrottleRetryUsed || used } react .heartbeatThrottled
    refine ⟨fun before => slowed.used.trans ?_, fun _ => ⟨left.2, slowed.used⟩⟩
    rw [before]
    rfl

theorem heartbeatReply_used (client : LicenseClient) (react : LicenseEvent → List Call) (maxRetries id : Nat)
    (reply : Reply) :
    (client.heartbeatReply react maxRetries id reply).expiryProtectedThrottleRetryUsed =
      ((client.settle id).heartbeatOutcome react maxRetries reply).expiryProtectedThrottleRetryUsed := by
  simp only [LicenseClient.heartbeatReply]
  split
  · rfl
  · exact schedule_used _

structure Replied (config : HeartbeatConfig) (timed : TimedClient) (id : Nat) (reply : TimedReply)
    (react : LicenseEvent → List Call) (request : Request) (after : TimedClient) : Prop where
  member : (id, request) ∈ timed.client.pending
  client : after.client = timed.client.answer react config.maxRetries id (timed.untimed config reply) request
  now : after.now = timed.now
  interval : after.heartbeatIntervalMs = (timed.answered config id request reply).heartbeatIntervalMs
  expiry : after.client.state ≠ .deactivated →
    after.sessionExpiresAtMs = (timed.answered config id request reply).sessionExpiresAtMs
  started : ∀ other, after.requestStartedAtMs other =
    if timed.client.inFlight other then timed.requestStartedAtMs other else timed.now
  due : ∀ other, after.due other =
    if other ∈ timed.client.timers then timed.due other else timed.now + timed.scheduledDelay config reply
  beats : after.beats = timed.beatsAfter config request reply

theorem answered_aside (config : HeartbeatConfig) (timed : TimedClient) (id : Nat) (request : Request)
    (reply : TimedReply) :
    (timed.answered config id request reply).client = timed.client ∧
      (timed.answered config id request reply).now = timed.now ∧
      (timed.answered config id request reply).requestStartedAtMs = timed.requestStartedAtMs ∧
      (timed.answered config id request reply).due = timed.due := by
  unfold TimedClient.answered
  split <;> exact ⟨rfl, rfl, rfl, rfl⟩

theorem timed_replied {reply : TimedReply} {react : LicenseEvent → List Call}
    (went : timedStep config timed (.reply id reply react) = some after) :
    ∃ request, Replied config timed id reply react request after := by
  simp only [timedStep, Option.bind_eq_bind, Option.bind_eq_some_iff] at went
  obtain ⟨request, found, next, stepped, same⟩ := went
  obtain ⟨request', found', moved⟩ := step_reply stepped
  obtain rfl := Option.some.inj (found.symm.trans found')
  obtain ⟨client, now, started, due⟩ := answered_aside config timed id request reply
  obtain rfl := Option.some.inj same
  refine ⟨request, requestOf_mem found, moved, now, rfl, fun open' => if_neg open', fun other => ?_,
    fun other => ?_, rfl⟩
  · simp only [TimedClient.moved, client, now, started]
  · simp only [TimedClient.moved, client, now, due]

theorem besides_spaced {reply : TimedReply} {react : LicenseEvent → List Call} {request : Request}
    (spaced : Spaced timed) (replied : Replied config timed id reply react request after)
    (steady : Steady timed.client after.client) (beats : after.beats = timed.beats) : Spaced after :=
  spaced_kept spaced beats steady.used steady.timers.1 fun other member => (replied.due other).trans (if_pos member)

theorem renewed_spaced (beats : after.beats = timed.beats ++ [.renewed]) : Spaced after := by
  have none : earlyBeats after.beats = (0, none) := beats ▸ earlyBeats_append timed.beats .renewed
  refine spaced_none ?_ ?_ ?_
  · rw [none]
    exact Nat.zero_le 1
  · rw [none]
    exact nofun
  · rw [none]

theorem failed_spaced {reply : TimedReply} {react : LicenseEvent → List Call} {token : String}
    (spaced : Spaced timed) (replied : Replied config timed id reply react (.heartbeat token) after)
    (failed : ∀ session, timed.untimed config reply ≠ .ok (some session))
    (other : ∀ code used, timed.untimed config reply ≠ .rejection 429 code used)
    (beats : after.beats = timed.beats ++ [.failed]) : Spaced after := by
  have used : after.client.expiryProtectedThrottleRetryUsed = timed.client.expiryProtectedThrottleRetryUsed := by
    rw [replied.client]
    exact (heartbeatReply_used _ _ _ _ _).trans (outcome_used _ _ _ failed other)
  have same : earlyBeats after.beats = ((earlyBeats timed.beats).1, none) :=
    beats ▸ earlyBeats_append timed.beats .failed
  refine spaced_none ?_ ?_ ?_
  · rw [same]
    exact spaced.once
  · rw [same, used]
    exact spaced.used
  · rw [same]

/-- Either the retry waits as long as it was asked to, or it is the one that the
session's lifetime brings forward. -/
theorem throttled_spaced {react : LicenseEvent → List Call} {token : String} {code retryAfter : Option String}
    (sound : Sound timed.client) (spaced : Spaced timed)
    (replied : Replied config timed id (.rejection 429 code retryAfter) react (.heartbeat token) after) :
    Spaced after := by
  let delays := timed.throttledDelays config retryAfter
  have none := flight_timers sound replied.member
  obtain ⟨keeps, sets⟩ := throttle_used (timed.client.settle id) react config.maxRetries (decide (delays.2 < delays.1))
  have client : after.client = timed.client.heartbeatReply react config.maxRetries id
      (.rejection 429 code (decide (delays.2 < delays.1))) := replied.client
  have flag : after.client.expiryProtectedThrottleRetryUsed =
      ((timed.client.settle id).throttle react config.maxRetries
        (decide (delays.2 < delays.1))).expiryProtectedThrottleRetryUsed := by
    rw [client]
    exact heartbeatReply_used _ _ _ _ _
  have same : earlyBeats after.beats = ((earlyBeats timed.beats).1, some (timed.now + delays.1)) :=
    replied.beats ▸ earlyBeats_append timed.beats _
  refine ⟨?_, ?_, ?_⟩
  · rw [same]
    exact spaced.once
  · rw [same, flag]
    exact fun one => keeps (spaced.used one)
  · rw [same, flag]
    rintro earliest ⟨⟩ other member
    have due := replied.due other
    rw [none, if_neg List.not_mem_nil] at due
    have calm : ((timed.client.settle id).throttle react config.maxRetries
        (decide (delays.2 < delays.1))).fatalCleanupScheduled = false := by
      by_contra fatal
      rw [Bool.not_eq_false] at fatal
      have stopped : after.client = (timed.client.settle id).throttle react config.maxRetries
          (decide (delays.2 < delays.1)) := by
        rw [client]
        exact if_pos fatal
      have fewer := (throttle_follows (timed.client.settle id) react config.maxRetries
        (decide (delays.2 < delays.1))).heartbeats
      rw [settle_heartbeats sound replied.member rfl, ← stopped] at fewer
      have some := List.length_pos_of_mem member
      unfold heartbeats at fewer
      omega
    obtain ⟨first, now⟩ := sets calm
    by_cases sooner : delays.2 < delays.1
    · refine .inr ⟨now.trans (by rw [decide_eq_true sooner, Bool.or_true]), ?_⟩
      have once := spaced.once
      by_contra early
      exact first ⟨decide_eq_true sooner, spaced.used (by omega)⟩
    · have delay : timed.scheduledDelay config (.rejection 429 code retryAfter) = delays.2 := rfl
      rw [delay] at due
      exact .inl (by omega)

theorem reply_spaced (sound : Sound timed.client) (spaced : Spaced timed) {reply : TimedReply}
    {react : LicenseEvent → List Call} (went : timedStep config timed (.reply id reply react) = some after) :
    Spaced after := by
  obtain ⟨request, replied⟩ := timed_replied went
  have member := replied.member
  cases request with
  | activate =>
      have rejects (plain : ∀ session, timed.untimed config reply ≠ .ok (some session))
          (beats : after.beats = timed.beats) : Spaced after :=
        besides_spaced spaced replied (replied.client ▸ rejected_steady sound member react plain) beats
      match reply with
      | .ok (some session) => exact renewed_spaced replied.beats
      | .ok none => exact rejects nofun replied.beats
      | .failed => exact rejects nofun replied.beats
      | .rejection status code retryAfter => exact rejects nofun replied.beats
  | heartbeat token =>
      match reply with
      | .ok (some session) => exact renewed_spaced replied.beats
      | .ok none => exact failed_spaced spaced replied nofun nofun replied.beats
      | .failed => exact failed_spaced spaced replied nofun nofun replied.beats
      | .rejection status code retryAfter =>
          by_cases throttled : status = 429
          · subst throttled
            exact throttled_spaced sound spaced replied
          · have beats : after.beats = timed.beats ++ [.failed] :=
              replied.beats.trans (congrArg (timed.beats ++ [·]) (if_neg throttled))
            refine failed_spaced spaced replied nofun (fun code used same => ?_) beats
            exact throttled (Reply.rejection.inj same).1
  | usage token =>
      exact besides_spaced spaced replied (replied.client ▸ usageReply_steady sound member react _) replied.beats
  | deactivate token =>
      exact besides_spaced spaced replied
        (replied.client ▸ steady_trans (settle_steady sound member rfl) (finish_steady _)) replied.beats

theorem reachable_spaced (reachable : TimedReachable config timed) : Spaced timed := by
  induction reachable with
  | start => exact ⟨Nat.zero_le 1, nofun, nofun⟩
  | @step timed after taken before went ih =>
      have sound := reachable_sound (timedReachable_reachable before)
      cases taken with
      | tick elapsed =>
          obtain rfl := Option.some.inj went
          exact spaced_kept ih rfl rfl (List.Subset.refl _) fun _ _ => rfl
      | timer id => exact timer_spaced ih went
      | reply id reply react => exact reply_spaced sound ih went
      | plain taken =>
          simp only [timedStep] at went
          split at went
          · next plain =>
            obtain ⟨next, stepped, rfl⟩ := Option.map_eq_some_iff.mp went
            have steady := plain_steady sound plain stepped
            exact spaced_kept ih rfl steady.used steady.timers.1 (moved_due timed 0 next)
          · cases went

/-- After the last session at most `2 * maxRetries` heartbeats are sent, and none
once the client deactivates. An active client goes on beating until a cleanup is
scheduled, which is queued at once. Between two sessions at most one heartbeat
comes before a throttled one wanted it. -/
theorem heartbeats_end (valid : config.Valid) (reachable : TimedReachable config timed) :
    heartbeatsSent timed.client.log ≤ 2 * config.maxRetries ∧
      (∀ before old after, timed.client.log = before ++ .moved old .deactivating :: after →
        ∀ id token, .sent id (.heartbeat token) ∉ after) ∧
      (timed.client.state = .active → timed.client.fatalCleanupScheduled = false →
        heartbeats timed.client = 1) ∧
      (timed.client.fatalCleanupScheduled = true →
        timed.client.fatalQueued = true ∨ Deactivating timed.client.log) ∧
      (earlyBeats timed.beats).1 ≤ 1 := by
  have untimed := timedReachable_reachable reachable
  have sound := reachable_sound untimed
  have paced := reachable_paced valid.retries untimed
  refine ⟨Nat.le_trans (Nat.le_add_right _ _) paced.total, ?_, ?_, paced.queued, (reachable_spaced reachable).once⟩
  · rintro before old after split id token member
    obtain ⟨between, rest, rfl⟩ := List.append_of_mem member
    have allowed := sound.legal (before ++ .moved old .deactivating :: between) (.sent id (.heartbeat token)) rest
      (by simp [split])
    exact allowed.2.1 ⟨old, by simp⟩
  · intro active calm
    exact Nat.le_antisymm sound.heartbeats ((paced.alive active).2 calm)

def playTimed (config : HeartbeatConfig) (timed : TimedClient) : List TimedStep → Option TimedClient
  | [] => some timed
  | taken :: steps => (timedStep config timed taken).bind fun next => playTimed config next steps

theorem playTimed_reachable (steps : List TimedStep) (reachable : TimedReachable config timed)
    (played : playTimed config timed steps = some after) : TimedReachable config after := by
  induction steps generalizing timed with
  | nil => exact Option.some.inj played ▸ reachable
  | cons taken steps ih =>
      obtain ⟨middle, went, rest⟩ := Option.bind_eq_some_iff.mp played
      exact ih (.step taken reachable went) rest

def sampleTiming : HeartbeatConfig := ⟨30000, 10000, 2, fun _ => none⟩

def sampleAnswer : SessionAnswer := { sampleSession with
  sessionTtlSeconds := 45
  lifetime := by decide }

def throttledForLong : List TimedStep :=
  [.plain (.call .activate), .reply 0 (.ok (some sampleAnswer)) (fun _ => []), .tick 24000, .timer 1,
    .reply 2 (.rejection 429 none (some "120")) (fun _ => []), .tick 10000, .timer 3]

theorem heartbeats_end_sample : ∃ timed,
    playTimed sampleTiming (TimedClient.start sampleTiming) throttledForLong = some timed ∧
      (earlyBeats timed.beats).1 = 1 ∧ heartbeatsSent timed.client.log = 2 ∧
      heartbeatsSent timed.client.log ≤ 2 * 2 ∧ (earlyBeats timed.beats).1 ≤ 1 := by
  have counts : (playTimed sampleTiming (TimedClient.start sampleTiming) throttledForLong).any (fun timed =>
      (earlyBeats timed.beats).1 = 1 ∧ heartbeatsSent timed.client.log = 2) = true := by decide +kernel
  cases played : playTimed sampleTiming (TimedClient.start sampleTiming) throttledForLong with
  | none =>
      rw [played] at counts
      cases counts
  | some timed =>
      rw [played] at counts
      obtain ⟨early, sent⟩ := of_decide_eq_true counts
      have ends := heartbeats_end ⟨by decide, by decide, by decide⟩
        (playTimed_reachable throttledForLong .start played)
      exact ⟨timed, rfl, early, sent, ends.1, ends.2.2.2.2⟩

end Steps

end Keyzori.Sdk
