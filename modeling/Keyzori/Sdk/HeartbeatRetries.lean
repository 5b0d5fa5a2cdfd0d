import Keyzori.Sdk.HeartbeatClock

namespace Keyzori.Sdk

def heartbeatsSent (log : List Entry) : Nat :=
  log.foldl (fun sent entry => match entry with
    | .session _ => 0
    | .sent _ (.heartbeat _) => sent + 1
    | _ => sent) 0

/-- What code does to the heartbeats that neither sends nor schedules one and has
no session to store. -/
structure Mild (client next : LicenseClient) : Prop where
  sent : heartbeatsSent next.log = heartbeatsSent client.log
  timers : next.timers ⊆ client.timers ∧ next.timers.length ≤ client.timers.length
  pending : ∀ id token, (id, .heartbeat token) ∈ next.pending → (id, .heartbeat token) ∈ client.pending
  fatal : client.fatalCleanupScheduled = true → next.fatalCleanupScheduled = true
  beating : next.state = .active → client.state = .active ∧ next.sessionToken = client.sessionToken ∧
    heartbeats next = heartbeats client
  beats : heartbeats next ≤ heartbeats client
  queued : (client.fatalCleanupScheduled = true → client.fatalQueued = true ∨ Deactivating client.log) →
    next.fatalCleanupScheduled = true → next.fatalQueued = true ∨ Deactivating next.log

structure Steady (client next : LicenseClient) : Prop extends Mild client next where
  strikes : next.failureStrikes = client.failureStrikes
  throttles : next.throttleRetries = client.throttleRetries
  used : next.expiryProtectedThrottleRetryUsed = client.expiryProtectedThrottleRetryUsed

/-- What bounds the heartbeats of a client, and what keeps them going. -/
structure Paced (maxRetries : Nat) (client : LicenseClient) : Prop where
  total : heartbeatsSent client.log + client.timers.length ≤ 2 * maxRetries
  counters : client.fatalCleanupScheduled = false →
    client.failureStrikes + 1 ≤ maxRetries ∧ client.throttleRetries ≤ maxRetries
  counted : client.fatalCleanupScheduled = false → 0 < heartbeats client →
    heartbeatsSent client.log + client.timers.length ≤ client.failureStrikes + client.throttleRetries + 1
  alive : client.state = .active → client.sessionToken.isSome ∧
    (client.fatalCleanupScheduled = false → 0 < heartbeats client)
  queued : client.fatalCleanupScheduled = true → client.fatalQueued = true ∨ Deactivating client.log

section Steps

variable {client next middle : LicenseClient} {maxRetries : Nat} {id : Nat}

theorem heartbeatsSent_append (log : List Entry) (entry : Entry) :
    heartbeatsSent (log ++ [entry]) = match entry with
      | .session _ => 0
      | .sent _ (.heartbeat _) => heartbeatsSent log + 1
      | _ => heartbeatsSent log := by
  rw [heartbeatsSent, List.foldl_append]
  rfl

theorem mild_refl (client : LicenseClient) : Mild client client :=
  ⟨rfl, ⟨List.Subset.refl _, Nat.le_refl _⟩, fun _ _ => id, id, fun active => ⟨active, rfl, rfl⟩, Nat.le_refl _, id⟩

theorem mild_trans (first : Mild client middle) (second : Mild middle next) : Mild client next := by
  refine ⟨second.sent.trans first.sent, ⟨?_, ?_⟩, fun id token => first.pending id token ∘ second.pending id token,
    second.fatal ∘ first.fatal, ?_, Nat.le_trans second.beats first.beats, second.queued ∘ first.queued⟩
  · exact fun timer member => first.timers.1 (second.timers.1 member)
  · exact Nat.le_trans second.timers.2 first.timers.2
  · intro active
    obtain ⟨later, token, beats⟩ := second.beating active
    obtain ⟨here, same, count⟩ := first.beating later
    exact ⟨here, token.trans same, beats.trans count⟩

theorem counters_mild (client : LicenseClient) (strikes retries : Nat) (used : Bool) :
    Mild client { client with
      failureStrikes := strikes
      throttleRetries := retries
      expiryProtectedThrottleRetryUsed := used } :=
  ⟨rfl, ⟨List.Subset.refl _, Nat.le_refl _⟩, fun _ _ => id, id, fun active => ⟨active, rfl, rfl⟩, Nat.le_refl _, id⟩

theorem steady_refl (client : LicenseClient) : Steady client client := ⟨mild_refl client, rfl, rfl, rfl⟩

theorem steady_trans (first : Steady client middle) (second : Steady middle next) : Steady client next :=
  ⟨mild_trans first.toMild second.toMild, second.strikes.trans first.strikes,
    second.throttles.trans first.throttles, second.used.trans first.used⟩

theorem paced_steady (paced : Paced maxRetries client) (steady : Steady client next) :
    Paced maxRetries next := by
  have running : next.fatalCleanupScheduled = false → client.fatalCleanupScheduled = false := by
    intro calm
    by_contra scheduled
    rw [steady.fatal (by simpa using scheduled)] at calm
    cases calm
  have fewer := steady.timers.2
  refine ⟨?_, ?_, ?_, ?_, steady.queued paced.queued⟩
  · rw [steady.sent]
    have total := paced.total
    omega
  · rw [steady.strikes, steady.throttles]
    exact fun calm => paced.counters (running calm)
  · rw [steady.sent, steady.strikes, steady.throttles]
    intro calm some
    have counted := paced.counted (running calm) (Nat.lt_of_lt_of_le some steady.beats)
    omega
  · intro active
    obtain ⟨here, token, beats⟩ := steady.beating active
    obtain ⟨known, goes⟩ := paced.alive here
    rw [token, beats]
    exact ⟨known, fun calm => goes (running calm)⟩

def Entry.besides : Entry → Bool
  | .session _ => false
  | .sent _ request => !request.isHeartbeat
  | _ => true

theorem heartbeatsSent_besides (log : List Entry) (entry : Entry) (besides : entry.besides = true) :
    heartbeatsSent (log ++ [entry]) = heartbeatsSent log := by
  rw [heartbeatsSent_append]
  cases entry with
  | session token => cases besides
  | sent id request => cases request <;> first | rfl | cases besides
  | _ => rfl

theorem steady_besides (entry : Entry) (besides : entry.besides = true)
    (logged : next.log = client.log ++ [entry])
    (counters : next.failureStrikes = client.failureStrikes ∧ next.throttleRetries = client.throttleRetries ∧
      next.expiryProtectedThrottleRetryUsed = client.expiryProtectedThrottleRetryUsed)
    (cleanup : next.fatalCleanupScheduled = client.fatalCleanupScheduled ∧
      next.fatalQueued = client.fatalQueued)
    (timers : next.timers = client.timers)
    (beats : heartbeats next = heartbeats client)
    (pending : ∀ id token, (id, .heartbeat token) ∈ next.pending → (id, .heartbeat token) ∈ client.pending)
    (active : next.state = .active → client.state = .active ∧ next.sessionToken = client.sessionToken) :
    Steady client next := by
  refine ⟨⟨?_, ?_, pending, ?_, ?_, Nat.le_of_eq beats, ?_⟩, counters.1, counters.2.1, counters.2.2⟩
  · rw [logged, heartbeatsSent_besides _ entry besides]
  · rw [timers]
    exact ⟨List.Subset.refl _, Nat.le_refl _⟩
  · rw [cleanup.1]
    exact id
  · exact fun here => ⟨(active here).1, (active here).2, beats⟩
  · rw [cleanup.1, cleanup.2, logged, deactivating_append]
    exact fun queued scheduled => (queued scheduled).imp id Or.inl

theorem setState_steady (client : LicenseClient) {state : ClientState} (other : state ≠ .active) :
    Steady client (client.setState state) :=
  steady_besides (.moved client.state state) rfl rfl ⟨rfl, rfl, rfl⟩ ⟨rfl, rfl⟩ rfl rfl (fun _ _ => id)
    fun here => absurd here other

theorem record_steady (client : LicenseClient) (entry : Entry) (besides : entry.besides = true) :
    Steady client (client.record entry) :=
  steady_besides entry besides rfl ⟨rfl, rfl, rfl⟩ ⟨rfl, rfl⟩ rfl rfl (fun _ _ => id) fun here => ⟨here, rfl⟩

theorem send_steady (client : LicenseClient) {request : Request} (other : request.isHeartbeat = false) :
    Steady client (client.send request) := by
  refine steady_besides (.sent client.next request) ?_ rfl ⟨rfl, rfl, rfl⟩ ⟨rfl, rfl⟩ rfl ?_
    (fun id token member => ?_) fun here => ⟨here, rfl⟩
  · simp [Entry.besides, other]
  · simp [heartbeats, LicenseClient.send, LicenseClient.record, other]
  · refine (List.mem_append.mp member).resolve_right fun new => ?_
    rw [← (Prod.mk.inj (List.mem_singleton.mp new)).2] at other
    cases other

theorem promises_steady (client : LicenseClient) (heartbeatRequest activation : Option Nat)
    (deactivation : Option Deactivation) (usageRequests rejected : List Nat) :
    Steady client { client with
      heartbeatRequest := heartbeatRequest
      activation := activation
      deactivation := deactivation
      usageRequests := usageRequests
      rejected := rejected } :=
  ⟨⟨rfl, ⟨List.Subset.refl _, Nat.le_refl _⟩, fun _ _ => id, id, fun here => ⟨here, rfl, rfl⟩, Nat.le_refl _, id⟩,
    rfl, rfl, rfl⟩

theorem deactivate_steady (client : LicenseClient) : Steady client client.deactivate := by
  unfold LicenseClient.deactivate
  split
  · exact steady_refl client
  · refine steady_trans (setState_steady client (by decide : ClientState.deactivating ≠ .active)) ?_
    have cleared : Steady (client.setState .deactivating) (client.setState .deactivating).clearHeartbeatTimer := by
      unfold LicenseClient.clearHeartbeatTimer
      split
      · exact steady_refl _
      · refine ⟨⟨rfl, ⟨List.filter_subset_self _, List.length_filter_le _ _⟩, fun _ _ => id, id, ?_, ?_, id⟩,
          rfl, rfl, rfl⟩
        · intro here
          cases here
        · exact Nat.add_le_add_right (List.length_filter_le _ _) _
    exact steady_trans cleared (promises_steady _ _ _ _ _ _)

theorem call_steady (client : LicenseClient) (call : Call) : Steady client (client.call call) := by
  cases call with
  | activate =>
      simp only [LicenseClient.call, LicenseClient.activate]
      split_ifs
      any_goals exact steady_refl client
      refine steady_trans (setState_steady client (by decide : ClientState.activating ≠ .active)) ?_
      exact steady_trans (send_steady _ rfl) (promises_steady _ _ _ _ _ _)
  | consume valid =>
      simp only [LicenseClient.call, LicenseClient.consume]
      split
      · exact steady_refl client
      · split_ifs
        · exact steady_refl client
        · exact steady_trans (send_steady client rfl) (promises_steady _ _ _ _ _ _)
  | deactivate => exact deactivate_steady client

theorem calls_steady (client : LicenseClient) (calls : List Call) :
    Steady client (calls.foldl LicenseClient.call client) := by
  induction calls generalizing client with
  | nil => exact steady_refl client
  | cons call calls ih => exact steady_trans (call_steady client call) (ih (client.call call))

theorem emit_steady (client : LicenseClient) (react : LicenseEvent → List Call) (event : LicenseEvent) :
    Steady client (client.emit react event) :=
  steady_trans (record_steady client (.emitted event) rfl) (calls_steady _ (react event))

theorem handleFatalError_steady (client : LicenseClient) : Steady client client.handleFatalError := by
  unfold LicenseClient.handleFatalError
  split
  · exact steady_refl client
  · exact ⟨⟨rfl, ⟨List.Subset.refl _, Nat.le_refl _⟩, fun _ _ => id, fun _ => rfl,
      fun here => ⟨here, rfl, rfl⟩, Nat.le_refl _, fun _ _ => .inl rfl⟩, rfl, rfl, rfl⟩

/-- Between a reply and the next heartbeat, if there is to be one. -/
structure Over (maxRetries : Nat) (client : LicenseClient) : Prop where
  none : heartbeats client = 0
  total : heartbeatsSent client.log ≤ 2 * maxRetries
  counters : client.fatalCleanupScheduled = false →
    client.failureStrikes + 1 ≤ maxRetries ∧ client.throttleRetries ≤ maxRetries
  counted : client.fatalCleanupScheduled = false → client.state = .active →
    heartbeatsSent client.log ≤ client.failureStrikes + client.throttleRetries
  token : client.state = .active → client.sessionToken.isSome
  queued : client.fatalCleanupScheduled = true → client.fatalQueued = true ∨ Deactivating client.log

theorem over_steady (done : Over maxRetries client) (steady : Steady client next) : Over maxRetries next := by
  have running : next.fatalCleanupScheduled = false → client.fatalCleanupScheduled = false := by
    intro calm
    by_contra scheduled
    rw [steady.fatal (by simpa using scheduled)] at calm
    cases calm
  refine ⟨Nat.le_zero.mp (done.none ▸ steady.beats), steady.sent ▸ done.total, ?_, ?_, ?_,
    steady.queued done.queued⟩
  · rw [steady.strikes, steady.throttles]
    exact fun calm => done.counters (running calm)
  · rw [steady.strikes, steady.throttles, steady.sent]
    exact fun calm active => done.counted (running calm) (steady.beating active).1
  · intro active
    rw [(steady.beating active).2.1]
    exact done.token (steady.beating active).1

theorem over_paced (done : Over maxRetries client)
    (stopped : client.fatalCleanupScheduled = true ∨ client.state ≠ .active) : Paced maxRetries client := by
  have timers : client.timers.length = 0 := Nat.le_zero.mp (done.none ▸ Nat.le_add_right _ _)
  refine ⟨timers ▸ done.total, done.counters, ?_, fun active => ⟨done.token active, fun calm => ?_⟩,
    done.queued⟩
  · rw [done.none]
    exact fun _ some => absurd some (Nat.lt_irrefl 0)
  · rcases stopped with scheduled | inactive
    · rw [scheduled] at calm
      cases calm
    · exact absurd active inactive

theorem schedule_paced (done : Over maxRetries client)
    (room : client.state = .active → heartbeatsSent client.log + 1 ≤ 2 * maxRetries) :
    Paced maxRetries client.scheduleHeartbeat := by
  unfold LicenseClient.scheduleHeartbeat
  split
  · next inactive => exact over_paced done (.inr inactive)
  · next active =>
    rw [not_not] at active
    have timers : client.timers.length = 0 := Nat.le_zero.mp (done.none ▸ Nat.le_add_right _ _)
    refine ⟨?_, done.counters, fun calm _ => ?_, fun _ => ⟨done.token active, fun _ => ?_⟩, done.queued⟩
    · rw [List.length_append, timers]
      exact room active
    · rw [List.length_append, timers]
      exact Nat.succ_le_succ (done.counted calm active)
    · simp only [heartbeats, List.length_append, List.length_singleton]
      omega

theorem fatal_over {base : LicenseClient} (steady : Steady base client) (none : heartbeats base = 0)
    (total : heartbeatsSent base.log ≤ 2 * maxRetries)
    (token : base.state = .active → base.sessionToken.isSome)
    (queued : client.fatalCleanupScheduled = true → client.fatalQueued = true ∨ Deactivating client.log) :
    Over maxRetries client.handleFatalError := by
  have fatal : client.handleFatalError.fatalCleanupScheduled = true := by
    unfold LicenseClient.handleFatalError
    split
    · next scheduled => exact scheduled
    · rfl
  have whole := steady_trans steady (handleFatalError_steady client)
  refine ⟨Nat.le_zero.mp (none ▸ whole.beats), whole.sent ▸ total, ?_, ?_, ?_,
    (handleFatalError_steady client).queued queued⟩
  · rw [fatal]
    exact nofun
  · rw [fatal]
    exact nofun
  · intro active
    rw [(whole.beating active).2.1]
    exact token (whole.beating active).1

structure Settled (maxRetries : Nat) (client : LicenseClient) : Prop where
  none : heartbeats client = 0
  total : heartbeatsSent client.log ≤ 2 * maxRetries
  counters : client.fatalCleanupScheduled = false →
    client.failureStrikes + 1 ≤ maxRetries ∧ client.throttleRetries ≤ maxRetries
  counted : client.fatalCleanupScheduled = false →
    heartbeatsSent client.log ≤ client.failureStrikes + client.throttleRetries + 1
  token : client.state = .active → client.sessionToken.isSome
  queued : client.fatalCleanupScheduled = true → client.fatalQueued = true ∨ Deactivating client.log

theorem settle_settled {token : String} (sound : Sound client) (paced : Paced maxRetries client)
    (member : (id, .heartbeat token) ∈ client.pending) : Settled maxRetries (client.settle id) := by
  have sent : heartbeatsSent (client.settle id).log = heartbeatsSent client.log :=
    heartbeatsSent_besides _ (.settled id) rfl
  have some : 0 < heartbeats client :=
    Nat.lt_of_lt_of_le (List.length_pos_of_mem (List.mem_filter.mpr ⟨member, rfl⟩)) (Nat.le_add_left _ _)
  refine ⟨settle_heartbeats sound member rfl, sent ▸ ?_, paced.counters, sent ▸ fun calm => ?_,
    fun active => (paced.alive active).1, fun fatal => ?_⟩
  · have total := paced.total
    omega
  · have counted := paced.counted calm some
    simp only [LicenseClient.settle, LicenseClient.record]
    omega
  · rcases paced.queued fatal with queued | asked
    · exact .inl queued
    · exact .inr (deactivating_append.mpr (.inl asked))

/-- A failure uses up a strike, or is the last. -/
theorem failure_over (settled : Settled maxRetries client) (react : LicenseEvent → List Call) :
    Over maxRetries (client.recordHeartbeatFailure react maxRetries) := by
  unfold LicenseClient.recordHeartbeatFailure
  split
  · next inactive =>
    exact ⟨settled.none, settled.total, settled.counters, fun _ active => absurd active inactive,
      settled.token, settled.queued⟩
  · have failed := emit_steady { client with failureStrikes := client.failureStrikes + 1 } react .heartbeatFailed
    dsimp only
    split
    · have offline := steady_trans failed (emit_steady _ react .networkOffline)
      exact fatal_over offline settled.none settled.total settled.token (offline.queued settled.queued)
    · next left =>
      have struck : Over maxRetries { client with failureStrikes := client.failureStrikes + 1 } := by
        refine ⟨settled.none, settled.total, fun calm => ?_, fun calm _ => ?_, settled.token, settled.queued⟩
        · rw [failed.strikes, not_le] at left
          exact ⟨left, (settled.counters calm).2⟩
        · have counted := settled.counted calm
          dsimp only
          omega
      exact over_steady struck failed

theorem throttle_over (settled : Settled maxRetries client) (react : LicenseEvent → List Call) (used : Bool) :
    Over maxRetries (client.throttle react maxRetries used) := by
  unfold LicenseClient.throttle
  dsimp only
  split
  · have offline := emit_steady { client with throttleRetries := client.throttleRetries + 1 } react .networkOffline
    exact fatal_over offline settled.none settled.total settled.token (offline.queued settled.queued)
  · next left =>
    rw [not_or, not_lt] at left
    have slowed : Over maxRetries { client with
        throttleRetries := client.throttleRetries + 1
        expiryProtectedThrottleRetryUsed := client.expiryProtectedThrottleRetryUsed || used } := by
      refine ⟨settled.none, settled.total, fun calm => ⟨(settled.counters calm).1, left.1⟩,
        fun calm _ => ?_, settled.token, settled.queued⟩
      have counted := settled.counted calm
      dsimp only
      omega
    exact over_steady slowed (emit_steady _ react .heartbeatThrottled)

theorem outcome_over (positive : 1 ≤ maxRetries) (settled : Settled maxRetries client)
    (react : LicenseEvent → List Call) (reply : Reply) :
    Over maxRetries (client.heartbeatOutcome react maxRetries reply) := by
  match reply with
  | .ok (some response) =>
      have renewed : Over maxRetries { client.storeSession response with
          failureStrikes := 0
          throttleRetries := 0
          expiryProtectedThrottleRetryUsed := false } := by
        have none : heartbeatsSent (client.storeSession response).log = 0 :=
          heartbeatsSent_append client.log (.session response.sessionToken)
        refine ⟨settled.none, Nat.le_trans (Nat.le_of_eq none) (Nat.zero_le _), fun _ => ⟨positive, Nat.zero_le _⟩,
          fun _ _ => Nat.le_of_eq none, fun _ => rfl, fun fatal => ?_⟩
        rcases settled.queued fatal with queued | asked
        · exact .inl queued
        · exact .inr (deactivating_append.mpr (.inl asked))
      simp only [LicenseClient.heartbeatOutcome]
      split
      · exact over_steady renewed (emit_steady _ react .heartbeatSuccess)
      · exact renewed
  | .rejection status code used =>
      simp only [LicenseClient.heartbeatOutcome]
      split_ifs
      · exact throttle_over settled react used
      · have rejected := emit_steady client react (LicenseClient.rejectionEvent code)
        exact fatal_over rejected settled.none settled.total settled.token (rejected.queued settled.queued)
      · exact failure_over settled react
  | .ok none => exact failure_over settled react
  | .failed => exact failure_over settled react

theorem heartbeatReply_paced (positive : 1 ≤ maxRetries) (sound : Sound client)
    (paced : Paced maxRetries client) {token : String} (member : (id, .heartbeat token) ∈ client.pending)
    (react : LicenseEvent → List Call) (reply : Reply) :
    Paced maxRetries (client.heartbeatReply react maxRetries id reply) := by
  have done := outcome_over positive (settle_settled sound paced member) react reply
  simp only [LicenseClient.heartbeatReply]
  split
  · next fatal => exact over_paced done (.inl fatal)
  · next calm =>
    rw [Bool.not_eq_true] at calm
    refine schedule_paced done fun active => ?_
    have counted := done.counted calm active
    have counters := done.counters calm
    omega

theorem legal_before {log : List Entry} {entry : Entry} (legal : Legal (log ++ [entry])) :
    Legal log ∧ Allowed log entry := by
  refine ⟨fun before one after split => ?_, legal log entry [] rfl⟩
  exact legal before one (after ++ [entry]) (by simp [split])

theorem sent_startable {log : List Entry} {request : Request} (allowed : Allowed log (.sent id request)) :
    Startable log id := by
  cases request <;> exact allowed.1

theorem sent_unique {log : List Entry} {first second : Request} (legal : Legal log)
    (one : .sent id first ∈ log) (two : .sent id second ∈ log) : first = second := by
  induction log using List.reverseRecOn with
  | nil => cases one
  | append_singleton log entry ih =>
      obtain ⟨before, allowed⟩ := legal_before legal
      rcases List.mem_append.mp one with early | late <;> rcases List.mem_append.mp two with early' | late'
      · exact ih before early early'
      · obtain rfl := List.mem_singleton.mp late'
        exact absurd early ((sent_startable allowed).fresh first)
      · obtain rfl := List.mem_singleton.mp late
        exact absurd early' ((sent_startable allowed).fresh second)
      · have same := (List.mem_singleton.mp late).trans (List.mem_singleton.mp late').symm
        exact (Entry.sent.inj same).2

theorem settle_steady {request : Request} (sound : Sound client) (member : (id, request) ∈ client.pending)
    (other : request.isHeartbeat = false) : Steady client (client.settle id) := by
  refine steady_besides (.settled id) rfl rfl ⟨rfl, rfl, rfl⟩ ⟨rfl, rfl⟩ rfl ?_
    (fun _ _ member => List.filter_subset_self _ member) fun here => ⟨here, rfl⟩
  have kept : (client.pending.filter fun entry => entry.1 ≠ id).filter (fun entry => entry.2.isHeartbeat) =
      client.pending.filter fun entry => entry.2.isHeartbeat := by
    rw [List.filter_filter]
    refine List.filter_congr fun entry pending => ?_
    by_cases same : entry.1 = id
    · obtain ⟨one, request'⟩ := entry
      obtain rfl : one = id := same
      obtain rfl := sent_unique sound.legal ((sound.flight one request').mp pending).1
        ((sound.flight one request).mp member).1
      simp [other]
    · simp [same]
  simp only [heartbeats, LicenseClient.settle, LicenseClient.record, kept]

theorem rejectActivation_steady (client : LicenseClient) (id : Nat) : Steady client (client.rejectActivation id) := by
  unfold LicenseClient.rejectActivation
  have failed := record_steady client (.activationFailed id) rfl
  dsimp only
  split
  · exact steady_trans failed (steady_trans (setState_steady _ (by decide : ClientState.idle ≠ .active))
      (promises_steady _ _ _ _ _ _))
  · exact steady_trans failed (promises_steady _ _ _ _ _ _)

theorem timer_alone (sound : Sound client) (member : id ∈ client.timers) :
    client.timers = [id] ∧ (client.pending.filter fun entry => entry.2.isHeartbeat) = [] := by
  have bound := sound.heartbeats
  have one := List.length_pos_of_mem member
  unfold heartbeats at bound
  obtain ⟨timer, alone⟩ := List.length_eq_one_iff.mp (by omega : client.timers.length = 1)
  refine ⟨?_, List.length_eq_zero_iff.mp (by omega)⟩
  rw [alone] at member ⊢
  rw [List.mem_singleton.mp member]

theorem runHeartbeat_paced (sound : Sound client) (paced : Paced maxRetries client) (member : id ∈ client.timers) :
    Paced maxRetries (client.runHeartbeat id) := by
  obtain ⟨alone, calm⟩ := timer_alone sound member
  have some : 0 < heartbeats client := Nat.lt_of_lt_of_le (List.length_pos_of_mem member) (Nat.le_add_right _ _)
  have spent : (client.timers.filter fun live => live ≠ id) = [] := by simp [alone]
  have total := paced.total
  rw [alone] at total
  have silent (started : Option Nat) (next : Nat) (stopped : client.state = .active → False) :
      Paced maxRetries { client with
        timers := client.timers.filter fun live => live ≠ id
        heartbeatRequest := started
        next := next } := by
    refine ⟨?_, paced.counters, fun _ beating => ?_, fun active => (stopped active).elim, paced.queued⟩
    · rw [spent]
      exact Nat.le_of_succ_le total
    · simp [heartbeats, alone, calm] at beating
  unfold LicenseClient.runHeartbeat
  dsimp only
  split
  · next missing =>
    refine silent _ _ fun active => ?_
    have known := (paced.alive active).1
    rw [missing] at known
    cases known
  · next token stored =>
    split
    · next inactive => exact silent _ _ inactive
    · have sent : heartbeatsSent (client.log ++ [.sent client.next (.heartbeat token)]) =
          heartbeatsSent client.log + 1 := heartbeatsSent_append _ _
      refine ⟨?_, paced.counters, fun running _ => ?_, fun active => ⟨(paced.alive active).1, fun _ => ?_⟩, ?_⟩
      · simp only [LicenseClient.send, LicenseClient.record, sent, spent]
        exact total
      · have counted := paced.counted running some
        rw [alone] at counted
        simp only [LicenseClient.send, LicenseClient.record, sent, spent]
        exact counted
      · refine Nat.lt_of_lt_of_le (List.length_pos_of_mem (a := (client.next, .heartbeat token)) ?_)
          (Nat.le_add_left _ _)
        exact List.mem_filter.mpr ⟨List.mem_append_right _ (.head _), rfl⟩
      · intro fatal
        rcases paced.queued fatal with queued | asked
        · exact .inl queued
        · exact .inr (deactivating_append.mpr (.inl asked))

theorem deactivating_later {log : List Entry} {queued : Bool} (entry : Entry)
    (cleanup : queued = true ∨ Deactivating log) : queued = true ∨ Deactivating (log ++ [entry]) := by
  rcases cleanup with waits | asked
  · exact .inl waits
  · exact .inr (deactivating_append.mpr (.inl asked))

theorem storeSession_paced (paced : Paced maxRetries client) (bound : heartbeats client ≤ 1)
    (response : ActivateResponse) : Paced maxRetries (client.storeSession response) := by
  have sent : heartbeatsSent (client.storeSession response).log = 0 :=
    heartbeatsSent_append client.log (.session response.sessionToken)
  have total := paced.total
  have timers : client.timers.length ≤ 1 := Nat.le_trans (Nat.le_add_right _ _) bound
  have same : (client.storeSession response).timers = client.timers := rfl
  refine ⟨?_, paced.counters, fun _ _ => ?_, fun active => ⟨rfl, (paced.alive active).2⟩,
    fun fatal => deactivating_later _ (paced.queued fatal)⟩
  · rw [sent, same]
    omega
  · rw [sent, same]
    omega

theorem activated_paced (positive : 1 ≤ maxRetries) (paced : Paced maxRetries client)
    (rested : heartbeats client = 0) (response : ActivateResponse) (react : LicenseEvent → List Call) :
    Paced maxRetries
      (((client.storeSession response).setState .active).emit react .ready).scheduleHeartbeat := by
  have sent : heartbeatsSent ((client.storeSession response).setState .active).log = 0 := by
    have stored : heartbeatsSent (client.storeSession response).log = 0 :=
      heartbeatsSent_append client.log (.session response.sessionToken)
    exact (heartbeatsSent_append _ (.moved _ .active)).trans stored
  have ready : Over maxRetries ((client.storeSession response).setState .active) := by
    refine ⟨rested, Nat.le_trans (Nat.le_of_eq sent) (Nat.zero_le _), paced.counters,
      fun _ _ => Nat.le_trans (Nat.le_of_eq sent) (Nat.zero_le _), fun _ => rfl, fun fatal => ?_⟩
    exact deactivating_later _ (deactivating_later _ (paced.queued fatal))
  have announced := emit_steady ((client.storeSession response).setState .active) react .ready
  refine schedule_paced (over_steady ready announced) fun _ => ?_
  rw [announced.sent, sent]
  omega

theorem rejected_steady (sound : Sound client) (member : (id, .activate) ∈ client.pending)
    (react : LicenseEvent → List Call) {reply : Reply} (rejected : ∀ session, reply ≠ .ok (some session)) :
    Steady client (client.activationReply react id reply) := by
  have settled := settle_steady sound member rfl
  match reply with
  | .ok none => exact steady_trans settled (rejectActivation_steady _ _)
  | .failed => exact steady_trans settled (rejectActivation_steady _ _)
  | .rejection status code used =>
      exact steady_trans settled (steady_trans (emit_steady _ react _) (rejectActivation_steady _ _))
  | .ok (some response) => exact absurd rfl (rejected response)

theorem activationReply_paced (positive : 1 ≤ maxRetries) (sound : Sound client)
    (paced : Paced maxRetries client) (member : (id, .activate) ∈ client.pending)
    (react : LicenseEvent → List Call) (reply : Reply) :
    Paced maxRetries (client.activationReply react id reply) := by
  match reply with
  | .ok (some response) =>
      have settled := settle_steady sound member rfl
      simp only [LicenseClient.activationReply]
      split
      · refine paced_steady (storeSession_paced (paced_steady paced settled) ?_ response)
          (rejectActivation_steady _ _)
        exact Nat.le_trans settled.beats sound.heartbeats
      · next activating =>
        rw [not_not] at activating
        refine activated_paced positive (paced_steady paced settled) ?_ response react
        exact Nat.le_zero.mp ((sound.begun (.inr activating)).1 ▸ settled.beats)
  | .ok none => exact paced_steady paced (rejected_steady sound member react fun _ same => by cases same)
  | .failed => exact paced_steady paced (rejected_steady sound member react fun _ same => by cases same)
  | .rejection status code used =>
      exact paced_steady paced (rejected_steady sound member react fun _ same => by cases same)

theorem finish_steady (client : LicenseClient) : Steady client client.finish := by
  have done := setState_steady client (by decide : ClientState.deactivated ≠ .active)
  exact ⟨⟨done.sent, done.timers, done.pending, done.fatal, nofun, done.beats, done.queued⟩, done.strikes,
    done.throttles, done.used⟩

theorem proceed_steady (went : client.proceed = some next) : Steady client next := by
  unfold LicenseClient.proceed at went
  split at went
  · split at went
    · cases went
    · obtain rfl := Option.some.inj went
      exact promises_steady client _ _ _ _ _
  · split at went
    · cases went
    · obtain rfl := Option.some.inj went
      exact promises_steady client _ _ _ _ _
  · split at went
    · cases went
    · split at went
      · obtain rfl := Option.some.inj went
        exact finish_steady client
      · obtain rfl := Option.some.inj went
        exact steady_trans (send_steady client rfl) (promises_steady _ _ _ _ _ _)
  · cases went

theorem requestOf_mem {request : Request} (found : client.requestOf id = some request) :
    (id, request) ∈ client.pending := by
  obtain ⟨⟨other, asked⟩, entry, rfl⟩ := Option.map_eq_some_iff.mp found
  obtain rfl : other = id := by simpa using List.find?_some entry
  exact List.mem_of_find?_eq_some entry

def LicenseClient.answer (client : LicenseClient) (react : LicenseEvent → List Call) (maxRetries id : Nat)
    (reply : Reply) : Request → LicenseClient
  | .activate => client.activationReply react id reply
  | .heartbeat _ => client.heartbeatReply react maxRetries id reply
  | .usage _ => client.usageReply react id reply
  | .deactivate _ => (client.settle id).finish

theorem step_reply {reply : Reply} {react : LicenseEvent → List Call}
    (went : step maxRetries client (.reply id reply react) = some next) :
    ∃ request, client.requestOf id = some request ∧ next = client.answer react maxRetries id reply request := by
  simp only [step] at went
  unfold LicenseClient.requestOf
  split at went
  case h_5 => cases went
  all_goals
    next found =>
      rw [found]
      exact ⟨_, rfl, (Option.some.inj went).symm⟩

theorem usageReply_steady (sound : Sound client) {token : String} (member : (id, .usage token) ∈ client.pending)
    (react : LicenseEvent → List Call) (reply : Reply) : Steady client (client.usageReply react id reply) := by
  have settled := settle_steady sound member rfl
  match reply with
  | .rejection status code used =>
      have rejected := emit_steady (client.settle id) react (LicenseClient.rejectionEvent code)
      simp only [LicenseClient.usageReply]
      split
      · exact steady_trans settled (steady_trans rejected (handleFatalError_steady _))
      · exact steady_trans settled rejected
  | .ok _ => exact settled
  | .failed => exact settled

theorem plain_steady (sound : Sound client) {taken : ClientStep}
    (plain : taken.plain = true)
    (went : step maxRetries client taken = some next) : Steady client next := by
  cases taken with
  | call call => exact Option.some.inj went ▸ call_steady client call
  | timer id => cases plain
  | reply id reply react => cases plain
  | catchActivation id =>
      simp only [step] at went
      split at went
      · cases went
      · exact Option.some.inj went ▸ promises_steady client _ _ _ _ _
  | finallyHeartbeat id =>
      simp only [step] at went
      split at went
      · cases went
      · exact Option.some.inj went ▸ promises_steady client _ _ _ _ _
  | finallyUsage id =>
      simp only [step] at went
      split at went
      · cases went
      · exact Option.some.inj went ▸ promises_steady client _ _ _ _ _
  | fatalCleanup =>
      simp only [step] at went
      split at went
      · obtain rfl := Option.some.inj went
        have begun := deactivate_steady { client with fatalQueued := false }
        have asked := deactivate_called ((aside_follows client client.failureStrikes client.throttleRetries
          client.expiryProtectedThrottleRetryUsed client.fatalCleanupScheduled false).sound sound)
        exact ⟨⟨begun.sent, begun.timers, begun.pending, begun.fatal, begun.beating, begun.beats,
          fun _ _ => .inr asked⟩, begun.strikes, begun.throttles, begun.used⟩
      · cases went
  | proceed => exact proceed_steady went

theorem reply_paced (positive : 1 ≤ maxRetries) (sound : Sound client) (paced : Paced maxRetries client)
    {reply : Reply} {react : LicenseEvent → List Call}
    (went : step maxRetries client (.reply id reply react) = some next) : Paced maxRetries next := by
  obtain ⟨request, found, rfl⟩ := step_reply went
  have member := requestOf_mem found
  cases request with
  | activate => exact activationReply_paced positive sound paced member react reply
  | heartbeat token => exact heartbeatReply_paced positive sound paced member react reply
  | usage token => exact paced_steady paced (usageReply_steady sound member react reply)
  | deactivate token =>
      exact paced_steady paced (steady_trans (settle_steady sound member rfl) (finish_steady _))

theorem timer_paced (sound : Sound client) (paced : Paced maxRetries client)
    (went : step maxRetries client (.timer id) = some next) :
    id ∈ client.timers ∧ next = client.runHeartbeat id ∧ Paced maxRetries next := by
  simp only [step] at went
  split at went
  · next member =>
    obtain rfl := Option.some.inj went
    exact ⟨member, rfl, runHeartbeat_paced sound paced member⟩
  · cases went

theorem step_paced (positive : 1 ≤ maxRetries) (sound : Sound client) (paced : Paced maxRetries client)
    {taken : ClientStep} (went : step maxRetries client taken = some next) : Paced maxRetries next := by
  cases taken with
  | timer id => exact (timer_paced sound paced went).2.2
  | reply id reply react => exact reply_paced positive sound paced went
  | _ => exact paced_steady paced (plain_steady sound rfl went)

theorem reachable_paced (positive : 1 ≤ maxRetries) (reachable : Reachable maxRetries client) :
    Paced maxRetries client := by
  induction reachable with
  | start =>
      exact ⟨Nat.zero_le _, fun _ => ⟨positive, Nat.zero_le _⟩, fun _ _ => Nat.zero_le _, nofun, nofun⟩
  | step taken before went ih => exact step_paced positive (reachable_sound before) ih went

end Steps

end Keyzori.Sdk
