import Keyzori.Server.AloneSessions
import Keyzori.Server.LockOrder
import Keyzori.Sessions.Cap

namespace Keyzori

open ExpiringStore Interleaving Relation

variable {host : Host} {now : Instant} {clock : Instant → Prop} {used : List String}
  {state last : ServerState} {call : Nat}
  {request : Request} {result : Except Failure Response} {world next : World}

def asked (host : Host) (call : Nat) (request : Request) (state : ServerState) : ServerState :=
  ⟨state.view.ask call request, Function.update state.pool call (some (program host request))⟩

/-- A call that is made in a state and then runs alone, without a failure, to its end, and draws
no key in use. -/
structure Serves (host : Host) (clock : Instant → Prop) (call : Nat) (request : Request)
    (state last : ServerState) (result : Except Failure Response) : Prop where
  unused : state.pool call = none
  turns : ReflTransGen (Turns (server host) (Sane clock state.view.world.tables.rowKeys) call)
    (asked host call request state) last
  ended : last.pool call = some (.done result)

def Request.runtime : Request → Bool
  | .activate _ _ _ | .heartbeat _ _ _ | .consume _ _ _ _ | .deactivate _ _ _ => true
  | _ => false

inductive RuntimeEnds (host : Host) (clock : Instant → Prop) (world : World) :
    Request → Except Failure Response → World → Prop
  | activate {licenseKey deviceId ip : String} {result : Except Failure LicenseSessionResult} {next : World}
      (ends : ActivateEnds host clock licenseKey deviceId ip world result next) :
      RuntimeEnds host clock world (.activate licenseKey deviceId ip) (result.map .session) next
  | heartbeat {sessionToken deviceId ip : String} {result : Except Failure LicenseSessionResult} {next : World}
      (ends : HeartbeatEnds host clock sessionToken deviceId ip world result next) :
      RuntimeEnds host clock world (.heartbeat sessionToken deviceId ip) (result.map .session) next
  | consume {sessionToken deviceId ip : String} {input : ConsumeUsageInput}
      {result : Except Failure ConsumeUsageResult} {next : World}
      (ends : ConsumeEnds host clock sessionToken deviceId ip input world result next) :
      RuntimeEnds host clock world (.consume sessionToken deviceId ip input) (result.map .usage) next
  | deactivate {sessionToken deviceId ip : String} {result : Except Failure Unit} {next : World}
      (ends : DeactivateEnds host sessionToken deviceId ip world result next) :
      RuntimeEnds host clock world (.deactivate sessionToken deviceId ip) (result.map fun _ => .done) next

section Programs

variable {α β : Type}

theorem alone_map {prog : Server α} {answer : α → β} {post : Except Failure α → World → Prop}
    {mapped : Except Failure β → World → Prop} (holds : Alone call clock used prog world post)
    (implies : ∀ result next, post result next → mapped (result.map answer) next) :
    Alone call clock used (answer <$> prog) world mapped := by
  refine alone_then post holds (fun value next ends => ?_) fun error next ends => ?_
  · exact alone_pure (implies _ _ ends)
  · exact implies _ _ ends

theorem runtime_alone (ticking : ∃ now, clock now) (known : world.tables.rowKeys ⊆ used)
    (tables : TablesSound world) (sessions : SessionsSound world) (runtime : request.runtime = true) :
    Alone call clock used (program host request) world (RuntimeEnds host clock world request) := by
  cases request with
  | activate licenseKey deviceId ip => exact alone_map (activate_alone ticking known tables) fun _ _ => .activate
  | heartbeat sessionToken deviceId ip =>
      exact alone_map (heartbeat_alone ticking tables sessions) fun _ _ => .heartbeat
  | consume sessionToken deviceId ip input =>
      exact alone_map (consume_alone ticking known tables sessions) fun _ _ => .consume
  | deactivate sessionToken deviceId ip => exact alone_map (deactivate_alone ticking sessions) fun _ _ => .deactivate
  | _ => cases runtime

theorem sessionEnds_locks {binding : SessionBinding} {sessionToken : String} {checked : Except Failure LicenseData}
    (ends : SessionEnds host clock sessionToken binding world checked next) : next.locks = world.locks := by
  cases ends <;> rfl

theorem runtimeEnds_locks (ends : RuntimeEnds host clock world request result next) : next.locks = world.locks := by
  cases ends with
  | activate ends =>
      cases ends with
      | known bound present key ends => cases ends <;> rfl
      | _ => rfl
  | heartbeat ends =>
      cases ends with
      | unbound invalid => rfl
      | rejected bound ends => exact sessionEnds_locks ends
      | beat bound ends seen =>
          have kept := sessionEnds_locks ends
          exact kept
  | consume ends =>
      cases ends with
      | rejected bound valid ends => exact sessionEnds_locks ends
      | used bound valid ends used =>
          have kept := sessionEnds_locks ends
          exact kept
      | _ => rfl
  | deactivate ends => cases ends <;> rfl

end Programs

section Runs

theorem turns_others {sane : Input → Prop} (turns : ReflTransGen (Turns (server host) sane call) state last)
    {other : Nat} (distinct : other ≠ call) : last.pool other = state.pool other := by
  induction turns with
  | refl => rfl
  | tail _ turn ih =>
      cases turn with
      | act caller act rest input world result going ran fairly =>
          obtain ⟨rfl, -⟩ := fairly
          exact (Function.update_of_ne distinct _ _).trans ih

theorem asked_pool : (asked host call request state).pool call = some (program host request) :=
  Function.update_self _ _ _

theorem asked_run (run : ServerRun host now state) (unused : state.pool call = none) :
    ServerRun host now (asked host call request state) := .step run (.start state call request unused)

theorem serves_run (run : ServerRun host now state) (serves : Serves host clock call request state last result) :
    ServerRun host now last := acts_run (asked_run run serves.unused) serves.turns

theorem serves_others (serves : Serves host clock call request state last result) {other : Nat}
    (distinct : other ≠ call) : last.pool other = state.pool other :=
  (turns_others serves.turns distinct).trans (Function.update_of_ne distinct _ _)

theorem serves_ended (idle : state.Ended) (serves : Serves host clock call request state last result) :
    last.Ended := by
  intro other act rest running
  by_cases same : other = call
  · subst same
    rw [serves.ended] at running
    cases running
  · rw [serves_others serves same] at running
    exact idle other act rest running

theorem idle_locks (run : ServerRun host now state) (idle : state.Ended) : state.view.world.locks = fun _ => none := by
  funext lock
  by_contra held
  obtain ⟨holder, held⟩ := Option.ne_none_iff_exists'.mp held
  obtain ⟨-, act, rest, running⟩ := lock_held run held
  exact idle holder act rest running

theorem idle_alone {prog : Server Response} {post : Except Failure Response → World → Prop}
    (run : ServerRun host now state) (idle : state.Ended) (holds : Alone call clock used prog state.view.world post) :
    prog.alone (server host).exec (Sane clock used) call state.view.world fun result after =>
      ∃ next locks, post result next ∧ Unlocked call locks ∧ after = next.under locks := by
  refine holds state.view.world.locks fun lock holder held => ?_
  rw [idle_locks run idle] at held
  cases held

theorem runtime_ends (run : ServerRun host now state) (idle : state.Ended) (ticking : ∃ now, clock now)
    (runtime : request.runtime = true) (serves : Serves host clock call request state last result) :
    RuntimeEnds host clock state.view.world request result last.view.world := by
  have sound := (server_run_sound run).consistent
  have holds := idle_alone run idle
    (@runtime_alone host clock _ call request _ ticking (List.Subset.refl _) sound.tables
    sound.sessions runtime)
  obtain ⟨rest, left, remaining⟩ := alone_turns asked_pool holds serves.turns
  cases left.symm.trans serves.ended
  obtain ⟨next, locks, ends, -, same⟩ := remaining
  have free := idle_locks (serves_run run serves) (serves_ended idle serves)
  have kept : next.locks = locks := by
    rw [runtimeEnds_locks ends, idle_locks run idle, ← free, same]
    rfl
  rw [same, ← kept]
  exact ends

theorem runtime_serves (run : ServerRun host now state) (idle : state.Ended) (ticking : ∃ now, clock now)
    (unused : state.pool call = none) (runtime : request.runtime = true) :
    ∃ last result, Serves host clock call request state last result := by
  have sound := (server_run_sound run).consistent
  have holds := idle_alone run idle
    (@runtime_alone host clock _ call request _ ticking (List.Subset.refl _) sound.tables
    sound.sessions runtime)
  obtain ⟨last, result, turns, ended, -⟩ := @alone_ends _ _ _ _ _ _ _ _ _ _ (server host)
    (asked host call request state) _ _ asked_pool holds
  exact ⟨last, result, unused, turns, ended⟩

/-- In any state of a run in which no call is on its way, a runtime call that runs alone comes
to an end, and answers and leaves the world as the one operation it stands for. -/
theorem runtime_served (run : ServerRun host now state) (idle : state.Ended) (ticking : ∃ now, clock now)
    (unused : state.pool call = none) (runtime : request.runtime = true) :
    (∃ last result, Serves host clock call request state last result) ∧
      ∀ last result, Serves host clock call request state last result →
        RuntimeEnds host clock state.view.world request result last.view.world :=
  ⟨runtime_serves run idle ticking unused runtime, fun _ _ => runtime_ends run idle ticking runtime⟩

def stocked (state : ServerState) : Bool :=
  match state.pool 0, state.pool 1, state.view.world.tables.licenses sampleId with
  | some (.done _), some (.done _), some data =>
      data.row.id = sampleId && data.row.keyHash = "key 102" && data.row.type = .subscription &&
        data.row.maxSessions ≤ 0 && (match data.admits ⟨"10.0.0.1", "laptop"⟩ 50 with
          | .ok _ => true
          | .error _ => false)
  | _, _, _ => false

theorem stocked_state : ∃ state, ServerRun sampleHost 0 state ∧ stocked state = true ∧ state.Ended ∧
    ∀ call, 2 ≤ call → state.pool call = none := by
  obtain ⟨state, run, holds, calls⟩ := @sampled_calls subscriptionSample stocked (by decide +kernel)
  have started : ∀ call prog, state.pool call = some prog → call ∈ [0, 1] := by
    intro call prog running
    obtain ⟨request, asked, -⟩ := (run_allowed (@program_meets sampleHost) run).2.2 call prog running
    exact List.mem_map_of_mem (f := Prod.fst) (calls call request asked)
  refine ⟨state, run, holds, fun call act rest running => ?_, fun call later => ?_⟩
  · unfold stocked at holds
    split at holds
    · next first second data =>
      rcases List.mem_cons.mp (started call _ running) with rfl | other
      · cases first.symm.trans running
      · obtain rfl := List.mem_singleton.mp other
        cases second.symm.trans running
    · cases holds
  · refine Option.eq_none_iff_forall_ne_some.mpr fun prog running => ?_
    have early := started call prog running
    simp only [List.mem_cons, List.not_mem_nil, or_false] at early
    omega

theorem runtime_served_sample : ∃ state last result, ServerRun sampleHost 0 state ∧
    Serves sampleHost (· = 50) 2 (.activate "key 102" "laptop" "10.0.0.1") state last result ∧
      RuntimeEnds sampleHost (· = 50) state.view.world (.activate "key 102" "laptop" "10.0.0.1") result
        last.view.world := by
  obtain ⟨state, run, -, idle, unused⟩ := stocked_state
  have served := @runtime_served sampleHost 0 (· = 50) state 2 (.activate "key 102" "laptop" "10.0.0.1") run idle
    ⟨50, rfl⟩ (unused 2 le_rfl) rfl
  obtain ⟨last, result, serves⟩ := served.1
  exact ⟨state, last, result, run, serves, served.2 last result serves⟩

end Runs

section Stores

variable {store after : SessionStore} {id : LicenseId} {revision ttl elapsed : Nat} {bindingHash token : String}
  {maximum : Int} {session : Session}

def FullTime (store : SessionStore) (token : String) (session : Session) (ttl : Nat) : Prop :=
  store.keys token = some (session.value, store.now + (1000 * ttl : Nat))

theorem indexed_fresh (store : SessionStore) (index : String) (session : Session) :
    FullTime (((store.setEx token session.value (1000 * ttl)).sadd index token).expireSet index (1000 * ttl)) token
      session ttl := by
  have listed := Store.keys_sadd (store.setEx token session.value (1000 * ttl)) index token
  have expiring := Store.keys_expireSet ((store.setEx token session.value (1000 * ttl)).sadd index token) index
    (1000 * ttl)
  rw [FullTime, expiring.1, expiring.2, listed.1, listed.2]
  exact Function.update_self _ _ _

theorem registered_fresh
    (registered : registerSession store id revision bindingHash ttl maximum token = (after, .registered token)) :
    FullTime after token ⟨id, revision, bindingHash⟩ ttl := by
  simp only [registerSession] at registered
  split at registered
  · cases registered
  · cases registered
    exact indexed_fresh _ id.text ⟨id, revision, bindingHash⟩

theorem refreshed_fresh (carried : Carries store token session) (bound : session.binding = bindingHash) :
    FullTime (refreshSession store token bindingHash ttl).1 token session ttl := by
  have renewed : store.expire token (1000 * ttl) = store.setEx token session.value (1000 * ttl) := by
    simp only [Store.expire, show store.get token = some session.value from carried]
  simp only [refreshSession, bound_carried carried bound, renewed]
  exact indexed_fresh store session.licenseId.text session

theorem fresh_carries (fresh : FullTime store token session ttl) (inTime : elapsed ≤ 1000 * ttl) :
    Carries (store.advance elapsed) token session := by
  refine Store.get_some.mpr ⟨_, fresh, ?_⟩
  simp only [Store.advance]
  omega

theorem fresh_expired (fresh : FullTime store token session ttl) (late : 1000 * ttl < elapsed) :
    boundSession (store.advance elapsed) token bindingHash = none := by
  have gone : (store.advance elapsed).get token = none := by
    have stored : (store.advance elapsed).keys token = _ := fresh
    rw [Store.get, stored]
    refine if_neg ?_
    simp only [Store.advance]
    omega
  rw [boundSession, gone]
  rfl

def World.current (world : World) (id : LicenseId) (revision : Nat) : List String :=
  SessionSystem.currentSessions ⟨world.sessions, fun _ => revision, world.tokens.map Prod.fst⟩ id

theorem room_registers (sound : SessionsSound world)
    (room : maximum ≤ 0 ∨ ((world.current id revision).length : Int) < maximum) :
    registerSession world.sessions id revision bindingHash ttl maximum token ≠ (after, .limitReached) := by
  have counted := @SessionSystem.scard_pruned sessionTtlSeconds
    ⟨world.sessions, fun _ => revision, world.tokens.map Prod.fst⟩ id sound.kept sound.distinct
  intro full
  simp only [registerSession] at full
  split at full
  · next reached =>
    rw [counted] at reached
    exact absurd reached.2 (by rw [World.current] at room; omega)
  · cases full

end Stores

section Lives

variable {binding : SessionBinding} {data : LicenseData} {token deviceId ip licenseKey : String} {elapsed : Nat}
  {answer : LicenseSessionResult}

def LicenseData.begun (data : LicenseData) (started : Instant) : LicenseData :=
  { data with row := { data.row with trialStartedAt := some started } }

/-- The session of a token was just answered, and its license goes on to admit its binding. -/
structure Live (host : Host) (clock : Instant → Prop) (binding : SessionBinding) (token : String)
    (answer : LicenseSessionResult) (world : World) : Prop where
  served : ∃ id data, world.tables.licenses id = some data ∧
    FullTime world.sessions token ⟨id, data.row.sessionRevision, host.hashBinding binding⟩ sessionTtlSeconds ∧
    sessionResult data.license token = answer ∧ ∀ now, clock now → data.policy binding now = .ok ()

/-- The policy reads nothing of the row that an admission writes but the start of a trial. -/
theorem admission_policy {after : LicenseData} {now : Instant} (admission : AdmissionResult clock binding data after)
    (lasts : data.startsTrial → ∀ started, clock started → (data.begun started).policy binding now = .ok ())
    (passed : data.policy binding now = .ok ()) : after.policy binding now = .ok () := by
  obtain ⟨row, -, link, allowedIps, allowedDevices, -⟩ := admission
  split at row
  · next starts =>
    obtain ⟨started, time, row⟩ := row
    rw [← lasts starts started time]
    simp only [LicenseData.policy, LicenseData.listed, LicenseData.license, LicenseData.begun, link, allowedIps,
      allowedDevices]
    rw [row]
    rfl
  · rw [← passed]
    simp only [LicenseData.policy, LicenseData.listed, LicenseData.license, link, allowedIps, allowedDevices, row]

theorem admission_answer {after : LicenseData} (admission : AdmissionResult clock binding data after) :
    after.row.sessionRevision = data.row.sessionRevision ∧
      sessionResult after.license = sessionResult data.license := by
  have row := admission.row
  split at row
  · obtain ⟨started, -, row⟩ := row
    rw [LicenseData.license, row]
    exact ⟨rfl, rfl⟩
  · rw [LicenseData.license, row]
    exact ⟨rfl, rfl⟩

theorem admits_policy {now : Instant} (admits : data.admits binding now = .ok ()) :
    data.policy binding now = .ok () := by
  cases policy : data.policy binding now with
  | ok value => rfl
  | error error =>
      rw [admits_refused policy] at admits
      cases admits

theorem seen_policy {touched : LicenseData} (seen : Seen data touched) {now : Instant} :
    touched.policy binding now = data.policy binding now := by
  rw [seen.devices]
  rfl

theorem activated_live {result : Except Failure String} (sound : SessionsSound world)
    (admits : ∀ now, clock now → data.admits binding now = .ok ())
    (lasts : data.startsTrial → ∀ started now, clock started → clock now →
      (data.begun started).policy binding now = .ok ())
    (room : data.row.maxSessions ≤ 0 ∨
      ((world.current data.row.id data.row.sessionRevision).length : Int) < data.row.maxSessions)
    (ends : Activated host clock binding world data result next) :
    ∃ token, result = .ok token ∧ Live host clock binding token (sessionResult data.license token) next := by
  cases ends with
  | refused time refused =>
      rw [admits _ time] at refused
      cases refused
  | full time admitted fresh reserved => exact absurd reserved (room_registers sound room)
  | @admitted now token store after time admitted fresh reserved admission =>
      refine ⟨token, rfl, ⟨data.row.id, after, Function.update_self _ _ _, ?_, ?_, fun now time => ?_⟩⟩
      · rw [(admission_answer admission).1]
        exact registered_fresh reserved
      · rw [(admission_answer admission).2]
      · exact admission_policy admission (fun starts started began => lasts starts started now began time)
          (admits_policy (admits now time))

theorem stored_key (sound : TablesSound world) (present : world.tables.licenses data.row.id = some data) :
    world.tables.findByKeyHash data.row.keyHash ≠ none := by
  intro missing
  have absent := List.find?_eq_none.mp (Option.map_eq_none_iff.mp missing) data
    (List.mem_filterMap.mpr ⟨data.row.id, sound.known _ (by simp [present]), present⟩)
  exact absent (by simp)

theorem activate_live {result : Except Failure LicenseSessionResult} (sound : Consistent world)
    (bound : sessionBinding ip deviceId = .ok binding) (present : world.tables.licenses data.row.id = some data)
    (key : data.row.keyHash = host.hashLicenseKey licenseKey)
    (admits : ∀ now, clock now → data.admits binding now = .ok ())
    (lasts : data.startsTrial → ∀ started now, clock started → clock now →
      (data.begun started).policy binding now = .ok ())
    (room : data.row.maxSessions ≤ 0 ∨
      ((world.current data.row.id data.row.sessionRevision).length : Int) < data.row.maxSessions)
    (ends : ActivateEnds host clock licenseKey deviceId ip world result next) :
    ∃ token, result = .ok (sessionResult data.license token) ∧
      Live host clock binding token (sessionResult data.license token) next := by
  cases ends with
  | unbound invalid => cases bound.symm.trans invalid
  | unknown same missing => exact absurd (key ▸ missing) (stored_key sound.tables present)
  | @known _ other _ _ same stored found ends =>
      cases bound.symm.trans same
      obtain rfl : data = other := by
        have alike := sound.tables.keyUnique _ _ _ _ present stored (key.trans found.symm)
        rw [← alike, present] at stored
        exact Option.some.inj stored
      obtain ⟨token, rfl, live⟩ := activated_live sound.sessions admits lasts room ends
      exact ⟨token, rfl, live⟩

theorem checks_pass {id : LicenseId} {checked : Except Failure LicenseData}
    (present : world.tables.licenses id = some data)
    (carried : Carries world.sessions token ⟨id, data.row.sessionRevision, host.hashBinding binding⟩)
    (passes : ∀ now, clock now → data.policy binding now = .ok ())
    (ends : SessionEnds host clock token binding world checked next) :
    checked = .ok data ∧ next = world.renew token (host.hashBinding binding) := by
  cases ends with
  | missing unbound =>
      rw [bound_carried carried rfl] at unbound
      cases unbound
  | gone other bound absent =>
      cases carries_unique carried other
      cases present.symm.trans absent
  | outdated other bound stored differs =>
      cases carries_unique carried other
      cases present.symm.trans stored
      exact absurd rfl differs
  | refused other bound stored current time refused =>
      cases carries_unique carried other
      cases present.symm.trans stored
      rw [passes _ time] at refused
      cases refused
  | passed other bound stored current time passed =>
      cases carries_unique carried other
      cases present.symm.trans stored
      exact ⟨rfl, rfl⟩

theorem beat_live {result : Except Failure LicenseSessionResult} (bound : sessionBinding ip deviceId = .ok binding)
    (live : Live host clock binding token answer world) (inTime : elapsed ≤ 1000 * sessionTtlSeconds)
    (tables : TablesSound world)
    (ends : HeartbeatEnds host clock token deviceId ip (move (.elapse elapsed) world) result next) :
    result = .ok answer ∧ Live host clock binding token answer next := by
  obtain ⟨id, data, present, fresh, rfl, passes⟩ := live
  obtain rfl := tables.rowId id data present
  have carried := fresh_carries fresh inTime
  have there : (move (.elapse elapsed) world).tables.licenses data.row.id = some data := present
  cases ends with
  | unbound invalid => cases bound.symm.trans invalid
  | rejected same ends =>
      cases bound.symm.trans same
      cases (checks_pass there carried passes ends).1
  | @beat _ _ touched _ same ends seen =>
      cases bound.symm.trans same
      obtain ⟨⟨⟩, rfl⟩ := checks_pass there carried passes ends
      refine ⟨rfl, data.row.id, touched, Function.update_self _ _ _, ?_, ?_, fun now time => ?_⟩
      · rw [show touched.row = data.row by rw [seen.devices]]
        exact refreshed_fresh carried rfl
      · rw [seen.devices]
        rfl
      · rw [seen_policy seen]
        exact passes now time

theorem late_rejected {result : Except Failure LicenseSessionResult} (bound : sessionBinding ip deviceId = .ok binding)
    (unbound : boundSession world.sessions token (host.hashBinding binding) = none)
    (ends : HeartbeatEnds host clock token deviceId ip world result next) : result = .error invalidSession := by
  have none : ∀ checked after, SessionEnds host clock token binding world checked after →
      checked = .error invalidSession := by
    intro checked after ends
    cases ends with
    | missing unbound => rfl
    | gone carried same absent => rfl
    | outdated carried same stored differs => rfl
    | refused carried same | passed carried same =>
        rw [bound_carried carried same] at unbound
        cases unbound
  cases ends with
  | unbound invalid => cases bound.symm.trans invalid
  | rejected same ends =>
      cases bound.symm.trans same
      cases none _ _ ends
      rfl
  | beat same ends seen =>
      cases bound.symm.trans same
      cases none _ _ ends

theorem deactivated_gone {result : Except Failure Unit} (bound : sessionBinding ip deviceId = .ok binding)
    (sound : SessionsSound world) (ends : DeactivateEnds host token deviceId ip world result next) :
    result = .ok () ∧ ∀ passed,
      boundSession (next.sessions.advance passed) token (host.hashBinding binding) = none := by
  cases ends with
  | unbound invalid => cases bound.symm.trans invalid
  | ended same =>
      cases bound.symm.trans same
      refine ⟨rfl, fun passed => Option.eq_none_iff_forall_ne_some.mpr fun fields found => ?_⟩
      obtain ⟨session, carried, same, -⟩ := bound_session (advance_kept (removeSession_kept sound.kept) passed) found
      exact ((removeSession_carries token session).mp (advance_carries carried)).2 ⟨rfl, same⟩

end Lives

section Chains

variable {binding : SessionBinding} {data : LicenseData} {token deviceId ip licenseKey : String} {elapsed : Nat}
  {answer : LicenseSessionResult} {first : ServerState}

def elapse (elapsed : Nat) (state : ServerState) : ServerState :=
  { state with view := { state.view with world := move (.elapse elapsed) state.view.world } }

/-- Heartbeats for a token, each in time after the one before. -/
inductive Beats (host : Host) (clock : Instant → Prop) (token deviceId ip : String) (first : ServerState) :
    ServerState → Prop
  | none : Beats host clock token deviceId ip first first
  | beat {middle last : ServerState} {elapsed call : Nat} {result : Except Failure Response}
      (before : Beats host clock token deviceId ip first middle) (inTime : elapsed ≤ 1000 * sessionTtlSeconds)
      (served : Serves host clock call (.heartbeat token deviceId ip) (elapse elapsed middle) last result) :
      Beats host clock token deviceId ip first last

theorem served_ends (run : ServerRun host now state) (idle : state.Ended) (ticking : ∃ now, clock now)
    (runtime : request.runtime = true) (serves : Serves host clock call request (elapse elapsed state) last result) :
    ServerRun host now last ∧ last.Ended ∧
      RuntimeEnds host clock (move (.elapse elapsed) state.view.world) request result last.view.world := by
  have later : ServerRun host now (elapse elapsed state) := .step run (.environment state (Move.elapse elapsed))
  have still : (elapse elapsed state).Ended := idle
  exact ⟨serves_run later serves, serves_ended still serves,
    runtime_ends later still ticking runtime serves⟩

theorem beat_served (bound : sessionBinding ip deviceId = .ok binding) (ticking : ∃ now, clock now)
    (run : ServerRun host now state) (idle : state.Ended)
    (live : Live host clock binding token answer state.view.world) (inTime : elapsed ≤ 1000 * sessionTtlSeconds)
    (served : Serves host clock call (.heartbeat token deviceId ip) (elapse elapsed state) last result) :
    result = .ok (.session answer) ∧ ServerRun host now last ∧ last.Ended ∧
      Live host clock binding token answer last.view.world := by
  obtain ⟨later, ended, ends⟩ := served_ends run idle ticking rfl served
  cases ends with
  | heartbeat ends =>
      obtain ⟨rfl, live⟩ := beat_live bound live inTime (server_run_sound run).consistent.tables ends
      exact ⟨rfl, later, ended, live⟩

theorem beats_live (bound : sessionBinding ip deviceId = .ok binding) (ticking : ∃ now, clock now)
    (run : ServerRun host now first) (idle : first.Ended)
    (live : Live host clock binding token answer first.view.world)
    (beats : Beats host clock token deviceId ip first state) :
    ServerRun host now state ∧ state.Ended ∧ Live host clock binding token answer state.view.world := by
  induction beats with
  | none => exact ⟨run, idle, live⟩
  | beat before inTime served ih =>
      obtain ⟨middle, ended, alive⟩ := ih
      exact (beat_served bound ticking middle ended alive inTime served).2

theorem rejected_served (bound : sessionBinding ip deviceId = .ok binding) (ticking : ∃ now, clock now)
    (run : ServerRun host now state) (idle : state.Ended)
    (unbound : boundSession (state.view.world.sessions.advance elapsed) token (host.hashBinding binding) = none)
    (served : Serves host clock call (.heartbeat token deviceId ip) (elapse elapsed state) last result) :
    result = .error invalidSession := by
  obtain ⟨-, -, ends⟩ := served_ends run idle ticking rfl served
  cases ends with
  | heartbeat ends => rw [late_rejected bound unbound ends]; rfl

/-- A session lives from its activation through every heartbeat that comes in time. The first
one that comes too late is rejected, and so is every heartbeat after a deactivation. -/
theorem session_life (run : ServerRun host now state) (idle : state.Ended) (ticking : ∃ now, clock now)
    (bound : sessionBinding ip deviceId = .ok binding)
    (present : state.view.world.tables.licenses data.row.id = some data)
    (key : data.row.keyHash = host.hashLicenseKey licenseKey)
    (admits : ∀ now, clock now → data.admits binding now = .ok ())
    (lasts : data.startsTrial → ∀ started now, clock started → clock now →
      (data.begun started).policy binding now = .ok ())
    (room : data.row.maxSessions ≤ 0 ∨
      ((state.view.world.current data.row.id data.row.sessionRevision).length : Int) < data.row.maxSessions)
    (activated : Serves host clock call (.activate licenseKey deviceId ip) state first result) :
    ∃ token, result = .ok (.session (sessionResult data.license token)) ∧
      ∀ middle, Beats host clock token deviceId ip first middle → ∀ elapsed caller last answer,
        (Serves host clock caller (.heartbeat token deviceId ip) (elapse elapsed middle) last answer →
          answer = if elapsed ≤ 1000 * sessionTtlSeconds then .ok (.session (sessionResult data.license token))
            else .error invalidSession) ∧
        (Serves host clock caller (.deactivate token deviceId ip) (elapse elapsed middle) last answer →
          answer = .ok .done ∧ ∀ passed other later rejected,
            Serves host clock other (.heartbeat token deviceId ip) (elapse passed last) later rejected →
              rejected = .error invalidSession) := by
  have ends := runtime_ends run idle ticking rfl activated
  have begun := serves_run run activated
  have ended := serves_ended idle activated
  cases ends with
  | activate ends =>
      obtain ⟨token, rfl, live⟩ :=
        activate_live (server_run_sound run).consistent bound present key admits lasts room ends
      refine ⟨token, rfl, fun middle beats elapsed caller last answer => ?_⟩
      obtain ⟨reached, quiet, alive⟩ := beats_live bound ticking begun ended live beats
      refine ⟨fun served => ?_, fun served => ?_⟩
      · split
        · next inTime => exact (beat_served bound ticking reached quiet alive inTime served).1
        · next late =>
          obtain ⟨id, held, -, fresh, -, -⟩ := alive
          exact (rejected_served bound ticking reached quiet (fresh_expired fresh (by omega)) served)
      · obtain ⟨later, still, ends⟩ := served_ends reached quiet ticking rfl served
        have sound :=
          (server_run_sound (.step reached (.environment middle (Move.elapse elapsed)))).consistent.sessions
        cases ends with
        | deactivate ends =>
            obtain ⟨rfl, gone⟩ := deactivated_gone bound sound ends
            exact ⟨rfl, fun passed other later' rejected => rejected_served bound ticking later still (gone passed)⟩

theorem session_life_sample : ∃ state first last result session, ServerRun sampleHost 0 state ∧
    Serves sampleHost (· = 50) 2 (.activate "key 102" "laptop" "10.0.0.1") state first (.ok (.session session)) ∧
      Serves sampleHost (· = 50) 3 (.heartbeat session.sessionToken "laptop" "10.0.0.1")
        (elapse 45000 first) last result ∧
        result = .ok (.session session) := by
  obtain ⟨state, run, holds, idle, unused⟩ := stocked_state
  unfold stocked at holds
  split at holds
  · next data _ _ present =>
    simp only [Bool.and_eq_true, decide_eq_true_eq] at holds
    obtain ⟨⟨⟨⟨own, key⟩, type⟩, room⟩, admitted⟩ := holds
    have ticking : ∃ now : Instant, now = 50 := ⟨50, rfl⟩
    obtain ⟨first, result, activated⟩ := @runtime_serves sampleHost 0 (· = 50) state 2
      (.activate "key 102" "laptop" "10.0.0.1") run idle ticking (unused 2 le_rfl) rfl
    have admits : ∀ now : Instant, now = 50 → data.admits ⟨"10.0.0.1", "laptop"⟩ now = .ok () := by
      rintro _ rfl
      split at admitted
      · assumption
      · cases admitted
    have lasts : data.startsTrial → ∀ started now : Instant, started = 50 → now = 50 →
        (data.begun started).policy ⟨"10.0.0.1", "laptop"⟩ now = .ok () := fun starts => by
      cases type.symm.trans starts.1
    have there : state.view.world.tables.licenses data.row.id = some data := by rw [own, present]
    have bound : sessionBinding "10.0.0.1" "laptop" = .ok ⟨"10.0.0.1", "laptop"⟩ := by decide +kernel
    obtain ⟨token, rfl, life⟩ := session_life run idle ticking bound there key admits lasts (.inl room) activated
    have later : ServerRun sampleHost 0 (elapse 45000 first) :=
      .step (serves_run run activated) (.environment first (Move.elapse 45000))
    have unused : (elapse 45000 first).pool 3 = none :=
      (serves_others activated (by decide)).trans (unused 3 (by decide))
    have still := serves_ended idle activated
    obtain ⟨last, answer, served⟩ := @runtime_serves sampleHost 0 (· = 50) (elapse 45000 first) 3
      (.heartbeat token "laptop" "10.0.0.1") later still ticking unused rfl
    exact ⟨state, first, last, answer, _, run, activated, served,
      ((life first .none 45000 3 last answer).1 served).trans (if_pos le_rfl)⟩
  · cases holds

end Chains

end Keyzori
