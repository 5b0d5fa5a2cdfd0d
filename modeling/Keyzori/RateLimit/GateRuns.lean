import Keyzori.RateLimit.Gates
import Mathlib.Data.List.Forall2

namespace Keyzori

open Interleaving

inductive GateKind
  | ip
  | license (scope : RuntimeRateLimitScope)
  | admin
  deriving DecidableEq, Repr

structure GateKey where
  kind : GateKind
  principal : String
  deriving DecidableEq, Repr

def GateKind.text : GateKind → String
  | ip => "ratelimit:ip:"
  | license scope => "ratelimit:license:" ++ scope.text ++ ":"
  | admin => "ratelimit:admin:"

def GateKey.text (key : GateKey) : String := key.kind.text ++ key.principal

def GateKind.limit (options : GateOptions) : GateKind → Nat
  | ip => options.ipRequestsPerMinute
  | license _ => options.licenseRequestsPerMinute
  | admin => options.adminRequestsPerMinute

theorem kind_unambiguous {first second : GateKind} (starts : first.text.toList <+: second.text.toList) :
    first = second := by
  cases first with
  | license scope =>
      cases second with
      | license other => revert starts; cases scope <;> cases other <;> decide
      | _ => revert starts; cases scope <;> decide
  | _ =>
      cases second with
      | license other => revert starts; cases other <;> decide
      | _ => revert starts; decide

/-- No two principals, scopes or kinds of gates share a window. -/
theorem key_injective : Function.Injective GateKey.text := by
  intro first second same
  have chars : first.kind.text.toList ++ first.principal.toList =
      second.kind.text.toList ++ second.principal.toList := by
    simpa only [GateKey.text, String.toList_append] using congrArg String.toList same
  have kind : first.kind = second.kind := by
    rcases List.append_eq_append_iff.mp chars with ⟨rest, longer, -⟩ | ⟨rest, longer, -⟩
    · exact kind_unambiguous ⟨rest, longer.symm⟩
    · exact (kind_unambiguous ⟨rest, longer.symm⟩).symm
  rw [kind, List.append_cancel_left_eq] at chars
  obtain ⟨kind', principal⟩ := first
  obtain ⟨other, second⟩ := second
  cases kind
  cases String.toList_injective chars
  rfl

namespace HttpRequest

variable (options : GateOptions) (http : HttpRequest)

def keys : List GateKey :=
  let ip := ⟨.ip, http.ip options⟩
  match http.route with
  | .health | .ready => []
  | .activate licenseKey deviceId =>
      [ip, ⟨.license .activate, hashPrincipal options [licenseKey, deviceId]⟩]
  | .heartbeat sessionToken _ => [ip, ⟨.license .heartbeat, hashPrincipal options [sessionToken]⟩]
  | .usage sessionToken _ _ => [ip, ⟨.license .usage, hashPrincipal options [sessionToken]⟩]
  | .deactivate sessionToken _ => [ip, ⟨.license .deactivate, hashPrincipal options [sessionToken]⟩]
  | .webhook _ => [ip]
  | .admin _ _ => [ip, ⟨.admin, http.ip options⟩]

def service : Option Request :=
  match http.route with
  | .health | .ready => none
  | .activate licenseKey deviceId => some (.activate licenseKey deviceId (http.ip options))
  | .heartbeat sessionToken deviceId => some (.heartbeat sessionToken deviceId (http.ip options))
  | .usage sessionToken deviceId input => some (.consume sessionToken deviceId (http.ip options) input)
  | .deactivate sessionToken deviceId => some (.deactivate sessionToken deviceId (http.ip options))
  | .webhook signed => signed.map .receive
  | .admin _ operation => some operation

def permitted : Prop :=
  match http.route with
  | .admin suppliedKey _ => authenticated options suppliedKey = true
  | _ => True

end HttpRequest

abbrev GateDeed := Deed GateAct GateAct.Val Failure

abbrev GateTrace := Trace GateAct GateAct.Val Failure

section Traces

variable (options : GateOptions)

def Passes (key : GateKey) (deed : GateDeed) : Prop :=
  ∃ result : RateLimitResult, deed = ⟨.consume key.text (key.kind.limit options), .ok result⟩ ∧
    result.allowed = true

def Passed (keys : List GateKey) (trace : GateTrace) : Prop :=
  List.Forall₂ (Passes options) keys trace

/-- What a request may do: its next gate, or its service once it has passed all. -/
def gateWarrant (http : HttpRequest) (trace : GateTrace) : GateAct → Prop
  | .consume text limit => ∃ before key after, http.keys options = before ++ key :: after ∧
      Passed options before trace ∧ text = key.text ∧ limit = key.kind.limit options
  | .handle request => Passed options (http.keys options) trace ∧ http.permitted options ∧
      request = http.service options

def GateAnswered (http : HttpRequest) : Except Failure HttpAnswer → GateTrace → Prop
  | .ok .handled, trace => ∃ passed, Passed options (http.keys options) passed ∧
      http.permitted options ∧ trace = passed ++ [⟨.handle (http.service options), .ok ()⟩]
  | .ok (.rateLimited retryAfterSeconds), trace => ∃ before key after passed,
      http.keys options = before ++ key :: after ∧ Passed options before passed ∧
        trace = passed ++ [⟨.consume key.text (key.kind.limit options), .ok ⟨false, retryAfterSeconds⟩⟩]
  | .ok .unauthorized, trace => Passed options (http.keys options) trace ∧ ¬http.permitted options
  | .ok .unsigned, trace => Passed options (http.keys options) trace ∧ http.route = .webhook none
  | .error _, _ => True

end Traces

section Programs

variable {options : GateOptions} {http : HttpRequest} {trace : GateTrace}

abbrev GateMeets (options : GateOptions) (http : HttpRequest) {α : Type} (prog : Gate α)
    (trace : GateTrace) (post : Except Failure α → GateTrace → Prop) : Prop :=
  prog.wp (gateWarrant options http) trace post

/-- A gate: the next one of the request, which lets the rest go on once it is passed. -/
theorem enforce_meets (before : List GateKey) (key : GateKey) {after : List GateKey} {rest : Gate HttpAnswer}
    (keys : http.keys options = before ++ key :: after) (passed : Passed options before trace)
    (through : ∀ next, Passed options (before ++ [key]) next →
      GateMeets options http rest next (GateAnswered options http)) :
    GateMeets options http
      (enforceRateLimit key.text (key.kind.limit options) >>= fun limited => unlessLimited limited rest)
      trace (GateAnswered options http) := by
  refine ⟨⟨before, key, after, keys, passed, rfl, rfl⟩, fun result => ?_⟩
  cases result with
  | error error => trivial
  | ok result =>
      obtain ⟨allowed, retryAfterSeconds⟩ := result
      cases allowed with
      | false => exact ⟨before, key, after, trace, keys, passed, rfl⟩
      | true => exact through _ (List.rel_append passed (.cons ⟨_, rfl, rfl⟩ .nil))

theorem handle_meets (passed : Passed options (http.keys options) trace)
    (permitted : http.permitted options) :
    GateMeets options http (handle (http.service options)) trace (GateAnswered options http) := by
  refine ⟨⟨passed, permitted, rfl⟩, fun result => ?_⟩
  cases result with
  | error error => trivial
  | ok value => exact ⟨trace, passed, permitted, rfl⟩

theorem passed_none : Passed options [] [] := .nil

theorem limited_meets {scope : RuntimeRateLimitScope} {parts : List String} {request : Request}
    (keys : http.keys options =
      [⟨.ip, http.ip options⟩, ⟨.license scope, hashPrincipal options parts⟩])
    (service : http.service options = some request) (permitted : http.permitted options)
    (passed : Passed options [⟨.ip, http.ip options⟩] trace) :
    GateMeets options http (limited options scope parts request) trace (GateAnswered options http) := by
  refine enforce_meets [_] ⟨.license scope, hashPrincipal options parts⟩ keys passed fun next both => ?_
  rw [← service]
  exact handle_meets (keys ▸ both) permitted

theorem admin_meets {suppliedKey : Option String} {operation : Request}
    (route : http.route = .admin suppliedKey operation)
    (passed : Passed options [⟨.ip, http.ip options⟩] trace) :
    GateMeets options http (adminRoute options (http.ip options) suppliedKey operation) trace
      (GateAnswered options http) := by
  have keys : http.keys options = [⟨.ip, http.ip options⟩, ⟨.admin, http.ip options⟩] := by
    simp only [HttpRequest.keys, route]
  have permitted : http.permitted options ↔ authenticated options suppliedKey = true := by
    simp only [HttpRequest.permitted, route]
  have service : http.service options = some operation := by simp only [HttpRequest.service, route]
  refine enforce_meets [_] ⟨.admin, http.ip options⟩ keys passed fun next both => ?_
  by_cases valid : authenticated options suppliedKey = true
  · rw [if_pos valid, ← service]
    exact handle_meets (keys ▸ both) (permitted.mpr valid)
  · rw [if_neg valid]
    exact ⟨keys ▸ both, fun held => valid (permitted.mp held)⟩

theorem route_meets (counted : http.keys options = ⟨.ip, http.ip options⟩ :: (http.keys options).tail)
    (passed : Passed options [⟨.ip, http.ip options⟩] trace) :
    GateMeets options http (routeHandler options http) trace (GateAnswered options http) := by
  obtain ⟨forwarded, route⟩ := http
  cases route with
  | health => exact absurd counted (by simp [HttpRequest.keys])
  | ready => exact absurd counted (by simp [HttpRequest.keys])
  | activate licenseKey deviceId => exact limited_meets rfl rfl trivial passed
  | heartbeat sessionToken deviceId => exact limited_meets rfl rfl trivial passed
  | usage sessionToken deviceId input => exact limited_meets rfl rfl trivial passed
  | deactivate sessionToken deviceId => exact limited_meets rfl rfl trivial passed
  | webhook signed =>
      cases signed with
      | none => exact ⟨passed, rfl⟩
      | some event => exact handle_meets passed trivial
  | admin suppliedKey operation => exact admin_meets rfl passed

theorem runtime_meets : GateMeets options http (serverRuntime options http) [] (GateAnswered options http) := by
  obtain ⟨forwarded, route⟩ := http
  cases route with
  | health => exact handle_meets passed_none trivial
  | ready => exact handle_meets passed_none trivial
  | _ => exact enforce_meets [] _ rfl passed_none fun next passed => route_meets rfl passed

end Programs

abbrev GateEvent := Event GateAct GateAct.Val Failure LimiterWorld

abbrev GateView := View GateAct GateAct.Val Failure LimiterWorld HttpRequest

def consumesFor (key : GateKey) : GateDeed → Bool
  | ⟨.consume text _, _⟩ => text = key.text
  | _ => false

def admitsFor (key : GateKey) : GateDeed → Bool
  | ⟨.consume text _, .ok result⟩ => text = key.text ∧ result.allowed
  | _ => false

def withinMinute (kind : GateDeed → Bool) (time : Int) (events : List GateEvent) : List GateEvent :=
  events.filter fun event =>
    kind event.deed ∧ time - 60000 < event.before.now ∧ (event.before.now : Int) ≤ time

section Windows

variable {kind : GateDeed → Bool} {time : Int} {events : List GateEvent} {event : GateEvent}

theorem minute_append : (withinMinute kind time (events ++ [event])).length =
    (withinMinute kind time events).length + (withinMinute kind time [event]).length := by
  rw [withinMinute, List.filter_append, List.length_append]
  rfl

theorem minute_other (other : kind event.deed = false) :
    (withinMinute kind time (events ++ [event])).length = (withinMinute kind time events).length := by
  rw [minute_append, Nat.add_eq_left, List.length_eq_zero_iff]
  exact List.filter_eq_nil_iff.mpr fun one listed => by
    rw [List.mem_singleton.mp listed]
    simp [other]

/-- One event of the kind weighs as much as one admission of the log at its time. -/
theorem minute_one (call : RateLimitCall) {result : RateLimitResult} (counts : kind event.deed = true)
    (allowed : result.allowed = true) (at_now : call.now = event.before.now) :
    (withinMinute kind time [event]).length = (admittedWithin [⟨call, result⟩] time).length := by
  by_cases inside : time - 60000 < (event.before.now : Int) ∧ (event.before.now : Int) ≤ time
  · simp [withinMinute, admittedWithin, counts, allowed, at_now, inside]
  · have outside : ¬(time - 60000 < (call.now : Int) ∧ (call.now : Int) ≤ time) := at_now ▸ inside
    simp only [withinMinute, admittedWithin, List.filter_cons, counts, allowed, inside, outside]
    rfl

end Windows

section Acts

variable (call : Nat) {key : String} {limit : Nat} {input : GateInput} {world next : LimiterWorld}

theorem consume_ran {result : Except Failure RateLimitResult}
    (ran : gateExec call (.consume key limit) input world = some (next, result)) :
    input.uuid ∉ (world.served key).map (fun one => one.call.uuid) ∧
      ((next = world ∧ ∃ error, result = .error error) ∨
        next = (world.consume key limit input.uuid).1 ∧
          ((∃ error, result = .error error) ∨
            result = .ok (world.consume key limit input.uuid).2)) := by
  simp only [gateExec] at ran
  split at ran
  · cases ran
  · next fresh =>
      refine ⟨fresh, ?_⟩
      cases fault : input.fault with
      | none =>
          rw [fault] at ran
          cases ran
          exact .inr ⟨rfl, .inr rfl⟩
      | some fault' =>
          rw [fault] at ran
          cases fault' with
          | refused =>
              cases ran
              exact .inl ⟨rfl, _, rfl⟩
          | lost =>
              cases ran
              exact .inr ⟨rfl, .inl ⟨_, rfl⟩⟩

theorem handle_ran {request : Option Request} {result : Except Failure Unit}
    (ran : gateExec call (.handle request) input world = some (next, result)) : next = world := by
  simp only [gateExec] at ran
  cases fault : input.fault <;> rw [fault] at ran <;> cases ran <;> rfl

theorem consume_other (input : GateInput) {other : String} (distinct : other ≠ key) :
    (world.consume key limit input.uuid).1.sets other = world.sets other ∧
      (world.consume key limit input.uuid).1.served other = world.served other :=
  ⟨Function.update_of_ne distinct _ _, Function.update_of_ne distinct _ _⟩

theorem consume_self :
    (world.consume key limit input.uuid).1.sets key =
        (serve limit (world.sets key, world.served key) ⟨world.now, input.uuid⟩).1 ∧
      (world.consume key limit input.uuid).1.served key =
        (serve limit (world.sets key, world.served key) ⟨world.now, input.uuid⟩).2 :=
  ⟨Function.update_self _ _ _, Function.update_self _ _ _⟩

theorem consume_served : (world.consume key limit input.uuid).1.served key =
    world.served key ++ [⟨⟨world.now, input.uuid⟩, (world.consume key limit input.uuid).2⟩] :=
  Function.update_self _ _ _

end Acts

/-- Redis and the acts so far agree about one key: what the server was told to be
admitted is in the log, and what is in the log was a run of the script for the key. -/
structure Counted (options : GateOptions) (key : GateKey) (view : GateView) : Prop where
  tracks : ∃ last ≤ view.world.now, Tracks (view.world.sets key.text) (view.world.served key.text) last
  within : WithinLimit (key.kind.limit options) (view.world.served key.text)
  admits : ∀ time, (withinMinute (admitsFor key) time view.history).length ≤
    (admittedWithin (view.world.served key.text) time).length
  consumes : ∀ time, (admittedWithin (view.world.served key.text) time).length ≤
    (withinMinute (consumesFor key) time view.history).length

section Invariant

variable {options : GateOptions} {key : GateKey} {view next : GateView}

theorem counted_start (now : Nat) :
    Counted options key (.start ⟨fun _ => none, fun _ => [], now⟩) where
  tracks := ⟨0, Nat.zero_le _, tracks_start⟩
  within := ⟨fun _ => Nat.zero_le _, fun _ _ _ split =>
    absurd split.symm (List.append_ne_nil_of_right_ne_nil _ (List.cons_ne_nil _ _))⟩
  admits _ := Nat.zero_le _
  consumes _ := Nat.zero_le _

theorem counted_still (counted : Counted options key view) {event : GateEvent} {world : LimiterWorld}
    (now : world.now = view.world.now) (sets : world.sets key.text = view.world.sets key.text)
    (served : world.served key.text = view.world.served key.text)
    (told : admitsFor key event.deed = false) :
    Counted options key ⟨world, view.requests, view.history ++ [event]⟩ where
  tracks := by
    rw [now, sets, served]
    exact counted.tracks
  within := by
    rw [served]
    exact counted.within
  admits time := by
    rw [served, minute_other told]
    exact counted.admits time
  consumes time := by
    rw [served, minute_append]
    exact (counted.consumes time).trans (Nat.le_add_right _ _)

theorem counted_consume (counted : Counted options key view) {event : GateEvent} {input : GateInput}
    (fresh : input.uuid ∉ (view.world.served key.text).map fun one => one.call.uuid)
    (before : event.before = view.world) (own : consumesFor key event.deed = true)
    (told : admitsFor key event.deed = true →
      (view.world.consume key.text (key.kind.limit options) input.uuid).2.allowed = true) :
    Counted options key ⟨(view.world.consume key.text (key.kind.limit options) input.uuid).1,
      view.requests, view.history ++ [event]⟩ := by
  obtain ⟨last, past, tracks⟩ := counted.tracks
  have same_time : event.before.now = view.world.now := by rw [before]
  refine ⟨⟨view.world.now, le_rfl, ?_⟩, ?_, fun time => ?_, fun time => ?_⟩
  · rw [consume_self.1, consume_self.2]
    exact (serve_tracks _ tracks past fresh).1
  · rw [consume_self.2]
    exact serve_within tracks past fresh counted.within
  · rw [consume_served, window_append, List.length_append]
    cases admitted : admitsFor key event.deed with
    | false =>
        rw [minute_other admitted]
        exact (counted.admits time).trans (Nat.le_add_right _ _)
    | true =>
        rw [minute_append, minute_one ⟨view.world.now, input.uuid⟩ admitted (told admitted) same_time.symm]
        exact Nat.add_le_add_right (counted.admits time) _
  · rw [consume_served, window_append, List.length_append, minute_append]
    refine Nat.add_le_add (counted.consumes time) ?_
    cases allowed : (view.world.consume key.text (key.kind.limit options) input.uuid).2.allowed with
    | false => simp [admittedWithin, allowed]
    | true => rw [minute_one ⟨view.world.now, input.uuid⟩ own allowed same_time.symm]

theorem counted_step (counted : Counted options key view)
    (step : Allowed (gates options) (gateWarrant options) view next) : Counted options key next := by
  cases step with
  | start call http unused idle => exact ⟨counted.tracks, counted.within, counted.admits, counted.consumes⟩
  | environment tick =>
      obtain ⟨last, past, tracks⟩ := counted.tracks
      exact ⟨⟨last, past.trans (Nat.le_add_right _ _), tracks⟩, counted.within, counted.admits,
        counted.consumes⟩
  | act call http act input world result asked held ran =>
      cases act with
      | handle request =>
          cases handle_ran call ran
          exact counted_still counted rfl rfl rfl rfl
      | consume text limit =>
          obtain ⟨before, other, after, -, -, rfl, rfl⟩ := held
          obtain ⟨fresh, ⟨rfl, error, rfl⟩ | ⟨rfl, told⟩⟩ := consume_ran call ran
          · exact counted_still counted rfl rfl rfl rfl
          · by_cases same : other = key
            · subst same
              refine counted_consume counted fresh rfl (decide_eq_true rfl) fun admitted => ?_
              rcases told with ⟨error, rfl⟩ | rfl
              · cases admitted
              · exact (of_decide_eq_true admitted).2
            · have distinct : key.text ≠ other.text := fun equal => same (key_injective equal.symm)
              obtain ⟨sets, served⟩ := consume_other input distinct
              refine counted_still counted rfl sets served ?_
              rcases told with ⟨error, rfl⟩ | rfl
              · rfl
              · exact decide_eq_false fun both => distinct both.1.symm

end Invariant

section Runs

variable {options : GateOptions} {now : Nat}
  {state : State GateAct GateAct.Val Failure LimiterWorld HttpRequest HttpAnswer}

abbrev GateRun (options : GateOptions) (now : Nat) :
    State GateAct GateAct.Val Failure LimiterWorld HttpRequest HttpAnswer → Prop :=
  Run (gates options) ⟨fun _ => none, fun _ => [], now⟩

theorem gate_run_allowed (run : GateRun options now state) :
    AllowedRun (gates options) (gateWarrant options) (.start ⟨fun _ => none, fun _ => [], now⟩)
      state.view :=
  (run_allowed (fun _ => runtime_meets) run).1

theorem allowed_counted {view : GateView} (key : GateKey)
    (run : AllowedRun (gates options) (gateWarrant options)
      (.start ⟨fun _ => none, fun _ => [], now⟩) view) : Counted options key view :=
  allowed_invariant (fun _ _ => counted_step) run (counted_start now)

/-- A request is let through when the minute before it has room, and only then. -/
theorem room_decides {view : GateView} {key : GateKey} (call : Nat) {input : GateInput}
    {world : LimiterWorld} {result : RateLimitResult} (counted : Counted options key view)
    (ran : gateExec call (.consume key.text (key.kind.limit options)) input view.world =
      some (world, .ok result)) :
    result.allowed = true ↔
      (admittedWithin (view.world.served key.text) view.world.now).length < key.kind.limit options := by
  obtain ⟨fresh, ⟨-, error, refused⟩ | ⟨-, ⟨error, lost⟩ | told⟩⟩ := consume_ran call ran
  · cases refused
  · cases lost
  · obtain ⟨last, past, tracks⟩ := counted.tracks
    cases told
    obtain ⟨-, result, appended, admitted⟩ :=
      @serve_tracks _ _ ⟨view.world.now, input.uuid⟩ (key.kind.limit options) last tracks past fresh
    have same := List.append_cancel_left (consume_served.symm.trans (consume_self.2.trans appended))
    obtain ⟨rfl⟩ := (Served.mk.inj (List.singleton_inj.mp same)).2
    rw [admitted, within_eq_after fun one listed => (tracks.past one listed).trans past]

/-- In every run no minute admits more requests under a key than its limit; whether one
is admitted is decided by the requests of the same key alone; what is handed on has
passed the gates of its route in order, an operator's with a key; and every answer
says what became of the request. -/
theorem gates_hold (run : GateRun options now state) :
    (∀ key time, (withinMinute (admitsFor key) time state.view.history).length ≤
      key.kind.limit options) ∧
    (∀ key before event after result, state.view.history = before ++ event :: after →
      event.deed = ⟨.consume key.text (key.kind.limit options), .ok result⟩ →
        if result.allowed then
          (withinMinute (admitsFor key) event.before.now before).length < key.kind.limit options
        else key.kind.limit options ≤
          (withinMinute (consumesFor key) event.before.now before).length) ∧
    (∀ before event after request, state.view.history = before ++ event :: after →
      event.act = .handle request → ∃ http, state.view.requests event.call = some http ∧
        Passed options (http.keys options)
          ((before.filter fun other => other.call = event.call).map Event.deed) ∧
        http.permitted options ∧ request = http.service options) ∧
    ∀ call http result, state.view.requests call = some http →
      state.pool call = some (.done result) → GateAnswered options http result (state.view.trace call) := by
  have allowed := gate_run_allowed run
  refine ⟨fun key time => ?_, fun key before event after result history deed => ?_,
    fun before event after request history act => ?_, fun call http result asked ended => ?_⟩
  · have counted := allowed_counted key allowed
    calc
      _ ≤ (admittedWithin (state.view.world.served key.text) time).length := counted.admits time
      _ ≤ _ := counted.within.bounded time
  · obtain ⟨earlier, http, input, sofar, rfl, same, -, -, ran, -⟩ := allowed_event allowed rfl history
    obtain ⟨call, act, outcome, world, next⟩ := event
    cases same
    cases deed
    have counted := allowed_counted key sofar
    have decides := room_decides call counted ran
    split
    · next admitted =>
        calc
          _ ≤ (admittedWithin (earlier.world.served key.text) earlier.world.now).length :=
            counted.admits _
          _ < _ := decides.mp admitted
    · next refused =>
        calc
          _ ≤ (admittedWithin (earlier.world.served key.text) earlier.world.now).length :=
            not_lt.mp fun room => refused (decides.mpr room)
          _ ≤ _ := counted.consumes _
  · obtain ⟨http, asked, held⟩ := run_event (fun _ => runtime_meets) run history
    rw [act] at held
    exact ⟨http, asked, held⟩
  · obtain ⟨other, asked', meets⟩ := (run_allowed (fun _ => runtime_meets) run).2.2 call _ ended
    cases asked.symm.trans asked'
    exact meets

end Runs

def gateSampleOptions : GateOptions where
  net := sampleNet
  clientIpOptions := ⟨false, [], .any⟩
  ipRequestsPerMinute := 1
  licenseRequestsPerMinute := 10
  adminRequestsPerMinute := 10
  adminApiKeys := ["operator"]
  sha256 := id

def gateSampleRequest : HttpRequest :=
  ⟨⟨some "203.0.113.7", none, none, none⟩, .activate "key" "laptop"⟩

def gateSample : Option (State GateAct GateAct.Val Failure LimiterWorld HttpRequest HttpAnswer) :=
  play (gates gateSampleOptions)
    [.start 0 gateSampleRequest, .act 0 ⟨"a", none⟩, .act 0 ⟨"b", none⟩, .act 0 ⟨"c", none⟩,
      .environment ⟨1000⟩, .start 1 gateSampleRequest, .act 1 ⟨"d", none⟩]
    (.start ⟨fun _ => none, fun _ => [], 5⟩)

def gateSampleState (state : State GateAct GateAct.Val Failure LimiterWorld HttpRequest HttpAnswer) : Bool :=
  match state.view.requests 1, state.pool 1 with
  | some _, some (.done (.ok (.rateLimited seconds))) => seconds = 59
  | _, _ => false

theorem gates_hold_sample : ∃ state http, GateRun gateSampleOptions 5 state ∧
    state.view.requests 1 = some http ∧ state.pool 1 = some (.done (.ok (.rateLimited 59))) ∧
      GateAnswered gateSampleOptions http (.ok (.rateLimited 59)) (state.view.trace 1) := by
  have played : gateSample.any gateSampleState = true := by decide +kernel
  obtain ⟨state, reached, holds⟩ := (Option.any_eq_true _ _).mp played
  have run : GateRun gateSampleOptions 5 state := play_run .start reached
  unfold gateSampleState at holds
  split at holds
  · next http seconds asked ended =>
      rw [of_decide_eq_true holds] at ended
      exact ⟨state, http, run, asked, ended, (gates_hold run).2.2.2 1 http _ asked ended⟩
  · cases holds

end Keyzori
