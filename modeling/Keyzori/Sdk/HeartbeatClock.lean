import Keyzori.Sdk.ClientRuns
import Keyzori.Sdk.Wire

/-! The delays of a license client, and the client with a clock. A stretch of
code between two awaits takes no time; a timer fires when it is due or later.
Times are what `Date.now()` returns. -/

namespace Keyzori.Sdk

def minThrottledRetryMs : Int := 1000

/-- The configured delays and retries, and what `Date.parse` makes of a text,
nothing for `NaN`. -/
structure HeartbeatConfig where
  requestedHeartbeatIntervalMs : Int
  requestTimeoutMs : Int
  maxRetries : Nat
  parseDate : String → Option Int

structure HeartbeatConfig.Valid (config : HeartbeatConfig) : Prop where
  interval : 1 ≤ config.requestedHeartbeatIntervalMs ∧ config.requestedHeartbeatIntervalMs ≤ maxTimerMs
  timeout : 1 ≤ config.requestTimeoutMs ∧ config.requestTimeoutMs ≤ maxTimerMs
  retries : 1 ≤ config.maxRetries

variable (config : HeartbeatConfig)

def renewalSafetyMs (sessionTtlSeconds : Int) : Int :=
  min 1000 (max 1 (sessionTtlSeconds * 1000 / 10))

def clampHeartbeatInterval (sessionTtlSeconds : Int) : Int :=
  let sessionTtlMs := sessionTtlSeconds * 1000
  let twoThirdsMaximumMs := max 1 (sessionTtlMs * 2 / 3)
  let fullRetryBudgetMs := config.requestTimeoutMs * 2 + renewalSafetyMs sessionTtlSeconds
  let retryAwareMaximumMs := max 1
    (if sessionTtlMs > fullRetryBudgetMs then sessionTtlMs - fullRetryBudgetMs else sessionTtlMs / 3)
  min (min config.requestedHeartbeatIntervalMs twoThirdsMaximumMs) retryAwareMaximumMs

def retryAfterMs (heartbeatIntervalMs now : Int) (header : Option String) : Int :=
  let value := trim (header.getD "")
  let bounded (delay : Int) := min maxTimerMs (max minThrottledRetryMs delay)
  let seconds := if value.toList.all Char.isDigit then some (Nat.ofDigitChars 10 value.toList 0) else none
  if value = "" then max minThrottledRetryMs heartbeatIntervalMs
  else match seconds.filter fun seconds => (seconds : Int) ≤ maxSafeInteger with
    | some seconds => bounded (seconds * 1000)
    | none => match config.parseDate value with
      | some date => bounded (date - now)
      | none => max minThrottledRetryMs heartbeatIntervalMs

def clampRetryBeforeSessionExpiry (sessionExpiresAtMs : Option Int) (now desiredDelayMs : Int) : Int :=
  match sessionExpiresAtMs with
  | none => desiredDelayMs
  | some sessionExpiresAtMs =>
      let remainingMs := sessionExpiresAtMs - now
      let requestSafetyMs := min (max 0 (remainingMs - 1)) (config.requestTimeoutMs + 1000)
      let latestSafeDelayMs := max 1 (remainingMs - requestSafetyMs)
      min desiredDelayMs latestSafeDelayMs

structure SessionAnswer extends ActivateResponse where
  sessionTtlSeconds : Int
  lifetime : 1 ≤ sessionTtlSeconds ∧ sessionTtlSeconds ≤ maxSessionTtlSeconds

inductive TimedReply
  | ok (session : Option SessionAnswer)
  | rejection (status : Nat) (code : Option String) (retryAfter : Option String)
  | failed

/-- What a client does to its server, and how it is answered: a heartbeat at a
time, a throttling with the time from which another is wanted, and any other answer. -/
inductive Beat
  | sent (at' : Int)
  | throttled (earliest : Int)
  | failed
  | renewed
  deriving DecidableEq, Repr

/-- The client, its fields that are times, and what the runtime knows of its
requests and timers by their ids. -/
structure TimedClient where
  client : LicenseClient := {}
  now : Int := 0
  heartbeatIntervalMs : Int
  sessionExpiresAtMs : Option Int := none
  requestStartedAtMs : Nat → Int := fun _ => 0
  due : Nat → Int := fun _ => 0
  beats : List Beat := []

namespace TimedClient

def start : TimedClient := { heartbeatIntervalMs := config.requestedHeartbeatIntervalMs }

variable (timed : TimedClient)

/-- The delay of a throttled heartbeat before and after the session is looked at. -/
def throttledDelays (retryAfter : Option String) : Int × Int :=
  let requestedDelayMs := retryAfterMs config timed.heartbeatIntervalMs timed.now retryAfter
  (requestedDelayMs,
    clampRetryBeforeSessionExpiry config timed.sessionExpiresAtMs timed.now requestedDelayMs)

def untimed : TimedReply → Reply
  | .ok session => .ok (session.map SessionAnswer.toActivateResponse)
  | .rejection status code retryAfter =>
      let (requestedDelayMs, nextDelayMs) := timed.throttledDelays config retryAfter
      .rejection status code (decide (nextDelayMs < requestedDelayMs))
  | .failed => .failed

def scheduledDelay (reply : TimedReply) : Int :=
  match reply with
  | .ok (some session) => clampHeartbeatInterval config session.sessionTtlSeconds
  | .rejection status _ retryAfter =>
      if status = 429 then (timed.throttledDelays config retryAfter).2
      else if 400 ≤ status ∧ status < 500 then timed.heartbeatIntervalMs
      else clampRetryBeforeSessionExpiry config timed.sessionExpiresAtMs timed.now timed.heartbeatIntervalMs
  | _ => clampRetryBeforeSessionExpiry config timed.sessionExpiresAtMs timed.now timed.heartbeatIntervalMs

/-- The client after a stretch of code: what it sent started now, and what it
scheduled is due after the delay. A deactivated client forgets its session. -/
def moved (delay : Int) (next : LicenseClient) : TimedClient :=
  { timed with
    client := next
    sessionExpiresAtMs := if next.state = .deactivated then none else timed.sessionExpiresAtMs
    requestStartedAtMs := fun id =>
      if timed.client.inFlight id then timed.requestStartedAtMs id else timed.now
    due := fun id => if id ∈ timed.client.timers then timed.due id else timed.now + delay }

def opened (id : Nat) (session : SessionAnswer) : TimedClient :=
  { timed with
    heartbeatIntervalMs := clampHeartbeatInterval config session.sessionTtlSeconds
    sessionExpiresAtMs := some (timed.requestStartedAtMs id + session.sessionTtlSeconds * 1000) }

def beat : TimedReply → Beat
  | .ok (some _) => .renewed
  | .rejection status _ retryAfter =>
      if status = 429 then .throttled (timed.now + (timed.throttledDelays config retryAfter).1) else .failed
  | _ => .failed

/-- What a reply to a request sets before the client schedules. -/
def answered (id : Nat) (request : Request) (reply : TimedReply) : TimedClient :=
  match request, reply with
  | .activate, .ok (some session) | .heartbeat _, .ok (some session) => timed.opened config id session
  | _, _ => timed

def beatsAfter (request : Request) (reply : TimedReply) : List Beat :=
  match request, reply with
  | .heartbeat _, reply => timed.beats ++ [timed.beat config reply]
  | .activate, .ok (some _) => timed.beats ++ [.renewed]
  | _, _ => timed.beats

end TimedClient

def ClientStep.plain : ClientStep → Bool
  | .timer _ | .reply .. => false
  | _ => true

inductive TimedStep
  | tick (elapsed : Nat)
  | timer (id : Nat)
  | reply (id : Nat) (reply : TimedReply) (react : LicenseEvent → List Call)
  | plain (taken : ClientStep)

def LicenseClient.requestOf (client : LicenseClient) (id : Nat) : Option Request :=
  (client.pending.find? fun entry => entry.1 = id).map Prod.snd

def LicenseClient.beating (client : LicenseClient) : Bool :=
  client.state = .active && client.sessionToken.isSome

def timedStep (timed : TimedClient) : TimedStep → Option TimedClient
  | .tick elapsed => some { timed with now := timed.now + elapsed }
  | .timer id =>
      if timed.now < timed.due id then none
      else (step config.maxRetries timed.client (.timer id)).map fun next =>
        { timed.moved 0 next with
          beats := if timed.client.beating then timed.beats ++ [.sent timed.now] else timed.beats }
  | .reply id reply react => do
      let request ← timed.client.requestOf id
      let next ← step config.maxRetries timed.client (.reply id (timed.untimed config reply) react)
      some { (timed.answered config id request reply).moved (timed.scheduledDelay config reply) next with
        beats := timed.beatsAfter config request reply }
  | .plain taken =>
      if taken.plain then (step config.maxRetries timed.client taken).map (timed.moved 0) else none

inductive TimedReachable : TimedClient → Prop
  | start : TimedReachable (TimedClient.start config)
  | step {timed next : TimedClient} (taken : TimedStep) :
      TimedReachable timed → timedStep config timed taken = some next → TimedReachable next

end Keyzori.Sdk
