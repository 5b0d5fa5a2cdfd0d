import Keyzori.Domain.Values

/-! The license client of the SDK as a state machine. A step runs one stretch of
code between two awaits, with the calls that listeners make of the client while
it emits. Continuations of promises are steps of their own and may come late.
What the delays of timers are does not matter here, since a timer may fire at
any time. -/

namespace Keyzori.Sdk

inductive ClientState
  | idle
  | activating
  | active
  | deactivating
  | deactivated
  deriving DecidableEq, Repr

inductive LicenseEvent
  | ready
  | heartbeatSuccess
  | heartbeatFailed
  | heartbeatThrottled
  | licenseRevoked
  | licenseExpired
  | sessionExpired
  | licenseRejected
  | networkOffline
  deriving DecidableEq, Repr

inductive Request
  | activate
  | heartbeat (sessionToken : String)
  | usage (sessionToken : String)
  | deactivate (sessionToken : String)
  deriving DecidableEq, Repr

structure ActivationResult where
  licenseType : LicenseType
  metadata : String
  deriving DecidableEq, Repr

/-- What `readSessionResponse` returns; it refuses shorter tokens. -/
structure ActivateResponse extends ActivationResult where
  sessionToken : String
  long : 32 ≤ length sessionToken

/-- What became of a request. An `ok` without a session is any other body;
`failed` is a network failure. Whether a throttled heartbeat is brought forward
before the session expires depends on the clock. -/
inductive Reply
  | ok (session : Option ActivateResponse)
  | rejection (status : Nat) (code : Option String) (expiryProtectionUsed : Bool)
  | failed

inductive Entry
  | sent (id : Nat) (request : Request)
  | settled (id : Nat)
  | session (sessionToken : String)
  | emitted (event : LicenseEvent)
  | activationFailed (id : Nat)
  | moved (old new : ClientState)
  deriving DecidableEq, Repr

/-- A call of the client; `valid` tells whether the input of a usage is. -/
inductive Call
  | activate
  | consume (valid : Bool)
  | deactivate
  deriving DecidableEq, Repr

/-- Where `deactivateOnce` is: at one of its awaits, or done. -/
inductive Deactivation
  | activation (request : Option Nat)
  | heartbeat (request : Option Nat)
  | usage (requests : List Nat)
  | request (id : Nat)
  | done
  deriving DecidableEq, Repr

/-- The fields of the client, then what the runtime keeps for it: live timers,
requests in flight, rejected activations whose handler has not run, and the
queued microtask of a fatal error. Promises and timers share one supply of ids. -/
structure LicenseClient where
  state : ClientState := .idle
  heartbeatTimer : Option Nat := none
  heartbeatRequest : Option Nat := none
  activation : Option Nat := none
  deactivation : Option Deactivation := none
  activationResult : Option ActivationResult := none
  sessionToken : Option String := none
  usageRequests : List Nat := []
  failureStrikes : Nat := 0
  throttleRetries : Nat := 0
  expiryProtectedThrottleRetryUsed : Bool := false
  fatalCleanupScheduled : Bool := false
  timers : List Nat := []
  pending : List (Nat × Request) := []
  rejected : List Nat := []
  fatalQueued : Bool := false
  next : Nat := 0
  log : List Entry := []

namespace LicenseClient

def record (client : LicenseClient) (entry : Entry) : LicenseClient :=
  { client with log := client.log ++ [entry] }

def setState (client : LicenseClient) (state : ClientState) : LicenseClient :=
  { client.record (.moved client.state state) with state }

def send (client : LicenseClient) (request : Request) : LicenseClient :=
  { client.record (.sent client.next request) with
    pending := client.pending ++ [(client.next, request)]
    next := client.next + 1 }

def settle (client : LicenseClient) (id : Nat) : LicenseClient :=
  { client.record (.settled id) with
    pending := client.pending.filter fun entry => entry.1 ≠ id }

def activate (client : LicenseClient) : LicenseClient :=
  if client.state = .deactivating ∨ client.state = .deactivated then client
  else if client.state = .active ∧ client.activationResult.isSome then client
  else if client.activation.isSome then client
  else { (client.setState .activating).send .activate with activation := some client.next }

def consume (client : LicenseClient) (valid : Bool) : LicenseClient :=
  match client.sessionToken with
  | none => client
  | some sessionToken =>
      if client.state ≠ .active ∨ valid = false then client
      else { client.send (.usage sessionToken) with
        usageRequests := client.usageRequests ++ [client.next] }

def clearHeartbeatTimer (client : LicenseClient) : LicenseClient :=
  match client.heartbeatTimer with
  | none => client
  | some timer => { client with
      timers := client.timers.filter fun live => live ≠ timer
      heartbeatTimer := none }

def deactivate (client : LicenseClient) : LicenseClient :=
  if client.deactivation.isSome then client
  else { (client.setState .deactivating).clearHeartbeatTimer with
    deactivation := some (.activation client.activation) }

def call (client : LicenseClient) : Call → LicenseClient
  | .activate => client.activate
  | .consume valid => client.consume valid
  | .deactivate => client.deactivate

/-- Listeners run while the client emits; `react` gives the calls they make. -/
def emit (react : LicenseEvent → List Call) (client : LicenseClient) (event : LicenseEvent) :
    LicenseClient :=
  (react event).foldl call (client.record (.emitted event))

def scheduleHeartbeat (client : LicenseClient) : LicenseClient :=
  if client.state ≠ .active then client
  else { client with
    timers := client.timers ++ [client.next]
    heartbeatTimer := some client.next
    next := client.next + 1 }

def rejectionEvent (code : Option String) : LicenseEvent :=
  if code = some "LICENSE_EXPIRED" then .licenseExpired
  else if code = some "LICENSE_REVOKED" then .licenseRevoked
  else if code = some "SESSION_INVALID_OR_EXPIRED" then .sessionExpired
  else .licenseRejected

def isFatalSessionRejection (code : Option String) : Bool :=
  code ∈ [some "LICENSE_INVALID", some "LICENSE_REVOKED", some "LICENSE_EXPIRED",
    some "IP_NOT_ALLOWED", some "DEVICE_NOT_ALLOWED", some "SESSION_INVALID_OR_EXPIRED"]

def handleFatalError (client : LicenseClient) : LicenseClient :=
  if client.fatalCleanupScheduled then client
  else { client with
    fatalCleanupScheduled := true
    fatalQueued := true }

def storeSession (client : LicenseClient) (response : ActivateResponse) : LicenseClient :=
  { client.record (.session response.sessionToken) with
    sessionToken := some response.sessionToken
    activationResult := some response.toActivationResult }

def rejectActivation (client : LicenseClient) (id : Nat) : LicenseClient :=
  let client := client.record (.activationFailed id)
  { (if client.state = .activating then client.setState .idle else client) with
    rejected := id :: client.rejected }

variable (react : LicenseEvent → List Call) (maxRetries : Nat)

def activationReply (client : LicenseClient) (id : Nat) (reply : Reply) : LicenseClient :=
  let client := client.settle id
  match reply with
  | .ok (some response) =>
      let client := client.storeSession response
      if client.state ≠ .activating then client.rejectActivation id
      else ((client.setState .active).emit react .ready).scheduleHeartbeat
  | .rejection _ code _ => (client.emit react (rejectionEvent code)).rejectActivation id
  | _ => client.rejectActivation id

def recordHeartbeatFailure (client : LicenseClient) : LicenseClient :=
  if client.state ≠ .active then client
  else
    let client := emit react { client with failureStrikes := client.failureStrikes + 1 } .heartbeatFailed
    if client.failureStrikes ≥ maxRetries then (client.emit react .networkOffline).handleFatalError
    else client

def throttle (client : LicenseClient) (expiryProtectionUsed : Bool) : LicenseClient :=
  let client := { client with throttleRetries := client.throttleRetries + 1 }
  if client.throttleRetries > maxRetries ∨
      (expiryProtectionUsed ∧ client.expiryProtectedThrottleRetryUsed) then
    (client.emit react .networkOffline).handleFatalError
  else emit react { client with expiryProtectedThrottleRetryUsed :=
    client.expiryProtectedThrottleRetryUsed || expiryProtectionUsed } .heartbeatThrottled

def heartbeatOutcome (client : LicenseClient) (reply : Reply) : LicenseClient :=
  match reply with
  | .ok (some response) =>
      let client := { client.storeSession response with
        failureStrikes := 0
        throttleRetries := 0
        expiryProtectedThrottleRetryUsed := false }
      if client.state = .active then client.emit react .heartbeatSuccess else client
  | .rejection status code expiryProtectionUsed =>
      if status = 429 then client.throttle react maxRetries expiryProtectionUsed
      else if 400 ≤ status ∧ status < 500 then
        (client.emit react (rejectionEvent code)).handleFatalError
      else client.recordHeartbeatFailure react maxRetries
  | _ => client.recordHeartbeatFailure react maxRetries

def heartbeatReply (client : LicenseClient) (id : Nat) (reply : Reply) : LicenseClient :=
  let client := (client.settle id).heartbeatOutcome react maxRetries reply
  if client.fatalCleanupScheduled then client else client.scheduleHeartbeat

def usageReply (client : LicenseClient) (id : Nat) (reply : Reply) : LicenseClient :=
  let client := client.settle id
  match reply with
  | .rejection _ code _ =>
      let client := client.emit react (rejectionEvent code)
      if isFatalSessionRejection code then client.handleFatalError else client
  | _ => client

def finish (client : LicenseClient) : LicenseClient :=
  { client.setState .deactivated with
    sessionToken := none
    deactivation := some .done }

def runHeartbeat (client : LicenseClient) (timer : Nat) : LicenseClient :=
  let client := { client with timers := client.timers.filter fun live => live ≠ timer }
  match client.sessionToken with
  | none => { client with
      heartbeatRequest := some client.next
      next := client.next + 1 }
  | some sessionToken =>
      if client.state ≠ .active then { client with
        heartbeatRequest := some client.next
        next := client.next + 1 }
      else { client.send (.heartbeat sessionToken) with heartbeatRequest := some client.next }

def inFlight (client : LicenseClient) (id : Nat) : Bool := client.pending.any fun entry => entry.1 = id

def proceed (client : LicenseClient) : Option LicenseClient :=
  match client.deactivation with
  | some (.activation request) =>
      if request.any client.inFlight then none
      else some { client with deactivation := some (.heartbeat client.heartbeatRequest) }
  | some (.heartbeat request) =>
      if request.any client.inFlight then none
      else some { client with deactivation := some (.usage client.usageRequests) }
  | some (.usage requests) =>
      if requests.any client.inFlight then none
      else match client.sessionToken with
        | none => some client.finish
        | some sessionToken => some { client.send (.deactivate sessionToken) with
            deactivation := some (.request client.next) }
  | _ => none

end LicenseClient

inductive ClientStep
  | call (call : Call)
  | timer (id : Nat)
  | reply (id : Nat) (reply : Reply) (react : LicenseEvent → List Call)
  | catchActivation (id : Nat)
  | finallyHeartbeat (id : Nat)
  | finallyUsage (id : Nat)
  | fatalCleanup
  | proceed

open LicenseClient in
def step (maxRetries : Nat) (client : LicenseClient) : ClientStep → Option LicenseClient
  | .call call => some (client.call call)
  | .timer id => if id ∈ client.timers then some (client.runHeartbeat id) else none
  | .reply id reply react => match client.pending.find? fun entry => entry.1 = id with
      | some (_, .activate) => some (client.activationReply react id reply)
      | some (_, .heartbeat _) => some (client.heartbeatReply react maxRetries id reply)
      | some (_, .usage _) => some (client.usageReply react id reply)
      | some (_, .deactivate _) => some (client.settle id).finish
      | none => none
  | .catchActivation id =>
      if id ∉ client.rejected then none
      else some { client with
        rejected := client.rejected.erase id
        activation := if client.activation = some id ∧ client.state = .idle then none
          else client.activation }
  | .finallyHeartbeat id =>
      if client.inFlight id then none
      else some { client with heartbeatRequest :=
        if client.heartbeatRequest = some id then none else client.heartbeatRequest }
  | .finallyUsage id =>
      if client.inFlight id then none
      else some { client with usageRequests := client.usageRequests.filter fun request => request ≠ id }
  | .fatalCleanup =>
      if client.fatalQueued then some ({ client with fatalQueued := false } : LicenseClient).deactivate
      else none
  | .proceed => client.proceed

inductive Reachable (maxRetries : Nat) : LicenseClient → Prop
  | start : Reachable maxRetries {}
  | step {client next : LicenseClient} (taken : ClientStep) :
      Reachable maxRetries client → step maxRetries client taken = some next →
        Reachable maxRetries next

end Keyzori.Sdk
