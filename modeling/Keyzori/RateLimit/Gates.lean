import Keyzori.ClientIp.Resolver
import Keyzori.RateLimit.SlidingWindow
import Keyzori.Server.System

namespace Keyzori

open Interleaving

inductive RuntimeRateLimitScope
  | activate
  | heartbeat
  | usage
  | deactivate
  deriving DecidableEq, Repr

def RuntimeRateLimitScope.text : RuntimeRateLimitScope → String
  | activate => "activate"
  | heartbeat => "heartbeat"
  | usage => "usage"
  | deactivate => "deactivate"

/-- The routes, with what their handlers read of a request whose body is valid. -/
inductive Route
  | health
  | ready
  | activate (licenseKey deviceId : String)
  | heartbeat (sessionToken deviceId : String)
  | usage (sessionToken deviceId : String) (input : ConsumeUsageInput)
  | deactivate (sessionToken deviceId : String)
  /-- With its signature, if it has one, already checked by the gateway. -/
  | webhook (signed : Option (Except Failure StripeEvent))
  | admin (suppliedKey : Option String) (operation : Request)

structure HttpRequest where
  forwarded : ForwardedRequest
  route : Route

/-- The settings of the gates. `sha256` stands for the digests of node:crypto and Bun. -/
structure GateOptions where
  net : Net
  clientIpOptions : ClientIpOptions
  ipRequestsPerMinute : Nat
  licenseRequestsPerMinute : Nat
  adminRequestsPerMinute : Nat
  adminApiKeys : List String
  sha256 : String → String

inductive HttpAnswer
  | handled
  | rateLimited (retryAfterSeconds : Int)
  | unauthorized
  | unsigned
  deriving DecidableEq, Repr

/-- An act of the HTTP layer: a run of the script in Redis, or the handler of a route.
The probes hand nothing on. -/
inductive GateAct : Type 1
  | consume (key : String) (limit : Nat)
  | handle (request : Option Request)

abbrev GateAct.Val : GateAct → Type
  | consume _ _ => RateLimitResult
  | handle _ => Unit

abbrev Gate (α : Type) := Prog GateAct GateAct.Val Failure α

def consumeWindow (key : String) (limit : Nat) : Gate RateLimitResult := Prog.call (GateAct.consume key limit)

def handle (request : Option Request) : Gate HttpAnswer := do
  let _ : Unit ← Prog.call (GateAct.handle request)
  return .handled

def enforceRateLimit (key : String) (limit : Nat) : Gate (Option HttpAnswer) := do
  let result ← consumeWindow key limit
  return if result.allowed then none else some (.rateLimited result.retryAfterSeconds)

def unlessLimited (limited : Option HttpAnswer) (rest : Gate HttpAnswer) : Gate HttpAnswer :=
  match limited with
  | some answer => pure answer
  | none => rest

section Programs

variable (options : GateOptions)

def HttpRequest.ip (http : HttpRequest) : String :=
  ClientIpResolver.resolve options.net options.clientIpOptions http.forwarded

def hashPrincipal (parts : List String) : String :=
  options.sha256 (String.intercalate "\x00" parts)

def rateLimiter (http : HttpRequest) : Gate (Option HttpAnswer) :=
  match http.route with
  | .ready => pure none
  | _ => enforceRateLimit ("ratelimit:ip:" ++ http.ip options) options.ipRequestsPerMinute

def limitPrincipal (scope : RuntimeRateLimitScope) (principal : String) : Gate (Option HttpAnswer) :=
  enforceRateLimit ("ratelimit:license:" ++ scope.text ++ ":" ++ principal)
    options.licenseRequestsPerMinute

/-- `createAdminAuthMiddleware`: all digests are compared. -/
def authenticated (suppliedKey : Option String) : Bool :=
  match suppliedKey.filter (fun supplied => supplied ≠ "") with
  | none => false
  | some supplied => options.adminApiKeys.foldl (fun authenticated expected =>
      options.sha256 expected = options.sha256 supplied || authenticated) false

def limited (scope : RuntimeRateLimitScope) (parts : List String) (request : Request) :
    Gate HttpAnswer := do
  unlessLimited (← limitPrincipal options scope (hashPrincipal options parts)) (handle (some request))

def adminRoute (ip : String) (suppliedKey : Option String) (operation : Request) : Gate HttpAnswer := do
  unlessLimited (← enforceRateLimit ("ratelimit:admin:" ++ ip) options.adminRequestsPerMinute)
    (if authenticated options suppliedKey then handle (some operation) else pure .unauthorized)

def routeHandler (http : HttpRequest) : Gate HttpAnswer :=
  match http.route with
  | .health | .ready => handle none
  | .activate licenseKey deviceId =>
      limited options .activate [licenseKey, deviceId] (.activate licenseKey deviceId (http.ip options))
  | .heartbeat sessionToken deviceId =>
      limited options .heartbeat [sessionToken] (.heartbeat sessionToken deviceId (http.ip options))
  | .usage sessionToken deviceId input =>
      limited options .usage [sessionToken] (.consume sessionToken deviceId (http.ip options) input)
  | .deactivate sessionToken deviceId =>
      limited options .deactivate [sessionToken] (.deactivate sessionToken deviceId (http.ip options))
  | .webhook (some event) => handle (some (.receive event))
  | .webhook none => pure .unsigned
  | .admin suppliedKey operation => adminRoute options (http.ip options) suppliedKey operation

/-- `createServerRuntime`: `/health` was added before the hook, the other routes after it. -/
def serverRuntime (http : HttpRequest) : Gate HttpAnswer :=
  match http.route with
  | .health => routeHandler options http
  | _ => do unlessLimited (← rateLimiter options http) (routeHandler options http)

end Programs

structure LimiterWorld where
  sets : String → Option SortedSet
  served : String → List Served
  now : Nat

/-- What an act draws from outside. Redis may fail before the script or lose its answer. -/
inductive RedisFault
  | refused
  | lost
  deriving DecidableEq, Repr

structure GateInput where
  uuid : String
  fault : Option RedisFault

def LimiterWorld.consume (world : LimiterWorld) (key : String) (limit : Nat) (uuid : String) :
    LimiterWorld × RateLimitResult :=
  let call : RateLimitCall := ⟨world.now, uuid⟩
  let next := serve limit (world.sets key, world.served key) call
  ({ world with
     sets := Function.update world.sets key next.1
     served := Function.update world.served key next.2 },
   (consumeLimit limit (world.sets key) call).2)

/-- `Date.now()` is read when the script is sent, and one connection keeps the order. -/
def gateExec : Nat → (act : GateAct) → GateInput → LimiterWorld →
    Option (LimiterWorld × Except Failure act.Val)
  | _, .consume key limit, input, world =>
      -- `crypto.randomUUID` never repeats a value.
      if input.uuid ∈ (world.served key).map (fun one => one.call.uuid) then none
      else match input.fault with
        | some .refused => some (world, .error (.internal "redis"))
        | some .lost => some ((world.consume key limit input.uuid).1, .error (.internal "redis"))
        | none => some ((world.consume key limit input.uuid).1,
            .ok (world.consume key limit input.uuid).2)
  | _, .handle _, input, world => match input.fault with
      | some _ => some (world, .error (.internal "handler"))
      | none => some (world, .ok ())

structure Tick where
  milliseconds : Nat

def gates (options : GateOptions) :
    System GateAct GateAct.Val Failure LimiterWorld GateInput Tick HttpRequest HttpAnswer where
  exec := gateExec
  environment tick world := { world with now := world.now + tick.milliseconds }
  program := serverRuntime options

end Keyzori
