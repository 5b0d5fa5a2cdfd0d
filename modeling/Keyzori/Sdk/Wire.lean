import Keyzori.Sdk.LicenseClient
import Keyzori.Server.Validation

/-! What the SDK puts on the wire and what it takes from it. A body is the value
whose `JSON.stringify` text travels. The digest and the identity of the host are
parameters. -/

namespace Keyzori.Sdk

def maxResponseBodyBytes : Nat := 262144

def maxSessionTtlSeconds : Int := 86400

def maxTimerMs : Int := 2147483647

def maxLicenseKeyLength : Nat := 128

def maxSessionTokenLength : Nat := 512

def maxMeterNameLength : Nat := 128

def maxEventIdLength : Nat := 128

def maxSafeInteger : Int := 9007199254740991

def safeInteger : Number → Option Int
  | .integer value => if value.natAbs ≤ maxSafeInteger then some value else none
  | .other => none

/-- The fields that reach the wire, and the three delays. -/
structure LicenseClientConfig where
  licenseKey : String
  deviceId : Option String := none
  heartbeatIntervalMs : Option Number := none
  maxRetries : Option Number := none
  requestTimeoutMs : Option Number := none

def assertTimer (name : String) (value : Option Number) : Except String Unit :=
  if value.all fun value => (safeInteger value).any fun value => 1 ≤ value && value ≤ maxTimerMs then .ok ()
  else .error s!"{name} must be a positive safe integer no greater than {maxTimerMs}"

def assertConfig (config : LicenseClientConfig) : Except String Unit := do
  if length (trim config.licenseKey) < 1 ∨ length (trim config.licenseKey) > maxLicenseKeyLength then
    throw "licenseKey must contain between 1 and 128 characters"
  if config.deviceId.any fun device => length (trim device) < 1 || length (trim device) > 1024 then
    throw "deviceId must contain between 1 and 1024 trimmed characters"
  assertTimer "heartbeatIntervalMs" config.heartbeatIntervalMs
  assertTimer "maxRetries" config.maxRetries
  assertTimer "requestTimeoutMs" config.requestTimeoutMs

def getDeviceId (sha256 : String → String) (hostIdentity : String) (config : LicenseClientConfig) : String :=
  match config.deviceId with
  | some configured => sha256 (trim configured)
  | none => sha256 hostIdentity

def sendActivate (licenseKey deviceId : String) : Json :=
  .object [("licenseKey", .string licenseKey), ("deviceId", .string deviceId)]

def sendSession (sessionToken deviceId : String) : Json :=
  .object [("sessionToken", .string sessionToken), ("deviceId", .string deviceId)]

def sendUsage (sessionToken deviceId : String) (input : UsageRequest) : Json :=
  .object [("sessionToken", .string sessionToken), ("deviceId", .string deviceId),
    ("meter", .string input.meter), ("units", .number (toString input.units)),
    ("eventId", .string input.eventId)]

def normalizeConsumeInput (input : ConsumeUsageInput) : Except String UsageRequest := do
  let meter := trim input.meter
  if length meter < 1 ∨ length meter > maxMeterNameLength then
    throw "meter must contain between 1 and 128 characters"
  match safeInteger input.units with
  | none => throw s!"units must be a positive safe integer no greater than {maxLicenseLimit}"
  | some units =>
      if units < 1 ∨ units > maxLicenseLimit then
        throw s!"units must be a positive safe integer no greater than {maxLicenseLimit}"
      let eventId := trim input.eventId
      if length eventId < 1 ∨ length eventId > maxEventIdLength then
        throw "eventId must contain between 1 and 128 characters"
      return ⟨meter, units, eventId⟩

/-- A success response with the pieces that its body arrives in. -/
structure Response where
  payload : Json
  contentLength : Option Nat
  chunks : List Nat
  declared : ∀ bytes ∈ contentLength, bytes = payload.byteLength
  whole : chunks.sum = payload.byteLength

def readChunks (length : Nat) : List Nat → Except String Unit
  | [] => .ok ()
  | bytes :: chunks =>
      if length + bytes > maxResponseBodyBytes then
        .error "License server response exceeded the safety limit"
      else readChunks (length + bytes) chunks

def readJson (response : Response) : Except String Json := do
  if response.contentLength.any fun declared => declared > maxResponseBodyBytes then
    throw "License server response exceeded the safety limit"
  readChunks 0 response.chunks
  return response.payload

def licenseTypeOf : Option Json → Option LicenseType
  | some (.string text) =>
      [LicenseType.lifetime, .subscription, .metered, .trial].find? fun type => type.text = text
  | _ => none

def isRecord : Option Json → Option (List (String × Json))
  | some (.object fields) => some fields
  | _ => none

def successful (payload : Json) : Bool :=
  match payload.field "success" with
  | some (.boolean true) => true
  | _ => false

def boundedText (payload : Json) (name : String) (minimum maximum : Nat) : Option String :=
  (payload.text name).filter fun text => minimum ≤ length text && length text ≤ maximum

def boundedInteger (payload : Json) (name : String) (minimum maximum : Int) : Option Int :=
  ((payload.numeral name).bind safeInteger).filter fun value => minimum ≤ value && value ≤ maximum

structure SessionResponse extends ActivationResult where
  sessionToken : String
  sessionTtlSeconds : Int
  deriving DecidableEq

def readSessionResponse (response : Response) (requestName : String) : Except String SessionResponse := do
  let payload ← readJson response
  let read : Option SessionResponse := do
    guard (successful payload)
    let licenseType ← licenseTypeOf (payload.field "licenseType")
    let metadata ← isRecord (payload.field "metadata")
    let sessionToken ← boundedText payload "sessionToken" 32 maxSessionTokenLength
    let sessionTtlSeconds ← boundedInteger payload "sessionTtlSeconds" 1 maxSessionTtlSeconds
    return ⟨⟨licenseType, (Json.object metadata).stringify⟩, sessionToken, sessionTtlSeconds⟩
  match read with
  | some session => return session
  | none => throw s!"License server returned an invalid {requestName} response"

def readUsageResponse (response : Response) : Except String ConsumeUsageResult := do
  let payload ← readJson response
  let read : Option ConsumeUsageResult := do
    guard (successful payload)
    let meter ← boundedText payload "meter" 1 maxMeterNameLength
    let units ← boundedInteger payload "units" 1 maxLicenseLimit
    let eventId ← boundedText payload "eventId" 1 maxEventIdLength
    let remaining ← boundedInteger payload "remaining" 0 maxLicenseLimit
    return ⟨meter, units, eventId, remaining⟩
  match read with
  | some usage => return usage
  | none => throw "License server returned an invalid usage response"

def readDeactivateResponse (response : Response) : Except String Unit := do
  let payload ← readJson response
  if successful payload then return ()
  else throw "License server returned an invalid deactivation response"

def consumeOnce (input : UsageRequest) (response : Response) : Except String ConsumeUsageResult := do
  let payload ← readUsageResponse response
  if payload.meter ≠ input.meter ∨ payload.units ≠ input.units ∨ payload.eventId ≠ input.eventId then
    throw "License server returned a mismatched usage response"
  return payload

end Keyzori.Sdk
