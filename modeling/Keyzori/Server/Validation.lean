import Keyzori.Server.LicenseService
import Keyzori.Domain.JsonText

namespace Keyzori

/-- `t.String` and `t.Integer` with their bounds. -/
inductive Property
  | string (minLength maxLength : Nat)
  | integer (minimum maximum : Int)
  deriving DecidableEq, Repr

def Property.accepts : Property → Json → Bool
  | string minLength maxLength, .string value => minLength ≤ length value && length value ≤ maxLength
  | integer minimum maximum, .number text =>
      text.toInt?.any fun value => minimum ≤ value && value ≤ maximum
  | _, _ => false

abbrev ObjectSchema := List (String × Property)

def ObjectSchema.accepts (schema : ObjectSchema) (body : Json) : Bool :=
  match body with
  | .object fields =>
      (schema.all fun property => (body.field property.1).any property.2.accepts) &&
        fields.all fun entry => schema.any fun property => property.1 = entry.1
  | _ => false

def deviceIdSchema : Property := .string 1 128

def sessionTokenSchema : Property := .string 32 512

def meterNameSchema : Property := .string 1 128

def eventIdSchema : Property := .string 1 128

def activateInputSchema : ObjectSchema :=
  [("licenseKey", .string 1 128), ("deviceId", deviceIdSchema)]

def sessionInputSchema : ObjectSchema :=
  [("sessionToken", sessionTokenSchema), ("deviceId", deviceIdSchema)]

def usageInputSchema : ObjectSchema :=
  [("sessionToken", sessionTokenSchema), ("deviceId", deviceIdSchema), ("meter", meterNameSchema),
    ("units", .integer 1 maxLicenseLimit), ("eventId", eventIdSchema)]

namespace Json

def text (body : Json) (name : String) : Option String :=
  match body.field name with
  | some (.string value) => some value
  | _ => none

def numeral (body : Json) (name : String) : Option Number :=
  match body.field name with
  | some (.number text) => some (text.toInt?.elim .other .integer)
  | _ => none

end Json

structure ActivateBody where
  licenseKey : String
  deviceId : String

structure SessionBody where
  sessionToken : String
  deviceId : String

structure UsageBody extends SessionBody where
  input : ConsumeUsageInput

/-- What the handler of `/v1/activate` gets; `none` is answered as invalid. -/
def activateBody (body : Json) : Option ActivateBody := do
  guard (activateInputSchema.accepts body)
  return ⟨← body.text "licenseKey", ← body.text "deviceId"⟩

def sessionBody (body : Json) : Option SessionBody := do
  guard (sessionInputSchema.accepts body)
  return ⟨← body.text "sessionToken", ← body.text "deviceId"⟩

def usageBody (body : Json) : Option UsageBody := do
  guard (usageInputSchema.accepts body)
  return ⟨⟨← body.text "sessionToken", ← body.text "deviceId"⟩,
    ⟨← body.text "meter", ← body.numeral "units", ← body.text "eventId"⟩⟩

def LicenseType.text : LicenseType → String
  | .lifetime => "lifetime"
  | .subscription => "subscription"
  | .metered => "metered"
  | .trial => "trial"

/-- The answer of a session, where `metadata` is what the stored text stands for. -/
def LicenseSessionResult.body (result : LicenseSessionResult) (metadata : List (String × Json)) : Json :=
  .object [("success", .boolean true), ("licenseType", .string result.licenseType.text),
    ("metadata", .object metadata), ("sessionToken", .string result.sessionToken),
    ("sessionTtlSeconds", .number (toString result.sessionTtlSeconds))]

def ConsumeUsageResult.body (result : ConsumeUsageResult) : Json :=
  .object [("success", .boolean true), ("meter", .string result.meter),
    ("units", .number (toString result.units)), ("eventId", .string result.eventId),
    ("remaining", .number (toString result.remaining))]

def successBody : Json := .object [("success", .boolean true)]

end Keyzori
