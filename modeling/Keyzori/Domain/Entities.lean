import Keyzori.Domain.Values

/-! Licenses, their Stripe links and the effective status. A `Date` of a JSON
column is the instant its text parses to, and metadata stays an unread text. -/

namespace Keyzori

/-- `LicenseTypeDrafts`; a draft that is absent is `none`, or `false` for the
empty object of a lifetime license. -/
structure LicenseTypeDrafts where
  lifetime : Bool := false
  subscription : Option (Option Instant) := none
  metered : Option (List String) := none
  trial : Option Int := none
  deriving DecidableEq

structure LicenseColumns where
  id : LicenseId
  keyPrefix : String
  customerId : String
  type : LicenseType
  maxIps : Int
  maxDevices : Int
  maxSessions : Int
  sessionRevision : Nat
  trialDurationMinutes : Int
  trialStartedAt : Option Instant
  metadata : String
  expiresAt : Option Instant
  typeDrafts : LicenseTypeDrafts
  manualRevokedAt : Option Instant
  manualRevocationReason : Option String
  createdAt : Instant
  updatedAt : Instant
  deriving DecidableEq

structure StoredLicense extends LicenseColumns where
  keyHash : String
  deriving DecidableEq

structure License extends LicenseColumns where
  billingRevokedAt : Option Instant
  deriving DecidableEq

structure LicenseWithAllowlists extends License where
  allowedIps : List String
  allowedDevices : List String
  deriving DecidableEq

structure RegisteredDevice where
  id : String
  licenseId : LicenseId
  ip : String
  deviceId : String
  createdAt : Instant
  lastSeenAt : Instant
  deriving DecidableEq

structure SessionBinding where
  ip : String
  deviceId : String
  deriving DecidableEq

structure StripeSubscriptionSnapshot where
  subscriptionId : String
  stripeCustomerId : String
  status : String
  paidThrough : Option Instant
  cancelAtPeriodEnd : Bool
  priceIds : List String
  billingBlocked : Bool
  deriving DecidableEq

structure StripeSubscriptionLink where
  id : String
  licenseId : LicenseId
  subscriptionId : String
  stripeCustomerId : String
  status : String
  paidThrough : Option Instant
  cancelAtPeriodEnd : Bool
  priceId : Option String
  billingRevokedAt : Option Instant
  lastSyncedAt : Option Instant
  lastError : Option String
  createdAt : Instant
  updatedAt : Instant
  deriving DecidableEq

inductive Json
  | null
  | boolean (value : Bool)
  | number (text : String)
  | string (value : String)
  | array (items : List Json)
  | object (fields : List (String × Json))

inductive StripeWebhookStatus
  | pending
  | processing
  | processed
  | failed
  deriving DecidableEq, Repr

structure StripeWebhookEvent where
  eventId : String
  type : String
  objectId : Option String
  status : StripeWebhookStatus
  attempts : Nat
  nextAttemptAt : Instant
  payload : Json
  lastError : Option String
  receivedAt : Instant
  processedAt : Option Instant

inductive LicenseStatus
  | active
  | expired
  | revoked
  deriving DecidableEq, Repr

inductive LicenseStatusReason
  | manualRevocation
  | billingRevocation
  | subscriptionExpired
  | trialExpired
  deriving DecidableEq, Repr

structure EffectiveLicenseStatus where
  status : LicenseStatus
  reason : Option LicenseStatusReason
  deriving DecidableEq, Repr

def toDomainLicense (row : StoredLicense) (billingRevokedAt : Option Instant) : License :=
  ⟨row.toLicenseColumns, billingRevokedAt⟩

def trialDeadline (trialStartedAt : Instant) (trialDurationMinutes : Int) : Instant :=
  trialStartedAt + trialDurationMinutes * 60000

def deriveLicenseStatus (license : License) (now : Instant) : EffectiveLicenseStatus :=
  if license.manualRevokedAt.isSome then ⟨.revoked, some .manualRevocation⟩
  else if license.billingRevokedAt.isSome then ⟨.revoked, some .billingRevocation⟩
  else if license.type = .subscription ∧ license.expiresAt.all (fun expiresAt => expiresAt ≤ now) then
    ⟨.expired, some .subscriptionExpired⟩
  else if license.type = .trial ∧ license.trialStartedAt.any (fun started =>
      now ≥ trialDeadline started license.trialDurationMinutes) then
    ⟨.expired, some .trialExpired⟩
  else ⟨.active, none⟩

theorem deriveLicenseStatus_manual {license : License} (revoked : license.manualRevokedAt.isSome)
    (now : Instant) : deriveLicenseStatus license now = ⟨.revoked, some .manualRevocation⟩ :=
  if_pos revoked

theorem deriveLicenseStatus_billing {license : License} (restored : license.manualRevokedAt = none)
    (blocked : license.billingRevokedAt.isSome) (now : Instant) :
    deriveLicenseStatus license now = ⟨.revoked, some .billingRevocation⟩ := by
  rw [deriveLicenseStatus, if_neg (by simp [restored]), if_pos blocked]

namespace Json

/-- `objectValue`, and a field of it. Of two fields of one name the last counts. -/
def field (name : String) : Json → Option Json
  | object fields => (fields.reverse.find? fun entry => entry.1 = name).map Prod.snd
  | _ => none

def expandableId : Json → Option String
  | string id => some id
  | value => match value.field "id" with
    | some (string id) => some id
    | _ => none

end Json

/-- `subscriptionIdFromStripeEvent`. An array is an object of JavaScript too,
but it has none of the fields that are asked for. -/
def subscriptionIdFromStripeEvent (event : Json) : Option String := do
  let data ← event.field "data"
  let eventObject ← data.field "object"
  match eventObject.field "object" with
  | some (.string "subscription") => eventObject.expandableId
  | some (.string "invoice") =>
      let parent := (eventObject.field "parent").bind fun parent =>
        (parent.field "subscription_details").bind fun details =>
          (details.field "subscription").bind Json.expandableId
      parent.or ((eventObject.field "subscription").bind Json.expandableId)
  | _ => none

end Keyzori
