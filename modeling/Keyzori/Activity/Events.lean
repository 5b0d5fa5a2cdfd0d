import Keyzori.Domain.Entities

namespace Keyzori

abbrev JsonObject := List (String × Json)

inductive ActivityEventType
  | customerCreated
  | customerUpdated
  | customerDeleted
  | licenseCreated
  | licenseUpdated
  | licenseTypeChanged
  | licenseDeleted
  | licenseRevoked
  | licenseRestored
  | licenseKeyRotated
  | licenseActivationAttempted
  | licenseActivationSucceeded
  | licenseActivationRejected
  | licenseHeartbeat
  | licenseDeactivated
  | meterCreated
  | meterArchived
  | meterAdjusted
  | usageConsumed
  | usageRejected
  | stripeLinked
  | stripeUnlinked
  | stripeSynchronized
  | stripeWebhookFailed
  deriving DecidableEq, Repr

inductive ActivitySource
  | operator
  | client
  | stripe
  | system
  deriving DecidableEq, Repr

inductive ActivityOutcome
  | success
  | rejected
  | error
  deriving DecidableEq, Repr

structure ActivityEvent where
  id : String
  type : ActivityEventType
  source : ActivitySource
  outcome : ActivityOutcome
  reason : Option String
  licenseId : Option String
  customerId : Option String
  keyPrefix : Option String
  ip : Option String
  deviceId : Option String
  details : JsonObject
  createdAt : Instant

/-- An event before it is recorded. A field that is absent or null is `none`. -/
structure NewActivityEvent where
  type : ActivityEventType
  source : ActivitySource
  outcome : Option ActivityOutcome := none
  reason : Option String := none
  licenseId : Option String := none
  customerId : Option String := none
  keyPrefix : Option String := none
  ip : Option String := none
  deviceId : Option String := none
  details : Option JsonObject := none
  createdAt : Option Instant := none

def NewActivityEvent.recorded (input : NewActivityEvent) (id : String) (now : Instant) : ActivityEvent where
  id := id
  type := input.type
  source := input.source
  outcome := input.outcome.getD .success
  reason := input.reason
  licenseId := input.licenseId
  customerId := input.customerId
  keyPrefix := input.keyPrefix
  ip := input.ip
  deviceId := input.deviceId
  details := input.details.getD []
  createdAt := input.createdAt.getD now

end Keyzori
