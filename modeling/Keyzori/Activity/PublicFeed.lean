import Keyzori.Activity.Events
import Keyzori.Domain.Scrubbing

namespace Keyzori

/-- A key without underscores and in lower case. No character outside ASCII has a lower
case that occurs in the names it is compared with. -/
def normalizedKey (key : String) : List Char := (key.toList.filter fun char => char != '_').map Char.toLower

def addressKey (key : String) : Bool :=
  normalizedKey key == "ip".toList || normalizedKey key == "deviceid".toList || normalizedKey key == "hwid".toList

def publicDetailValue (value : Json) : Json := value.scrub addressKey id

structure PublicActivity where
  id : String
  type : ActivityEventType
  source : ActivitySource
  outcome : ActivityOutcome
  reason : Option String
  licenseId : Option String
  customerId : Option String
  keyPrefix : Option String
  details : Json
  createdAt : Instant

def publicActivity (event : ActivityEvent) : PublicActivity where
  id := event.id
  type := event.type
  source := event.source
  outcome := event.outcome
  reason := event.reason
  licenseId := event.licenseId
  customerId := event.customerId
  keyPrefix := event.keyPrefix
  details := publicDetailValue (.object event.details)
  createdAt := event.createdAt

/-- The same but for addresses and devices: in their own fields, and under their keys at
any depth of the details. -/
structure SameButAddresses (event other : ActivityEvent) : Prop where
  rest : other = { event with ip := other.ip, deviceId := other.deviceId, details := other.details }
  details : Json.SameShown addressKey (.object event.details) (.object other.details)

theorem publicActivity_same {event other : ActivityEvent} (same : SameButAddresses event other) :
    publicActivity event = publicActivity other := by
  rw [same.rest]
  simp only [publicActivity, publicDetailValue, Json.scrub_blind same.details]

/-- The feed does not depend on addresses and devices, and shows all the rest as it is. -/
theorem publicActivity_blind {event other : ActivityEvent} (same : SameButAddresses event other) :
    publicActivity event = publicActivity other ∧
      (∃ details, publicActivity event =
        ⟨event.id, event.type, event.source, event.outcome, event.reason, event.licenseId, event.customerId,
          event.keyPrefix, details, event.createdAt⟩) ∧
      ∀ path, ((publicActivity event).details.reach path).map Json.surface =
        if path.any (Json.Step.under addressKey) then none
        else ((Json.object event.details).reach path).map fun part => part.surface.scrub addressKey id :=
  ⟨publicActivity_same same, ⟨_, rfl⟩, fun path => Json.reach_scrub path (.object event.details)⟩

def allowlistChange (address : String) : ActivityEvent :=
  ⟨"event", .licenseUpdated, .operator, .success, none, some "license", none, none, some address, none,
    [("action", .string "ip_allowlist"),
     ("entries", .array [.object [("_IP", .string address), ("kept", .boolean true)]])],
    90000⟩

theorem publicActivity_blind_sample :
    publicActivity (allowlistChange "192.0.2.1") = publicActivity (allowlistChange "192.0.2.2") ∧
      (∃ details, publicActivity (allowlistChange "192.0.2.1") =
        ⟨"event", .licenseUpdated, .operator, .success, none, some "license", none, none, details, 90000⟩) ∧
      ∀ path, ((publicActivity (allowlistChange "192.0.2.1")).details.reach path).map Json.surface =
        if path.any (Json.Step.under addressKey) then none
        else ((Json.object (allowlistChange "192.0.2.1").details).reach path).map fun part =>
          part.surface.scrub addressKey id :=
  publicActivity_blind ⟨rfl, .object (.shown _ (.refl _) (.shown _ (.array (.cons (.object
    (.hidden _ _ (by decide) (.shown _ (.refl _) .nil))) .nil)) .nil))⟩

end Keyzori
