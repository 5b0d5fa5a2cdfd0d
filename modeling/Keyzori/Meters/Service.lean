import Keyzori.Meters.Repository

namespace Keyzori

open LockedTransactions

structure CreateMeterInput where
  name : String
  balance : Number
  reason : String

/-- The map callback of `validateMeters`, given the names already seen. -/
def validateMetersFrom : List String → List CreateMeterInput →
    Except DomainError (List NewLicenseMeter)
  | _, [] => .ok []
  | names, meter :: meters => do
      let name ← meterName meter.name
      if name ∈ names then .error (conflictError s!"Duplicate meter {name}")
      else do
        let balance ← validateInteger meter.balance "meter balance"
        let reason ← reason meter.reason
        let others ← validateMetersFrom (name :: names) meters
        return ⟨name, balance, reason⟩ :: others

def validateMeters (meters : List CreateMeterInput) : Except DomainError (List NewLicenseMeter) :=
  validateMetersFrom [] meters

structure ConsumeUsageInput where
  meter : String
  units : Number
  eventId : String

structure UsageRequest where
  meter : String
  units : Int
  eventId : String
  deriving DecidableEq, Repr

/-- `validateUsageInput` on the `normalizedInput` of `LicenseService.consume`. -/
def validateUsageInput (input : ConsumeUsageInput) : Except DomainError UsageRequest :=
  let meter := trim input.meter
  let eventId := trim input.eventId
  if meter = "" ∨ length meter > 128 then
    .error ⟨"meter must contain between 1 and 128 characters", 400, .invalidRequest⟩
  else match input.units with
    | .integer units =>
        if units < 1 ∨ units > maxLicenseLimit then
          .error ⟨s!"units must be a positive integer no greater than {maxLicenseLimit}", 400,
            .invalidRequest⟩
        else if eventId = "" ∨ length eventId > 128 then
          .error ⟨"eventId must contain between 1 and 128 characters", 400, .invalidRequest⟩
        else .ok ⟨meter, units, eventId⟩
    | .other =>
        .error ⟨s!"units must be a positive integer no greater than {maxLicenseLimit}", 400,
          .invalidRequest⟩

structure ConsumeUsageResult where
  meter : String
  units : Int
  eventId : String
  remaining : Int
  deriving DecidableEq, Repr

def consumeResponse (input : UsageRequest) :
    UsageConsumptionResult → Except DomainError ConsumeUsageResult
  | .conflict => .error ⟨"eventId was already used with a different usage request", 409,
      .usageEventConflict⟩
  | .notFound => .error ⟨"Meter not found", 404, .meterNotFound⟩
  | .archived => .error ⟨"Meter is archived", 409, .meterArchived⟩
  | .exhausted => .error ⟨"Meter balance is exhausted", 403, .meterExhausted⟩
  | .consumed meter _ => .ok ⟨meter.name, input.units, input.eventId, meter.balance⟩
  | .replayed meter _ => .ok ⟨meter.name, input.units, input.eventId, meter.balance⟩

/-- `adjustLicenseMeter`'s own check of `delta`. -/
def validateDelta (delta : Number) : Except DomainError Int :=
  match delta with
  | .integer delta =>
      if delta = 0 ∨ delta.natAbs > maxLicenseLimit then
        .error ⟨s!"delta must be a non-zero integer between -{maxLicenseLimit} and {maxLicenseLimit}",
          400, .invalidRequest⟩
      else .ok delta
  | .other =>
      .error ⟨s!"delta must be a non-zero integer between -{maxLicenseLimit} and {maxLicenseLimit}",
        400, .invalidRequest⟩

/-- The calls that write meters or the ledger of one license. `listed` is what
the service read before the update, `licenseType` what the archive transaction
reads of the license row; both may be any value. A `consume` is a call whose
session was found valid for a metered license: the others open no transaction. -/
inductive MeterRequest
  | createLicense (id : LicenseId) (meters : List CreateMeterInput) (draw : Draw)
  | updateLicense (id : LicenseId) (meters : List CreateMeterInput)
      (listed : List LicenseMeter) (draw : Draw)
  | createLicenseMeter (id : LicenseId) (data : CreateMeterInput) (draw : Draw)
  | archiveLicenseMeter (id : LicenseId) (name reason : String)
      (licenseType : Option LicenseType) (draw : Draw)
  | topUpLicenseMeter (id : LicenseId) (name : String) (units : Number) (reason : String)
      (draw : Draw)
  | adjustLicenseMeter (id : LicenseId) (name : String) (delta : Number) (reason : String)
      (draw : Draw)
  | consume (id : LicenseId) (input : ConsumeUsageInput) (draw : Draw)

inductive MeterResponse
  | done
  | meter (meter : Option LicenseMeter)
  | adjustment (result : MeterAdjustmentResult)
  | consumption (result : UsageConsumptionResult)

namespace MeterRequest

def license : MeterRequest → LicenseId
  | createLicense id _ _ => id
  | updateLicense id _ _ _ => id
  | createLicenseMeter id _ _ => id
  | archiveLicenseMeter id _ _ _ _ => id
  | topUpLicenseMeter id _ _ _ _ => id
  | adjustLicenseMeter id _ _ _ _ => id
  | consume id _ _ => id

end MeterRequest

def prepare (hashUsageEventId : String → String) :
    MeterRequest → Except DomainError (MeterScript MeterResponse)
  | .createLicense id meters draw => do
      let meters ← validateMeters meters
      return do
        createLicenseMeters id meters draw
        return .done
  | .updateLicense id meters listed draw => do
      let newMeters ← validateMeters meters
      let metersToCreate := newMeters.filter fun meter =>
        !listed.any fun existing => existing.name = meter.name
      return do
        insertNewMeters id metersToCreate draw
        return .done
  | .createLicenseMeter id data draw => do
      match ← validateMeters [data] with
      | [] => throw ⟨"Meter is required", 400, .invalidRequest⟩
      | meter :: _ => return do
          let created ← createMeter id meter.name meter.balance meter.reason draw
          return .meter (some created)
  | .archiveLicenseMeter id name reasonText licenseType draw => do
      let name ← meterName name
      let reason ← reason reasonText
      return do
        let archived ← archiveMeter id name reason licenseType draw
        return .meter archived
  | .topUpLicenseMeter id name units reasonText draw => do
      let units ← validateInteger units "units" 1
      let reason ← reason reasonText
      let name ← meterName name
      return do
        let result ← adjustMeter id name units reason .topUp draw
        return .adjustment result
  | .adjustLicenseMeter id name delta reasonText draw => do
      let delta ← validateDelta delta
      let reason ← reason reasonText
      let name ← meterName name
      return do
        let result ← adjustMeter id name delta reason .adjustment draw
        return .adjustment result
  | .consume id input draw => do
      let request ← validateUsageInput input
      return do
        let result ← consumeMeter id request.meter request.units
          (hashUsageEventId request.eventId) draw
        return .consumption result

def meterService (hashUsageEventId : String → String) :
    Service LicenseId MeterRequest MeterRegion Failure MeterResponse where
  key := MeterRequest.license
  body request := match prepare hashUsageEventId request with
    | .ok transaction => transaction
    | .error error => .rollback (.domain error)

end Keyzori
