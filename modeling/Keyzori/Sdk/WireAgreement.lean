import Keyzori.Library.HexDigits
import Keyzori.Sdk.Wire
import Keyzori.Meters.Balances
import Mathlib

namespace Keyzori.Sdk

open HexDigits LockedTransactions

def IsDigest (text : String) : Prop :=
  text.toList.length = 64 ∧ ∀ char ∈ text.toList, (lowerDigit char).isSome

def IsUuid (text : String) : Prop :=
  text.toList.length = 36 ∧ ∀ char ∈ text.toList, (lowerDigit char).isSome ∨ char = '-'

section Texts

theorem length_narrow {value : String} (narrow : ∀ char ∈ value.toList, char.toNat < 0x10000) :
    length value = value.toList.length := by
  have units : (value.toList.map fun char => if char.toNat < 0x10000 then 1 else 2) =
      List.replicate value.toList.length 1 := by
    refine List.eq_replicate_iff.mpr ⟨List.length_map _, fun unit member => ?_⟩
    obtain ⟨char, listed, rfl⟩ := List.mem_map.mp member
    exact if_pos (narrow char listed)
  rw [length, units, List.sum_replicate]
  simp

theorem length_pos {value : String} : length value < 1 ↔ value = "" := by
  constructor
  · intro short
    rw [length] at short
    cases chars : value.toList with
    | nil => exact String.toList_eq_nil_iff.mp chars
    | cons char rest =>
        rw [chars, List.map_cons, List.sum_cons] at short
        split at short <;> omega
  · rintro rfl
    decide

theorem trim_self {value : String} (solid : ∀ char ∈ value.toList, isWhiteSpace char = false) :
    trim value = value := by
  have drops : ∀ chars : List Char, (∀ char ∈ chars, isWhiteSpace char = false) →
      chars.dropWhile isWhiteSpace = chars := by
    intro chars solid
    cases chars with
    | nil => rfl
    | cons char rest => simp [solid char (.head _)]
  rw [trim, drops _ solid, drops _ (by simpa using solid), List.reverse_reverse, String.ofList_toList]

theorem trim_trim (value : String) : trim (trim value) = trim value := by
  have front : ∀ chars : List Char, (∀ some : 0 < chars.length, ¬isWhiteSpace chars[0] = true) →
      (chars.rdropWhile isWhiteSpace).dropWhile isWhiteSpace = chars.rdropWhile isWhiteSpace := by
    intro chars first
    refine List.dropWhile_eq_self_iff.mpr fun some => ?_
    have kept : chars.rdropWhile isWhiteSpace <+: chars :=
      List.rdropWhile_prefix isWhiteSpace chars
    rw [kept.getElem some]
    exact first (Nat.lt_of_lt_of_le some kept.length_le)
  have whole : ∀ chars : List Char, ((chars.dropWhile isWhiteSpace).reverse.dropWhile isWhiteSpace).reverse =
      (chars.dropWhile isWhiteSpace).rdropWhile isWhiteSpace := fun chars => rfl
  rw [trim, trim, String.toList_ofList, whole, whole, front, List.rdropWhile_idempotent]
  intro some
  exact List.dropWhile_eq_self_iff.mp (List.dropWhile_idempotent _ _) some

theorem digest_solid {text : String} (digest : IsDigest text) :
    trim text = text ∧ length text = 64 := by
  have range : ∀ char ∈ text.toList, (48 ≤ char.toNat ∧ char.toNat ≤ 57) ∨ (97 ≤ char.toNat ∧ char.toNat ≤ 102) :=
    fun char member => lowerDigit_range (digest.2 char member)
  constructor
  · refine trim_self fun char member => ?_
    have := range char member
    simp only [isWhiteSpace, Bool.or_eq_false_iff, Bool.and_eq_false_iff, decide_eq_false_iff_not,
      beq_eq_false_iff_ne]
    omega
  · rw [length_narrow fun char member => by have := range char member; omega]
    exact digest.1

theorem uuid_plain {text : String} (uuid : IsUuid text) :
    length text = 36 ∧ (Json.quote text).utf8ByteSize = 38 := by
  have range : ∀ char ∈ text.toList, (48 ≤ char.toNat ∧ char.toNat ≤ 57) ∨
      (97 ≤ char.toNat ∧ char.toNat ≤ 102) ∨ char.toNat = 45 := by
    intro char member
    rcases uuid.2 char member with hex | rfl
    · have := lowerDigit_range hex
      omega
    · exact .inr (.inr rfl)
  constructor
  · rw [length_narrow fun char member => by have := range char member; omega]
    exact uuid.1
  · rw [Json.quote_plain fun char member => ?_, uuid.1]
    have code := range char member
    have mark : char ≠ '"' := by
      rintro rfl
      exact absurd code (by decide)
    have slash : char ≠ '\\' := by
      rintro rfl
      exact absurd code (by decide)
    simp only [Json.plain, Bool.and_eq_true, decide_eq_true_eq]
    exact ⟨⟨⟨by omega, by omega⟩, mark⟩, slash⟩

end Texts

section Requests

variable {config : LicenseClientConfig}

theorem assertConfig_key (valid : assertConfig config = .ok ()) :
    1 ≤ length (trim config.licenseKey) ∧ length (trim config.licenseKey) ≤ maxLicenseKeyLength := by
  simp only [assertConfig] at valid
  split at valid
  · cases valid
  · omega

theorem normalize_ok {input : ConsumeUsageInput} {request : UsageRequest}
    (valid : normalizeConsumeInput input = .ok request) :
    request.meter = trim input.meter ∧ request.eventId = trim input.eventId ∧
      (1 ≤ length request.meter ∧ length request.meter ≤ 128) ∧
      (1 ≤ request.units ∧ request.units ≤ maxLicenseLimit) ∧
      1 ≤ length request.eventId ∧ length request.eventId ≤ 128 := by
  simp only [normalizeConsumeInput] at valid
  split at valid
  · cases valid
  · next meter =>
    split at valid
    · cases valid
    · split at valid
      · cases valid
      · next units =>
        split at valid
        · cases valid
        · next eventId =>
          cases valid
          simp only [maxMeterNameLength, maxEventIdLength] at meter eventId
          exact ⟨rfl, rfl, by dsimp only; omega, by dsimp only; omega, by dsimp only; omega⟩

theorem validate_normalized {input : ConsumeUsageInput} {request : UsageRequest}
    (valid : normalizeConsumeInput input = .ok request) :
    validateUsageInput ⟨request.meter, .integer request.units, request.eventId⟩ = .ok request := by
  obtain ⟨named, event, meter, units, eventId⟩ := normalize_ok valid
  have trimmed : trim request.meter = request.meter := by rw [named, trim_trim]
  have trimmedEvent : trim request.eventId = request.eventId := by rw [event, trim_trim]
  simp only [validateUsageInput, trimmed, trimmedEvent]
  rw [if_neg, if_neg (by omega), if_neg]
  · rw [← length_pos]
    omega
  · rw [← length_pos]
    omega

/-- The server takes every request for what the SDK meant. -/
structure RequestsAccepted (config : LicenseClientConfig) (device token : String) : Prop where
  activate : activateBody (sendActivate (trim config.licenseKey) device) =
    some ⟨trim config.licenseKey, device⟩
  session : sessionBody (sendSession token device) = some ⟨token, device⟩
  binding : ∀ ip, sessionBinding ip device = .ok ⟨trim ip, device⟩
  usage : ∀ input request, normalizeConsumeInput input = .ok request →
    ∃ received : UsageBody, usageBody (sendUsage token device request) = some received ∧
      received.toSessionBody = ⟨token, device⟩ ∧ validateUsageInput received.input = .ok request

theorem requests_accepted {device token : String} (valid : assertConfig config = .ok ())
    (digest : IsDigest device) (uuid : IsUuid token) : RequestsAccepted config device token := by
  obtain ⟨solid, size⟩ := digest_solid digest
  obtain ⟨tokenSize, -⟩ := uuid_plain uuid
  obtain ⟨low, high⟩ := assertConfig_key valid
  simp only [maxLicenseKeyLength] at high
  refine ⟨?_, ?_, ?_, ?_⟩
  · simp [activateBody, activateInputSchema, ObjectSchema.accepts, sendActivate, Json.field, Json.text,
      Property.accepts, deviceIdSchema, size, low, high, guard]
  · simp [sessionBody, sessionInputSchema, ObjectSchema.accepts, sendSession, Json.field, Json.text,
      Property.accepts, deviceIdSchema, sessionTokenSchema, size, tokenSize, guard]
  · intro ip
    have filled : device ≠ "" := by
      rintro rfl
      exact absurd size (by decide)
    simp [sessionBinding, deviceId, Keyzori.boundedText, solid, size, filled]
  · intro input request normal
    obtain ⟨-, -, meter, units, eventId⟩ := normalize_ok normal
    refine ⟨⟨⟨token, device⟩, ⟨request.meter, .integer request.units, request.eventId⟩⟩, ?_, rfl,
      validate_normalized normal⟩
    simp [usageBody, usageInputSchema, ObjectSchema.accepts, sendUsage, Json.field, Json.text, Json.numeral,
      Property.accepts, deviceIdSchema, sessionTokenSchema, meterNameSchema, eventIdSchema, size, tokenSize,
      guard, meter, units, eventId]

end Requests

section Responses

theorem readChunks_ok (read : Nat) (chunks : List Nat) (within : read ≤ maxResponseBodyBytes) :
    readChunks read chunks = if read + chunks.sum ≤ maxResponseBodyBytes then .ok () else
      .error "License server response exceeded the safety limit" := by
  induction chunks generalizing read with
  | nil => simp [readChunks, within]
  | cons bytes chunks ih =>
      rw [readChunks, List.sum_cons]
      split
      · rw [if_neg (by omega)]
      · rw [ih _ (by omega), Nat.add_assoc]

theorem readJson_ok (response : Response) :
    readJson response = if response.payload.byteLength ≤ maxResponseBodyBytes then .ok response.payload else
      .error "License server response exceeded the safety limit" := by
  have whole := response.whole
  have declared : response.contentLength.any (fun declared => declared > maxResponseBodyBytes) = true →
      ¬response.payload.byteLength ≤ maxResponseBodyBytes := by
    intro large
    cases given : response.contentLength with
    | none => simp [given] at large
    | some bytes =>
        rw [← response.declared bytes given]
        simpa [given] using large
  rw [readJson, readChunks_ok 0 _ (Nat.zero_le _), Nat.zero_add, whole]
  split
  · next large =>
    exact (if_neg (declared large)).symm
  · split <;> rfl

theorem session_size (license : License) {metadata : List (String × Json)} {token : String}
    (stored : license.metadata = (Json.object metadata).stringify) (uuid : IsUuid token) :
    ((sessionResult license token).body metadata).byteLength =
      license.metadata.utf8ByteSize + license.type.text.length + 122 := by
  have named : (Json.quote license.type.text).utf8ByteSize = license.type.text.length + 2 := by
    cases license.type <;> decide
  have ttl : (toString sessionTtlSeconds).utf8ByteSize = 2 := by decide
  have shown : (Json.boolean true).stringify = "true" := by decide
  rw [Json.byteLength, LicenseSessionResult.body, Json.stringify]
  simp only [Json.fieldTexts, Json.commas, sessionResult, Json.stringify_string, Json.stringify_number, shown,
    ← stored, String.utf8ByteSize_append, named, (uuid_plain uuid).2, ttl]
  have marks : ("\x7b" : String).utf8ByteSize = 1 ∧ ("\x7d" : String).utf8ByteSize = 1 ∧
      (":" : String).utf8ByteSize = 1 ∧ ("," : String).utf8ByteSize = 1 ∧ ("true" : String).utf8ByteSize = 4 := by
    decide
  have names : (Json.quote "success").utf8ByteSize = 9 ∧ (Json.quote "licenseType").utf8ByteSize = 13 ∧
      (Json.quote "metadata").utf8ByteSize = 10 ∧ (Json.quote "sessionToken").utf8ByteSize = 14 ∧
      (Json.quote "sessionTtlSeconds").utf8ByteSize = 19 := by decide
  omega

theorem number_size {value : Int} (low : 0 ≤ value) (high : value ≤ maxLicenseLimit) :
    (toString value).utf8ByteSize ≤ 10 := by
  obtain ⟨natural, rfl⟩ := Int.eq_ofNat_of_zero_le low
  have small : natural < 10 ^ 10 := by
    simp only [maxLicenseLimit] at high
    omega
  have digits : ∀ chars : List Char, (∀ char ∈ chars, char.isDigit = true) →
      String.utf8Len chars = chars.length := by
    intro chars shown
    induction chars with
    | nil => rfl
    | cons char chars ih =>
        have decimal := shown char (.head _)
        simp only [Char.isDigit, Bool.and_eq_true, decide_eq_true_eq, UInt32.le_iff_toNat_le] at decimal
        have most : char.toNat ≤ 57 := decimal.2
        have byte : char.utf8Size = 1 := by
          rw [Char.utf8Size_eq_one_iff, UInt32.le_iff_toNat_le]
          exact Nat.le_trans (by omega : char.toNat ≤ 127) (Nat.le_refl _)
        rw [String.utf8Len_cons, ih fun other member => shown other (.tail _ member), byte, List.length_cons]
  have text : (toString (natural : Int)).utf8ByteSize = (Nat.toDigits 10 natural).length := by
    rw [show toString (natural : Int) = String.ofList (Nat.toDigits 10 natural) from rfl,
      String.utf8ByteSize_ofList]
    exact digits _ fun char member => Nat.isDigit_of_mem_toDigits (by decide) (by decide) member
  rw [text]
  exact Nat.toDigits_length 10 natural 10 (by decide) small

theorem usage_size {answer : ConsumeUsageResult} (meter : length answer.meter ≤ 128)
    (eventId : length answer.eventId ≤ 128) (units : 0 ≤ answer.units ∧ answer.units ≤ maxLicenseLimit)
    (remaining : 0 ≤ answer.remaining ∧ answer.remaining ≤ maxLicenseLimit) :
    answer.body.byteLength ≤ maxResponseBodyBytes := by
  have shown : (Json.boolean true).stringify = "true" := by decide
  rw [Json.byteLength, ConsumeUsageResult.body, Json.stringify]
  simp only [Json.fieldTexts, Json.commas, Json.stringify_string, Json.stringify_number, shown,
    String.utf8ByteSize_append]
  have marks : ("\x7b" : String).utf8ByteSize = 1 ∧ ("\x7d" : String).utf8ByteSize = 1 ∧
      (":" : String).utf8ByteSize = 1 ∧ ("," : String).utf8ByteSize = 1 ∧ ("true" : String).utf8ByteSize = 4 := by
    decide
  have names : (Json.quote "success").utf8ByteSize = 9 ∧ (Json.quote "meter").utf8ByteSize = 7 ∧
      (Json.quote "units").utf8ByteSize = 7 ∧ (Json.quote "eventId").utf8ByteSize = 9 ∧
      (Json.quote "remaining").utf8ByteSize = 11 := by decide
  have meterSize := Json.quote_size answer.meter
  have eventSize := Json.quote_size answer.eventId
  have unitsSize := number_size units.1 units.2
  have remainingSize := number_size remaining.1 remaining.2
  rw [maxResponseBodyBytes]
  omega

/-- Whatever arrives that the server called a success, the SDK takes it. -/
structure ResponsesAccepted (hashUsageEventId : String → String) (license : License) (token : String)
    (metadata : List (String × Json)) : Prop where
  session : ∀ (response : Response) requestName,
    response.payload = (sessionResult license token).body metadata →
      readSessionResponse response requestName = .ok ⟨⟨license.type, license.metadata⟩, token, sessionTtlSeconds⟩
  usage : ∀ (response : Response) input request, normalizeConsumeInput input = .ok request →
    ∀ trace final, Run (meterService hashUsageEventId) emptyMeters trace final → ∀ id draw written result,
      (consumeMeter id request.meter request.units (hashUsageEventId request.eventId) draw).run
        (final.committed id) = .ok (written, result) →
      ∀ answer, consumeResponse request result = .ok answer → response.payload = answer.body →
        consumeOnce request response = .ok answer
  deactivate : ∀ response : Response, response.payload = successBody → readDeactivateResponse response = .ok ()

theorem usage_answer {hashUsageEventId : String → String}
    {trace : List (MeterRequest × Outcome Failure MeterResponse)} {final : MeterSystem}
    (run : Run (meterService hashUsageEventId) emptyMeters trace final) {id : LicenseId} {request : UsageRequest}
    {draw : Draw} {written : MeterRegion} {result : UsageConsumptionResult}
    (ran : (consumeMeter id request.meter request.units (hashUsageEventId request.eventId) draw).run
      (final.committed id) = .ok (written, result))
    {answer : ConsumeUsageResult} (answered : consumeResponse request result = .ok answer)
    (positive : 1 ≤ request.units) :
    answer.meter = request.meter ∧ answer.units = request.units ∧ answer.eventId = request.eventId ∧
      0 ≤ answer.remaining ∧ answer.remaining ≤ maxLicenseLimit := by
  have inRange := (ledger_law run id).2.1
  have quiet : ∀ id, emptyMeters.opened id = none := fun id => rfl
  have accounted : (final.committed id).Accounted := by
    obtain ⟨serial, -⟩ := run_serial quiet run
    exact serial.invariant (fun _ region => region.Accounted) (fun id table present => by cases present)
      (fun request region written response accounted ran =>
        change_accounted accounted (meterService_change request accounted ran)) id
  cases consumeMeter_spec accounted ran with
  | replayed entry meter found same =>
      cases answered
      obtain ⟨member, -⟩ := MeterRegion.ledgerEvent_some found
      exact ⟨same.2.2, rfl, rfl, (inRange.columns entry member).after⟩
  | consumed table meter changed entry present unused found active covered debited posts kind event delta =>
      cases answered
      obtain ⟨member, named⟩ := MeterRegion.meterNamed_some found
      have bounded := (inRange.balance meter member).2
      refine ⟨posts.name.trans named, rfl, rfl, ?_, ?_⟩
      · dsimp only
        omega
      · dsimp only
        omega
  | conflict | notFound | archived | exhausted => cases answered

theorem readSession_ok {license : License} {token : String} {metadata : List (String × Json)}
    (stored : license.metadata = (Json.object metadata).stringify) (uuid : IsUuid token) (response : Response)
    (requestName : String) (payload : response.payload = (sessionResult license token).body metadata)
    (within : response.payload.byteLength ≤ maxResponseBodyBytes) :
    readSessionResponse response requestName = .ok ⟨⟨license.type, license.metadata⟩, token, sessionTtlSeconds⟩ := by
  have size := (uuid_plain uuid).1
  have type : licenseTypeOf (response.payload.field "licenseType") = some license.type := by
    rw [payload, show ((sessionResult license token).body metadata).field "licenseType" =
      some (.string license.type.text) from rfl]
    cases license.type <;> rfl
  have record : isRecord (response.payload.field "metadata") = some metadata := by
    rw [payload]
    rfl
  have sessionToken : boundedText response.payload "sessionToken" 32 maxSessionTokenLength = some token := by
    rw [boundedText, payload, show ((sessionResult license token).body metadata).text "sessionToken" =
      some token from rfl]
    simp [size, maxSessionTokenLength]
  have ttl : boundedInteger response.payload "sessionTtlSeconds" 1 maxSessionTtlSeconds = some 45 := by
    have number : ((sessionResult license token).body metadata).numeral "sessionTtlSeconds" =
        some ((toString sessionTtlSeconds).toInt?.elim .other .integer) := rfl
    have read : (toString sessionTtlSeconds).toInt? = some 45 := Nat.toInt?_repr 45
    rw [boundedInteger, payload, number, read]
    decide
  have success : successful response.payload = true := by
    rw [payload]
    rfl
  rw [readSessionResponse, readJson_ok, if_pos within]
  simp only [bind, Except.bind, pure, Except.pure, guard, success, type, record, sessionToken, ttl, if_true,
    Option.bind_some, stored]
  rfl

theorem readUsage_ok {answer : ConsumeUsageResult} (response : Response) (payload : response.payload = answer.body)
    (meter : 1 ≤ length answer.meter ∧ length answer.meter ≤ 128)
    (units : 1 ≤ answer.units ∧ answer.units ≤ maxLicenseLimit)
    (eventId : 1 ≤ length answer.eventId ∧ length answer.eventId ≤ 128)
    (remaining : 0 ≤ answer.remaining ∧ answer.remaining ≤ maxLicenseLimit) :
    readUsageResponse response = .ok answer := by
  have within : response.payload.byteLength ≤ maxResponseBodyBytes :=
    payload ▸ usage_size meter.2 eventId.2 ⟨by omega, units.2⟩ remaining
  have safe : ∀ value : Int, 0 ≤ value → value ≤ maxLicenseLimit → safeInteger (.integer value) = some value := by
    intro value low high
    simp only [maxLicenseLimit] at high
    rw [safeInteger, if_pos]
    simp only [maxSafeInteger]
    omega
  have meterText : boundedText response.payload "meter" 1 maxMeterNameLength = some answer.meter := by
    rw [boundedText, payload, show answer.body.text "meter" = some answer.meter from rfl]
    simp [maxMeterNameLength, meter]
  have eventText : boundedText response.payload "eventId" 1 maxEventIdLength = some answer.eventId := by
    rw [boundedText, payload, show answer.body.text "eventId" = some answer.eventId from rfl]
    simp [maxEventIdLength, eventId]
  have unitsRead : boundedInteger response.payload "units" 1 maxLicenseLimit = some answer.units := by
    rw [boundedInteger, payload, show answer.body.numeral "units" =
      some ((toString answer.units).toInt?.elim .other .integer) from rfl,
      show (toString answer.units).toInt? = some answer.units from Int.toInt?_repr _]
    simp [safe answer.units (by omega) units.2, units]
  have remainingRead : boundedInteger response.payload "remaining" 0 maxLicenseLimit = some answer.remaining := by
    rw [boundedInteger, payload, show answer.body.numeral "remaining" =
      some ((toString answer.remaining).toInt?.elim .other .integer) from rfl,
      show (toString answer.remaining).toInt? = some answer.remaining from Int.toInt?_repr _]
    simp [safe answer.remaining remaining.1 remaining.2, remaining]
  have success : successful response.payload = true := by
    rw [payload]
    rfl
  rw [readUsageResponse, readJson_ok, if_pos within]
  simp only [bind, Except.bind, pure, Except.pure, guard, success, meterText, eventText, unitsRead,
    remainingRead, if_true, Option.bind_some]

/-- Of all that the server answers, only the metadata may be too large. -/
theorem responses_accepted {hashUsageEventId : String → String} {license : License} {token : String}
    {metadata : List (String × Json)} (stored : license.metadata = (Json.object metadata).stringify)
    (uuid : IsUuid token) : ResponsesAccepted hashUsageEventId license token metadata ↔
      license.metadata.utf8ByteSize + license.type.text.length ≤ 262022 := by
  have size := session_size license stored uuid
  constructor
  · intro accepted
    by_contra large
    let arriving : Response := ⟨(sessionResult license token).body metadata, none,
      [((sessionResult license token).body metadata).byteLength], (fun _ given => by cases given), by simp⟩
    have read := accepted.session arriving "activation" rfl
    rw [readSessionResponse, readJson_ok, if_neg] at read
    · cases read
    · simp only [arriving, size, maxResponseBodyBytes]
      omega
  · intro fits
    refine ⟨fun response requestName payload => readSession_ok stored uuid response requestName payload ?_, ?_, ?_⟩
    · rw [payload, size, maxResponseBodyBytes]
      omega
    · intro response input request normal trace final run id draw written result ran answer answered payload
      obtain ⟨-, -, meter, units, eventId⟩ := normalize_ok normal
      obtain ⟨sameMeter, sameUnits, sameEvent, remaining⟩ := usage_answer run ran answered units.1
      have read := readUsage_ok response payload (sameMeter ▸ meter)
        (sameUnits ▸ units) (sameEvent ▸ eventId) remaining
      have echoed : ¬(answer.meter ≠ request.meter ∨ answer.units ≠ request.units ∨
          answer.eventId ≠ request.eventId) := by simp [sameMeter, sameUnits, sameEvent]
      rw [consumeOnce, read]
      exact if_neg echoed
    · intro response payload
      have within : response.payload.byteLength ≤ maxResponseBodyBytes := by
        rw [payload]
        decide
      have success : successful response.payload = true := by
        rw [payload]
        rfl
      rw [readDeactivateResponse, readJson_ok, if_pos within]
      exact if_pos success

end Responses

/-- The SDK and the server agree on the wire exactly for the licenses whose
metadata leaves the session response within the SDK's limit. -/
theorem wire_agreement {config : LicenseClientConfig} {sha256 : String → String} {hostIdentity token : String}
    {license : License} {metadata : List (String × Json)} (hashUsageEventId : String → String)
    (valid : assertConfig config = .ok ()) (digest : ∀ text, IsDigest (sha256 text)) (uuid : IsUuid token)
    (stored : license.metadata = (Json.object metadata).stringify) :
    (RequestsAccepted config (getDeviceId sha256 hostIdentity config) token ∧
        ResponsesAccepted hashUsageEventId license token metadata) ↔
      license.metadata.utf8ByteSize + license.type.text.length ≤ 262022 := by
  have device : IsDigest (getDeviceId sha256 hostIdentity config) := by
    unfold getDeviceId
    split <;> exact digest _
  rw [responses_accepted stored uuid]
  exact and_iff_right (requests_accepted valid device uuid)

section Samples

def sampleConfig : LicenseClientConfig where
  licenseKey := " KEY-1 "
  deviceId := some "workstation"

def sampleDigest : String := "d195d36bd79da7df853b78f0b539b75f002819330c13b6438bbbe89a8f4f267a"

def sampleToken : String := "9b2f6c0e-4a1d-4c3b-8e5f-0123456789ab"

theorem wire_id_plain : '|' ∉ "4f1c".toList := by decide

def licenseWith (metadata : List (String × Json)) : License where
  id := ⟨"4f1c", wire_id_plain⟩
  keyPrefix := "KEY"
  customerId := "c1"
  type := .lifetime
  maxIps := 0
  maxDevices := 0
  maxSessions := 0
  sessionRevision := 0
  trialDurationMinutes := 0
  trialStartedAt := none
  metadata := (Json.object metadata).stringify
  expiresAt := none
  typeDrafts := {}
  manualRevokedAt := none
  manualRevocationReason := none
  createdAt := 0
  updatedAt := 0
  billingRevokedAt := none

theorem sampleDigest_digest : IsDigest sampleDigest :=
  ⟨by decide +kernel, List.all_eq_true.mp (by decide +kernel)⟩

theorem sampleToken_uuid : IsUuid sampleToken := by
  refine ⟨by decide +kernel, fun char member => ?_⟩
  have shown : sampleToken.toList.all (fun char => (lowerDigit char).isSome || char = '-') = true := by decide +kernel
  simpa using List.all_eq_true.mp shown char member

theorem wire_agreement_sample :
    RequestsAccepted sampleConfig (getDeviceId (fun _ => sampleDigest) "linux" sampleConfig) sampleToken ∧
      ResponsesAccepted id (licenseWith [("plan", .string "pro")]) sampleToken [("plan", .string "pro")] :=
  (wire_agreement id (by with_unfolding_all rfl) (fun _ => sampleDigest_digest) sampleToken_uuid rfl).mpr (by decide)

/-- Notes of many letters, which no check of the admin side refuses. -/
def notes (letters : Nat) : List (String × Json) :=
  [("notes", .string (String.ofList (List.replicate letters 'a')))]

theorem notes_size (letters : Nat) : letters ≤ (licenseWith (notes letters)).metadata.utf8ByteSize := by
  have text : (Json.quote (String.ofList (List.replicate letters 'a'))).utf8ByteSize = letters + 2 := by
    rw [Json.quote_plain, String.toList_ofList, List.length_replicate]
    intro char member
    rw [String.toList_ofList] at member
    rw [List.eq_of_mem_replicate member]
    decide
  rw [licenseWith, notes, Json.stringify]
  simp only [Json.fieldTexts, Json.commas, Json.stringify_string, String.utf8ByteSize_append, text]
  omega

theorem large_metadata_refused :
    ¬(RequestsAccepted sampleConfig (getDeviceId (fun _ => sampleDigest) "linux" sampleConfig) sampleToken ∧
      ResponsesAccepted id (licenseWith (notes 262144)) sampleToken (notes 262144)) := by
  rintro ⟨-, accepted⟩
  have stored (letters : Nat) : (licenseWith (notes letters)).metadata =
      (Json.object (notes letters)).stringify := rfl
  have fits := (responses_accepted (stored 262144) sampleToken_uuid).mp accepted
  have size := notes_size 262144
  omega

end Samples

end Keyzori.Sdk
