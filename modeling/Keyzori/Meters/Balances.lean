import Keyzori.Meters.Transactions

namespace Keyzori

open LockedTransactions MeterRegion MeterTable

namespace MeterRegion

def Bounded (balance : Int) : Prop := 0 ≤ balance ∧ balance ≤ maxLicenseLimit

structure Columns (entry : UsageLedgerEntry) : Prop where
  before : Bounded entry.balanceBefore
  after : Bounded entry.balanceAfter
  delta : -maxLicenseLimit ≤ entry.delta ∧ entry.delta ≤ maxLicenseLimit

theorem bounded_zero : Bounded 0 := ⟨by decide, by decide⟩

theorem bounded_delta {balance : Int} (bounded : Bounded balance) :
    -maxLicenseLimit ≤ balance ∧ balance ≤ maxLicenseLimit := by
  have positive : 0 ≤ maxLicenseLimit := by decide
  exact ⟨by have := bounded.1; omega, bounded.2⟩

/-- Every integer column of the region is in the range of its type. -/
structure InRange (region : MeterRegion) : Prop where
  balance : ∀ meter ∈ region.meters, Bounded meter.balance
  columns : ∀ entry ∈ region.ledger, Columns entry

theorem inRange_insertMeter {meter inserted : LicenseMeter} {region written : MeterRegion}
    (inRange : region.InRange) (balance : Bounded meter.balance)
    (ran : insertMeter meter region = .ok (written, inserted)) : written.InRange := by
  obtain ⟨table, rfl, rfl, rfl, _, _⟩ := insertMeter_ok ran
  refine ⟨?_, inRange.columns⟩
  intro stored member
  rcases List.mem_append.mp member with old | new
  · exact inRange.balance stored old
  · rw [List.mem_singleton.mp new]
    exact balance

theorem inRange_insertLedgerEntry {entry inserted : UsageLedgerEntry}
    {region written : MeterRegion} (inRange : region.InRange) (columns : Columns entry)
    (ran : insertLedgerEntry entry region = .ok (written, inserted)) : written.InRange := by
  obtain ⟨table, rfl, rfl, rfl, _⟩ := insertLedgerEntry_ok ran
  refine ⟨inRange.balance, ?_⟩
  intro stored member
  rcases List.mem_append.mp member with old | new
  · exact inRange.columns stored old
  · rw [List.mem_singleton.mp new]
    exact columns

theorem inRange_updateMeters {chosen : LicenseMeter → Bool} {set : LicenseMeter → LicenseMeter}
    {region written : MeterRegion} {rows : List LicenseMeter} (inRange : region.InRange)
    (changed : ∀ meter ∈ region.meters, chosen meter = true → Bounded (set meter).balance)
    (ran : updateMeters chosen set region = .ok (written, rows)) : written.InRange := by
  cases ran
  cases region with
  | none => exact inRange
  | some table =>
      refine ⟨?_, inRange.columns⟩
      intro stored member
      obtain ⟨original, originalMember, rfl⟩ := List.mem_map.mp member
      split
      · next picked => exact changed original originalMember picked
      · exact inRange.balance original originalMember

/-- The shape shared by consumption, adjustment and archiving: a guarded update
and, where it hit a row, the ledger row made from that row. -/
theorem keeps_posting {α : Type} {chosen : LicenseMeter → Bool}
    {set : LicenseMeter → LicenseMeter} {row : LicenseMeter → UsageLedgerEntry}
    {answer : LicenseMeter → UsageLedgerEntry → α} {otherwise : MeterScript α}
    {region : MeterRegion} (inRange : region.InRange)
    (changed : ∀ meter ∈ region.meters, chosen meter = true →
      Bounded (set meter).balance ∧ Columns (row (set meter)))
    (unchanged : ∀ written : MeterRegion, written.InRange → otherwise.Keeps InRange written) :
    (Script.execute (updateMeters chosen set) >>= fun rows =>
      match rows.head? with
      | none => otherwise
      | some updated =>
          Script.execute (insertLedgerEntry (row updated)) >>= fun entry =>
            (pure (answer updated entry) : MeterScript α)).Keeps InRange region := by
  have updated : ∀ written rows, updateMeters chosen set region = .ok (written, rows) →
      written.InRange := fun written rows ran =>
    inRange_updateMeters inRange (fun meter member picked => (changed meter member picked).1) ran
  apply Script.keeps_bind
  · exact Script.keeps_execute InRange _ region inRange updated
  · intro written rows ran
    rw [Script.run_execute] at ran
    have kept := updated written rows ran
    cases ran
    cases first : ((region.meters.filter chosen).map set).head? with
    | none => exact unchanged _ kept
    | some meter =>
        obtain ⟨original, member, rfl⟩ := List.mem_map.mp (List.mem_of_mem_head? first)
        obtain ⟨present, picked⟩ := List.mem_filter.mp member
        dsimp only
        apply Script.keeps_bind
        · exact Script.keeps_execute InRange _ _ kept fun written inserted ran =>
            inRange_insertLedgerEntry kept (changed original present picked).2 ran
        · intro posted entry ran
          rw [Script.run_execute] at ran
          exact inRange_insertLedgerEntry kept (changed original present picked).2 ran

end MeterRegion

theorem createMeter_inRange {id : LicenseId} {name text : String} {balance : Int} {draw : Draw}
    {region : MeterRegion} (inRange : region.InRange)
    (bounds : Bounded balance) :
    (createMeter id name balance text draw).Keeps InRange region := by
  apply Script.keeps_bind
  · exact Script.keeps_execute InRange _ region inRange fun written inserted ran =>
      inRange_insertMeter inRange (by exact bounds) ran
  · intro written meter ran
    rw [Script.run_execute] at ran
    have kept := inRange_insertMeter inRange (by exact bounds) ran
    obtain ⟨table, _, rfl, _⟩ := insertMeter_ok ran
    have columns : Columns ⟨draw.uuid 1, id, draw.uuid 0, operatorEvent (draw.uuid 2), .create,
        balance, 0, balance, some text, draw.now⟩ :=
      ⟨bounded_zero, bounds, bounded_delta bounds⟩
    apply Script.keeps_bind
    · exact Script.keeps_execute InRange _ _ kept fun posted inserted ran =>
        inRange_insertLedgerEntry kept columns ran
    · intro posted entry ran
      rw [Script.run_execute] at ran
      exact inRange_insertLedgerEntry kept columns ran

theorem consumeMeter_inRange {id : LicenseId} {name eventIdHash : String} {units : Int}
    {draw : Draw} {region : MeterRegion} (inRange : region.InRange)
    (positive : 1 ≤ units) (limit : units ≤ maxLicenseLimit) :
    (consumeMeter id name units eventIdHash draw).Keeps InRange region := by
  apply Script.keeps_bind
  · exact (Script.keeps_query ..).mpr inRange
  · intro view found ran
    cases ran
    split
    · split
      · exact inRange
      · exact inRange
    · apply Script.keeps_bind
      · exact (Script.keeps_query ..).mpr inRange
      · intro view lookup ran
        cases ran
        split
        · exact inRange
        · split
          · exact inRange
          · apply keeps_posting inRange
            · intro meter member picked
              obtain ⟨nonneg, upper⟩ := inRange.balance meter member
              simp only [Bool.and_eq_true, decide_eq_true_eq] at picked
              have debited : Bounded (meter.balance - units) := ⟨by omega, by omega⟩
              refine ⟨debited, ⟨?_, debited, ?_⟩⟩
              · simpa using inRange.balance meter member
              · exact ⟨by dsimp only; omega, by dsimp only; omega⟩
            · intro written kept
              exact kept

theorem adjustMeter_inRange {id : LicenseId} {name text : String} {delta : Int}
    {kind : MeterLedgerKind} {draw : Draw} {region : MeterRegion} (inRange : region.InRange)
    (bounds : -maxLicenseLimit ≤ delta ∧ delta ≤ maxLicenseLimit) :
    (adjustMeter id name delta text kind draw).Keeps InRange region := by
  apply Script.keeps_bind
  · exact (Script.keeps_query ..).mpr inRange
  · intro view lookup ran
    cases ran
    split
    · exact inRange
    · split
      · exact inRange
      · apply keeps_posting inRange
        · intro meter member picked
          obtain ⟨nonneg, upper⟩ := inRange.balance meter member
          simp only [Bool.and_eq_true, decide_eq_true_eq] at picked
          have guarded : Bounded (meter.balance + delta) := by
            obtain ⟨-, guard⟩ := picked
            split at guard
            · simp only [decide_eq_true_eq] at guard
              exact ⟨by omega, by omega⟩
            · simp only [decide_eq_true_eq] at guard
              exact ⟨by omega, by omega⟩
          refine ⟨guarded, ⟨?_, guarded, bounds⟩⟩
          simpa using inRange.balance meter member
        · intro written kept
          exact kept

theorem archiveMeter_inRange {id : LicenseId} {name text : String}
    {licenseType : Option LicenseType} {draw : Draw} {region : MeterRegion}
    (inRange : region.InRange) :
    (archiveMeter id name text licenseType draw).Keeps InRange region := by
  cases licenseType with
  | none => exact inRange
  | some type =>
      apply Script.keeps_bind
      · exact (Script.keeps_query ..).mpr inRange
      · intro view active ran
        cases ran
        dsimp only
        split
        · exact inRange
        · apply keeps_posting inRange
          · intro meter member picked
            have balance := inRange.balance meter member
            exact ⟨balance, ⟨balance, balance, bounded_delta bounded_zero⟩⟩
          · intro written kept
            exact (Script.keeps_query ..).mpr kept

theorem createLicenseMeters_inRange {id : LicenseId} {meters : List NewLicenseMeter} {draw : Draw}
    {region : MeterRegion} (inRange : region.InRange)
    (bounded : ∀ meter ∈ meters, Bounded meter.balance) :
    (createLicenseMeters id meters draw).Keeps InRange region := by
  have opened : InRange (some ⟨[], []⟩) := ⟨by simp [MeterRegion.meters], by simp [MeterRegion.ledger]⟩
  apply Script.keeps_bind
  · apply Script.keeps_execute InRange _ region inRange
    intro written rows ran
    split at ran
    · cases ran
    · cases ran
      exact opened
  · intro written rows ran
    rw [Script.run_execute] at ran
    split at ran
    · cases ran
    · cases ran
      split
      · exact opened
      · generalize stored : (meters.mapIdx fun index meter =>
          (meter, (LicenseMeter.mk (draw.uuid (3 * index)) id meter.name meter.balance none
            draw.now draw.now))) = rows
        have balances : ∀ row ∈ rows, Bounded row.2.balance := by
          intro row member
          rw [← stored] at member
          obtain ⟨index, bound, rfl⟩ := List.mem_mapIdx.mp member
          exact bounded _ (List.getElem_mem bound)
        have inserted : ∀ written created,
            insertRows insertMeter (rows.map Prod.snd) (some ⟨[], []⟩) = .ok (written, created) →
              written.InRange := by
          intro written created ran
          refine insertRows_keeps (fun row region written inserted inRange allowed ran =>
            inRange_insertMeter inRange allowed ran) opened ?_ ran
          intro row member
          obtain ⟨original, present, rfl⟩ := List.mem_map.mp member
          exact balances original present
        apply Script.keeps_bind
        · exact Script.keeps_execute InRange _ _ opened inserted
        · intro written created ran
          rw [Script.run_execute] at ran
          have kept := inserted written created ran
          have posted : ∀ final entries, insertRows insertLedgerEntry
              (rows.mapIdx fun index row => UsageLedgerEntry.mk (draw.uuid (3 * index + 1)) id
                row.2.id (operatorEvent (draw.uuid (3 * index + 2))) .create row.2.balance 0
                row.2.balance (some row.1.reason) draw.now) written = .ok (final, entries) →
              final.InRange := by
            intro final entries ran
            refine insertRows_keeps (fun row region written inserted inRange allowed ran =>
              inRange_insertLedgerEntry inRange allowed ran) kept ?_ ran
            intro entry member
            obtain ⟨index, bound, rfl⟩ := List.mem_mapIdx.mp member
            have balance := balances _ (List.getElem_mem bound)
            exact ⟨bounded_zero, balance, bounded_delta balance⟩
          apply Script.keeps_bind
          · exact Script.keeps_execute InRange _ _ kept posted
          · intro final entries ran
            rw [Script.run_execute] at ran
            exact posted final entries ran

theorem insertNewMetersFrom_inRange {id : LicenseId} {draw : Draw}
    {meters : List NewLicenseMeter} {index : Nat} {existing : List LicenseMeter}
    {region : MeterRegion} (inRange : region.InRange)
    (bounded : ∀ meter ∈ meters, Bounded meter.balance) :
    (insertNewMetersFrom id draw index meters existing).Keeps InRange region := by
  induction meters generalizing index existing region with
  | nil => exact inRange
  | cons meter meters ih =>
      have first := bounded meter (by simp)
      have others := fun other member => bounded other (List.mem_cons_of_mem meter member)
      simp only [insertNewMetersFrom]
      split
      · split
        · exact inRange
        · exact ih inRange others
      · apply Script.keeps_bind
        · exact Script.keeps_execute InRange _ region inRange fun written inserted ran =>
            inRange_insertMeter inRange (by exact first) ran
        · intro written inserted ran
          rw [Script.run_execute] at ran
          have kept := inRange_insertMeter inRange (by exact first) ran
          have columns : Columns ⟨draw.uuid (3 * index + 1), id, inserted.id,
              operatorEvent (draw.uuid (3 * index + 2)), .create, meter.balance, 0, meter.balance,
              some meter.reason, draw.now⟩ := ⟨bounded_zero, first, bounded_delta first⟩
          apply Script.keeps_bind
          · exact Script.keeps_execute InRange _ _ kept fun posted entry ran =>
              inRange_insertLedgerEntry kept columns ran
          · intro posted entry ran
            rw [Script.run_execute] at ran
            exact ih (inRange_insertLedgerEntry kept columns ran) others

theorem insertNewMeters_inRange {id : LicenseId} {draw : Draw} {meters : List NewLicenseMeter}
    {region : MeterRegion} (inRange : region.InRange)
    (bounded : ∀ meter ∈ meters, Bounded meter.balance) :
    (insertNewMeters id meters draw).Keeps InRange region := by
  simp only [insertNewMeters]
  split
  · exact inRange
  · apply Script.keeps_bind
    · exact (Script.keeps_query ..).mpr inRange
    · intro view existing ran
      cases ran
      exact insertNewMetersFrom_inRange inRange bounded

theorem validateMeters_bounded {names : List String} {meters : List CreateMeterInput}
    {valid : List NewLicenseMeter} (accepted : validateMetersFrom names meters = .ok valid) :
    ∀ meter ∈ valid, Bounded meter.balance := by
  induction meters generalizing names valid with
  | nil =>
      cases accepted
      simp
  | cons meter meters ih =>
      obtain ⟨name, -, accepted⟩ := bind_ok.mp accepted
      split at accepted
      · cases accepted
      obtain ⟨balance, valid, accepted⟩ := bind_ok.mp accepted
      obtain ⟨reason, -, accepted⟩ := bind_ok.mp accepted
      obtain ⟨others, rest, accepted⟩ := bind_ok.mp accepted
      cases accepted
      intro other member
      rcases List.mem_cons.mp member with rfl | member
      · exact (validateInteger_bounds valid).2
      · exact ih rest other member

inductive Prepared (hashUsageEventId : String → String) :
    MeterRequest → MeterScript MeterResponse → Prop
  | createLicense (id : LicenseId) (meters : List CreateMeterInput) (draw : Draw)
      (valid : List NewLicenseMeter) (bounded : ∀ meter ∈ valid, Bounded meter.balance) :
      Prepared hashUsageEventId (.createLicense id meters draw) (do
        createLicenseMeters id valid draw
        return .done)
  | updateLicense (id : LicenseId) (meters : List CreateMeterInput) (listed : List LicenseMeter)
      (draw : Draw) (metersToCreate : List NewLicenseMeter)
      (bounded : ∀ meter ∈ metersToCreate, Bounded meter.balance) :
      Prepared hashUsageEventId (.updateLicense id meters listed draw) (do
        insertNewMeters id metersToCreate draw
        return .done)
  | createLicenseMeter (id : LicenseId) (data : CreateMeterInput) (draw : Draw)
      (meter : NewLicenseMeter) (bounded : Bounded meter.balance) :
      Prepared hashUsageEventId (.createLicenseMeter id data draw) (do
        let created ← createMeter id meter.name meter.balance meter.reason draw
        return .meter (some created))
  | archiveLicenseMeter (id : LicenseId) (name text validName validText : String)
      (licenseType : Option LicenseType) (draw : Draw) :
      Prepared hashUsageEventId (.archiveLicenseMeter id name text licenseType draw) (do
        let archived ← archiveMeter id validName validText licenseType draw
        return .meter archived)
  | topUpLicenseMeter (id : LicenseId) (name text validName validText : String) (units : Number)
      (draw : Draw) (delta : Int) (bounded : -maxLicenseLimit ≤ delta ∧ delta ≤ maxLicenseLimit) :
      Prepared hashUsageEventId (.topUpLicenseMeter id name units text draw) (do
        let result ← adjustMeter id validName delta validText .topUp draw
        return .adjustment result)
  | adjustLicenseMeter (id : LicenseId) (name text validName validText : String) (units : Number)
      (draw : Draw) (delta : Int) (bounded : -maxLicenseLimit ≤ delta ∧ delta ≤ maxLicenseLimit) :
      Prepared hashUsageEventId (.adjustLicenseMeter id name units text draw) (do
        let result ← adjustMeter id validName delta validText .adjustment draw
        return .adjustment result)
  | consume (id : LicenseId) (input : ConsumeUsageInput) (draw : Draw) (request : UsageRequest)
      (valid : validateUsageInput input = .ok request) :
      Prepared hashUsageEventId (.consume id input draw) (do
        let result ← consumeMeter id request.meter request.units
          (hashUsageEventId request.eventId) draw
        return .consumption result)

theorem validateDelta_bounds {delta : Number} {accepted : Int}
    (valid : validateDelta delta = .ok accepted) :
    -maxLicenseLimit ≤ accepted ∧ accepted ≤ maxLicenseLimit := by
  cases delta with
  | integer delta =>
      simp only [validateDelta] at valid
      split at valid
      · cases valid
      · cases valid
        have limit : maxLicenseLimit = 2147483647 := rfl
        constructor <;> omega
  | other => cases valid

theorem validateUsageInput_ok {input : ConsumeUsageInput} {request : UsageRequest}
    (valid : validateUsageInput input = .ok request) :
    request.meter = trim input.meter ∧ request.eventId = trim input.eventId ∧
      input.units = .integer request.units ∧ 1 ≤ request.units ∧
      request.units ≤ maxLicenseLimit := by
  simp only [validateUsageInput] at valid
  split at valid
  · cases valid
  · split at valid
    · next units given =>
      split at valid
      · cases valid
      · split at valid
        · cases valid
        · cases valid
          exact ⟨rfl, rfl, given, by dsimp only; omega, by dsimp only; omega⟩
    · cases valid

theorem prepare_prepared {hashUsageEventId : String → String} {request : MeterRequest}
    {transaction : MeterScript MeterResponse}
    (prepared : prepare hashUsageEventId request = .ok transaction) :
    Prepared hashUsageEventId request transaction := by
  cases request with
  | createLicense id meters draw =>
      obtain ⟨valid, accepted, prepared⟩ := bind_ok.mp prepared
      cases prepared
      exact .createLicense id meters draw valid (validateMeters_bounded accepted)
  | updateLicense id meters listed draw =>
      obtain ⟨valid, accepted, prepared⟩ := bind_ok.mp prepared
      cases prepared
      refine .updateLicense id meters listed draw _ fun meter member => ?_
      exact validateMeters_bounded accepted meter (List.mem_of_mem_filter member)
  | createLicenseMeter id data draw =>
      obtain ⟨valid, accepted, prepared⟩ := bind_ok.mp prepared
      cases valid with
      | nil => cases prepared
      | cons meter rest =>
          cases prepared
          exact .createLicenseMeter id data draw meter
            (validateMeters_bounded accepted meter (by simp))
  | archiveLicenseMeter id name text licenseType draw =>
      obtain ⟨validName, -, prepared⟩ := bind_ok.mp prepared
      obtain ⟨validText, -, prepared⟩ := bind_ok.mp prepared
      cases prepared
      exact .archiveLicenseMeter id name text validName validText licenseType draw
  | topUpLicenseMeter id name units text draw =>
      obtain ⟨delta, accepted, prepared⟩ := bind_ok.mp prepared
      obtain ⟨validText, -, prepared⟩ := bind_ok.mp prepared
      obtain ⟨validName, -, prepared⟩ := bind_ok.mp prepared
      cases prepared
      have bounds := (validateInteger_bounds accepted).2
      have limit : maxLicenseLimit = 2147483647 := rfl
      exact .topUpLicenseMeter id name text validName validText units draw delta (by omega)
  | adjustLicenseMeter id name delta text draw =>
      obtain ⟨valid, accepted, prepared⟩ := bind_ok.mp prepared
      obtain ⟨validText, -, prepared⟩ := bind_ok.mp prepared
      obtain ⟨validName, -, prepared⟩ := bind_ok.mp prepared
      cases prepared
      exact .adjustLicenseMeter id name text validName validText delta draw valid
        (validateDelta_bounds accepted)
  | consume id input draw =>
      obtain ⟨valid, accepted, prepared⟩ := bind_ok.mp prepared
      cases prepared
      exact .consume id input draw valid accepted

section Service

variable {hashUsageEventId : String → String}

inductive Change (hashUsageEventId : String → String) (region : MeterRegion) :
    MeterRequest → MeterRegion → MeterResponse → Prop
  | operator (request : MeterRequest) (written : MeterRegion) (response : MeterResponse)
      (isOperator : ∀ id input draw, request ≠ .consume id input draw)
      (change : OperatorChange region written) :
      Change hashUsageEventId region request written response
  | usage (id : LicenseId) (input : ConsumeUsageInput) (draw : Draw) (request : UsageRequest)
      (written : MeterRegion) (result : UsageConsumptionResult)
      (valid : validateUsageInput input = .ok request)
      (consumption : Consumption request.meter request.units (hashUsageEventId request.eventId)
        region written result) :
      Change hashUsageEventId region (.consume id input draw) written (.consumption result)

theorem prepared_change {request : MeterRequest} {transaction : MeterScript MeterResponse}
    (prepared : Prepared hashUsageEventId request transaction) {region written : MeterRegion}
    {response : MeterResponse} (accounted : region.Accounted)
    (ran : transaction.run region = .ok (written, response)) :
    Change hashUsageEventId region request written response := by
  cases prepared with
  | createLicense id meters draw valid bounded =>
      obtain ⟨middle, result, outcome, ran⟩ := Script.run_bind_ok ran
      cases ran
      exact .operator _ _ _ (by simp) (createLicenseMeters_change outcome)
  | updateLicense id meters listed draw metersToCreate bounded =>
      obtain ⟨middle, result, outcome, ran⟩ := Script.run_bind_ok ran
      cases ran
      exact .operator _ _ _ (by simp) (insertNewMeters_change accounted outcome)
  | createLicenseMeter id data draw meter bounded =>
      obtain ⟨middle, result, outcome, ran⟩ := Script.run_bind_ok ran
      cases ran
      exact .operator _ _ _ (by simp) (createMeter_change accounted outcome)
  | archiveLicenseMeter id name text validName validText licenseType draw =>
      obtain ⟨middle, result, outcome, ran⟩ := Script.run_bind_ok ran
      cases ran
      exact .operator _ _ _ (by simp) (archiveMeter_change accounted outcome)
  | topUpLicenseMeter id name text validName validText units draw delta bounded =>
      obtain ⟨middle, result, outcome, ran⟩ := Script.run_bind_ok ran
      cases ran
      exact .operator _ _ _ (by simp) (adjustMeter_change accounted (by decide) (by decide) outcome)
  | adjustLicenseMeter id name text validName validText units draw delta bounded =>
      obtain ⟨middle, result, outcome, ran⟩ := Script.run_bind_ok ran
      cases ran
      exact .operator _ _ _ (by simp) (adjustMeter_change accounted (by decide) (by decide) outcome)
  | consume id input draw request valid =>
      obtain ⟨middle, result, outcome, ran⟩ := Script.run_bind_ok ran
      cases ran
      exact .usage id input draw request _ result valid (consumeMeter_spec accounted outcome)

theorem change_accounted {request : MeterRequest} {region written : MeterRegion}
    {response : MeterResponse} (accounted : region.Accounted)
    (change : Change hashUsageEventId region request written response) : written.Accounted := by
  cases change with
  | operator _ _ _ isOperator change => exact operatorChange_accounted accounted change
  | usage id input draw request written result valid consumption =>
      exact consumption_accounted accounted consumption

theorem prepared_inRange {request : MeterRequest} {transaction : MeterScript MeterResponse}
    (prepared : Prepared hashUsageEventId request transaction) {region : MeterRegion}
    (inRange : region.InRange) : transaction.Keeps InRange region := by
  have answered : ∀ {α : Type} {body : MeterScript α} (answer : α → MeterResponse),
      body.Keeps InRange region →
        (body >>= fun result => (pure (answer result) : MeterScript MeterResponse)).Keeps
          InRange region := by
    intro α body answer kept
    exact Script.keeps_bind _ _ _ _ kept fun middle result ran =>
      Script.keeps_run _ _ _ _ _ kept ran
  cases prepared with
  | createLicense id meters draw valid bounded =>
      exact answered _ (createLicenseMeters_inRange inRange bounded)
  | updateLicense id meters listed draw metersToCreate bounded =>
      exact answered _ (insertNewMeters_inRange inRange bounded)
  | createLicenseMeter id data draw meter bounded =>
      exact answered _ (createMeter_inRange inRange bounded)
  | archiveLicenseMeter id name text validName validText licenseType draw =>
      exact answered _ (archiveMeter_inRange inRange)
  | topUpLicenseMeter id name text validName validText units draw delta bounded =>
      exact answered _ (adjustMeter_inRange inRange bounded)
  | adjustLicenseMeter id name text validName validText units draw delta bounded =>
      exact answered _ (adjustMeter_inRange inRange bounded)
  | consume id input draw request valid =>
      obtain ⟨-, -, -, positive, limit⟩ := validateUsageInput_ok valid
      exact answered _ (consumeMeter_inRange inRange positive limit)

theorem meterService_change (request : MeterRequest) {region written : MeterRegion}
    {response : MeterResponse} (accounted : region.Accounted)
    (ran : ((meterService hashUsageEventId).body request).run region = .ok (written, response)) :
    Change hashUsageEventId region request written response := by
  simp only [meterService] at ran
  split at ran
  · next transaction prepared => exact prepared_change (prepare_prepared prepared) accounted ran
  · cases ran

theorem meterService_inRange (request : MeterRequest) {region : MeterRegion}
    (inRange : region.InRange) :
    ((meterService hashUsageEventId).body request).Keeps InRange region := by
  simp only [meterService]
  split
  · next transaction prepared => exact prepared_inRange (prepare_prepared prepared) inRange
  · exact inRange

abbrev MeterSystem := State LicenseId MeterRequest MeterRegion Failure MeterResponse

def emptyMeters : MeterSystem := ⟨fun _ => none, fun _ => none⟩

/-- The ledger law in every reachable state, with the range of every column,
also at each statement of a transaction that is still open. -/
theorem ledger_law {final : MeterSystem}
    {trace : List (MeterRequest × Outcome Failure MeterResponse)}
    (run : Run (meterService hashUsageEventId) emptyMeters trace final) (id : LicenseId) :
    (∀ table, final.committed id = some table → ∀ meter ∈ table.meters,
      LedgerLaw (table.entriesOf meter.id) meter.balance ∧
        ((table.entriesOf meter.id).map UsageLedgerEntry.delta).sum = meter.balance) ∧
      (final.committed id).InRange ∧
      ∀ opened, final.opened id = some opened → opened.view.InRange := by
  have empty : InRange none := ⟨by simp [MeterRegion.meters], by simp [MeterRegion.ledger]⟩
  have quiet : ∀ id, emptyMeters.opened id = none := fun id => rfl
  obtain ⟨serial, -⟩ := run_serial quiet run
  have accounted := serial.invariant (fun _ region => region.Accounted)
    (fun id table present => by cases present)
    (fun request region written response accounted ran =>
      change_accounted accounted (meterService_change request accounted ran))
  have inRange := serial.invariant (fun _ region => region.InRange) (fun id => empty)
    (fun request region written response inRange ran =>
      Script.keeps_run InRange _ _ _ _ (meterService_inRange request inRange) ran)
  have views := run_views (fun _ region => region.InRange) quiet (fun id => empty)
    (fun request region inRange => meterService_inRange request inRange) run
  refine ⟨?_, inRange id, ?_⟩
  · intro table present meter member
    have law := (accounted id table present).law meter member
    exact ⟨law, ledgerLaw_total law⟩
  · intro opened running
    exact Script.keeps_start _ _ _ (views id opened running)

end Service

def sampleLicense : LicenseId := ⟨"4f1c", by decide⟩

def sampleDraw (call : Char) : Draw :=
  ⟨0, fun index => String.ofList [call, Char.ofNat (48 + index)]⟩

def sampleCreation : MeterRequest × Outcome Failure MeterResponse :=
  (.createLicense sampleLicense [⟨" calls ", .integer 10, "plan"⟩] (sampleDraw 'a'),
    .committed .done)

def sampleUsage : MeterRequest × Outcome Failure MeterResponse :=
  (.consume sampleLicense ⟨"calls", .integer 3, "first"⟩ (sampleDraw 'b'),
    .committed (.consumption (.consumed ⟨"a0", sampleLicense, "calls", 7, none, 0, 0⟩
      ⟨"b0", sampleLicense, "a0", "first", .consume, -3, 10, 7, none, 0⟩)))

def sampleTable : MeterTable where
  meters := [⟨"a0", sampleLicense, "calls", 7, none, 0, 0⟩]
  ledger := [⟨"a1", sampleLicense, "a0", "operator:a2", .create, 10, 0, 10, some "plan", 0⟩,
    ⟨"b0", sampleLicense, "a0", "first", .consume, -3, 10, 7, none, 0⟩]

theorem sample_run : ∃ final : MeterSystem,
    Run (meterService id) emptyMeters [sampleCreation, sampleUsage] final ∧
      final.committed sampleLicense = some sampleTable := by
  have created : Serial (meterService id) (fun _ => none) [sampleCreation] _ :=
    .step .refl (.committed _ sampleCreation.1 _ _ (by with_unfolding_all rfl))
  have consumed : Serial (meterService id) (fun _ => none) [sampleCreation, sampleUsage] _ :=
    .step created (.committed _ sampleUsage.1 _ _ (by with_unfolding_all rfl))
  exact ⟨_, serial_run consumed, by with_unfolding_all rfl⟩

theorem ledger_law_sample :
    LedgerLaw (sampleTable.entriesOf "a0") 7 ∧
      ((sampleTable.entriesOf "a0").map UsageLedgerEntry.delta).sum = 7 := by
  obtain ⟨final, run, present⟩ := sample_run
  exact (ledger_law run sampleLicense).1 sampleTable present _ (List.mem_singleton.mpr rfl)

end Keyzori
