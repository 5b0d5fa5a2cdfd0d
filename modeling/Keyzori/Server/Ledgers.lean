import Keyzori.Server.LicenseMeters

namespace Keyzori

open Interleaving LockedTransactions MeterRegion MeterTable

section Regions

variable {region written : MeterRegion}

theorem opening_extends {rows : List (LicenseMeter × UsageLedgerEntry)} {table opened : MeterTable}
    (opening : Opening rows table opened) : table.ledger <+: opened.ledger :=
  ⟨rows.map Prod.snd, opening.ledger.symm⟩

theorem operatorChange_extends (change : OperatorChange region written) :
    region.ledger <+: written.ledger := by
  cases change with
  | unchanged => exact List.prefix_refl _
  | posted table meter changed entry => exact List.prefix_append _ _
  | created opened rows opening => exact opening_extends opening
  | opened table opened rows opening => exact opening_extends opening

theorem consumption_extends {name eventIdHash : String} {units : Int} {result : UsageConsumptionResult}
    (consumption : Consumption name units eventIdHash region written result) :
    region.ledger <+: written.ledger := by
  cases consumption with
  | consumed table meter changed entry present =>
      subst present
      exact List.prefix_append _ _
  | _ => exact List.prefix_refl _

/-- What a meter transaction leaves of the ledger that it found. -/
structure Booked (region written : MeterRegion) : Prop where
  accounted : written.Accounted
  inRange : written.InRange
  extended : region.ledger <+: written.ledger

theorem operatorChange_booked (accounted : region.Accounted) (inRange : written.InRange)
    (change : OperatorChange region written) : Booked region written where
  accounted := operatorChange_accounted accounted change
  inRange := inRange
  extended := operatorChange_extends change

theorem scripts_booked {request : Request} {trace : ServerTrace} {id : LicenseId} {table : MeterTable}
    (accounted : region.Accounted) (inRange : region.InRange)
    (scripts : MeterScripts request trace id region table) : Booked region (some table) := by
  cases scripts with
  | create input name balance reason now meter asked first ran bounded =>
      refine operatorChange_booked accounted ?_ (createMeter_change accounted ran)
      exact Script.keeps_run _ _ _ _ _ (createMeter_inRange inRange bounded) ran
  | archive text reasonText name reason row now meter asked first locked ran =>
      refine operatorChange_booked accounted ?_ (archiveMeter_change accounted ran)
      exact Script.keeps_run _ _ _ _ _ (archiveMeter_inRange inRange) ran
  | adjust name delta reason kind now result asked ran posted bounded =>
      refine operatorChange_booked accounted ?_ (adjustMeter_change accounted posted.1 posted.2 ran)
      exact Script.keeps_run _ _ _ _ _ (adjustMeter_inRange inRange bounded) ran
  | consume name units eventIdHash now result asked ran bounded =>
      have consumption := consumeMeter_spec accounted ran
      refine ⟨consumption_accounted accounted consumption, ?_, consumption_extends consumption⟩
      exact Script.keeps_run _ _ _ _ _ (consumeMeter_inRange inRange bounded.1 bounded.2) ran

end Regions

structure Ledgered (data : LicenseData) : Prop where
  accounted : data.meters.Accounted
  inRange : InRange (some data.meters)

theorem ledgered_region {data : LicenseData} (ledgered : Ledgered data) :
    MeterRegion.Accounted (some data.meters) := by
  intro table same
  exact Option.some.inj same ▸ ledgered.accounted

theorem booked_ledgered {data new : LicenseData} (booked : Booked (some data.meters) (some new.meters)) :
    Ledgered new :=
  ⟨booked.accounted _ rfl, booked.inRange⟩

theorem ledgered_booked {data : LicenseData} (ledgered : Ledgered data) :
    Booked (some data.meters) (some data.meters) :=
  ⟨ledgered_region ledgered, ledgered.inRange, List.prefix_refl _⟩

section Commits

variable {host : Host} {request : Request} {view : ServerView} {call : Nat} {id : LicenseId}
  {data : LicenseData} {now : Instant} {writes : List Write}

theorem edits_booked {input : UpdateLicenseInput} {current : License} {row : StoredLicense}
    {update : LicenseUpdate} {link : Option StripeSubscriptionLink} {inserted statements : List Write}
    (sound : Sound view) (ledgered : Ledgered data)
    (edits : Edits request (view.trace call) id input current row update link inserted statements)
    (present : view.world.tables.licenses id = some data) :
    Booked (some data.meters) (some (applyWrites now (inserted ++ statements) data).meters) := by
  obtain ⟨meters, -⟩ := @edits_meters request view call id data now input current row update link
    inserted statements edits
  obtain ⟨options, currentMeters, computed, branch, inserts⟩ := edits.computed
  rw [meters]
  cases inserts with
  | nothing | missing => exact ledgered_booked ledgered
  | inserted region table now read ran =>
      obtain rfl := region_read sound read (insertNewMeters_continues ran).present.symm present
      have accounted := ledgered_region ledgered
      refine operatorChange_booked accounted ?_ (insertNewMeters_change accounted ran)
      exact Script.keeps_run _ _ _ _ _ (insertNewMeters_inRange ledgered.inRange computed.bounded) ran

theorem commits_booked (sound : Sound view) (ledgered : Ledgered data)
    (commits : Commits host request (view.trace call) id writes)
    (present : view.world.tables.licenses id = some data) :
    Booked (some data.meters) (some (applyWrites now writes data).meters) := by
  have kept := ledgered_booked ledgered
  cases commits with
  | metered id region table read scripts =>
      obtain rfl := scripts_region sound read scripts present
      exact scripts_booked (ledgered_region ledgered) ledgered.inRange scripts
  | edited id input current row update link inserted statements edits =>
      exact edits_booked sound ledgered edits present
  | admitted binding license row started registered admitting starts registers =>
      cases starts <;> cases registers <;> exact kept
  | removed id filter always count increment asked counted increments =>
      cases increments <;> exact kept
  | reconciled subscriptionId existing locked id row fetched stamp reconciling type =>
      cases fetched.snapshot.paidThrough <;> exact kept
  | allowed id write listed asked =>
      cases write <;> first | exact kept | cases listed
  | _ => exact kept

theorem created_ledgered {trace : ServerTrace} {new : NewLicense} {table : MeterTable}
    {keyHash keyPrefix : String} (creates : Creates request trace id new table) :
    Ledgered ⟨insertedRow id keyHash keyPrefix new now, none, [], [], [], table⟩ := by
  obtain ⟨input, limits, config, meters, draw, -, valid, -, rfl⟩ := creates.computed
  obtain ⟨draw', written, ran, rfl⟩ := creates.meters
  have none : InRange none := ⟨by simp [MeterRegion.meters], by simp [MeterRegion.ledger]⟩
  have inRange : written.1.InRange :=
    Script.keeps_run _ _ _ _ _ (createLicenseMeters_inRange none (validateMeters_bounded valid)) ran
  have accounted : written.1.Accounted :=
    operatorChange_accounted (fun table present => by cases present) (createLicenseMeters_change ran)
  obtain ⟨region, result⟩ := written
  cases region with
  | none => exact ⟨accounted_empty, ⟨by simp [MeterRegion.meters], by simp [MeterRegion.ledger]⟩⟩
  | some table => exact ⟨accounted table rfl, inRange⟩

theorem lasting_ledgers (host : Host) : Lasting host Ledgered where
  created _ _ _ creates := created_ledgered creates
  committed _ sound ledgered commits present :=
    booked_ledgered (commits_booked sound (ledgered _ (.inl rfl) _ _ present) commits present)
  relabelled _ _ _ ledgered := ⟨ledgered.accounted, ledgered.inRange⟩

theorem moving_ledgers (host : Host) : Moving host Ledgered fun old new =>
    old.meters.ledger <+: new.meters.ledger where
  refl _ := List.prefix_refl _
  trans first second := first.trans second
  committed _ sound ledgered commits present :=
    (commits_booked sound (ledgered _ (.inl rfl) _ _ present) commits present).extended
  relabelled _ _ _ := List.prefix_refl _

end Commits

theorem balance_moved {old new : MeterTable} (before : old.Accounted) (after : new.Accounted)
    {added : List UsageLedgerEntry} (grown : new.ledger = old.ledger ++ added) {meter later : LicenseMeter}
    (member : meter ∈ old.meters) (still : later ∈ new.meters) (same : later.id = meter.id) :
    later.balance = meter.balance +
      ((added.filter fun entry => entry.meterId = meter.id).map UsageLedgerEntry.delta).sum := by
  have first := ledgerLaw_total (before.law meter member)
  have last := ledgerLaw_total (after.law later still)
  have entries : new.entriesOf later.id =
      old.entriesOf meter.id ++ added.filter fun entry => entry.meterId = meter.id := by
    rw [same, entriesOf, entriesOf, grown, List.filter_append]
  calc later.balance
      = ((new.entriesOf later.id).map UsageLedgerEntry.delta).sum := last.symm
    _ = ((old.entriesOf meter.id).map UsageLedgerEntry.delta).sum +
          ((added.filter fun entry => entry.meterId = meter.id).map UsageLedgerEntry.delta).sum := by
        rw [entries, List.map_append, List.sum_append]
    _ = _ := by rw [first]

variable {host : Host} {now : Instant} {state : ServerState}

/-- Every balance is the sum of its ledger and within the column's range, in every
state of every run. The ledger is only appended to, and a balance moves by
exactly what the entries added for its meter say. -/
theorem ledgers_grow (run : ServerRun host now state) :
    (∀ id data, state.view.world.tables.licenses id = some data →
        (∀ meter ∈ data.meters.meters, MeterRegion.Bounded meter.balance ∧
          LedgerLaw (data.meters.entriesOf meter.id) meter.balance) ∧
        (∀ entry ∈ data.meters.ledger, Columns entry ∧
          ∃ meter ∈ data.meters.meters, meter.id = entry.meterId) ∧
        (data.meters.ledger.map UsageLedgerEntry.eventId).Nodup) ∧
      ∀ event ∈ state.view.history, ∀ id old new, event.before.tables.licenses id = some old →
        state.view.world.tables.licenses id = some new → ∃ added,
          new.meters.ledger = old.meters.ledger ++ added ∧
            ∀ meter ∈ old.meters.meters, ∃ later ∈ new.meters.meters, later.id = meter.id ∧
              later.balance = meter.balance +
                ((added.filter fun entry => entry.meterId = meter.id).map UsageLedgerEntry.delta).sum := by
  have ledgered := server_run_throughout (lasting_ledgers host) run
  constructor
  · intro id data present
    have ⟨accounted, inRange⟩ := ledgered _ (.inl rfl) id data present
    refine ⟨fun meter member => ?_, fun entry member => ?_, accounted.events⟩
    · exact ⟨inRange.balance meter member, accounted.law meter member⟩
    · exact ⟨inRange.columns entry member, accounted.owned entry member⟩
  · intro event member id old new present later
    obtain ⟨added, grown⟩ := event_moving (lasting_ledgers host) (moving_ledgers host) run member present later
    have continues := event_moving (lasting_meters host) (moving_meters host) run member present later
    have before := ledgered event.before (.inr ⟨event, member, rfl⟩) id old present
    have after := ledgered _ (.inl rfl) id new later
    refine ⟨added, grown.symm, fun meter listed => ?_⟩
    obtain ⟨found, there, same, -⟩ := continues.kept meter listed
    exact ⟨found, there, same, balance_moved before.accounted after.accounted grown.symm listed there same⟩

def toppedUpSample : List (Choice Input Move Request) :=
  meteredSample ++ sampleCall 3 (.topUpLicenseMeter sampleId "calls" (.integer 2) "more") 3 6

def movedBalances (old new : Option LicenseData) (first second : List Int) : Bool :=
  old.any (fun data => data.meters.meters.map LicenseMeter.balance = first) &&
    new.any fun data => data.meters.meters.map LicenseMeter.balance = second

theorem ledgers_grow_sample : ∃ state old new, ServerRun sampleHost 0 state ∧
    (∃ event ∈ state.view.history, event.before.tables.licenses sampleId = some old) ∧
    state.view.world.tables.licenses sampleId = some new ∧
    old.meters.meters.map LicenseMeter.balance = [5, 7] ∧
    new.meters.meters.map LicenseMeter.balance = [7, 7] ∧
    ∃ added, new.meters.ledger = old.meters.ledger ++ added ∧
      ∀ meter ∈ old.meters.meters, ∃ later ∈ new.meters.meters, later.id = meter.id ∧
        later.balance = meter.balance +
          ((added.filter fun entry => entry.meterId = meter.id).map UsageLedgerEntry.delta).sum := by
  obtain ⟨state, run, holds⟩ := @sampled_run toppedUpSample (fun state => state.view.history.any fun event =>
    movedBalances (event.before.tables.licenses sampleId) (state.view.world.tables.licenses sampleId)
      [5, 7] [7, 7]) (by decide +kernel)
  obtain ⟨event, member, moved⟩ := List.any_eq_true.mp holds
  obtain ⟨before, after⟩ := (Bool.and_eq_true _ _).mp moved
  obtain ⟨old, present, first⟩ := (Option.any_eq_true _ _).mp before
  obtain ⟨new, later, second⟩ := (Option.any_eq_true _ _).mp after
  exact ⟨state, old, new, run, ⟨event, member, present⟩, later, of_decide_eq_true first,
    of_decide_eq_true second, (ledgers_grow run).2 event member sampleId old new present later⟩

end Keyzori
