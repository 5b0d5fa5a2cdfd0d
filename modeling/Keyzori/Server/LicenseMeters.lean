import Keyzori.Meters.Archiving
import Keyzori.Server.SoundRuns

namespace Keyzori

open Interleaving MeterRegion

structure MetersFormed (data : LicenseData) : Prop where
  names : (data.meters.meters.map LicenseMeter.name).Nodup
  active : data.row.type = .metered → activeMeters (some data.meters) ≠ []

section Commits

variable {host : Host} {request : Request} {view : ServerView} {call : Nat} {id : LicenseId}
  {data : LicenseData} {now : Instant} {writes : List Write}

theorem region_read (sound : Sound view) {region : MeterRegion}
    (read : Under (view.trace call) (.meter id) (.query fun tables => tables.meters id) region)
    (stored : region.isSome) (present : view.world.tables.licenses id = some data) :
    region = some data.meters := by
  obtain ⟨old, past, same, sheltered⟩ := under_query sound read
  rw [same] at stored ⊢
  obtain ⟨table, found⟩ := Option.isSome_iff_exists.mp stored
  obtain ⟨stored, there, rfl⟩ := Option.map_eq_some_iff.mp found
  have known := past.consistent.tables.known id (by simp [there])
  obtain ⟨before, earlier, kept⟩ := sheltered data known present
  rw [Tables.meters, earlier, Option.map_some, kept]

theorem scripts_continue {trace : ServerTrace} {region : MeterRegion} {table : MeterTable}
    (distinct : (region.meters.map LicenseMeter.name).Nodup)
    (scripts : MeterScripts request trace id region table) :
    Continues (fun _ => True) region (some table) := by
  cases scripts with
  | create input name balance reason now meter asked first ran =>
      exact (createMeter_continues ran).mono fun _ _ => trivial
  | adjust name delta reason kind now result asked ran => exact (adjustMeter_continues ran).mono fun _ _ => trivial
  | consume name units eventIdHash now result asked ran => exact (consumeMeter_continues ran).mono fun _ _ => trivial
  | archive text reasonText name reason row now meter asked first locked ran =>
      exact (archiveMeter_continues distinct ran).mono fun _ _ => trivial

theorem scripts_region (sound : Sound view) {region : MeterRegion} {table : MeterTable}
    (read : Under (view.trace call) (.meter id) (.query fun tables => tables.meters id) region)
    (scripts : MeterScripts request (view.trace call) id region table)
    (present : view.world.tables.licenses id = some data) : region = some data.meters := by
  refine region_read sound read ?_ present
  cases region with
  | none =>
      have empty : ((MeterRegion.meters none).map LicenseMeter.name).Nodup := .nil
      exact (scripts_continue empty scripts).present.symm
  | some table => rfl

theorem scripts_active (sound : Sound view) {table : MeterTable} (formed : MetersFormed data)
    (scripts : MeterScripts request (view.trace call) id (some data.meters) table)
    (present : view.world.tables.licenses id = some data) (metered : data.row.type = .metered) :
    activeMeters (some table) ≠ [] := by
  have before := formed.active metered
  obtain ⟨meter, active⟩ := List.exists_mem_of_ne_nil _ before
  cases scripts with
  | create input name balance reason now meter asked first ran =>
      exact (createMeter_continues ran).active active not_false
  | adjust name delta reason kind now result asked ran => exact (adjustMeter_continues ran).active active not_false
  | consume name units eventIdHash now result asked ran => exact (consumeMeter_continues ran).active active not_false
  | archive text reasonText name reason row now meter asked first locked ran =>
      cases row with
      | none =>
          cases ran
          exact before
      | some row =>
          have same := (locked_row sound locked).2 data present
          refine archiveMeter_active ?_ ?_ before ran
          · exact formed.names
          · rw [Option.map_some, ← same, metered]

variable {data' : UpdateLicenseInput} {current : License} {row : StoredLicense} {update : LicenseUpdate}
  {link : Option StripeSubscriptionLink} {inserted statements : List Write}

theorem edits_meters
    (edits : Edits request (view.trace call) id data' current row update link inserted statements) :
    (applyWrites now (inserted ++ statements) data).meters = inserted.foldl Write.applyMeters data.meters ∧
      ((applyWrites now (inserted ++ statements) data).row.type = .metered →
        update.type = some .metered) := by
  obtain ⟨options, currentMeters, computed, branch, inserts⟩ := edits.computed
  obtain ⟨limits, config, newMeters, draw, -, -, -, -, rfl, -⟩ := computed.config
  rcases inserts_shape inserts with rfl | ⟨table, rfl⟩ <;> cases updateStatements_cases branch <;>
    exact ⟨rfl, fun metered => congrArg some metered⟩

theorem edits_metersFormed (sound : Sound view) (formed : MetersFormed data)
    (edits : Edits request (view.trace call) id data' current row update link inserted statements)
    (present : view.world.tables.licenses id = some data) :
    MetersFormed (applyWrites now (inserted ++ statements) data) ∧
      Continues (fun _ => True) (some data.meters)
        (some (applyWrites now (inserted ++ statements) data).meters) := by
  obtain ⟨meters, type⟩ := @edits_meters request view call id data now data' current row update link
    inserted statements edits
  obtain ⟨options, currentMeters, computed, branch, inserts⟩ := edits.computed
  have continues : Continues (fun _ => True) (some data.meters)
      (some (inserted.foldl Write.applyMeters data.meters)) := by
    cases inserts with
    | nothing => exact .refl _
    | missing => exact .refl _
    | inserted region table now read ran =>
        have went := insertNewMeters_continues ran
        obtain rfl := region_read sound read went.present.symm present
        exact went.mono fun _ _ => trivial
  rw [← meters] at continues
  refine ⟨⟨continues.names formed.names, fun metered => ?_⟩, continues⟩
  obtain ⟨region, read, active⟩ := edits.active (type metered)
  cases region with
  | none => exact absurd rfl active
  | some table =>
      obtain rfl := Option.some.inj (region_read sound read rfl present)
      rw [meters]
      exact active

theorem commits_metersFormed (sound : Sound view) (formed : MetersFormed data)
    (commits : Commits host request (view.trace call) id writes)
    (present : view.world.tables.licenses id = some data) :
    MetersFormed (applyWrites now writes data) ∧
      Continues (fun _ => True) (some data.meters) (some (applyWrites now writes data).meters) := by
  have kept : MetersFormed data ∧ Continues (fun _ => True) (some data.meters) (some data.meters) :=
    ⟨formed, .refl _⟩
  cases commits with
  | metered id region table read scripts =>
      obtain rfl := scripts_region sound read scripts present
      have distinct : ((MeterRegion.meters (some data.meters)).map LicenseMeter.name).Nodup :=
        formed.names
      have continues := scripts_continue distinct scripts
      have active := scripts_active sound formed scripts present
      exact ⟨⟨continues.names distinct, active⟩, continues⟩
  | edited id input current row update link inserted statements edits =>
      exact edits_metersFormed sound formed edits present
  | admitted binding license row started registered admitting starts registers =>
      cases starts <;> cases registers <;> exact ⟨⟨formed.names, formed.active⟩, kept.2⟩
  | removed id filter always count increment asked counted increments =>
      cases increments <;> exact ⟨⟨formed.names, formed.active⟩, kept.2⟩
  | reconciled subscriptionId existing locked id row fetched stamp reconciling type =>
      cases fetched.snapshot.paidThrough <;> exact ⟨⟨formed.names, formed.active⟩, kept.2⟩
  | allowed id write listed asked =>
      cases write <;> first | exact ⟨⟨formed.names, formed.active⟩, kept.2⟩ | cases listed
  | _ => exact ⟨⟨formed.names, formed.active⟩, kept.2⟩

theorem created_metersFormed {trace : ServerTrace} {new : NewLicense} {table : MeterTable}
    {keyHash keyPrefix : String} (creates : Creates request trace id new table) :
    MetersFormed ⟨insertedRow id keyHash keyPrefix new now, none, [], [], [], table⟩ := by
  obtain ⟨input, limits, config, meters, draw, -, -, made, rfl⟩ := creates.computed
  obtain ⟨draw', written, ran, rfl⟩ := creates.meters
  obtain ⟨stored, distinct, active⟩ := createLicenseMeters_active ran
  have region : written.1 = some (written.1.getD ⟨[], []⟩) := by
    obtain ⟨table, same⟩ := Option.isSome_iff_exists.mp stored
    rw [same, Option.getD_some]
  refine ⟨?_, fun metered => ?_⟩
  · rw [region] at distinct
    exact distinct
  · rw [← region]
    refine active fun none => ?_
    have type : input.type = .metered := metered
    simp only [AdminService.newLicense] at none
    simp [AdminService.createTypeConfig, type, none] at made

theorem lasting_meters (host : Host) : Lasting host MetersFormed where
  created _ _ _ creates := created_metersFormed creates
  committed _ sound formed commits present :=
    (commits_metersFormed sound (formed _ (.inl rfl) _ _ present) commits present).1
  relabelled _ _ _ formed := ⟨formed.names, formed.active⟩

end Commits

theorem moving_meters (host : Host) : Moving host MetersFormed fun old new =>
    Continues (fun _ => True) (some old.meters) (some new.meters) where
  refl _ := .refl _
  trans first second := first.trans second
  committed _ sound formed commits present :=
    (commits_metersFormed sound (formed _ (.inl rfl) _ _ present) commits present).2
  relabelled _ _ _ := .refl _

variable {host : Host} {now : Instant} {state : ServerState}

/-- A metered license has an active meter. Names of meters are unique, and a name
stands for one meter for good, which never comes back from the archive. -/
theorem metered_license (run : ServerRun host now state) :
    (∀ id data, state.view.world.tables.licenses id = some data →
        (data.row.type = .metered → ∃ meter ∈ data.meters.meters, meter.archivedAt = none) ∧
        (data.meters.meters.map LicenseMeter.name).Nodup) ∧
      ∀ event ∈ state.view.history, ∀ id old new, event.before.tables.licenses id = some old →
        state.view.world.tables.licenses id = some new → ∀ meter ∈ old.meters.meters,
          ∃ later ∈ new.meters.meters, later.id = meter.id ∧ later.name = meter.name ∧
            (meter.archivedAt.isSome → later.archivedAt = meter.archivedAt) ∧
            ∀ other ∈ new.meters.meters, other.name = meter.name → other = later := by
  have formed := server_run_throughout (lasting_meters host) run
  constructor
  · intro id data present
    have holds := formed _ (.inl rfl) id data present
    refine ⟨fun metered => ?_, holds.names⟩
    obtain ⟨meter, member⟩ := List.exists_mem_of_ne_nil _ (holds.active metered)
    obtain ⟨listed, active⟩ := List.mem_filter.mp member
    exact ⟨meter, listed, by simpa using active⟩
  · intro event member id old new present later meter listed
    have continues := event_moving (lasting_meters host) (moving_meters host) run member present later
    obtain ⟨found, there, sameId, sameName, archived⟩ := continues.kept meter listed
    refine ⟨found, there, sameId, sameName, fun gone => ?_, fun other among named => ?_⟩
    · rcases archived with same | ⟨-, active⟩
      · exact same
      · rw [active] at gone
        cases gone
    · have names := (formed _ (.inl rfl) id new later).names
      exact List.inj_on_of_nodup_map names among there (named.trans sameName.symm)

/-- A metered license with two meters, of which one gets archived. -/
def meteredSample : List (Choice Input Move Request) :=
  sampleCall 0 (.createCustomer "customer") 0 2 ++
    sampleCall 1 (.createLicense
      { customerId := "customer", type := .metered
        meters := some [⟨"calls", .integer 5, "start"⟩, ⟨"bytes", .integer 7, "start"⟩] }) 1 7 ++
      sampleCall 2 (.archiveLicenseMeter sampleId "bytes" "done") 2 11

theorem metered_license_sample : ∃ state data, ServerRun sampleHost 0 state ∧
    state.view.world.tables.licenses sampleId = some data ∧ data.row.type = .metered ∧
      data.meters.meters.map (fun meter => meter.archivedAt) = [none, some 2] ∧
      ∃ meter ∈ data.meters.meters, meter.archivedAt = none := by
  obtain ⟨state, run, holds⟩ := @sampled_run meteredSample
    (fun state => (state.view.world.tables.licenses sampleId).any fun data =>
      data.row.type = .metered ∧
        data.meters.meters.map (fun meter => meter.archivedAt) = [none, some 2]) (by decide +kernel)
  obtain ⟨data, present, holds⟩ := (Option.any_eq_true _ _).mp holds
  obtain ⟨metered, archived⟩ := of_decide_eq_true holds
  exact ⟨state, data, run, present, metered, archived,
    ((metered_license run).1 sampleId data present).1 metered⟩

end Keyzori
