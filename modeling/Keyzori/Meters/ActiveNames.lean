import Keyzori.Meters.Archiving

namespace Keyzori

open LockedTransactions MeterRegion

namespace MeterRegion

def labels (region : MeterRegion) : List (String × Option Instant) :=
  region.meters.map fun meter => (meter.name, meter.archivedAt)

def activeNames (region : MeterRegion) : List String := region.activeMeters.map LicenseMeter.name

theorem activeNames_labels (region : MeterRegion) : region.activeNames =
    (region.labels.filter fun label => label.2.isNone).map Prod.fst := by
  simp only [activeNames, activeMeters, labels, List.filter_map, List.map_map]
  rfl

theorem labels_names {first second : MeterRegion} (same : first.labels = second.labels) :
    first.activeNames = second.activeNames := by
  rw [activeNames_labels, same, ← activeNames_labels]

section Statements

variable {region written : MeterRegion}

theorem labels_insertLedgerEntry {entry inserted : UsageLedgerEntry}
    (ran : insertLedgerEntry entry region = .ok (written, inserted)) : written.labels = region.labels := by
  obtain ⟨table, rfl, -, rfl, -⟩ := insertLedgerEntry_ok ran
  rfl

theorem labels_updateMeters {chosen : LicenseMeter → Bool} {set : LicenseMeter → LicenseMeter}
    {rows : List LicenseMeter}
    (keeps : ∀ meter, (set meter).name = meter.name ∧ (set meter).archivedAt = meter.archivedAt)
    (ran : updateMeters chosen set region = .ok (written, rows)) : written.labels = region.labels := by
  cases ran
  cases region with
  | none => rfl
  | some table =>
      change (table.meters.map fun meter => if chosen meter then set meter else meter).map _ = _
      rw [List.map_map]
      refine List.map_congr_left fun meter _ => ?_
      simp only [Function.comp]
      split
      · rw [(keeps meter).1, (keeps meter).2]
      · rfl

theorem activeNames_insertMeter {meter inserted : LicenseMeter} (active : meter.archivedAt = none)
    (ran : insertMeter meter region = .ok (written, inserted)) :
    inserted = meter ∧ written.meters = region.meters ++ [meter] ∧
      written.activeNames = region.activeNames ++ [meter.name] := by
  obtain ⟨table, rfl, rfl, rfl, -⟩ := insertMeter_ok ran
  refine ⟨rfl, rfl, ?_⟩
  simp [activeNames, activeMeters, meters, active]

end Statements

end MeterRegion

section Scripts

variable {id : LicenseId} {name text : String} {draw : Draw} {region written : MeterRegion}

theorem consumeMeter_labels {eventIdHash : String} {units : Int} {result : UsageConsumptionResult}
    (ran : (consumeMeter id name units eventIdHash draw).run region = .ok (written, result)) :
    written.labels = region.labels := by
  refine Script.keeps_run (fun kept => kept.labels = region.labels) _ region written result ?_ ran
  refine Script.keeps_bind _ _ _ _ ((Script.keeps_query ..).mpr rfl) fun view found ran => ?_
  cases ran
  split
  · split
    · exact rfl
    · exact rfl
  · refine Script.keeps_bind _ _ _ _ ((Script.keeps_query ..).mpr rfl) fun view lookup ran => ?_
    cases ran
    split
    · exact rfl
    · split
      · exact rfl
      · exact keeps_guarded rfl (fun _ _ => labels_updateMeters fun _ => ⟨rfl, rfl⟩)
          (fun _ _ _ _ same ran => (labels_insertLedgerEntry ran).trans same) fun _ same => same

theorem adjustMeter_labels {delta : Int} {kind : MeterLedgerKind} {result : MeterAdjustmentResult}
    (ran : (adjustMeter id name delta text kind draw).run region = .ok (written, result)) :
    written.labels = region.labels := by
  refine Script.keeps_run (fun kept => kept.labels = region.labels) _ region written result ?_ ran
  refine Script.keeps_bind _ _ _ _ ((Script.keeps_query ..).mpr rfl) fun view lookup ran => ?_
  cases ran
  split
  · exact rfl
  · split
    · exact rfl
    · exact keeps_guarded rfl (fun _ _ => labels_updateMeters fun _ => ⟨rfl, rfl⟩)
        (fun _ _ _ _ same ran => (labels_insertLedgerEntry ran).trans same) fun _ same => same

/-- After new meters the active names are those from before and the new ones. -/
theorem insertNewMetersFrom_names {meters : List NewLicenseMeter} {index : Nat}
    {existing : List LicenseMeter} {result : Unit}
    (known : ∀ meter ∈ existing, meter ∈ region.meters)
    (ran : (insertNewMetersFrom id draw index meters existing).run region = .ok (written, result))
    (other : String) : other ∈ written.activeNames ↔
      other ∈ region.activeNames ∨ other ∈ meters.map NewLicenseMeter.name := by
  induction meters generalizing index existing region with
  | nil =>
      cases ran
      simp
  | cons meter meters ih =>
      simp only [insertNewMetersFrom] at ran
      split at ran
      · next stored found =>
        split at ran
        · cases ran
        · next kept =>
          rw [ih known ran]
          have active : stored ∈ region.activeMeters := by
            refine List.mem_filter.mpr ⟨known stored (List.mem_of_find?_eq_some found), ?_⟩
            rw [not_or] at kept
            simpa using kept.1
          have name : stored.name = meter.name := by simpa using List.find?_some found
          have listed : meter.name ∈ region.activeNames := name ▸ List.mem_map_of_mem active
          rw [List.map_cons, List.mem_cons]
          refine ⟨fun either => either.imp_right .inr, fun either => ?_⟩
          rcases either with old | rfl | new
          · exact .inl old
          · exact .inl listed
          · exact .inr new
      · obtain ⟨middle, row, inserted, ran⟩ := Script.run_bind_ok ran
        rw [Script.run_execute] at inserted
        obtain ⟨final, entry, posted, ran⟩ := Script.run_bind_ok ran
        rw [Script.run_execute] at posted
        obtain ⟨rfl, rows, names⟩ := activeNames_insertMeter rfl inserted
        have same := labels_names (labels_insertLedgerEntry posted)
        obtain ⟨table, rfl, -, rfl, -⟩ := insertLedgerEntry_ok posted
        rw [ih ?_ ran, same, names, List.map_cons, List.mem_append, List.mem_singleton, List.mem_cons,
          or_assoc]
        intro stored member
        change stored ∈ table.meters
        have all : table.meters = region.meters ++ _ := rows
        rw [all, List.mem_append, List.mem_singleton]
        exact (List.mem_cons.mp member).symm.imp_left (known stored)

theorem insertNewMeters_names {meters : List NewLicenseMeter} {result : Unit}
    (ran : (insertNewMeters id meters draw).run region = .ok (written, result)) (other : String) :
    other ∈ written.activeNames ↔
      other ∈ region.activeNames ∨ other ∈ meters.map NewLicenseMeter.name := by
  simp only [insertNewMeters] at ran
  split at ran
  · next empty =>
    cases ran
    simp [List.isEmpty_iff.mp empty]
  · obtain ⟨middle, existing, found, ran⟩ := Script.run_bind_ok ran
    cases found
    exact insertNewMetersFrom_names (fun meter member => List.mem_reverse.mp member) ran other

theorem created_names {meters : List NewLicenseMeter} {table : MeterTable}
    (rows : table.meters = (meters.mapIdx fun index meter =>
      (meter, ({ id := draw.uuid (3 * index), licenseId := id, name := meter.name,
                 balance := meter.balance, archivedAt := none, createdAt := draw.now,
                 updatedAt := draw.now } : LicenseMeter))).map Prod.snd) :
    activeNames (some table) = meters.map NewLicenseMeter.name := by
  have labelled : labels (some table) = meters.map fun meter => (meter.name, none) := by
    change table.meters.map _ = _
    rw [rows]
    refine List.ext_getElem (by simp) fun index _ _ => ?_
    simp
  rw [activeNames_labels, labelled]
  simp [List.filter_map, Function.comp_def]

theorem createLicenseMeters_names {meters : List NewLicenseMeter} {result : Unit}
    (ran : (createLicenseMeters id meters draw).run region = .ok (written, result)) :
    written.activeNames = meters.map NewLicenseMeter.name := by
  obtain ⟨middle, _, created, ran⟩ := Script.run_bind_ok ran
  rw [Script.run_execute] at created
  split at created
  · cases created
  · cases created
    split at ran
    · next empty =>
      cases ran
      rw [List.isEmpty_iff.mp empty]
      rfl
    · obtain ⟨middle, inserted, outcome, ran⟩ := Script.run_bind_ok ran
      rw [Script.run_execute] at outcome
      obtain ⟨rfl, -⟩ := insertRows_meters outcome
      obtain ⟨final, posted, outcome, ran⟩ := Script.run_bind_ok ran
      rw [Script.run_execute] at outcome
      obtain ⟨rfl, -⟩ := insertRows_ledger outcome
      cases ran
      exact created_names rfl

end Scripts

end Keyzori
