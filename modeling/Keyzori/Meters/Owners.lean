import Keyzori.Meters.Archiving

namespace Keyzori

open LockedTransactions MeterRegion

namespace MeterRegion

structure Owned (id : LicenseId) (region : MeterRegion) : Prop where
  meters : ∀ meter ∈ region.meters, meter.licenseId = id
  entries : ∀ entry ∈ region.ledger, entry.licenseId = id

section Statements

variable {id : LicenseId} {region written : MeterRegion}

theorem owned_empty : Owned id (some ⟨[], []⟩) := ⟨List.forall_mem_nil _, List.forall_mem_nil _⟩

theorem owned_insertMeter {meter inserted : LicenseMeter} (owned : region.Owned id) (own : meter.licenseId = id)
    (ran : insertMeter meter region = .ok (written, inserted)) : written.Owned id := by
  obtain ⟨table, rfl, rfl, rfl, -⟩ := insertMeter_ok ran
  exact ⟨List.forall_mem_append.mpr ⟨owned.meters, List.forall_mem_singleton.mpr own⟩, owned.entries⟩

theorem owned_insertLedgerEntry {entry inserted : UsageLedgerEntry} (owned : region.Owned id)
    (own : entry.licenseId = id) (ran : insertLedgerEntry entry region = .ok (written, inserted)) :
    written.Owned id := by
  obtain ⟨table, rfl, rfl, rfl, -⟩ := insertLedgerEntry_ok ran
  exact ⟨owned.meters, List.forall_mem_append.mpr ⟨owned.entries, List.forall_mem_singleton.mpr own⟩⟩

theorem owned_updateMeters {chosen : LicenseMeter → Bool} {set : LicenseMeter → LicenseMeter}
    {rows : List LicenseMeter} (owned : region.Owned id)
    (keeps : ∀ meter, (set meter).licenseId = meter.licenseId)
    (ran : updateMeters chosen set region = .ok (written, rows)) : written.Owned id := by
  cases ran
  cases region with
  | none => exact owned
  | some table =>
      refine ⟨fun stored member => ?_, owned.entries⟩
      obtain ⟨original, listed, rfl⟩ := List.mem_map.mp member
      split
      · exact (keeps original).trans (owned.meters original listed)
      · exact owned.meters original listed

theorem keeps_owned {α : Type} {chosen : LicenseMeter → Bool} {set : LicenseMeter → LicenseMeter}
    {row : LicenseMeter → UsageLedgerEntry} {answer : LicenseMeter → UsageLedgerEntry → α}
    {otherwise : MeterScript α} (owned : region.Owned id)
    (keeps : ∀ meter, (set meter).licenseId = meter.licenseId) (own : ∀ meter, (row meter).licenseId = id)
    (unchanged : ∀ written : MeterRegion, written.Owned id → otherwise.Keeps (Owned id) written) :
    (Script.execute (updateMeters chosen set) >>= fun rows =>
      match rows.head? with
      | none => otherwise
      | some updated =>
          Script.execute (insertLedgerEntry (row updated)) >>= fun entry =>
            (pure (answer updated entry) : MeterScript α)).Keeps (Owned id) region :=
  keeps_guarded owned (fun _ _ => owned_updateMeters owned keeps)
    (fun _ _ meter _ kept ran => owned_insertLedgerEntry kept (own meter) ran) unchanged

end Statements

end MeterRegion

section Scripts

variable {id : LicenseId} {name text : String} {draw : Draw} {region written : MeterRegion}

theorem createMeter_owned {balance : Int} {result : LicenseMeter} (owned : region.Owned id)
    (ran : (createMeter id name balance text draw).run region = .ok (written, result)) : written.Owned id := by
  obtain ⟨middle, meter, inserted, ran⟩ := Script.run_bind_ok ran
  rw [Script.run_execute] at inserted
  obtain ⟨final, entry, posted, ran⟩ := Script.run_bind_ok ran
  rw [Script.run_execute] at posted
  cases ran
  exact owned_insertLedgerEntry (owned_insertMeter owned rfl inserted) rfl posted

theorem consumeMeter_owned {eventIdHash : String} {units : Int} {result : UsageConsumptionResult}
    (owned : region.Owned id)
    (ran : (consumeMeter id name units eventIdHash draw).run region = .ok (written, result)) : written.Owned id := by
  refine Script.keeps_run _ _ region written result ?_ ran
  refine Script.keeps_bind _ _ _ _ ((Script.keeps_query ..).mpr owned) fun view found ran => ?_
  cases ran
  split
  · split <;> exact owned
  · refine Script.keeps_bind _ _ _ _ ((Script.keeps_query ..).mpr owned) fun view lookup ran => ?_
    cases ran
    split
    · exact owned
    · split
      · exact owned
      · exact keeps_owned owned (fun _ => rfl) (fun _ => rfl) fun _ kept => kept

theorem adjustMeter_owned {delta : Int} {kind : MeterLedgerKind} {result : MeterAdjustmentResult}
    (owned : region.Owned id)
    (ran : (adjustMeter id name delta text kind draw).run region = .ok (written, result)) : written.Owned id := by
  refine Script.keeps_run _ _ region written result ?_ ran
  refine Script.keeps_bind _ _ _ _ ((Script.keeps_query ..).mpr owned) fun view lookup ran => ?_
  cases ran
  split
  · exact owned
  · split
    · exact owned
    · exact keeps_owned owned (fun _ => rfl) (fun _ => rfl) fun _ kept => kept

theorem archiveMeter_owned {licenseType : Option LicenseType} {result : Option LicenseMeter}
    (owned : region.Owned id)
    (ran : (archiveMeter id name text licenseType draw).run region = .ok (written, result)) : written.Owned id := by
  cases licenseType with
  | none =>
      cases ran
      exact owned
  | some type =>
      refine Script.keeps_run _ _ region written result ?_ ran
      refine Script.keeps_bind _ _ _ _ ((Script.keeps_query ..).mpr owned) fun view active ran => ?_
      cases ran
      dsimp only
      split
      · exact owned
      · exact keeps_owned owned (fun _ => rfl) (fun _ => rfl) fun _ kept => (Script.keeps_query ..).mpr kept

theorem insertNewMetersFrom_owned {meters : List NewLicenseMeter} {index : Nat} {existing : List LicenseMeter}
    {result : Unit} (owned : region.Owned id)
    (ran : (insertNewMetersFrom id draw index meters existing).run region = .ok (written, result)) :
    written.Owned id := by
  induction meters generalizing index existing region with
  | nil =>
      cases ran
      exact owned
  | cons meter meters ih =>
      simp only [insertNewMetersFrom] at ran
      split at ran
      · split at ran
        · cases ran
        · exact ih owned ran
      · obtain ⟨middle, row, inserted, ran⟩ := Script.run_bind_ok ran
        rw [Script.run_execute] at inserted
        obtain ⟨final, entry, posted, ran⟩ := Script.run_bind_ok ran
        rw [Script.run_execute] at posted
        exact ih (owned_insertLedgerEntry (owned_insertMeter owned rfl inserted) rfl posted) ran

theorem insertNewMeters_owned {meters : List NewLicenseMeter} {result : Unit} (owned : region.Owned id)
    (ran : (insertNewMeters id meters draw).run region = .ok (written, result)) : written.Owned id := by
  simp only [insertNewMeters] at ran
  split at ran
  · cases ran
    exact owned
  · obtain ⟨middle, existing, found, ran⟩ := Script.run_bind_ok ran
    cases found
    exact insertNewMetersFrom_owned owned ran

theorem createLicenseMeters_owned {meters : List NewLicenseMeter} {result : Unit}
    (ran : (createLicenseMeters id meters draw).run region = .ok (written, result)) : written.Owned id := by
  obtain ⟨middle, _, created, ran⟩ := Script.run_bind_ok ran
  rw [Script.run_execute] at created
  split at created
  · cases created
  · cases created
    split at ran
    · cases ran
      exact owned_empty
    · obtain ⟨middle, inserted, outcome, ran⟩ := Script.run_bind_ok ran
      rw [Script.run_execute] at outcome
      obtain ⟨final, posted, entries, ran⟩ := Script.run_bind_ok ran
      rw [Script.run_execute] at entries
      cases ran
      have opened : middle.Owned id := by
        refine insertRows_keeps (fun row region written inserted => owned_insertMeter) owned_empty ?_ outcome
        intro row member
        obtain ⟨stored, listed, rfl⟩ := List.mem_map.mp member
        obtain ⟨index, bound, rfl⟩ := List.mem_mapIdx.mp listed
        rfl
      refine insertRows_keeps (fun row region written inserted => owned_insertLedgerEntry) opened ?_ entries
      intro entry member
      obtain ⟨index, bound, rfl⟩ := List.mem_mapIdx.mp member
      rfl

end Scripts

end Keyzori
