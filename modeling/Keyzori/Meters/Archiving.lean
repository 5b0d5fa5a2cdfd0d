import Keyzori.Meters.Transactions

namespace Keyzori

open LockedTransactions MeterRegion

namespace MeterRegion

/-- The meters of the first region in the second. A meter whose name is not
`archivable` is as archived as it was. -/
structure Continues (archivable : String → Prop) (old region : MeterRegion) : Prop where
  present : region.isSome = old.isSome
  kept : ∀ meter ∈ old.meters, ∃ later ∈ region.meters, later.id = meter.id ∧
    later.name = meter.name ∧ (later.archivedAt = meter.archivedAt ∨
      archivable meter.name ∧ meter.archivedAt = none)
  names : (old.meters.map LicenseMeter.name).Nodup → (region.meters.map LicenseMeter.name).Nodup

section Statements

variable {archivable : String → Prop} {old region written : MeterRegion}

theorem Continues.refl (region : MeterRegion) : Continues archivable region region where
  present := rfl
  kept meter member := ⟨meter, member, rfl, rfl, .inl rfl⟩
  names nodup := nodup

theorem Continues.trans {last : MeterRegion} (first : Continues archivable old region)
    (second : Continues archivable region last) : Continues archivable old last where
  present := second.present.trans first.present
  kept meter member := by
    obtain ⟨middle, between, id, name, archived⟩ := first.kept meter member
    obtain ⟨later, present, laterId, laterName, laterArchived⟩ := second.kept middle between
    refine ⟨later, present, laterId.trans id, laterName.trans name, ?_⟩
    rcases archived with same | changed
    · rw [same, name] at laterArchived
      exact laterArchived
    · exact .inr changed
  names nodup := second.names (first.names nodup)

theorem Continues.mono {wide : String → Prop} (continues : Continues archivable old region)
    (implies : ∀ name, archivable name → wide name) : Continues wide old region where
  present := continues.present
  kept meter member := by
    obtain ⟨later, present, id, name, archived⟩ := continues.kept meter member
    exact ⟨later, present, id, name, archived.imp_right fun changed => ⟨implies _ changed.1, changed.2⟩⟩
  names := continues.names

theorem Continues.active (continues : Continues archivable old region) {meter : LicenseMeter}
    (member : meter ∈ old.activeMeters) (barred : ¬archivable meter.name) : region.activeMeters ≠ [] := by
  obtain ⟨listed, active⟩ := List.mem_filter.mp member
  obtain ⟨later, present, -, -, same | changed⟩ := continues.kept meter listed
  · have still : later ∈ region.activeMeters := List.mem_filter.mpr ⟨present, by rw [same]; exact active⟩
    exact List.ne_nil_of_mem still
  · exact absurd changed.1 barred

theorem continues_insertMeter {meter inserted : LicenseMeter}
    (ran : insertMeter meter region = .ok (written, inserted)) : Continues archivable region written := by
  obtain ⟨table, rfl, -, rfl, -, freshName⟩ := insertMeter_ok ran
  refine ⟨rfl, fun stored member => ⟨stored, List.mem_append_left _ member, rfl, rfl, .inl rfl⟩, ?_⟩
  intro nodup
  exact MeterTable.append_nodup nodup freshName

theorem continues_insertLedgerEntry {entry inserted : UsageLedgerEntry}
    (ran : insertLedgerEntry entry region = .ok (written, inserted)) :
    Continues archivable region written := by
  obtain ⟨table, rfl, -, rfl, -⟩ := insertLedgerEntry_ok ran
  exact ⟨rfl, (Continues.refl (some table)).kept, id⟩

theorem continues_updateMeters {chosen : LicenseMeter → Bool} {set : LicenseMeter → LicenseMeter}
    {rows : List LicenseMeter}
    (keeps : ∀ meter ∈ region.meters, chosen meter = true → (set meter).id = meter.id ∧
      (set meter).name = meter.name ∧ ((set meter).archivedAt = meter.archivedAt ∨
        archivable meter.name ∧ meter.archivedAt = none))
    (ran : updateMeters chosen set region = .ok (written, rows)) : Continues archivable region written := by
  cases ran
  cases region with
  | none => exact .refl none
  | some table =>
      refine ⟨rfl, fun meter member => ?_, fun nodup => ?_⟩
      · refine ⟨_, List.mem_map_of_mem member, ?_⟩
        split
        · next picked => exact keeps meter member picked
        · exact ⟨rfl, rfl, .inl rfl⟩
      · have same : (table.meters.map fun meter => if chosen meter then set meter else meter).map
            LicenseMeter.name = table.meters.map LicenseMeter.name := by
          rw [List.map_map]
          refine List.map_congr_left fun meter member => ?_
          simp only [Function.comp]
          split
          · next picked => exact (keeps meter member picked).2.1
          · rfl
        change ((table.meters.map fun meter => if chosen meter then set meter else meter).map
          LicenseMeter.name).Nodup
        rwa [same]

theorem keeps_guarded {α : Type} {property : MeterRegion → Prop} {chosen : LicenseMeter → Bool}
    {set : LicenseMeter → LicenseMeter} {row : LicenseMeter → UsageLedgerEntry}
    {answer : LicenseMeter → UsageLedgerEntry → α} {otherwise : MeterScript α}
    (holds : property region)
    (updated : ∀ written rows, updateMeters chosen set region = .ok (written, rows) → property written)
    (posted : ∀ written final meter inserted, property written →
      insertLedgerEntry (row meter) written = .ok (final, inserted) → property final)
    (unchanged : ∀ written, property written → otherwise.Keeps property written) :
    (Script.execute (updateMeters chosen set) >>= fun rows =>
      match rows.head? with
      | none => otherwise
      | some updated =>
          Script.execute (insertLedgerEntry (row updated)) >>= fun entry =>
            (pure (answer updated entry) : MeterScript α)).Keeps property region := by
  refine Script.keeps_bind _ _ _ _ (Script.keeps_execute _ _ _ holds updated) fun written rows ran => ?_
  rw [Script.run_execute] at ran
  have changed := updated written rows ran
  cases rows.head? with
  | none => exact unchanged written changed
  | some meter =>
      dsimp only
      refine Script.keeps_bind _ _ _ _ ?_ fun final entry ran => ?_
      · exact Script.keeps_execute _ _ _ changed fun final entry => posted written final meter entry changed
      · rw [Script.run_execute] at ran
        exact posted written final meter entry changed ran

theorem keeps_continues {α : Type} {chosen : LicenseMeter → Bool}
    {set : LicenseMeter → LicenseMeter} {row : LicenseMeter → UsageLedgerEntry}
    {answer : LicenseMeter → UsageLedgerEntry → α} {otherwise : MeterScript α}
    (keeps : ∀ meter ∈ region.meters, chosen meter = true → (set meter).id = meter.id ∧
      (set meter).name = meter.name ∧ ((set meter).archivedAt = meter.archivedAt ∨
        archivable meter.name ∧ meter.archivedAt = none))
    (unchanged : ∀ written, Continues archivable region written →
      otherwise.Keeps (Continues archivable region) written) :
    (Script.execute (updateMeters chosen set) >>= fun rows =>
      match rows.head? with
      | none => otherwise
      | some updated =>
          Script.execute (insertLedgerEntry (row updated)) >>= fun entry =>
            (pure (answer updated entry) : MeterScript α)).Keeps (Continues archivable region) region :=
  keeps_guarded (.refl region) (fun _ _ => continues_updateMeters keeps)
    (fun _ _ _ _ continues ran => continues.trans (continues_insertLedgerEntry ran)) unchanged

end Statements

end MeterRegion

section Scripts

variable {id : LicenseId} {name text : String} {draw : Draw} {region written : MeterRegion}

theorem createMeter_continues {balance : Int} {result : LicenseMeter}
    (ran : (createMeter id name balance text draw).run region = .ok (written, result)) :
    Continues (fun _ => False) region written := by
  obtain ⟨middle, meter, inserted, ran⟩ := Script.run_bind_ok ran
  rw [Script.run_execute] at inserted
  obtain ⟨final, entry, posted, ran⟩ := Script.run_bind_ok ran
  rw [Script.run_execute] at posted
  cases ran
  exact (continues_insertMeter inserted).trans (continues_insertLedgerEntry posted)

theorem consumeMeter_continues {eventIdHash : String} {units : Int} {result : UsageConsumptionResult}
    (ran : (consumeMeter id name units eventIdHash draw).run region = .ok (written, result)) :
    Continues (fun _ => False) region written := by
  refine Script.keeps_run _ _ region written result ?_ ran
  refine Script.keeps_bind _ _ _ _ ((Script.keeps_query ..).mpr (.refl region)) fun view found ran => ?_
  cases ran
  split
  · split
    · exact .refl region
    · exact .refl region
  · refine Script.keeps_bind _ _ _ _ ((Script.keeps_query ..).mpr (.refl region)) fun view lookup ran => ?_
    cases ran
    split
    · exact .refl region
    · split
      · exact .refl region
      · exact keeps_continues (fun meter member picked => ⟨rfl, rfl, .inl rfl⟩) fun written kept => kept

structure SameRows (key : String) (old region : MeterRegion) : Prop where
  meters : region.meters.map LicenseMeter.id = old.meters.map LicenseMeter.id
  ledger : ∀ entry ∈ region.ledger, entry ∈ old.ledger ∨ entry.id = key

/-- A usage adds no row but one ledger entry, under the key that it drew. -/
theorem consumeMeter_rows {eventIdHash : String} {units : Int} {result : UsageConsumptionResult}
    (ran : (consumeMeter id name units eventIdHash draw).run region = .ok (written, result)) :
    SameRows (draw.uuid 0) region written := by
  have start : SameRows (draw.uuid 0) region region := ⟨rfl, fun _ => .inl⟩
  refine Script.keeps_run _ _ region written result ?_ ran
  refine Script.keeps_bind _ _ _ _ ((Script.keeps_query ..).mpr start) fun view found ran => ?_
  cases ran
  split
  · split <;> exact start
  · refine Script.keeps_bind _ _ _ _ ((Script.keeps_query ..).mpr start) fun view lookup ran => ?_
    cases ran
    split
    · exact start
    · split
      · exact start
      · refine keeps_guarded start (fun updated rows ran => ?_) (fun posted final meter inserted same ran => ?_)
          fun _ same => same
        · cases ran
          cases region with
          | none => exact start
          | some table =>
              refine ⟨?_, fun _ => .inl⟩
              change (table.meters.map _).map LicenseMeter.id = _
              rw [List.map_map]
              refine List.map_congr_left fun meter _ => ?_
              simp only [Function.comp]
              split <;> rfl
        · obtain ⟨table, rfl, rfl, rfl, -⟩ := insertLedgerEntry_ok ran
          refine ⟨same.meters, fun entry member => ?_⟩
          rcases List.mem_append.mp member with old | new
          · exact same.ledger entry old
          · exact .inr (by rw [List.mem_singleton.mp new])

theorem adjustMeter_continues {delta : Int} {kind : MeterLedgerKind} {result : MeterAdjustmentResult}
    (ran : (adjustMeter id name delta text kind draw).run region = .ok (written, result)) :
    Continues (fun _ => False) region written := by
  refine Script.keeps_run _ _ region written result ?_ ran
  refine Script.keeps_bind _ _ _ _ ((Script.keeps_query ..).mpr (.refl region)) fun view lookup ran => ?_
  cases ran
  split
  · exact .refl region
  · split
    · exact .refl region
    · exact keeps_continues (fun meter member picked => ⟨rfl, rfl, .inl rfl⟩) fun written kept => kept

/-- One name belongs to one meter, so that several active meters have several names. -/
theorem other_active {meter : LicenseMeter} (distinct : (region.meters.map LicenseMeter.name).Nodup)
    (member : meter ∈ region.activeMeters)
    (several : region.activeMeters.length ≠ 1) : ∃ other ∈ region.activeMeters, other.name ≠ name := by
  by_contra alone
  push Not at alone
  have all : region.activeMeters.map LicenseMeter.name =
      List.replicate region.activeMeters.length name := by
    refine List.eq_replicate_iff.mpr ⟨List.length_map _, fun other listed => ?_⟩
    obtain ⟨stored, present, rfl⟩ := List.mem_map.mp listed
    exact alone stored present
  have nodup : (region.activeMeters.map LicenseMeter.name).Nodup :=
    distinct.sublist (List.filter_sublist.map _)
  rw [all, List.nodup_replicate] at nodup
  have positive : 0 < region.activeMeters.length := List.length_pos_of_mem member
  omega

/-- What an archive transaction may archive: its meter, and the last active meter
of a metered license never. -/
def Archivable (region : MeterRegion) (name : String) (licenseType : Option LicenseType)
    (archived : String) : Prop :=
  archived = name ∧ (licenseType = some .metered → ∃ other ∈ region.activeMeters, other.name ≠ name)

theorem archiveMeter_continues {licenseType : Option LicenseType} {result : Option LicenseMeter}
    (distinct : (region.meters.map LicenseMeter.name).Nodup)
    (ran : (archiveMeter id name text licenseType draw).run region = .ok (written, result)) :
    Continues (Archivable region name licenseType) region written := by
  cases licenseType with
  | none =>
      cases ran
      exact .refl region
  | some type =>
      refine Script.keeps_run _ _ region written result ?_ ran
      refine Script.keeps_bind _ _ _ _ ((Script.keeps_query ..).mpr (.refl region)) fun view active ran => ?_
      cases ran
      dsimp only
      split
      · exact .refl region
      · next several =>
        refine keeps_continues (fun meter member picked => ?_) fun written kept =>
          (Script.keeps_query ..).mpr kept
        simp only [Bool.and_eq_true, decide_eq_true_eq, Option.isNone_iff_eq_none] at picked
        refine ⟨rfl, rfl, .inr ⟨⟨picked.1, fun metered => ?_⟩, picked.2⟩⟩
        have listed : meter ∈ region.activeMeters := List.mem_filter.mpr ⟨member, by simp [picked.2]⟩
        exact other_active distinct listed fun single =>
          several ⟨Option.some.inj metered, by simpa using ⟨meter, listed, picked.1⟩, single⟩

/-- A metered license that had an active meter has one after an archive transaction. -/
theorem archiveMeter_active {licenseType : Option LicenseType} {result : Option LicenseMeter}
    (distinct : (region.meters.map LicenseMeter.name).Nodup) (metered : licenseType = some .metered)
    (before : region.activeMeters ≠ [])
    (ran : (archiveMeter id name text licenseType draw).run region = .ok (written, result)) :
    written.activeMeters ≠ [] := by
  have continues := archiveMeter_continues distinct ran
  by_cases others : ∃ other ∈ region.activeMeters, other.name ≠ name
  · obtain ⟨other, active, different⟩ := others
    exact continues.active active fun archivable => different archivable.1
  · obtain ⟨meter, active⟩ := List.exists_mem_of_ne_nil _ before
    exact continues.active active fun archivable => others (archivable.2 metered)

theorem insertNewMetersFrom_continues {meters : List NewLicenseMeter} {index : Nat}
    {existing : List LicenseMeter} {result : Unit}
    (ran : (insertNewMetersFrom id draw index meters existing).run region = .ok (written, result)) :
    Continues (fun _ => False) region written := by
  induction meters generalizing index existing region with
  | nil =>
      cases ran
      exact .refl _
  | cons meter meters ih =>
      simp only [insertNewMetersFrom] at ran
      split at ran
      · split at ran
        · cases ran
        · exact ih ran
      · obtain ⟨middle, row, inserted, ran⟩ := Script.run_bind_ok ran
        rw [Script.run_execute] at inserted
        obtain ⟨final, entry, posted, ran⟩ := Script.run_bind_ok ran
        rw [Script.run_execute] at posted
        exact ((continues_insertMeter inserted).trans (continues_insertLedgerEntry posted)).trans (ih ran)

theorem insertNewMeters_continues {meters : List NewLicenseMeter} {result : Unit}
    (ran : (insertNewMeters id meters draw).run region = .ok (written, result)) :
    Continues (fun _ => False) region written := by
  simp only [insertNewMeters] at ran
  split at ran
  · cases ran
    exact .refl _
  · obtain ⟨middle, existing, found, ran⟩ := Script.run_bind_ok ran
    cases found
    exact insertNewMetersFrom_continues ran

theorem createLicenseMeters_active {meters : List NewLicenseMeter} {result : Unit}
    (ran : (createLicenseMeters id meters draw).run region = .ok (written, result)) :
    written.isSome ∧ (written.meters.map LicenseMeter.name).Nodup ∧
      (meters ≠ [] → written.activeMeters ≠ []) := by
  obtain ⟨middle, _, created, ran⟩ := Script.run_bind_ok ran
  rw [Script.run_execute] at created
  split at created
  · cases created
  · cases created
    split at ran
    · next empty =>
      cases ran
      exact ⟨rfl, .nil, fun some => absurd (List.isEmpty_iff.mp empty) some⟩
    · obtain ⟨middle, inserted, outcome, ran⟩ := Script.run_bind_ok ran
      rw [Script.run_execute] at outcome
      obtain ⟨rfl, -, names⟩ := insertRows_meters outcome
      obtain ⟨final, posted, outcome, ran⟩ := Script.run_bind_ok ran
      rw [Script.run_execute] at outcome
      obtain ⟨rfl, -⟩ := insertRows_ledger outcome
      cases ran
      refine ⟨rfl, names .nil, fun some => ?_⟩
      cases meters with
      | nil => exact absurd rfl some
      | cons meter meters =>
          simp [activeMeters, MeterRegion.meters, List.mapIdx_cons]

end Scripts

end Keyzori
