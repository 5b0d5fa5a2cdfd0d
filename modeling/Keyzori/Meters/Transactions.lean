import Keyzori.Meters.Ledger

namespace Keyzori

open LockedTransactions MeterRegion MeterTable

namespace MeterRegion

def Accounted (region : MeterRegion) : Prop :=
  ∀ table, region = some table → table.Accounted

theorem meterNamed_some {region : MeterRegion} {name : String} {meter : LicenseMeter}
    (found : meterNamed name region = some meter) : meter ∈ region.meters ∧ meter.name = name :=
  ⟨List.mem_of_find?_eq_some found, by simpa using List.find?_some found⟩

theorem ledgerEvent_some {region : MeterRegion} {eventId : String} {entry : UsageLedgerEntry}
    {meter : LicenseMeter} (found : ledgerEvent eventId region = some (entry, meter)) :
    entry ∈ region.ledger ∧ entry.eventId = eventId ∧
      meter ∈ region.meters ∧ meter.id = entry.meterId := by
  obtain ⟨stored, member, joined⟩ := List.exists_of_findSome?_eq_some found
  split at joined
  · next same =>
    obtain ⟨joinedMeter, foundMeter, pair⟩ := Option.map_eq_some_iff.mp joined
    cases pair
    exact ⟨member, same, List.mem_of_find?_eq_some foundMeter,
      by simpa using List.find?_some foundMeter⟩
  · cases joined

theorem ledgerEvent_none {region : MeterRegion} (accounted : region.Accounted) {eventId : String}
    (missing : ledgerEvent eventId region = none) :
    ∀ entry ∈ region.ledger, entry.eventId ≠ eventId := by
  intro entry member same
  have joined := List.findSome?_eq_none_iff.mp missing entry member
  rw [if_pos same, Option.map_eq_none_iff, List.find?_eq_none] at joined
  cases region with
  | none => cases member
  | some table =>
      obtain ⟨owner, ownerMember, owns⟩ := (accounted table rfl).owned entry member
      exact joined owner ownerMember (by simpa using owns)

theorem insertMeter_ok {meter inserted : LicenseMeter} {region written : MeterRegion}
    (ran : insertMeter meter region = .ok (written, inserted)) :
    ∃ table, region = some table ∧ inserted = meter ∧
      written = some { table with meters := table.meters ++ [meter] } ∧
      (∀ stored ∈ table.meters, stored.id ≠ meter.id) ∧
      ∀ stored ∈ table.meters, stored.name ≠ meter.name := by
  cases region with
  | none => cases ran
  | some table =>
      simp only [insertMeter] at ran
      split at ran
      · cases ran
      · next freshId =>
        split at ran
        · cases ran
        · next freshName =>
          cases ran
          exact ⟨table, rfl, rfl, rfl, by simpa using freshId, by simpa using freshName⟩

theorem insertLedgerEntry_ok {entry inserted : UsageLedgerEntry} {region written : MeterRegion}
    (ran : insertLedgerEntry entry region = .ok (written, inserted)) :
    ∃ table, region = some table ∧ inserted = entry ∧
      written = some { table with ledger := table.ledger ++ [entry] } ∧
      (∀ stored ∈ table.ledger, stored.id ≠ entry.id) ∧
      ∀ stored ∈ table.ledger, stored.eventId ≠ entry.eventId := by
  cases region with
  | none => cases ran
  | some table =>
      simp only [insertLedgerEntry] at ran
      split at ran
      · cases ran
      · next freshRow =>
        split at ran
        · cases ran
        · next fresh =>
          cases ran
          exact ⟨table, rfl, rfl, rfl, by simpa using freshRow, by simpa using fresh⟩

theorem updateMeters_one {table : MeterTable} (accounted : table.Accounted) {meter : LicenseMeter}
    (member : meter ∈ table.meters) {chosen : LicenseMeter → Bool}
    (set : LicenseMeter → LicenseMeter) (id : (set meter).id = meter.id)
    (only : ∀ stored ∈ table.meters, chosen stored = true ↔ stored = meter) :
    updateMeters chosen set (some table) =
      .ok (some { table with meters := table.meters.map fun stored =>
        if stored.id = (set meter).id then set meter else stored }, [set meter]) := by
  have nodup : table.meters.Nodup := List.Nodup.of_map _ accounted.ids
  have picked : table.meters.filter chosen = [meter] := by
    have same : table.meters.filter chosen = table.meters.filter (fun stored => stored == meter) := by
      apply List.filter_congr
      intro stored present
      rw [Bool.eq_iff_iff, only stored present, beq_iff_eq]
    rw [same, List.filter_beq, List.count_eq_one_of_mem nodup member, List.replicate_one]
  have rows : table.meters.map (fun stored => if chosen stored then set stored else stored) =
      table.meters.map (fun stored => if stored.id = (set meter).id then set meter else stored) := by
    apply List.map_congr_left
    intro stored present
    by_cases same : stored = meter
    · simp [same, (only meter member).mpr rfl, id]
    · have other : ¬ stored.id = (set meter).id := by
        intro matched
        exact same (meter_unique accounted present member (matched.trans id))
      have skipped : ¬ chosen stored = true := fun holds => same ((only stored present).mp holds)
      simp [other, skipped]
  simp only [updateMeters, meters, Option.elim_some, Option.map_some, picked, rows, List.map_cons,
    List.map_nil]

theorem updateMeters_none {region : MeterRegion} {chosen : LicenseMeter → Bool}
    (set : LicenseMeter → LicenseMeter) (skipped : ∀ stored ∈ region.meters, chosen stored = false) :
    updateMeters chosen set region = .ok (region, []) := by
  have picked : region.meters.filter chosen = [] := by
    rw [List.filter_eq_nil_iff]
    intro stored present
    simp [skipped stored present]
  cases region with
  | none => rfl
  | some table =>
      have rows : table.meters.map (fun stored => if chosen stored then set stored else stored) =
          table.meters := by
        calc
          _ = table.meters.map id := by
            apply List.map_congr_left
            intro stored present
            simp [skipped stored present]
          _ = table.meters := List.map_id _
      simp only [updateMeters, picked, List.map_nil, Option.map_some, rows]

theorem updateMeters_guarded {table : MeterTable} (accounted : table.Accounted)
    {meter : LicenseMeter} (member : meter ∈ table.meters) (guard : LicenseMeter → Bool)
    (set : LicenseMeter → LicenseMeter) (id : (set meter).id = meter.id) :
    updateMeters (fun stored => stored.id = meter.id && guard stored) set (some table) =
      if guard meter then
        .ok (some { table with meters := table.meters.map fun stored =>
          if stored.id = (set meter).id then set meter else stored }, [set meter])
      else .ok (some table, []) := by
  have same : ∀ stored ∈ table.meters, stored.id = meter.id → stored = meter :=
    fun stored present matched => meter_unique accounted present member matched
  split
  · next holds =>
    apply updateMeters_one accounted member set id
    intro stored present
    simp only [Bool.and_eq_true, decide_eq_true_eq]
    constructor
    · exact fun chosen => same stored present chosen.1
    · rintro rfl
      exact ⟨rfl, holds⟩
  · next fails =>
    apply updateMeters_none set
    intro stored present
    simp only [Bool.and_eq_false_imp, decide_eq_true_eq]
    intro matched
    rw [same stored present matched]
    simpa using fails

end MeterRegion

structure Opening (rows : List (LicenseMeter × UsageLedgerEntry)) (table opened : MeterTable) :
    Prop where
  meters : opened.meters = table.meters ++ rows.map Prod.fst
  ledger : opened.ledger = table.ledger ++ rows.map Prod.snd
  opens : ∀ row ∈ rows, Opens row.1 row.2
  ids : (opened.meters.map LicenseMeter.id).Nodup
  names : (opened.meters.map LicenseMeter.name).Nodup
  entries : (opened.ledger.map UsageLedgerEntry.id).Nodup
  events : (opened.ledger.map UsageLedgerEntry.eventId).Nodup

theorem opening_accounted {rows : List (LicenseMeter × UsageLedgerEntry)}
    {table opened : MeterTable} (accounted : table.Accounted) (opening : Opening rows table opened) :
    opened.Accounted := by
  obtain ⟨meters, ledger⟩ := opened
  obtain ⟨rfl, rfl, opens, ids, names, entries, events⟩ := opening
  exact accounted_open_all accounted rows opens ids names entries events

theorem opening_nil {table : MeterTable} (accounted : table.Accounted) : Opening [] table table where
  meters := by simp
  ledger := by simp
  opens := by simp
  ids := accounted.ids
  names := accounted.names
  entries := accounted.entries
  events := accounted.events

theorem opening_cons {meter : LicenseMeter} {entry : UsageLedgerEntry}
    {rows : List (LicenseMeter × UsageLedgerEntry)} {table opened : MeterTable}
    (opens : Opens meter entry)
    (opening : Opening rows ⟨table.meters ++ [meter], table.ledger ++ [entry]⟩ opened) :
    Opening ((meter, entry) :: rows) table opened where
  meters := by simpa using opening.meters
  ledger := by simpa using opening.ledger
  opens := by
    intro row member
    rcases List.mem_cons.mp member with rfl | member
    · exact opens
    · exact opening.opens row member
  ids := opening.ids
  names := opening.names
  entries := opening.entries
  events := opening.events

/-- All that one committed operator transaction can do to the meters of a license. -/
inductive OperatorChange : MeterRegion → MeterRegion → Prop
  | unchanged (region : MeterRegion) : OperatorChange region region
  | posted (table : MeterTable) (meter changed : LicenseMeter) (entry : UsageLedgerEntry)
      (member : meter ∈ table.meters) (posts : Posts meter changed entry)
      (operator : entry.kind ≠ .consume)
      (freshRow : ∀ stored ∈ table.ledger, stored.id ≠ entry.id)
      (fresh : ∀ stored ∈ table.ledger, stored.eventId ≠ entry.eventId) :
      OperatorChange (some table) (some (table.post changed entry))
  | created (opened : MeterTable) (rows : List (LicenseMeter × UsageLedgerEntry))
      (opening : Opening rows ⟨[], []⟩ opened) : OperatorChange none (some opened)
  | opened (table opened : MeterTable) (rows : List (LicenseMeter × UsageLedgerEntry))
      (opening : Opening rows table opened) : OperatorChange (some table) (some opened)

theorem operatorChange_accounted {region written : MeterRegion} (accounted : region.Accounted)
    (change : OperatorChange region written) : written.Accounted := by
  cases change with
  | unchanged => exact accounted
  | posted table meter changed entry member posts operator freshRow fresh =>
      intro stored same
      cases same
      exact accounted_post (accounted table rfl) member posts freshRow fresh
  | created opened rows opening =>
      intro stored same
      cases same
      exact opening_accounted accounted_empty opening
  | opened table opened rows opening =>
      intro stored same
      cases same
      exact opening_accounted (accounted table rfl) opening

/-- The outcomes of one `consume` transaction under the meter lock, with what
it commits. The event id decides first, the meter only for a new event. -/
inductive Consumption (name : String) (units : Int) (eventIdHash : String)
    (region : MeterRegion) : MeterRegion → UsageConsumptionResult → Prop
  | replayed (entry : UsageLedgerEntry) (meter : LicenseMeter)
      (found : ledgerEvent eventIdHash region = some (entry, meter))
      (same : entry.kind = .consume ∧ entry.delta = -units ∧ meter.name = name) :
      Consumption name units eventIdHash region region
        (.replayed { meter with balance := entry.balanceAfter } entry)
  | conflict (entry : UsageLedgerEntry) (meter : LicenseMeter)
      (found : ledgerEvent eventIdHash region = some (entry, meter))
      (different : ¬(entry.kind = .consume ∧ entry.delta = -units ∧ meter.name = name)) :
      Consumption name units eventIdHash region region .conflict
  | notFound (unused : ledgerEvent eventIdHash region = none)
      (missing : meterNamed name region = none) :
      Consumption name units eventIdHash region region .notFound
  | archived (unused : ledgerEvent eventIdHash region = none) (meter : LicenseMeter)
      (found : meterNamed name region = some meter) (archived : meter.archivedAt.isSome) :
      Consumption name units eventIdHash region region .archived
  | exhausted (unused : ledgerEvent eventIdHash region = none) (meter : LicenseMeter)
      (found : meterNamed name region = some meter) (short : meter.balance < units) :
      Consumption name units eventIdHash region region .exhausted
  | consumed (table : MeterTable) (meter changed : LicenseMeter) (entry : UsageLedgerEntry)
      (present : region = some table) (unused : ledgerEvent eventIdHash region = none)
      (found : meterNamed name region = some meter) (active : meter.archivedAt = none)
      (covered : units ≤ meter.balance) (debited : changed.balance = meter.balance - units)
      (posts : Posts meter changed entry) (kind : entry.kind = .consume)
      (event : entry.eventId = eventIdHash) (delta : entry.delta = -units)
      (freshRow : ∀ stored ∈ table.ledger, stored.id ≠ entry.id) :
      Consumption name units eventIdHash region (some (table.post changed entry))
        (.consumed changed entry)

theorem consumeMeter_spec {id : LicenseId} {name eventIdHash : String} {units : Int} {draw : Draw}
    {region written : MeterRegion} {result : UsageConsumptionResult}
    (accounted : region.Accounted)
    (ran : (consumeMeter id name units eventIdHash draw).run region = .ok (written, result)) :
    Consumption name units eventIdHash region written result := by
  simp only [consumeMeter, Script.run_bind, Script.run_query] at ran
  cases event : ledgerEvent eventIdHash region with
  | some found =>
      obtain ⟨entry, meter⟩ := found
      simp only [event] at ran
      split at ran
      · next different =>
        cases ran
        exact .conflict entry meter event (by tauto)
      · next same =>
        cases ran
        exact .replayed entry meter event (by tauto)
  | none =>
      simp only [event, Script.run_bind, Script.run_query] at ran
      cases lookup : meterNamed name region with
      | none =>
          simp only [lookup] at ran
          cases ran
          exact .notFound event lookup
      | some meter =>
          simp only [lookup] at ran
          split at ran
          · next archived =>
            cases ran
            exact .archived event meter lookup archived
          · next active =>
            obtain ⟨member, named⟩ := meterNamed_some lookup
            cases region with
            | none => cases member
            | some table =>
                simp only [Script.run_bind, Script.run_execute] at ran
                rw [updateMeters_guarded (accounted table rfl) member _ _ rfl] at ran
                by_cases covered : units ≤ meter.balance
                · simp only [decide_eq_true covered, if_true, List.head?_cons, Script.run_bind,
                    Script.run_execute] at ran
                  split at ran
                  · next inserted row outcome =>
                    obtain ⟨posted, postedTable, rfl, rfl, freshRow, fresh⟩ := insertLedgerEntry_ok outcome
                    cases postedTable
                    cases ran
                    have posts : Posts meter
                        { meter with balance := meter.balance - units, updatedAt := draw.now }
                        ⟨draw.uuid 0, id, meter.id, eventIdHash, .consume, -units,
                          meter.balance - units + units, meter.balance - units, none, draw.now⟩ :=
                      ⟨rfl, rfl, rfl, by simp, by simp, by simp; omega, rfl⟩
                    exact .consumed table meter _ _ rfl event lookup (by simpa using active)
                      covered rfl posts rfl rfl rfl freshRow
                  · cases ran
                · simp only [decide_eq_false covered, Bool.false_eq_true, if_false,
                    List.head?_nil] at ran
                  cases ran
                  exact .exhausted event meter lookup (by omega)

theorem adjustMeter_change {id : LicenseId} {name text : String} {delta : Int}
    {kind : MeterLedgerKind} {draw : Draw} {region written : MeterRegion}
    {result : MeterAdjustmentResult} (accounted : region.Accounted) (notCreate : kind ≠ .create)
    (notConsume : kind ≠ .consume)
    (ran : (adjustMeter id name delta text kind draw).run region = .ok (written, result)) :
    OperatorChange region written := by
  simp only [adjustMeter, Script.run_bind, Script.run_query] at ran
  cases lookup : meterNamed name region with
  | none =>
      simp only [lookup] at ran
      cases ran
      exact .unchanged _
  | some meter =>
      simp only [lookup] at ran
      split at ran
      · cases ran
        exact .unchanged _
      · next active =>
        obtain ⟨member, named⟩ := meterNamed_some lookup
        cases region with
        | none => cases member
        | some table =>
            simp only [Script.run_bind, Script.run_execute] at ran
            rw [updateMeters_guarded (accounted table rfl) member _ _ rfl] at ran
            generalize (if delta > 0 then decide (meter.balance ≤ maxLicenseLimit - delta)
              else decide (meter.balance ≥ -delta)) = bounds at ran
            cases bounds with
            | true =>
                simp only [if_true, List.head?_cons, Script.run_bind, Script.run_execute] at ran
                split at ran
                · next inserted row outcome =>
                  obtain ⟨posted, postedTable, rfl, rfl, freshRow, fresh⟩ := insertLedgerEntry_ok outcome
                  cases postedTable
                  cases ran
                  have posts : Posts meter
                      { meter with balance := meter.balance + delta, updatedAt := draw.now }
                      ⟨draw.uuid 0, id, meter.id, operatorEvent (draw.uuid 1), kind, delta,
                        meter.balance + delta - delta, meter.balance + delta, some text, draw.now⟩ :=
                    ⟨rfl, rfl, rfl, notCreate, by simp, by simp, rfl⟩
                  exact .posted table meter _ _ member posts notConsume freshRow fresh
                · cases ran
            | false =>
                simp only [Bool.false_eq_true, if_false, List.head?_nil] at ran
                cases ran
                exact .unchanged _

theorem archiveMeter_change {id : LicenseId} {name text : String} {licenseType : Option LicenseType}
    {draw : Draw} {region written : MeterRegion} {result : Option LicenseMeter}
    (accounted : region.Accounted)
    (ran : (archiveMeter id name text licenseType draw).run region = .ok (written, result)) :
    OperatorChange region written := by
  cases licenseType with
  | none =>
      cases ran
      exact .unchanged _
  | some type =>
      simp only [archiveMeter, Script.run_bind, Script.run_query] at ran
      split at ran
      · cases ran
        exact .unchanged _
      · simp only [Script.run_bind, Script.run_execute] at ran
        cases target : region.meters.find? (fun meter => meter.name = name && meter.archivedAt.isNone) with
        | none =>
            rw [updateMeters_none _ (by
              intro stored present
              exact Bool.eq_false_iff.mpr (List.find?_eq_none.mp target stored present))] at ran
            simp only [List.head?_nil, Script.run_query] at ran
            cases ran
            exact .unchanged _
        | some meter =>
            have member := List.mem_of_find?_eq_some target
            have holds := List.find?_some target
            simp only [Bool.and_eq_true, decide_eq_true_eq] at holds
            cases region with
            | none => cases member
            | some table =>
                have distinct := accounted table rfl
                rw [updateMeters_one distinct member _ rfl (by
                  intro stored present
                  simp only [Bool.and_eq_true, decide_eq_true_eq]
                  constructor
                  · intro chosen
                    exact List.inj_on_of_nodup_map distinct.names present member
                      (chosen.1.trans holds.1.symm)
                  · rintro rfl
                    exact holds)] at ran
                simp only [List.head?_cons, Script.run_bind, Script.run_execute] at ran
                split at ran
                · next inserted row outcome =>
                  obtain ⟨posted, postedTable, rfl, rfl, freshRow, fresh⟩ := insertLedgerEntry_ok outcome
                  cases postedTable
                  cases ran
                  have posts : Posts meter
                      { meter with archivedAt := some draw.now, updatedAt := draw.now }
                      ⟨draw.uuid 0, id, meter.id, operatorEvent (draw.uuid 1), .archive, 0,
                        meter.balance, meter.balance, some text, draw.now⟩ :=
                    ⟨rfl, rfl, rfl, by simp, rfl, by simp, rfl⟩
                  exact .posted table meter _ _ member posts (by simp) freshRow fresh
                · cases ran

theorem insertRows_cons {α : Type} {insert : α → MeterRegion → Except Failure (MeterRegion × α)}
    {row : α} {rows inserted : List α} {region written : MeterRegion}
    (ran : insertRows insert (row :: rows) region = .ok (written, inserted)) :
    ∃ middle first others, insert row region = .ok (middle, first) ∧
      insertRows insert rows middle = .ok (written, others) := by
  simp only [insertRows, bind, Except.bind] at ran
  split at ran
  · cases ran
  · next outcome =>
    split at ran
    · cases ran
    · next rest =>
      cases ran
      exact ⟨_, _, _, outcome, rest⟩

theorem insertRows_keeps {α : Type} {insert : α → MeterRegion → Except Failure (MeterRegion × α)}
    {property : MeterRegion → Prop} {allowed : α → Prop}
    (each : ∀ row region written inserted, property region → allowed row →
      insert row region = .ok (written, inserted) → property written)
    {rows inserted : List α} {region written : MeterRegion} (holds : property region)
    (all : ∀ row ∈ rows, allowed row)
    (ran : insertRows insert rows region = .ok (written, inserted)) : property written := by
  induction rows generalizing region inserted with
  | nil =>
      cases ran
      exact holds
  | cons row rows ih =>
      obtain ⟨middle, first, others, outcome, rest⟩ := insertRows_cons ran
      exact ih (each row region middle first holds (all row (by simp)) outcome)
        (fun other member => all other (List.mem_cons_of_mem _ member)) rest

theorem insertRows_meters {rows inserted : List LicenseMeter} {table : MeterTable}
    {written : MeterRegion}
    (ran : insertRows insertMeter rows (some table) = .ok (written, inserted)) :
    written = some { table with meters := table.meters ++ rows } ∧
      ((table.meters.map LicenseMeter.id).Nodup →
        ((table.meters ++ rows).map LicenseMeter.id).Nodup) ∧
      ((table.meters.map LicenseMeter.name).Nodup →
        ((table.meters ++ rows).map LicenseMeter.name).Nodup) := by
  induction rows generalizing table inserted with
  | nil =>
      cases ran
      simp
  | cons row rows ih =>
      obtain ⟨middle, first, others, outcome, rest⟩ := insertRows_cons ran
      obtain ⟨stored, present, rfl, rfl, freshId, freshName⟩ := insertMeter_ok outcome
      cases present
      obtain ⟨final, ids, names⟩ := ih rest
      simp only [List.append_assoc, List.singleton_append] at final ids names
      refine ⟨final, fun nodup => ids ?_, fun nodup => names ?_⟩
      · exact append_nodup nodup freshId
      · exact append_nodup nodup freshName

theorem insertRows_ledger {rows inserted : List UsageLedgerEntry} {table : MeterTable}
    {written : MeterRegion}
    (ran : insertRows insertLedgerEntry rows (some table) = .ok (written, inserted)) :
    written = some { table with ledger := table.ledger ++ rows } ∧
      ((table.ledger.map UsageLedgerEntry.id).Nodup →
        ((table.ledger ++ rows).map UsageLedgerEntry.id).Nodup) ∧
      ((table.ledger.map UsageLedgerEntry.eventId).Nodup →
        ((table.ledger ++ rows).map UsageLedgerEntry.eventId).Nodup) := by
  induction rows generalizing table inserted with
  | nil =>
      cases ran
      simp
  | cons row rows ih =>
      obtain ⟨middle, first, others, outcome, rest⟩ := insertRows_cons ran
      obtain ⟨stored, present, rfl, rfl, freshRow, fresh⟩ := insertLedgerEntry_ok outcome
      cases present
      obtain ⟨final, entries, events⟩ := ih rest
      simp only [List.append_assoc, List.singleton_append] at final entries events
      refine ⟨final, fun nodup => entries ?_, fun nodup => events ?_⟩
      · exact append_nodup nodup freshRow
      · exact append_nodup nodup fresh

theorem createMeter_change {id : LicenseId} {name text : String} {balance : Int} {draw : Draw}
    {region written : MeterRegion} {result : LicenseMeter} (accounted : region.Accounted)
    (ran : (createMeter id name balance text draw).run region = .ok (written, result)) :
    OperatorChange region written := by
  obtain ⟨middle, meter, outcome, ran⟩ := Script.run_bind_ok ran
  rw [Script.run_execute] at outcome
  obtain ⟨table, rfl, rfl, rfl, freshId, freshName⟩ := insertMeter_ok outcome
  obtain ⟨middle, entry, outcome, ran⟩ := Script.run_bind_ok ran
  rw [Script.run_execute] at outcome
  obtain ⟨extended, present, rfl, rfl, freshRow, fresh⟩ := insertLedgerEntry_ok outcome
  cases present
  cases ran
  have opens : Opens
      ⟨draw.uuid 0, id, name, balance, none, draw.now, draw.now⟩
      ⟨draw.uuid 1, id, draw.uuid 0, operatorEvent (draw.uuid 2), .create, balance, 0, balance,
        some text, draw.now⟩ := ⟨rfl, rfl, rfl, rfl, rfl⟩
  have opened := accounted_open (accounted table rfl) opens freshId freshName freshRow fresh
  exact .opened table _ _ (opening_cons opens (opening_nil opened))

theorem createLicenseMeters_change {id : LicenseId} {meters : List NewLicenseMeter} {draw : Draw}
    {region written : MeterRegion} {result : Unit}
    (ran : (createLicenseMeters id meters draw).run region = .ok (written, result)) :
    OperatorChange region written := by
  obtain ⟨middle, _, outcome, ran⟩ := Script.run_bind_ok ran
  rw [Script.run_execute] at outcome
  split at outcome
  · cases outcome
  · cases outcome
    split at ran
    · cases ran
      exact .created _ [] (opening_nil accounted_empty)
    · generalize (meters.mapIdx fun index meter =>
        (meter, (LicenseMeter.mk (draw.uuid (3 * index)) id meter.name meter.balance none
          draw.now draw.now))) = rows at ran
      obtain ⟨middle, inserted, outcome, ran⟩ := Script.run_bind_ok ran
      rw [Script.run_execute] at outcome
      obtain ⟨rfl, ids, names⟩ := insertRows_meters outcome
      obtain ⟨final, posted, outcome, ran⟩ := Script.run_bind_ok ran
      rw [Script.run_execute] at outcome
      obtain ⟨rfl, entries, events⟩ := insertRows_ledger outcome
      cases ran
      let entry := fun (index : Nat) (row : NewLicenseMeter × LicenseMeter) =>
        UsageLedgerEntry.mk (draw.uuid (3 * index + 1)) id row.2.id
          (operatorEvent (draw.uuid (3 * index + 2))) .create row.2.balance 0 row.2.balance
          (some row.1.reason) draw.now
      refine .created _ (rows.mapIdx fun index row => (row.2, entry index row)) ⟨?_, ?_, ?_,
        ids .nil, names .nil, entries .nil, events .nil⟩
      · exact List.ext_getElem (by simp) (by simp)
      · exact List.ext_getElem (by simp) (by simp [entry])
      · intro row member
        obtain ⟨index, bound, rfl⟩ := List.mem_mapIdx.mp member
        exact ⟨rfl, rfl, rfl, rfl, rfl⟩

theorem insertNewMetersFrom_opening {id : LicenseId} {draw : Draw} {meters : List NewLicenseMeter}
    {index : Nat} {existing : List LicenseMeter} {table : MeterTable} {written : MeterRegion}
    {result : Unit} (accounted : table.Accounted)
    (ran : (insertNewMetersFrom id draw index meters existing).run (some table) =
      .ok (written, result)) :
    ∃ opened rows, written = some opened ∧ Opening rows table opened := by
  induction meters generalizing index existing table with
  | nil =>
      cases ran
      exact ⟨table, [], rfl, opening_nil accounted⟩
  | cons meter meters ih =>
      simp only [insertNewMetersFrom] at ran
      split at ran
      · split at ran
        · cases ran
        · exact ih accounted ran
      · obtain ⟨middle, inserted, outcome, ran⟩ := Script.run_bind_ok ran
        rw [Script.run_execute] at outcome
        obtain ⟨stored, present, rfl, rfl, freshId, freshName⟩ := insertMeter_ok outcome
        cases present
        obtain ⟨middle, entry, outcome, ran⟩ := Script.run_bind_ok ran
        rw [Script.run_execute] at outcome
        obtain ⟨extended, present, rfl, rfl, freshRow, fresh⟩ := insertLedgerEntry_ok outcome
        cases present
        have opened := accounted_open accounted ⟨rfl, rfl, rfl, rfl, rfl⟩ freshId freshName freshRow fresh
        obtain ⟨final, rows, rfl, opening⟩ := ih opened ran
        exact ⟨final, _, rfl, opening_cons ⟨rfl, rfl, rfl, rfl, rfl⟩ opening⟩

theorem insertNewMeters_change {id : LicenseId} {draw : Draw} {meters : List NewLicenseMeter}
    {region written : MeterRegion} {result : Unit} (accounted : region.Accounted)
    (ran : (insertNewMeters id meters draw).run region = .ok (written, result)) :
    OperatorChange region written := by
  simp only [insertNewMeters] at ran
  split at ran
  · cases ran
    exact .unchanged region
  · obtain ⟨middle, existing, outcome, ran⟩ := Script.run_bind_ok ran
    cases outcome
    cases region with
    | some table =>
        obtain ⟨opened, rows, rfl, opening⟩ := insertNewMetersFrom_opening (accounted table rfl) ran
        exact .opened table opened rows opening
    | none =>
        cases meters with
        | nil => contradiction
        | cons meter meters =>
            change (insertNewMetersFrom id draw 0 (meter :: meters) []).run none = _ at ran
            simp only [insertNewMetersFrom, List.find?_nil] at ran
            obtain ⟨middle, inserted, outcome, ran⟩ := Script.run_bind_ok ran
            cases outcome

theorem consumption_accounted {name eventIdHash : String} {units : Int}
    {region written : MeterRegion} {result : UsageConsumptionResult} (accounted : region.Accounted)
    (consumption : Consumption name units eventIdHash region written result) :
    written.Accounted := by
  cases consumption with
  | replayed => exact accounted
  | conflict => exact accounted
  | notFound => exact accounted
  | archived => exact accounted
  | exhausted => exact accounted
  | consumed table meter changed entry present unused found active covered debited posts kind
      event delta freshRow =>
      subst present
      intro stored same
      cases same
      refine accounted_post (accounted table rfl) (meterNamed_some found).1 posts freshRow ?_
      rw [event]
      exact ledgerEvent_none accounted unused

end Keyzori
