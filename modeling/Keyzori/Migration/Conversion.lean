import Keyzori.Migration.Validity

namespace Keyzori.Migration

open SchemaChanges RowGroups

variable {pg : Postgres} {rows : Rows} {pending later : List Rule}

section Customers

def stampCustomers (pg : Postgres) (rows : Rows) : Rows :=
  { rows with customers := rows.customers.map fun row => { row with updatedAt := pg.now } }

theorem customers_works (good : Good newRules rows) :
    Works holds pg (customers.zip [newRules, newRules]) rows (stampCustomers pg rows) ∧
      Good newRules (stampCustomers pg rows) := by
  have same : ∀ rule ∈ rulesOn (.table .customers), holds (stampCustomers pg rows) rule = holds rows rule := by
    rw [show rulesOn (.table .customers) = [.key .customers, .unique .customersEmail,
      .reference .licensesCustomer] by decide]
    simp only [List.forall_mem_cons, holds, Rows.ids, Rows.keys, Rows.foreign, Reference.target,
      stampCustomers, List.map_map]
    exact ⟨rfl, rfl, rfl, fun _ member => by cases member⟩
  have stamped : Good newRules (stampCustomers pg rows) :=
    good_step (.table .customers) good
      (by rintro (⟨⟨⟩⟩ | _ | _) other <;> first | rfl | exact absurd rfl other)
      (fun rule member absent => (same rule member).trans (good rule absent)) (by decide)
  exact ⟨.segment rfl good <| .segment rfl stamped <| .done _, stamped⟩

end Customers

section Allowlists

def canonical (pg : Postgres) (text : String) : String := (pg.host text).getD text

theorem address_ok {text : String} (parses : (pg.host text).isSome) :
    pg.address text = .ok (canonical pg text) := by
  obtain ⟨address, found⟩ := Option.isSome_iff_exists.mp parses
  simp [Postgres.address, canonical, found]

def canonicalEntry (pg : Postgres) (row : IpEntryRow) : IpEntryRow := { row with ip := canonical pg row.ip }

def convertAllowlist (pg : Postgres) (rows : Rows) : Rows :=
  { rows with ipEntries := leaders ipEntryKey ipEntryOrder (rows.ipEntries.map (canonicalEntry pg)) }

theorem order_distinct {α : Type} {time : α → Instant} {id : α → String} {items : List α}
    (distinct : (items.map id).Nodup) :
    (items.map fun row => (toLex (time row, id row) : Lex (Instant × String))).Nodup := by
  refine List.Nodup.of_map (fun place => (ofLex place).2) ?_
  rw [List.map_map]
  exact distinct

theorem allowlists_works (good : Good afterAllowlists rows)
    (parses : ∀ row ∈ rows.ipEntries, (pg.host row.ip).isSome) :
    Works holds pg (allowlists.zip [.unique .ipEntries :: afterAllowlists, afterAllowlists]) rows
        (convertAllowlist pg rows) ∧
      Good afterAllowlists (convertAllowlist pg rows) := by
  have touched : rulesOn (.table .ipEntries) = [.key .ipEntries, .unique .ipEntries,
    .reference .ipEntriesLicense] := by decide
  have write : canonicalIpEntries pg rows =
      .ok { rows with ipEntries := rows.ipEntries.map (canonicalEntry pg) } := by
    have entries : rows.ipEntries.mapM (fun row => do
        let ip ← pg.address row.ip
        return { row with ip }) = .ok (rows.ipEntries.map (canonicalEntry pg)) :=
      mapM_ok fun row member => by
        rw [address_ok (parses row member)]
        rfl
    rw [canonicalIpEntries, entries]
    rfl
  have ids : (rows.ipEntries.map (canonicalEntry pg)).map IpEntryRow.id = rows.ipEntries.map IpEntryRow.id := by
    rw [List.map_map]
    rfl
  have distinct : ((rows.ipEntries.map (canonicalEntry pg)).map IpEntryRow.id).Nodup := by
    rw [ids]
    exact of_decide_eq_true (good (.key .ipEntries) (by decide))
  have owners : ∀ owner ∈ rows.ipEntries.map IpEntryRow.licenseId, owner ∈ rows.ids .licenses :=
    holds_reference.mp (good (.reference .ipEntriesLicense) (by decide))
  have renamed : Good (.unique .ipEntries :: afterAllowlists)
      { rows with ipEntries := rows.ipEntries.map (canonicalEntry pg) } := by
    refine good_step (.table .ipEntries) good
      (by rintro (⟨⟨⟩⟩ | _ | _) other <;> first | rfl | exact absurd rfl other) ?_ (by decide)
    rw [touched]
    simp only [List.forall_mem_cons]
    refine ⟨fun _ => decide_eq_true distinct, fun absent => absurd (by decide) absent,
      fun _ => holds_reference.mpr ?_, fun _ member => by cases member⟩
    simp only [Rows.foreign, List.map_map]
    exact owners
  have unique : Good afterAllowlists (convertAllowlist pg rows) := by
    refine good_step (.table .ipEntries) renamed
      (by rintro (⟨⟨⟩⟩ | _ | _) other <;> first | rfl | exact absurd rfl other) ?_ (by decide)
    rw [touched]
    simp only [List.forall_mem_cons]
    refine ⟨fun _ => decide_eq_true ?_, fun _ => decide_eq_true ?_, fun _ => holds_reference.mpr ?_,
      fun _ member => by cases member⟩
    · exact distinct.sublist (leaders_sublist.map _)
    · have keys := @leaders_distinct _ _ _ _ _ ipEntryKey ipEntryOrder _ (order_distinct distinct)
      have columns : (convertAllowlist pg rows).keys .ipEntries =
          ((convertAllowlist pg rows).ipEntries.map ipEntryKey).map fun key => (none, [key.1, key.2]) := by
        rw [List.map_map]
        rfl
      rw [columns]
      exact keys.map fun one other same => by simpa [Prod.ext_iff] using same
    · intro owner member
      obtain ⟨row, listed, rfl⟩ := List.mem_map.mp member
      obtain ⟨old, before, rfl⟩ := List.mem_map.mp (leaders_member listed)
      exact owners _ (List.mem_map.mpr ⟨old, before, rfl⟩)
  refine ⟨.segment write renamed <| .segment ?_ unique <| .done _, unique⟩
  exact congrArg (fun ipEntries => Except.ok { rows with ipEntries })
    (@leaders_deleted _ _ _ _ _ ipEntryKey ipEntryOrder _ _ _ _ distinct)

end Allowlists

section Meters

theorem labelled_distinct {α : Type} {id : α → String} {items : List α} (label : String)
    (distinct : (items.map id).Nodup) : (items.map fun item => label ++ id item).Nodup := by
  have labelled := distinct.map (f := fun text => label ++ text) fun one other same =>
    (String.append_right_inj label).mp same
  rwa [List.map_map] at labelled

/-- A key that contains the id is as distinct as the id. -/
theorem keys_distinct {α ι κ : Type} {id : α → ι} {items : List α} (key : α → κ)
    (distinct : (items.map id).Nodup) (found : ∀ one other, key one = key other → id one = id other) :
    (items.map key).Nodup := by
  refine List.Nodup.map_on (fun one first other second same => ?_) distinct.of_map
  exact List.inj_on_of_nodup_map distinct first second (found one other same)

def addMeters (pg : Postgres) (rows : Rows) : Rows :=
  let licenses := rows.licenses.map storeUsageDraft
  let meters := (licenses.filter fun row => hasKey "metered" row.typeDrafts).map (usageMeter pg)
  { rows with licenses, meters, ledger := meters.map createEntry }

theorem usageMeter_legacy (row : LicenseRow) : isLegacyMeter (usageMeter pg row) = true := by
  simp [isLegacyMeter, usageMeter, String.toList_append]

theorem meters_inserted (good : Good afterUsageMeters rows) (empty : rows.meters = []) :
    Good afterUsageMeters (insertMeters pg rows) := by
  have distinct : (rows.licenses.map LicenseRow.id).Nodup := of_decide_eq_true (good (.key .licenses) (by decide))
  let chosen := rows.licenses.filter fun row => hasKey "metered" row.typeDrafts
  have ids : (chosen.map LicenseRow.id).Nodup := distinct.sublist (List.filter_sublist.map _)
  have written : (insertMeters pg rows).meters = chosen.map (usageMeter pg) := by
    rw [insertMeters, empty]
    rfl
  refine good_step (.table .meters) good
    (by rintro (⟨⟨⟩⟩ | _ | _) other <;> first | rfl | exact absurd rfl other) ?_ (by decide)
  rw [show rulesOn (.table .meters) = [.key .meters, .unique .meters, .reference .metersLicense,
    .reference .ledgerMeter, .check .balance] by decide]
  simp only [List.forall_mem_cons]
  refine ⟨fun _ => decide_eq_true ?_, fun _ => decide_eq_true ?_, fun _ => holds_reference.mpr ?_,
    fun absent => absurd (by decide) absent, fun _ => List.all_eq_true.mpr ?_, fun _ member => by cases member⟩
  · simp only [Rows.ids, written, List.map_map]
    exact labelled_distinct "legacy-usage-" ids
  · simp only [Rows.keys, written, List.map_map]
    exact keys_distinct _ ids fun one other same => (List.cons.inj (Prod.mk.inj same).2).1
  · intro owner member
    simp only [Rows.foreign, written, List.map_map] at member
    exact (List.filter_sublist.map _).subset member
  · rw [written]
    intro meter member
    obtain ⟨row, listed, rfl⟩ := List.mem_map.mp member
    exact good_check .limitUsage good (by decide) (by decide) row (List.mem_filter.mp listed).1

theorem ledger_inserted {chosen : List LicenseRow} (good : Good afterMeters rows) (empty : rows.ledger = [])
    (listed : chosen.Sublist rows.licenses) (meters : rows.meters = chosen.map (usageMeter pg)) :
    insertLedger rows = { rows with ledger := rows.meters.map createEntry } ∧
      Good afterMeters { rows with ledger := rows.meters.map createEntry } := by
  have distinct : (rows.licenses.map LicenseRow.id).Nodup := of_decide_eq_true (good (.key .licenses) (by decide))
  have ids : (rows.meters.map MeterRow.licenseId).Nodup := by
    rw [meters, List.map_map]
    exact distinct.sublist (listed.map _)
  have legacy : rows.meters.filter isLegacyMeter = rows.meters := by
    refine List.filter_eq_self.mpr fun meter member => ?_
    rw [meters] at member
    obtain ⟨row, -, rfl⟩ := List.mem_map.mp member
    exact usageMeter_legacy row
  refine ⟨by rw [insertLedger, legacy, empty, List.nil_append], ?_⟩
  refine good_step (.table .ledger) good
    (by rintro (⟨⟨⟩⟩ | _ | _) other <;> first | rfl | exact absurd rfl other) ?_ (by decide)
  rw [show rulesOn (.table .ledger) = [.key .ledger, .unique .ledger, .reference .ledgerLicense,
    .reference .ledgerMeter] by decide]
  simp only [List.forall_mem_cons]
  refine ⟨fun _ => decide_eq_true ?_, fun _ => decide_eq_true ?_, fun _ => holds_reference.mpr ?_,
    fun _ => holds_reference.mpr ?_, fun _ member => by cases member⟩
  · simp only [Rows.ids, List.map_map]
    exact labelled_distinct "legacy-meter-ledger-" ids
  · simp only [Rows.keys, List.map_map]
    exact keys_distinct _ ids fun one other same => (List.cons.inj (Prod.mk.inj same).2).1
  · simp only [Rows.foreign, List.map_map]
    exact holds_reference.mp (good (.reference .metersLicense) (by decide))
  · simp only [Rows.foreign, List.map_map]
    exact fun owner member => member

theorem meters_works (good : Good afterAllowlists rows) :
    Works holds pg (meters.zip [afterUsageMeters, afterUsageMeters, afterUsageMeters, afterMeters, afterMeters])
        rows (addMeters pg rows) ∧
      Good afterMeters (addMeters pg rows) := by
  have created : Good afterUsageMeters { rows with meters := [] } := by
    refine good_step (.table .meters) good
      (by rintro (⟨⟨⟩⟩ | _ | _) other <;> first | rfl | exact absurd rfl other) ?_ (by decide)
    rw [show rulesOn (.table .meters) = [.key .meters, .unique .meters, .reference .metersLicense,
      .reference .ledgerMeter, .check .balance] by decide]
    simp only [List.forall_mem_cons]
    exact ⟨fun _ => rfl, fun _ => rfl, fun _ => rfl, fun absent => absurd (by decide) absent, fun _ => rfl,
      fun _ member => by cases member⟩
  have drafted := good_unruled storeUsageDraft created fun row => by
    rw [storeUsageDraft_eq]
    rfl
  have inserted := @meters_inserted pg _ drafted rfl
  have emptied : Good afterMeters { insertMeters pg { rows with
      meters := [], licenses := rows.licenses.map storeUsageDraft } with ledger := [] } := by
    refine good_step (.table .ledger) inserted
      (by rintro (⟨⟨⟩⟩ | _ | _) other <;> first | rfl | exact absurd rfl other) ?_ (by decide)
    rw [show rulesOn (.table .ledger) = [.key .ledger, .unique .ledger, .reference .ledgerLicense,
      .reference .ledgerMeter] by decide]
    simp only [List.forall_mem_cons]
    exact ⟨fun _ => rfl, fun _ => rfl, fun _ => rfl, fun _ => rfl, fun _ member => by cases member⟩
  obtain ⟨written, last⟩ := @ledger_inserted pg _ _ emptied rfl List.filter_sublist (List.nil_append _)
  refine ⟨.segment rfl created <| .segment rfl drafted <| .segment rfl inserted <| .segment rfl emptied <|
    .segment (congrArg Except.ok written) last <| .done _, last⟩

end Meters

section Activity

theorem append_distinct {α κ : Type} {one two three : List α} (kind : α → κ) (first second third : κ)
    (left : one.Nodup) (middle : two.Nodup) (right : three.Nodup) (ones : ∀ item ∈ one, kind item = first)
    (twos : ∀ item ∈ two, kind item = second) (threes : ∀ item ∈ three, kind item = third)
    (apart : first ≠ second) (aside : first ≠ third) (away : second ≠ third) :
    (one ++ two ++ three).Nodup := by
  refine List.nodup_append.mpr ⟨List.nodup_append.mpr ⟨left, middle, ?_⟩, right, ?_⟩
  · rintro item before _ after rfl
    exact apart ((ones item before).symm.trans (twos item after))
  · rintro item before _ after rfl
    rcases List.mem_append.mp before with before | before
    · exact aside ((ones item before).symm.trans (threes item after))
    · exact away ((twos item before).symm.trans (threes item after))

def globalTotals (rows : Rows) : List TotalRow :=
  if rows.attempts.isEmpty then [] else [⟨"global", "", attempted, attemptSum rows.attempts⟩]

def licenseTotals (rows : Rows) : List TotalRow :=
  (groups AttemptRow.apiKeyId rows.attempts).map fun group =>
    ⟨"license", group.1, attempted, attemptSum group.2⟩

def customerTotals (rows : Rows) : List TotalRow :=
  (groups (fun pair => pair.2.customerId) (attemptLicenses rows)).map fun group =>
    ⟨"customer", group.1, attempted, attemptSum (group.2.map Prod.fst)⟩

def allTotals (rows : Rows) : List TotalRow :=
  globalTotals rows ++ licenseTotals rows ++ customerTotals rows

def globalBuckets (rows : Rows) : List BucketRow :=
  (groups attemptMinute rows.attempts).map fun group =>
    ⟨group.1, "global", "", attempted, attemptSum group.2⟩

def licenseBuckets (rows : Rows) : List BucketRow :=
  (groups licenseMinute rows.attempts).map fun group =>
    ⟨group.1.1, "license", group.1.2, attempted, attemptSum group.2⟩

def customerBuckets (rows : Rows) : List BucketRow :=
  (groups customerMinute (attemptLicenses rows)).map fun group =>
    ⟨group.1.1, "customer", group.1.2, attempted, attemptSum (group.2.map Prod.fst)⟩

def allBuckets (rows : Rows) : List BucketRow :=
  globalBuckets rows ++ licenseBuckets rows ++ customerBuckets rows

def totalKey (row : TotalRow) : Option Instant × List String := (none, [row.scope, row.scopeId, row.type])

def bucketKey (row : BucketRow) : Option Instant × List String :=
  (some row.minute, [row.scope, row.scopeId, row.type])

theorem groups_distinct {α κ : Type} [DecidableEq κ] {key : α → κ} {items : List α} :
    ((groups key items).map Prod.fst).Nodup := by
  rw [groups_keys]
  exact List.nodup_dedup _

def keyScope (key : Option Instant × List String) : Option String := key.2.head?

theorem allTotals_distinct : ((allTotals rows).map totalKey).Nodup := by
  simp only [allTotals, List.map_append, licenseTotals, customerTotals, List.map_map]
  refine append_distinct keyScope (some "global") (some "license") (some "customer") ?_
    (keys_distinct _ groups_distinct fun one other same => ?_)
    (keys_distinct _ groups_distinct fun one other same => ?_) ?_ ?_ ?_ (by decide) (by decide) (by decide)
  · unfold globalTotals
    split <;> simp
  · simpa [totalKey] using same
  · simpa [totalKey] using same
  · unfold globalTotals
    split <;> simp [totalKey, keyScope]
  all_goals
    intro key member
    obtain ⟨group, -, rfl⟩ := List.mem_map.mp member
    rfl

theorem allBuckets_distinct : ((allBuckets rows).map bucketKey).Nodup := by
  simp only [allBuckets, List.map_append, globalBuckets, licenseBuckets, customerBuckets, List.map_map]
  refine append_distinct keyScope (some "global") (some "license") (some "customer")
    (keys_distinct _ (@groups_distinct _ _ _ attemptMinute _) fun one other same => ?_)
    (keys_distinct _ (@groups_distinct _ _ _ licenseMinute _) fun one other same => ?_)
    (keys_distinct _ (@groups_distinct _ _ _ customerMinute _) fun one other same => ?_)
    ?_ ?_ ?_ (by decide) (by decide) (by decide)
  · simpa [bucketKey] using same
  · simpa [bucketKey, Prod.ext_iff] using same
  · simpa [bucketKey, Prod.ext_iff] using same
  all_goals
    intro key member
    obtain ⟨group, -, rfl⟩ := List.mem_map.mp member
    rfl

def attemptEvents (pg : Postgres) (rows : Rows) : List EventRow :=
  (attemptLicenses rows).map fun pair => attemptEvent pg (canonical pg pair.1.ip) pair.1 pair.2

def addActivity (pg : Postgres) (rows : Rows) : Rows :=
  { rows with
    events := attemptEvents pg rows
    totals := allTotals rows
    buckets := allBuckets rows }

theorem events_good {events : List EventRow} (good : Good pending rows)
    (distinct : (events.map EventRow.id).Nodup) (fewer : ∀ rule ∈ pending, rule ∈ later ∨ rule = .key .events) :
    Good later { rows with events } :=
  good_single (.table .events) (.key .events) (by decide) good
    (by rintro (⟨⟨⟩⟩ | _ | _) other <;> first | rfl | exact absurd rfl other) (decide_eq_true distinct) fewer

theorem totals_good {totals : List TotalRow} (good : Good pending rows)
    (distinct : (totals.map totalKey).Nodup) (fewer : ∀ rule ∈ pending, rule ∈ later ∨ rule = .unique .totals) :
    Good later { rows with totals } :=
  good_single .totals (.unique .totals) (by decide) good
    (by rintro (⟨⟨⟩⟩ | _ | _) other <;> first | rfl | exact absurd rfl other) (decide_eq_true distinct) fewer

theorem buckets_good {buckets : List BucketRow} (good : Good pending rows)
    (distinct : (buckets.map bucketKey).Nodup)
    (fewer : ∀ rule ∈ pending, rule ∈ later ∨ rule = .unique .buckets) : Good later { rows with buckets } :=
  good_single .buckets (.unique .buckets) (by decide) good
    (by rintro (⟨⟨⟩⟩ | _ | _) other <;> first | rfl | exact absurd rfl other) (decide_eq_true distinct) fewer

theorem attempts_joined (good : Good pending rows) (key : .key .licenses ∉ pending)
    (reference : .reference .attemptsLicense ∉ pending) : (attemptLicenses rows).map Prod.fst = rows.attempts :=
  join_fst (of_decide_eq_true (good _ key)) fun row member =>
    holds_reference.mp (good _ reference) _ (List.mem_map.mpr ⟨row, member, rfl⟩)

theorem attemptEvents_distinct (joined : (attemptLicenses rows).map Prod.fst = rows.attempts)
    (distinct : (rows.attempts.map AttemptRow.id).Nodup) : ((attemptEvents pg rows).map EventRow.id).Nodup := by
  rw [← joined, List.map_map] at distinct
  simp only [attemptEvents, List.map_map]
  exact labelled_distinct "legacy-attempt-" distinct

theorem insertAttempts_ok (parses : ∀ row ∈ rows.attempts, (pg.host row.ip).isSome) :
    insertAttempts pg rows = .ok { rows with events := rows.events ++ attemptEvents pg rows } := by
  have events : (attemptLicenses rows).mapM (fun pair => do
      let ip ← pg.address pair.1.ip
      return attemptEvent pg ip pair.1 pair.2) = .ok (attemptEvents pg rows) :=
    mapM_ok fun pair member => by
      rw [address_ok (parses pair.1 (mem_join.mp member).1)]
      rfl
  rw [insertAttempts, events]
  rfl

def clearActivity (rows : Rows) : Rows := { rows with events := [], totals := [], buckets := [] }

theorem activityTables_works (good : Good afterMeters rows) :
    Works holds pg (activityTables.zip [afterEvents, afterTotals, afterActivity]) rows (clearActivity rows) ∧
      Good afterActivity (clearActivity rows) := by
  have events : Good afterEvents { rows with events := [] } := events_good good List.nodup_nil (by decide)
  have totals : Good afterTotals { rows with events := [], totals := [] } :=
    totals_good events List.nodup_nil (by decide)
  have buckets : Good afterActivity (clearActivity rows) := buckets_good totals List.nodup_nil (by decide)
  exact ⟨.segment rfl events <| .segment rfl totals <| .segment rfl buckets <| .done _, buckets⟩

theorem activityTotals_works (good : Good afterActivity rows) (events : rows.events = [])
    (totals : rows.totals = []) (parses : ∀ row ∈ rows.attempts, (pg.host row.ip).isSome) :
    Works holds pg (activityTotals.zip (List.replicate 4 afterActivity)) rows
        { rows with events := attemptEvents pg rows, totals := allTotals rows } ∧
      Good afterActivity { rows with events := attemptEvents pg rows, totals := allTotals rows } := by
  have joined := attempts_joined good (by decide) (by decide)
  have attempts : (rows.attempts.map AttemptRow.id).Nodup := of_decide_eq_true (good (.key .attempts) (by decide))
  have distinct := @allTotals_distinct rows
  have first : (globalTotals rows).Sublist (allTotals rows) :=
    (List.sublist_append_left _ _).trans (List.sublist_append_left _ _)
  have second : (globalTotals rows ++ licenseTotals rows).Sublist (allTotals rows) :=
    List.sublist_append_left _ _
  have inserted : Good afterActivity { rows with events := attemptEvents pg rows } :=
    events_good good (attemptEvents_distinct joined attempts) (by decide)
  have global : Good afterActivity { rows with events := attemptEvents pg rows, totals := globalTotals rows } :=
    totals_good inserted (distinct.sublist (first.map _)) (by decide)
  have license : Good afterActivity { rows with
      events := attemptEvents pg rows, totals := globalTotals rows ++ licenseTotals rows } :=
    totals_good inserted (distinct.sublist (second.map _)) (by decide)
  have customer : Good afterActivity { rows with events := attemptEvents pg rows, totals := allTotals rows } :=
    totals_good inserted distinct (by decide)
  refine ⟨.segment ?_ inserted <| .segment ?_ global <| .segment rfl license <| .segment rfl customer <|
    .done _, customer⟩
  · exact (insertAttempts_ok parses).trans (by rw [events, List.nil_append])
  · exact congrArg (fun found => Except.ok { rows with
      events := attemptEvents pg rows, totals := found ++ globalTotals rows }) totals

theorem activityBuckets_works (good : Good afterActivity rows) (buckets : rows.buckets = []) :
    Works holds pg (activityBuckets.zip (List.replicate 3 afterActivity)) rows
        { rows with buckets := allBuckets rows } ∧
      Good afterActivity { rows with buckets := allBuckets rows } := by
  have distinct := @allBuckets_distinct rows
  have first : (globalBuckets rows).Sublist (allBuckets rows) :=
    (List.sublist_append_left _ _).trans (List.sublist_append_left _ _)
  have second : (globalBuckets rows ++ licenseBuckets rows).Sublist (allBuckets rows) :=
    List.sublist_append_left _ _
  have global : Good afterActivity { rows with buckets := globalBuckets rows } :=
    buckets_good good (distinct.sublist (first.map _)) (by decide)
  have license : Good afterActivity { rows with buckets := globalBuckets rows ++ licenseBuckets rows } :=
    buckets_good good (distinct.sublist (second.map _)) (by decide)
  have customer : Good afterActivity { rows with buckets := allBuckets rows } :=
    buckets_good good distinct (by decide)
  refine ⟨.segment ?_ global <| .segment rfl license <| .segment rfl customer <| .done _, customer⟩
  exact congrArg (fun found => Except.ok { rows with buckets := found ++ globalBuckets rows }) buckets

end Activity

section Registrations

def foundDevices (pg : Postgres) (rows : Rows) : List RegisteredRow :=
  (mappedDevices rows).map fun pair => registration (canonical pg pair.2.ip) pair.1 pair.2

def firstDevices (pg : Postgres) (rows : Rows) : List RegisteredRow :=
  leaders registeredKey registeredOrder (foundDevices pg rows)

def orphanEvents (rows : Rows) : List EventRow :=
  (rows.devices.filter fun device =>
    !rows.mappings.any fun mapping => mapping.registeredDeviceId = device.id).map orphanEvent

def addRegistrations (pg : Postgres) (rows : Rows) : Rows :=
  { rows with
    registered := firstDevices pg rows
    events := attemptEvents pg rows ++ orphanEvents rows }

def fromAttempt (id : String) : Bool := "legacy-attempt-".toList.isPrefixOf id.toList

theorem fromAttempt_attempt (id : String) : fromAttempt ("legacy-attempt-" ++ id) = true := by
  simp [fromAttempt, String.toList_append]

theorem fromAttempt_orphan (id : String) : fromAttempt ("legacy-orphan-device-" ++ id) = false := by
  simp only [fromAttempt, String.toList_append]
  rfl

/-- An attempt and a device without a mapping never have the same event. -/
theorem events_distinct (attempts : ((attemptEvents pg rows).map EventRow.id).Nodup)
    (devices : (rows.devices.map DeviceRow.id).Nodup) :
    ((attemptEvents pg rows ++ orphanEvents rows).map EventRow.id).Nodup := by
  have orphans : ((orphanEvents rows).map EventRow.id).Nodup := by
    simp only [orphanEvents, List.map_map]
    exact labelled_distinct "legacy-orphan-device-" (devices.sublist (List.filter_sublist.map _))
  rw [List.map_append]
  refine List.nodup_append.mpr ⟨attempts, orphans, ?_⟩
  rintro id attempt _ orphan rfl
  simp only [attemptEvents, orphanEvents, List.map_map, List.mem_map] at attempt orphan
  obtain ⟨pair, -, rfl⟩ := attempt
  obtain ⟨device, -, same⟩ := orphan
  have kind := congrArg fromAttempt same
  exact absurd ((fromAttempt_orphan _).symm.trans (kind.trans (fromAttempt_attempt _))) (by decide)

theorem insertRegistered_ok (parses : ∀ pair ∈ mappedDevices rows, (pg.host pair.2.ip).isSome) :
    insertRegistered pg rows = .ok { rows with registered := rows.registered ++ firstDevices pg rows } := by
  have found : (mappedDevices rows).mapM (fun pair => do
      let ip ← pg.address pair.2.ip
      return registration ip pair.1 pair.2) = .ok (foundDevices pg rows) :=
    mapM_ok fun pair member => by
      rw [address_ok (parses pair member)]
      rfl
  rw [insertRegistered, found]
  rfl

theorem foundDevices_ids (joined : (mappedDevices rows).map Prod.fst = rows.mappings) :
    (foundDevices pg rows).map RegisteredRow.id = rows.mappings.map MappingRow.id := by
  rw [← joined, foundDevices, List.map_map, List.map_map]
  rfl

theorem foundDevices_licenses (joined : (mappedDevices rows).map Prod.fst = rows.mappings) :
    (foundDevices pg rows).map RegisteredRow.licenseId = rows.mappings.map MappingRow.apiKeyId := by
  rw [← joined, foundDevices, List.map_map, List.map_map]
  rfl

theorem mappings_joined (good : Good pending rows) (key : .key .devices ∉ pending)
    (reference : .reference .mappingsDevice ∉ pending) : (mappedDevices rows).map Prod.fst = rows.mappings :=
  join_fst (of_decide_eq_true (good _ key)) fun row member =>
    holds_reference.mp (good _ reference) _ (List.mem_map.mpr ⟨row, member, rfl⟩)

theorem registered_good {registered : List RegisteredRow} (good : Good pending rows)
    (ids : (registered.map RegisteredRow.id).Nodup) (keys : (registered.map registeredKey).Nodup)
    (owners : ∀ owner ∈ registered.map RegisteredRow.licenseId, owner ∈ rows.ids .licenses)
    (fewer : ∀ rule ∈ pending, rule ∈ later ∨ rule ∈ rulesOn (.table .registered)) :
    Good later { rows with registered } := by
  refine good_step (.table .registered) good
    (by rintro (⟨⟨⟩⟩ | _ | _) other <;> first | rfl | exact absurd rfl other) ?_ fewer
  rw [show rulesOn (.table .registered) = [.key .registered, .unique .registered,
    .reference .registeredLicense] by decide]
  simp only [List.forall_mem_cons]
  refine ⟨fun _ => decide_eq_true ids, fun _ => decide_eq_true ?_, fun _ => holds_reference.mpr owners,
    fun _ member => by cases member⟩
  have columns : ({ rows with registered } : Rows).keys .registered =
      (registered.map registeredKey).map fun key => (none, [key.1, key.2.1, key.2.2]) := by
    rw [List.map_map]
    rfl
  rw [columns]
  exact keys.map fun one other same => by simpa [Prod.ext_iff] using same

theorem registrations_works (good : Good afterActivity rows) (events : rows.events = attemptEvents pg rows)
    (parses : ∀ row ∈ rows.devices, (pg.host row.ip).isSome) :
    Works holds pg (registrations.zip (List.replicate 3 afterRegistrations)) rows (addRegistrations pg rows) ∧
      Good afterRegistrations (addRegistrations pg rows) := by
  have joined := mappings_joined good (by decide) (by decide)
  have mappings : (rows.mappings.map MappingRow.id).Nodup := of_decide_eq_true (good (.key .mappings) (by decide))
  have devices : (rows.devices.map DeviceRow.id).Nodup := of_decide_eq_true (good (.key .devices) (by decide))
  have attempts : ((attemptEvents pg rows).map EventRow.id).Nodup := by
    rw [← events]
    exact of_decide_eq_true (good (.key .events) (by decide))
  have ids : ((foundDevices pg rows).map RegisteredRow.id).Nodup := by
    rw [foundDevices_ids joined]
    exact mappings
  have created : Good afterRegistrations { rows with registered := [] } :=
    registered_good good List.nodup_nil List.nodup_nil (fun _ member => by cases member) (by decide)
  have inserted : Good afterRegistrations { rows with registered := firstDevices pg rows } := by
    refine registered_good good (ids.sublist (leaders_sublist.map _)) (leaders_distinct (order_distinct ids))
      (fun owner member => ?_) (by decide)
    have listed := (leaders_sublist.map _).subset member
    rw [foundDevices_licenses joined] at listed
    exact holds_reference.mp (good (.reference .mappingsLicense) (by decide)) owner listed
  have last : Good afterRegistrations (addRegistrations pg rows) :=
    events_good inserted (events_distinct attempts devices) (by decide)
  refine ⟨.segment rfl created <| .segment ?_ inserted <| .segment ?_ last <| .done _, last⟩
  · exact insertRegistered_ok fun pair member => parses pair.2 (mem_join.mp member).2.1
  · exact congrArg (fun found => Except.ok { rows with
      registered := firstDevices pg rows, events := found ++ orphanEvents rows }) events

theorem stripe_works (good : Good afterRegistrations rows) :
    Works holds pg (stripe.zip [afterLinks, []]) rows { rows with links := [], webhooks := [] } ∧
      Good [] { rows with links := [], webhooks := [] } := by
  have links : Good afterLinks { rows with links := [] } := by
    refine good_step (.table .links) good
      (by rintro (⟨⟨⟩⟩ | _ | _) other <;> first | rfl | exact absurd rfl other) ?_ (by decide)
    rw [show rulesOn (.table .links) = [.key .links, .unique .linksLicense, .unique .linksSubscription,
      .reference .linksLicense] by decide]
    simp only [List.forall_mem_cons]
    exact ⟨fun _ => rfl, fun _ => rfl, fun _ => rfl, fun _ => rfl, fun _ member => by cases member⟩
  have webhooks : Good [] { rows with links := [], webhooks := [] } :=
    good_single (.table .webhooks) (.key .webhooks) (by decide) links
      (by rintro (⟨⟨⟩⟩ | _ | _) other <;> first | rfl | exact absurd rfl other) rfl (by decide)
  exact ⟨.segment rfl links <| .segment rfl webhooks <| .done _, webhooks⟩

end Registrations

end Keyzori.Migration
