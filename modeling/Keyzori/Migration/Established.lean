import Keyzori.Migration.Conversion

namespace Keyzori.Migration

open SchemaChanges RowGroups

variable {pg : Postgres} {legacy rows : Rows} {old new : LicenseRow}

section Run

/-- The segments of the migration with the rules that are pending after each. -/
def plan : List (Segment Rule Postgres Rows × List Rule) :=
  customers.zip [newRules, newRules] ++ licenses.zip licensesPending ++
    allowlists.zip [.unique .ipEntries :: afterAllowlists, afterAllowlists] ++
    meters.zip [afterUsageMeters, afterUsageMeters, afterUsageMeters, afterMeters, afterMeters] ++
    activityTables.zip [afterEvents, afterTotals, afterActivity] ++
    activityTotals.zip (List.replicate 4 afterActivity) ++
    activityBuckets.zip (List.replicate 3 afterActivity) ++
    registrations.zip (List.replicate 3 afterRegistrations) ++ stripe.zip [afterLinks, []]

theorem plan_segments : plan.map Prod.fst = overhaul := rfl

theorem plan_named : planned plan legacyCatalog = true := by decide +kernel

def newLicense (pg : Postgres) (row : LicenseRow) : LicenseRow := storeUsageDraft (convertLicense pg row)

def convert (pg : Postgres) (rows : Rows) : Rows :=
  let typed := { stampCustomers pg rows with licenses := rows.licenses.map (convertLicense pg) }
  let metered := addMeters pg (convertAllowlist pg typed)
  { addRegistrations pg (addActivity pg metered) with links := [], webhooks := [] }

structure Parsed (pg : Postgres) (rows : Rows) : Prop where
  ipEntries : ∀ row ∈ rows.ipEntries, (pg.host row.ip).isSome
  devices : ∀ row ∈ rows.devices, (pg.host row.ip).isSome
  attempts : ∀ row ∈ rows.attempts, (pg.host row.ip).isSome

theorem legacy_good (valid : ∀ rule ∈ legacyCatalog.rules, holds rows rule = true) : Good newRules rows := by
  have split : ∀ rule ∈ allRules, rule ∈ newRules ∨ rule ∈ legacyCatalog.rules := by decide
  intro rule absent
  exact valid rule ((split rule (rule_listed rule)).resolve_left absent)

theorem convert_works (valid : ∀ rule ∈ legacyCatalog.rules, holds rows rule = true)
    (parsed : Parsed pg rows) :
    Works holds pg plan rows (convert pg rows) ∧ Good [] (convert pg rows) := by
  obtain ⟨stamping, stamped⟩ := @customers_works pg _ (legacy_good valid)
  obtain ⟨typing, typed⟩ := @licenses_works pg _ stamped
  obtain ⟨allowing, allowed⟩ := allowlists_works typed parsed.ipEntries
  obtain ⟨metering, metered⟩ := @meters_works pg _ allowed
  obtain ⟨creating, created⟩ := @activityTables_works pg _ metered
  obtain ⟨counting, counted⟩ := activityTotals_works created rfl rfl parsed.attempts
  obtain ⟨filling, filled⟩ := @activityBuckets_works pg _ counted rfl
  obtain ⟨registering, registered⟩ := registrations_works filled rfl parsed.devices
  obtain ⟨linking, linked⟩ := @stripe_works pg _ registered
  have works := works_append (works_append (works_append (works_append (works_append (works_append
    (works_append (works_append stamping typing) allowing) metering) creating) counting) filling)
    registering) linking
  exact ⟨works, linked⟩

/-- No statement fails. -/
theorem overhaul_runs (valid : ∀ rule ∈ legacyCatalog.rules, holds rows rule = true)
    (parsed : Parsed pg rows) :
    ∃ catalog, run holds pg (overhaul.flatMap Segment.statements) ⟨legacyCatalog, rows⟩ =
      .ok ⟨catalog, convert pg rows⟩ := by
  obtain ⟨catalog, -, ran⟩ := run_planned plan_named (convert_works valid parsed).1
  refine ⟨catalog, ?_⟩
  rwa [← plan_segments, List.flatMap_map]

end Run

section Licenses

def CustomerRow.kept (row : CustomerRow) := (row.id, row.email, row.name, row.metadata, row.createdAt)

def LicenseRow.kept (row : LicenseRow) :=
  (row.id, row.keyHash, row.keyPrefix, row.customerId, row.maxIps, row.maxDevices, row.maxSessions,
    row.metadata, row.createdAt)

structure Converted (old new : LicenseRow) : Prop where
  kept : new.kept = old.kept
  revoked : new.manualRevokedAt.isSome = old.revoked
  type : new.type = newType old.keyType old.trialDurationMinutes
  expires : new.expiresAt.isSome ↔ new.type = .subscription
  expiry : new.type = .subscription → ∀ expiresAt, old.expiresAt = some expiresAt → new.expiresAt = some expiresAt
  trial : new.type = .trial → 0 < new.trialDurationMinutes ∧
    new.trialDurationMinutes = old.trialDurationMinutes ∧ new.trialStartedAt = old.trialStartedAt
  untried : new.type ≠ .trial → new.trialDurationMinutes = 0 ∧ new.trialStartedAt = none
  drafted : hasKey "metered" new.typeDrafts = true ↔ old.keyType = .usage ∨ 0 < old.limitUsage
  metered : new.type = .metered → hasKey "metered" new.typeDrafts = true

theorem drafted_metered (row : LicenseRow) : hasKey "metered" (concat (typeDraft pg row) (trialDraft row)) = true ↔
    row.keyType = .usage := by
  cases type : row.keyType <;> by_cases trial : row.trialDurationMinutes > 0 <;>
    simp [typeDraft, trialDraft, type, trial, concat, hasKey, usageDraft]

theorem concat_metered (row : LicenseRow) :
    hasKey "metered" (concat (concat (typeDraft pg row) (trialDraft row)) usageDraft) = true := by
  cases type : row.keyType <;> by_cases trial : row.trialDurationMinutes > 0 <;>
    simp [typeDraft, trialDraft, type, trial, concat, hasKey, usageDraft]

theorem newLicense_eq (row : LicenseRow) : newLicense pg row =
    storeUsageDraft (clearOtherTypes { row with
      typeDrafts := concat (typeDraft pg row) (trialDraft row)
      manualRevokedAt := if row.revoked then some row.createdAt else none
      manualRevocationReason := if row.revoked then some "Migrated manual revocation" else none
      updatedAt := pg.now
      sessionRevision := 0
      expiresAt := if row.keyType = .subscription ∧ row.trialDurationMinutes = 0 ∧ row.expiresAt = none then
          some row.createdAt
        else row.expiresAt
      type := newType row.keyType row.trialDurationMinutes }) := by
  rw [newLicense, convertLicense, typedLicense_eq]

theorem newLicense_drafted : hasKey "metered" (newLicense pg old).typeDrafts = true ↔
    old.keyType = .usage ∨ 0 < old.limitUsage := by
  rw [newLicense_eq, storeUsageDraft_eq]
  simp only [clearOtherTypes]
  split
  · next missing =>
    exact iff_of_true (concat_metered old) (.inr missing.1)
  · next kept =>
    refine ⟨fun drafted => .inl ((drafted_metered old).mp drafted), fun either => ?_⟩
    by_contra absent
    rcases either with usage | positive
    · exact absent ((drafted_metered old).mpr usage)
    · exact kept ⟨positive, absent⟩

theorem newLicense_converted (nonnegative : 0 ≤ old.trialDurationMinutes) :
    Converted old (newLicense pg old) := by
  have type : (newLicense pg old).type = newType old.keyType old.trialDurationMinutes := by
    rw [newLicense_eq, storeUsageDraft_eq]
    rfl
  have expiresAt : (newLicense pg old).expiresAt =
      if newType old.keyType old.trialDurationMinutes = .subscription then
        if old.keyType = .subscription ∧ old.trialDurationMinutes = 0 ∧ old.expiresAt = none then
          some old.createdAt
        else old.expiresAt
      else none := by
    rw [newLicense_eq, storeUsageDraft_eq]
    rfl
  constructor
  · rw [newLicense_eq, storeUsageDraft_eq]
    rfl
  · rw [newLicense_eq, storeUsageDraft_eq]
    cases old.revoked <;> rfl
  · exact type
  · rw [type, expiresAt]
    split
    · next subscription =>
      obtain ⟨kind, untried⟩ := (newType_subscription nonnegative).mp subscription
      refine iff_of_true ?_ subscription
      cases expiry : old.expiresAt <;> simp [kind, untried]
    · next other => simp [other]
  · intro subscription instant expiry
    rw [type] at subscription
    rw [expiresAt, if_pos subscription, expiry, if_neg fun none => by cases none.2.2]
  · intro trial
    rw [type] at trial
    rw [newLicense_eq, storeUsageDraft_eq]
    simp only [clearOtherTypes, if_pos trial]
    exact ⟨newType_trial.mp trial, trivial, trivial⟩
  · intro other
    rw [type] at other
    rw [newLicense_eq, storeUsageDraft_eq]
    simp only [clearOtherTypes, if_neg other]
    exact ⟨trivial, trivial⟩
  · exact newLicense_drafted
  · intro metered
    rw [type] at metered
    refine newLicense_drafted.mpr (.inl ?_)
    unfold newType at metered
    split at metered
    · cases metered
    · cases kind : old.keyType with
      | usage => rfl
      | _ => rw [kind] at metered; cases metered

end Licenses

section Meters

structure Metered (rows : Rows) (old new : LicenseRow) : Prop where
  drafted : hasKey "metered" new.typeDrafts = true → ∃ meter entry,
    (rows.meters.filter fun other => other.licenseId = new.id) = [meter] ∧
      (rows.ledger.filter fun other => other.licenseId = new.id) = [entry] ∧
      meter.name = "usage" ∧ meter.archivedAt = none ∧ meter.balance = old.limitUsage ∧
      entry.meterId = meter.id ∧ entry.kind = "create" ∧ entry.delta = old.limitUsage ∧
      entry.balanceBefore = 0 ∧ entry.balanceAfter = meter.balance
  undrafted : hasKey "metered" new.typeDrafts = false →
    (rows.meters.filter fun other => other.licenseId = new.id) = [] ∧
      (rows.ledger.filter fun other => other.licenseId = new.id) = []

theorem chosen_single {α β κ : Type} [DecidableEq κ] {id : α → κ} {owner : β → κ} {items : List α} {item : α}
    {keep : α → Bool} {write : α → β} (distinct : (items.map id).Nodup)
    (owned : ∀ item, owner (write item) = id item) (member : item ∈ items) :
    (((items.filter keep).map write).filter fun other => owner other = id item) =
      if keep item then [write item] else [] := by
  have same : ((fun other => decide (owner other = id item)) ∘ write) = fun other => decide (id other = id item) := by
    funext other
    simp [owned]
  rw [List.filter_map, same, List.filter_filter]
  have swap : (items.filter fun other => decide (id other = id item) && keep other) =
      ((items.filter fun other => id other = id item).filter keep) := by
    rw [List.filter_filter]
    simp only [Bool.and_comm]
  rw [swap, filter_id distinct member]
  cases kept : keep item <;> simp [kept]

theorem newLicense_kept (row : LicenseRow) : (newLicense pg row).kept = row.kept := by
  rw [newLicense_eq, storeUsageDraft_eq]
  rfl

theorem newLicense_limit (row : LicenseRow) : (newLicense pg row).limitUsage = row.limitUsage := by
  rw [newLicense_eq, storeUsageDraft_eq]
  rfl

theorem newLicense_metered (distinct : (legacy.licenses.map LicenseRow.id).Nodup) (member : old ∈ legacy.licenses) :
    Metered (convert pg legacy) old (newLicense pg old) := by
  let items := legacy.licenses.map (newLicense pg)
  have ids : (items.map LicenseRow.id).Nodup := by
    have same : LicenseRow.id ∘ newLicense pg = LicenseRow.id :=
      funext fun row => (Prod.mk.inj (@newLicense_kept pg row)).1
    rw [List.map_map, same]
    exact distinct
  have listed : newLicense pg old ∈ items := List.mem_map.mpr ⟨old, member, rfl⟩
  have meters : (convert pg legacy).meters =
      (items.filter fun row => hasKey "metered" row.typeDrafts).map (usageMeter pg) := by
    simp only [items, convert, addRegistrations, addActivity, addMeters, convertAllowlist, List.map_map]
    rfl
  have ledger : (convert pg legacy).ledger =
      (items.filter fun row => hasKey "metered" row.typeDrafts).map (createEntry ∘ usageMeter pg) := by
    rw [← List.map_map, ← meters]
    rfl
  have ofMeters := @chosen_single _ _ _ _ LicenseRow.id MeterRow.licenseId items _
    (fun row => hasKey "metered" row.typeDrafts) (usageMeter pg) ids (fun _ => rfl) listed
  have ofLedger := @chosen_single _ _ _ _ LicenseRow.id LedgerRow.licenseId items _
    (fun row => hasKey "metered" row.typeDrafts) (createEntry ∘ usageMeter pg) ids (fun _ => rfl) listed
  rw [← meters] at ofMeters
  rw [← ledger] at ofLedger
  constructor
  · intro drafted
    rw [if_pos drafted] at ofMeters ofLedger
    exact ⟨_, _, ofMeters, ofLedger, rfl, rfl, newLicense_limit old, rfl, rfl, newLicense_limit old, rfl, rfl⟩
  · intro undrafted
    have absent : ¬hasKey "metered" (newLicense pg old).typeDrafts = true := by simp [undrafted]
    rw [if_neg absent] at ofMeters ofLedger
    exact ⟨ofMeters, ofLedger⟩

end Meters

section Activity

def ofCustomer (rows : Rows) (customerId : String) (attempt : AttemptRow) : Bool :=
  rows.licenses.any fun license => license.id = attempt.apiKeyId && license.customerId = customerId

def inScope (rows : Rows) (scope scopeId : String) (attempt : AttemptRow) : Bool :=
  if scope = "global" then scopeId = ""
  else if scope = "license" then attempt.apiKeyId = scopeId
  else if scope = "customer" then ofCustomer rows scopeId attempt
  else false

def Counted (attempts : List AttemptRow) (type : String) (count : Int) : Prop :=
  attempts ≠ [] ∧ type = attempted ∧ count = attemptSum attempts

theorem mem_globalTotals {total : TotalRow} : total ∈ globalTotals rows ↔
    total.scope = "global" ∧ total.scopeId = "" ∧ Counted rows.attempts total.type total.count := by
  unfold globalTotals Counted
  cases rows.attempts with
  | nil => simp
  | cons attempt attempts =>
      obtain ⟨scope, scopeId, type, count⟩ := total
      simp

theorem mem_licenseTotals {total : TotalRow} : total ∈ licenseTotals rows ↔ total.scope = "license" ∧
    Counted (rows.attempts.filter fun attempt => attempt.apiKeyId = total.scopeId) total.type total.count := by
  obtain ⟨scope, scopeId, type, count⟩ := total
  simp only [licenseTotals, mem_groups_map, TotalRow.mk.injEq, Counted]
  constructor
  · rintro ⟨_, some, rfl, rfl, rfl, rfl⟩
    exact ⟨rfl, some, rfl, rfl⟩
  · rintro ⟨rfl, some, rfl, same⟩
    exact ⟨_, some, rfl, rfl, rfl, same.symm⟩

structure Joined (rows : Rows) : Prop where
  distinct : (rows.licenses.map LicenseRow.id).Nodup
  named : ∀ attempt ∈ rows.attempts, attempt.apiKeyId ∈ rows.licenses.map LicenseRow.id

theorem joined_filter (joined : Joined rows) (keep : AttemptRow → LicenseRow → Bool) :
    ((attemptLicenses rows).filter fun pair => keep pair.1 pair.2).map Prod.fst =
      rows.attempts.filter fun attempt =>
        rows.licenses.any fun license => license.id = attempt.apiKeyId && keep attempt license :=
  join_filter_fst joined.distinct joined.named keep

theorem mem_customerTotals {total : TotalRow} (joined : Joined rows) :
    total ∈ customerTotals rows ↔ total.scope = "customer" ∧
      Counted (rows.attempts.filter (ofCustomer rows total.scopeId)) total.type total.count := by
  obtain ⟨scope, scopeId, type, count⟩ := total
  have group : ∀ customerId, ((attemptLicenses rows).filter fun pair => pair.2.customerId = customerId).map Prod.fst =
      rows.attempts.filter (ofCustomer rows customerId) := fun customerId =>
    joined_filter joined fun _ license => license.customerId = customerId
  simp only [customerTotals, mem_groups_map, TotalRow.mk.injEq, Counted, group,
    ← List.map_eq_nil_iff (f := Prod.fst), ne_eq]
  constructor
  · rintro ⟨_, some, rfl, rfl, rfl, rfl⟩
    exact ⟨rfl, some, rfl, rfl⟩
  · rintro ⟨rfl, some, rfl, same⟩
    exact ⟨_, some, rfl, rfl, rfl, same.symm⟩

theorem mem_allTotals {total : TotalRow} (joined : Joined rows) : total ∈ allTotals rows ↔
    Counted (rows.attempts.filter (inScope rows total.scope total.scopeId)) total.type total.count := by
  simp only [allTotals, List.mem_append, mem_globalTotals, mem_licenseTotals, mem_customerTotals joined]
  unfold inScope
  by_cases global : total.scope = "global"
  · by_cases all : total.scopeId = "" <;> simp [global, all, Counted]
  · by_cases license : total.scope = "license"
    · simp [license]
    · by_cases customer : total.scope = "customer"
      · simp [customer]
      · simp [global, license, customer, Counted]

theorem mem_globalBuckets {bucket : BucketRow} : bucket ∈ globalBuckets rows ↔
    bucket.scope = "global" ∧ bucket.scopeId = "" ∧
      Counted (rows.attempts.filter fun attempt => attemptMinute attempt = bucket.minute)
        bucket.type bucket.count := by
  obtain ⟨minute, scope, scopeId, type, count⟩ := bucket
  simp only [globalBuckets, mem_groups_map, BucketRow.mk.injEq, Counted]
  constructor
  · rintro ⟨_, some, rfl, rfl, rfl, rfl, rfl⟩
    exact ⟨rfl, rfl, some, rfl, rfl⟩
  · rintro ⟨rfl, rfl, some, rfl, same⟩
    exact ⟨_, some, rfl, rfl, rfl, rfl, same.symm⟩

theorem mem_licenseBuckets {bucket : BucketRow} : bucket ∈ licenseBuckets rows ↔ bucket.scope = "license" ∧
    Counted (rows.attempts.filter fun attempt => licenseMinute attempt = (bucket.minute, bucket.scopeId))
      bucket.type bucket.count := by
  obtain ⟨minute, scope, scopeId, type, count⟩ := bucket
  simp only [licenseBuckets, mem_groups_map, BucketRow.mk.injEq, Counted]
  constructor
  · rintro ⟨_, some, rfl, rfl, rfl, rfl, rfl⟩
    exact ⟨rfl, some, rfl, rfl⟩
  · rintro ⟨rfl, some, rfl, same⟩
    exact ⟨_, some, rfl, rfl, rfl, rfl, same.symm⟩

theorem mem_customerBuckets {bucket : BucketRow} (joined : Joined rows) :
    bucket ∈ customerBuckets rows ↔ bucket.scope = "customer" ∧
      Counted (rows.attempts.filter fun attempt =>
        attemptMinute attempt = bucket.minute && ofCustomer rows bucket.scopeId attempt)
        bucket.type bucket.count := by
  obtain ⟨minute, scope, scopeId, type, count⟩ := bucket
  have group : ∀ key : Instant × String,
      ((attemptLicenses rows).filter fun pair => customerMinute pair = key).map Prod.fst =
        rows.attempts.filter fun attempt =>
          attemptMinute attempt = key.1 && ofCustomer rows key.2 attempt := by
    intro key
    have pairs : (fun pair : AttemptRow × LicenseRow => decide (customerMinute pair = key)) =
        fun pair => decide (attemptMinute pair.1 = key.1) && decide (pair.2.customerId = key.2) := by
      funext pair
      simp [customerMinute, Prod.ext_iff]
    rw [pairs, joined_filter joined fun attempt license =>
      attemptMinute attempt = key.1 && license.customerId = key.2]
    refine List.filter_congr fun attempt _ => ?_
    cases same : decide (attemptMinute attempt = key.1) <;> simp [ofCustomer]
  simp only [customerBuckets, mem_groups_map, BucketRow.mk.injEq, Counted, group,
    ← List.map_eq_nil_iff (f := Prod.fst), ne_eq]
  constructor
  · rintro ⟨_, some, rfl, rfl, rfl, rfl, rfl⟩
    exact ⟨rfl, some, rfl, rfl⟩
  · rintro ⟨rfl, some, rfl, same⟩
    exact ⟨(_, _), some, rfl, rfl, rfl, rfl, same.symm⟩

theorem mem_allBuckets {bucket : BucketRow} (joined : Joined rows) : bucket ∈ allBuckets rows ↔
    Counted (rows.attempts.filter fun attempt =>
      attemptMinute attempt = bucket.minute && inScope rows bucket.scope bucket.scopeId attempt)
      bucket.type bucket.count := by
  simp only [allBuckets, List.mem_append, mem_globalBuckets, mem_licenseBuckets, mem_customerBuckets joined]
  unfold inScope
  by_cases global : bucket.scope = "global"
  · by_cases all : bucket.scopeId = "" <;> simp [global, all, Counted]
  · by_cases license : bucket.scope = "license"
    · simp [license, licenseMinute, Prod.ext_iff]
    · by_cases customer : bucket.scope = "customer"
      · simp [customer]
      · simp [global, license, customer, Counted]

end Activity

section Registrations

theorem canonical_host {text address : String} (parses : (pg.host text).isSome) :
    canonical pg text = address ↔ pg.host text = some address := by
  obtain ⟨found, same⟩ := Option.isSome_iff_exists.mp parses
  rw [canonical, same, Option.getD_some, Option.some.injEq]

theorem mem_firstDevices {license address device : String}
    (parses : ∀ row ∈ rows.devices, (pg.host row.ip).isSome) :
    (license, address, device) ∈ (firstDevices pg rows).map registeredKey ↔
      ∃ mapping ∈ rows.mappings, ∃ found ∈ rows.devices, found.id = mapping.registeredDeviceId ∧
        mapping.apiKeyId = license ∧ pg.host found.ip = some address ∧ found.hwid = device := by
  rw [firstDevices, leaders_keys, foundDevices, List.map_map, List.mem_map]
  constructor
  · rintro ⟨⟨mapping, found⟩, joined, same⟩
    obtain ⟨member, listed, named⟩ := mem_join.mp joined
    simp only [Function.comp, registeredKey, registration, Prod.mk.injEq] at same
    exact ⟨mapping, member, found, listed, named, same.1, (canonical_host (parses found listed)).mp same.2.1, same.2.2⟩
  · rintro ⟨mapping, member, found, listed, named, rfl, host, rfl⟩
    refine ⟨(mapping, found), mem_join.mpr ⟨member, listed, named⟩, ?_⟩
    simp only [Function.comp, registeredKey, registration, (canonical_host (parses found listed)).mpr host]

theorem mem_allowlist {license address : String} (parses : ∀ row ∈ rows.ipEntries, (pg.host row.ip).isSome) :
    (license, address) ∈ (convertAllowlist pg rows).ipEntries.map ipEntryKey ↔
      ∃ entry ∈ rows.ipEntries, entry.licenseId = license ∧ pg.host entry.ip = some address := by
  rw [convertAllowlist, leaders_keys, List.map_map, List.mem_map]
  constructor
  · rintro ⟨entry, member, same⟩
    simp only [Function.comp, ipEntryKey, canonicalEntry, Prod.mk.injEq] at same
    exact ⟨entry, member, same.1, (canonical_host (parses entry member)).mp same.2⟩
  · rintro ⟨entry, member, rfl, host⟩
    refine ⟨entry, member, ?_⟩
    simp only [Function.comp, ipEntryKey, canonicalEntry, (canonical_host (parses entry member)).mpr host]

end Registrations

section Establishment

/-- What holds of the rows after the migration. -/
structure Established (pg : Postgres) (legacy rows : Rows) : Prop where
  rules : ∀ rule, holds rows rule = true
  customers : rows.customers.map CustomerRow.kept = legacy.customers.map CustomerRow.kept
  licenses : List.Forall₂ (fun old new => Converted old new ∧ Metered rows old new)
    legacy.licenses rows.licenses
  registered : (rows.registered.map registeredKey).Nodup ∧ ∀ license address device,
    (license, address, device) ∈ rows.registered.map registeredKey ↔
      ∃ mapping ∈ legacy.mappings, ∃ found ∈ legacy.devices, found.id = mapping.registeredDeviceId ∧
        mapping.apiKeyId = license ∧ pg.host found.ip = some address ∧ found.hwid = device
  ipEntries : (rows.ipEntries.map ipEntryKey).Nodup ∧ ∀ license address,
    (license, address) ∈ rows.ipEntries.map ipEntryKey ↔
      ∃ entry ∈ legacy.ipEntries, entry.licenseId = license ∧ pg.host entry.ip = some address
  deviceEntries : rows.deviceEntries = legacy.deviceEntries
  totals : (rows.totals.map totalKey).Nodup ∧ ∀ total, total ∈ rows.totals ↔
    Counted (legacy.attempts.filter (inScope legacy total.scope total.scopeId)) total.type total.count
  buckets : (rows.buckets.map bucketKey).Nodup ∧ ∀ bucket, bucket ∈ rows.buckets ↔
    Counted (legacy.attempts.filter fun attempt =>
      attemptMinute attempt = bucket.minute && inScope legacy bucket.scope bucket.scopeId attempt)
      bucket.type bucket.count

theorem convert_licenses : (convert pg legacy).licenses = legacy.licenses.map (newLicense pg) := by
  simp only [convert, addRegistrations, addActivity, addMeters, convertAllowlist, List.map_map]
  rfl

theorem newLicense_owner (row : LicenseRow) :
    (newLicense pg row).id = row.id ∧ (newLicense pg row).customerId = row.customerId := by
  rw [newLicense_eq, storeUsageDraft_eq]
  exact ⟨rfl, rfl⟩

theorem inScope_kept (licenses : rows.licenses = legacy.licenses.map (newLicense pg)) (scope scopeId : String) :
    inScope rows scope scopeId = inScope legacy scope scopeId := by
  funext attempt
  have customer : ofCustomer rows scopeId attempt = ofCustomer legacy scopeId attempt := by
    simp only [ofCustomer, licenses, List.any_map, Function.comp_def, newLicense_owner]
  simp only [inScope, customer]

theorem overhaul_establishes (valid : ∀ rule ∈ legacyCatalog.rules, holds legacy rule = true)
    (parsed : Parsed pg legacy) :
    ∃ catalog rows, run holds pg (overhaul.flatMap Segment.statements) ⟨legacyCatalog, legacy⟩ =
      .ok ⟨catalog, rows⟩ ∧ Established pg legacy rows := by
  obtain ⟨catalog, ran⟩ := overhaul_runs valid parsed
  have good := (convert_works valid parsed).2
  have keys : ∀ unique, ((convert pg legacy).keys unique).Nodup := fun unique =>
    of_decide_eq_true (good (.unique unique) (by simp))
  have distinct : (legacy.licenses.map LicenseRow.id).Nodup :=
    of_decide_eq_true (valid (.key .licenses) (by decide))
  have joined : Joined (convert pg legacy) :=
    ⟨of_decide_eq_true (good (.key .licenses) (by simp)), fun attempt member =>
      holds_reference.mp (good (.reference .attemptsLicense) (by simp)) _
        (List.mem_map.mpr ⟨attempt, member, rfl⟩)⟩
  refine ⟨catalog, convert pg legacy, ran, fun rule => good rule (by simp), ?_, ?_, ⟨?_, ?_⟩, ⟨?_, ?_⟩, rfl,
    ⟨keys .totals, ?_⟩, ⟨keys .buckets, ?_⟩⟩
  · simp only [convert, addRegistrations, addActivity, addMeters, convertAllowlist, stampCustomers, List.map_map]
    rfl
  · rw [convert_licenses, List.forall₂_map_right_iff, List.forall₂_same]
    intro old member
    refine ⟨newLicense_converted ?_, newLicense_metered distinct member⟩
    simpa [Check.row] using good_check .trialDuration (legacy_good valid) (by decide) (by decide) old member
  · refine List.Nodup.of_map (fun key => ((none : Option Instant), [key.1, key.2.1, key.2.2])) ?_
    rw [List.map_map]
    exact keys .registered
  · intro license address device
    exact mem_firstDevices parsed.devices
  · refine List.Nodup.of_map (fun key => ((none : Option Instant), [key.1, key.2])) ?_
    rw [List.map_map]
    exact keys .ipEntries
  · intro license address
    exact mem_allowlist parsed.ipEntries
  · intro total
    rw [← inScope_kept convert_licenses]
    exact mem_allTotals ⟨joined.distinct, joined.named⟩
  · intro bucket
    rw [← inScope_kept convert_licenses]
    exact mem_allBuckets ⟨joined.distinct, joined.named⟩

/-- Three licenses of a customer, one of them a started trial, with two texts of one address
and a device that no license has registered. -/
def legacySample : Rows where
  customers := [⟨"c1", "ada@example.com", "Ada", "{}", 1000, 0⟩]
  licenses := [
    { id := "l1", keyHash := "h1", keyPrefix := "k1", customerId := "c1", keyType := .usage
      type := .lifetime, maxIps := 2, maxDevices := 2, maxSessions := 1, limitUsage := 5
      trialDurationMinutes := 0, trialStartedAt := none, metadata := "{}", expiresAt := none
      revoked := false, createdAt := 2000, typeDrafts := .null, manualRevokedAt := none
      manualRevocationReason := none, updatedAt := 0, sessionRevision := 0 },
    { id := "l2", keyHash := "h2", keyPrefix := "k2", customerId := "c1", keyType := .subscription
      type := .lifetime, maxIps := 0, maxDevices := 0, maxSessions := 0, limitUsage := 0
      trialDurationMinutes := 0, trialStartedAt := none, metadata := "{}", expiresAt := none
      revoked := true, createdAt := 3000, typeDrafts := .null, manualRevokedAt := none
      manualRevocationReason := none, updatedAt := 0, sessionRevision := 0 },
    { id := "l3", keyHash := "h3", keyPrefix := "k3", customerId := "c1", keyType := .subscription
      type := .lifetime, maxIps := 1, maxDevices := 1, maxSessions := 1, limitUsage := 0
      trialDurationMinutes := 60, trialStartedAt := some 9000, metadata := "{}", expiresAt := some 95000
      revoked := false, createdAt := 4000, typeDrafts := .null, manualRevokedAt := none
      manualRevocationReason := none, updatedAt := 0, sessionRevision := 0 }]
  ipEntries := [⟨"e1", "l1", "2001:DB8::1", 4000⟩, ⟨"e2", "l1", "2001:db8::1", 5000⟩]
  deviceEntries := []
  mappings := [⟨"m1", "l1", "d1", 6000⟩, ⟨"m2", "l1", "d2", 7000⟩]
  devices := [⟨"d1", "2001:DB8::1", "pc", 6000⟩, ⟨"d2", "2001:db8::1", "pc", 7000⟩,
    ⟨"d3", "2001:db8::1", "tablet", 8000⟩]
  attempts := [⟨"a1", "l1", "2001:db8::1", "pc", 3, 6000, 65000⟩, ⟨"a2", "l2", "2001:db8::1", "pc", 1, 8000, 61000⟩]
  meters := []
  ledger := []
  events := []
  totals := []
  buckets := []
  registered := []
  links := []
  webhooks := []

def postgresSample : Postgres where
  host text := if text = "2001:DB8::1" ∨ text = "2001:db8::1" then some "2001:db8::1" else none
  timestampText _ := "1970-01-01 00:00:00"
  timestampJson _ := "1970-01-01T00:00:00"
  now := 90000

theorem overhaul_establishes_sample :
    (∀ rule ∈ legacyCatalog.rules, holds legacySample rule = true) ∧ Parsed postgresSample legacySample ∧
      ∃ catalog rows, run holds postgresSample (overhaul.flatMap Segment.statements)
        ⟨legacyCatalog, legacySample⟩ = .ok ⟨catalog, rows⟩ ∧ Established postgresSample legacySample rows :=
  have valid : ∀ rule ∈ legacyCatalog.rules, holds legacySample rule = true := by decide +kernel
  have parsed : Parsed postgresSample legacySample := by constructor <;> decide
  ⟨valid, parsed, overhaul_establishes valid parsed⟩

end Establishment

end Keyzori.Migration
