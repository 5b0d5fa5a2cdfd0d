import Keyzori.Migration.Overhaul

/-! No statement of the migration fails. Between two statements all rules hold but the
pending ones, those that the migration is yet to establish; what a statement does to
one table leaves the rules on the others alone. -/

namespace Keyzori.Migration

open SchemaChanges RowGroups

variable {pg : Postgres} {rows : Rows} {pending later : List Rule}

/-- All rules hold but the pending ones. -/
def Good (pending : List Rule) (rows : Rows) : Prop := ∀ rule, rule ∉ pending → holds rows rule = true

section Pending

def sessionRules : List Rule := [.check .sessionRevision]

def shapeRules : List Rule := [.check .subscriptionExpiry, .check .trialRequired]

def meterRules : List Rule :=
  [.key .meters, .check .balance, .reference .metersLicense, .unique .meters]

def ledgerRules : List Rule :=
  [.key .ledger, .reference .ledgerLicense, .reference .ledgerMeter, .unique .ledger]

def registeredRules : List Rule := [.key .registered, .reference .registeredLicense, .unique .registered]

def linkRules : List Rule :=
  [.key .links, .reference .linksLicense, .unique .linksLicense, .unique .linksSubscription]

def afterLinks : List Rule := [.key .webhooks]

def afterRegistrations : List Rule := linkRules ++ afterLinks

def afterActivity : List Rule := registeredRules ++ afterRegistrations

def afterTotals : List Rule := .unique .buckets :: afterActivity

def afterEvents : List Rule := .unique .totals :: afterTotals

def afterMeters : List Rule := .key .events :: afterEvents

def afterUsageMeters : List Rule := ledgerRules ++ afterMeters

def afterAllowlists : List Rule := meterRules ++ afterUsageMeters

def afterTypes : List Rule := shapeRules ++ afterAllowlists

def newRules : List Rule := sessionRules ++ afterTypes

end Pending

section Frames

inductive Part
  | table (table : Table)
  | totals
  | buckets
  deriving DecidableEq

def Same (one other : Rows) : Part → Prop
  | .table .customers => one.customers = other.customers
  | .table .licenses => one.licenses = other.licenses
  | .table .ipEntries => one.ipEntries = other.ipEntries
  | .table .deviceEntries => one.deviceEntries = other.deviceEntries
  | .table .mappings => one.mappings = other.mappings
  | .table .devices => one.devices = other.devices
  | .table .attempts => one.attempts = other.attempts
  | .table .meters => one.meters = other.meters
  | .table .ledger => one.ledger = other.ledger
  | .table .events => one.events = other.events
  | .table .registered => one.registered = other.registered
  | .table .links => one.links = other.links
  | .table .webhooks => one.webhooks = other.webhooks
  | .totals => one.totals = other.totals
  | .buckets => one.buckets = other.buckets

def Unique.part : Unique → Part
  | customersEmail => .table .customers
  | licensesKeyHash => .table .licenses
  | ipEntries => .table .ipEntries
  | deviceEntries => .table .deviceEntries
  | mappings => .table .mappings
  | devices => .table .devices
  | attempts => .table .attempts
  | meters => .table .meters
  | ledger => .table .ledger
  | totals => .totals
  | buckets => .buckets
  | registered => .table .registered
  | linksLicense | linksSubscription => .table .links

def Reference.source : Reference → Table
  | licensesCustomer => .licenses
  | ipEntriesLicense => .ipEntries
  | deviceEntriesLicense => .deviceEntries
  | mappingsLicense | mappingsDevice => .mappings
  | attemptsLicense => .attempts
  | metersLicense => .meters
  | ledgerLicense | ledgerMeter => .ledger
  | registeredLicense => .registered
  | linksLicense => .links

def Check.table : Check → Table
  | balance => .meters
  | _ => .licenses

def Rule.parts : Rule → List Part
  | .key table => [.table table]
  | .unique keys => [keys.part]
  | .reference link => [.table link.source, .table link.target]
  | .check test => [.table test.table]

theorem ids_same {one other : Rows} {table : Table} (same : Same one other (.table table)) :
    one.ids table = other.ids table := by
  cases table <;> exact congrArg (List.map _) same

theorem holds_same {one other : Rows} {rule : Rule} (same : ∀ part ∈ rule.parts, Same one other part) :
    holds one rule = holds other rule := by
  rcases rule with table | keys | reference | check
  · simp only [holds, ids_same (same (.table table) (by simp [Rule.parts]))]
  · have source := same keys.part (by simp [Rule.parts])
    have columns : one.keys keys = other.keys keys := by
      cases keys <;> exact congrArg (List.map _) source
    simp only [holds, columns]
  · have source := same (.table reference.source) (by simp [Rule.parts])
    have columns : one.foreign reference = other.foreign reference := by
      cases reference <;> exact congrArg (List.map _) source
    simp only [holds, columns, ids_same (same (.table reference.target) (by simp [Rule.parts]))]
  · have source := same (.table check.table) (by simp [Rule.parts])
    cases check <;> exact congrArg (List.all · _) source

def allRules : List Rule :=
  [.customers, .licenses, .ipEntries, .deviceEntries, .mappings, .devices, .attempts, .meters, .ledger,
      .events, .registered, .links, .webhooks].map Rule.key ++
    [.customersEmail, .licensesKeyHash, .ipEntries, .deviceEntries, .mappings, .devices, .attempts, .meters,
      .ledger, .totals, .buckets, .registered, .linksLicense, .linksSubscription].map Rule.unique ++
    [.licensesCustomer, .ipEntriesLicense, .deviceEntriesLicense, .mappingsLicense, .mappingsDevice,
      .attemptsLicense, .metersLicense, .ledgerLicense, .ledgerMeter, .registeredLicense,
      .linksLicense].map Rule.reference ++
    [.maxIps, .maxDevices, .maxSessions, .limitUsage, .trialDuration, .sessionRevision,
      .subscriptionExpiry, .trialRequired, .balance].map Rule.check

theorem rule_listed (rule : Rule) : rule ∈ allRules := by
  rcases rule with table | keys | reference | check
  · cases table <;> decide
  · cases keys <;> decide
  · cases reference <;> decide
  · cases check <;> decide

def rulesOn (part : Part) : List Rule := allRules.filter fun rule => part ∈ rule.parts

/-- What a statement does to one table touches the rules on it: they hold after it, or
they are not asked for yet. -/
theorem good_step {written : Rows} (changed : Part) (good : Good pending rows)
    (frame : ∀ part, part ≠ changed → Same written rows part)
    (kept : ∀ rule ∈ rulesOn changed, rule ∉ later → holds written rule = true)
    (fewer : ∀ rule ∈ pending, rule ∈ later ∨ rule ∈ rulesOn changed) : Good later written := by
  intro rule absent
  by_cases member : rule ∈ rulesOn changed
  · exact kept rule member absent
  · have other : changed ∉ rule.parts := fun part =>
      member (List.mem_filter.mpr ⟨rule_listed rule, decide_eq_true part⟩)
    rw [holds_same fun part listed => frame part fun same => other (same ▸ listed)]
    exact good rule fun early => (fewer rule early).elim absent member

theorem good_single {written : Rows} (changed : Part) (only : Rule) (touched : rulesOn changed = [only])
    (good : Good pending rows) (frame : ∀ part, part ≠ changed → Same written rows part)
    (kept : holds written only = true) (fewer : ∀ rule ∈ pending, rule ∈ later ∨ rule = only) :
    Good later written := by
  refine good_step changed good frame ?_ ?_
  · rw [touched]
    exact List.forall_mem_singleton.mpr fun _ => kept
  · rw [touched]
    exact fun rule member => (fewer rule member).imp_right List.mem_singleton.mpr

def Rule.checksLicenses : Rule → Bool
  | .check test => test ≠ .balance
  | _ => false

theorem good_licenses {write : LicenseRow → LicenseRow} (good : Good pending rows)
    (id : ∀ row, (write row).id = row.id) (keyHash : ∀ row, (write row).keyHash = row.keyHash)
    (customerId : ∀ row, (write row).customerId = row.customerId)
    (kept : ∀ check, check ≠ .balance → .check check ∉ later → ∀ row ∈ rows.licenses,
      check.row (write row) = true)
    (fewer : ∀ rule ∈ pending, rule ∈ later ∨ rule.checksLicenses = true) :
    Good later { rows with licenses := rows.licenses.map write } := by
  have ids : (rows.licenses.map write).map LicenseRow.id = rows.licenses.map LicenseRow.id := by
    simp [Function.comp_def, id]
  have keys : ∀ keys, ({ rows with licenses := rows.licenses.map write } : Rows).keys keys = rows.keys keys := by
    intro keys
    cases keys <;> first | rfl | simp [Rows.keys, Function.comp_def, keyHash]
  have owners : ∀ reference,
      ({ rows with licenses := rows.licenses.map write } : Rows).foreign reference = rows.foreign reference := by
    intro reference
    cases reference <;> first | rfl | simp [Rows.foreign, Function.comp_def, customerId]
  have tables : ∀ table, ({ rows with licenses := rows.licenses.map write } : Rows).ids table = rows.ids table := by
    intro table
    cases table <;> first | rfl | exact ids
  intro rule absent
  have held : rule.checksLicenses = false → holds rows rule = true := fun other =>
    good rule fun early => (fewer rule early).elim absent fun same => by rw [other] at same; cases same
  rcases rule with table | keys' | reference | check
  · simpa [holds, tables] using held rfl
  · simpa [holds, keys] using held rfl
  · simpa [holds, owners, tables] using held rfl
  · by_cases balance : check = .balance
    · subst balance
      exact held rfl
    · have passes := kept check balance absent
      cases check <;> first | exact absurd rfl balance | simpa [holds, Check.passes] using passes

theorem holds_reference {reference : Reference} : holds rows (.reference reference) = true ↔
    ∀ owner ∈ rows.foreign reference, owner ∈ rows.ids reference.target := by
  simp only [holds, List.all_eq_true, decide_eq_true_eq]

theorem good_check (check : Check) (good : Good pending rows) (asked : .check check ∉ pending)
    (other : check ≠ .balance) : ∀ row ∈ rows.licenses, check.row row = true := by
  have passes := good _ asked
  cases check <;> first | exact absurd rfl other | simpa [holds, Check.passes] using passes

def ruledColumns (row : LicenseRow) :=
  (row.id, row.keyHash, row.customerId, row.maxIps, row.maxDevices, row.maxSessions, row.limitUsage,
    row.trialDurationMinutes, row.sessionRevision, row.type, row.expiresAt)

theorem good_unruled (write : LicenseRow → LicenseRow) (good : Good pending rows)
    (same : ∀ row, ruledColumns (write row) = ruledColumns row) :
    Good pending { rows with licenses := rows.licenses.map write } := by
  simp only [ruledColumns, Prod.mk.injEq] at same
  refine good_licenses good (fun row => (same row).1) (fun row => (same row).2.1)
    (fun row => (same row).2.2.1) (fun check other asked row member => ?_) fun rule early => .inl early
  have passes := good_check check good asked other row member
  cases check <;> first
    | exact absurd rfl other
    | simpa [Check.row, subscriptionExpiryRequired, trialDurationRequired, same row] using passes

end Frames

section Licenses

def freshColumns (pg : Postgres) (row : LicenseRow) : LicenseRow :=
  { row with
    typeDrafts := .object []
    manualRevokedAt := none
    manualRevocationReason := none
    updatedAt := pg.now
    sessionRevision := 0 }

/-- A license before the columns of other types are cleared. -/
def typedLicense (pg : Postgres) (row : LicenseRow) : LicenseRow :=
  convertType (storeExpiry (storeRevocation (storeTypeDrafts pg (freshColumns pg row))))

def convertLicense (pg : Postgres) (row : LicenseRow) : LicenseRow := clearOtherTypes (typedLicense pg row)

theorem storeRevocation_eq (row : LicenseRow) : storeRevocation row =
    { row with
      manualRevokedAt := if row.revoked then some row.createdAt else row.manualRevokedAt
      manualRevocationReason := if row.revoked then some "Migrated manual revocation"
        else row.manualRevocationReason } := by
  unfold storeRevocation
  split <;> rfl

theorem storeExpiry_eq (row : LicenseRow) : storeExpiry row =
    { row with
      expiresAt := if row.keyType = .subscription ∧ row.trialDurationMinutes = 0 ∧ row.expiresAt = none then
          some row.createdAt
        else row.expiresAt } := by
  unfold storeExpiry
  split <;> rfl

theorem storeUsageDraft_eq (row : LicenseRow) : storeUsageDraft row =
    { row with
      typeDrafts := if row.limitUsage > 0 ∧ ¬hasKey "metered" row.typeDrafts then
          concat row.typeDrafts usageDraft
        else row.typeDrafts } := by
  unfold storeUsageDraft
  split <;> rfl

def newType (keyType : KeyType) (trialDurationMinutes : Int) : LicenseType :=
  if trialDurationMinutes > 0 then .trial
  else match keyType with
    | .perpetual => .lifetime
    | .subscription => .subscription
    | .usage => .metered

theorem typedLicense_eq (row : LicenseRow) : typedLicense pg row =
    { row with
      typeDrafts := concat (typeDraft pg row) (trialDraft row)
      manualRevokedAt := if row.revoked then some row.createdAt else none
      manualRevocationReason := if row.revoked then some "Migrated manual revocation" else none
      updatedAt := pg.now
      sessionRevision := 0
      expiresAt := if row.keyType = .subscription ∧ row.trialDurationMinutes = 0 ∧ row.expiresAt = none then
          some row.createdAt
        else row.expiresAt
      type := newType row.keyType row.trialDurationMinutes } := by
  rw [typedLicense, storeExpiry_eq, storeRevocation_eq]
  rfl

theorem newType_subscription {keyType : KeyType} {trialDurationMinutes : Int}
    (nonnegative : 0 ≤ trialDurationMinutes) :
    newType keyType trialDurationMinutes = .subscription ↔ keyType = .subscription ∧ trialDurationMinutes = 0 := by
  unfold newType
  split
  · next trial => exact ⟨nofun, fun both => absurd both.2 (ne_of_gt trial)⟩
  · next untried =>
    have zero : trialDurationMinutes = 0 := le_antisymm (not_lt.mp untried) nonnegative
    cases keyType <;> simp [zero]

theorem newType_trial {keyType : KeyType} {trialDurationMinutes : Int} :
    newType keyType trialDurationMinutes = .trial ↔ 0 < trialDurationMinutes := by
  unfold newType
  split
  · next trial => exact ⟨fun _ => trial, fun _ => rfl⟩
  · next untried => cases keyType <;> simpa using untried

theorem typedLicense_shaped {row : LicenseRow} (nonnegative : 0 ≤ row.trialDurationMinutes) :
    ((typedLicense pg row).type = .subscription → (typedLicense pg row).expiresAt.isSome) ∧
      ((typedLicense pg row).type = .trial → (typedLicense pg row).trialDurationMinutes > 0) := by
  rw [typedLicense_eq]
  refine ⟨fun subscription => ?_, newType_trial.mp⟩
  obtain ⟨kind, untried⟩ := (newType_subscription nonnegative).mp subscription
  cases expiry : row.expiresAt <;> simp [kind, untried]

/-- Updates of the type and the expiry, while the checks on the two are pending. -/
theorem good_untyped (write : LicenseRow → LicenseRow) (good : Good afterTypes rows)
    (same : ∀ row, write row = { row with type := (write row).type, expiresAt := (write row).expiresAt }) :
    Good afterTypes { rows with licenses := rows.licenses.map write } := by
  refine good_licenses good (fun row => ?_) (fun row => ?_) (fun row => ?_)
    (fun check other asked row member => ?_) fun rule early => .inl early
  · rw [same row]
  · rw [same row]
  · rw [same row]
  · have passes := good_check check good asked other row member
    rw [same row]
    cases check <;> first | exact passes | exact absurd (by decide) asked

/-- Clearing the columns of other types establishes the shape of the licenses. -/
theorem good_shaped (good : Good afterTypes rows)
    (shaped : ∀ row ∈ rows.licenses, (row.type = .subscription → row.expiresAt.isSome) ∧
      (row.type = .trial → row.trialDurationMinutes > 0)) :
    Good afterAllowlists { rows with licenses := rows.licenses.map clearOtherTypes } := by
  refine good_licenses good (fun _ => rfl) (fun _ => rfl) (fun _ => rfl)
    (fun check other asked row member => ?_) (by decide)
  have passes := good_check check good
  obtain ⟨subscription, trial⟩ := shaped row member
  cases check with
  | subscriptionExpiry =>
      by_cases type : row.type = .subscription
      · simp [Check.row, subscriptionExpiryRequired, clearOtherTypes, type, subscription type]
      · simp [Check.row, subscriptionExpiryRequired, clearOtherTypes, type]
  | trialRequired =>
      by_cases type : row.type = .trial
      · simp [Check.row, trialDurationRequired, clearOtherTypes, type, trial type]
      · simp [Check.row, trialDurationRequired, clearOtherTypes, type]
  | trialDuration =>
      have nonnegative : 0 ≤ row.trialDurationMinutes := by
        simpa [Check.row] using passes (by decide) other row member
      by_cases type : row.type = .trial
      · simp [Check.row, clearOtherTypes, type, nonnegative]
      · simp [Check.row, clearOtherTypes, type]
  | balance => rfl
  | _ => exact passes (by decide) other row member

def licensesPending : List (List Rule) :=
  [newRules, newRules, newRules, newRules, afterTypes, afterTypes, afterTypes, afterTypes, afterTypes,
    afterAllowlists]

theorem licenses_works (good : Good newRules rows) :
    Works holds pg (licenses.zip licensesPending) rows
        { rows with licenses := rows.licenses.map (convertLicense pg) } ∧
      Good afterAllowlists { rows with licenses := rows.licenses.map (convertLicense pg) } := by
  have nonnegative : ∀ row ∈ rows.licenses, 0 ≤ row.trialDurationMinutes := fun row member => by
    simpa [Check.row] using good_check .trialDuration good (by decide) (by decide) row member
  have drafts := good_unruled (fun row => { row with typeDrafts := .object [] }) good fun _ => rfl
  have revoked := good_unruled (fun row => { row with manualRevokedAt := none }) drafts fun _ => rfl
  have reasons := good_unruled (fun row => { row with manualRevocationReason := none }) revoked
    fun _ => rfl
  have stamps := good_unruled (fun row => { row with updatedAt := pg.now }) reasons fun _ => rfl
  have revisions : Good afterTypes _ := @good_licenses _ _ afterTypes
    (fun row => { row with sessionRevision := 0 }) stamps (fun _ => rfl) (fun _ => rfl) (fun _ => rfl)
    (fun check other asked row member => by
      have passes := good_check check stamps
      cases check <;> first | rfl | exact passes (by decide) other row member | exact absurd (by decide) asked)
    (by decide)
  have stored := good_unruled (storeTypeDrafts pg) revisions fun _ => rfl
  have revocations := good_unruled storeRevocation stored fun row => by
    rw [storeRevocation_eq]
    rfl
  have expiries := good_untyped storeExpiry revocations fun row => by
    rw [storeExpiry_eq]
  have types := good_untyped convertType expiries fun _ => rfl
  have shaped := good_shaped types fun row member => by
    simp only [List.mem_map, exists_exists_and_eq_and] at member
    obtain ⟨old, listed, rfl⟩ := member
    exact @typedLicense_shaped pg old (nonnegative old listed)
  have works : Works holds pg (licenses.zip licensesPending) rows _ :=
    .segment rfl drafts <| .segment rfl revoked <| .segment rfl reasons <| .segment rfl stamps <|
      .segment rfl revisions <| .segment rfl stored <| .segment rfl revocations <| .segment rfl expiries <|
      .segment rfl types <| .segment rfl shaped <| .done _
  simp only [List.map_map] at works shaped
  exact ⟨works, shaped⟩

end Licenses

end Keyzori.Migration
