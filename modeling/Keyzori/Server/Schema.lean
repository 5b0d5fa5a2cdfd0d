import Keyzori.Meters.Owners
import Keyzori.Server.RowKeys
import Keyzori.Server.Shape

/-! The keys, foreign keys, unique indexes, checks and integer ranges that the schema
declares for the tables of the model hold in every state of every run. Of a customer the
model has the key only, of an allowlist entry no key, and of an event's attempts no range. -/

namespace Keyzori

open Interleaving MeterRegion

structure LimitsBounded (row : LicenseColumns) : Prop where
  maxIps : MeterRegion.Bounded row.maxIps
  maxDevices : MeterRegion.Bounded row.maxDevices
  maxSessions : MeterRegion.Bounded row.maxSessions

structure RowsSound (data : LicenseData) : Prop where
  limits : LimitsBounded data.row.toLicenseColumns
  owners : ∀ device ∈ data.devices, device.licenseId = data.row.id
  allowedIps : data.allowedIps.Nodup
  allowedDevices : data.allowedDevices.Nodup

section Writes

variable {id : LicenseId} {data : LicenseData} {now : Instant} {write : Write} {writes : List Write}

theorem insertNew_nodup {value : String} {values : List String} (distinct : values.Nodup) :
    (insertNew value values).Nodup := by
  rw [insertNew]
  split
  · exact distinct
  · next absent =>
    exact distinct.append (List.nodup_singleton value) (by simpa using absent)

theorem insertDevice_owners {device : RegisteredDevice} {devices : List RegisteredDevice}
    (owners : ∀ stored ∈ devices, stored.licenseId = id) (own : device.licenseId = id) :
    ∀ stored ∈ insertDevice device devices, stored.licenseId = id := by
  intro stored member
  rw [insertDevice] at member
  split at member
  · obtain ⟨old, listed, rfl⟩ := List.mem_map.mp member
    split <;> exact owners old listed
  · rcases List.mem_append.mp member with old | new
    · exact owners stored old
    · rw [List.mem_singleton.mp new]
      exact own

/-- What a write must bring for the rows to stay sound. -/
def Proper (id : LicenseId) : Write → Prop
  | .updateLicense update | .updateWithSessionInvalidation update =>
      ∀ value, update.maxIps = some value ∨ update.maxDevices = some value ∨
        update.maxSessions = some value → MeterRegion.Bounded value
  | .insertDevice device => device.licenseId = id
  | _ => True

theorem chosen_bounded {field : Option Int} {old : Int} (kept : MeterRegion.Bounded old)
    (given : ∀ value, field = some value → MeterRegion.Bounded value) : MeterRegion.Bounded (field.getD old) := by
  cases field with
  | none => exact kept
  | some value => exact given value rfl

theorem update_limits {update : LicenseUpdate} {row : StoredLicense}
    (limits : LimitsBounded row.toLicenseColumns)
    (proper : ∀ value, update.maxIps = some value ∨ update.maxDevices = some value ∨
      update.maxSessions = some value → MeterRegion.Bounded value) :
    LimitsBounded (update.apply row).toLicenseColumns := by
  exact ⟨chosen_bounded limits.maxIps fun value same => proper value (.inl same),
    chosen_bounded limits.maxDevices fun value same => proper value (.inr (.inl same)),
    chosen_bounded limits.maxSessions fun value same => proper value (.inr (.inr same))⟩

theorem apply_rowsSound (proper : Proper data.row.id write) (sound : RowsSound data) :
    RowsSound (write.apply now data) := by
  obtain ⟨limits, owners, allowedIps, allowedDevices⟩ := sound
  cases write with
  | updateLicense update =>
      have updated := update_limits limits proper
      exact ⟨⟨updated.maxIps, updated.maxDevices, updated.maxSessions⟩, owners, allowedIps, allowedDevices⟩
  | updateWithSessionInvalidation update =>
      have updated := update_limits limits proper
      exact ⟨⟨updated.maxIps, updated.maxDevices, updated.maxSessions⟩, owners, allowedIps, allowedDevices⟩
  | insertDevice device =>
      exact ⟨limits, insertDevice_owners owners proper, allowedIps, allowedDevices⟩
  | touchDevice deviceRow seenAt =>
      refine ⟨limits, fun device member => ?_, allowedIps, allowedDevices⟩
      obtain ⟨old, listed, rfl⟩ := List.mem_map.mp member
      split <;> exact owners old listed
  | deleteDevices filter =>
      exact ⟨limits, fun device member => owners device (List.mem_filter.mp member).1, allowedIps,
        allowedDevices⟩
  | allowIp ip => exact ⟨limits, owners, insertNew_nodup allowedIps, allowedDevices⟩
  | removeAllowedIp ip => exact ⟨limits, owners, allowedIps.filter _, allowedDevices⟩
  | allowDevice deviceId => exact ⟨limits, owners, allowedIps, insertNew_nodup allowedDevices⟩
  | removeAllowedDevice deviceId => exact ⟨limits, owners, allowedIps, allowedDevices.filter _⟩
  | _ => exact ⟨⟨limits.maxIps, limits.maxDevices, limits.maxSessions⟩, owners, allowedIps, allowedDevices⟩

theorem apply_rowId : (write.apply now data).row.id = data.row.id := by
  cases write <;> rfl

theorem applyWrites_rowsSound (proper : ∀ write ∈ writes, Proper data.row.id write)
    (sound : RowsSound data) : RowsSound (applyWrites now writes data) := by
  induction writes generalizing data with
  | nil => exact sound
  | cons write writes ih =>
      refine ih (fun later member => ?_) (apply_rowsSound (proper write (.head _)) sound)
      rw [apply_rowId]
      exact proper later (.tail _ member)

theorem apply_customer {tables : Tables} (lawful : tables.violation id write = none)
    (quiet : ∀ update, write = .updateWithSessionInvalidation update → update.customerId = none) :
    (write.apply now data).row.customerId = data.row.customerId ∨
      (write.apply now data).row.customerId ∈ tables.customers := by
  cases write with
  | updateLicense update =>
      change update.customerId.getD data.row.customerId = _ ∨ update.customerId.getD data.row.customerId ∈ _
      cases moved : update.customerId with
      | none => exact .inl rfl
      | some customerId =>
          simp only [Tables.violation, moved] at lawful
          split at lawful
          · next known => exact .inr known
          · cases lawful
  | updateWithSessionInvalidation update =>
      refine .inl ?_
      change update.customerId.getD data.row.customerId = _
      rw [quiet update rfl, Option.getD_none]
  | _ => exact .inl rfl

theorem applyWrites_customer {tables : Tables}
    (lawful : ∀ write ∈ writes, tables.violation id write = none)
    (quiet : ∀ update, .updateWithSessionInvalidation update ∈ writes → update.customerId = none) :
    (applyWrites now writes data).row.customerId = data.row.customerId ∨
      (applyWrites now writes data).row.customerId ∈ tables.customers := by
  induction writes generalizing data with
  | nil => exact .inl rfl
  | cons write writes ih =>
      have rest := @ih (write.apply now data) (fun later member => lawful later (.tail _ member))
        fun update member => quiet update (.tail _ member)
      have first := @apply_customer id data now write tables (lawful write (.head _)) fun update same =>
        quiet update (same ▸ .head _)
      refine rest.elim (fun kept => ?_) .inr
      exact first.imp (fun same => kept.trans same) fun known => kept ▸ known

end Writes

section Commits

variable {host : Host} {request : Request} {view : ServerView} {call : Nat} {id : LicenseId}
  {data : LicenseData} {now : Instant} {writes : List Write}

theorem validateLimit_bounded {value : Option Number} {label : String} {limit : Option Int} {accepted : Int}
    (valid : AdminService.validateLimit value label = .ok limit) (given : limit = some accepted) :
    MeterRegion.Bounded accepted := by
  subst given
  cases value with
  | none => cases valid
  | some value =>
      cases checked : validateInteger value label with
      | error error =>
          simp [AdminService.validateLimit, checked, Except.map] at valid
      | ok limit =>
          simp only [AdminService.validateLimit, checked, Except.map, Except.ok.injEq, Option.some.injEq] at valid
          subst valid
          exact (validateInteger_bounds checked).2

theorem validateLimits_bounded {maxIps maxDevices maxSessions : Option Number} {limits : AdminService.Limits}
    (valid : AdminService.validateLimits maxIps maxDevices maxSessions = .ok limits) :
    ∀ value, limits.maxIps = some value ∨ limits.maxDevices = some value ∨ limits.maxSessions = some value →
      MeterRegion.Bounded value := by
  obtain ⟨ips, first, valid⟩ := bind_ok.mp valid
  obtain ⟨devices, second, valid⟩ := bind_ok.mp valid
  obtain ⟨sessions, third, valid⟩ := bind_ok.mp valid
  cases valid
  rintro value (same | same | same)
  · exact validateLimit_bounded first same
  · exact validateLimit_bounded second same
  · exact validateLimit_bounded third same

/-- A limit that an update sets was validated, or is the one of the row that it locked. -/
theorem computed_bounded {trace : ServerTrace} {current : License} {input : UpdateLicenseInput}
    {update : LicenseUpdate} {options : LicenseUpdateOptions} {currentMeters : List LicenseMeter}
    (computed : Computed trace id current input update options currentMeters)
    (limits : LimitsBounded current.toLicenseColumns) :
    ∀ value, update.maxIps = some value ∨ update.maxDevices = some value ∨ update.maxSessions = some value →
      MeterRegion.Bounded value := by
  obtain ⟨given, config, valid, rfl⟩ := computed.limited
  have checked := validateLimits_bounded valid
  rintro value (same | same | same)
  · cases same
    exact chosen_bounded limits.maxIps fun value given => checked value (.inl given)
  · cases same
    exact chosen_bounded limits.maxDevices fun value given => checked value (.inr (.inl given))
  · cases same
    exact chosen_bounded limits.maxSessions fun value given => checked value (.inr (.inr given))

theorem commits_proper (sound : Sound view) (limits : LimitsBounded data.row.toLicenseColumns)
    (commits : Commits host request (view.trace call) id writes)
    (present : view.world.tables.licenses id = some data) : ∀ write ∈ writes, Proper id write := by
  cases commits with
  | edited id input current row update link inserted statements edits =>
      obtain ⟨options, currentMeters, computed, branch, inserts⟩ := edits.computed
      obtain ⟨rfl, columns⟩ := unchanged_row sound edits.unchanged data present
      have bounded := computed_bounded computed (columns ▸ limits)
      intro write member
      rcases List.mem_append.mp member with first | last
      · rcases inserts_shape inserts with rfl | ⟨table, rfl⟩
        · cases first
        · cases List.mem_singleton.mp first
          trivial
      · cases updateStatements_cases branch <;> simp only [List.mem_cons, List.not_mem_nil, or_false] at last
        · subst last
          exact bounded
        · rcases last with rfl | rfl
          · trivial
          · exact bounded
        · subst last
          exact bounded
  | admitted binding license row started registered admitting starts registers =>
      refine List.forall_mem_append.mpr ⟨?_, ?_⟩
      · cases starts <;> simp [Proper]
      · cases registers <;> simp [Proper]
  | removed id filter always count increment asked counted increments =>
      cases increments <;> simp [Proper]
  | reconciled subscriptionId existing locked id row fetched stamp reconciling type =>
      cases fetched.snapshot.paidThrough <;> simp [Proper]
  | allowed id write listed asked =>
      cases write <;> first | exact List.forall_mem_singleton.mpr trivial | cases listed
  | _ => simp [Proper]

/-- Only a revocation updates a license together with its session revision. -/
theorem commits_invalidation (commits : Commits host request (view.trace call) id writes)
    {update : LicenseUpdate} (member : .updateWithSessionInvalidation update ∈ writes) :
    update.customerId = none := by
  cases commits with
  | revoked id stamp reason text asked =>
      cases List.mem_singleton.mp member
      rfl
  | edited id input current row update link inserted statements edits =>
      obtain ⟨options, currentMeters, computed, branch, inserts⟩ := edits.computed
      rcases List.mem_append.mp member with first | last
      · rcases inserts_shape inserts with rfl | ⟨table, rfl⟩
        · cases first
        · cases List.mem_singleton.mp first
      · cases updateStatements_cases branch <;> simp at last
  | admitted binding license row started registered admitting starts registers =>
      cases starts <;> cases registers <;> simp at member
  | removed id filter always count increment asked counted increments =>
      cases increments <;> simp at member
  | reconciled subscriptionId existing locked id row fetched stamp reconciling type =>
      cases fetched.snapshot.paidThrough <;> simp at member
  | allowed id write listed asked =>
      cases List.mem_singleton.mp member
      cases listed
  | _ => simp at member

theorem created_limits {trace : ServerTrace} {new : NewLicense} {table : MeterTable}
    (creates : Creates request trace id new table) :
    MeterRegion.Bounded new.maxIps ∧ MeterRegion.Bounded new.maxDevices ∧ MeterRegion.Bounded new.maxSessions := by
  obtain ⟨input, limits, config, meters, valid, rfl⟩ := creates.limited
  have checked := validateLimits_bounded valid
  exact ⟨chosen_bounded bounded_zero fun value same => checked value (.inl same),
    chosen_bounded bounded_zero fun value same => checked value (.inr (.inl same)),
    chosen_bounded bounded_zero fun value same => checked value (.inr (.inr same))⟩

theorem scripts_owned {trace : ServerTrace} {region : MeterRegion} {table : MeterTable}
    (owned : region.Owned id) (scripts : MeterScripts request trace id region table) :
    Owned id (some table) := by
  cases scripts with
  | create input name balance reason now meter asked first ran => exact createMeter_owned owned ran
  | archive text reasonText name reason row now meter asked first locked ran => exact archiveMeter_owned owned ran
  | adjust name delta reason kind now result asked ran => exact adjustMeter_owned owned ran
  | consume name units eventIdHash now result asked ran => exact consumeMeter_owned owned ran

theorem edits_owned {input : UpdateLicenseInput} {current : License} {row : StoredLicense}
    {update : LicenseUpdate} {link : Option StripeSubscriptionLink} {inserted statements : List Write}
    (sound : Sound view) (owned : Owned id (some data.meters))
    (edits : Edits request (view.trace call) id input current row update link inserted statements)
    (present : view.world.tables.licenses id = some data) :
    Owned id (some (applyWrites now (inserted ++ statements) data).meters) := by
  obtain ⟨meters, -⟩ := @edits_meters request view call id data now input current row update link
    inserted statements edits
  obtain ⟨options, currentMeters, computed, branch, inserts⟩ := edits.computed
  rw [meters]
  cases inserts with
  | nothing | missing => exact owned
  | inserted region table now read ran =>
      obtain rfl := region_read sound read (insertNewMeters_continues ran).present.symm present
      exact insertNewMeters_owned owned ran

theorem commits_owned (sound : Sound view) (owned : Owned id (some data.meters))
    (commits : Commits host request (view.trace call) id writes)
    (present : view.world.tables.licenses id = some data) :
    Owned id (some (applyWrites now writes data).meters) := by
  cases commits with
  | metered id region table read scripts =>
      obtain rfl := scripts_region sound read scripts present
      exact scripts_owned owned scripts
  | edited id input current row update link inserted statements edits =>
      exact edits_owned sound owned edits present
  | admitted binding license row started registered admitting starts registers =>
      cases starts <;> cases registers <;> exact owned
  | removed id filter always count increment asked counted increments =>
      cases increments <;> exact owned
  | reconciled subscriptionId existing locked id row fetched stamp reconciling type =>
      cases fetched.snapshot.paidThrough <;> exact owned
  | allowed id write listed asked =>
      cases write <;> first | exact owned | cases listed
  | _ => exact owned

theorem created_owned {trace : ServerTrace} {new : NewLicense} {table : MeterTable}
    (creates : Creates request trace id new table) : Owned id (some table) := by
  obtain ⟨draw, ⟨region, result⟩, ran, rfl⟩ := creates.meters
  cases region with
  | none => exact owned_empty
  | some table => exact createLicenseMeters_owned ran

theorem lasting_owned (host : Host) : Lasting host fun data => Owned data.row.id (some data.meters) where
  created _ _ _ creates := created_owned creates
  committed now sound owned commits present := by
    have own := sound.consistent.tables.rowId _ _ present
    rw [applyWrites_row_le.id, own]
    exact commits_owned sound (own ▸ owned _ (.inl rfl) _ _ present) commits present
  relabelled _ _ _ owned := owned

theorem lasting_rows (host : Host) : Lasting host RowsSound where
  created _ _ _ creates := by
    obtain ⟨ips, devices, sessions⟩ := created_limits creates
    exact ⟨⟨ips, devices, sessions⟩, List.forall_mem_nil _, List.nodup_nil, List.nodup_nil⟩
  committed _ sound holds commits present := by
    have rows := holds _ (.inl rfl) _ _ present
    have proper := commits_proper sound rows.limits commits present
    rw [← sound.consistent.tables.rowId _ _ present] at proper
    exact applyWrites_rowsSound proper rows
  relabelled _ _ _ rows := ⟨rows.limits, rows.owners, rows.allowedIps, rows.allowedDevices⟩

end Commits

section Customers

variable {host : Host} {request : Request} {view : ServerView} {call : Nat} {id : LicenseId}
  {data : LicenseData} {act : Act} {world next : World}

structure CustomersSound (world : World) : Prop where
  distinct : world.tables.customers.Nodup
  owned : ∀ id data, world.tables.licenses id = some data → data.row.customerId ∈ world.tables.customers

theorem claim_customers (due : List StripeWebhookEvent) (now : Instant) (tables : Tables) :
    (due.foldl (fun tables event => updateEvent event.eventId (claimed now) tables) tables).customers =
      tables.customers := by
  induction due generalizing tables with
  | nil => rfl
  | cons event due ih => exact ih (updateEvent event.eventId (claimed now) tables)

theorem exec_customers {input : Input} {result : Except Failure act.Val}
    (ran : exec call act input world = some (next, result)) :
    next.tables.customers = world.tables.customers ∨
      (∃ id, id ∉ world.tables.customers ∧ next.tables.customers = id :: world.tables.customers) ∨
      ∃ customerId, act = .deleteCustomer customerId ∧ next = world.cascaded customerId := by
  cases act with
  | insertCustomer id =>
      rcases await_next ran with rfl | ⟨ready, rfl⟩
      · exact .inl rfl
      · exact .inr (.inl ⟨id, of_decide_eq_true ready, rfl⟩)
  | deleteCustomer customerId =>
      cases exec_effect ran with
      | cascaded => exact .inr (.inr ⟨customerId, rfl, rfl⟩)
      | _ => exact .inl rfl
  | claimDue limit now =>
      cases exec_effect ran with
      | claimed => exact .inl (claim_customers _ now world.tables)
      | _ => exact .inl rfl
  | _ => cases exec_effect ran <;> exact .inl rfl

theorem exec_insertLicense {keyHash keyPrefix : String} {new : NewLicense} {meters : MeterTable}
    {input : Input} {result : Except Failure StoredLicense}
    (ran : exec call (.insertLicense id keyHash keyPrefix new meters) input world = some (next, result)) :
    next = world ∨ new.customerId ∈ world.tables.customers := by
  simp only [exec] at ran
  split at ran
  · cases ran
    exact .inl rfl
  · next known => exact .inr (not_not.mp known)

theorem act_customers (sound : CustomersSound world) {input : Input} {result : Except Failure act.Val}
    (held : warrant host request (view.trace call) act)
    (ran : exec call act input world = some (next, result)) : CustomersSound next := by
  have kept : ∀ customerId, (∀ other, act ≠ .deleteCustomer other) →
      customerId ∈ world.tables.customers → customerId ∈ next.tables.customers := by
    intro customerId other known
    rcases exec_customers ran with same | ⟨id, -, same⟩ | ⟨deleted, same, -⟩
    · rw [same]
      exact known
    · rw [same]
      exact .tail _ known
    · exact absurd same (other deleted)
  constructor
  · rcases exec_customers ran with same | ⟨id, fresh, same⟩ | ⟨customerId, -, rfl⟩
    · rw [same]
      exact sound.distinct
    · rw [same]
      exact sound.distinct.cons fresh
    · exact sound.distinct.filter _
  · intro id data later
    cases effect_origin (exec_effect ran) later with
    | same _ before =>
        have owned := sound.owned id data before
        rcases exec_customers ran with same | ⟨new, -, same⟩ | ⟨customerId, -, rfl⟩
        · rw [same]
          exact owned
        · rw [same]
          exact .tail _ owned
        · refine List.mem_filter.mpr ⟨owned, decide_eq_true fun same => ?_⟩
          have cascades : world.tables.ownedBy customerId id = true := by simp [Tables.ownedBy, before, same]
          simp [World.cascaded, cascades] at later
    | committed expected writes old now before admitted lawful written exact =>
        have quiet := fun update member => @commits_invalidation host request view call id writes held update member
        have owned := sound.owned id old before
        rw [written]
        refine kept _ (fun _ same => by cases same) ?_
        rcases @applyWrites_customer id old now writes world.tables (List.findSome?_eq_none_iff.mp lawful) quiet
          with same | known
        · exact same ▸ owned
        · exact known
    | inserted keyHash keyPrefix new meters now fresh unused written exact =>
        rcases exec_insertLicense ran with rfl | known
        · exact sound.owned id data later
        · rw [written]
          exact kept _ (fun _ same => by cases same) known
    | linkError subscriptionId error link old now found owner before free written =>
        rw [written]
        exact kept _ (fun _ same => by cases same) (sound.owned id old before)

theorem allowed_customers {view next : ServerView} (sound : CustomersSound view.world)
    (step : ServerAllowed host view next) : CustomersSound next.world := by
  cases step with
  | start call request unused idle => exact sound
  | act call request act input world result asked held ran => exact act_customers sound held ran
  | environment event => cases event <;> exact ⟨sound.distinct, sound.owned⟩

end Customers

structure LicenseChecks (row : LicenseColumns) : Prop where
  limits : LimitsBounded row
  revision : MeterRegion.Bounded row.sessionRevision
  trialDuration : MeterRegion.Bounded row.trialDurationMinutes
  subscriptionExpiryRequired : row.type = .subscription → row.expiresAt ≠ none
  trialDurationRequired : row.type = .trial → 0 < row.trialDurationMinutes

structure LicenseSchema (tables : Tables) (id : LicenseId) (data : LicenseData) : Prop where
  key : data.row.id = id
  customer : data.row.customerId ∈ tables.customers
  checks : LicenseChecks data.row.toLicenseColumns
  link : ∀ link, data.link = some link → link.licenseId = id
  owners : ∀ device ∈ data.devices, device.licenseId = id
  devices : data.deviceKeys.Nodup
  registered : data.pairs.Nodup
  allowedIps : data.allowedIps.Nodup
  allowedDevices : data.allowedDevices.Nodup
  owned : Owned id (some data.meters)
  meters : data.meterKeys.Nodup ∧ (data.meters.meters.map LicenseMeter.name).Nodup
  ledger : data.entryKeys.Nodup
  balances : ∀ meter ∈ data.meters.meters, MeterRegion.Bounded meter.balance
  entries : ∀ entry ∈ data.meters.ledger, Columns entry ∧
    ∃ meter ∈ data.meters.meters, meter.id = entry.meterId
  events : (data.meters.ledger.map UsageLedgerEntry.eventId).Nodup

/-- What `schema.ts` declares of the tables, as far as the model has their columns. -/
structure SchemaHolds (tables : Tables) : Prop where
  customers : tables.customers.Nodup
  licenses : ∀ id data, tables.licenses id = some data → LicenseSchema tables id data
  devices : Apart tables LicenseData.deviceKeys
  links : Apart tables LicenseData.linkKeys
  meters : Apart tables LicenseData.meterKeys
  entries : Apart tables LicenseData.entryKeys
  keyHash : ∀ id other data otherData, tables.licenses id = some data →
    tables.licenses other = some otherData → data.row.keyHash = otherData.row.keyHash → id = other
  subscription : ∀ id other link otherLink, tables.link id = some link →
    tables.link other = some otherLink → link.subscriptionId = otherLink.subscriptionId → id = other
  events : (tables.events.map StripeWebhookEvent.eventId).Nodup

section Runs

variable {host : Host} {now : Instant} {state : ServerState}

theorem server_run_customers (run : ServerRun host now state) : CustomersSound state.view.world := by
  have empty : CustomersSound (World.start now) := ⟨.nil, fun _ _ present => by cases present⟩
  exact allowed_invariant (fun _ _ sound step => allowed_customers sound step) (server_run_allowed run) empty

theorem formed_checks {data : LicenseData} (formed : Formed data) (rows : RowsSound data)
    (revision : (data.row.sessionRevision : Int) ≤ maxLicenseLimit) :
    LicenseChecks data.row.toLicenseColumns := by
  have shaped := formed.shaped
  simp only [Shaped] at shaped
  have other : ∀ {kind : LicenseType} {conclusion : Prop}, kind ≠ data.row.type →
      data.row.type = kind → conclusion := fun differs same => absurd same.symm differs
  have counted : MeterRegion.Bounded data.row.sessionRevision := ⟨Int.natCast_nonneg _, revision⟩
  cases type : data.row.type with
  | subscription =>
      obtain ⟨expires, duration, -⟩ := type ▸ shaped
      exact ⟨rows.limits, counted, duration ▸ bounded_zero, fun _ => expires, other (by simp [type])⟩
  | trial =>
      obtain ⟨positive, limit, -⟩ := type ▸ shaped
      exact ⟨rows.limits, counted, ⟨by omega, limit⟩, other (by simp [type]), fun _ => positive⟩
  | lifetime | metered =>
      obtain ⟨-, duration, -⟩ := type ▸ shaped
      exact ⟨rows.limits, counted, duration ▸ bounded_zero, other (by simp [type]), other (by simp [type])⟩

/-- No run ever breaks a constraint of the schema, also where nothing checks it. -/
theorem schema_holds (run : ServerRun host now state) : SchemaHolds state.view.world.tables := by
  have sound := server_run_sound run
  have customers := server_run_customers run
  have keyed := server_run_rowsKeyed run
  refine ⟨customers.distinct, fun id data present => ?_, keyed.devices, keyed.links, keyed.meters, keyed.entries,
    sound.consistent.tables.keyUnique,
    sound.consistent.tables.linkUnique, sound.consistent.inbox.distinct⟩
  have rows := server_run_throughout (lasting_rows host) run _ (.inl rfl) id data present
  have formed := server_run_throughout (lasting_formed host) run _ (.inl rfl) id data present
  have ledgered := server_run_throughout (lasting_ledgers host) run _ (.inl rfl) id data present
  have owned := server_run_throughout (lasting_owned host) run _ (.inl rfl) id data present
  have key := sound.consistent.tables.rowId id data present
  exact
    { key
      customer := customers.owned id data present
      checks := formed_checks formed rows (keyed.revision id data present)
      link := fun link linked => sound.consistent.tables.linkOwner id link (by simp [Tables.link, present, linked])
      owners := fun device member => (rows.owners device member).trans key
      devices := keyed.deviceKeys id data present
      registered := server_run_throughout pairs_lasting run _ (.inl rfl) id data present
      allowedIps := rows.allowedIps
      allowedDevices := rows.allowedDevices
      owned := key ▸ owned
      meters := ⟨ledgered.accounted.ids, ledgered.accounted.names⟩
      ledger := ledgered.accounted.entries
      balances := ledgered.inRange.balance
      entries := fun entry member => ⟨ledgered.inRange.columns entry member, ledgered.accounted.owned entry member⟩
      events := ledgered.accounted.events }

theorem schema_holds_sample : ∃ state data, ServerRun sampleHost 0 state ∧
    state.view.world.tables.licenses sampleId = some data ∧ data.devices ≠ [] ∧
      LicenseSchema state.view.world.tables sampleId data := by
  obtain ⟨state, run, holds⟩ := @sampled_run activationSample (fun state =>
    (state.view.world.tables.licenses sampleId).any fun data => data.devices ≠ []) (by decide +kernel)
  obtain ⟨data, present, registered⟩ := (Option.any_eq_true _ _).mp holds
  exact ⟨state, data, run, present, of_decide_eq_true registered, (schema_holds run).licenses sampleId data present⟩

end Runs

end Keyzori
