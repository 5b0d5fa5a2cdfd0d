import Keyzori.Server.Fencing
import Keyzori.Server.Ledgers

namespace Keyzori

open Interleaving MeterRegion

variable {host : Host} {request : Request} {trace : ServerTrace} {call : Nat} {act : Act} {id : LicenseId}
  {world next : World} {tables : Tables} {keys : LicenseData → List String} {data old : LicenseData}
  {writes : List Write} {now : Instant} {key : String}

/-- Rows with one key belong to one license. -/
def Apart (tables : Tables) (keys : LicenseData → List String) : Prop :=
  ∀ id other data otherData, tables.licenses id = some data → tables.licenses other = some otherData →
    ∀ key ∈ keys data, key ∈ keys otherData → id = other

theorem uses_stored (sound : TablesSound world) (present : world.tables.licenses id = some data)
    (member : key ∈ keys data) : world.tables.uses keys key = true :=
  List.any_eq_true.mpr ⟨data, List.mem_filterMap.mpr ⟨id, sound.known id (by simp [present]), present⟩,
    decide_eq_true member⟩

theorem effect_apart (act : Act) (sound : TablesSound world) (apart : Apart world.tables keys)
    (gained : ∀ id data, next.tables.licenses id = some data → ∀ key ∈ keys data,
      (∃ old, world.tables.licenses id = some old ∧ key ∈ keys old) ∨
        (act.target = some id ∧ world.tables.uses keys key = false)) : Apart next.tables keys := by
  intro id other data otherData present otherPresent key member otherMember
  rcases gained id data present key member with ⟨old, before, held⟩ | ⟨target, unused⟩
  · rcases gained other otherData otherPresent key otherMember with
      ⟨otherOld, otherBefore, otherHeld⟩ | ⟨-, unused⟩
    · exact apart id other old otherOld before otherBefore key held otherHeld
    · cases unused.symm.trans (uses_stored sound before held)
  · rcases gained other otherData otherPresent key otherMember with
      ⟨otherOld, otherBefore, otherHeld⟩ | ⟨otherTarget, -⟩
    · cases unused.symm.trans (uses_stored sound otherBefore otherHeld)
    · exact Option.some.inj (target.symm.trans otherTarget)

/-- The keys of a table come with statements that found them unused. -/
structure Drawn (host : Host) (keys : LicenseData → List String) : Prop where
  created : ∀ {tables : Tables} {id keyHash keyPrefix new meters} now, tables.licenses id = none →
    tables.meterViolation id meters = none →
    ∀ key ∈ keys ⟨insertedRow id keyHash keyPrefix new now, none, [], [], [], meters⟩,
      tables.uses keys key = false
  committed : ∀ {request trace id writes old} {tables : Tables} now, Commits host request trace id writes →
    tables.licenses id = some old → (∀ write ∈ writes, tables.violation id write = none) →
    ∀ key ∈ keys (applyWrites now writes old), key ∈ keys old ∨ tables.uses keys key = false
  relabelled : ∀ {old : LicenseData} {link : StripeSubscriptionLink} error now, old.link = some link →
    keys { old with link := some { link with lastError := some error, updatedAt := now } } = keys old

theorem act_apart (drawn : Drawn host keys) (sound : TablesSound world) (apart : Apart world.tables keys)
    (held : warrant host request trace act) (effect : Effect call world act next) : Apart next.tables keys := by
  refine effect_apart act sound apart fun id data present key member => ?_
  cases effect_origin effect present with
  | same _ before => exact .inl ⟨data, before, member⟩
  | committed expected writes old now before admitted lawful written exact =>
      rw [written] at member
      rcases drawn.committed now held before (List.findSome?_eq_none_iff.mp lawful) key member with had | unused
      · exact .inl ⟨old, before, had⟩
      · exact .inr ⟨rfl, unused⟩
  | inserted keyHash keyPrefix new meters now fresh unused written exact lawful =>
      rw [written] at member
      have absent : world.tables.licenses id = none := by
        by_contra there
        exact fresh (sound.known id there)
      exact .inr ⟨rfl, drawn.created now absent lawful key member⟩
  | linkError subscriptionId error link old now found owner before free written =>
      obtain ⟨linked, -⟩ := findBySubscriptionId_some sound found
      have own : old.link = some link := by simpa [Tables.link, owner, before] using linked
      rw [written, drawn.relabelled error now own] at member
      exact .inl ⟨old, before, member⟩

section Meters

theorem applyWrites_table : (applyWrites now writes data).meters = data.meters ∨
    ∃ table, .meters table ∈ writes ∧ (applyWrites now writes data).meters = table := by
  induction writes generalizing data with
  | nil => exact .inl rfl
  | cons write writes ih =>
      rcases @ih (write.apply now data) with kept | ⟨table, member, same⟩
      · cases write with
        | meters table => exact .inr ⟨table, .head _, kept⟩
        | _ => exact .inl kept
      · exact .inr ⟨table, .tail _ member, same⟩

theorem meterViolation_none {table : MeterTable} (lawful : tables.meterViolation id table = none) :
    (∀ key ∈ table.meters.map LicenseMeter.id, key ∈ (tables.meters id).meters.map LicenseMeter.id ∨
        tables.uses LicenseData.meterKeys key = false) ∧
      ∀ key ∈ table.ledger.map UsageLedgerEntry.id, key ∈ (tables.meters id).ledger.map UsageLedgerEntry.id ∨
        tables.uses LicenseData.entryKeys key = false := by
  simp only [Tables.meterViolation] at lawful
  split at lawful
  · cases lawful
  · next meters =>
    split at lawful
    · cases lawful
    · next entries =>
      simp only [List.any_eq_true, Bool.and_eq_true, decide_eq_true_eq, not_exists, not_and,
        Bool.not_eq_true] at meters entries
      constructor
      · refine List.forall_mem_map.mpr fun meter member => ?_
        exact or_iff_not_imp_left.mpr (meters meter member)
      · refine List.forall_mem_map.mpr fun entry member => ?_
        exact or_iff_not_imp_left.mpr (entries entry member)

theorem drawn_meters : Drawn host LicenseData.meterKeys where
  created now absent lawful key member := by
    have known := (meterViolation_none lawful).1 key member
    simpa [Tables.meters, absent, MeterRegion.meters] using known
  committed now _ present lawful key member := by
    rw [LicenseData.meterKeys] at member
    rcases applyWrites_table with kept | ⟨table, written, same⟩
    · rw [kept] at member
      exact .inl member
    · rw [same] at member
      have known := (meterViolation_none (lawful _ written)).1 key member
      rw [Tables.meters, present] at known
      exact known
  relabelled _ _ _ := rfl

theorem drawn_entries : Drawn host LicenseData.entryKeys where
  created now absent lawful key member := by
    have known := (meterViolation_none lawful).2 key member
    simpa [Tables.meters, absent, MeterRegion.ledger] using known
  committed now _ present lawful key member := by
    rw [LicenseData.entryKeys] at member
    rcases applyWrites_table with kept | ⟨table, written, same⟩
    · rw [kept] at member
      exact .inl member
    · rw [same] at member
      have known := (meterViolation_none (lawful _ written)).2 key member
      rw [Tables.meters, present] at known
      exact known
  relabelled _ _ _ := rfl

end Meters

section Links

theorem applyWrites_linkKey {link : StripeSubscriptionLink} (linked : (applyWrites now writes data).link = some link) :
    link.id ∈ data.linkKeys ∨ ∃ inserted fetched, .insertLink inserted fetched ∈ writes ∧ inserted.id = link.id := by
  induction writes generalizing data with
  | nil =>
      have linked : data.link = some link := linked
      simp [LicenseData.linkKeys, linked]
  | cons write writes ih =>
      rcases ih linked with had | ⟨inserted, fetched, member, same⟩
      · cases write with
        | insertLink inserted fetched => exact .inr ⟨inserted, fetched, .head _, (List.mem_singleton.mp had).symm⟩
        | updateLink update fetched =>
            refine .inl ?_
            change link.id ∈ (data.link.map _).toList.map StripeSubscriptionLink.id at had
            cases before : data.link with
            | none => simp [before] at had
            | some earlier => simpa [before, LicenseData.linkKeys, StripeSubscriptionLinkUpdate.apply] using had
        | deleteLink => cases had
        | _ => exact .inl had
      · exact .inr ⟨inserted, fetched, .tail _ member, same⟩

theorem drawn_links : Drawn host LicenseData.linkKeys where
  created _ _ _ _ member := by cases member
  committed now _ present lawful key member := by
    obtain ⟨link, linked, rfl⟩ := List.mem_map.mp member
    rcases applyWrites_linkKey (Option.mem_toList.mp linked) with had | ⟨inserted, fetched, written, same⟩
    · exact .inl had
    · refine .inr (same ▸ ?_)
      have allowed := lawful _ written
      simp only [Tables.violation] at allowed
      split at allowed
      · cases allowed
      · next unused => exact Bool.eq_false_iff.mpr unused
  relabelled error now linked := by simp [LicenseData.linkKeys, linked]

end Links

section Devices

theorem touch_keys (deviceRow : String) (seenAt : Instant) (devices : List RegisteredDevice) :
    (devices.map fun stored => if stored.id = deviceRow then { stored with lastSeenAt := seenAt } else stored).map
      RegisteredDevice.id = devices.map RegisteredDevice.id := by
  rw [List.map_map]
  refine List.map_congr_left fun device _ => ?_
  simp only [Function.comp]
  split <;> rfl

theorem applyWrites_deviceKeys (unregistered : ∀ device, .insertDevice device ∉ writes) :
    (applyWrites now writes data).deviceKeys.Sublist data.deviceKeys := by
  induction writes generalizing data with
  | nil => exact List.Sublist.refl _
  | cons write writes ih =>
      refine (@ih (write.apply now data) fun device member => unregistered device (.tail _ member)).trans ?_
      cases write with
      | insertDevice device => exact absurd (.head _) (unregistered device)
      | deleteDevices filter => exact List.filter_sublist.map _
      | touchDevice deviceRow seenAt =>
          change (List.map _ (data.devices.map _)).Sublist _
          have same : (data.devices.map _).map RegisteredDevice.id = data.devices.map RegisteredDevice.id :=
            touch_keys deviceRow seenAt data.devices
          rw [same]
          exact List.Sublist.refl _
      | _ => exact List.Sublist.refl _

theorem insertDevice_keys {device : RegisteredDevice} (present : tables.licenses id = some old)
    (lawful : tables.violation id (.insertDevice device) = none) :
    (insertDevice device old.devices).map RegisteredDevice.id = old.deviceKeys ∨
      (insertDevice device old.devices).map RegisteredDevice.id = old.deviceKeys ++ [device.id] ∧
        tables.uses LicenseData.deviceKeys device.id = false := by
  simp only [Tables.violation, Tables.devices, present, Option.elim_some] at lawful
  split at lawful
  · next registered =>
    refine .inl ?_
    rw [insertDevice, if_pos registered, List.map_map]
    refine List.map_congr_left fun device _ => ?_
    simp only [Function.comp]
    split <;> rfl
  · next absent =>
    split at lawful
    · cases lawful
    · next unused =>
      refine .inr ⟨?_, Bool.eq_false_iff.mpr unused⟩
      rw [insertDevice, if_neg absent, List.map_append]
      rfl

theorem started_devices {row : StoredLicense} {started : List Write} {device : RegisteredDevice}
    (starts : StartsTrial trace row started) :
    (applyWrites now (started ++ [.insertDevice device]) old).deviceKeys =
      (insertDevice device old.devices).map RegisteredDevice.id := by
  cases starts <;> rfl

theorem commits_devices (commits : Commits host request trace id writes) (present : tables.licenses id = some old)
    (lawful : ∀ write ∈ writes, tables.violation id write = none) :
    (applyWrites now writes old).deviceKeys.Sublist old.deviceKeys ∨
      ∃ device : RegisteredDevice, (applyWrites now writes old).deviceKeys = old.deviceKeys ++ [device.id] ∧
        tables.uses LicenseData.deviceKeys device.id = false := by
  rcases commits_registers commits with unregistered |
    ⟨binding, license, row, started, registered, rfl, rfl, -, starts, registers⟩
  · exact .inl (applyWrites_deviceKeys unregistered)
  · cases registers with
    | known device surveyed => cases starts <;> exact .inl (List.Sublist.refl _)
    | new drawn surveyed =>
        have inserted := insertDevice_keys present (lawful _ (List.mem_append_right _ (.head _)))
        rw [started_devices starts]
        rcases inserted with same | ⟨appended, unused⟩
        · rw [same]
          exact .inl (List.Sublist.refl _)
        · exact .inr ⟨_, appended, unused⟩

theorem drawn_devices : Drawn host LicenseData.deviceKeys where
  created _ _ _ _ member := by cases member
  committed now commits present lawful key member := by
    rcases commits_devices commits present lawful with kept | ⟨device, appended, unused⟩
    · exact .inl (kept.subset member)
    · rw [appended] at member
      rcases List.mem_append.mp member with old | new
      · exact .inl old
      · exact .inr (List.mem_singleton.mp new ▸ unused)
  relabelled _ _ _ := rfl

theorem act_deviceKeys (sound : TablesSound world)
    (distinct : ∀ id data, world.tables.licenses id = some data → data.deviceKeys.Nodup)
    (held : warrant host request trace act) (effect : Effect call world act next)
    (present : next.tables.licenses id = some data) : data.deviceKeys.Nodup := by
  cases effect_origin effect present with
  | same _ before => exact distinct id data before
  | committed expected writes old now before admitted lawful written exact =>
      rw [written]
      rcases commits_devices held before (List.findSome?_eq_none_iff.mp lawful) with
        kept | ⟨device, appended, unused⟩
      · exact (distinct id old before).sublist kept
      · rw [appended]
        refine (distinct id old before).append (List.nodup_singleton _) (List.disjoint_singleton.mpr fun used => ?_)
        cases unused.symm.trans (uses_stored sound before used)
  | inserted keyHash keyPrefix new meters now fresh unused written exact lawful =>
      rw [written]
      exact .nil
  | linkError subscriptionId error link old now found owner before free written =>
      rw [written]
      exact distinct id old before

end Devices

section Revisions

theorem applyWrites_revision (kept : ∀ write ∈ writes, write.expels = false) :
    (applyWrites now writes data).row.sessionRevision = data.row.sessionRevision := by
  induction writes generalizing data with
  | nil => rfl
  | cons write writes ih =>
      refine (@ih (write.apply now data) fun other member => kept other (.tail _ member)).trans ?_
      have here := kept write (.head _)
      cases write <;> first | rfl | cases here

/-- A commit moves the revision on at most once, by a statement that expels. -/
theorem commits_revision (commits : Commits host request trace id writes) :
    (∀ write ∈ writes, write.expels = false) ∨ ∃ kept write, writes = kept ++ [write] ∧ write.expels = true ∧
      ∀ other ∈ kept, other.expels = false := by
  cases commits with
  | revoked | rotated | terminated => exact .inr ⟨[], _, rfl, rfl, List.forall_mem_nil _⟩
  | removed id filter always count increment asked counted increments =>
      cases increments with
      | incremented => exact .inr ⟨[.deleteDevices filter], _, rfl, rfl, List.forall_mem_singleton.mpr rfl⟩
      | _ => exact .inl (List.forall_mem_singleton.mpr rfl)
  | edited id input current row update link inserted statements edits =>
      refine .inl fun write member => ?_
      rcases edits_member edits member with ⟨table, rfl⟩ | rfl | ⟨final, rfl⟩ <;> rfl
  | admitted binding license row started registered admitting starts registers =>
      refine .inl ?_
      cases starts <;> cases registers <;> simp [Write.expels]
  | allowed id write listed asked =>
      cases write <;> first | exact .inl (List.forall_mem_singleton.mpr rfl) | cases listed
  | reconciled subscriptionId existing locked id row fetched stamp reconciling type =>
      refine .inl ?_
      cases fetched.snapshot.paidThrough <;> simp [Write.expels]
  | _ => exact .inl (by simp [Write.expels])

theorem expels_lawful {write : Write} (present : tables.licenses id = some data) (expels : write.expels = true)
    (lawful : tables.violation id write = none) : (data.row.sessionRevision : Int) < maxLicenseLimit := by
  have below : ((tables.row id).any fun row => decide (maxLicenseLimit ≤ row.sessionRevision)) = false := by
    cases write <;> first | (simpa [Tables.violation] using lawful) | cases expels
  simpa [Tables.row, present] using below

theorem commits_inRange (commits : Commits host request trace id writes) (present : tables.licenses id = some old)
    (lawful : ∀ write ∈ writes, tables.violation id write = none)
    (inRange : (old.row.sessionRevision : Int) ≤ maxLicenseLimit) :
    ((applyWrites now writes old).row.sessionRevision : Int) ≤ maxLicenseLimit := by
  rcases commits_revision commits with kept | ⟨kept, write, rfl, expels, others⟩
  · rw [applyWrites_revision kept]
    exact inRange
  · have below := expels_lawful present expels (lawful write (by simp))
    have moved : (applyWrites now (kept ++ [write]) old).row.sessionRevision = old.row.sessionRevision + 1 := by
      rw [applyWrites_append, ← @applyWrites_revision old kept now others]
      cases write <;> first | rfl | cases expels
    omega

theorem act_revision (inRange : ∀ id data, world.tables.licenses id = some data →
      (data.row.sessionRevision : Int) ≤ maxLicenseLimit)
    (held : warrant host request trace act) (effect : Effect call world act next)
    (present : next.tables.licenses id = some data) : (data.row.sessionRevision : Int) ≤ maxLicenseLimit := by
  cases effect_origin effect present with
  | same _ before => exact inRange id data before
  | committed expected writes old now before admitted lawful written exact =>
      rw [written]
      exact commits_inRange held before (List.findSome?_eq_none_iff.mp lawful) (inRange id old before)
  | inserted keyHash keyPrefix new meters now fresh unused written exact lawful =>
      rw [written]
      exact bounded_zero.2
  | linkError subscriptionId error link old now found owner before free written =>
      rw [written]
      exact inRange id old before

end Revisions

structure RowsKeyed (tables : Tables) : Prop where
  devices : Apart tables LicenseData.deviceKeys
  links : Apart tables LicenseData.linkKeys
  meters : Apart tables LicenseData.meterKeys
  entries : Apart tables LicenseData.entryKeys
  deviceKeys : ∀ id data, tables.licenses id = some data → data.deviceKeys.Nodup
  revision : ∀ id data, tables.licenses id = some data → (data.row.sessionRevision : Int) ≤ maxLicenseLimit

theorem act_rowsKeyed (sound : TablesSound world) (keyed : RowsKeyed world.tables)
    (held : warrant host request trace act) (effect : Effect call world act next) : RowsKeyed next.tables where
  devices := act_apart drawn_devices sound keyed.devices held effect
  links := act_apart drawn_links sound keyed.links held effect
  meters := act_apart drawn_meters sound keyed.meters held effect
  entries := act_apart drawn_entries sound keyed.entries held effect
  deviceKeys _ _ := act_deviceKeys sound keyed.deviceKeys held effect
  revision _ _ := act_revision keyed.revision held effect

theorem allowed_rowsKeyed {view last : ServerView} (sound : Sound view) (keyed : RowsKeyed view.world.tables)
    (step : ServerAllowed host view last) : RowsKeyed last.world.tables := by
  cases step with
  | start call request unused idle => exact keyed
  | act call request act input world result asked held ran =>
      exact act_rowsKeyed sound.consistent.tables keyed held (exec_effect ran)
  | environment event => cases event <;> exact keyed

/-- Every key is drawn for one row only, in every state of every run. -/
theorem server_run_rowsKeyed {state : ServerState} {now : Instant} (run : ServerRun host now state) :
    RowsKeyed state.view.world.tables := by
  have empty : ∀ keys, Apart (World.start now).tables keys := fun keys id other data otherData present => by
    cases present
  have start : RowsKeyed (World.start now).tables := by
    refine ⟨empty _, empty _, empty _, empty _, ?_, ?_⟩
    · exact fun id data present => by cases present
    · exact fun id data present => by cases present
  have both : Sound state.view ∧ RowsKeyed state.view.world.tables :=
    @allowed_invariant _ _ _ _ _ _ _ _ _ _ (fun view => Sound view ∧ RowsKeyed view.world.tables) _ _
      (fun _ _ holds step => ⟨allowed_sound holds.1 step, allowed_rowsKeyed holds.1 holds.2 step⟩)
      (server_run_allowed run) ⟨start_sound _, start⟩
  exact both.2

end Keyzori
