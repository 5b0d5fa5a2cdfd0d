import Keyzori.Server.Versions
import Mathlib.Data.Finset.Card
import Mathlib.Data.List.Nodup

namespace Keyzori

open Interleaving

section Counts

variable {values longer : List String} {value : String}

theorem countDistinct_toFinset (values : List String) : countDistinct values = values.toFinset.card :=
  (List.card_toFinset values).symm

theorem countDistinct_mono (subset : values ⊆ longer) : countDistinct values ≤ countDistinct longer := by
  rw [countDistinct_toFinset, countDistinct_toFinset]
  apply Finset.card_le_card
  intro value member
  exact List.mem_toFinset.mpr (subset (List.mem_toFinset.mp member))

theorem countDistinct_append_old (old : value ∈ values) :
    countDistinct (values ++ [value]) = countDistinct values := by
  apply le_antisymm
  · apply countDistinct_mono
    simp [old]
  · exact countDistinct_mono (List.subset_append_left _ _)

theorem countDistinct_append_le (values : List String) (value : String) :
    countDistinct (values ++ [value]) ≤ countDistinct values + 1 := by
  rw [countDistinct_toFinset, countDistinct_toFinset, List.toFinset_append]
  exact Finset.card_union_le _ _

end Counts

inductive Dimension
  | ip
  | device

def SessionBinding.pair (binding : SessionBinding) : String × String := (binding.ip, binding.deviceId)

namespace Dimension

def limit : Dimension → StoredLicense → Int
  | ip, row => row.maxIps
  | device, row => row.maxDevices

def of : Dimension → String × String → String
  | ip => Prod.fst
  | device => Prod.snd

def values (dimension : Dimension) (data : LicenseData) : List String := data.pairs.map dimension.of

def column : Dimension → RegisteredDevice → String
  | ip => RegisteredDevice.ip
  | device => RegisteredDevice.deviceId

theorem values_column (dimension : Dimension) (data : LicenseData) :
    dimension.values data = data.devices.map dimension.column := by
  rw [values, LicenseData.pairs, List.map_map]
  cases dimension <;> rfl

def unique : Dimension → LicenseDeviceUsage → Nat
  | ip, usage => usage.uniqueIps
  | device, usage => usage.uniqueDevices

def registered : Dimension → LicenseDeviceUsage → Bool
  | ip, usage => usage.ipRegistered
  | device, usage => usage.deviceRegistered

end Dimension

section Writes

variable {now : Instant} {data : LicenseData} {writes : List Write}

theorem insertDevice_known {device : RegisteredDevice} {devices : List RegisteredDevice}
    (known : (device.ip, device.deviceId) ∈ devices.map fun stored => (stored.ip, stored.deviceId)) :
    (insertDevice device devices).map (fun stored => (stored.ip, stored.deviceId)) =
      devices.map fun stored => (stored.ip, stored.deviceId) := by
  obtain ⟨stored, member, same⟩ := List.mem_map.mp known
  obtain ⟨ip, deviceId⟩ := Prod.mk.inj same
  have found : (devices.any fun stored => stored.ip = device.ip && stored.deviceId = device.deviceId) :=
    List.any_eq_true.mpr ⟨stored, member, by simp [ip, deviceId]⟩
  rw [insertDevice, if_pos found, List.map_map]
  refine List.map_congr_left fun other _ => ?_
  simp only [Function.comp]
  split <;> rfl

theorem insertDevice_new {device : RegisteredDevice} {devices : List RegisteredDevice}
    (absent : (device.ip, device.deviceId) ∉ devices.map fun stored => (stored.ip, stored.deviceId)) :
    insertDevice device devices = devices ++ [device] := by
  refine if_neg fun found => ?_
  obtain ⟨stored, member, same⟩ := List.any_eq_true.mp found
  simp only [Bool.and_eq_true, decide_eq_true_eq] at same
  exact absent (List.mem_map.mpr ⟨stored, member, by rw [same.1, same.2]⟩)

theorem inserted_pairs {device : RegisteredDevice} (absent : (device.ip, device.deviceId) ∉ data.pairs) :
    (applyWrites now [.insertDevice device] data).pairs = data.pairs ++ [(device.ip, device.deviceId)] := by
  change (insertDevice device data.devices).map _ = _
  rw [insertDevice_new absent, List.map_append, List.map_singleton, LicenseData.pairs]

theorem apply_pairs_nodup (write : Write) (distinct : data.pairs.Nodup) :
    (write.apply now data).pairs.Nodup := by
  cases write with
  | insertDevice device =>
      change ((insertDevice device data.devices).map _).Nodup
      by_cases known : (device.ip, device.deviceId) ∈ data.pairs
      · rw [insertDevice_known known]
        exact distinct
      · rw [insertDevice_new known, List.map_append, List.map_singleton, List.nodup_append]
        refine ⟨distinct, List.nodup_singleton _, fun pair member other single same => ?_⟩
        rw [List.mem_singleton.mp single] at same
        exact known (same ▸ member)
  | deleteDevices filter => exact distinct.sublist (List.filter_sublist.map _)
  | touchDevice deviceRow seenAt =>
      change (List.map _ (data.devices.map _)).Nodup
      rw [pairs_touch]
      exact distinct
  | _ => exact distinct

theorem applyWrites_pairs_nodup (distinct : data.pairs.Nodup) :
    (applyWrites now writes data).pairs.Nodup := by
  induction writes generalizing data with
  | nil => exact distinct
  | cons write writes ih => exact ih (apply_pairs_nodup write distinct)

theorem applyWrites_pairs_sublist (unregistered : ∀ device, .insertDevice device ∉ writes) :
    (applyWrites now writes data).pairs.Sublist data.pairs := by
  induction writes generalizing data with
  | nil => exact List.Sublist.refl _
  | cons write writes ih =>
      refine (@ih (write.apply now data) fun device member => unregistered device (.tail _ member)).trans ?_
      cases write with
      | insertDevice device => exact absurd (.head _) (unregistered device)
      | deleteDevices filter => exact List.filter_sublist.map _
      | touchDevice deviceRow seenAt =>
          change (List.map _ (data.devices.map _)).Sublist _
          rw [pairs_touch]
          exact List.Sublist.refl _
      | _ => exact List.Sublist.refl _

theorem sublist_values {old new : LicenseData} (sublist : new.pairs.Sublist old.pairs)
    (dimension : Dimension) :
    countDistinct (dimension.values new) ≤ countDistinct (dimension.values old) :=
  countDistinct_mono (sublist.map _).subset

end Writes

variable {host : Host} {request : Request} {view : ServerView} {call : Nat} {id : LicenseId}
  {now : Instant} {data : LicenseData} {writes : List Write} {binding : SessionBinding}
  {license : License} {row : StoredLicense}

theorem pairs_lasting : Lasting host fun data => data.pairs.Nodup where
  created _ _ _ _ := List.nodup_nil
  committed _ _ holds _ present := applyWrites_pairs_nodup (holds _ (.inl rfl) _ _ present)
  relabelled _ _ _ distinct := distinct

section Transaction

theorem exec_findByKeyHash {keyHash : String} {found : Option License} {input : Input}
    {before after : World}
    (ran : exec call (.findByKeyHash keyHash) input before = some (after, .ok found)) :
    after = before ∧ found = before.tables.findByKeyHash keyHash := by
  rcases attempt_some ran with ⟨-, error, same⟩ | ⟨same, returned⟩
  · cases same
  · exact ⟨same, Except.ok.inj returned⟩

theorem lookedUp_known (sound : Sound view)
    (lookup : LookedUp host request (view.trace call) binding license) {taker : ServerEvent} {lock : Lock}
    (member : taker ∈ view.events call) (taken : takes taker.deed = some lock) :
    license.id ∈ taker.after.tables.ids := by
  obtain ⟨keyHash, rest, shape⟩ := lookup.first
  obtain ⟨look, later, events, deed, -⟩ := List.map_eq_cons_iff.mp shape
  have seen := recall_event sound (events ▸ List.mem_cons_self) deed
  obtain ⟨input, ran⟩ := seen.ran
  obtain ⟨same, found⟩ := exec_findByKeyHash ran
  obtain ⟨owner, data, present, -, made⟩ := findByKeyHash_some found.symm
  have own : license.id = owner := by
    rw [made]
    exact seen.consistent.tables.rowId owner data present
  have known : license.id ∈ look.after.tables.ids := by
    rw [same, own]
    exact seen.consistent.tables.known owner (by simp [present])
  rw [events] at member
  rcases List.mem_cons.mp member with rfl | late
  · rw [deed] at taken
    cases taken
  · have sublist : [look, taker].Sublist view.history := by
      refine List.Sublist.trans ?_ (List.filter_sublist (p := fun event => event.call = call))
      rw [← View.events, events]
      exact (List.singleton_sublist.mpr late).cons_cons look
    have progress : Progress look.after taker.before := by simpa using sound.ordered.sublist sublist
    have stored := (sound.recorded taker (List.mem_filter.mp (events ▸ member)).1).ran
    obtain ⟨input, ran⟩ := stored
    exact effect_ids (exec_effect ran) (progress.ids _ known)

theorem registered_read (sound : Sound view)
    (admitting : Admitting host request (view.trace call) binding license row) {α : Type}
    {read : List RegisteredDevice → α} {value : α}
    (found : Registered (view.trace call) license row read value)
    (present : view.world.tables.licenses row.id = some data) :
    ∃ old : LicenseData, value = read old.devices ∧ data.pairs = old.pairs := by
  obtain ⟨before, after, recalled, sheltered, taker, member, taken, progress⟩ := under_recall sound found
  have known := progress.ids _ (lookedUp_known sound admitting.lookup member taken)
  obtain ⟨input, ran⟩ := recalled.ran
  obtain ⟨rfl, value⟩ := exec_query ran
  rw [← (admitting_row sound admitting).1] at known sheltered
  obtain ⟨old, there, pairs⟩ := sheltered data known present
  refine ⟨old, ?_, pairs⟩
  rw [value, Tables.devices, there]
  rfl

theorem checkLimits_ok {current : License} {usage : LicenseDeviceUsage}
    (columns : current.toLicenseColumns = row.toLicenseColumns)
    (limits : LicenseService.checkLimits current usage = .ok ()) (dimension : Dimension)
    (limited : 0 < dimension.limit row) (unknown : dimension.registered usage = false) :
    (dimension.unique usage : Int) < dimension.limit row := by
  simp only [LicenseService.checkLimits] at limits
  split at limits
  · cases limits
  · next ips =>
    split at limits
    · cases limits
    · next devices =>
      by_contra full
      cases dimension with
      | ip =>
          have same : current.maxIps = row.maxIps := congrArg LicenseColumns.maxIps columns
          exact ips ⟨same ▸ limited, unknown, same ▸ not_lt.mp full⟩
      | device =>
          have same : current.maxDevices = row.maxDevices := congrArg LicenseColumns.maxDevices columns
          exact devices ⟨same ▸ limited, unknown, same ▸ not_lt.mp full⟩

/-- What an activation's transaction makes of the registrations of its license. -/
structure Admission (binding : SessionBinding) (policy : StoredLicense) (old new : LicenseData) : Prop where
  current : old.row = policy
  capped : ∀ dimension : Dimension, dimension.of binding.pair ∉ dimension.values old →
    0 < dimension.limit policy → (countDistinct (dimension.values new) : Int) ≤ dimension.limit policy
  unchanged : ∀ dimension : Dimension, dimension.of binding.pair ∈ dimension.values old →
    countDistinct (dimension.values new) = countDistinct (dimension.values old)
  once : new.pairs.count binding.pair = 1

theorem startsTrial_pairs {trace : ServerTrace} {started : List Write}
    (starts : StartsTrial trace row started) : (applyWrites now started data).pairs = data.pairs := by
  cases starts <;> rfl

theorem known_admission {new : LicenseData} (policy : data.row = row) (same : new.pairs = data.pairs)
    (distinct : data.pairs.Nodup) (known : binding.pair ∈ data.pairs) :
    Admission binding row data new := by
  refine ⟨policy, fun dimension unknown => absurd (List.mem_map_of_mem known) unknown,
    fun dimension _ => ?_, ?_⟩
  · rw [Dimension.values, same, Dimension.values]
  · rw [same]
    exact List.count_eq_one_of_mem distinct known

theorem new_admission {new : LicenseData} {usage : LicenseDeviceUsage} {current : License}
    (policy : data.row = row) (inserted : new.pairs = data.pairs ++ [binding.pair])
    (absent : binding.pair ∉ data.pairs)
    (counts : ∀ dimension : Dimension, dimension.unique usage = countDistinct (dimension.values data))
    (known : ∀ dimension : Dimension, dimension.registered usage = true →
      dimension.of binding.pair ∈ dimension.values data)
    (columns : current.toLicenseColumns = row.toLicenseColumns)
    (limits : LicenseService.checkLimits current usage = .ok ()) : Admission binding row data new := by
  have grown : ∀ dimension : Dimension,
      dimension.values new = dimension.values data ++ [dimension.of binding.pair] := by
    intro dimension
    rw [Dimension.values, inserted, List.map_append, List.map_singleton, Dimension.values]
  refine ⟨policy, fun dimension unknown limited => ?_, fun dimension old => ?_, ?_⟩
  · have room := checkLimits_ok columns limits dimension limited
      (Bool.eq_false_iff.mpr fun registered => unknown (known dimension registered))
    have more := countDistinct_append_le (dimension.values data) (dimension.of binding.pair)
    rw [counts dimension] at room
    rw [grown dimension]
    omega
  · rw [grown dimension, countDistinct_append_old old]
  · rw [inserted, List.count_append, List.count_eq_zero_of_not_mem absent]
    simp

theorem find_pair {devices : List RegisteredDevice} :
    (devices.find? fun device => device.ip = binding.ip && device.deviceId = binding.deviceId).isSome ↔
      (binding.ip, binding.deviceId) ∈ devices.map fun device => (device.ip, device.deviceId) := by
  simp [List.find?_isSome, Prod.ext_iff]

theorem commits_admission {started registered : List Write} (sound : Sound view)
    (admitting : Admitting host request (view.trace call) binding license row)
    (starts : StartsTrial (view.trace call) row started)
    (registers : Registers (view.trace call) binding license row registered)
    (distinct : data.pairs.Nodup) (present : view.world.tables.licenses row.id = some data) :
    Admission binding row data (applyWrites now (started ++ registered) data) := by
  have policy := (admitting_row sound admitting).2 data present
  have started' : (applyWrites now started data).pairs = data.pairs := startsTrial_pairs starts
  rw [applyWrites_append]
  cases registers with
  | known device surveyed =>
      cases surveyed with
      | known _ found =>
          obtain ⟨old, value, pairs⟩ := registered_read sound admitting found present
          refine known_admission policy started' distinct ?_
          rw [pairs]
          exact find_pair.mp (value ▸ rfl)
  | new drawn surveyed =>
      cases surveyed with
      | new usage current absent counts ip deviceId columns limits =>
          obtain ⟨first, none, pairs⟩ := registered_read sound admitting absent present
          obtain ⟨second, counted, pairs₂⟩ := registered_read sound admitting counts present
          obtain ⟨third, addresses, pairs₃⟩ := registered_read sound admitting ip present
          obtain ⟨fourth, devices, pairs₄⟩ := registered_read sound admitting deviceId present
          have unknown : binding.pair ∉ data.pairs := by
            rw [pairs]
            intro member
            have found := find_pair.mpr member
            rw [← none] at found
            cases found
          refine new_admission policy ?_ unknown ?_ ?_ columns limits
          · rw [← started']
            exact inserted_pairs (started' ▸ unknown)
          · obtain ⟨uniqueIps, uniqueDevices⟩ := Prod.mk.inj counted
            intro dimension
            rw [Dimension.values, pairs₂, ← Dimension.values, Dimension.values_column]
            cases dimension with
            | ip => exact uniqueIps
            | device => exact uniqueDevices
          · intro dimension registered
            rw [Dimension.values]
            cases dimension with
            | ip =>
                rw [pairs₃, ← Dimension.values, Dimension.values_column]
                obtain ⟨device, member, same⟩ := List.any_eq_true.mp (addresses.symm.trans registered)
                exact List.mem_map.mpr ⟨device, member, of_decide_eq_true same⟩
            | device =>
                rw [pairs₄, ← Dimension.values, Dimension.values_column]
                obtain ⟨device, member, same⟩ := List.any_eq_true.mp (devices.symm.trans registered)
                exact List.mem_map.mpr ⟨device, member, of_decide_eq_true same⟩

end Transaction

section Runs

variable {state : ServerState} {old new : LicenseData}

theorem commits_registers {trace : ServerTrace} (commits : Commits host request trace id writes) :
    (∀ device, .insertDevice device ∉ writes) ∨ ∃ binding license row started registered,
      id = row.id ∧ writes = started ++ registered ∧ Admitting host request trace binding license row ∧
        StartsTrial trace row started ∧ Registers trace binding license row registered := by
  cases commits with
  | admitted binding license row started registered admitting starts registers =>
      exact .inr ⟨binding, license, row, started, registered, rfl, rfl, admitting, starts, registers⟩
  | _ => exact .inl fun device => by grind

/-- An event leaves no new pair, or it is the commit of an admission. -/
inductive Registration (request : Request) (old new : LicenseData) : Prop
  | fewer (sublist : new.pairs.Sublist old.pairs)
  | admission (licenseKey deviceId ip : String) (binding : SessionBinding) (policy : StoredLicense)
      (asked : request = .activate licenseKey deviceId ip)
      (bound : sessionBinding ip deviceId = .ok binding) (admitted : Admission binding policy old new)

theorem event_registration {before after : List ServerEvent} {event : ServerEvent}
    (run : ServerRun host now state) (shape : state.view.history = before ++ event :: after)
    (present : event.before.tables.licenses id = some old)
    (later : event.after.tables.licenses id = some new) : ∃ request,
      state.view.requests event.call = some request ∧ Registration request old new := by
  obtain ⟨earlier, request, happened, there, changes⟩ := event_changes run shape present later
  refine ⟨request, happened.still, ?_⟩
  cases changes with
  | kept => exact .fewer (List.Sublist.refl _)
  | relabelled => exact .fewer (List.Sublist.refl _)
  | committed expected writes stamp act commits =>
      rcases commits_registers commits with none | ⟨binding, license, row, started, registered, rfl, rfl,
        admitting, starts, registers⟩
      · exact .fewer (applyWrites_pairs_sublist none)
      · obtain ⟨licenseKey, deviceId, ip, asked, bound, -⟩ := admitting.lookup.asked
        have distinct := allowedRun_throughout pairs_lasting happened.start _ (.inl rfl) _ _ there
        exact .admission licenseKey deviceId ip binding row asked bound
          (commits_admission happened.sound admitting starts registers distinct there)

/-- While its limit is positive, no event brings a count over it. -/
theorem registration_bound (registration : Registration request old new) (dimension : Dimension)
    (limited : 0 < dimension.limit old.row)
    (bounded : (countDistinct (dimension.values old) : Int) ≤ dimension.limit old.row) :
    (countDistinct (dimension.values new) : Int) ≤ dimension.limit old.row := by
  cases registration with
  | fewer sublist =>
      have less := sublist_values sublist dimension
      omega
  | admission licenseKey deviceId ip binding policy asked bound admitted =>
      by_cases known : dimension.of binding.pair ∈ dimension.values old
      · rw [admitted.unchanged dimension known]
        exact bounded
      · rw [admitted.current]
        exact admitted.capped dimension known (admitted.current ▸ limited)

structure Transacted (state : ServerState) (call : Nat) (binding : SessionBinding)
    (policy : StoredLicense) (event : ServerEvent) (old new : LicenseData) : Prop where
  listed : event ∈ state.view.history
  own : event.call = call
  commits : ∃ writes rows, event.deed = ⟨.commit policy.id none writes, .ok rows⟩
  read : Took (state.view.trace call) (.lockRow policy.id) (some policy)
  before : event.before.tables.licenses policy.id = some old
  after : event.after.tables.licenses policy.id = some new
  admission : Admission binding policy old new

theorem activation_transacted {licenseKey deviceId ip : String} (run : ServerRun host now state)
    (asked : state.view.requests call = some (.activate licenseKey deviceId ip)) {response : Response}
    (ended : state.pool call = some (.done (.ok response))) : ∃ binding policy event old new,
      sessionBinding ip deviceId = .ok binding ∧ Transacted state call binding policy event old new := by
  obtain ⟨request, same, reached⟩ := server_run_outcome run ended
  cases asked.symm.trans same
  obtain ⟨session, -, before, after, binding, license, row, started, registered, rows, shape, admitting,
    starts, registers, -⟩ := reached
  obtain ⟨early, event, late, earlier, request, history, own, deed, happened, trace⟩ :=
    deed_happened (server_run_allowed run) shape
  subst own trace
  obtain ⟨licenseKey', deviceId', ip', asked', bound, -⟩ := admitting.lookup.asked
  cases asked'
  obtain ⟨owner, -⟩ := admitting_row happened.sound admitting
  have locked : Within (earlier.trace event.call) (.lockRow row.id) (some row) :=
    owner.symm ▸ under_within admitting.policy
  obtain ⟨data, present⟩ := Option.isSome_iff_exists.mp
    (allowedRun_rowsKept happened.start _ _ (within_holding locked))
  obtain ⟨input, ran⟩ := deed_ran deed happened.ran
  cases rows with
  | none =>
      rw [happened.world, exec_commit_missed ran] at present
      cases present
  | some written =>
      obtain ⟨there, made, next⟩ := exec_commit ran
      obtain rfl : data = written.before := Option.some.inj (present.symm.trans (happened.world ▸ there))
      have distinct := allowedRun_throughout pairs_lasting happened.start _ (.inl rfl) _ _ present
      refine ⟨binding, row, event, written.before, written.after, bound, by rw [history]; simp, rfl,
        ⟨_, _, deed⟩, ?_, there, ?_, ?_⟩
      · rw [shape]
        exact List.mem_append_left _ (within_took locked)
      · rw [next]
        simp [World.release, World.write, World.setLicense, made]
      · rw [made]
        exact commits_admission happened.sound admitting starts registers distinct present

theorem constant_caps (run : ServerRun host now state) (dimension : Dimension) {limit : Int}
    (positive : 0 < limit) (constant : ∀ world, Visited state.view world → ∀ data,
      world.tables.licenses id = some data → dimension.limit data.row = limit) :
    ∀ world, Visited state.view world → ∀ data, world.tables.licenses id = some data →
      (countDistinct (dimension.values data) : Int) ≤ limit := by
  refine allowedRun_always (server_run_allowed run) (fun event member new absent later => ?_)
    fun event member old new before later bounded => ?_
  · obtain ⟨early, late, shape⟩ := List.append_of_mem member
    obtain ⟨earlier, request, happened⟩ := server_run_event run shape
    obtain ⟨keyHash, keyPrefix, data, table, stamp, -, -, -, rfl⟩ := happened_creates happened absent later
    cases dimension <;> exact positive.le
  · obtain ⟨early, late, shape⟩ := List.append_of_mem member
    obtain ⟨request, -, registration⟩ := event_registration run shape before later
    have same := constant _ (.inr ⟨event, member, rfl⟩) old before
    rw [← same] at positive bounded ⊢
    exact registration_bound registration dimension positive bounded

/-- An activation that succeeds leaves one row for its pair, and at most as many addresses
and devices as the limits it read, where its own are new; no activation adds to a count its
own value is part of; and limits that stay as they are are never exceeded. -/
theorem registration_caps (run : ServerRun host now state) :
    (∀ call licenseKey deviceId ip,
      state.view.requests call = some (.activate licenseKey deviceId ip) →
        (∀ response, state.pool call = some (.done (.ok response)) → ∃ binding policy event old new,
          sessionBinding ip deviceId = .ok binding ∧
            Transacted state call binding policy event old new) ∧
        ∀ event ∈ state.view.history, event.call = call → ∀ binding id old new (dimension : Dimension),
          sessionBinding ip deviceId = .ok binding → event.before.tables.licenses id = some old →
            event.after.tables.licenses id = some new →
              dimension.of binding.pair ∈ dimension.values old →
                countDistinct (dimension.values new) ≤ countDistinct (dimension.values old)) ∧
    ∀ id (dimension : Dimension) limit, 0 < limit →
      (∀ world, Visited state.view world → ∀ data, world.tables.licenses id = some data →
        dimension.limit data.row = limit) →
      ∀ world, Visited state.view world → ∀ data, world.tables.licenses id = some data →
        (countDistinct (dimension.values data) : Int) ≤ limit := by
  refine ⟨fun call licenseKey deviceId ip asked => ⟨fun response ended =>
    activation_transacted run asked ended, ?_⟩, fun id dimension limit positive constant =>
    constant_caps run dimension positive constant⟩
  rintro event member rfl binding id old new dimension bound before later known
  obtain ⟨early, late, shape⟩ := List.append_of_mem member
  obtain ⟨request, same, registration⟩ := event_registration run shape before later
  cases asked.symm.trans same
  cases registration with
  | fewer sublist => exact sublist_values sublist dimension
  | admission licenseKey' deviceId' ip' binding' policy asked' bound' admitted =>
      cases asked'
      cases bound.symm.trans bound'
      exact (admitted.unchanged dimension known).le

def activationSample : List (Choice Input Move Request) :=
  subscriptionSample ++ sampleCall 2 (.activate "key 102" "laptop" "10.0.0.1") 2 22

def cappedSample : List (Choice Input Move Request) :=
  sampleCall 0 (.createCustomer "customer") 0 2 ++
    sampleCall 1 (.createLicense
      { customerId := "customer", type := .subscription, maxIps := some (.integer 1),
        maxDevices := some (.integer 1), expiresAt := some (.date 100) }) 1 7 ++
    sampleCall 2 (.activate "key 102" "laptop" "10.0.0.1") 2 22 ++
    sampleCall 3 (.activate "key 102" "phone" "10.0.0.2") 3 16

/-- One address is all that the license ever had a place for. -/
def oneAddress (data : Option LicenseData) : Bool := data.all fun data => data.row.maxIps = 1

def capped (state : ServerState) : Bool :=
  (match state.view.requests 2, state.pool 2, state.pool 3 with
    | some (.activate _ _ _), some (.done (.ok _)), some (.done (.error _)) => true
    | _, _, _ => false) &&
    oneAddress (state.view.world.tables.licenses sampleId) &&
    state.view.history.all fun event => oneAddress (event.before.tables.licenses sampleId)

theorem registration_caps_sample : ∃ state, ServerRun sampleHost 0 state ∧
    (∃ binding policy event old new, Transacted state 2 binding policy event old new) ∧
    (∃ error, state.pool 3 = some (.done (.error error))) ∧
    ∀ data, state.view.world.tables.licenses sampleId = some data →
      (countDistinct (Dimension.ip.values data) : Int) ≤ 1 := by
  obtain ⟨state, run, holds⟩ := @sampled_run cappedSample capped (by decide +kernel)
  simp only [capped, Bool.and_eq_true, List.all_eq_true] at holds
  obtain ⟨⟨ends, last⟩, earlier⟩ := holds
  have caps := registration_caps run
  split at ends
  · next licenseKey deviceId ip response error asked ended refused =>
    obtain ⟨binding, policy, event, old, new, -, transacted⟩ := (caps.1 2 licenseKey deviceId ip asked).1 _ ended
    refine ⟨state, run, ⟨binding, policy, event, old, new, transacted⟩, ⟨_, refused⟩, fun data present => ?_⟩
    refine caps.2 sampleId .ip 1 (by decide) (fun world visited data present => ?_) _ (.inl rfl) data present
    have fits : oneAddress (world.tables.licenses sampleId) = true := by
      rcases visited with rfl | ⟨event, member, rfl⟩
      · exact last
      · exact earlier event member
    rw [present] at fits
    exact of_decide_eq_true fits
  · cases ends

end Runs

end Keyzori
