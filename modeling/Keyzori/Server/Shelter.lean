import Keyzori.Server.Commits
import Keyzori.Server.Consistency
import Keyzori.Server.Programs

/-! What a call may rely on while its transaction holds a lock: no other call
changes what the lock stands for. The invariant of a run ties the traces of the
calls to the world through the events they come from. -/

namespace Keyzori

open Interleaving

abbrev ServerEvent := Event Act Act.Val Failure World

def opened (events : List ServerEvent) : List ServerEvent :=
  events.foldl (fun kept event => if event.act.ends then [] else kept ++ [event]) []

theorem opened_append (events : List ServerEvent) (event : ServerEvent) :
    opened (events ++ [event]) = if event.act.ends then [] else opened events ++ [event] := by
  simp [opened, List.foldl_append]

theorem opened_deeds (events : List ServerEvent) :
    (opened events).map Event.deed = current (events.map Event.deed) := by
  induction events using List.reverseRecOn with
  | nil => rfl
  | append_singleton events event ih =>
      rw [opened_append, List.map_append, List.map_singleton, current_append, ← ih]
      change _ = if event.act.ends then _ else _
      split <;> simp

def Relabels (old new : StripeSubscriptionLink) : Prop :=
  new = { old with lastError := new.lastError, updatedAt := new.updatedAt }

theorem Relabels.refl (link : StripeSubscriptionLink) : Relabels link link := rfl

theorem Relabels.trans {first second third : StripeSubscriptionLink} (one : Relabels first second)
    (other : Relabels second third) : Relabels first third := by
  rw [Relabels] at *
  rw [other, one]

def LicenseData.pairs (data : LicenseData) : List (String × String) :=
  data.devices.map fun device => (device.ip, device.deviceId)

/-- What a lock keeps of the rows of its license. -/
def Shelters : Lock → LicenseData → LicenseData → Prop
  | .row _, old, new => new.row = old.row ∧
      ∀ link, new.link = some link → ∃ before, old.link = some before ∧ Relabels before link
  | .link _, old, new => new.link = old.link
  | .registration _, old, new => new.pairs = old.pairs
  | .meter _, old, new => new.meters = old.meters
  | .stripe _, _, _ => True

def Sheltered (lock : Lock) (old new : World) : Prop :=
  match lock with
  | .stripe subscriptionId => new.stored subscriptionId = old.stored subscriptionId ∧
      ∀ id link, new.tables.link id = some link → link.subscriptionId = subscriptionId →
        ∃ before, old.tables.link id = some before ∧ Relabels before link
  | .row id | .link id | .registration id | .meter id => ∀ data, id ∈ old.tables.ids →
      new.tables.licenses id = some data →
        ∃ before, old.tables.licenses id = some before ∧ Shelters lock before data

section Relations

variable {lock : Lock} {first second third : World} {data : LicenseData}

theorem shelters_refl (lock : Lock) (data : LicenseData) : Shelters lock data data := by
  cases lock with
  | row id => exact ⟨rfl, fun link linked => ⟨link, linked, .refl link⟩⟩
  | stripe subscriptionId => trivial
  | _ => rfl

theorem shelters_trans {one two three : LicenseData} (early : Shelters lock one two)
    (late : Shelters lock two three) : Shelters lock one three := by
  cases lock with
  | row id =>
      refine ⟨late.1.trans early.1, fun link linked => ?_⟩
      obtain ⟨middle, between, last⟩ := late.2 link linked
      obtain ⟨before, old, first⟩ := early.2 middle between
      exact ⟨before, old, first.trans last⟩
  | stripe subscriptionId => trivial
  | link id => exact Eq.trans late early
  | registration id => exact Eq.trans late early
  | meter id => exact Eq.trans late early

/-- An act that changes no license and stores no snapshot respects every lock. -/
theorem sheltered_same (licenses : second.tables.licenses = first.tables.licenses)
    (stored : second.stored = first.stored) (lock : Lock) : Sheltered lock first second := by
  cases lock with
  | stripe subscriptionId =>
      refine ⟨congrFun stored _, fun id link linked _ => ⟨link, ?_, .refl link⟩⟩
      rwa [Tables.link, licenses] at linked
  | _ => exact fun data _ present => ⟨data, licenses ▸ present, shelters_refl _ data⟩

theorem sheltered_trans (progress : Progress first second) (early : Sheltered lock first second)
    (late : Sheltered lock second third) : Sheltered lock first third := by
  cases lock with
  | stripe subscriptionId =>
      refine ⟨late.1.trans early.1, fun id link linked same => ?_⟩
      obtain ⟨middle, between, last⟩ := late.2 id link linked same
      have subscription : middle.subscriptionId = subscriptionId := by
        rw [Relabels] at last
        rw [last] at same
        exact same
      obtain ⟨before, old, first⟩ := early.2 id middle between subscription
      exact ⟨before, old, first.trans last⟩
  | row id | link id | registration id | meter id =>
      intro data known present
      obtain ⟨middle, between, last⟩ := late data (progress.ids id known) present
      obtain ⟨before, old, first⟩ := early middle known between
      exact ⟨before, old, shelters_trans first last⟩

end Relations

/-- An event as it happened, and what has become of the world since. -/
structure Remembered (event : ServerEvent) (world : World) : Prop where
  ran : ∃ input, exec event.call event.act input event.before = some (event.after, event.result)
  before : Consistent event.before
  after : Consistent event.after
  progress : Progress event.after world

def Visited (view : ServerView) (world : World) : Prop :=
  world = view.world ∨ ∃ event ∈ view.history, world = event.before

structure Sound (view : ServerView) : Prop where
  consistent : Consistent view.world
  recorded : ∀ event ∈ view.history, Remembered event view.world
  ordered : view.history.Pairwise fun earlier later => Progress earlier.after later.before
  locked : ∀ call lock, Holding (view.trace call) lock → view.world.locks lock = some call
  sheltered : ∀ call before event after lock, opened (view.events call) = before ++ event :: after →
    (∃ taker ∈ before ++ [event], takes taker.deed = some lock) → Sheltered lock event.after view.world

structure Past (view : ServerView) (old : World) : Prop where
  visited : Visited view old
  consistent : Consistent old
  progress : Progress old view.world

section Exec

variable {call : Nat} {id : LicenseId}

theorem exec_query {α : Type} {read : Tables → α} {value : α} {input : Input} {before after : World}
    (ran : exec call (.query read) input before = some (after, .ok value)) :
    after = before ∧ value = read before.tables := by
  rcases attempt_some ran with ⟨-, error, same⟩ | ⟨same, returned⟩
  · cases same
  · exact ⟨same, Except.ok.inj returned⟩

theorem exec_findLicense {found : Option License} {input : Input} {before after : World}
    (ran : exec call (.findLicense id) input before = some (after, .ok found)) :
    after = before ∧ found = before.tables.license id := by
  rcases attempt_some ran with ⟨-, error, same⟩ | ⟨same, returned⟩
  · cases same
  · exact ⟨same, Except.ok.inj returned⟩

theorem exec_lockRow {row : Option StoredLicense} {input : Input} {before after : World}
    (ran : exec call (.lockRow id) input before = some (after, .ok row)) :
    after.tables = before.tables ∧ before.tables.row id = row := by
  simp only [exec] at ran
  split at ran
  · next absent =>
    rcases attempt_some ran with ⟨-, error, same⟩ | ⟨rfl, returned⟩
    · cases same
    · exact ⟨rfl, absent.trans (Except.ok.inj returned).symm⟩
  · next row' present =>
    rcases acquire_some ran with ⟨-, error, same⟩ | ⟨-, rfl, returned⟩
    · cases same
    · exact ⟨rfl, present.trans (Except.ok.inj returned).symm⟩

theorem exec_lockLink {subscriptionId : String} {link : StripeSubscriptionLink} {input : Input}
    {before after : World}
    (ran : exec call (.lockLink id subscriptionId) input before = some (after, .ok (some link))) :
    after.tables = before.tables ∧ before.tables.link id = some link ∧
      link.subscriptionId = subscriptionId := by
  simp only [exec] at ran
  split at ran
  · rcases attempt_some ran with ⟨-, error, same⟩ | ⟨-, returned⟩
    · cases same
    · cases returned
  · next found present =>
    rcases acquire_some ran with ⟨-, error, same⟩ | ⟨-, rfl, returned⟩
    · cases same
    · cases returned
      obtain ⟨linked, same⟩ := Option.filter_eq_some_iff.mp present
      exact ⟨rfl, linked, by simpa using same⟩

theorem exec_getSubscription {subscriptionId : String} {fetched : FetchedSnapshot} {input : Input}
    {before after : World}
    (ran : exec call (.getSubscription subscriptionId) input before = some (after, .ok fetched)) :
    fetched.snapshot.subscriptionId = subscriptionId ∧ fetched.fetchedAt = before.ticks ∧
      after = { before with ticks := before.ticks + 1 } := by
  simp only [exec] at ran
  split at ran
  · cases ran
  · rcases attempt_some ran with ⟨-, error, same⟩ | ⟨rfl, returned⟩
    · cases same
    · cases returned
      exact ⟨rfl, rfl, rfl⟩

end Exec

section Recall

variable {view : ServerView} {call : Nat} {act : Act} {value : act.Val} {lock : Lock}

structure Recalled (view : ServerView) (call : Nat) (act : Act) (value : act.Val)
    (before after : World) : Prop where
  ran : ∃ input, exec call act input before = some (after, .ok value)
  visited : Visited view before
  consistent : Consistent before
  still : Consistent after
  progress : Progress after view.world

theorem recall_event (sound : Sound view) {event : ServerEvent} (member : event ∈ view.events call)
    (same : event.deed = ⟨act, .ok value⟩) : Recalled view call act value event.before event.after := by
  obtain ⟨listed, own⟩ := List.mem_filter.mp member
  obtain ⟨ran, before, after, progress⟩ := sound.recorded event listed
  obtain ⟨caller, taken, result, old, new⟩ := event
  obtain rfl : caller = call := by simpa using own
  change (⟨taken, result⟩ : ServerDeed) = _ at same
  injection same with acts results
  subst acts
  obtain rfl := eq_of_heq results
  exact ⟨ran, .inr ⟨_, listed, rfl⟩, before, after, progress⟩

theorem took_recall (sound : Sound view) (took : Took (view.trace call) act value) :
    ∃ before after, Recalled view call act value before after := by
  obtain ⟨event, member, same⟩ := List.mem_map.mp took
  exact ⟨event.before, event.after, recall_event sound member same⟩

theorem opened_sublist (events : List ServerEvent) : (opened events).Sublist events := by
  induction events using List.reverseRecOn with
  | nil => exact .slnil
  | append_singleton events last ih =>
      rw [opened_append]
      split
      · exact List.nil_sublist _
      · exact ih.append (List.Sublist.refl _)

theorem mem_opened {events : List ServerEvent} {event : ServerEvent} (member : event ∈ opened events) :
    event ∈ events := (opened_sublist events).subset member

theorem within_recall (sound : Sound view) (within : Within (view.trace call) act value)
    (taken : takes ⟨act, .ok value⟩ = some lock) : ∃ before after,
      Recalled view call act value before after ∧ Sheltered lock after view.world := by
  rw [Within, View.trace, ← opened_deeds] at within
  obtain ⟨event, member, same⟩ := List.mem_map.mp within
  refine ⟨event.before, event.after, recall_event sound (mem_opened member) same, ?_⟩
  obtain ⟨before, after, shape⟩ := List.append_of_mem member
  exact sound.sheltered call before event after lock shape ⟨event, by simp, same ▸ taken⟩

theorem under_recall (sound : Sound view) (under : Under (view.trace call) lock act value) :
    ∃ before after, Recalled view call act value before after ∧ Sheltered lock after view.world ∧
      ∃ taker ∈ view.events call, takes taker.deed = some lock ∧ Progress taker.after before := by
  obtain ⟨early, late, shape, ⟨taker, first, taken⟩, member⟩ := under
  rw [View.trace, ← opened_deeds, List.map_eq_append_iff] at shape
  obtain ⟨before, after, shape, rfl, rfl⟩ := shape
  obtain ⟨holder, held, rfl⟩ := List.mem_map.mp first
  obtain ⟨event, member, same⟩ := List.mem_map.mp member
  have open' : event ∈ opened (view.events call) := by
    rw [shape]
    exact List.mem_append_right _ member
  refine ⟨event.before, event.after, recall_event sound (mem_opened open') same, ?_, holder, ?_, taken, ?_⟩
  · obtain ⟨middle, rest, rfl⟩ := List.append_of_mem member
    refine sound.sheltered call (before ++ middle) event rest lock ?_ ⟨holder, ?_, taken⟩
    · rw [shape, List.append_assoc]
    · exact List.mem_append_left _ (List.mem_append_left _ held)
  · exact mem_opened (shape ▸ List.mem_append_left _ held)
  · have sublist : [holder, event].Sublist (opened (view.events call)) := by
      rw [shape]
      exact (List.singleton_sublist.mpr held).append (List.singleton_sublist.mpr member)
    simpa using sound.ordered.sublist
      (sublist.trans ((opened_sublist _).trans (List.filter_sublist (l := view.history))))

theorem inOrder_events {events : List ServerEvent} {first second : ServerDeed}
    (ordered : InOrder (events.map Event.deed) first second) :
    ∃ early late, early.deed = first ∧ late.deed = second ∧ [early, late].Sublist events := by
  obtain ⟨before, after, shape, member⟩ := ordered
  obtain ⟨front, back, rfl, -, shape⟩ := List.map_eq_append_iff.mp shape
  obtain ⟨early, rest, rfl, same, rfl⟩ := List.map_eq_cons_iff.mp shape
  obtain ⟨late, listed, same'⟩ := List.mem_map.mp member
  refine ⟨early, late, same, same', List.Sublist.trans ?_ (List.sublist_append_right front _)⟩
  exact (List.singleton_sublist.mpr listed).cons_cons early

theorem missing_gone {id : LicenseId} {license : License} (sound : Sound view)
    (found : InOrder (view.trace call) ⟨.findLicense id, .ok (some license)⟩ ⟨.lockRow id, .ok none⟩) :
    view.world.tables.licenses id = none := by
  obtain ⟨early, late, read, locked, sublist⟩ := inOrder_events found
  have listed : [early, late].Sublist view.history := sublist.trans List.filter_sublist
  have progress : Progress early.after late.before := by
    simpa using sound.ordered.sublist listed
  have seen := recall_event sound (sublist.subset (.head _)) read
  have missed := recall_event sound (sublist.subset (.tail _ (.head _))) locked
  obtain ⟨input, ran⟩ := seen.ran
  obtain ⟨same, present⟩ := exec_findLicense ran
  obtain ⟨data, stored, -⟩ := Option.map_eq_some_iff.mp present.symm
  obtain ⟨other, lockedRan⟩ := missed.ran
  obtain ⟨kept, absent⟩ := exec_lockRow lockedRan
  have known : id ∈ late.before.tables.ids := by
    refine progress.ids id ?_
    rw [same]
    exact seen.consistent.tables.known id (by simp [stored])
  cases now : view.world.tables.licenses id with
  | none => rfl
  | some data =>
      obtain ⟨before, present, -⟩ := missed.progress.rows id data (kept ▸ known) now
      rw [kept] at present
      simp [Tables.row, present] at absent

theorem row_taken {id : LicenseId} {taker : ServerEvent} (sound : Sound view)
    (member : taker ∈ view.events call) (taken : takes taker.deed = some (.row id)) :
    id ∈ taker.after.tables.ids := by
  obtain ⟨other, row, same⟩ : ∃ other row, taker.deed = ⟨.lockRow other, .ok (some row)⟩ ∧ other = id := by
    unfold takes at taken
    split at taken
    · split at taken
      · next advisory =>
        cases taken
        cases advisory
      · cases taken
    · next other row same =>
      cases taken
      exact ⟨id, row, same, rfl⟩
    · cases taken
    · cases taken
  obtain ⟨same, rfl⟩ := same
  have recalled := recall_event sound member same
  obtain ⟨input, ran⟩ := recalled.ran
  obtain ⟨kept, found⟩ := exec_lockRow ran
  obtain ⟨data, present, -⟩ := Option.map_eq_some_iff.mp found
  exact recalled.still.tables.known other (by simp [kept, present])

end Recall

section Facts

variable {view : ServerView} {call : Nat} {id : LicenseId} {data : LicenseData} {lock : Lock}

theorem fetched_recall (sound : Sound view) {subscriptionId : String} {fetched : FetchedSnapshot}
    (fetch : Fetched (view.trace call) subscriptionId fetched) :
    fetched.snapshot.subscriptionId = subscriptionId ∧ fetched.fetchedAt < view.world.ticks := by
  obtain ⟨before, after, recalled, -⟩ := under_recall sound fetch
  obtain ⟨input, ran⟩ := recalled.ran
  obtain ⟨same, tick, rfl⟩ := exec_getSubscription ran
  refine ⟨same, ?_⟩
  have later : before.ticks + 1 ≤ view.world.ticks := recalled.progress.ticks
  omega

theorem locked_row (sound : Sound view) {row : StoredLicense}
    (within : Within (view.trace call) (.lockRow id) (some row)) :
    row.id = id ∧ ∀ data, view.world.tables.licenses id = some data → data.row = row := by
  obtain ⟨before, after, recalled, sheltered⟩ := within_recall sound within rfl
  obtain ⟨input, ran⟩ := recalled.ran
  obtain ⟨same, found⟩ := exec_lockRow ran
  obtain ⟨old, present, rfl⟩ := Option.map_eq_some_iff.mp found
  refine ⟨recalled.consistent.tables.rowId id old present, fun data now => ?_⟩
  rw [← same] at present
  have known := recalled.still.tables.known id (by simp [present])
  obtain ⟨middle, between, kept, -⟩ := sheltered data known now
  rw [present] at between
  rw [kept, ← Option.some.inj between]

theorem admitting_row (sound : Sound view) {host : Host} {request : Request} {binding : SessionBinding}
    {license : License} {row : StoredLicense}
    (admitting : Admitting host request (view.trace call) binding license row) : row.id = license.id ∧
      ∀ data, view.world.tables.licenses row.id = some data → data.row = row := by
  obtain ⟨owner, same⟩ := locked_row sound (under_within admitting.policy)
  exact ⟨owner, fun data present => same data (owner ▸ present)⟩

theorem locked_link (sound : Sound view) {subscriptionId : String} {link : StripeSubscriptionLink}
    (within : Within (view.trace call) (.lockLink id subscriptionId) (some link)) :
    link.subscriptionId = subscriptionId ∧
      ∀ data, view.world.tables.licenses id = some data → data.link = some link := by
  obtain ⟨before, after, recalled, sheltered⟩ := within_recall sound within rfl
  obtain ⟨input, ran⟩ := recalled.ran
  obtain ⟨same, found, subscription⟩ := exec_lockLink ran
  refine ⟨subscription, fun data now => ?_⟩
  rw [← same] at found
  obtain ⟨old, present, linked⟩ := Option.bind_eq_some_iff.mp found
  have known := recalled.still.tables.known id (by simp [present])
  obtain ⟨middle, between, kept⟩ := sheltered data known now
  rw [present] at between
  rw [kept, ← Option.some.inj between, linked]

/-- What a query under a lock read, and what the lock has kept of it. -/
theorem under_query (sound : Sound view) {α : Type} {read : Tables → α} {value : α}
    (under : Under (view.trace call) lock (.query read) value) :
    ∃ old, Past view old ∧ value = read old.tables ∧ Sheltered lock old view.world := by
  obtain ⟨before, after, recalled, sheltered, -⟩ := under_recall sound under
  obtain ⟨input, ran⟩ := recalled.ran
  obtain ⟨rfl, same⟩ := exec_query ran
  exact ⟨after, ⟨recalled.visited, recalled.consistent, recalled.progress⟩, same, sheltered⟩

theorem under_row (sound : Sound view) {α : Type} {read : Tables → α} {value : α}
    (under : Under (view.trace call) (.row id) (.query read) value)
    (present : view.world.tables.licenses id = some data) :
    ∃ old before, Past view old ∧ value = read old.tables ∧ old.tables.licenses id = some before ∧
      Shelters (.row id) before data := by
  obtain ⟨before, after, recalled, sheltered, taker, member, taken, progress⟩ := under_recall sound under
  obtain ⟨input, ran⟩ := recalled.ran
  obtain ⟨rfl, same⟩ := exec_query ran
  have known : id ∈ taker.after.tables.ids := row_taken sound member taken
  obtain ⟨stored, there, shelters⟩ := sheltered data (progress.ids id known) present
  exact ⟨after, stored, ⟨recalled.visited, recalled.consistent, recalled.progress⟩, same, there, shelters⟩

theorem read_license (sound : Sound view) {license : License}
    (took : Took (view.trace call) (.findLicense id) (some license)) :
    id ∈ view.world.tables.ids ∧ ∃ row, license.toLicenseColumns = row.toLicenseColumns ∧
      row.id = id ∧ ∀ data, view.world.tables.licenses id = some data → RowLe row data.row := by
  obtain ⟨before, after, recalled⟩ := took_recall sound took
  obtain ⟨input, ran⟩ := recalled.ran
  obtain ⟨rfl, found⟩ := exec_findLicense ran
  obtain ⟨old, present, rfl⟩ := Option.map_eq_some_iff.mp found.symm
  have known := recalled.still.tables.known id (by simp [present])
  refine ⟨recalled.progress.ids id known, old.row, rfl, recalled.still.tables.rowId id old present, ?_⟩
  intro data now
  obtain ⟨middle, between, later⟩ := recalled.progress.rows id data known now
  rw [present] at between
  rwa [Option.some.inj between]

/-- The version check means that the row is the one that was read. -/
theorem unchanged_row (sound : Sound view) {current : License} {row : StoredLicense}
    {request : Request} (unchanged : Unchanged request (view.trace call) id current row) :
    ∀ data, view.world.tables.licenses id = some data →
      data.row = row ∧ current.toLicenseColumns = row.toLicenseColumns := by
  intro data present
  obtain ⟨-, old, columns, -, later⟩ := read_license sound (initial_took unchanged.read)
  have same := (locked_row sound unchanged.locked).2 data present
  refine ⟨same, columns.trans ?_⟩
  have version : old.updatedAt = data.row.updatedAt := by
    rw [same, unchanged.version]
    exact (congrArg LicenseColumns.updatedAt columns).symm
  rw [← same, (later data present).same version]

end Facts

section Respect

variable {host : Host} {request : Request} {view : ServerView} {call other : Nat} {id : LicenseId}
  {act : Act} {next : World} {data : LicenseData} {writes : List Write} {now : Instant}

theorem pairs_touch (id : String) (seenAt : Instant) (devices : List RegisteredDevice) :
    (devices.map fun stored => if stored.id = id then { stored with lastSeenAt := seenAt } else stored).map
      (fun device => (device.ip, device.deviceId)) =
        devices.map fun device => (device.ip, device.deviceId) := by
  rw [List.map_map]
  refine List.map_congr_left fun device _ => ?_
  simp only [Function.comp]
  split <;> rfl

theorem applyWrites_pairs (unregistered : ∀ device, .insertDevice device ∉ writes)
    (undeleted : ∀ filter, .deleteDevices filter ∉ writes) :
    (applyWrites now writes data).pairs = data.pairs := by
  induction writes generalizing data with
  | nil => rfl
  | cons write writes ih =>
      have rest := @ih (write.apply now data)
        (fun device member => unregistered device (.tail _ member))
        (fun filter member => undeleted filter (.tail _ member))
      refine Eq.trans rest ?_
      cases write with
      | insertDevice device => exact absurd (.head _) (unregistered device)
      | deleteDevices filter => exact absurd (.head _) (undeleted filter)
      | touchDevice deviceRow seenAt => exact pairs_touch deviceRow seenAt data.devices
      | _ => rfl

theorem applyWrites_meters (unmetered : ∀ table, .meters table ∉ writes) :
    (applyWrites now writes data).meters = data.meters := by
  induction writes generalizing data with
  | nil => rfl
  | cons write writes ih =>
      have rest := @ih (write.apply now data) fun table member => unmetered table (.tail _ member)
      refine Eq.trans rest ?_
      cases write with
      | meters table => exact absurd (.head _) (unmetered table)
      | _ => rfl

/-- Without new and reconciled links, a transaction can only delete the link. -/
theorem applyWrites_unlinks (uninserted : ∀ link fetched, .insertLink link fetched ∉ writes)
    (unsettled : ∀ update fetched, .updateLink update fetched ∉ writes) :
    (applyWrites now writes data).link = data.link ∨ (applyWrites now writes data).link = none := by
  induction writes generalizing data with
  | nil => exact .inl rfl
  | cons write writes ih =>
      have rest := @ih (write.apply now data)
        (fun link fetched member => uninserted link fetched (.tail _ member))
        (fun update fetched member => unsettled update fetched (.tail _ member))
      cases write with
      | insertLink link fetched => exact absurd (.head _) (uninserted link fetched)
      | updateLink update fetched => exact absurd (.head _) (unsettled update fetched)
      | deleteLink => exact .inr (rest.elim id id)
      | _ => exact rest

theorem recordSnapshots_same {link : Option StripeSubscriptionLink}
    {stored : String → List StoredSnapshot} {subscriptionId : String}
    (inserted : ∀ new fetched, .insertLink new fetched ∈ writes → new.subscriptionId ≠ subscriptionId)
    (updated : ∀ update fetched, .updateLink update fetched ∈ writes →
      ∀ old, link = some old → old.subscriptionId ≠ subscriptionId) :
    writes.foldl (recordSnapshot link) stored subscriptionId = stored subscriptionId := by
  induction writes generalizing stored with
  | nil => rfl
  | cons write writes ih =>
      rw [List.foldl_cons, ih (fun new fetched member => inserted new fetched (.tail _ member))
        (fun update fetched member => updated update fetched (.tail _ member))]
      cases write with
      | insertLink new fetched =>
          exact Function.update_of_ne (inserted new fetched (.head _)).symm _ _
      | updateLink update fetched =>
          cases link with
          | none => rfl
          | some old =>
              exact Function.update_of_ne (updated update fetched (.head _) old rfl).symm _ _
      | _ => rfl

theorem commits_link (sound : Sound view)
    (commits : Commits host request (view.trace call) id writes)
    (present : view.world.tables.licenses id = some data) :
    (∀ link fetched, .insertLink link fetched ∈ writes → link.licenseId = id ∧
      Fetched (view.trace call) link.subscriptionId fetched ∧ Holding (view.trace call) (.row id)) ∧
    ∀ update fetched, .updateLink update fetched ∈ writes → ∃ link, data.link = some link ∧
      Fetched (view.trace call) link.subscriptionId fetched ∧ Holding (view.trace call) (.row id) := by
  constructor
  · intro link fetched member
    obtain ⟨⟨subscriptionId, -, fetch⟩, ⟨row, locked, -⟩, paidThrough, now, draw, -, rfl, -⟩ :=
      commits_insertLink commits member
    have same := (fetched_recall sound fetch).1
    refine ⟨rfl, ?_, within_holding locked⟩
    simpa [NewStripeSubscriptionLink.row, newLink, same] using fetch
  · intro update fetched member
    obtain ⟨subscriptionId, existing, locked, row, updates⟩ := commits_updateLink commits member
    obtain ⟨subscription, kept⟩ := locked_link sound updates.reconciling.locked
    refine ⟨locked, kept data present, ?_, within_holding updates.reconciling.row⟩
    rw [subscription]
    exact updates.reconciling.fetched

theorem locks_foreign (sound : Sound view) {lock : Lock} (held : view.world.locks lock = some other)
    (distinct : other ≠ call) : ¬Holding (view.trace call) lock := by
  intro own
  exact distinct (Option.some.inj (held.symm.trans (sound.locked call lock own)))

theorem not_free {lock : Lock} (held : view.world.locks lock = some other) (distinct : other ≠ call) :
    view.world.free call lock = false := by
  rw [Bool.eq_false_iff]
  intro free
  exact distinct (free_iff.mp free other held)

theorem commits_shelter (sound : Sound view)
    (commits : Commits host request (view.trace call) id writes)
    (present : view.world.tables.licenses id = some data)
    (admitted : view.world.admits call id writes = true) {lock : Lock}
    (owner : lock = .row id ∨ lock = .link id ∨ lock = .registration id ∨ lock = .meter id)
    (held : view.world.locks lock = some other) (distinct : other ≠ call) :
    Shelters lock data (applyWrites now writes data) := by
  have foreign := locks_foreign sound held distinct
  have taken := not_free held distinct
  have allowed := List.all_eq_true.mp admitted
  have links := commits_link sound commits present
  rcases owner with rfl | rfl | rfl | rfl
  · refine ⟨applyWrites_row fun write member => ?_, fun link linked => ?_⟩
    · simpa [taken] using (Bool.and_eq_true_iff.mp (Bool.and_eq_true_iff.mp (allowed write member)).1).1
    · have kept := @applyWrites_unlinks data writes now
        (fun link fetched member => foreign (links.1 link fetched member).2.2)
        fun update fetched member => by
          obtain ⟨-, -, -, locked⟩ := links.2 update fetched member
          exact foreign locked
      rcases kept with same | gone
      · exact ⟨link, same ▸ linked, .refl link⟩
      · rw [gone] at linked
        cases linked
  · refine applyWrites_link fun write member => ?_
    simpa [taken] using (Bool.and_eq_true_iff.mp (Bool.and_eq_true_iff.mp (allowed write member)).1).2
  · refine applyWrites_pairs (fun device member => ?_) (fun filter member => ?_)
    · obtain ⟨binding, license, row, rfl, admitting⟩ := commits_insertDevice commits member
      rw [(admitting_row sound admitting).1] at foreign
      exact foreign (under_holding admitting.policy)
    · obtain ⟨always, count, increment, -, -, counted, -⟩ := commits_deleteDevices commits member
      exact foreign (under_holding counted)
  · refine applyWrites_meters fun table member => ?_
    obtain ⟨region, read, -⟩ := commits_meters commits member
    exact foreign (under_holding read)

end Respect

end Keyzori
