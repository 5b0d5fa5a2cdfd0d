import Keyzori.Server.FailedActivations
import Keyzori.Server.Registrations

/-! Session fencing. A session holds the revision its license had when it was admitted,
and every operation that is to end sessions moves the revision on in its transaction,
or deletes the license. What was admitted before is worth nothing from then on, whether
or not the cleanup in Redis ever runs. -/

namespace Keyzori

open ExpiringStore Interleaving

variable {host : Host} {request : Request} {view : ServerView} {call : Nat} {id : LicenseId}
  {now : Instant} {state : ServerState} {data old : LicenseData} {writes : List Write}
  {early late : List ServerEvent} {fence event : ServerEvent} {token : String} {session : Session}

/-- The event leaves the license gone or at a higher revision. -/
def Fences (event : ServerEvent) (id : LicenseId) : Prop :=
  ∃ old, event.before.tables.licenses id = some old ∧
    ∀ new, event.after.tables.licenses id = some new → old.row.sessionRevision < new.row.sessionRevision

section Invalidations

def Write.expels : Write → Bool
  | updateWithSessionInvalidation _ | incrementSessionRevision | rotateKey _ _ => true
  | _ => false

theorem apply_expels {write : Write} (expels : write.expels = true) :
    data.row.sessionRevision < (write.apply now data).row.sessionRevision := by
  cases write <;> first | exact Nat.lt_succ_self _ | cases expels

theorem applyWrites_expels (expelled : ∃ write ∈ writes, write.expels = true) :
    data.row.sessionRevision < (applyWrites now writes data).row.sessionRevision := by
  obtain ⟨write, member, expels⟩ := expelled
  obtain ⟨before, after, rfl⟩ := List.append_of_mem member
  rw [applyWrites_append]
  calc data.row.sessionRevision
      ≤ (applyWrites now before data).row.sessionRevision := applyWrites_row_le.revision
    _ < (write.apply now (applyWrites now before data)).row.sessionRevision := apply_expels expels
    _ ≤ (applyWrites now (write :: after) (applyWrites now before data)).row.sessionRevision :=
        applyWrites_row_le.revision

theorem commit_fences {expected : Option Instant} {written : Written}
    (landed : Landed event id expected writes written) (expelled : ∃ write ∈ writes, write.expels = true) :
    Fences event id := by
  obtain ⟨stamp, made, -⟩ := landed.made
  refine ⟨written.before, landed.present, fun new later => ?_⟩
  cases later.symm.trans (landed_later landed)
  rw [made]
  exact applyWrites_expels expelled

theorem gone_fences (gone : event.after.tables.licenses id = none)
    (changed : event.after.tables.licenses id ≠ event.before.tables.licenses id) : Fences event id := by
  rw [gone] at changed
  obtain ⟨old, present⟩ := Option.ne_none_iff_exists'.mp changed.symm
  refine ⟨old, present, fun new later => ?_⟩
  cases gone.symm.trans later

def Request.expels : Request → Option LicenseId
  | .revokeLicense id _ | .rotateLicenseKey id | .terminateLicenseSessions id
  | .resetRegisteredDevices id => some id
  | _ => none

/-- What an operator did to end the sessions of a license. -/
inductive Invalidates (request : Request) (event : ServerEvent) (id : LicenseId) : Prop
  | committed (expected : Option Instant) (writes : List Write) (written : Written)
      (asked : request.expels = some id) (landed : Landed event id expected writes written) :
      Invalidates request event id
  | removed (old new : LicenseData) (always : Bool) (asked : request.removes = some (id, always))
      (before : event.before.tables.licenses id = some old)
      (after : event.after.tables.licenses id = some new) (fewer : new.pairs ≠ old.pairs) :
      Invalidates request event id
  | deleted (asked : request = .deleteLicense id) (act : event.act = .deleteLicense id)
      (changed : event.after.tables.licenses id ≠ event.before.tables.licenses id) :
      Invalidates request event id
  | cascaded (customerId : String) (asked : request = .deleteCustomer customerId)
      (act : event.act = .deleteCustomer customerId)
      (changed : event.after.tables.licenses id ≠ event.before.tables.licenses id) :
      Invalidates request event id

def Act.Solid (id : LicenseId) : Act → Prop
  | commit owner _ writes => owner = id ∧ writes ≠ []
  | _ => True

theorem quiet_solid (act : Act) (quiet : act.quiet = true) : act.Solid id := by
  cases act <;> trivial

abbrev Solid {α : Type} (id : LicenseId) (prog : Server α) : Prop := prog.Only (Act.Solid id)

section Programs

variable {α β : Type}

theorem solid_act {act : Act} {rest : act.Val → Server β} (solid : act.Solid id)
    (second : ∀ value, Solid id (rest value)) : Solid id (perform act >>= rest) :=
  Prog.only_bind (Prog.only_call solid) second

theorem solid_quietly {prog : Server α} (quiet : Quiet prog) : Solid id prog :=
  Prog.only_mono quiet quiet_solid

theorem solid_domain {result : Except DomainError α} {rest : α → Server β}
    (second : ∀ value, Solid id (rest value)) : Solid id (ofDomain result >>= rest) :=
  Prog.only_bind (solid_quietly (quiet_domain result)) second

theorem solid_requireLicense {rest : License → Server β} (second : ∀ license, Solid id (rest license)) :
    Solid id (AdminService.requireLicense id >>= rest) :=
  Prog.only_bind (solid_act trivial fun found => by cases found <;> trivial) second

theorem solid_orRollback {body : Server α} (inside : Solid id body) : Solid id (orRollback body) :=
  Prog.only_tryCatch inside fun _ => solid_act trivial fun _ => trivial

theorem solid_cleanup {revision : Option Nat} {rest : AdminService.Cleanup → Server β}
    (second : ∀ cleanup, Solid id (rest cleanup)) :
    Solid id (AdminService.removeSessionsBestEffort id revision >>= rest) :=
  Prog.only_bind (Prog.only_tryCatch (solid_act trivial fun _ => trivial) fun _ => trivial) second

theorem solid_invalidation {write : Write} {action message : String} {rest : License → Server β}
    (second : ∀ license, Solid id (rest license)) :
    Solid id ((do
      let _ ← firstOrThrow (← commit id none [write]) action
      LicenseRepository.reload id message) >>= rest) := by
  refine Prog.only_bind (solid_act ⟨rfl, List.cons_ne_nil _ _⟩ fun rows => ?_) second
  refine Prog.only_bind ?_ fun _ => solid_quietly (quiet_reload _ _)
  cases rows <;> trivial

theorem removalStatements_solid (filter : DeviceFilter) (always : Bool) :
    Solid id (AdminService.removalStatements id filter always) := by
  refine solid_act trivial fun _ => Prog.only_bind ?_ fun removed => ?_
  · exact solid_act trivial fun count => trivial
  · refine Prog.only_bind ?_ fun _ => trivial
    cases always || decide (removed.1 > 0) with
    | false => trivial
    | true => exact solid_act trivial fun found => by cases found <;> trivial

theorem removalStatements_returns (filter : DeviceFilter) (always : Bool) :
    (AdminService.removalStatements id filter always).Returns fun returned => returned.2 ≠ [] := by
  refine Prog.returns_bind (fun _ => True) (fun result => by cases result <;> trivial) fun _ _ => ?_
  refine Prog.returns_bind (fun removed => removed.2 ≠ []) ?_ fun removed some => ?_
  · intro result
    cases result with
    | ok count => exact List.cons_ne_nil _ _
    | error error => trivial
  · refine Prog.returns_bind (fun _ => True) ?_ fun incremented _ => ?_
    · cases always || decide (removed.1 > 0) with
      | false => trivial
      | true =>
          intro result
          cases result with
          | ok found => cases found <;> trivial
          | error error => trivial
    · exact fun none => some (List.append_eq_nil_iff.mp none).1

theorem cleanUpRemoval_solid (filter : DeviceFilter) (always : Bool) :
    Solid id (AdminService.cleanUpRemoval id filter always) := by
  refine Prog.only_bind (Prog.only_returned (fun returned => returned.2 ≠ []) ?_
    (solid_orRollback (removalStatements_solid filter always)) fun returned some => ?_) fun removed => ?_
  · refine Prog.returns_tryCatch (removalStatements_returns filter always) fun error result => ?_
    cases result <;> trivial
  · exact solid_act ⟨rfl, some⟩ fun _ => trivial
  · dsimp only
    split
    · exact solid_cleanup fun _ => solid_quietly (Prog.only_bind (quiet_capture _) fun _ => trivial)
    · trivial

theorem program_solid (asked : request.expels = some id) : Solid id (program host request) := by
  cases request with
  | revokeLicense owner text =>
      cases asked
      refine Prog.only_bind (solid_requireLicense fun license => solid_domain fun reason => ?_) fun _ => trivial
      refine solid_act trivial fun now => solid_invalidation fun updated => solid_cleanup fun _ => ?_
      exact solid_quietly (Prog.only_bind (quiet_capture _) fun _ => quiet_managed _)
  | terminateLicenseSessions owner =>
      cases asked
      refine Prog.only_bind (solid_requireLicense fun license => ?_) fun _ => trivial
      refine solid_invalidation fun updated => solid_cleanup fun _ => ?_
      exact solid_quietly (Prog.only_bind (quiet_capture _) fun _ => trivial)
  | rotateLicenseKey owner =>
      cases asked
      refine Prog.only_bind (solid_requireLicense fun current => solid_act trivial fun key => ?_) fun _ => trivial
      refine Prog.only_bind (Prog.only_bind (solid_orRollback ?_) fun _ => ?_) fun rotated => ?_
      · refine solid_act trivial fun row => ?_
        cases row with
        | none => trivial
        | some row =>
            dsimp only
            split
            · trivial
            · exact solid_quietly (quiet_query _)
      · refine solid_act ⟨rfl, List.cons_ne_nil _ _⟩ fun rows => ?_
        cases rows <;> trivial
      · exact solid_cleanup fun _ => solid_quietly (Prog.only_bind (quiet_capture _) fun _ => trivial)
  | resetRegisteredDevices owner =>
      cases asked
      refine Prog.only_bind (solid_requireLicense fun license => ?_) fun _ => trivial
      exact cleanUpRemoval_solid .all true
  | _ => cases asked

def Grounded (request : Request) (trace : ServerTrace) : Act → Prop
  | .commit id _ _ => ∀ always, request.removes = some (id, always) →
      ∃ license after, trace = ⟨.findLicense id, .ok (some license)⟩ :: after
  | _ => True

theorem removal_grounded {filter : α → DeviceFilter} {always : Bool} {prog : Server α}
    (quiet : Quiet prog) :
    (do
      let _ ← AdminService.requireLicense id
      let value ← prog
      AdminService.cleanUpRemoval id (filter value) always).wp (Grounded request) []
        fun _ _ => True := by
  refine Prog.wp_bind (fun result after => ∀ license, result = .ok license →
    after = [⟨.findLicense id, .ok (some license)⟩]) ?_ (fun license after read => ?_) fun _ _ _ => trivial
  · refine ⟨trivial, fun result => ?_⟩
    cases result with
    | error error => exact fun _ same => by cases same
    | ok found =>
        cases found with
        | none => exact fun _ same => by cases same
        | some license =>
            intro other same
            cases same
            rfl
  · have only : Solid id (prog >>= fun value => AdminService.cleanUpRemoval id (filter value) always) :=
      Prog.only_bind (solid_quietly quiet) fun value => cleanUpRemoval_solid (filter value) always
    refine Prog.wp_beyond only fun deeds act solid => ?_
    cases act with
    | commit owner expected writes =>
        obtain ⟨rfl, -⟩ := solid
        exact fun _ _ => ⟨license, deeds, by rw [read license rfl]; rfl⟩
    | _ => trivial

theorem program_grounded (request : Request) :
    (program host request).wp (Grounded request) [] fun _ _ => True := by
  have mapped : ∀ prog : Server Nat, prog.wp (Grounded request) [] (fun _ _ => True) →
      (Response.count <$> prog).wp (Grounded request) [] fun _ _ => True := fun _ holds =>
    Prog.wp_bind _ holds (fun _ _ _ => trivial) fun _ _ _ => trivial
  cases request with
  | removeRegisteredIp owner value => exact mapped _ (removal_grounded (normalizedIp_quiet value))
  | removeRegisteredDevice owner value => exact mapped _ (removal_grounded (quiet_domain _))
  | resetRegisteredDevices owner =>
      exact mapped _ (@removal_grounded _ owner _ (fun _ => .all) true (pure ()) Prog.only_pure)
  | _ =>
      refine Prog.wp_only (Prog.only_any _) (fun trace act _ => ?_) fun _ _ _ => trivial
      cases act with
      | commit owner expected writes => exact fun _ asked => by cases asked
      | _ => trivial

end Programs

section Commits

variable {trace : ServerTrace}

/-- What such a call commits moves the revision on, if the license is still there. -/
theorem commits_expels (asked : request.expels = some id)
    (commits : Commits host request trace id writes) (some : writes ≠ []) :
    (∃ write ∈ writes, write.expels = true) ∨ ∃ license,
      InOrder trace ⟨.findLicense id, .ok (.some license)⟩ ⟨.lockRow id, .ok none⟩ := by
  cases commits with
  | nothing => exact absurd rfl some
  | revoked => exact .inl ⟨_, .head _, rfl⟩
  | rotated => exact .inl ⟨_, .head _, rfl⟩
  | terminated => exact .inl ⟨_, .head _, rfl⟩
  | removed id filter always count increment removes counted increments =>
      cases increments with
      | kept unasked =>
          cases request <;> cases asked <;> cases removes
          cases unasked
      | missing license locked found => exact .inr ⟨license, found⟩
      | incremented row locked => exact .inl ⟨_, .tail _ (.head _), rfl⟩
  | admitted binding license row started registered admitting =>
      obtain ⟨licenseKey, deviceId, ip, activates, -⟩ := admitting.lookup.asked
      subst activates
      cases asked
  | metered id region table read scripts =>
      cases scripts with
      | create | archive | adjust | consume => cases request <;> cases asked <;> contradiction
  | edited id data current row update link inserted statements edits =>
      have edited := edits.asked
      cases request <;> cases asked <;> cases edited
  | reconciled subscriptionId existing locked id row fetched now reconciling =>
      have synchronizes := reconciling.asked
      cases request <;> cases asked <;> cases synchronizes
  | disconnected subscriptionId existing locked id row fetched reconciling =>
      have synchronizes := reconciling.asked
      cases request <;> cases asked <;> cases synchronizes
  | _ => cases request <;> cases asked <;> contradiction

end Commits

section Removals

variable {license : License} {always : Bool}

theorem found_known (sound : Sound view) {rest : ServerTrace} {taker : ServerEvent} {lock : Lock}
    (shape : view.trace call = ⟨.findLicense id, .ok (some license)⟩ :: rest)
    (member : taker ∈ view.events call) (taken : takes taker.deed = some lock) :
    id ∈ taker.after.tables.ids := by
  obtain ⟨look, later, events, deed, -⟩ := List.map_eq_cons_iff.mp shape
  have seen := recall_event sound (events ▸ List.mem_cons_self) deed
  obtain ⟨input, ran⟩ := seen.ran
  obtain ⟨same, found⟩ := exec_findLicense ran
  obtain ⟨data, present, -⟩ := Option.map_eq_some_iff.mp found.symm
  have known : id ∈ look.after.tables.ids := by
    rw [same]
    exact seen.consistent.tables.known id (by simp [present])
  rw [events] at member
  rcases List.mem_cons.mp member with rfl | late
  · rw [deed] at taken
    cases taken
  · have sublist : [look, taker].Sublist view.history := by
      refine List.Sublist.trans ?_ (List.filter_sublist (p := fun event => event.call = call))
      rw [← View.events, events]
      exact (List.singleton_sublist.mpr late).cons_cons look
    have progress : Progress look.after taker.before := by simpa using sound.ordered.sublist sublist
    obtain ⟨input, ran⟩ := (sound.recorded taker (List.mem_filter.mp (events ▸ member)).1).ran
    exact effect_ids (exec_effect ran) (progress.ids _ known)

theorem selects_pair (filter : DeviceFilter) : ∃ chosen : String × String → Bool,
    ∀ device, filter.selects device = chosen (device.ip, device.deviceId) := by
  cases filter with
  | all => exact ⟨fun _ => true, fun _ => rfl⟩
  | ip address => exact ⟨fun pair => pair.1 = address, fun _ => rfl⟩
  | device deviceId => exact ⟨fun pair => pair.2 = deviceId, fun _ => rfl⟩

theorem unselected_pairs {filter : DeviceFilter} (same : data.pairs = old.pairs)
    (none : old.devices.filter filter.selects = []) : data.devices.filter filter.selects = [] := by
  obtain ⟨chosen, selects⟩ := selects_pair filter
  rw [List.filter_eq_nil_iff] at none ⊢
  intro device member
  have listed : (device.ip, device.deviceId) ∈ old.pairs := same ▸ List.mem_map_of_mem member
  obtain ⟨twin, there, pair⟩ := List.mem_map.mp listed
  have spared := none twin there
  rwa [selects, pair, ← selects] at spared

/-- A removal that counted no row deletes none. -/
theorem removal_expels (sound : Sound view) {rest : ServerTrace}
    (asked : request.removes = some (id, always))
    (shape : view.trace call = ⟨.findLicense id, .ok (some license)⟩ :: rest)
    (commits : Commits host request (view.trace call) id writes)
    (present : view.world.tables.licenses id = some data)
    (fewer : (applyWrites now writes data).pairs ≠ data.pairs) :
    ∃ write ∈ writes, write.expels = true := by
  cases commits with
  | nothing => exact absurd rfl fewer
  | removed id filter always count increment removes counted increments =>
      cases increments with
      | incremented row locked => exact ⟨_, .tail _ (.head _), rfl⟩
      | missing license locked found =>
          cases (missing_gone sound found).symm.trans present
      | kept unasked =>
          obtain ⟨before, after, recalled, sheltered, taker, member, taken, progress⟩ :=
            under_recall sound counted
          obtain ⟨input, ran⟩ := recalled.ran
          obtain ⟨rfl, value⟩ := exec_query ran
          obtain ⟨old, there, pairs⟩ :=
            sheltered data (progress.ids _ (found_known sound shape member taken)) present
          have none : old.devices.filter filter.selects = [] := by
            have zero : count = 0 := by simpa using (Bool.or_eq_false_iff.mp unasked).2
            rw [zero, Tables.devices, there] at value
            exact List.eq_nil_of_length_eq_zero value.symm
          refine absurd ?_ fewer
          have spared := unselected_pairs pairs none
          rw [List.filter_eq_nil_iff] at spared
          have kept : data.devices.filter (fun stored => !filter.selects stored) = data.devices :=
            List.filter_eq_self.mpr fun device member => by simpa using spared device member
          exact congrArg (List.map fun device => (device.ip, device.deviceId)) kept
  | admitted binding license row started registered admitting =>
      obtain ⟨licenseKey, deviceId, ip, activates, -⟩ := admitting.lookup.asked
      subst activates
      cases asked
  | metered id region table read scripts =>
      cases scripts with
      | create | archive | adjust | consume => cases request <;> cases asked <;> contradiction
  | edited id data current row update link inserted statements edits =>
      have edited := edits.asked
      cases request <;> cases asked <;> cases edited
  | reconciled subscriptionId existing locked id row fetched now reconciling =>
      have synchronizes := reconciling.asked
      cases request <;> cases asked <;> cases synchronizes
  | disconnected subscriptionId existing locked id row fetched reconciling =>
      have synchronizes := reconciling.asked
      cases request <;> cases asked <;> cases synchronizes
  | _ => cases request <;> cases asked <;> contradiction

end Removals

theorem deed_act {act : Act} {result : Except Failure act.Val} (deed : event.deed = ⟨act, result⟩) :
    event.act = act := congrArg Deed.act deed

theorem committed_some (run : ServerRun host now state)
    (history : state.view.history = early ++ event :: late)
    (asked : state.view.requests event.call = some request) (expels : request.expels = some id)
    {owner : LicenseId} {expected : Option Instant} (act : event.act = .commit owner expected writes) :
    writes ≠ [] := by
  have solid : ∀ request, (program host request).wp
      (fun _ act => ∀ id, request.expels = some id → act.Solid id) [] fun _ _ => True := by
    intro request
    refine @Prog.wp_only _ _ _ _ _ _ (fun act => ∀ id, request.expels = some id → act.Solid id) _ _ ?_
      (fun _ _ holds => holds) fun _ _ _ => trivial
    cases target : request.expels with
    | none => exact Prog.only_mono (Prog.only_any _) fun _ _ _ same => by cases same
    | some owner =>
        refine Prog.only_mono (program_solid target) fun _ holds id same => ?_
        cases same
        exact holds
  obtain ⟨other, same, held⟩ := run_event solid run history
  cases asked.symm.trans same
  rw [act] at held
  exact (held id expels).2

theorem invalidates_fences (run : ServerRun host now state)
    (history : state.view.history = early ++ event :: late)
    (asked : state.view.requests event.call = some request)
    (invalidates : Invalidates request event id) : Fences event id := by
  obtain ⟨earlier, other, happened⟩ := server_run_event run history
  cases asked.symm.trans happened.still
  cases invalidates with
  | committed expected writes written expels landed =>
      have held := happened.held
      rw [landed.act] at held
      refine commit_fences landed ?_
      refine (commits_expels expels held (committed_some run history asked expels landed.act)).resolve_right ?_
      rintro ⟨license, found⟩
      have gone := missing_gone happened.sound found
      rw [happened.world] at gone
      cases gone.symm.trans landed.present
  | removed old new always removes before after fewer =>
      refine ⟨old, before, fun later same => ?_⟩
      obtain rfl : new = later := Option.some.inj (after.symm.trans same)
      cases happened_changes happened before after with
      | kept => exact absurd rfl fewer
      | relabelled => exact absurd rfl fewer
      | committed expected writes stamp act commits =>
          obtain ⟨other, same, held⟩ := run_event (@program_grounded host) run history
          cases asked.symm.trans same
          rw [act] at held
          obtain ⟨license, rest, shape⟩ := held always removes
          rw [← happened.history] at shape
          have present := before
          rw [← happened.world] at present
          exact applyWrites_expels (removal_expels happened.sound removes shape commits present fewer)
  | deleted deletes act changed =>
      obtain ⟨input, ran⟩ := happened.ran
      have effect := exec_effect ran
      rw [act] at effect
      refine gone_fences ?_ changed
      generalize event.after = next at effect changed
      cases effect with
      | deleted => simp [World.deleted]
      | _ => exact absurd rfl changed
  | cascaded customerId deletes act changed =>
      obtain ⟨input, ran⟩ := happened.ran
      have effect := exec_effect ran
      rw [act] at effect
      refine gone_fences ?_ changed
      generalize event.after = next at effect changed
      cases effect with
      | cascaded =>
          by_contra kept
          refine changed ?_
          simp only [World.cascaded] at kept ⊢
          exact ite_eq_right_iff.mpr fun owned => absurd (if_pos owned) kept
      | _ => exact absurd rfl changed

end Invalidations

section Sessions

theorem ordered_progress (sound : Sound view) (history : view.history = early ++ fence :: late)
    (member : event ∈ late) : Progress fence.after event.before := by
  have sublist : [fence, event].Sublist view.history := by
    rw [history]
    exact ((List.singleton_sublist.mpr member).cons_cons _).trans (List.sublist_append_right _ _)
  simpa using sound.ordered.sublist sublist

theorem fenced_revision (sound : Sound view) (history : view.history = early ++ fence :: late)
    (before : fence.before.tables.licenses id = some old) (fences : Fences fence id) {world : World}
    (progress : Progress fence.after world) (present : world.tables.licenses id = some data) :
    old.row.sessionRevision < data.row.sessionRevision := by
  obtain ⟨same, there, moved⟩ := fences
  obtain rfl : same = old := Option.some.inj (there.symm.trans before)
  obtain ⟨⟨input, ran⟩, consistent, -, -⟩ := sound.recorded fence (by simp [history])
  have known := effect_ids (exec_effect ran) (consistent.tables.known id (by simp [before]))
  obtain ⟨middle, after, le⟩ := progress.rows id data known present
  exact lt_of_lt_of_le (moved middle after) le.revision

theorem unfenced_revision (sound : Sound view) (history : view.history = early ++ fence :: late)
    (before : fence.before.tables.licenses id = some old) (member : event ∈ early)
    (present : event.before.tables.licenses id = some data) :
    data.row.sessionRevision ≤ old.row.sessionRevision := by
  obtain ⟨⟨input, ran⟩, consistent, -, -⟩ := sound.recorded event (by simp [history, member])
  have known := consistent.tables.known id (by simp [present])
  obtain ⟨first, middle, rfl⟩ := List.append_of_mem member
  have shape : view.history = first ++ event :: (middle ++ fence :: late) := by simp [history]
  have progress : Progress event.after fence.before := ordered_progress sound shape (by simp)
  obtain ⟨middle, after, le⟩ := ((effect_progress (exec_effect ran)).trans progress).rows id old known before
  rw [present] at after
  rw [Option.some.inj after]
  exact le.revision

theorem reservation_row (run : ServerRun host now state) (member : event ∈ state.view.history)
    {sessionRevision : Nat} {bindingHash : String} {maxSessions : Int}
    (deed : event.deed =
      ⟨.registerSession id sessionRevision bindingHash maxSessions, .ok (.registered token)⟩) :
    (token, ⟨id, sessionRevision, bindingHash⟩) ∈ state.view.world.tokens ∧
      ∃ data, event.before.tables.licenses id = some data ∧ data.row.sessionRevision = sessionRevision := by
  obtain ⟨before, after, shape⟩ := List.append_of_mem member
  obtain ⟨earlier, request, happened⟩ := server_run_event run shape
  have held := happened.held
  rw [deed_act deed] at held
  obtain ⟨binding, license, row, admitting, rfl, rfl, -, -⟩ := held
  obtain ⟨input, ran⟩ := deed_ran deed happened.ran
  refine ⟨((server_run_sound run).recorded event member).progress.tokens _
    (exec_registerSession ran ▸ List.mem_cons_self), ?_⟩
  have locked := admitting_row happened.sound admitting
  obtain ⟨data, present⟩ := Option.isSome_iff_exists.mp (allowedRun_rowsKept happened.start _ _
    (within_holding (locked.1.symm ▸ under_within admitting.policy)))
  refine ⟨data, happened.world ▸ present, ?_⟩
  rw [locked.2 data present]

theorem exec_refreshSession {world after : World} {bindingHash : String} {resolved : ResolvedSession}
    {input : Input} (sound : SessionsSound world)
    (ran : exec call (.refreshSession token bindingHash) input world = some (after, .ok (some resolved))) :
    ∃ session, Carries world.sessions token session ∧ resolved.licenseId = session.licenseId.text ∧
      resolved.sessionRevision = session.revision := by
  simp only [exec] at ran
  split at ran
  · cases ran
  · obtain ⟨-, answered⟩ := Prod.mk.inj (Option.some.inj ran)
    have returned := answer_ok answered
    simp only [refreshSession] at returned
    split at returned
    · cases returned
    · next fields bound =>
      obtain ⟨value, stored, cut, -⟩ := boundSession_some.mp bound
      obtain ⟨session, rfl⟩ := sound.kept.sessions token value stored
      rw [sessionFields_value] at cut
      obtain rfl := Option.some.inj cut
      simp only [resolvedSession, tonumber_repr] at returned
      obtain rfl := Option.some.inj (Except.ok.inj returned)
      exact ⟨session, stored, rfl, rfl⟩

theorem last_read (run : ServerAllowedRun host (.start (World.start now)) view)
    (accepted : Accepted (view.trace call) token) :
    ∃ before read after resolved bindingHash id first license,
      view.history = before ++ read :: after ∧ read.call = call ∧
        read.deed = ⟨.findLicense first.id, .ok (some license)⟩ ∧
        license.sessionRevision = resolved.sessionRevision ∧
        (∀ event ∈ after, event.call = call → ∀ other, event.act ≠ .findLicense other) ∧
        Took (view.trace call) (.refreshSession token bindingHash) (some resolved) ∧
        LicenseService.sessionLicenseId resolved = some id ∧
        Took (view.trace call) (.findLicense id) (some first) := by
  obtain ⟨deeds, rest, resolved, bindingHash, id, first, license, refreshed, plain, found, shape, revision,
    last⟩ := accepted
  obtain ⟨before, read, after, earlier, request, history, own, deed, happened, same⟩ :=
    deed_happened run shape
  refine ⟨before, read, after, resolved, bindingHash, id, first, license, history, own, deed, revision, ?_,
    shape ▸ List.mem_append_left _ refreshed, plain, shape ▸ List.mem_append_left _ found⟩
  have split := trace_split history own
  have sofar : (before.filter fun other => other.call = call).map Event.deed = deeds := by
    rw [← happened.history, ← same]
    rfl
  rw [shape, sofar, deed] at split
  have tail := (List.cons.inj (List.append_cancel_left split)).2
  intro event member mine other
  refine last event.deed (tail ▸ List.mem_map_of_mem (List.mem_filter.mpr ⟨member, by simpa using mine⟩)) other

theorem presented_session (sound : Sound view) {bindingHash : String} {resolved : ResolvedSession}
    (took : Took (view.trace call) (.refreshSession token bindingHash) (some resolved))
    (issued : (token, session) ∈ view.world.tokens) :
    resolved.licenseId = session.licenseId.text ∧ resolved.sessionRevision = session.revision := by
  obtain ⟨before, after, recalled⟩ := took_recall sound took
  obtain ⟨input, ran⟩ := recalled.ran
  obtain ⟨held, carried, owner, revision⟩ := exec_refreshSession recalled.consistent.sessions ran
  have known := recalled.consistent.sessions.carried token held carried
  have progress := (effect_progress (exec_effect ran)).trans recalled.progress
  obtain rfl : held = session := congrArg Prod.snd
    (List.inj_on_of_nodup_map sound.consistent.sessions.distinct (progress.tokens _ known) issued rfl)
  exact ⟨owner, revision⟩

theorem sessionLicenseId_text {resolved : ResolvedSession} {owner : LicenseId}
    (plain : LicenseService.sessionLicenseId resolved = some owner)
    (text : resolved.licenseId = id.text) : owner = id := by
  simp only [LicenseService.sessionLicenseId] at plain
  split at plain
  · obtain rfl := Option.some.inj plain
    exact licenseId_ext text
  · cases plain

theorem split_after {α : Type 1} {before after others rest : List α} {first second : α}
    (same : before ++ first :: after = others ++ second :: rest) : second ∈ after ∨ after ⊆ rest := by
  rcases List.append_eq_append_iff.mp same with ⟨between, rfl, shape⟩ | ⟨between, rfl, shape⟩
  · cases between with
    | nil =>
        obtain ⟨-, rfl⟩ := List.cons.inj shape
        exact .inr (List.Subset.refl _)
    | cons head tail =>
        obtain ⟨-, rfl⟩ := List.cons.inj shape
        exact .inl (by simp)
  · cases between with
    | nil =>
        obtain ⟨-, rfl⟩ := List.cons.inj shape
        exact .inr (List.Subset.refl _)
    | cons head tail =>
        obtain ⟨-, rfl⟩ := List.cons.inj shape
        exact .inr fun _ member => by simp [member]

def Request.presented : Request → Option String
  | .heartbeat sessionToken _ _ | .consume sessionToken _ _ _ => some sessionToken
  | _ => none

def Admits (event : ServerEvent) (id : LicenseId) (token : String) : Prop :=
  ∃ sessionRevision bindingHash maxSessions, event.deed =
    ⟨.registerSession id sessionRevision bindingHash maxSessions, .ok (.registered token)⟩

theorem presented_accepted (run : ServerRun host now state)
    (asked : state.view.requests call = some request) (presented : request.presented = some token)
    {response : Response} (ended : state.pool call = some (.done (.ok response))) :
    Accepted (state.view.trace call) token := by
  obtain ⟨other, same, reached⟩ := server_run_outcome run ended
  cases asked.symm.trans same
  cases request <;> cases presented <;> exact reached response rfl

/-- From a fence on no call is accepted with a session that was admitted before it. -/
theorem fenced_refused (run : ServerRun host now state)
    (history : state.view.history = early ++ fence :: late) (fences : Fences fence id)
    {reservation : ServerEvent} (member : reservation ∈ early) (admits : Admits reservation id token)
    (asked : state.view.requests call = some request) (presented : request.presented = some token)
    {response : Response} (ended : state.pool call = some (.done (.ok response))) {read : ServerEvent}
    (listed : read ∈ late) (mine : read.call = call) (other : LicenseId) : read.act ≠ .findLicense other := by
  intro act
  have sound := server_run_sound run
  obtain ⟨sessionRevision, bindingHash, maxSessions, deed⟩ := admits
  obtain ⟨issued, first, there, revision⟩ :=
    reservation_row run (by simp [history, member]) deed
  obtain ⟨before, last, after, resolved, hash, owner, found, license, shape, own, looked, same, silent, took,
    plain, earlier⟩ := last_read (server_run_allowed run) (presented_accepted run asked presented ended)
  have inside : last ∈ late := (split_after (history.symm.trans shape)).resolve_right fun rest =>
    silent read (rest listed) mine other act
  obtain ⟨text, carried⟩ := presented_session sound took issued
  obtain rfl := sessionLicenseId_text plain text
  have home : found.id = owner := by
    obtain ⟨world, next, recalled⟩ := took_recall sound earlier
    obtain ⟨input, ran⟩ := recalled.ran
    obtain ⟨data, present, rfl⟩ := Option.map_eq_some_iff.mp (exec_findLicense ran).2.symm
    exact recalled.consistent.tables.rowId owner data present
  obtain ⟨input, ran⟩ := deed_ran looked (sound.recorded last (by simp [history, inside])).ran
  obtain ⟨data, present, rfl⟩ := Option.map_eq_some_iff.mp (exec_findLicense ran).2.symm
  rw [home] at present
  obtain ⟨old, gone, moved⟩ := fences
  have newer := fenced_revision sound history gone ⟨old, gone, moved⟩
    (ordered_progress sound history inside) present
  have older := unfenced_revision sound history gone member there
  rw [revision] at older
  have equal : data.row.sessionRevision = sessionRevision := same.trans carried
  omega

/-- Every operation that is to end sessions fences its license off with its commit,
and from a fence on no call is accepted with a session that was admitted before it. -/
theorem sessions_fenced (run : ServerRun host now state) :
    (∀ early event late, state.view.history = early ++ event :: late → ∀ request id,
      state.view.requests event.call = some request → Invalidates request event id → Fences event id) ∧
    ∀ early fence late id, state.view.history = early ++ fence :: late → Fences fence id →
      ∀ reservation ∈ early, ∀ token, Admits reservation id token →
        ∀ call request, state.view.requests call = some request → request.presented = some token →
          ∀ response, state.pool call = some (.done (.ok response)) →
            ∀ read ∈ late, read.call = call → ∀ other, read.act ≠ .findLicense other :=
  ⟨fun _ _ _ history _ _ asked invalidates => invalidates_fences run history asked invalidates,
    fun _ _ _ _ history fences _ member _ admits _ _ asked presented _ ended _ listed mine other =>
      fenced_refused run history fences member admits asked presented ended listed mine other⟩

def rotated (state : ServerState) (event : ServerEvent) : Bool :=
  match state.view.requests 3, event with
  | some (.rotateLicenseKey owner), ⟨3, .commit id none [.rotateKey _ _], .ok (some written), _, _⟩ =>
      owner = sampleId && id = sampleId && written.before.row.keyHash = "key 102"
  | _, _ => false

theorem rotated_asked {state : ServerState} {event : ServerEvent} (holds : rotated state event = true) :
    state.view.requests event.call = some (.rotateLicenseKey sampleId) ∧
      ∃ keyHash keyPrefix written, written.before.row.keyHash = "key 102" ∧
        event.deed = ⟨.commit sampleId none [.rotateKey keyHash keyPrefix], .ok (some written)⟩ := by
  unfold rotated at holds
  split at holds
  · next owner id keyHash keyPrefix written before after asked =>
    simp only [Bool.and_eq_true, decide_eq_true_eq] at holds
    obtain ⟨⟨rfl, rfl⟩, key⟩ := holds
    exact ⟨asked, keyHash, keyPrefix, written, key, rfl⟩
  · cases holds

/-- A heartbeat that has read its license before a rotation, and is answered after it. -/
def overtakenHeartbeat : List (Choice Input Move Request) :=
  subscriptionSample ++ sampleCall 2 (.activate "key 102" "laptop" "10.0.0.1") 2 22 ++
    sampleCall 4 (.heartbeat "214-0" "laptop" "10.0.0.1") 3 3 ++
      sampleCall 3 (.rotateLicenseKey sampleId) 4 5 ++ sampleActs 4 5 3 7

def reserved (event : ServerEvent) : Bool :=
  match event.deed with
  | ⟨.registerSession id _ _ _, .ok (.registered token)⟩ => id = sampleId && token = "214-0"
  | _ => false

theorem reserved_admits (holds : reserved event = true) : Admits event sampleId "214-0" := by
  unfold reserved at holds
  split at holds
  · next id sessionRevision bindingHash maxSessions token deed =>
    simp only [Bool.and_eq_true, decide_eq_true_eq] at holds
    obtain ⟨rfl, rfl⟩ := holds
    exact ⟨_, _, _, deed⟩
  · cases holds

def answered (state : ServerState) : Bool :=
  match state.view.requests 4, state.pool 4 with
  | some request, some (.done (.ok _)) => request.presented = some "214-0"
  | _, _ => false

theorem answered_ended {state : ServerState} (holds : answered state = true) : ∃ request response,
    state.view.requests 4 = some request ∧ request.presented = some "214-0" ∧
      state.pool 4 = some (.done (.ok response)) := by
  unfold answered at holds
  split at holds
  · next request response asked ended => exact ⟨request, response, asked, of_decide_eq_true holds, ended⟩
  · cases holds

theorem overtaken_heartbeat : ∃ state early fence late keyHash keyPrefix written request response,
    ServerRun sampleHost 0 state ∧ state.view.history = early ++ fence :: late ∧
      state.view.requests fence.call = some (.rotateLicenseKey sampleId) ∧
      Landed fence sampleId none [.rotateKey keyHash keyPrefix] written ∧
      (∃ reservation ∈ early, Admits reservation sampleId "214-0") ∧ (∃ event ∈ late, event.call = 4) ∧
      state.view.requests 4 = some request ∧ request.presented = some "214-0" ∧
      state.pool 4 = some (.done (.ok response)) := by
  obtain ⟨state, run, holds⟩ := @sampled_run overtakenHeartbeat
    (fun state => state.view.history.any (rotated state) && answered state &&
      (eventsBefore (rotated state) state.view.history).any reserved &&
      (eventsAfter (rotated state) state.view.history).any fun event => event.call = 4)
    (by decide +kernel)
  simp only [Bool.and_eq_true] at holds
  obtain ⟨⟨⟨renewed, ended⟩, admitted⟩, rest⟩ := holds
  obtain ⟨request, response, asked, presented, ended⟩ := answered_ended ended
  obtain ⟨reservation, member, reserved⟩ := List.any_eq_true.mp admitted
  obtain ⟨event, listed, own⟩ := List.any_eq_true.mp rest
  obtain ⟨fence, history, renewed⟩ := first_event renewed
  obtain ⟨operator, keyHash, keyPrefix, written, -, deed⟩ := rotated_asked renewed
  have sound := (server_run_sound run).recorded fence (by rw [history]; simp)
  exact ⟨state, _, fence, _, keyHash, keyPrefix, written, request, response, run, history, operator,
    deed_landed deed sound.ran, ⟨reservation, member, reserved_admits reserved⟩,
    ⟨event, listed, of_decide_eq_true own⟩, asked, presented, ended⟩

theorem sessions_fenced_sample : ∃ state early fence late, ServerRun sampleHost 0 state ∧
    state.view.history = early ++ fence :: late ∧ Fences fence sampleId ∧
      (∃ reservation ∈ early, Admits reservation sampleId "214-0") ∧
      (∃ event ∈ late, event.call = 4) ∧
      ∀ read ∈ late, read.call = 4 → ∀ other, read.act ≠ .findLicense other := by
  obtain ⟨state, early, fence, late, _, _, written, request, response, run, history, operator, landed,
    ⟨reservation, member, admits⟩, beats, asked, presented, ended⟩ := overtaken_heartbeat
  obtain ⟨invalidates, fenced⟩ := sessions_fenced run
  have fences := invalidates _ fence _ history _ _ operator (.committed none _ written rfl landed)
  exact ⟨state, early, fence, late, run, history, fences, ⟨reservation, member, admits⟩, beats,
    fenced _ fence _ sampleId history fences reservation member "214-0" admits 4 request asked presented response
      ended⟩

end Sessions

end Keyzori
