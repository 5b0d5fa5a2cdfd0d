import Keyzori.Server.SoundRuns

/-! No lost update: an operator's update or key rotation writes the row that it
read, since every writer of the row moves its stamp on and the write compares
the stamps under the row lock. -/

namespace Keyzori

open Interleaving

variable {host : Host} {request : Request} {view : ServerView} {call other : Nat} {id : LicenseId}
  {act : Act} {world next : World} {data : LicenseData} {writes : List Write} {now : Instant}

section Present

inductive Removes (call : Nat) (world : World) (id : LicenseId) : Act → Prop
  | license (free : world.free call (.row id) = true) : Removes call world id (.deleteLicense id)
  | customer (customerId : String)
      (free : id ∈ world.tables.ids → world.free call (.row id) = true) :
      Removes call world id (.deleteCustomer customerId)

theorem effect_present (effect : Effect call world act next)
    (present : (world.tables.licenses id).isSome) :
    (next.tables.licenses id).isSome ∨ Removes call world id act := by
  rcases effect_licenses effect id with same | touched
  · exact .inl (same ▸ present)
  · cases touched with
    | committed expected writes data now there admitted version lawful exact =>
        exact .inl (by simp [exact, World.release, World.write, World.setLicense])
    | inserted keyHash keyPrefix data meters now fresh unused exact =>
        exact .inl (by simp [exact, World.inserted, World.setLicense])
    | deleted row link exact => exact .inr (.license row)
    | cascaded customerId owned free exact => exact .inr (.customer customerId fun known => (free known).1)
    | linkError subscriptionId error link data now found owner there free exact =>
        exact .inl (by simp [exact, World.setLicense])

def RowsKept (view : ServerView) : Prop :=
  ∀ call id, Holding (view.trace call) (.row id) → (view.world.tables.licenses id).isSome

theorem exec_takes_row {input : Input} {result : Except Failure act.Val}
    (ran : exec call act input world = some (next, result))
    (taken : takes ⟨act, result⟩ = some (.row id)) : (next.tables.licenses id).isSome := by
  cases act with
  | lock lock =>
      cases result with
      | error error => cases taken
      | ok value =>
          simp only [takes] at taken
          split at taken
          · next advisory =>
            cases taken
            cases advisory
          · cases taken
  | lockRow other =>
      cases result with
      | error error => cases taken
      | ok value =>
          cases value with
          | none => cases taken
          | some row =>
              cases taken
              obtain ⟨kept, found⟩ := exec_lockRow ran
              rw [kept]
              simpa [Tables.row] using congrArg Option.isSome found
  | lockLink other subscriptionId =>
      cases result with
      | error error => cases taken
      | ok value =>
          cases value with
          | none => cases taken
          | some link => cases taken
  | _ => cases taken

theorem act_rowsKept (sound : Sound view) (kept : RowsKept view)
    (held : warrant host request (view.trace call) act) {input : Input}
    {result : Except Failure act.Val}
    (ran : exec call act input view.world = some (next, result)) :
    RowsKept (view.record call act result next) := by
  intro caller id holding
  by_cases same : call = caller
  · subst same
    rw [record_trace_self] at holding
    obtain ⟨ended, old | taken⟩ := holding_append.mp holding
    · rcases effect_present (exec_effect ran) (kept call id old) with still | removed
      · exact still
      · cases removed with
        | license free => exact absurd old (held.1 _)
        | customer customerId free => exact absurd old (held.1 _)
    · exact exec_takes_row ran taken
  · rw [record_trace_other same] at holding
    have locked := sound.locked caller (.row id) holding
    rcases effect_present (exec_effect ran) (kept caller id holding) with still | removed
    · exact still
    · have known : id ∈ view.world.tables.ids :=
        sound.consistent.tables.known id (Option.isSome_iff_ne_none.mp (kept caller id holding))
      have taken := not_free locked (Ne.symm same)
      cases removed with
      | license free => simp [taken] at free
      | customer customerId free => simp [taken] at free; exact absurd known free

theorem allowed_rowsKept {view next : ServerView} (sound : Sound view) (kept : RowsKept view)
    (step : ServerAllowed host view next) : RowsKept next := by
  cases step with
  | start call request unused idle => exact kept
  | act call request act input world result asked held ran => exact act_rowsKept sound kept held ran
  | environment event =>
      intro call id holding
      have there := kept call id holding
      cases event <;> exact there

theorem allowedRun_rowsKept (run : ServerAllowedRun host (.start (World.start now)) view) :
    RowsKept view := by
  have both : Sound view ∧ RowsKept view := by
    induction run with
    | refl =>
        refine ⟨start_sound now, ?_⟩
        rintro call id ⟨deed, member, -⟩
        cases member
    | tail _ step ih => exact ⟨allowed_sound ih.1 step, allowed_rowsKept ih.1 ih.2 step⟩
  exact both.2

end Present

section Writes

/-- A transaction that took effect, whatever its call has heard of it. -/
structure Landed (event : ServerEvent) (id : LicenseId) (expected : Option Instant) (writes : List Write)
    (written : Written) : Prop where
  act : event.act = .commit id expected writes
  present : event.before.tables.licenses id = some written.before
  made : ∃ stamp, written.after = applyWrites stamp writes written.before ∧
    event.after = (event.before.write id written.before stamp writes).release event.call

def RowCommit (event : ServerEvent) (id : LicenseId) : Prop :=
  ∃ expected writes written, Landed event id expected writes written ∧ ∃ write ∈ writes, write.locksRow = true

def Untouched (event : ServerEvent) : Prop :=
  event.after = { event.before with locks := event.after.locks }

theorem deed_ran {event : ServerEvent} {act : Act} {result : Except Failure act.Val}
    (same : event.deed = ⟨act, result⟩)
    (ran : ∃ input, exec event.call event.act input event.before = some (event.after, event.result)) :
    ∃ input, exec event.call act input event.before = some (event.after, result) := by
  obtain ⟨call, taken, outcome, before, after⟩ := event
  change (⟨taken, outcome⟩ : ServerDeed) = _ at same
  injection same with acts results
  subst acts
  rwa [eq_of_heq results] at ran

theorem exec_commit {expected : Option Instant} {written : Written} {input : Input} {before after : World}
    (ran : exec call (.commit id expected writes) input before = some (after, .ok (some written))) :
    before.tables.licenses id = some written.before ∧
      written.after = applyWrites input.draw.now writes written.before ∧
      after = (before.write id written.before input.draw.now writes).release call := by
  rcases runCommit_some ran with ⟨-, ⟨error, same⟩ | same⟩ | ⟨data, present, -, -, -, rfl, same⟩
  · cases same
  · cases same
  · rcases same with same | ⟨error, failed⟩
    · cases same
      exact ⟨present, rfl, rfl⟩
    · cases failed

theorem deed_landed {event : ServerEvent} {expected : Option Instant} {written : Written}
    (deed : event.deed = ⟨.commit id expected writes, .ok (some written)⟩)
    (ran : ∃ input, exec event.call event.act input event.before = some (event.after, event.result)) :
    Landed event id expected writes written := by
  obtain ⟨input, ran⟩ := deed_ran deed ran
  obtain ⟨present, made, after⟩ := exec_commit ran
  exact ⟨congrArg Deed.act deed, present, _, made, after⟩

theorem landed_later {event : ServerEvent} {expected : Option Instant} {written : Written}
    (landed : Landed event id expected writes written) :
    event.after.tables.licenses id = some written.after := by
  obtain ⟨-, -, stamp, made, after⟩ := landed
  simp [after, made, World.release, World.write, World.setLicense]

theorem changing_commit {event : ServerEvent} {expected : Option Instant}
    (act : event.act = .commit id expected writes)
    (ran : ∃ input, exec event.call event.act input event.before = some (event.after, event.result))
    (changed : event.after.tables.licenses id ≠ event.before.tables.licenses id) :
    ∃ written, Landed event id expected writes written := by
  obtain ⟨call, taken, result, world, next⟩ := event
  obtain rfl : taken = _ := act
  obtain ⟨input, ran⟩ := ran
  rcases runCommit_some ran with ⟨same, -⟩ | ⟨data, present, -, -, -, after, -⟩
  · exact absurd (congrArg (fun world : World => world.tables.licenses id) same) changed
  · exact ⟨⟨data, applyWrites input.draw.now writes data⟩, rfl, present, _, rfl, after⟩

theorem exec_commit_missed {input : Input} {before after : World}
    (ran : exec call (.commit id none writes) input before = some (after, .ok none)) :
    before.tables.licenses id = none := by
  simp only [exec, runCommit] at ran
  split at ran
  · cases ran
  · split at ran
    · next absent => exact absent
    · split at ran
      · cases ran
      · simp only [Option.any_none, Bool.false_eq_true, if_false] at ran
        split at ran
        all_goals
          injection ran with ran
          cases answer_ok (Prod.mk.inj ran).2

/-- A write of the row moves its stamp on, whatever the clock says. -/
theorem applyWrites_stamp (row : ∃ write ∈ writes, write.locksRow = true) :
    data.row.updatedAt < (applyWrites now writes data).row.updatedAt := by
  obtain ⟨write, member, locks⟩ := row
  obtain ⟨before, after, rfl⟩ := List.append_of_mem member
  obtain ⟨row, written⟩ : ∃ row, write.applyRow (applyWrites now before data).row = some row := by
    cases write <;> first | exact ⟨_, rfl⟩ | cases locks
  rw [applyWrites_append]
  calc data.row.updatedAt
      ≤ (applyWrites now before data).row.updatedAt := applyWrites_row_le.updatedAt
    _ < nextLicenseUpdatedAt now (applyWrites now before data).row :=
        lt_of_lt_of_le (Int.lt_succ _) (le_max_right _ _)
    _ = (write.apply now (applyWrites now before data)).row.updatedAt := by
        simp only [Write.apply, written]
    _ ≤ (applyWrites now (write :: after) (applyWrites now before data)).row.updatedAt :=
        applyWrites_row_le.updatedAt

theorem rowCommit_stamps {event : ServerEvent} (committed : RowCommit event id) :
    ∃ old new, event.before.tables.row id = some old ∧ event.after.tables.row id = some new ∧
      old.updatedAt < new.updatedAt := by
  obtain ⟨expected, writes, written, landed, row⟩ := committed
  obtain ⟨stamp, made, -⟩ := landed.made
  refine ⟨written.before.row, written.after.row, ?_, ?_, made ▸ applyWrites_stamp row⟩
  · simp [Tables.row, landed.present]
  · simp [Tables.row, landed_later landed]

theorem rowCommit_touches {event : ServerEvent} (committed : RowCommit event id) : ¬Untouched event := by
  intro untouched
  obtain ⟨old, new, before, after, later⟩ := rowCommit_stamps committed
  rw [untouched] at after
  cases before.symm.trans after
  exact absurd later (lt_irrefl _)

end Writes

section Rewrites

def Request.rewrites : Request → Option LicenseId
  | .updateLicense id _ | .rotateLicenseKey id => some id
  | _ => none

variable {trace : ServerTrace}

inductive Rewriting (request : Request) (trace : ServerTrace) (id : LicenseId) : List Write → Prop
  | nothing : Rewriting request trace id []
  | checked (writes : List Write) (current : License) (row : StoredLicense)
      (unchanged : Unchanged request trace id current row)
      (written : ∃ write ∈ writes, write.locksRow = true) : Rewriting request trace id writes
  | later (writes earlier : List Write) (written : Option Written)
      (committed : Took trace (.commit id none earlier) written)
      (row : ∃ write ∈ earlier, write.locksRow = true) : Rewriting request trace id writes

theorem commits_rewriting {owner : LicenseId} (rewrites : request.rewrites = some id)
    (commits : Commits host request trace owner writes) :
    Rewriting request trace owner writes ∧ (writes = [] ∨ owner = id) := by
  cases commits with
  | nothing => exact ⟨.nothing, .inl rfl⟩
  | rotated owner current row keyHash keyPrefix asked unchanged =>
      subst asked
      cases rewrites
      exact ⟨.checked _ current row unchanged ⟨_, .head _, rfl⟩, .inr rfl⟩
  | edited owner data current row update link inserted statements edits =>
      obtain ⟨final, shape⟩ := (edits_shape edits).2
      have written : ∃ write ∈ inserted ++ statements, write.locksRow = true := by
        refine ⟨.updateLicense final, List.mem_append_right _ ?_, rfl⟩
        rcases shape with rfl | rfl <;> simp
      refine ⟨.checked _ current row edits.unchanged written, .inr ?_⟩
      have asked := edits.asked
      cases request <;> cases rewrites
      · cases asked
        rfl
      · cases asked
  | dropped owner data link update earlier written asked unlinked other observed committed updated =>
      refine ⟨.later _ earlier written committed ⟨_, updated, rfl⟩, .inr ?_⟩
      cases request <;> cases rewrites
      · cases asked
        rfl
      · cases asked
  | admitted binding license row started registered admitting starts registers =>
      obtain ⟨licenseKey, deviceId, ip, asked, -⟩ := admitting.lookup.asked
      subst asked
      cases rewrites
  | metered owner region table read scripts =>
      cases scripts with
      | create | archive | adjust | consume => cases request <;> cases rewrites <;> contradiction
  | reconciled subscriptionId existing locked owner row fetched now reconciling type =>
      have asked := reconciling.asked
      cases request <;> cases rewrites <;> cases asked
  | disconnected subscriptionId existing locked owner row fetched reconciling type =>
      have asked := reconciling.asked
      cases request <;> cases rewrites <;> cases asked
  | _ => cases request <;> cases rewrites <;> contradiction

def Wrote (trace : ServerTrace) (id : LicenseId) : Prop :=
  ∃ writes written, Took trace (.commit id none writes) written ∧ ∃ write ∈ writes, write.locksRow = true

/-- What an event of an update or a rotation does: nothing, its checked write, or
something after it. -/
inductive Rewrite (request : Request) (trace : ServerTrace) (id : LicenseId) (event : ServerEvent) : Prop
  | untouched (same : Untouched event)
  | checked (current : License) (row : StoredLicense) (committed : RowCommit event id)
      (unchanged : Unchanged request trace id current row)
  | later (wrote : Wrote trace id)

theorem write_nothing (present : world.tables.licenses id = some data) :
    world.write id data now [] = world := by
  have same : Function.update world.tables.licenses id (some data) = world.tables.licenses :=
    Function.update_eq_self_iff.mpr present.symm
  simp [World.write, World.setLicense, applyWrites, same]

theorem rewriting_commit {owner : LicenseId} {expected : Option Instant} {input : Input}
    {result : Except Failure (Option Written)} (rewrites : request.rewrites = some id)
    (commits : Commits host request trace owner writes)
    (ran : exec call (.commit owner expected writes) input world = some (next, result)) :
    Rewrite request trace id ⟨call, .commit owner expected writes, result, world, next⟩ := by
  rcases runCommit_some ran with ⟨rfl, -⟩ | ⟨data, present, -, -, -, rfl, -⟩
  · exact .untouched rfl
  · obtain ⟨rewriting, owned⟩ := commits_rewriting rewrites commits
    rcases owned with rfl | rfl
    · rw [write_nothing present]
      exact .untouched rfl
    · cases rewriting with
      | nothing =>
          rw [write_nothing present]
          exact .untouched rfl
      | checked writes current row unchanged written =>
          exact .checked current row ⟨expected, writes,
            ⟨data, applyWrites input.draw.now writes data⟩, ⟨rfl, present, _, rfl, rfl⟩, written⟩ unchanged
      | later writes earlier written committed row => exact .later ⟨earlier, written, committed, row⟩

theorem rewriting_event {last earlier : ServerView} {before : List ServerEvent} {event : ServerEvent}
    (rewrites : request.rewrites = some id)
    (happened : Happened host now last before event earlier request) :
    Rewrite request (earlier.trace event.call) id event := by
  obtain ⟨call, act, result, world, next⟩ := event
  have held := happened.held
  obtain ⟨input, ran⟩ := happened.ran
  have effect := exec_effect ran
  dsimp only at held ran effect ⊢
  cases act with
  | commit owner expected writes => exact rewriting_commit rewrites held ran
  | removeAllSessions owner revision =>
      cases revision with
      | none => cases held <;> cases request <;> cases rewrites <;> contradiction
      | some revision =>
          cases held with
          | rotated keyHash keyPrefix written asked committed own =>
              subst asked
              cases rewrites
              exact .later ⟨_, _, committed, _, .head _, rfl⟩
          | _ => cases request <;> cases rewrites <;> contradiction
  | insertLicense owner keyHash keyPrefix data meters =>
      obtain ⟨input, limits, config, meters, now, asked, -⟩ := held.computed
      subst asked
      cases rewrites
  | registerSession owner sessionRevision bindingHash maxSessions =>
      obtain ⟨binding, license, row, admitting, -⟩ := held
      obtain ⟨licenseKey, deviceId, ip, asked, -⟩ := admitting.lookup.asked
      subst asked
      cases rewrites
  | removeSession sessionToken bindingHash => cases held <;> cases request <;> cases rewrites <;> contradiction
  | markProcessed eventId processedAt =>
      have asked := held.1
      cases request <;> cases rewrites <;> cases asked
  | deleteLicense | deleteCustomer | updateLinkError | claimDue =>
      have asked := held.2
      cases request <;> cases rewrites <;> cases asked
  | insertCustomer | refreshSession | getSubscription | enqueue | markFailed =>
      have asked := held
      cases request <;> cases rewrites <;> cases asked
  | _ => cases effect <;> exact .untouched rfl

end Rewrites

section Span

/-- A row that was the same at two times was the same between them. -/
theorem row_between {first middle last : World} {row stored : StoredLicense} (early : Progress first middle)
    (late : Progress middle last) (known : id ∈ first.tables.ids)
    (before : first.tables.row id = some row) (after : last.tables.row id = some stored)
    (stamp : stored.updatedAt = row.updatedAt) : middle.tables.row id = some row := by
  obtain ⟨new, present, rfl⟩ := Option.map_eq_some_iff.mp after
  obtain ⟨between, there, second⟩ := late.rows id new (early.ids id known) present
  obtain ⟨old, stored, first⟩ := early.rows id between known there
  rw [Tables.row, stored, Option.map_some] at before
  obtain rfl := Option.some.inj before
  have same : old.row.updatedAt = between.row.updatedAt :=
    le_antisymm first.updatedAt (second.updatedAt.trans_eq stamp)
  rw [Tables.row, there, Option.map_some, first.same same]

/-- From a call's first act, a read of the license, on: every act found and left
the row as it was read. -/
def Spans (before : List ServerEvent) (call : Nat) (id : LicenseId) (row : StoredLicense) : Prop :=
  ∃ early read late current, before = early ++ read :: late ∧ (∀ event ∈ early, event.call ≠ call) ∧
    read.call = call ∧ read.deed = ⟨.findLicense id, .ok (some current)⟩ ∧
    current.toLicenseColumns = row.toLicenseColumns ∧
    ∀ event ∈ read :: late, event.before.tables.row id = some row ∧ event.after.tables.row id = some row

theorem row_since (sound : Sound view) {current : License} {row : StoredLicense}
    (unchanged : Unchanged request (view.trace call) id current row)
    (present : view.world.tables.licenses id = some data) {early late : List ServerEvent}
    {read : ServerEvent} (history : view.history = early ++ read :: late) (own : read.call = call)
    (deed : read.deed = ⟨.findLicense id, .ok (some current)⟩) :
    ∀ event ∈ read :: late, event.before.tables.row id = some row ∧ event.after.tables.row id = some row := by
  obtain ⟨same, columns⟩ := unchanged_row sound unchanged data present
  have listed : read ∈ view.events call :=
    List.mem_filter.mpr ⟨history ▸ List.mem_append_right _ (.head _), by simpa using own⟩
  have recalled := recall_event sound listed deed
  obtain ⟨input, ran⟩ := recalled.ran
  obtain ⟨kept, found⟩ := exec_findLicense ran
  obtain ⟨old, stored, rfl⟩ := Option.map_eq_some_iff.mp found.symm
  have known := recalled.consistent.tables.known id (Option.ne_none_iff_exists'.mpr ⟨old, stored⟩)
  obtain ⟨middle, there, later⟩ := recalled.progress.rows id data (kept ▸ known) present
  rw [kept] at there
  cases stored.symm.trans there
  have stamp : old.row.updatedAt = data.row.updatedAt := by
    rw [same]
    exact congrArg LicenseColumns.updatedAt columns
  have owned : old.row = row := (later.same stamp).symm.trans same
  have start : read.before.tables.row id = some row := by rw [Tables.row, stored, Option.map_some, owned]
  have final : view.world.tables.row id = some row := by rw [Tables.row, present, Option.map_some, same]
  intro event member
  rcases List.mem_cons.mp member with rfl | listed
  · exact ⟨start, kept ▸ start⟩
  · have ordered := sound.ordered
    rw [history] at ordered
    have progress : Progress read.after event.before :=
      (List.pairwise_cons.mp (List.pairwise_append.mp ordered).2.1).1 event listed
    have recorded := sound.recorded event (history ▸ List.mem_append_right _ (.tail _ listed))
    obtain ⟨input, happened⟩ := recorded.ran
    have step := effect_progress (exec_effect happened)
    rw [kept] at progress
    exact ⟨row_between progress (step.trans recorded.progress) known start final rfl,
      row_between (progress.trans step) recorded.progress known start final rfl⟩

theorem unchanged_spans (sound : Sound view) (rewrites : request.rewrites = some id) {current : License}
    {row : StoredLicense} (unchanged : Unchanged request (view.trace call) id current row)
    (present : view.world.tables.licenses id = some data) :
    data.row = row ∧ Spans view.history call id row := by
  obtain ⟨same, columns⟩ := unchanged_row sound unchanged data present
  refine ⟨same, ?_⟩
  obtain ⟨before, after, shape, first⟩ := unchanged.read
  have first : before = [] := by
    refine first.resolve_left ?_
    rintro ⟨expiresAt, rfl⟩
    cases rewrites
  subst first
  obtain ⟨read, events, own, deed, rfl⟩ := List.map_eq_cons_iff.mp shape
  obtain ⟨early, late, history, others, mine, -⟩ := List.filter_eq_cons_iff.mp own
  have mine : read.call = call := by simpa using mine
  refine ⟨early, read, late, _, history, fun event member => ?_, mine, deed, columns,
    row_since sound unchanged present history mine deed⟩
  simpa using others event member

theorem sublist_pair {α : Type 1} {first second : α} {items : List α} (sublist : [first, second].Sublist items) :
    ∃ early between late, items = early ++ first :: (between ++ second :: late) := by
  obtain ⟨before, after, rfl, head, tail⟩ := List.cons_sublist_iff.mp sublist
  obtain ⟨early, others, rfl⟩ := List.append_of_mem head
  obtain ⟨between, late, rfl⟩ := List.append_of_mem (List.singleton_sublist.mp tail)
  exact ⟨early, others ++ between, late, by simp⟩

theorem ordered_events {first second : ServerDeed} (ordered : InOrder (view.trace call) first second) :
    ∃ early one between two late, view.history = early ++ one :: (between ++ two :: late) ∧
      one.call = call ∧ one.deed = first ∧ two.call = call ∧ two.deed = second := by
  obtain ⟨one, two, same, same', sublist⟩ := inOrder_events ordered
  have own : ∀ event ∈ view.events call, event.call = call := fun event member => by
    simpa using (List.mem_filter.mp member).2
  obtain ⟨early, between, late, history⟩ := sublist_pair (sublist.trans List.filter_sublist)
  exact ⟨early, one, between, two, late, history, own one (sublist.subset (.head _)), same,
    own two (sublist.subset (.tail _ (.head _))), same'⟩

end Span

section Calls

theorem first_split {α : Type 1} {items : List α} {property : α → Prop}
    (found : ∃ item ∈ items, property item) : ∃ before item after, items = before ++ item :: after ∧
      property item ∧ ∀ other ∈ before, ¬property other := by
  classical
  obtain ⟨item, member, holds⟩ := found
  obtain ⟨first, same⟩ := Option.isSome_iff_exists.mp
    ((@List.find?_isSome _ items fun item => decide (property item)).mpr
      ⟨item, member, decide_eq_true holds⟩)
  obtain ⟨holds, before, after, shape, others⟩ := List.find?_eq_some_iff_append.mp same
  exact ⟨before, first, after, shape, of_decide_eq_true holds, fun other listed => by
    simpa using others other listed⟩

theorem trace_event {deed : ServerDeed} (took : deed ∈ view.trace call) :
    ∃ event ∈ view.history, event.call = call ∧ event.deed = deed := by
  obtain ⟨event, member, same⟩ := List.mem_map.mp took
  obtain ⟨listed, own⟩ := List.mem_filter.mp member
  exact ⟨event, listed, by simpa using own, same⟩

theorem trace_split {early late : List ServerEvent} {event : ServerEvent}
    (history : view.history = early ++ event :: late) (own : event.call = call) :
    view.trace call = (early.filter fun other => other.call = call).map Event.deed ++
      event.deed :: (late.filter fun other => other.call = call).map Event.deed := by
  simp [View.trace, View.events, history, own]

theorem wrote_touched (run : ServerAllowedRun host (.start (World.start now)) view)
    (asked : view.requests call = some request) (rewrites : request.rewrites = some id)
    (wrote : Wrote (view.trace call) id) : ∃ event ∈ view.history, event.call = call ∧ ¬Untouched event := by
  obtain ⟨writes, written, took, row⟩ := wrote
  obtain ⟨event, listed, own, deed⟩ := trace_event took
  obtain ⟨before, first, after, shape, ⟨mine, writes, written, deed, row⟩, earliest⟩ :=
    @first_split _ view.history (fun event => event.call = call ∧ ∃ writes written,
      event.deed = ⟨.commit id none writes, .ok written⟩ ∧ ∃ write ∈ writes, write.locksRow = true)
      ⟨event, listed, own, writes, written, deed, row⟩
  obtain ⟨earlier, request', happened⟩ := allowedRun_event run shape
  have same : request' = request := Option.some.inj (happened.still.symm.trans (mine ▸ asked))
  subst same mine
  refine ⟨first, shape ▸ List.mem_append_right _ (.head _), rfl, ?_⟩
  obtain ⟨input, ran⟩ := deed_ran deed happened.ran
  have held : warrant host request' (earlier.trace first.call) (.commit id none writes) := by
    have act : first.act = .commit id none writes := congrArg Deed.act deed
    exact act ▸ happened.held
  cases (commits_rewriting rewrites held).1 with
  | nothing =>
      obtain ⟨write, member, -⟩ := row
      cases member
  | checked writes current stored unchanged kept =>
      have present := allowedRun_rowsKept happened.start _ _ (within_holding unchanged.locked)
      cases written with
      | none =>
          rw [happened.world, exec_commit_missed ran] at present
          cases present
      | some written => exact rowCommit_touches ⟨none, writes, written, deed_landed deed happened.ran, row⟩
  | later writes others other committed changed =>
      obtain ⟨event, listed, own, deed⟩ := trace_event committed
      exact absurd ⟨own, others, other, deed, changed⟩ (earliest event (happened.history ▸ listed))

/-- The first act of a call, a read of the license, and its first act that changed
anything, a write of the row that is as it was read. -/
def Rewritten (history : List ServerEvent) (call : Nat) (id : LicenseId) : Prop :=
  ∃ early read between write late current row,
    history = early ++ read :: (between ++ write :: late) ∧
    (∀ event ∈ early, event.call ≠ call) ∧
    read.call = call ∧ read.deed = ⟨.findLicense id, .ok (some current)⟩ ∧
    current.toLicenseColumns = row.toLicenseColumns ∧
    (∀ event ∈ read :: between, event.before.tables.row id = some row ∧
      event.after.tables.row id = some row ∧ (event.call = call → Untouched event)) ∧
    write.call = call ∧ RowCommit write id ∧ write.before.tables.row id = some row

theorem rewriting_call {state : ServerState} (run : ServerRun host now state)
    (asked : state.view.requests call = some request) (rewrites : request.rewrites = some id) :
    (∀ event ∈ state.view.history, event.call = call → Untouched event) ∨
      Rewritten state.view.history call id := by
  by_cases touched : ∃ event ∈ state.view.history, event.call = call ∧ ¬Untouched event
  · refine .inr ?_
    obtain ⟨before, write, late, shape, ⟨mine, changed⟩, earliest⟩ := first_split touched
    obtain ⟨earlier, request', happened⟩ := server_run_event run shape
    have same : request' = request := Option.some.inj (happened.still.symm.trans (mine ▸ asked))
    subst same mine
    cases rewriting_event rewrites happened with
    | untouched same => exact absurd same changed
    | checked current row committed unchanged =>
        have present := allowedRun_rowsKept happened.start _ _ (within_holding unchanged.locked)
        obtain ⟨data, present⟩ := Option.isSome_iff_exists.mp present
        obtain ⟨same, early, read, between, current, history, others, own, deed, columns, kept⟩ :=
          unchanged_spans happened.sound rewrites unchanged present
        rw [happened.history] at history
        refine ⟨early, read, between, write, late, current, row, ?_, others, own, deed, columns, ?_, rfl,
          committed, ?_⟩
        · rw [shape, history]
          simp
        · intro event member
          obtain ⟨found, left⟩ := kept event member
          refine ⟨found, left, fun own => not_not.mp fun changed => ?_⟩
          exact earliest event (history ▸ List.mem_append_right _ member) ⟨own, changed⟩
        · rw [← happened.world, Tables.row, present, Option.map_some, same]
    | later wrote =>
        obtain ⟨event, listed, own, changed⟩ := wrote_touched happened.start happened.asked rewrites wrote
        exact absurd ⟨own, changed⟩ (earliest event (happened.history ▸ listed))
  · push Not at touched
    exact .inl touched

theorem success_wrote {state : ServerState} (run : ServerRun host now state)
    (asked : state.view.requests call = some request) (rewrites : request.rewrites = some id)
    {response : Response} (ended : state.pool call = some (.done (.ok response))) :
    Wrote (state.view.trace call) id := by
  obtain ⟨request', same, reached⟩ := server_run_outcome run ended
  cases asked.symm.trans same
  cases request <;> cases rewrites
  · obtain ⟨type, writes, written, update, took, member, -⟩ := reached response rfl
    exact ⟨writes, written, took, _, member, rfl⟩
  · obtain ⟨written, keyHash, keyPrefix, took⟩ := reached response rfl
    exact ⟨_, _, took, _, .head _, rfl⟩

theorem success_rewritten {state : ServerState} (run : ServerRun host now state)
    (asked : state.view.requests call = some request) (rewrites : request.rewrites = some id)
    {response : Response} (ended : state.pool call = some (.done (.ok response))) :
    Rewritten state.view.history call id := by
  obtain ⟨event, listed, own, changed⟩ := wrote_touched (server_run_allowed run) asked rewrites
    (success_wrote run asked rewrites ended)
  exact (rewriting_call run asked rewrites).resolve_left fun calm => changed (calm event listed own)

theorem first_unique {α : Type 1} {property : α → Prop} {first second : α} {before after others rest : List α}
    (same : before ++ first :: after = others ++ second :: rest) (one : property first)
    (two : property second) (early : ∀ item ∈ before, ¬property item)
    (late : ∀ item ∈ others, ¬property item) : before = others ∧ first = second ∧ after = rest := by
  induction before generalizing others with
  | nil =>
      cases others with
      | nil =>
          obtain ⟨rfl, rfl⟩ := List.cons.inj same
          exact ⟨rfl, rfl, rfl⟩
      | cons other others =>
          obtain ⟨rfl, -⟩ := List.cons.inj same
          exact absurd one (late first (.head _))
  | cons item before ih =>
      cases others with
      | nil =>
          obtain ⟨rfl, -⟩ := List.cons.inj same
          exact absurd two (early item (.head _))
      | cons other others =>
          obtain ⟨rfl, tail⟩ := List.cons.inj same
          obtain ⟨rfl, matched⟩ := ih tail (fun other member => early other (.tail _ member))
            fun other member => late other (.tail _ member)
          exact ⟨rfl, matched⟩

/-- Another call changed the row after a call had read it and before it changed anything. -/
def Disturbed (history : List ServerEvent) (call : Nat) (id : LicenseId) : Prop :=
  ∃ early read between other late, history = early ++ read :: (between ++ other :: late) ∧
    (∀ event ∈ early, event.call ≠ call) ∧ read.call = call ∧
    (∀ event ∈ between, event.call = call → Untouched event) ∧
    other.call ≠ call ∧ other.after.tables.row id ≠ other.before.tables.row id

theorem rewritten_undisturbed {history : List ServerEvent}
    (rewritten : Rewritten history call id) : ¬Disturbed history call id := by
  rintro ⟨early, read, between, other, late, shape, others, own, calm, foreign, changed⟩
  obtain ⟨first, look, middle, write, rest, current, row, shape', others', own', -, -, kept, mine,
    committed, -⟩ := rewritten
  obtain ⟨-, -, same⟩ := @first_unique _ (fun event : ServerEvent => event.call = call) _ _ _ _ _ _
    (shape.symm.trans shape') own own' others others'
  rcases List.append_eq_append_iff.mp same with ⟨more, rfl, tail⟩ | ⟨more, rfl, tail⟩
  · cases more with
    | nil =>
        obtain ⟨rfl, -⟩ := List.cons.inj tail
        exact foreign mine
    | cons event more =>
        obtain ⟨rfl, -⟩ := List.cons.inj tail
        obtain ⟨before, after, -⟩ := kept other (by simp)
        exact changed (after.trans before.symm)
  · cases more with
    | nil =>
        obtain ⟨rfl, -⟩ := List.cons.inj tail
        exact foreign mine
    | cons event more =>
        obtain ⟨rfl, -⟩ := List.cons.inj tail
        exact rowCommit_touches committed (calm write (by simp) mine)

end Calls

section Updates

theorem event_stamps (sound : Sound view) {event : ServerEvent} (member : event ∈ view.history)
    {old new : StoredLicense} (before : event.before.tables.row id = some old)
    (after : event.after.tables.row id = some new) : new = old ∨ old.updatedAt < new.updatedAt := by
  obtain ⟨⟨input, ran⟩, consistent, -, -⟩ := sound.recorded event member
  obtain ⟨data, present, rfl⟩ := Option.map_eq_some_iff.mp before
  obtain ⟨later, there, rfl⟩ := Option.map_eq_some_iff.mp after
  have known := consistent.tables.known id (Option.ne_none_iff_exists'.mpr ⟨data, present⟩)
  obtain ⟨stored, same, moved⟩ := (effect_progress (exec_effect ran)).rows id later known there
  cases present.symm.trans same
  rcases moved.updatedAt.eq_or_lt with stamp | stamp
  · exact .inl (moved.same stamp)
  · exact .inr stamp

/-- An update or a rotation that succeeds wrote the row it read, with no change in
between; one whose row another call changed in between changes nothing and does
not succeed; and every write of a row, like every change, moves its stamp on. -/
theorem no_lost_update {state : ServerState} (run : ServerRun host now state) :
    (∀ call request id, state.view.requests call = some request → request.rewrites = some id →
      (∀ response, state.pool call = some (.done (.ok response)) →
        Rewritten state.view.history call id) ∧
      (Disturbed state.view.history call id →
        (∀ event ∈ state.view.history, event.call = call → Untouched event) ∧
          ∀ response, state.pool call ≠ some (.done (.ok response)))) ∧
    (∀ event ∈ state.view.history, ∀ id, RowCommit event id → ∃ old new,
      event.before.tables.row id = some old ∧ event.after.tables.row id = some new ∧
        old.updatedAt < new.updatedAt) ∧
    ∀ event ∈ state.view.history, ∀ id old new, event.before.tables.row id = some old →
      event.after.tables.row id = some new → new = old ∨ old.updatedAt < new.updatedAt := by
  have sound := server_run_sound run
  refine ⟨fun call request id asked rewrites => ?_, fun event _ id committed =>
    rowCommit_stamps committed, fun event member id old new before after =>
    event_stamps sound member before after⟩
  have success := fun response => @success_rewritten host request call id now state run asked rewrites response
  refine ⟨success, fun disturbed => ⟨?_, fun response ended => ?_⟩⟩
  · exact (rewriting_call run asked rewrites).resolve_right fun rewritten =>
      rewritten_undisturbed rewritten disturbed
  · exact rewritten_undisturbed (success response ended) disturbed

def keyRotated (state : ServerState) : Bool :=
  match state.view.requests 2, state.pool 2 with
  | some (.rotateLicenseKey id), some (.done (.ok _)) => decide (id = sampleId)
  | _, _ => false

theorem no_lost_update_sample : ∃ state, ServerRun sampleHost 0 state ∧
    Rewritten state.view.history 2 sampleId := by
  obtain ⟨state, run, holds⟩ := @sampled_run
    (subscriptionSample ++ sampleCall 2 (.rotateLicenseKey sampleId) 2 7) keyRotated (by decide +kernel)
  unfold keyRotated at holds
  split at holds
  · next id response asked ended =>
    obtain rfl := of_decide_eq_true holds
    exact ⟨state, run, ((no_lost_update run).1 2 _ _ asked rfl).1 _ ended⟩
  · cases holds

end Updates

end Keyzori
