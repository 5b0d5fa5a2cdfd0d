import Keyzori.Server.LicenseMeters
import Keyzori.Server.LinkRemoval
import Keyzori.Server.OperatorPrograms

namespace Keyzori

open Interleaving

variable {host : Host} {request : Request} {view : ServerView} {state : ServerState} {call : Nat}
  {id : LicenseId} {now : Instant} {event : ServerEvent} {early late : List ServerEvent}

def Alters (event : ServerEvent) : Prop := event.after.tables.licenses ≠ event.before.tables.licenses

section Failures

variable {act : Act} {input : Input} {world next : World} {error : Failure}

/-- What the databases report; the service has not spoken. -/
def Failure.Reported (error : Failure) : Prop := ∃ message, error = .internal message

theorem fault_reported (fault : Fault) : fault.failure.Reported := by
  cases fault <;> exact ⟨_, rfl⟩

theorem answer_reported {α : Type} {fault : Option Fault} {result : Except Failure α}
    (reported : ∀ error, result = .error error → error.Reported) (failed : answer fault result = .error error) :
    error.Reported := by
  unfold answer at failed
  split at failed
  · cases failed
    exact fault_reported .lost
  · exact reported error failed

theorem answered_reported {α : Type} {fault : Option Fault} {value : α}
    (failed : answer fault (.ok value) = .error error) : error.Reported :=
  answer_reported (fun _ same => by cases same) failed

theorem attempt_reported {α : Type} {done : World × α}
    (ran : attempt input world done = some (next, .error error)) : error.Reported := by
  unfold attempt at ran
  split at ran
  · cases ran
    exact ⟨_, rfl⟩
  · injection ran with ran
    exact answered_reported (Prod.mk.inj ran).2

theorem await_reported {α : Type} {ready : Bool} {done : World × α}
    (ran : await input world ready done = some (next, .error error)) : error.Reported := by
  unfold await at ran
  split at ran
  · cases ran
    exact ⟨_, rfl⟩
  · split at ran
    · injection ran with ran
      exact answered_reported (Prod.mk.inj ran).2
    · cases ran

theorem acquire_reported {α : Type} {ready : Bool} {done : World × α}
    (ran : acquire input world ready done = some (next, .error error)) : error.Reported := by
  unfold acquire at ran
  split at ran
  · cases ran
    exact fault_reported _
  · split at ran <;> cases ran

theorem runCommit_reported {id : LicenseId} {expected : Option Instant} {writes : List Write}
    (ran : runCommit call id expected writes input world = some (next, .error error)) : error.Reported := by
  unfold runCommit at ran
  split at ran
  · cases ran
    exact ⟨_, rfl⟩
  · split at ran
    · injection ran with ran
      exact answered_reported (Prod.mk.inj ran).2
    · split at ran
      · cases ran
      · split at ran
        · injection ran with ran
          exact answered_reported (Prod.mk.inj ran).2
        · split at ran <;> injection ran with ran
          · exact answer_reported (fun other same => ⟨_, (Except.error.inj same).symm⟩) (Prod.mk.inj ran).2
          · exact answered_reported (Prod.mk.inj ran).2

theorem resolved_reported {fields : SessionFields} {token : String}
    (failed : (resolvedSession fields token).map some = .error error) : error.Reported := by
  unfold resolvedSession at failed
  split at failed <;> cases failed
  exact ⟨_, rfl⟩

theorem refreshSession_reported {store : SessionStore} {token bindingHash : String} {ttl : Nat}
    (failed : (refreshSession store token bindingHash ttl).2 = .error error) : error.Reported := by
  unfold refreshSession at failed
  split at failed
  · cases failed
  · exact resolved_reported failed

theorem removeSession_reported {store : SessionStore} {token bindingHash : String}
    (failed : (removeSession store token bindingHash).2 = .error error) : error.Reported := by
  unfold removeSession at failed
  split at failed
  · cases failed
  · exact resolved_reported failed

theorem exec_reported (ran : exec call act input world = some (next, .error error)) : error.Reported := by
  cases act with
  | draw | licenseKey | licenseId | rollback => cases ran
  | capture _ | query _ | findLicense _ | findByKeyHash _ | claimDue _ _ | markProcessed _ _
  | markFailed _ _ _ | removeAllSessions _ _ => exact attempt_reported ran
  | lock _ => exact acquire_reported ran
  | insertCustomer _ | deleteLicense _ | deleteCustomer _ | registerSession _ _ _ _ =>
      exact await_reported ran
  | lockRow _ | lockLink _ _ =>
      simp only [exec] at ran
      split at ran
      · exact attempt_reported ran
      · exact acquire_reported ran
  | commit id expected writes => exact runCommit_reported ran
  | finish =>
      simp only [exec] at ran
      split at ran <;> cases ran
      exact fault_reported _
  | insertLicense id keyHash keyPrefix data meters =>
      simp only [exec] at ran
      split at ran
      · cases ran
        exact ⟨_, rfl⟩
      · split at ran
        · cases ran
          exact ⟨_, rfl⟩
        · exact await_reported ran
  | updateLinkError _ _ =>
      simp only [exec] at ran
      split at ran
      · exact attempt_reported ran
      · split at ran
        · exact attempt_reported ran
        · exact await_reported ran
  | enqueue _ =>
      simp only [exec] at ran
      split at ran <;> exact attempt_reported ran
  | getSubscription _ =>
      simp only [exec] at ran
      split at ran
      · cases ran
        exact ⟨_, rfl⟩
      · exact attempt_reported ran
  | refreshSession _ _ =>
      simp only [exec] at ran
      split at ran
      · cases ran
        exact ⟨_, rfl⟩
      · injection ran with ran
        exact answer_reported (fun _ failed => refreshSession_reported failed) (Prod.mk.inj ran).2
  | removeSession _ _ =>
      simp only [exec] at ran
      split at ran
      · cases ran
        exact ⟨_, rfl⟩
      · injection ran with ran
        exact answer_reported (fun _ failed => removeSession_reported failed) (Prod.mk.inj ran).2

end Failures

section Runs

def Deciding (request : Request) (trace : ServerTrace) (act : Act) : Prop :=
  request.operator = true → Singular request trace act

def Decided (request : Request) (result : Except Failure Response) (after : ServerTrace) : Prop :=
  request.operator = true → Genuine after → ∀ error, result = .error (.domain error) → Spared after

theorem program_decides (request : Request) :
    (program host request).wp (Deciding request) [] (Decided request) := by
  by_cases operator : request.operator = true
  · have same : Deciding request = Singular request := by
      funext trace act
      exact propext ⟨fun holds => holds operator, fun holds _ => holds⟩
    rw [same]
    exact Prog.wp_mono (program_atomic operator [] pristine_nil) fun _ _ holds _ => holds
  · exact Prog.wp_only (Prog.only_any _) (fun _ _ _ other => absurd other operator)
      fun _ _ _ other => absurd other operator

theorem run_genuine (sound : Sound view) : Genuine (view.trace call) := by
  rintro ⟨act, result⟩ member domain same
  obtain ⟨event, listed, -, deed⟩ := trace_event member
  obtain ⟨input, ran⟩ := deed_ran deed (sound.recorded event listed).ran
  obtain rfl : result = .error (.domain domain) := same
  obtain ⟨message, other⟩ := exec_reported ran
  cases other

theorem refused_spared (run : ServerRun host now state) (asked : state.view.requests call = some request)
    (operator : request.operator = true) {error : DomainError}
    (ended : state.pool call = some (.done (.error (.domain error)))) : Spared (state.view.trace call) := by
  obtain ⟨other, same, decided⟩ := (run_allowed (@program_decides host) run).2.2 call _ ended
  cases asked.symm.trans same
  exact decided operator (run_genuine (server_run_sound run)) error rfl

theorem calm_unaltered
    (ran : ∃ input, exec event.call event.act input event.before = some (event.after, event.result))
    (calm : event.act.mutates = false) : ¬Alters event := by
  obtain ⟨input, ran⟩ := ran
  have effect := exec_effect ran
  refine not_not.mpr (funext fun id => ?_)
  rcases effect_licenses effect id with same | touched
  · exact same
  · generalize event.act = act at touched calm
    cases touched <;> cases calm

theorem write_unaltered {world : World} {data : LicenseData} {writes : List Write}
    (present : world.tables.licenses id = some data) (same : applyWrites now writes data = data) :
    ((world.write id data now writes).release call).tables.licenses = world.tables.licenses := by
  change Function.update world.tables.licenses id (some (applyWrites now writes data)) = _
  rw [same, ← present, Function.update_eq_self]

/-- A transaction that writes back the meters it had read under their lock. -/
theorem rewritten_same {region : MeterRegion} (sound : Sound view)
    (read : Under (view.trace call) (.meter id) (.query fun tables => tables.meters id) region)
    {data : LicenseData} (present : view.world.tables.licenses id = some data) :
    applyWrites now (region.map Write.meters).toList data = data := by
  obtain ⟨old, past, found, kept⟩ := under_query sound read
  cases region with
  | none => rfl
  | some table =>
      obtain ⟨before, there, rfl⟩ := Option.map_eq_some_iff.mp found.symm
      obtain ⟨again, same, meters⟩ := kept data (past.consistent.tables.known id (by simp [there])) present
      cases there.symm.trans same
      change (Write.meters before.meters).apply now data = data
      have meters : data.meters = before.meters := meters
      rw [← meters]
      rfl

theorem void_unaltered {earlier : ServerView} (happened : Happened host now state.view early event earlier request)
    (idle : Void (earlier.trace event.call) event.deed) : ¬Alters event := by
  refine not_not.mpr ?_
  generalize deed : event.deed = done at idle
  cases idle with
  | missed id expected writes =>
      obtain ⟨input, ran⟩ := deed_ran deed happened.ran
      rcases runCommit_some ran with ⟨after, -⟩ | ⟨data, -, -, -, -, -, same | ⟨error, same⟩⟩
      · rw [after]
        rfl
      · cases same
      · cases same
  | rewrote id region written read =>
      obtain ⟨input, ran⟩ := deed_ran deed happened.ran
      rcases runCommit_some ran with ⟨after, -⟩ | ⟨data, present, -, -, -, after, -⟩
      · rw [after]
        rfl
      · rw [after]
        exact write_unaltered present (rewritten_same happened.sound read (happened.world ▸ present))

theorem happened_trace {earlier : ServerView} (happened : Happened host now state.view early event earlier request) :
    earlier.trace call = (early.filter fun other => other.call = call).map Event.deed := by
  simp only [View.trace, View.events, happened.history]

theorem refused_unaltered (run : ServerRun host now state) (asked : state.view.requests call = some request)
    (operator : request.operator = true) {error : DomainError}
    (ended : state.pool call = some (.done (.error (.domain error)))) (member : event ∈ state.view.history)
    (own : event.call = call) : ¬Alters event := by
  obtain ⟨early, late, history⟩ := List.append_of_mem member
  obtain ⟨earlier, other, happened⟩ := server_run_event run history
  cases calm : event.act.mutates with
  | false => exact calm_unaltered happened.ran calm
  | true =>
      refine void_unaltered happened ?_
      rw [happened_trace happened, own]
      exact refused_spared run asked operator ended _ _ _ (trace_split history own) calm

theorem operator_follows (run : ServerRun host now state) (asked : state.view.requests call = some request)
    (operator : request.operator = true) {first second : ServerEvent} {between : List ServerEvent}
    (history : state.view.history = early ++ first :: (between ++ second :: late))
    (own : first.call = call) (mine : second.call = call) (changed : first.act.mutates = true)
    (changes : second.act.mutates = true) : Follows request second.act := by
  have shape : state.view.history = (early ++ first :: between) ++ second :: late := by simp [history]
  obtain ⟨other, same, singular⟩ := run_event (@program_decides host) run shape
  cases (mine ▸ asked).symm.trans same
  refine (singular operator changes).resolve_left fun pristine => ?_
  have calm := pristine first.deed (List.mem_map_of_mem (List.mem_filter.mpr ⟨by simp, by simp [own, mine]⟩))
  exact absurd (changed.symm.trans calm) (by decide)

theorem link_returned (run : ServerRun host now state) {last : ServerEvent} {between : List ServerEvent}
    (history : state.view.history = early ++ event :: (between ++ last :: late))
    (absent : event.after.tables.link id = none) (present : last.before.tables.link id ≠ none) :
    ∃ ahead insert rest new, between = ahead ++ insert :: rest ∧ LinkInserted insert id new := by
  obtain ⟨ahead, change, rest, rfl, held, lost, -⟩ := @allowed_breaks _ _ _ _ _ _ _ _ _ _
    (fun world : World => world.tables.link id = none) _ _
    (fun move world => by simp only [server, move_link]) (server_run_allowed run) rfl _ _ _ _ _ history
    absent present
  obtain ⟨new, there⟩ := Option.ne_none_iff_exists'.mp lost
  have recorded := (server_run_sound run).recorded change (by rw [history]; simp)
  rcases event_link recorded.before.tables recorded.ran there with ⟨old, before, -⟩ | ⟨inserted, insert, -⟩
  · cases held.symm.trans before
  · exact ⟨ahead, change, rest, inserted, rfl, insert⟩

theorem edit_dropped {data : UpdateLicenseInput} {earlier : ServerView}
    (happened : Happened host now state.view early event earlier request)
    (asked : request.edits = some (id, data)) (act : event.act = .commit id none [.deleteLink]) :
    data.unlinkStripe = some true ∧ ∃ commit ∈ early, commit.call = event.call ∧ RowCommit commit id ∧
      commit.after.tables.link id = none := by
  have held := happened.held
  rw [act] at held
  change Commits host request (earlier.trace event.call) id [.deleteLink] at held
  generalize shape : [Write.deleteLink] = writes at held
  cases held with
  | edited id data current row update read inserted statements edits =>
      obtain ⟨options, currentMeters, -, branch, -⟩ := edits.computed
      obtain ⟨final, member, -⟩ := updateStatements_updates branch
      have listed : .updateLicense final ∈ [Write.deleteLink] := shape ▸ List.mem_append_right inserted member
      simp at listed
  | dropped id other seen update writes written edits unlinked foreign observed committed updated =>
      cases asked.symm.trans edits
      obtain ⟨commit, listed, own, wrote, absent⟩ :=
        committed_unlinks happened.start happened.asked asked committed updated foreign
      exact ⟨unlinked, commit, happened.history ▸ listed, own, wrote, absent⟩
  | unlinked id link same observed =>
      subst same
      cases asked
  | disconnected subscriptionId existing locked id row fetched reconciling type =>
      have synchronizes := reconciling.asked
      cases request <;> cases asked <;> cases synchronizes
  | admitted binding license row started registered admitting starts registers =>
      obtain ⟨licenseKey, deviceId, ip, rfl, -⟩ := admitting.lookup.asked
      cases asked
  | allowed id write listed allows =>
      cases shape
      cases listed
  | _ => cases shape

theorem deleteLink_linked
    (ran : ∃ input, exec event.call event.act input event.before = some (event.after, event.result))
    (act : event.act = .commit id none [.deleteLink]) (alters : Alters event) :
    event.before.tables.link id ≠ none := by
  intro absent
  obtain ⟨input, ran⟩ := ran
  have effect := exec_effect ran
  refine alters (funext fun other => ?_)
  rcases effect_licenses effect other with same | touched
  · exact same
  · rw [act] at touched
    cases touched with
    | committed _ _ data now present admitted version lawful exact =>
        have unlinked : data.link = none := by simpa [Tables.link, present] using absent
        have same : applyWrites now [.deleteLink] data = data := by
          obtain ⟨row, link, devices, ips, allowed, meters⟩ := data
          obtain rfl : link = none := unlinked
          rfl
        rw [exact, write_unaltered present same]

/-- The link that comes back after a commit of an operator call is not its own. -/
theorem inserted_foreign (run : ServerRun host now state) (asked : state.view.requests call = some request)
    (operator : request.operator = true) {insert : ServerEvent} {between : List ServerEvent}
    {new : StripeSubscriptionLink}
    (history : state.view.history = early ++ event :: (between ++ insert :: late)) (own : event.call = call)
    (committed : RowCommit event id) (inserted : LinkInserted insert id new) : insert.call ≠ call := by
  intro mine
  obtain ⟨expected, writes, written, landed, -⟩ := committed
  obtain ⟨linked, additions, added, fetched, addition, member⟩ := inserted
  have first : event.act = .commit id expected writes := landed.act
  have second : insert.act = .commit id linked additions := addition.act
  have follows := operator_follows run asked operator history own mine (by rw [first]; rfl) (by rw [second]; rfl)
  rw [second] at follows
  cases follows <;> simp at member

/-- The operators' calls are atomic. -/
theorem operators_atomic (run : ServerRun host now state) (asked : state.view.requests call = some request)
    (operator : request.operator = true) :
    (∀ error, state.pool call = some (.done (.error (.domain error))) →
      ∀ event ∈ state.view.history, event.call = call → ¬Alters event) ∧
    ∀ early first between second late,
      state.view.history = early ++ first :: (between ++ second :: late) →
      first.call = call → second.call = call → Alters first → Alters second →
      (∃ id names, request.meters = some id ∧ second.act = .commit id none [.meterDraft names]) ∨
      ∃ id data older commit middle insert newer new, request.edits = some (id, data) ∧
        data.unlinkStripe = some true ∧ second.act = .commit id none [.deleteLink] ∧
        early ++ first :: between = older ++ commit :: (middle ++ insert :: newer) ∧
        commit.call = call ∧ RowCommit commit id ∧ commit.after.tables.link id = none ∧
        insert.call ≠ call ∧ LinkInserted insert id new := by
  have altered : ∀ event ∈ state.view.history, Alters event → event.act.mutates = true := by
    intro event member alters
    by_contra calm
    exact calm_unaltered ((server_run_sound run).recorded event member).ran (eq_false_of_ne_true calm) alters
  refine ⟨fun error ended event member own => refused_unaltered run asked operator ended member own, ?_⟩
  intro early first between second late history own mine changed changes
  have follows := operator_follows run asked operator history own mine
    (altered first (by simp [history]) changed) (altered second (by simp [history]) changes)
  generalize act : second.act = taken at follows
  cases follows with
  | drafted id names meters => exact .inl ⟨id, names, meters, rfl⟩
  | dropped id data edits =>
      refine .inr ?_
      have shape : state.view.history = (early ++ first :: between) ++ second :: late := by simp [history]
      obtain ⟨earlier, other, happened⟩ := server_run_event run shape
      cases (mine ▸ asked).symm.trans happened.still
      obtain ⟨unlinked, commit, listed, same, committed, absent⟩ := edit_dropped happened edits act
      obtain ⟨older, rest, split⟩ := List.append_of_mem listed
      have whole : state.view.history = older ++ commit :: (rest ++ second :: late) := by
        rw [shape, split]
        simp
      obtain ⟨middle, insert, newer, new, rfl, inserted⟩ :=
        link_returned run whole absent (deleteLink_linked happened.ran act changes)
      refine ⟨id, data, older, commit, middle, insert, newer, new, edits, unlinked, rfl, split,
        same.trans mine, committed, absent, ?_, inserted⟩
      have shape : state.view.history =
          older ++ commit :: (middle ++ insert :: (newer ++ second :: late)) := by simp [whole]
      exact inserted_foreign run asked operator shape (same.trans mine) committed inserted

end Runs

section Samples

/-- After the first meter was archived, the last one cannot be. -/
def refusedSample : List (Choice Input Move Request) :=
  meteredSample ++ sampleCall 3 (.archiveLicenseMeter sampleId "calls" "done") 3 6

def refusedState (state : ServerState) : Bool :=
  match state.view.requests 3, state.pool 3 with
  | some (.archiveLicenseMeter _ _ _), some (.done (.error (.domain _))) =>
      state.view.history.any fun event => decide (event.call = 3) && event.act.mutates
  | _, _ => false

theorem operators_atomic_sample : ∃ state, ServerRun sampleHost 0 state ∧
    (∃ event ∈ state.view.history, event.call = 3 ∧ event.act.mutates = true) ∧
    ∀ event ∈ state.view.history, event.call = 3 → ¬Alters event := by
  obtain ⟨state, run, holds⟩ := @sampled_run refusedSample refusedState (by decide +kernel)
  unfold refusedState at holds
  split at holds
  · next id name reason error asked ended =>
    obtain ⟨event, member, holds⟩ := List.any_eq_true.mp holds
    obtain ⟨own, mutates⟩ := (Bool.and_eq_true _ _).mp holds
    refine ⟨state, run, ⟨event, member, of_decide_eq_true own, mutates⟩, ?_⟩
    exact (operators_atomic run asked rfl).1 error ended
  · cases holds

end Samples

end Keyzori
