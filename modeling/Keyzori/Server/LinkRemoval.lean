import Keyzori.Server.Shape
import Keyzori.Server.Versions

/-! Who removes a Stripe link. A reconciliation and the transaction of an update
delete the link that they saw; an unlink, and an update after its transaction,
delete by license whatever is there by then. -/

namespace Keyzori

open Interleaving

variable {host : Host} {request : Request} {view : ServerView} {call : Nat} {id : LicenseId}
  {world : World} {data : LicenseData} {writes : List Write} {now : Instant}
  {link : StripeSubscriptionLink}

section Links

def LinkInserted (event : ServerEvent) (id : LicenseId) (link : StripeSubscriptionLink) : Prop :=
  ∃ expected writes written fetched, Landed event id expected writes written ∧
    .insertLink link fetched ∈ writes

def LinkDeleted (event : ServerEvent) (id : LicenseId) (link : StripeSubscriptionLink) : Prop :=
  ∃ expected writes written, Landed event id expected writes written ∧
    .deleteLink ∈ writes ∧ event.before.tables.link id = some link

theorem event_link {event : ServerEvent} (sound : TablesSound event.before)
    (ran : ∃ input, exec event.call event.act input event.before = some (event.after, event.result))
    (linked : event.after.tables.link id = some link) :
    (∃ old, event.before.tables.link id = some old ∧ old.subscriptionId = link.subscriptionId) ∨
      ∃ new, LinkInserted event id new ∧ new.subscriptionId = link.subscriptionId := by
  obtain ⟨call, act, result, before, after⟩ := event
  obtain ⟨input, ran⟩ := ran
  obtain ⟨stored, present, owned⟩ := Option.bind_eq_some_iff.mp linked
  dsimp only at *
  cases effect_origin (exec_effect ran) present with
  | same _ there => exact .inl ⟨link, by simp [Tables.link, there, owned], rfl⟩
  | committed expected writes old stamp there admitted lawful written exact =>
      rw [written] at owned
      rcases applyWrites_linkOrigin owned with ⟨earlier, had, same, -⟩ | ⟨new, fetched, member, same, -⟩
      · exact .inl ⟨earlier, by simp [Tables.link, there, had], same⟩
      · rcases runCommit_some ran with ⟨rfl, -⟩ | ⟨found, there, -, -, -, after, -⟩
        · exact .inl ⟨link, linked, rfl⟩
        · exact .inr ⟨new, ⟨expected, writes, ⟨found, applyWrites input.draw.now writes found⟩, fetched,
            ⟨rfl, there, _, rfl, after⟩, member⟩, same⟩
  | inserted keyHash keyPrefix new meters stamp fresh unused written exact =>
      rw [written] at owned
      cases owned
  | linkError subscriptionId error seen old stamp found owner there free written =>
      obtain ⟨here, -⟩ := findBySubscriptionId_some sound found
      rw [written] at owned
      cases owned
      exact .inl ⟨seen, owner ▸ here, rfl⟩

end Links

section Edits

theorem edit_unlinks (sound : Sound view) {data : UpdateLicenseInput} {stored : LicenseData}
    {final : LicenseUpdate} (asked : request.edits = some (id, data))
    (commits : Commits host request (view.trace call) id writes) (member : .updateLicense final ∈ writes)
    (other : final.type ≠ some .subscription) (present : view.world.tables.licenses id = some stored) :
    (applyWrites now writes stored).link = none := by
  rcases commits_updateLicense commits member with ⟨restores, -⟩ | ⟨data, current, row, update, link, inserted,
    statements, options, currentMeters, edits, computed, cases, updated, rfl⟩
  · rw [restores] at asked
    cases asked
  · have kept : (applyWrites now inserted stored).link = stored.link := by
      refine applyWrites_link fun write listed => ?_
      rcases (edits_shape edits).1 with rfl | ⟨table, rfl⟩
      · cases listed
      · rw [List.mem_singleton.mp listed]
        rfl
    rw [applyWrites_append]
    cases cases with
    | plain =>
        obtain ⟨old, before, -, read, there, -, links⟩ := under_row sound edits.linked present
        have none : stored.link = none := by
          cases linked : stored.link with
          | none => rfl
          | some found =>
              obtain ⟨earlier, had, -⟩ := links found linked
              rw [Tables.link, there] at read
              cases read.trans had
        exact kept.trans none
    | unlinks => rfl
    | linked link type automatic =>
        cases List.mem_singleton.mp updated
        exact absurd type other

end Edits

section Removal

def Looked (before : List ServerEvent) (call : Nat) (id : LicenseId) (seen : StripeSubscriptionLink) :
    Prop :=
  ∃ event ∈ before, event.call = call ∧
    (event.deed = ⟨.query fun tables => tables.link id, .ok (some seen)⟩ ∨
      ∃ subscriptionId, event.deed = ⟨.lockLink id subscriptionId, .ok (some seen)⟩)

/-- The link that a call deletes is one it looked at, and an update deletes none
after its transaction. -/
structure SeenLink (view : ServerView) (before : List ServerEvent) (event : ServerEvent)
    (id : LicenseId) (link : StripeSubscriptionLink) : Prop where
  looked : ∃ seen, Looked before event.call id seen ∧ seen.subscriptionId = link.subscriptionId
  inside : ∀ data, view.requests event.call = some (.updateLicense id data) →
    ∀ earlier ∈ before, earlier.call = event.call → ¬RowCommit earlier id

/-- A link is created that is still there when another call deletes by license: an
unlink that had looked at the link of another subscription, or an update whose
transaction had committed. -/
inductive Raced (view : ServerView) : Prop
  | unlinking (id : LicenseId) (early between rest late : List ServerEvent)
      (look insert delete : ServerEvent) (seen new link : StripeSubscriptionLink)
      (history : view.history = early ++ look :: (between ++ insert :: (rest ++ delete :: late)))
      (asked : view.requests delete.call = some (.unlinkLicense id)) (own : look.call = delete.call)
      (looked : look.deed = ⟨.query fun tables => tables.link id, .ok (some seen)⟩)
      (inserted : LinkInserted insert id new) (other : new.subscriptionId ≠ seen.subscriptionId)
      (kept : ∀ event ∈ rest, event.after.tables.link id ≠ none)
      (deleted : LinkDeleted delete id link) : Raced view
  | updating (id : LicenseId) (data : UpdateLicenseInput) (early between rest late : List ServerEvent)
      (commit insert delete : ServerEvent) (new link : StripeSubscriptionLink)
      (history : view.history = early ++ commit :: (between ++ insert :: (rest ++ delete :: late)))
      (asked : view.requests delete.call = some (.updateLicense id data)) (own : commit.call = delete.call)
      (committed : RowCommit commit id) (inserted : LinkInserted insert id new)
      (kept : ∀ event ∈ rest, event.after.tables.link id ≠ none)
      (deleted : LinkDeleted delete id link) : Raced view

theorem move_link (event : Move) (world : World) (id : LicenseId) :
    (move event world).tables.link id = world.tables.link id := by
  cases event <;> rfl

variable {state : ServerState} {before after : List ServerEvent} {event : ServerEvent}

theorem unlink_looked (run : ServerRun host now state)
    (shape : state.view.history = before ++ event :: after)
    (asked : state.view.requests event.call = some (.unlinkLicense id))
    (deleted : LinkDeleted event id link) {seen : StripeSubscriptionLink} {look : ServerEvent}
    (listed : look ∈ before) (own : look.call = event.call)
    (looked : look.deed = ⟨.query fun tables => tables.link id, .ok (some seen)⟩)
    (unraced : ¬Raced state.view) : seen.subscriptionId = link.subscriptionId := by
  by_contra differs
  have sound := server_run_sound run
  obtain ⟨early, between, rfl⟩ := List.append_of_mem listed
  have history : state.view.history = early ++ look :: (between ++ event :: after) := by simp [shape]
  have member : look ∈ state.view.history := history ▸ List.mem_append_right _ (.head _)
  obtain ⟨input, ran⟩ := deed_ran looked (sound.recorded look member).ran
  obtain ⟨same, found⟩ := exec_query ran
  -- The link belongs to the subscription that the call saw, as long as no other is inserted.
  have broken : ¬∀ other, event.before.tables.link id = some other →
      other.subscriptionId = seen.subscriptionId := by
    obtain ⟨-, -, -, -, -, present⟩ := deleted
    exact fun all => differs (all link present).symm
  have start : ∀ other, look.after.tables.link id = some other →
      other.subscriptionId = seen.subscriptionId := by
    intro other present
    rw [same, ← found] at present
    cases present
    rfl
  obtain ⟨ahead, change, rest, rfl, held, lost, others⟩ := @allowed_breaks _ _ _ _ _ _ _ _ _ _
    (fun world : World => ∀ other, world.tables.link id = some other →
      other.subscriptionId = seen.subscriptionId) _ _
    (fun move world => by simp only [server, move_link]) (server_run_allowed run) rfl _ _ _ _ _ history
    start broken
  push Not at lost
  obtain ⟨new, present, foreign⟩ := lost
  have recorded := sound.recorded change (by rw [history]; simp)
  rcases event_link recorded.before.tables recorded.ran present with ⟨old, there, subscription⟩ |
    ⟨inserted, insert, subscription⟩
  · exact foreign (subscription ▸ held old there)
  · refine unraced (.unlinking id early ahead rest after look change event seen inserted link ?_ asked own
      looked insert (fun same => foreign (subscription ▸ same)) (fun other member gone => ?_) deleted)
    · rw [history]
      simp
    · exact (others other member).2 fun kept there => by rw [gone] at there; cases there

theorem update_finds_none (run : ServerRun host now state)
    (shape : state.view.history = before ++ event :: after) {data : UpdateLicenseInput}
    (asked : state.view.requests event.call = some (.updateLicense id data))
    (deleted : LinkDeleted event id link) {commit : ServerEvent} (listed : commit ∈ before)
    (own : commit.call = event.call) (committed : RowCommit commit id)
    (unlinked : commit.after.tables.link id = none) : Raced state.view := by
  have sound := server_run_sound run
  obtain ⟨early, between, rfl⟩ := List.append_of_mem listed
  have history : state.view.history = early ++ commit :: (between ++ event :: after) := by simp [shape]
  have broken : ¬event.before.tables.link id = none := by
    obtain ⟨-, -, -, -, -, present⟩ := deleted
    rw [present]
    exact Option.some_ne_none link
  obtain ⟨ahead, change, rest, rfl, held, lost, others⟩ := @allowed_breaks _ _ _ _ _ _ _ _ _ _
    (fun world : World => world.tables.link id = none) _ _
    (fun move world => by simp only [server, move_link]) (server_run_allowed run) rfl _ _ _ _ _ history
    unlinked broken
  obtain ⟨new, present⟩ := Option.ne_none_iff_exists'.mp lost
  have recorded := sound.recorded change (by rw [history]; simp)
  rcases event_link recorded.before.tables recorded.ran present with ⟨old, there, -⟩ |
    ⟨inserted, insert, -⟩
  · cases held.symm.trans there
  · refine .updating id data early ahead rest after commit change event inserted link ?_ asked own
      committed insert (fun other member => (others other member).2) deleted
    rw [history]
    simp

theorem committed_unlinks {view : ServerView} (run : ServerAllowedRun host (.start (World.start now)) view)
    {data : UpdateLicenseInput} {final : LicenseUpdate} {written : Option Written}
    (asked : view.requests call = some request) (edits : request.edits = some (id, data))
    (took : Took (view.trace call) (.commit id none writes) written)
    (member : .updateLicense final ∈ writes) (other : final.type ≠ some .subscription) :
    ∃ commit ∈ view.history, commit.call = call ∧ RowCommit commit id ∧
      commit.after.tables.link id = none := by
  obtain ⟨commit, listed, own, deed⟩ := trace_event took
  obtain ⟨before, after, shape⟩ := List.append_of_mem listed
  obtain ⟨earlier, request', happened⟩ := allowedRun_event run shape
  have same : request' = request := Option.some.inj (happened.still.symm.trans (own ▸ asked))
  subst same own
  obtain ⟨input, ran⟩ := deed_ran deed happened.ran
  have held : warrant host request' (earlier.trace commit.call) (.commit id none writes) := by
    have act : commit.act = .commit id none writes := congrArg Deed.act deed
    exact act ▸ happened.held
  have present : (earlier.world.tables.licenses id).isSome := by
    rcases commits_updateLicense held member with ⟨restores, -⟩ | ⟨data, current, row, update, link,
      inserted, statements, options, currentMeters, edits, -⟩
    · rw [restores] at edits
      cases edits
    · exact allowedRun_rowsKept happened.start _ _ (within_holding edits.unchanged.locked)
  cases written with
  | none =>
      rw [happened.world, exec_commit_missed ran] at present
      cases present
  | some written =>
      obtain ⟨there, -, next⟩ := exec_commit ran
      refine ⟨commit, listed, rfl, ⟨none, writes, written, deed_landed deed happened.ran, _, member, rfl⟩, ?_⟩
      rw [next]
      simpa [World.release, World.write, World.setLicense, Tables.link] using
        @edit_unlinks host request' earlier commit.call id writes input.draw.now happened.sound data
          written.before final edits held member other (happened.world ▸ there)

theorem edited_first (sound : Sound view) (rewrites : request.rewrites = some id) {current : License}
    {row : StoredLicense} (unchanged : Unchanged request (view.trace call) id current row)
    (present : (view.world.tables.licenses id).isSome) {earlier : ServerEvent}
    (member : earlier ∈ view.history) (own : earlier.call = call) : ¬RowCommit earlier id := by
  intro committed
  obtain ⟨data, present⟩ := Option.isSome_iff_exists.mp present
  obtain ⟨-, early, read, late, current, history, others, -, -, -, kept⟩ :=
    unchanged_spans sound rewrites unchanged present
  obtain ⟨old, new, before, after, later⟩ := rowCommit_stamps committed
  rw [history] at member
  rcases List.mem_append.mp member with first | rest
  · exact others earlier first own
  · obtain ⟨found, left⟩ := kept earlier rest
    cases before.symm.trans found
    cases after.symm.trans left
    exact absurd later (lt_irrefl _)

theorem looked_within {earlier : ServerView} {seen : StripeSubscriptionLink} {act : Act}
    {value : act.Val} (took : Took (earlier.trace call) act value)
    (look : (⟨act, .ok value⟩ : ServerDeed) = ⟨.query fun tables => tables.link id, .ok (some seen)⟩ ∨
      ∃ subscriptionId, (⟨act, .ok value⟩ : ServerDeed) = ⟨.lockLink id subscriptionId, .ok (some seen)⟩) :
    Looked earlier.history call id seen := by
  obtain ⟨event, listed, own, deed⟩ := trace_event took
  exact ⟨event, listed, own, deed ▸ look⟩

theorem edit_looked {earlier : ServerView} (sound : Sound earlier) {data : UpdateLicenseInput}
    {current : License} {row : StoredLicense} {update : LicenseUpdate}
    {read : Option StripeSubscriptionLink} {inserted statements : List Write}
    (edits : Edits request (earlier.trace call) id data current row update read inserted statements)
    (linked : earlier.world.tables.link id = some link) :
    ∃ seen, Looked earlier.history call id seen ∧ seen.subscriptionId = link.subscriptionId := by
  obtain ⟨stored, present, owned⟩ := Option.bind_eq_some_iff.mp linked
  obtain ⟨old, before, -, found, there, -, links⟩ := under_row sound edits.linked present
  obtain ⟨seen, had, relabelled⟩ := links link owned
  have same : read = some seen := by
    rw [found, Tables.link, there]
    exact had
  refine ⟨seen, looked_within (within_took (under_within edits.linked)) (.inl ?_), ?_⟩
  · rw [same]
  · rw [Relabels] at relabelled
    rw [relabelled]

/-- Unless a link was created in the way, whoever deletes a link has seen it. -/
theorem links_removed_seen (run : ServerRun host now state) (unraced : ¬Raced state.view) :
    ∀ before event after, state.view.history = before ++ event :: after → ∀ id link,
      LinkDeleted event id link → SeenLink state.view before event id link := by
  intro before event after shape id link deleted
  have ⟨expected, writes, written, landed, deletes, linked⟩ := deleted
  obtain ⟨earlier, request, happened⟩ := server_run_event run shape
  have held : warrant host request (earlier.trace event.call) (.commit id expected writes) :=
    landed.act ▸ happened.held
  rw [← happened.world] at linked
  obtain ⟨stored, present, owned⟩ := Option.bind_eq_some_iff.mp linked
  cases held with
  | edited id data current row update read inserted statements edits =>
      refine ⟨happened.history ▸ edit_looked happened.sound edits linked, ?_⟩
      intro other asked earlier' member own
      cases happened.still.symm.trans asked
      have kept := allowedRun_rowsKept happened.start _ _ (within_holding edits.unchanged.locked)
      exact edited_first happened.sound rfl edits.unchanged kept (happened.history ▸ member) own
  | dropped id data seen update others result asked confirmed other observed committed updated =>
      cases request with
      | updateLicense owner input =>
          obtain ⟨rfl, rfl⟩ : owner = id ∧ input = data := by simpa [Request.edits] using asked
          obtain ⟨commit, listed, own, wrote, unlinked⟩ :=
            committed_unlinks happened.start happened.asked asked committed updated other
          exact absurd (update_finds_none run shape happened.still deleted (happened.history ▸ listed) own
            wrote unlinked) unraced
      | renewSubscription owner expiresAt =>
          obtain ⟨rfl, rfl⟩ : owner = id ∧ { expiresAt := some (some expiresAt) } = data := by
            simpa [Request.edits] using asked
          cases confirmed
      | _ => cases asked
  | unlinked id seen asked observed =>
      subst asked
      obtain ⟨look, listed, own, looked⟩ := trace_event observed
      refine ⟨⟨seen, ⟨look, happened.history ▸ listed, own, .inl looked⟩, ?_⟩, ?_⟩
      · exact unlink_looked run shape happened.still deleted (happened.history ▸ listed) own looked unraced
      · intro other asked
        cases happened.still.symm.trans asked
  | disconnected subscriptionId existing locked id row fetched reconciling type =>
      obtain ⟨subscription, kept⟩ := locked_link happened.sound reconciling.locked
      have same : locked = link := Option.some.inj ((kept stored present).symm.trans owned)
      refine ⟨⟨locked, happened.history ▸ looked_within (within_took reconciling.locked)
        (.inr ⟨subscriptionId, rfl⟩), same ▸ rfl⟩, ?_⟩
      intro other asked
      have synchronizes := reconciling.asked
      cases happened.still.symm.trans asked
      cases synchronizes
  | _ => grind

end Removal

section Samples

def unlinks (event : ServerEvent) : Bool :=
  match event with
  | ⟨_, .commit id _ [.deleteLink], .ok (some _), before, _⟩ =>
      decide (id = sampleId) && (before.tables.link id).isSome
  | _ => false

theorem unlinks_deleted {event : ServerEvent} (deletes : unlinks event = true)
    (ran : ∃ input, exec event.call event.act input event.before = some (event.after, event.result)) :
    ∃ link, event.before.tables.link sampleId = some link ∧ LinkDeleted event sampleId link := by
  obtain ⟨call, act, result, before, after⟩ := event
  unfold unlinks at deletes
  split at deletes
  · next id expected written before' after' same =>
    cases same
    rw [Bool.and_eq_true, decide_eq_true_eq] at deletes
    obtain ⟨rfl, present⟩ := deletes
    obtain ⟨link, linked⟩ := Option.isSome_iff_exists.mp present
    exact ⟨link, linked, expected, _, _, deed_landed rfl ran, .head _, linked⟩
  · cases deletes

def insertsLink (event : ServerEvent) : Bool :=
  match event.act with
  | .commit _ _ writes => writes.any fun write => match write with
      | .insertLink _ _ => true
      | _ => false
  | _ => false

theorem linkInserted_inserts {event : ServerEvent} {id : LicenseId} {link : StripeSubscriptionLink}
    (inserted : LinkInserted event id link) : insertsLink event = true := by
  obtain ⟨expected, writes, written, fetched, landed, member⟩ := inserted
  simp only [insertsLink, landed.act]
  exact List.any_eq_true.mpr ⟨_, member, rfl⟩

def calmState (state : ServerState) : Bool :=
  state.view.history.all (fun event => decide (event.call ≤ 3)) &&
    state.view.history.all (fun event => !insertsLink event || decide (event.call < 3)) &&
    decide ((state.view.history.map Event.call).Pairwise (· ≤ ·)) &&
    (List.range 4).all (fun call => match state.view.requests call with
      | some (.updateLicense _ _) => false
      | some (.unlinkLicense _) => decide (call = 3)
      | _ => true) &&
    state.view.history.any unlinks

theorem calmState_unraced {state : ServerState} (calm : calmState state = true) : ¬Raced state.view := by
  simp only [calmState, Bool.and_eq_true, List.all_eq_true, decide_eq_true_eq, Bool.or_eq_true,
    Bool.not_eq_true'] at calm
  obtain ⟨⟨⟨⟨small, inserts⟩, ordered⟩, requests⟩, -⟩ := calm
  rintro (⟨id, early, between, rest, late, look, insert, delete, seen, new, link, history, asked, own, looked,
    inserted, -⟩ | ⟨id, data, early, between, rest, late, commit, insert, delete, new, link, history, asked, -⟩)
  · have member : delete ∈ state.view.history := by rw [history]; simp
    have last := requests delete.call (List.mem_range.mpr (Nat.lt_succ_of_le (small delete member)))
    rw [asked] at last
    have inserting := inserts insert (by rw [history]; simp)
    rw [linkInserted_inserts inserted] at inserting
    have first : look.call ≤ insert.call := by
      rw [history, List.map_append, List.map_cons] at ordered
      refine (List.pairwise_cons.mp (List.pairwise_append.mp ordered).2.1).1 _ ?_
      simp
    have third : delete.call = 3 := of_decide_eq_true last
    have earlier : insert.call < 3 := by simpa using inserting
    omega
  · have member : delete ∈ state.view.history := by rw [history]; simp
    have last := requests delete.call (List.mem_range.mpr (Nat.lt_succ_of_le (small delete member)))
    rw [asked] at last
    cases last

theorem links_removed_seen_sample : ∃ state before event after link, ServerRun sampleHost 0 state ∧
    state.view.history = before ++ event :: after ∧ LinkDeleted event sampleId link ∧
      SeenLink state.view before event sampleId link := by
  obtain ⟨state, run, calm⟩ := @sampled_run
    (linkedSample ++ sampleCall 3 (.unlinkLicense sampleId) 3 4) calmState (by decide +kernel)
  obtain ⟨event, listed, deletes⟩ := List.any_eq_true.mp (Bool.and_eq_true_iff.mp calm).2
  obtain ⟨before, after, shape⟩ := List.append_of_mem listed
  obtain ⟨link, -, deleted⟩ := unlinks_deleted deletes ((server_run_sound run).recorded event listed).ran
  exact ⟨state, before, event, after, link, run, shape, deleted,
    links_removed_seen run (calmState_unraced calm) before event after shape sampleId link deleted⟩

/-- One unlink looks, another one deletes, a second subscription is linked. -/
def racedSample : List (Choice Input Move Request) :=
  linkedSample ++ sampleCall 3 (.unlinkLicense sampleId) 3 2 ++
    sampleCall 4 (.unlinkLicense sampleId) 4 4 ++
    .environment (.subscription "other" (some ⟨"other", "cus", "active", some 500, false, [], true⟩)) ::
      sampleCall 5 (.linkLicense sampleId "other") 5 13 ++ [.act 3 (sampleInput 6 600)]

/-- A link that an unlink deletes although it never looked at its subscription. -/
theorem links_removed_unseen : ∃ state before event after link, ServerRun sampleHost 0 state ∧
    state.view.history = before ++ event :: after ∧ LinkDeleted event sampleId link ∧
      ¬SeenLink state.view before event sampleId link := by
  obtain ⟨state, run, holds⟩ := @sampled_run racedSample (fun state =>
    (state.view.history.getLast?.any fun event => unlinks event && decide (event.call = 3) &&
      (event.before.tables.link sampleId).any fun link => link.subscriptionId = "other") &&
    state.view.history.dropLast.all fun event => decide (event.call ≠ 3) ||
      (event.before.tables.link sampleId).all fun link => link.subscriptionId = "sub")
    (by decide +kernel)
  rw [Bool.and_eq_true] at holds
  obtain ⟨event, last, deletes⟩ := (Option.any_eq_true _ _).mp holds.1
  obtain ⟨⟨deletes, own⟩, other⟩ := by simpa only [Bool.and_eq_true] using deletes
  have shape : state.view.history = state.view.history.dropLast ++ event :: [] :=
    (List.dropLast_append_getLast? event last).symm
  have listed : event ∈ state.view.history := List.mem_of_mem_getLast? last
  obtain ⟨link, present, deleted⟩ := unlinks_deleted deletes ((server_run_sound run).recorded event listed).ran
  refine ⟨state, _, event, [], link, run, shape, deleted, fun seenLink => ?_⟩
  obtain ⟨seen, ⟨look, listed, mine, looked⟩, same⟩ := seenLink.looked
  have found : look.before.tables.link sampleId = some seen := by
    have recorded := (server_run_sound run).recorded look (List.dropLast_subset _ listed)
    rcases looked with read | ⟨subscriptionId, locked⟩
    · obtain ⟨input, ran⟩ := deed_ran read recorded.ran
      exact (exec_query ran).2.symm
    · obtain ⟨input, ran⟩ := deed_ran locked recorded.ran
      exact (exec_lockLink ran).2.1
  have first := List.all_eq_true.mp holds.2 look listed
  simp only [mine, of_decide_eq_true own, found, present, Option.any_some, Option.all_some, ne_eq, not_true,
    decide_false, Bool.false_or, decide_eq_true_eq] at first other
  rw [← same, first] at other
  exact absurd other (by decide)

end Samples

end Keyzori
