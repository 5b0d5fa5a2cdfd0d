import Keyzori.Server.Fencing

namespace Keyzori

open ExpiringStore Interleaving

variable {host : Host} {request : Request} {view : ServerView} {call : Nat} {id : LicenseId}
  {now : Instant} {state : ServerState} {data old : LicenseData} {writes : List Write}
  {early late : List ServerEvent} {fence event : ServerEvent} {token : String} {session : Session}

variable {revision : Nat}

theorem committed_after {written : Written} {expected : Option Instant} {input : Input}
    {before after : World}
    (ran : exec call (.commit id expected writes) input before = some (after, .ok (some written))) :
    after.tables.licenses id = some written.after := by
  obtain ⟨present, moved, rfl⟩ := exec_commit ran
  simp [World.release, World.write, World.setLicense, moved]

theorem cleans_revision (run : ServerAllowedRun host (.start (World.start now)) view)
    (cleans : Cleans request (view.trace call) id revision)
    (present : view.world.tables.licenses id = some data) : revision ≤ data.row.sessionRevision := by
  have sound := allowedRun_sound run (start_sound now)
  have grown : ∀ {world : World} {old : LicenseData}, Consistent world → Progress world view.world →
      world.tables.licenses id = some old → old.row.sessionRevision ≤ data.row.sessionRevision := by
    intro world old consistent progress there
    obtain ⟨middle, same, le⟩ := progress.rows id data (consistent.tables.known id (by simp [there])) present
    obtain rfl := Option.some.inj (there.symm.trans same)
    exact le.revision
  cases cleans with
  | rotated keyHash keyPrefix written asked committed own =>
      obtain ⟨before, after, recalled⟩ := took_recall sound committed
      obtain ⟨input, ran⟩ := recalled.ran
      exact own ▸ grown recalled.still recalled.progress (committed_after ran)
  | reloaded writes written license asked committed own =>
      obtain ⟨early, late, shape, read⟩ := committed
      have took : Took (view.trace call) (.findLicense id) (some license) :=
        shape ▸ List.mem_append_right _ (.tail _ read)
      obtain ⟨before, after, recalled⟩ := took_recall sound took
      obtain ⟨input, ran⟩ := recalled.ran
      obtain ⟨same, found⟩ := exec_findLicense ran
      obtain ⟨old, there, rfl⟩ := Option.map_eq_some_iff.mp found.symm
      exact own ▸ grown recalled.consistent (same ▸ recalled.progress) there
  | removed before after row writes result always asked shape incremented locked own =>
      obtain ⟨first, event, rest, earlier, request, history, -, deed, happened, sofar⟩ :=
        deed_happened run shape
      rw [← sofar] at locked
      obtain ⟨old, there⟩ := Option.isSome_iff_exists.mp
        (allowedRun_rowsKept happened.start _ _ (within_holding locked))
      have same := (locked_row happened.sound locked).2 old there
      obtain ⟨-, -, still, progress⟩ := sound.recorded event (by simp [history])
      obtain ⟨input, ran⟩ := deed_ran deed happened.ran
      rw [happened.world] at there
      cases result with
      | none => cases (exec_commit_missed ran).symm.trans there
      | some written =>
          obtain ⟨before, moved, -⟩ := exec_commit ran
          obtain rfl := Option.some.inj (there.symm.trans before)
          have expelled : written.before.row.sessionRevision < written.after.row.sessionRevision :=
            moved ▸ applyWrites_expels ⟨_, incremented, rfl⟩
          have later := grown still progress (committed_after ran)
          rw [own, ← same]
          omega

/-- What the calls that delete have read before they clean up after the deletion. -/
def Cleared (request : Request) (trace : ServerTrace) : Act → Prop
  | .removeAllSessions id none =>
      (request = .deleteLicense id → ∃ license,
        InOrder trace ⟨.findLicense id, .ok (some license)⟩ ⟨.deleteLicense id, .ok ()⟩) ∧
      ∀ customerId, request = .deleteCustomer customerId → ∃ ids, id ∈ ids ∧
        InOrder trace ⟨.query fun tables => tables.ids.filter (tables.ownedBy customerId), .ok ids⟩
          ⟨.deleteCustomer customerId, .ok ()⟩
  | _ => True

def Act.Clears (ids : List LicenseId) : Act → Prop
  | removeAllSessions id _ => id ∈ ids
  | _ => True

theorem quiet_clears {ids : List LicenseId} (act : Act) (quiet : act.quiet = true) : act.Clears ids := by
  cases act <;> trivial

theorem cleanup_clears {ids : List LicenseId} (member : id ∈ ids) (revision : Option Nat) :
    (AdminService.removeSessionsBestEffort id revision).Only (Act.Clears ids) :=
  Prog.only_tryCatch (Prog.only_bind (Prog.only_call member) fun _ => trivial) fun _ => trivial

theorem removeEach_clears {ids all : List LicenseId} (within : ids ⊆ all) :
    (AdminService.removeEachBestEffort ids).Only (Act.Clears all) := by
  induction ids with
  | nil => trivial
  | cons id ids ih =>
      exact Prog.only_bind (cleanup_clears (within (.head _)) none) fun _ =>
        ih fun _ member => within (.tail _ member)

theorem inOrder_later {trace : ServerTrace} {first second : ServerDeed} (deeds : ServerTrace)
    (earlier : first ∈ trace) : InOrder (trace ++ [second] ++ deeds) first second := by
  obtain ⟨before, after, rfl⟩ := List.append_of_mem earlier
  exact ⟨before, after ++ [second] ++ deeds, by simp, by simp⟩

theorem deleteLicense_cleared : (AdminService.deleteLicense id).wp (Cleared (.deleteLicense id)) []
    fun _ _ => True := by
  refine ⟨trivial, fun found => ?_⟩
  rcases found with error | none | license
  · trivial
  · trivial
  · refine ⟨trivial, fun deleted => ?_⟩
    cases deleted with
    | error error => trivial
    | ok _ =>
        have only : Prog.Only (Act.Clears [id]) (do
            let _ ← AdminService.removeSessionsBestEffort id none
            capture "license.deleted") :=
          Prog.only_bind (cleanup_clears (.head _) none) fun _ => Prog.only_mono (quiet_capture _) quiet_clears
        refine Prog.wp_beyond only fun deeds act clears => ?_
        cases act with
        | removeAllSessions owner revision =>
            obtain rfl := List.mem_singleton.mp clears
            cases revision with
            | none =>
                refine ⟨fun _ => ⟨license, inOrder_later deeds (.head _)⟩, ?_⟩
                rintro customerId ⟨⟩
            | some revision => trivial
        | _ => trivial

theorem deleteCustomer_cleared {customerId : String} :
    (AdminService.deleteCustomer customerId).wp (Cleared (.deleteCustomer customerId)) []
      fun _ _ => True := by
  refine Prog.wp_bind (fun _ _ => True) ?_ (fun _ trace _ => ?_) fun _ _ _ => trivial
  · exact Prog.wp_only (quiet_requireCustomer customerId) (fun trace act quiet => by
      cases act <;> trivial) fun _ _ _ => trivial
  · refine ⟨trivial, fun listed => ?_⟩
    cases listed with
    | error error => trivial
    | ok ids =>
        refine ⟨trivial, fun deleted => ?_⟩
        cases deleted with
        | error error => trivial
        | ok _ =>
            have only : Prog.Only (Act.Clears ids) (do
                AdminService.removeEachBestEffort ids
                capture "customer.deleted") :=
              Prog.only_bind (removeEach_clears (List.Subset.refl _)) fun _ =>
                Prog.only_mono (quiet_capture _) quiet_clears
            refine Prog.wp_beyond only fun deeds act clears => ?_
            cases act with
            | removeAllSessions owner revision =>
                cases revision with
                | none =>
                    refine ⟨fun other => (by cases other), ?_⟩
                    rintro _ ⟨⟩
                    exact ⟨ids, clears, inOrder_later deeds (by simp)⟩
                | some revision => trivial
            | _ => trivial

theorem program_cleared (request : Request) :
    (program host request).wp (Cleared request) [] fun _ _ => True := by
  cases request with
  | deleteLicense id => exact Prog.wp_bind _ deleteLicense_cleared (fun _ _ _ => trivial) fun _ _ _ => trivial
  | deleteCustomer id => exact Prog.wp_bind _ deleteCustomer_cleared (fun _ _ _ => trivial) fun _ _ _ => trivial
  | _ =>
      refine Prog.wp_only (Prog.only_any _) (fun trace act _ => ?_) fun _ _ _ => trivial
      cases act with
      | removeAllSessions id revision =>
          cases revision with
          | none => exact ⟨fun other => (by cases other), fun _ other => (by cases other)⟩
          | some revision => trivial
      | _ => trivial

theorem deleted_gone (sound : Sound view) {license : License}
    (ordered : InOrder (view.trace call) ⟨.findLicense id, .ok (some license)⟩ ⟨.deleteLicense id, .ok ()⟩) :
    view.world.tables.licenses id = none := by
  obtain ⟨first, look, between, deletion, last, history, -, looked, -, deed⟩ := ordered_events ordered
  obtain ⟨seen, consistent, -, -⟩ := sound.recorded look (by simp [history])
  obtain ⟨ran, -, -, progress⟩ := sound.recorded deletion (by simp [history])
  obtain ⟨input, read⟩ := deed_ran looked seen
  obtain ⟨old, there, -⟩ := Option.map_eq_some_iff.mp (exec_findLicense read).2.symm
  have known := effect_ids (exec_effect seen.choose_spec) (consistent.tables.known id (by simp [there]))
  have later : deletion ∈ between ++ deletion :: last := List.mem_append_right _ (.head _)
  have still := (ordered_progress sound history later).ids id known
  obtain ⟨input, gone⟩ := deed_ran deed ran
  rcases await_some gone with ⟨-, error, same⟩ | ⟨-, after, -⟩
  · cases same
  · cases present : view.world.tables.licenses id with
    | none => rfl
    | some data =>
        obtain ⟨middle, left, -⟩ :=
          progress.rows id data (effect_ids (exec_effect ran.choose_spec) still) present
        simp [after] at left

/-- The deletion of a customer found a license that its call had listed with another customer. -/
structure Moves (history : List ServerEvent) (call : Nat) (customerId : String) (id : LicenseId)
    (first : List ServerEvent) (listing : ServerEvent) (between : List ServerEvent) (deletion : ServerEvent)
    (last : List ServerEvent) : Prop where
  shape : history = first ++ listing :: (between ++ deletion :: last)
  lists : listing.call = call
  deletes : deletion.call = call
  listed : ∃ ids, listing.deed = ⟨.query fun tables => tables.ids.filter (tables.ownedBy customerId), .ok ids⟩ ∧
    id ∈ ids
  deleted : deletion.deed = ⟨.deleteCustomer customerId, .ok ()⟩
  owned : listing.before.tables.ownedBy customerId id = true
  moved : deletion.before.tables.ownedBy customerId id = false
  kept : deletion.before.tables.licenses id ≠ none

theorem cascade_spared (sound : Sound view) {customerId : String} {ids : List LicenseId} (member : id ∈ ids)
    (ordered : InOrder (view.trace call)
      ⟨.query fun tables => tables.ids.filter (tables.ownedBy customerId), .ok ids⟩
      ⟨.deleteCustomer customerId, .ok ()⟩)
    (present : view.world.tables.licenses id = some data) :
    ∃ first listing between deletion last,
      Moves view.history call customerId id first listing between deletion last := by
  obtain ⟨first, listing, between, deletion, last, history, own, listed, mine, deed⟩ := ordered_events ordered
  obtain ⟨seen, consistent, -, -⟩ := sound.recorded listing (by simp [history])
  obtain ⟨ran, -, -, progress⟩ := sound.recorded deletion (by simp [history])
  obtain ⟨input, read⟩ := deed_ran listed seen
  obtain ⟨same, value⟩ := exec_query read
  have found := member
  rw [value] at found
  obtain ⟨known, owned⟩ := List.mem_filter.mp found
  have later : deletion ∈ between ++ deletion :: last := List.mem_append_right _ (.head _)
  have still := (ordered_progress sound history later).ids id (same ▸ known)
  obtain ⟨input, gone⟩ := deed_ran deed ran
  rcases await_some gone with ⟨-, error, failed⟩ | ⟨-, after, -⟩
  · cases failed
  · obtain ⟨middle, left, -⟩ :=
      progress.rows id data (effect_ids (exec_effect ran.choose_spec) still) present
    simp only [after] at left
    split at left
    · cases left
    · next foreign =>
      exact ⟨first, listing, between, deletion, last, history, own, mine, ⟨ids, listed, member⟩, deed, owned,
        by simpa using foreign, by simp [left]⟩

theorem removeAll_ended {preserve : Option Nat}
    (ran : ∃ input, exec event.call event.act input event.before = some (event.after, event.result))
    (consistent : Consistent event.before) (act : event.act = .removeAllSessions id preserve)
    (carried : Carries event.before.sessions token session)
    (ended : ¬Carries event.after.sessions token session) : session.Ends id preserve := by
  obtain ⟨input, ran⟩ := ran
  obtain ⟨caller, taken, result, old, new⟩ := event
  change taken = .removeAllSessions id preserve at act
  subst act
  change exec caller (.removeAllSessions id preserve) input old = some (new, result) at ran
  rcases attempt_next ran with rfl | rfl
  · exact absurd carried ended
  · have listed := fun kept => ended ((removeAllSessions_carries preserve token session).mpr ⟨carried, kept⟩)
    obtain ⟨member, below⟩ := not_not.mp listed
    exact ⟨listed_home consistent.sessions.kept carried member, below⟩

theorem cleanup_spared (run : ServerRun host now state)
    (history : state.view.history = early ++ event :: late) {preserve : Option Nat}
    (act : event.act = .removeAllSessions id preserve) (carried : Carries event.before.sessions token session)
    (present : event.before.tables.licenses session.licenseId = some data)
    (current : data.row.sessionRevision ≤ session.revision) :
    Carries event.after.sessions token session ∨
      (preserve = none ∧ id = session.licenseId ∧ ∃ customerId,
        state.view.requests event.call = some (.deleteCustomer customerId) ∧
        ∃ first listing between deletion last,
          Moves early event.call customerId id first listing between deletion last) := by
  obtain ⟨earlier, request, happened⟩ := server_run_event run history
  obtain ⟨ran, consistent, -, -⟩ := (server_run_sound run).recorded event (by simp [history])
  by_cases spared : Carries event.after.sessions token session
  · exact .inl spared
  obtain ⟨rfl, below⟩ := removeAll_ended ran consistent act carried spared
  rw [← happened.world] at present
  have held := happened.held
  rw [act] at held
  cases preserve with
  | some revision =>
      have most := cleans_revision happened.start held present
      have less := below revision rfl
      omega
  | none =>
      obtain ⟨other, asked, cleared⟩ := run_event (@program_cleared host) run history
      rw [act, ← happened.history] at cleared
      obtain ⟨licenses, customers⟩ := cleared
      refine .inr ⟨rfl, rfl, ?_⟩
      have same := Option.some.inj (happened.still.symm.trans asked)
      cases held with
      | license deleted deletes =>
          obtain ⟨license, ordered⟩ := licenses (same ▸ deletes)
          cases (deleted_gone happened.sound ordered).symm.trans present
      | missing license always removes found =>
          cases (missing_gone happened.sound found).symm.trans present
      | customer customerId ids deletes listed member deleted =>
          obtain ⟨those, owned, ordered⟩ := customers customerId (same ▸ deletes)
          refine ⟨customerId, happened.still.trans (congrArg some deletes), ?_⟩
          rw [← happened.history]
          exact cascade_spared happened.sound owned ordered present

/-- A cleanup spares every session with the revision that its license has by then, but
for a license that moved to another customer while its own was being deleted. -/
theorem cleanups_spare (run : ServerRun host now state)
    (history : state.view.history = early ++ event :: late) {preserve : Option Nat}
    (act : event.act = .removeAllSessions id preserve) (carried : Carries event.before.sessions token session)
    (present : event.before.tables.licenses session.licenseId = some data)
    (current : data.row.sessionRevision ≤ session.revision) :
    Carries event.after.sessions token session ∨
      (preserve = none ∧ id = session.licenseId ∧ ∃ customerId,
        state.view.requests event.call = some (.deleteCustomer customerId) ∧
        ∃ first listing between deletion last, early = first ++ listing :: (between ++ deletion :: last) ∧
          listing.call = event.call ∧ deletion.call = event.call ∧
          deletion.deed = ⟨.deleteCustomer customerId, .ok ()⟩ ∧
          listing.before.tables.ownedBy customerId id = true ∧
          deletion.before.tables.ownedBy customerId id = false ∧
          deletion.before.tables.licenses id ≠ none) := by
  rcases cleanup_spared run history act carried present current with
    spared | ⟨rfl, rfl, customerId, asked, first, listing, between, deletion, last, moves⟩
  · exact .inl spared
  · exact .inr ⟨rfl, rfl, customerId, asked, first, listing, between, deletion, last, moves.shape, moves.lists,
      moves.deletes, moves.deleted, moves.owned, moves.moved, moves.kept⟩

/-- A rotation between two activations, whose cleanup comes last. -/
def rotatedSample : List (Choice Input Move Request) :=
  subscriptionSample ++ sampleCall 2 (.activate "key 102" "laptop" "10.0.0.1") 2 22 ++
    sampleCall 3 (.rotateLicenseKey sampleId) 3 5 ++ sampleCall 4 (.activate "key 301" "laptop" "10.0.0.1") 4 17 ++
      [.act 3 (sampleInput 5 500)]

def spared (event : ServerEvent) : Bool :=
  match event with
  | ⟨_, .removeAllSessions _ (some _), _, before, _⟩ => before.tokens.any fun (token, session) =>
      before.sessions.get token = some session.value &&
        (before.tables.licenses session.licenseId).any fun data => data.row.sessionRevision ≤ session.revision
  | _ => false

theorem spared_carries {event : ServerEvent} (holds : spared event = true) :
    ∃ id revision token session data, event.act = .removeAllSessions id (some revision) ∧
      Carries event.before.sessions token session ∧
      event.before.tables.licenses session.licenseId = some data ∧
      data.row.sessionRevision ≤ session.revision := by
  unfold spared at holds
  split at holds
  · next caller id revision result before after =>
    obtain ⟨⟨token, session⟩, -, holds⟩ := List.any_eq_true.mp holds
    obtain ⟨carried, holds⟩ := (Bool.and_eq_true _ _).mp holds
    obtain ⟨data, present, current⟩ := (Option.any_eq_true _ _).mp holds
    exact ⟨id, revision, token, session, data, rfl, (of_decide_eq_true carried : _ = _), present,
      of_decide_eq_true current⟩
  · cases holds

theorem rotated_cleanup : ∃ state early cleanup late id revision token session data,
    ServerRun sampleHost 0 state ∧ state.view.history = early ++ cleanup :: late ∧
      cleanup.act = .removeAllSessions id (some revision) ∧ Carries cleanup.before.sessions token session ∧
      cleanup.before.tables.licenses session.licenseId = some data ∧
      data.row.sessionRevision ≤ session.revision := by
  obtain ⟨state, run, holds⟩ := @sampled_run rotatedSample
    (fun state => state.view.history.any spared) (by decide +kernel)
  obtain ⟨cleanup, member, holds⟩ := List.any_eq_true.mp holds
  obtain ⟨id, revision, token, session, data, act, carried, present, current⟩ := spared_carries holds
  obtain ⟨early, late, history⟩ := List.append_of_mem member
  exact ⟨state, early, cleanup, late, id, revision, token, session, data, run, history, act, carried, present,
    current⟩

theorem cleanups_spare_sample : ∃ state, ServerRun sampleHost 0 state ∧
    ∃ event ∈ state.view.history, ∃ id revision token session,
      event.act = .removeAllSessions id (some revision) ∧ Carries event.after.sessions token session := by
  obtain ⟨state, early, cleanup, late, id, revision, token, session, data, run, history, act, carried, present,
    current⟩ := rotated_cleanup
  refine ⟨state, run, cleanup, by rw [history]; simp, id, revision, token, session, act, ?_⟩
  refine (cleanups_spare run history act carried present current).resolve_right ?_
  rintro ⟨none, -⟩
  cases none

end Keyzori
