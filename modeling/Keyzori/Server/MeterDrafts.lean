import Keyzori.Server.Drafts

/-! The metered draft against the active meters. A call that creates or archives a
meter lists the names after its transaction and writes them in another one, so the
draft is right as long as no other call changes the meters between the two. -/

namespace Keyzori

open Interleaving MeterRegion

variable {host : Host} {request : Request} {view : ServerView} {call : Nat} {id : LicenseId}
  {data : LicenseData} {stamp now : Instant} {writes : List Write}

section Edits

variable {input : UpdateLicenseInput} {current : License} {row : StoredLicense} {update : LicenseUpdate}
  {link : Option StripeSubscriptionLink} {inserted statements : List Write}

theorem activeNames_nodup (formed : MetersFormed data) : (activeNames (some data.meters)).Nodup := by
  have sublist : (activeNames (some data.meters)).Sublist (data.meters.meters.map LicenseMeter.name) :=
    List.filter_sublist.map LicenseMeter.name
  exact formed.names.sublist sublist

theorem inserts_names (sound : Sound view) {newMeters : List NewLicenseMeter}
    (edits : Edits request (view.trace call) id input current row update link inserted statements)
    (inserts : Inserts (view.trace call) id newMeters inserted)
    (present : view.world.tables.licenses id = some data) (other : String) :
    other ∈ activeNames (some (applyWrites stamp (inserted ++ statements) data).meters) ↔
      other ∈ activeNames (some data.meters) ∨ other ∈ newMeters.map NewLicenseMeter.name := by
  rw [(edits_meters edits).1]
  cases inserts with
  | nothing empty => simp [empty]
  | missing region now read ran =>
      obtain ⟨old, before, past, same, there, -⟩ := under_row sound read present
      have missing := (insertNewMeters_continues ran).present
      rw [same, Tables.meters, there] at missing
      cases missing
  | inserted region table now read ran =>
      obtain rfl := region_read sound read (insertNewMeters_continues ran).present.symm present
      exact insertNewMeters_names ran other

/-- Whether a transaction left the metered draft and the active meters alone, or wrote
the draft that goes with them. -/
def Agrees (old new : LicenseData) : Prop :=
  (new.row.typeDrafts.metered = old.row.typeDrafts.metered ∧
      sortedNames (some new.meters) = sortedNames (some old.meters)) ∨
    new.row.typeDrafts.metered = some (sortedNames (some new.meters))

theorem edits_agrees (sound : Sound view) (formed : MetersFormed data)
    (edits : Edits request (view.trace call) id input current row update link inserted statements)
    (present : view.world.tables.licenses id = some data)
    (steady : ∀ meters, InOrder (view.trace call) ⟨.findLicense id, .ok (some current)⟩
      ⟨.query (activeListed id), .ok meters⟩ →
        meters.map LicenseMeter.name = sortedNames (some data.meters)) :
    Agrees data (applyWrites stamp (inserted ++ statements) data) := by
  obtain ⟨meters, newMeters, config, drawn, redrawn⟩ := @edits_redrawn request id data stamp row current
    input update link inserted statements (view.trace call) edits
  have listed := steady meters redrawn.listed
  have names := @inserts_names request view call id data stamp input current row update link inserted
    statements sound _ edits redrawn.inserts present
  have nodup := activeNames_nodup formed
  have laterNodup := activeNames_nodup (@edits_metersFormed request view call id data stamp input current
    row update link inserted statements sound formed edits present).1
  obtain ⟨same, columns⟩ := unchanged_row sound edits.unchanged data present
  have draft := redrawn_metered redrawn
  generalize applyWrites stamp (inserted ++ statements) data = later at *
  split at draft
  · refine .inr (draft.trans (congrArg some (sortNames_perm ?_)))
    rw [List.perm_ext_iff_of_nodup (List.nodup_dedup _) laterNodup]
    intro name
    rw [names, List.mem_dedup, List.mem_append, listed, sortedNames, sortNames_mem]
    refine or_congr_right' fun fresh => ⟨fun new => ?_, fun new => ?_⟩
    · obtain ⟨meter, member, rfl⟩ := List.mem_map.mp new
      refine List.mem_map_of_mem (List.mem_filter.mpr ⟨member, ?_⟩)
      have absent : meter.name ∉ meters.map LicenseMeter.name := by
        rw [listed, sortedNames, sortNames_mem]
        exact fresh
      rw [Bool.not_eq_true', List.any_eq_false]
      intro existing found same
      exact absent (List.mem_map.mpr ⟨existing, found, of_decide_eq_true same⟩)
    · obtain ⟨meter, member, rfl⟩ := List.mem_map.mp new
      exact List.mem_map_of_mem (List.mem_filter.mp member).1
  · next target =>
    have unmetered := redrawn.unmetered target
    subst unmetered
    have kept : sortedNames (some later.meters) = sortedNames (some data.meters) := by
      refine sortNames_perm ((List.perm_ext_iff_of_nodup laterNodup nodup).mpr fun name => ?_)
      simp [names]
    split at draft
    · rw [listed] at draft
      exact .inr (draft.trans (congrArg some ((sortNames_sorted _).trans kept.symm)))
    · refine .inl ⟨draft.trans ?_, kept⟩
      rw [same]
      exact congrArg (fun columns => columns.typeDrafts.metered) columns

end Edits

section Runs

/-- A call that creates or archives a meter has sent the commit of the meters and not yet heard
of one of a draft. -/
structure Owes (trace : ServerTrace) (id : LicenseId) : Prop where
  changed : ∃ deed ∈ trace, ∃ expected table, deed.act = .commit id expected [.meters table]
  undrafted : ¬Redrafted id trace

def Pending (view : ServerView) (id : LicenseId) : Prop :=
  ∃ call request, view.requests call = some request ∧ request.meters = some id ∧
    Owes (view.trace call) id

theorem pending_record {act : Act} {result : Except Failure act.Val} {next : World} (pending : Pending view id)
    (other : ∀ meterNames written,
      (⟨act, result⟩ : ServerDeed) ≠ ⟨.commit id none [.meterDraft meterNames], .ok written⟩) :
    Pending (view.record call act result next) id := by
  obtain ⟨owner, request, asked, meters, ⟨deed, sent, changed⟩, undrafted⟩ := pending
  refine ⟨owner, request, asked, meters, ?_⟩
  by_cases same : call = owner
  · subst same
    rw [record_trace_self]
    refine ⟨⟨deed, List.mem_append_left _ sent, changed⟩, ?_⟩
    rintro ⟨meterNames, written, redrafted⟩
    rcases took_append.mp redrafted with old | new
    · exact undrafted ⟨meterNames, written, old⟩
    · exact other meterNames written new
  · rw [record_trace_other same]
    exact ⟨⟨deed, sent, changed⟩, undrafted⟩

theorem redraft_moves {meterNames : List String} {written : Option Written} {input : Input}
    {world next : World} {new : LicenseData}
    (ran : exec call (.commit id none [.meterDraft meterNames]) input world = some (next, .ok written))
    (present : world.tables.licenses id = some data) (later : next.tables.licenses id = some new) :
    data.row.updatedAt < new.row.updatedAt := by
  cases written with
  | none => cases present.symm.trans (exec_commit_missed ran)
  | some written =>
      obtain ⟨there, -, rfl⟩ := exec_commit ran
      cases present.symm.trans there
      have same : new = applyWrites input.draw.now [.meterDraft meterNames] written.before := by
        simpa [World.release, World.write, World.setLicense] using later.symm
      exact same ▸ applyWrites_stamp ⟨_, .head _, rfl⟩

theorem renamed_pending {earlier : ServerView} {before after : List ServerEvent} {change : ServerEvent}
    {row : StoredLicense} (sound : Sound view)
    (renamed : Renamed host now view id row before change after earlier request) : Pending view id := by
  obtain ⟨happened, history, asked, ⟨expected, table, act⟩, first, changed, rows⟩ := renamed
  have ran := fun event member => (sound.recorded event member).ran
  obtain ⟨call, act', result, world, next⟩ := change
  dsimp only at act changed asked first
  subst act
  obtain ⟨input, done⟩ := happened.ran
  refine ⟨call, request, happened.still, asked, ⟨⟨_, result⟩, ?_, expected, table, rfl⟩, ?_⟩
  · refine List.mem_map.mpr ⟨_, List.mem_filter.mpr ⟨history ▸ List.mem_append_right _ (.head _), ?_⟩, rfl⟩
    simp
  · rintro ⟨meterNames, redraft, took⟩
    obtain ⟨event, listed, own, deed⟩ := trace_event took
    obtain ⟨input, drew⟩ := deed_ran deed (ran event listed)
    rw [history] at listed
    rcases List.mem_append.mp listed with old | rest
    · have member : event ∈ earlier.events call :=
        List.mem_filter.mpr ⟨happened.history ▸ old, by simpa using own⟩
      have unended := first event.deed (List.mem_map_of_mem member)
      rw [deed] at unended
      cases unended
    · rcases List.mem_cons.mp rest with rfl | late
      · cases deed
      · obtain ⟨found, left⟩ := rows event late
        obtain ⟨old, there, rfl⟩ := Option.map_eq_some_iff.mp found
        obtain ⟨new, later, same⟩ := Option.map_eq_some_iff.mp left
        exact absurd (same ▸ redraft_moves drew there later) (lt_irrefl _)

/-- While an update runs, the active meters that it listed stay as they are, unless a
call that changed them still owes its draft. -/
theorem listed_steady (run : ServerAllowedRun host (.start (World.start now)) view)
    {current : License} {row : StoredLicense} {meters : List LicenseMeter} {act : Act}
    {result : Except Failure act.Val} {next : World}
    (step : ServerAllowed host view (view.record call act result next))
    (unchanged : Unchanged request (view.trace call) id current row)
    (present : view.world.tables.licenses id = some data)
    (listed : InOrder (view.trace call) ⟨.findLicense id, .ok (some current)⟩
      ⟨.query (activeListed id), .ok meters⟩) :
    meters.map LicenseMeter.name = sortedNames (some data.meters) ∨ Pending view id := by
  refine (listed_renamed run (run.tail step) rfl rfl unchanged present listed).imp_right ?_
  rintro ⟨early, list, ahead, change, after, earlier, request', own, deed, renamed⟩
  exact renamed_pending (allowedRun_sound run (start_sound now)) renamed

/-- A call wrote a metered draft when the active meters were no longer those it had listed. -/
def Overtaken (history : List ServerEvent) (id : LicenseId) : Prop :=
  ∃ early list between write late meters written expected,
    history = early ++ list :: (between ++ write :: late) ∧ list.call = write.call ∧
    list.deed = ⟨.query (activeListed id), .ok meters⟩ ∧
    Landed write id expected [.meterDraft (sortNames (meters.map LicenseMeter.name))] written ∧
    sortedNames (write.before.tables.meters id) ≠ sortedNames (list.before.tables.meters id)

theorem overtaken_append {history : List ServerEvent} (later : List ServerEvent)
    (overtaken : Overtaken history id) : Overtaken (history ++ later) id := by
  obtain ⟨early, list, between, write, late, meters, written, expected, rfl, own, listed, wrote, differs⟩ :=
    overtaken
  exact ⟨early, list, between, write, late ++ later, meters, written, expected, by simp, own, listed, wrote,
    differs⟩

/-- The draft lists the active meters, or a call still owes one that will. -/
def Drafted (view : ServerView) (id : LicenseId) (data : LicenseData) : Prop :=
  (data.row.typeDrafts.metered = none ∨
    data.row.typeDrafts.metered = some (sortedNames (some data.meters))) ∨ Pending view id

theorem created_drafted {trace : ServerTrace} {new : NewLicense} {table : MeterTable}
    (creates : Creates request trace id new table) :
    new.typeDrafts.metered = none ∨ new.typeDrafts.metered = some (sortedNames (some table)) := by
  obtain ⟨input, limits, config, meters, draw, -, -, made, rfl⟩ := creates.computed
  obtain ⟨draw', written, ran, rfl⟩ := creates.meters
  obtain ⟨stored, -, -⟩ := createLicenseMeters_active ran
  obtain ⟨table, same⟩ := Option.isSome_iff_exists.mp stored
  have names := createLicenseMeters_names ran
  rw [same] at names ⊢
  have draft := createTypeConfig_drafts made
  split at draft
  · refine .inr (draft.trans ?_)
    rw [Option.getD_some, sortedNames, names]
    rfl
  · exact .inl draft

theorem redraft_lists (sound : Sound view) {meters : List LicenseMeter} {expected : Option Instant}
    {result : Except Failure (Option Written)} {written : Written} {next : World}
    (listed : Took (view.trace call) (.query (activeListed id)) meters)
    (present : view.world.tables.licenses id = some data)
    (landed : Landed ⟨call, .commit id expected [.meterDraft (sortNames (meters.map LicenseMeter.name))], result,
      view.world, next⟩ id expected [.meterDraft (sortNames (meters.map LicenseMeter.name))] written)
    (unraced : ¬Overtaken (view.record call
      (.commit id expected [.meterDraft (sortNames (meters.map LicenseMeter.name))]) result next).history id) :
    sortNames (meters.map LicenseMeter.name) = sortedNames (some data.meters) := by
  obtain ⟨list, member, own, deed⟩ := trace_event listed
  obtain ⟨early, between, history⟩ := List.append_of_mem member
  obtain ⟨input, read⟩ := deed_ran deed (sound.recorded list member).ran
  have names : meters.map LicenseMeter.name = sortedNames (list.before.tables.meters id) := by
    rw [(exec_query read).2, activeListed_names]
  by_contra differs
  refine unraced ⟨early, list, between, ⟨call, _, _, view.world, next⟩, [], meters, written, expected,
    by simp [View.record, history], own, deed, landed, fun unchanged => differs ?_⟩
  rw [names, ← unchanged, Tables.meters, present]
  exact sortNames_sorted _

theorem act_drafted (run : ServerAllowedRun host (.start (World.start now)) view) (sound : Sound view)
    (formed : Throughout MetersFormed view)
    (drafted : ∀ data, view.world.tables.licenses id = some data → Drafted view id data)
    {act : Act} {input : Input} {result : Except Failure act.Val} {next : World}
    (asked : view.requests call = some request) (held : warrant host request (view.trace call) act)
    (ran : exec call act input view.world = some (next, result))
    (unraced : ¬Overtaken (view.record call act result next).history id)
    (present : next.tables.licenses id = some data) :
    Drafted (view.record call act result next) id data := by
  have step : ServerAllowed host view (view.record call act result next) :=
    .act view call request act input next result asked held ran
  cases effect_origin (exec_effect ran) present with
  | same _ there =>
      refine (drafted data there).imp_right fun pending => pending_record pending ?_
      rintro meterNames written same
      cases same
      exact absurd (redraft_moves ran there present) (lt_irrefl _)
  | committed expected writes old stamp there admitted lawful written exact =>
      subst written
      have pending : (∀ meterNames, writes ≠ [.meterDraft meterNames]) → Pending view id →
          Pending (view.record call (.commit id expected writes) result next) id := by
        refine fun other pending => pending_record pending fun meterNames written same => ?_
        cases congrArg Deed.act same
        exact other meterNames rfl
      cases commits_drafting sound held there with
      | kept writes other drafts type names =>
          refine (drafted old there).imp (fun lists => ?_) (pending other)
          rw [drafts, sortedNames, names]
          exact lists
      | changed table meters first row =>
          by_cases same : next.tables.licenses id = view.world.tables.licenses id
          · rw [present, there] at same
            rw [Option.some.inj same]
            exact (drafted old there).imp_right (pending (by simp))
          · refine .inr ⟨call, request, asked, meters, ?_⟩
            rw [record_trace_self]
            refine ⟨⟨_, List.mem_append_right _ (.head _), expected, table, rfl⟩, ?_⟩
            rintro ⟨meterNames, redraft, took⟩
            rcases took_append.mp took with old | new
            · cases first _ old
            · cases congrArg Deed.act new
      | drafted meters asked listed drafts type same =>
          have moved : next.tables.licenses id ≠ view.world.tables.licenses id := by
            rw [present, there]
            intro same
            have later := @applyWrites_stamp old [.meterDraft (sortNames (meters.map LicenseMeter.name))] stamp
              ⟨_, .head _, rfl⟩
            rw [Option.some.inj same] at later
            exact lt_irrefl _ later
          obtain ⟨written, landed⟩ := @changing_commit id _
            ⟨call, .commit id expected [.meterDraft (sortNames (meters.map LicenseMeter.name))], result,
              view.world, next⟩ expected rfl ⟨input, ran⟩ moved
          refine .inl (.inr ((congrArg LicenseTypeDrafts.metered drafts).trans ?_))
          rw [same, redraft_lists sound listed there landed unraced]
      | edited input current row update link inserted statements edits =>
          have others : ∀ meterNames, inserted ++ statements ≠ [.meterDraft meterNames] := by
            intro meterNames same
            obtain ⟨-, final, shape⟩ := edits_shape edits
            have member : .updateLicense final ∈ inserted ++ statements := by
              rcases shape with rfl | rfl <;> simp
            rw [same] at member
            cases List.mem_singleton.mp member
          by_cases owed : Pending view id
          · exact .inr (pending others owed)
          · have agrees := @edits_agrees request view call id old stamp input current row update link inserted
              statements sound (formed _ (.inl rfl) id old there) edits there fun meters listed =>
                (listed_steady run step edits.unchanged there listed).resolve_right owed
            refine .inl ?_
            rcases agrees with ⟨kept, same⟩ | lists
            · rw [kept, same]
              exact (drafted old there).resolve_right owed
            · exact .inr lists
  | inserted keyHash keyPrefix new meters stamp fresh unused written exact =>
      rw [written]
      exact .inl (created_drafted held)
  | linkError subscriptionId error link old stamp found owner there free written =>
      rw [written]
      exact (drafted old there).imp_right fun pending => pending_record pending fun _ _ same => by
        cases congrArg Deed.act same

theorem allowedRun_drafted (run : ServerAllowedRun host (.start (World.start now)) view)
    (unraced : ¬Overtaken view.history id) :
    ∀ data, view.world.tables.licenses id = some data → Drafted view id data := by
  induction run with
  | refl =>
      intro data present
      cases present
  | @tail middle last run step ih =>
      have formed := allowedRun_throughout (lasting_meters host) run
      have sound := allowedRun_sound run (start_sound now)
      cases step with
      | start call request unused idle =>
          intro data present
          refine (ih unraced data present).imp_right ?_
          rintro ⟨owner, request', asked, meters, owes⟩
          have other : owner ≠ call := by
            rintro rfl
            cases unused.symm.trans asked
          exact ⟨owner, request', (ask_requests_other other).trans asked, meters, owes⟩
      | environment event =>
          intro data present
          cases event <;> exact ih unraced data present
      | act call request act input next result asked held ran =>
          intro data present
          exact act_drafted run sound formed (ih fun raced => unraced (overtaken_append _ raced)) asked held ran
            unraced present

theorem moving_drafted (host : Host) : Moving host MetersFormed fun old new =>
    old.row.typeDrafts.metered.isSome → new.row.typeDrafts.metered.isSome where
  refl _ some := some
  trans one other some := other (one some)
  relabelled _ _ _ some := some
  committed := by
    intro view request call id writes data stamp sound formed commits present some
    cases commits_drafting sound commits present with
    | kept writes other drafts type names => exact drafts ▸ some
    | changed table meters first row => exact row ▸ some
    | drafted meters asked listed drafts type same => rw [drafts, Option.isSome_some]
    | edited input current row update link inserted statements edits =>
        obtain ⟨meters, newMeters, config, drawn, redrawn⟩ := @edits_redrawn request id data stamp row current
          input update link inserted statements (view.trace call) edits
        obtain ⟨same, columns⟩ := unchanged_row sound edits.unchanged data present
        rw [redrawn_metered redrawn]
        split
        · rfl
        · split
          · rfl
          · rw [columns, ← same]
            exact some

end Runs

variable {state : ServerState}

/-- When no call writes names that other calls have made out of date, and every call for
the meters of a license has ended well, then its metered draft, once written, lists its
active meters. -/
theorem metered_draft (run : ServerRun host now state) (unraced : ¬Overtaken state.view.history id)
    (completed : ∀ call request, state.view.requests call = some request → request.meters = some id →
      ∃ response, state.pool call = some (.done (.ok response)))
    (wrote : ∃ event ∈ state.view.history, ∃ written, event.after.tables.licenses id = some written ∧
      written.row.typeDrafts.metered ≠ none)
    (present : state.view.world.tables.licenses id = some data) :
    data.row.typeDrafts.metered = some (sortedNames (some data.meters)) := by
  have lists := allowedRun_drafted (server_run_allowed run) unraced data present
  rcases lists with (absent | lists) | ⟨call, request, asked, meters, owes⟩
  · obtain ⟨event, member, written, there, some⟩ := wrote
    have later := event_moving_after (lasting_meters host) (moving_drafted host) run member there present
      (Option.isSome_iff_ne_none.mpr some)
    rw [absent] at later
    cases later
  · exact lists
  · obtain ⟨response, ended⟩ := completed call request asked meters
    obtain ⟨request', same, reached⟩ := server_run_outcome run ended
    cases asked.symm.trans same
    refine absurd ?_ owes.undrafted
    cases request <;> cases meters <;> exact reached response rfl

section Samples

theorem overtaken_writes (sound : Sound view) (overtaken : Overtaken view.history id) :
    ∃ write ∈ view.history, ∃ expected meterNames,
      write.act = .commit id expected [.meterDraft meterNames] ∧
        meterNames ≠ sortedNames (write.before.tables.meters id) := by
  obtain ⟨early, list, between, write, late, meters, written, expected, history, -, listed, wrote, differs⟩ :=
    overtaken
  obtain ⟨input, read⟩ := deed_ran listed (sound.recorded list (by simp [history])).ran
  refine ⟨write, by simp [history], expected, _, wrote.act, ?_⟩
  rw [(exec_query read).2, activeListed_names, sortedNames, sortNames_sorted]
  exact Ne.symm differs

def rightDrafts (history : List ServerEvent) : Bool :=
  history.all fun event => match event.act with
    | .commit id _ [.meterDraft meterNames] =>
        decide (id = sampleId → meterNames = sortedNames (event.before.tables.meters id))
    | _ => true

theorem rightDrafts_untaken (sound : Sound view) (right : rightDrafts view.history = true) :
    ¬Overtaken view.history sampleId := by
  intro overtaken
  obtain ⟨write, member, expected, meterNames, act, differs⟩ := overtaken_writes sound overtaken
  have same := List.all_eq_true.mp right write member
  rw [act] at same
  exact differs (of_decide_eq_true same rfl)

def endedWell (state : ServerState) (call : Nat) : Bool :=
  match state.pool call with
  | some (.done (.ok _)) => true
  | _ => false

theorem endedWell_done {state : ServerState} (ended : endedWell state call = true) :
    ∃ response, state.pool call = some (.done (.ok response)) := by
  unfold endedWell at ended
  split at ended
  · next response same => exact ⟨response, same⟩
  · cases ended

theorem metered_draft_sample : ∃ state data, ServerRun sampleHost 0 state ∧
    state.view.world.tables.licenses sampleId = some data ∧
      sortedNames (some data.meters) = ["calls"] ∧
      data.row.typeDrafts.metered = some (sortedNames (some data.meters)) := by
  obtain ⟨state, run, holds, started⟩ := @sampled_calls meteredSample
    (fun state => rightDrafts state.view.history && [0, 1, 2].all (endedWell state) &&
      state.view.history.any (fun event => (event.after.tables.licenses sampleId).any fun data =>
        data.row.typeDrafts.metered ≠ none) &&
      (state.view.world.tables.licenses sampleId).any fun data =>
        sortedNames (some data.meters) = ["calls"]) (by decide +kernel)
  simp only [Bool.and_eq_true] at holds
  obtain ⟨⟨⟨right, ended⟩, wrote⟩, lists⟩ := holds
  obtain ⟨data, present, names⟩ := (Option.any_eq_true _ _).mp lists
  obtain ⟨event, member, drafted⟩ := List.any_eq_true.mp wrote
  obtain ⟨written, there, some⟩ := (Option.any_eq_true _ _).mp drafted
  refine ⟨state, data, run, present, of_decide_eq_true names, metered_draft run
    (rightDrafts_untaken (server_run_sound run) right) (fun call request asked _ => ?_)
    ⟨event, member, written, there, of_decide_eq_true some⟩ present⟩
  have listed := List.mem_map_of_mem (f := Prod.fst) (started call request asked)
  exact endedWell_done (List.all_eq_true.mp ended call listed)

/-- Two new meters, where the second call runs after the first has listed the names. -/
def overtakenSample : List (Choice Input Move Request) :=
  meteredSample ++ .start 3 (.createLicenseMeter sampleId ⟨"extra", .integer 5, "start"⟩) ::
    (sampleActs 3 3 0 6 ++
      sampleCall 4 (.createLicenseMeter sampleId ⟨"other", .integer 5, "start"⟩) 4 10 ++
      sampleActs 3 5 6 4)

theorem metered_draft_overtaken : ∃ state data, ServerRun sampleHost 0 state ∧
    (∀ call request, state.view.requests call = some request →
      ∃ response, state.pool call = some (.done (.ok response))) ∧
    state.view.world.tables.licenses sampleId = some data ∧
      data.row.typeDrafts.metered = some ["calls", "extra"] ∧
      sortedNames (some data.meters) = ["calls", "extra", "other"] := by
  obtain ⟨state, run, holds, started⟩ := @sampled_calls overtakenSample
    (fun state => [0, 1, 2, 3, 4].all (endedWell state) &&
      (state.view.world.tables.licenses sampleId).any fun data =>
        data.row.typeDrafts.metered = some ["calls", "extra"] ∧
          sortedNames (some data.meters) = ["calls", "extra", "other"]) (by decide +kernel)
  simp only [Bool.and_eq_true] at holds
  obtain ⟨data, present, names⟩ := (Option.any_eq_true _ _).mp holds.2
  obtain ⟨draft, names⟩ := of_decide_eq_true names
  refine ⟨state, data, run, fun call request asked => ?_, present, draft, names⟩
  have listed := List.mem_map_of_mem (f := Prod.fst) (started call request asked)
  exact endedWell_done (List.all_eq_true.mp holds.1 call listed)

end Samples

end Keyzori
