import Keyzori.Server.Versions

namespace Keyzori

open Interleaving

variable {host : Host} {request : Request} {view : ServerView} {call : Nat} {id : LicenseId}
  {now : Instant} {data : LicenseData} {writes : List Write} {trace : ServerTrace}
  {state : ServerState}

section Rows

/-- What an act makes of the type of a license and of the start of its trial. -/
inductive TrialMove (request : Request) (trace : ServerTrace) (old new : StoredLicense) : Prop
  | kept (type : new.type = old.type) (start : new.trialStartedAt = old.trialStartedAt)
  | started (drawn : Draw) (asked : request.activates = true) (was : old.type = .trial)
      (type : new.type = .trial) (unset : old.trialStartedAt = none) (took : Took trace .draw drawn)
      (start : new.trialStartedAt = some drawn.now)
  | entered (drawn : Draw) (was : old.type ≠ .trial) (type : new.type = .trial)
      (took : Took trace .draw drawn) (start : new.trialStartedAt = some drawn.now)
  | left (moved : new.type ≠ old.type) (type : new.type ≠ .trial) (start : new.trialStartedAt = none)

theorem updateTypeConfig_start {current : License} {data : UpdateLicenseInput} {targetType : LicenseType}
    {typeChanged : Bool} {drafts : LicenseTypeDrafts} {config : TypeConfig}
    (made : AdminService.updateTypeConfig current data targetType typeChanged drafts now = .ok config)
    (changed : typeChanged = true) :
    config.trialStartedAt = if targetType = .trial then some now else none := by
  subst changed
  simp only [AdminService.updateTypeConfig] at made
  cases targetType with
  | subscription =>
      simp only at made
      split at made
      · cases made
      · obtain ⟨expiry, -, made⟩ := bind_ok.mp made
        cases expiry with
        | none => cases made
        | some expiresAt =>
            cases made
            rfl
  | trial =>
      simp only at made
      split at made
      · cases made
      · obtain ⟨duration, -, made⟩ := bind_ok.mp made
        cases made
        rfl
  | lifetime =>
      cases made
      rfl
  | metered =>
      cases made
      rfl

/-- An edit names the start of the trial only when it changes the type. -/
theorem edits_move {input : UpdateLicenseInput} {current : License} {row new : StoredLicense}
    {update final : LicenseUpdate} {link : Option StripeSubscriptionLink} {statements : List Write}
    {options : LicenseUpdateOptions} {currentMeters : List LicenseMeter}
    (computed : Computed trace id current input update options currentMeters)
    (branch : Statements update options link statements) (member : .updateLicense final ∈ statements)
    (columns : current.toLicenseColumns = row.toLicenseColumns) (type : new.type = (final.apply row).type)
    (start : new.trialStartedAt = (final.apply row).trialStartedAt) : TrialMove request trace row new := by
  obtain ⟨limits, config, newMeters, drawn, took, -, -, made, rfl, -⟩ := computed.config
  have fields : final.type = some (input.type.getD current.type) ∧ final.trialStartedAt =
      if input.type.getD current.type ≠ current.type then some config.trialStartedAt else none := by
    have active : (editedConfig (input.type.getD current.type) currentMeters newMeters
        config).trialStartedAt = config.trialStartedAt := by
      unfold editedConfig
      split <;> rfl
    cases branch <;> simp at member <;> subst member <;>
      exact ⟨rfl, by simp [AdminService.licenseUpdate, active]⟩
  have was : current.type = row.type := congrArg LicenseColumns.type columns
  have target : new.type = input.type.getD current.type := by
    rw [type, LicenseUpdate.apply, fields.1]
    rfl
  by_cases same : input.type.getD current.type = current.type
  · refine .kept (target.trans (same.trans was)) ?_
    rw [start, LicenseUpdate.apply, fields.2, if_neg (not_not_intro same)]
    rfl
  · have begun : new.trialStartedAt = config.trialStartedAt := by
      rw [start, LicenseUpdate.apply, fields.2, if_pos same]
      rfl
    rw [updateTypeConfig_start made (decide_eq_true same), ← target] at begun
    by_cases trial : new.type = .trial
    · rw [if_pos trial] at begun
      exact .entered drawn (fun old => same (by rw [← target, trial, was, old])) trial took begun
    · rw [if_neg trial] at begun
      exact .left (fun old => same (by rw [← target, old, was])) trial begun

theorem commits_move (sound : Sound view) (commits : Commits host request (view.trace call) id writes)
    (present : view.world.tables.licenses id = some data) :
    TrialMove request (view.trace call) data.row (applyWrites now writes data).row := by
  rcases @once_row writes now data (commits_once commits) with ⟨-, same⟩ | ⟨write, member, row, applied, same⟩
  · exact .kept (by rw [same]) (by rw [same])
  rw [same]
  cases write with
  | updateLicense final =>
      cases applied
      rcases commits_updateLicense commits member with ⟨-, rfl⟩ | ⟨input, current, row, update, link, inserted,
        statements, options, currentMeters, edits, computed, branch, listed, -⟩
      · exact .kept rfl rfl
      · obtain ⟨unchanged, columns⟩ := unchanged_row sound edits.unchanged data present
        exact edits_move computed branch listed (unchanged ▸ columns) rfl rfl
  | updateWithSessionInvalidation final =>
      cases applied
      obtain ⟨text, stamp, reason, -, rfl⟩ := commits_revokes commits member
      exact .kept rfl rfl
  | startTrial startedAt =>
      cases applied
      obtain ⟨binding, license, row, drawn, rfl, admitting, type, unset, took, rfl⟩ :=
        commits_startTrial commits member
      have here := (admitting_row sound admitting).2 data present
      obtain ⟨licenseKey, deviceId, ip, asked, -⟩ := admitting.lookup.asked
      exact .started drawn (by rw [asked]; rfl) (here ▸ type) (here ▸ type) (here ▸ unset) took rfl
  | incrementSessionRevision | rotateKey | meterDraft | setExpiresAt =>
      cases applied
      exact .kept rfl rfl
  | _ => cases applied

theorem commits_activation {licenseKey deviceId ip : String}
    (commits : Commits host (.activate licenseKey deviceId ip) trace id writes) :
    ((∃ deviceRow seenAt, writes = [.touchDevice deviceRow seenAt]) ∧ ¬Uncommitted trace) ∨
      ∃ binding license row started registered, id = row.id ∧ writes = started ++ registered ∧
        Admitting host (.activate licenseKey deviceId ip) trace binding license row ∧
          StartsTrial trace row started ∧ Registers trace binding license row registered := by
  cases commits with
  | touched id deviceRow seenAt asked admitted => exact .inl ⟨⟨deviceRow, seenAt, rfl⟩, admitted rfl⟩
  | admitted binding license row started registered admitting starts registers =>
      exact .inr ⟨binding, license, row, started, registered, rfl, rfl, admitting, starts, registers⟩
  | metered id region table read scripts => cases scripts <;> contradiction
  | reconciled _ _ _ _ _ _ _ reconciling => cases reconciling.asked
  | disconnected _ _ _ _ _ _ reconciling => cases reconciling.asked
  | edited _ _ _ _ _ _ _ _ edits => cases edits.asked
  | _ => contradiction

theorem admission_starts {binding : SessionBinding} {license : License} {row : StoredLicense}
    {started registered : List Write} (sound : Sound view)
    (admitting : Admitting host request (view.trace call) binding license row)
    (starts : StartsTrial (view.trace call) row started)
    (registers : Registers (view.trace call) binding license row registered)
    (present : view.world.tables.licenses row.id = some data)
    (trial : (applyWrites now (started ++ registered) data).row.type = .trial) :
    (applyWrites now (started ++ registered) data).row.trialStartedAt ≠ none := by
  have here := (admitting_row sound admitting).2 data present
  have kept : ∀ rows : LicenseData, (applyWrites now registered rows).row = rows.row := by
    intro rows
    refine applyWrites_row fun write member => ?_
    obtain ⟨device, rfl⟩ := registers_member registers member
    rfl
  rw [applyWrites_append, kept] at trial ⊢
  cases starts with
  | running begun => exact fun unset => begun ⟨here ▸ trial, here ▸ unset⟩
  | first drawn type unset took => exact Option.some_ne_none _

end Rows

section Events

variable {before after : List ServerEvent} {event : ServerEvent} {old new : LicenseData}

def ActivationCommit (view : ServerView) (event : ServerEvent) (id : LicenseId) : Prop :=
  (∃ licenseKey deviceId ip, view.requests event.call = some (.activate licenseKey deviceId ip)) ∧
    ∃ expected writes written, Landed event id expected writes written ∧
      ∀ deviceRow seenAt, writes ≠ [.touchDevice deviceRow seenAt]

/-- A transaction that took effect although its call was told of a failure. -/
def Unheard (event : ServerEvent) : Prop :=
  (∃ id expected writes written, Landed event id expected writes written) ∧ ∃ error, event.result = .error error

theorem happened_took {last earlier : ServerView} {act : Act} {value : act.Val}
    (happened : Happened host now last before event earlier request)
    (shape : last.history = before ++ event :: after) (took : Took (earlier.trace call) act value) :
    Took (last.trace call) act value := by
  obtain ⟨other, member, same⟩ := List.mem_map.mp took
  refine List.mem_map.mpr ⟨other, ?_, same⟩
  obtain ⟨listed, own⟩ := List.mem_filter.mp member
  refine List.mem_filter.mpr ⟨?_, own⟩
  rw [shape, ← happened.history]
  exact List.mem_append_left _ listed

theorem event_trial (run : ServerAllowedRun host (.start (World.start now)) view)
    (shape : view.history = before ++ event :: after)
    (present : event.before.tables.licenses id = some old)
    (later : event.after.tables.licenses id = some new) : ∃ request,
      TrialMove request (view.trace event.call) old.row new.row ∧
        (old.row.type = .trial → new.row.type = .trial →
          new.row.trialStartedAt ≠ old.row.trialStartedAt → ActivationCommit view event id) := by
  obtain ⟨earlier, request, happened⟩ := allowedRun_event run shape
  refine ⟨request, ?_⟩
  cases happened_changes happened present later with
  | kept => exact ⟨.kept rfl rfl, fun _ _ changed => absurd rfl changed⟩
  | relabelled => exact ⟨.kept rfl rfl, fun _ _ changed => absurd rfl changed⟩
  | committed expected writes stamp act commits =>
      have move := @commits_move _ _ _ _ _ stamp _ _ happened.sound commits (happened.world ▸ present)
      refine ⟨?_, fun was type changed => ?_⟩
      · cases move with
        | kept type start => exact .kept type start
        | started drawn asked was type unset took start =>
            exact .started drawn asked was type unset (happened_took happened shape took) start
        | entered drawn was type took start =>
            exact .entered drawn was type (happened_took happened shape took) start
        | left moved type start => exact .left moved type start
      · cases move with
        | kept _ start => exact absurd start changed
        | entered _ other => exact absurd was other
        | left _ other => exact absurd type other
        | started drawn asked was type unset took start =>
            obtain ⟨written, landed⟩ := changing_commit act happened.ran fun same => by
              rw [present, later] at same
              exact changed (congrArg (fun data : LicenseData => data.row.trialStartedAt) (Option.some.inj same))
            refine ⟨?_, expected, writes, written, landed, ?_⟩
            · rw [happened.still]
              cases request <;> first | exact ⟨_, _, _, rfl⟩ | cases asked
            · rintro deviceRow seenAt rfl
              exact changed rfl

theorem activationCommit_starts (run : ServerAllowedRun host (.start (World.start now)) view)
    (shape : view.history = before ++ event :: after) (committed : ActivationCommit view event id) :
    ∃ old new, event.before.tables.licenses id = some old ∧ event.after.tables.licenses id = some new ∧
      (new.row.type = .trial → new.row.trialStartedAt ≠ none) := by
  obtain ⟨⟨licenseKey, deviceId, ip, asked⟩, expected, writes, written, landed, touch⟩ := committed
  obtain ⟨earlier, request, happened⟩ := allowedRun_event run shape
  cases happened.still.symm.trans asked
  have held : Commits host (.activate licenseKey deviceId ip) (earlier.trace event.call) id writes := by
    have warranted := happened.held
    rwa [landed.act] at warranted
  obtain ⟨stamp, made, -⟩ := landed.made
  refine ⟨written.before, written.after, landed.present, landed_later landed, ?_⟩
  · rcases commits_activation held with ⟨⟨deviceRow, seenAt, same⟩, -⟩ | ⟨binding, license, row, started,
      registered, rfl, rfl, admitting, starts, registers⟩
    · exact absurd same (touch deviceRow seenAt)
    · rw [made]
      exact admission_starts happened.sound admitting starts registers (happened.world ▸ landed.present)

end Events

section Runs

def StaysTrial (history : List ServerEvent) (id : LicenseId) : Prop :=
  ∀ event ∈ history, ∀ data, event.before.tables.licenses id = some data ∨
    event.after.tables.licenses id = some data → data.row.type = .trial

theorem trial_unstarted (run : ServerAllowedRun host (.start (World.start now)) view)
    (trial : StaysTrial view.history id) (none : ∀ event ∈ view.history, ¬ActivationCommit view event id) :
    ∀ world, Visited view world → ∀ data, world.tables.licenses id = some data →
      data.row.trialStartedAt = .none := by
  refine allowedRun_always run (fun event member new absent later => ?_)
    fun event member old new present later unset => ?_
  · obtain ⟨early, late, shape⟩ := List.append_of_mem member
    obtain ⟨earlier, request, happened⟩ := allowedRun_event run shape
    obtain ⟨keyHash, keyPrefix, data, table, stamp, -, -, creates, rfl⟩ :=
      happened_creates happened absent later
    obtain ⟨input, limits, config, meters, drawn, -, -, -, rfl⟩ := creates.computed
    rfl
  · obtain ⟨early, late, shape⟩ := List.append_of_mem member
    obtain ⟨request, -, commits⟩ := event_trial run shape present later
    by_contra started
    exact none event member (commits (trial event member old (.inl present))
      (trial event member new (.inr later)) fun same => started (same.trans unset))

theorem trial_kept (run : ServerAllowedRun host (.start (World.start now)) view)
    (trial : StaysTrial view.history id) {early late : List ServerEvent} {event : ServerEvent}
    (shape : view.history = early ++ event :: late) {new : LicenseData} {startedAt : Instant}
    (later : event.after.tables.licenses id = some new) (started : new.row.trialStartedAt = some startedAt) :
    (∀ data, view.world.tables.licenses id = some data → data.row.trialStartedAt = some startedAt) ∧
      ∀ other ∈ event :: late, ∀ data, other.after.tables.licenses id = some data →
        data.row.trialStartedAt = some startedAt := by
  have sound := allowedRun_sound run (start_sound now)
  have listed : ∀ other ∈ late, other ∈ view.history := fun other member => by simp [shape, member]
  let holds : World → Prop := fun world => id ∈ world.tables.ids ∧
    ∀ data, world.tables.licenses id = some data → data.row.trialStartedAt = some startedAt
  have still : ∀ (move : Move) (world : World), holds ((server host).environment move world) ↔ holds world :=
    fun move world => by cases move <;> rfl
  have first : holds event.after := by
    refine ⟨?_, fun data present => ?_⟩
    · exact (sound.recorded event (by simp [shape])).after.tables.known id (by simp [later])
    · cases later.symm.trans present
      exact started
  have kept : ∀ other ∈ late, holds other.before → holds other.after := by
    rintro other member ⟨known, before⟩
    obtain ⟨input, ran⟩ := (sound.recorded other (listed other member)).ran
    refine ⟨effect_ids (exec_effect ran) known, fun data after => ?_⟩
    obtain ⟨front, back, split⟩ := List.append_of_mem (listed other member)
    cases present : other.before.tables.licenses id with
    | none =>
        obtain ⟨earlier, request, happened⟩ := allowedRun_event run split
        obtain ⟨keyHash, keyPrefix, created, table, stamp, -, fresh, -⟩ :=
          happened_creates happened present after
        exact absurd known fresh
    | some old =>
        obtain ⟨request, move, -⟩ := event_trial run split present after
        have was := trial other (listed other member) old (.inl present)
        have type := trial other (listed other member) data (.inr after)
        cases move with
        | kept _ start => exact start.trans (before old present)
        | started drawn asked was type unset => cases unset.symm.trans (before old present)
        | entered drawn other => exact absurd was other
        | left moved other => exact absurd type other
  refine ⟨(allowed_lasts still run rfl shape first kept).2, fun other member data after => ?_⟩
  rcases List.mem_cons.mp member with rfl | later
  · exact first.2 data after
  · obtain ⟨between, rest, rfl⟩ := List.append_of_mem later
    exact (kept other later (allowed_keeps still run rfl shape first fun event listed =>
      kept event (by simp [listed]))).2 data after

/-- The first activation that commits starts the trial, at a time that it drew. -/
def StartedOnce (view : ServerView) (id : LicenseId) : Prop :=
  ∃ early event late drawn, view.history = early ++ event :: late ∧
    (∀ other ∈ early, ¬ActivationCommit view other id) ∧ ActivationCommit view event id ∧
    Took (view.trace event.call) .draw drawn ∧
    (∀ other ∈ early ++ [event], ∀ data, other.before.tables.licenses id = some data →
      data.row.trialStartedAt = none) ∧
    (∀ other ∈ event :: late, ∀ data, other.after.tables.licenses id = some data →
      data.row.trialStartedAt = some drawn.now) ∧
    ∀ data, view.world.tables.licenses id = some data → data.row.trialStartedAt = some drawn.now

theorem trial_started (run : ServerAllowedRun host (.start (World.start now)) view)
    (trial : StaysTrial view.history id) (some : ∃ event ∈ view.history, ActivationCommit view event id) :
    StartedOnce view id := by
  obtain ⟨early, event, late, shape, committed, others⟩ := first_split some
  obtain ⟨earlier, request, happened⟩ := allowedRun_event run shape
  have unset : ∀ world, Visited earlier world → ∀ data, world.tables.licenses id = .some data →
      data.row.trialStartedAt = none := by
    refine trial_unstarted happened.start ?_ ?_
    · intro other member
      exact trial other (by rw [shape, ← happened.history]; exact List.mem_append_left _ member)
    · rintro other member ⟨⟨licenseKey, deviceId, ip, asked⟩, commit⟩
      exact others other (happened.history ▸ member)
        ⟨⟨licenseKey, deviceId, ip, allowed_requests (happened_run happened) asked⟩, commit⟩
  obtain ⟨old, new, present, later, set⟩ := activationCommit_starts run shape committed
  have listed : event ∈ view.history := by simp [shape]
  have was := trial event listed old (.inl present)
  have type := trial event listed new (.inr later)
  have none := unset event.before (.inl happened.world.symm) old present
  obtain ⟨request, move, -⟩ := event_trial run shape present later
  cases move with
  | kept _ start => exact absurd (start.trans none) (set type)
  | entered _ other => exact absurd was other
  | left _ other => exact absurd type other
  | started drawn asked was type unset' took start =>
      obtain ⟨last, rest⟩ := trial_kept run trial shape later start
      refine ⟨early, event, late, drawn, shape, others, committed, took, fun other member data before => ?_,
        rest, last⟩
      rcases List.mem_append.mp member with old | own
      · exact unset _ (.inr ⟨other, happened.history ▸ old, rfl⟩) data before
      · obtain rfl := List.mem_singleton.mp own
        exact unset _ (.inl happened.world.symm) data before

theorem activation_effect {last earlier : ServerView} {before : List ServerEvent} {event : ServerEvent}
    {licenseKey deviceId ip : String}
    (happened : Happened host now last before event earlier (.activate licenseKey deviceId ip)) :
    event.after.tables.licenses = event.before.tables.licenses ∨ ∃ id expected writes written,
      Landed event id expected writes written := by
  by_contra! calm
  obtain ⟨changed, uncommitted⟩ := calm
  refine changed (funext fun id => by_contra fun other => ?_)
  have held := happened.held
  have ran := happened.ran
  obtain ⟨input, once⟩ := happened.ran
  have touched := (effect_licenses (exec_effect once) id).resolve_left other
  obtain ⟨call, act, result, world, next⟩ := event
  cases touched with
  | committed expected writes data stamp =>
      obtain ⟨written, landed⟩ := changing_commit rfl ran other
      exact uncommitted id expected writes written landed
  | inserted =>
      obtain ⟨input, limits, config, meters, drawn, same, -⟩ := Creates.computed held
      cases same
  | deleted => cases held.2
  | cascaded => cases held.2
  | linkError => cases held.2

theorem failed_activation {licenseKey deviceId ip : String} (run : ServerRun host now state)
    (asked : state.view.requests call = some (.activate licenseKey deviceId ip)) {error : Failure}
    (ended : state.pool call = some (.done (.error error))) {event : ServerEvent}
    (member : event ∈ state.view.history) (own : event.call = call) :
    event.after.tables.licenses = event.before.tables.licenses ∨ Unheard event := by
  obtain ⟨request, same, refused⟩ := server_run_outcome run ended
  cases asked.symm.trans same
  obtain ⟨early, late, shape⟩ := List.append_of_mem member
  obtain ⟨earlier, request, happened⟩ := server_run_event run shape
  cases asked.symm.trans (own ▸ happened.still)
  refine (activation_effect happened).imp_right ?_
  rintro ⟨id, expected, writes, written, landed⟩
  refine ⟨⟨id, expected, writes, written, landed⟩, ?_⟩
  have listed : event.deed ∈ state.view.trace call :=
    List.mem_map_of_mem (List.mem_filter.mpr ⟨member, by simpa using own⟩)
  obtain ⟨taken, act, result, world, next⟩ := event
  obtain rfl : act = _ := landed.act
  cases result with
  | error error => exact ⟨error, rfl⟩
  | ok rows => exact absurd listed (refused.1 id expected writes rows)

def StoredLicense.deadline (row : StoredLicense) : Option Instant :=
  row.trialStartedAt.map fun startedAt => trialDeadline startedAt row.trialDurationMinutes

/-- A trial has no start until the first activation that commits, and the start that this
gives it from then on; an activation that fails changes no license, if it has not committed
unheard; while the type stays, a deadline moves with the duration only; and a change of type
into a trial starts it anew, a change out of it clears the start. -/
theorem trial_clock (run : ServerRun host now state) :
    (∀ id, StaysTrial state.view.history id →
      ((∀ event ∈ state.view.history, ¬ActivationCommit state.view event id) ∧
          ∀ world, Visited state.view world → ∀ data, world.tables.licenses id = some data →
            data.row.trialStartedAt = none) ∨
        StartedOnce state.view id) ∧
    (∀ call licenseKey deviceId ip error,
      state.view.requests call = some (.activate licenseKey deviceId ip) →
        state.pool call = some (.done (.error error)) → ∀ event ∈ state.view.history,
          event.call = call → event.after.tables.licenses = event.before.tables.licenses ∨ Unheard event) ∧
    ∀ event ∈ state.view.history, ∀ id old new, event.before.tables.licenses id = some old →
      event.after.tables.licenses id = some new →
        (old.row.type = .trial → new.row.type = .trial → ∀ startedAt,
          old.row.trialStartedAt = some startedAt → new.row.trialStartedAt = some startedAt ∧
            (new.row.trialDurationMinutes = old.row.trialDurationMinutes →
              new.row.deadline = old.row.deadline)) ∧
        (old.row.type ≠ .trial → new.row.type = .trial → ∃ drawn,
          Took (state.view.trace event.call) .draw drawn ∧
            new.row.trialStartedAt = some drawn.now) ∧
        (old.row.type = .trial → new.row.type ≠ .trial → new.row.trialStartedAt = none) := by
  have allowed := server_run_allowed run
  refine ⟨fun id trial => ?_, fun call licenseKey deviceId ip error asked ended event member own =>
    failed_activation run asked ended member own, fun event member id old new present later => ?_⟩
  · by_cases committed : ∃ event ∈ state.view.history, ActivationCommit state.view event id
    · exact .inr (trial_started allowed trial committed)
    · push Not at committed
      exact .inl ⟨committed, trial_unstarted allowed trial committed⟩
  · obtain ⟨early, late, shape⟩ := List.append_of_mem member
    obtain ⟨request, move, -⟩ := event_trial allowed shape present later
    cases move with
    | kept type start =>
        refine ⟨fun _ _ startedAt begun => ⟨start.trans begun, fun duration => ?_⟩,
          fun other trial => absurd (type.symm.trans trial) other,
          fun was other => absurd (type.trans was) other⟩
        rw [StoredLicense.deadline, StoredLicense.deadline, start, duration]
    | started drawn asked was type unset took start =>
        refine ⟨fun _ _ startedAt begun => ?_, fun other => absurd was other, fun _ other => absurd type other⟩
        cases unset.symm.trans begun
    | entered drawn was type took start =>
        exact ⟨fun trial => absurd trial was, fun _ _ => ⟨drawn, took, start⟩, fun trial => absurd trial was⟩
    | left moved type start =>
        exact ⟨fun _ trial => absurd trial type, fun _ trial => absurd trial type, fun _ _ => start⟩

end Runs

section Samples

def trialSample : List (Choice Input Move Request) :=
  sampleCall 0 (.createCustomer "customer") 0 2 ++
    sampleCall 1 (.createLicense
      { customerId := "customer", type := .trial, trialDurationMinutes := some (.integer 10) }) 1 7 ++
    sampleCall 2 (.activate "key 102" "laptop" "10.0.0.1") 2 20

def trialStarted (state : ServerState) : Bool :=
  (state.view.history.all fun event =>
      (event.before.tables.licenses sampleId).all (fun data => data.row.type = .trial) &&
        (event.after.tables.licenses sampleId).all fun data => data.row.type = .trial) &&
    (state.view.world.tables.licenses sampleId).any fun data => data.row.trialStartedAt.isSome

theorem trial_clock_sample : ∃ state, ServerRun sampleHost 0 state ∧ StartedOnce state.view sampleId := by
  obtain ⟨state, run, holds⟩ := @sampled_run trialSample trialStarted (by decide +kernel)
  obtain ⟨trial, started⟩ := (Bool.and_eq_true _ _).mp holds
  refine ⟨state, run, ((trial_clock run).1 sampleId ?_).resolve_left ?_⟩
  · intro event member data present
    have both := List.all_eq_true.mp trial event member
    rw [Bool.and_eq_true, Option.all_eq_true, Option.all_eq_true] at both
    rcases present with before | after
    · exact of_decide_eq_true (both.1 data before)
    · exact of_decide_eq_true (both.2 data after)
  · rintro ⟨-, unset⟩
    obtain ⟨data, present, begun⟩ := (Option.any_eq_true _ _).mp started
    rw [unset _ (.inl rfl) data present] at begun
    cases begun

end Samples

end Keyzori
