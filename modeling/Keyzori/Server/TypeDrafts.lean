import Keyzori.Server.Drafts

namespace Keyzori

open Interleaving MeterRegion

variable {host : Host} {request : Request} {view : ServerView} {call : Nat} {id : LicenseId}
  {data old new : LicenseData} {stamp now : Instant} {writes : List Write} {state : ServerState}
  {before after : List ServerEvent} {event : ServerEvent} {type : LicenseType}

section Events

/-- The names that an update listed before a call for the meters changed them. -/
def Outdated (view : ServerView) (before : List ServerEvent) (event : ServerEvent) (id : LicenseId)
    (meterNames : List String) : Prop :=
  ∃ early list ahead change rest request, before = early ++ list :: (ahead ++ change :: rest) ∧
    list.call = event.call ∧ list.act = .query (activeListed id) ∧
    meterNames = sortedNames (list.before.tables.meters id) ∧
    view.requests change.call = some request ∧ request.meters = some id ∧
    sortedNames (change.after.tables.meters id) ≠ sortedNames (change.before.tables.meters id)

/-- The draft that the license of the first rows leaves of its type. -/
def Leaves (view : ServerView) (before : List ServerEvent) (event : ServerEvent) (id : LicenseId)
    (old : LicenseData) (drafts : LicenseTypeDrafts) : Prop :=
  ∃ meterNames, draftOf drafts old.row.type =
      settingsOf old.row.toLicenseColumns meterNames old.row.type ∧
    (meterNames = sortedNames (some old.meters) ∨ Outdated view before event id meterNames)

theorem edited_drafts {input : UpdateLicenseInput} {current : License} {row : StoredLicense}
    {update : LicenseUpdate} {link : Option StripeSubscriptionLink} {inserted statements : List Write}
    {last earlier : ServerView} (happened : Happened host now last before event earlier request)
    (run : ServerAllowedRun host (.start (World.start now)) last)
    (shape : last.history = before ++ event :: after)
    (edits : Edits request (earlier.trace event.call) id input current row update link inserted statements)
    (present : earlier.world.tables.licenses id = some old) :
    let new := applyWrites stamp (inserted ++ statements) old
    (∀ type, type ≠ old.row.type → type ≠ new.row.type →
        draftOf new.row.typeDrafts type = draftOf old.row.typeDrafts type) ∧
      (new.row.type ≠ old.row.type → Leaves last before event id old new.row.typeDrafts) := by
  intro new
  obtain ⟨meters, newMeters, config, drawn, redrawn⟩ := @edits_redrawn request id old stamp row current
    input update link inserted statements (earlier.trace event.call) edits
  obtain ⟨same, columns⟩ := unchanged_row happened.sound edits.unchanged old present
  have currently : current.type = old.row.type := by
    rw [same]
    exact congrArg LicenseColumns.type columns
  have target : new.row.type = input.type.getD current.type := redrawn.type
  refine ⟨fun type other another => ?_, fun changed => ?_⟩
  · rw [redrawn_other redrawn (target ▸ another), withCurrentDraft_other (currently ▸ other), same]
    exact congrArg (fun columns => draftOf columns.typeDrafts type) columns
  · have left : draftOf new.row.typeDrafts old.row.type = settingsOf old.row.toLicenseColumns
        (sortNames (meters.map LicenseMeter.name)) old.row.type := by
      rw [redrawn_other redrawn (target ▸ changed.symm), ← currently, withCurrentDraft_own, columns, same]
    have later : last.history = earlier.history ++ event :: after := by rw [happened.history, shape]
    have sound := allowedRun_sound run (start_sound now)
    refine ⟨_, left, ?_⟩
    rcases listed_renamed happened.start run later happened.world.symm edits.unchanged present redrawn.listed
      with steady | ⟨early, list, ahead, change, rest, first, asking, own, deed, renamed⟩
    · exact .inl (by rw [steady, sortedNames, sortNames_sorted])
    · have history := happened.history.symm.trans renamed.history
      obtain ⟨input, read⟩ := deed_ran deed (sound.recorded list (by simp [shape, history])).ran
      refine .inr ⟨early, list, ahead, change, rest, asking, by simp [history], own, congrArg Deed.act deed,
        ?_, allowed_requests (happened_run happened) renamed.happened.still, renamed.asked, renamed.changed⟩
      rw [(exec_query read).2, activeListed_names, sortedNames, sortNames_sorted]

theorem event_drafts (run : ServerRun host now state) (shape : state.view.history = before ++ event :: after)
    (asked : state.view.requests event.call = some request)
    (present : event.before.tables.licenses id = some old)
    (later : event.after.tables.licenses id = some new) :
    (∀ type, type ≠ old.row.type → type ≠ new.row.type → (type = .metered → request.meters ≠ some id) →
        draftOf new.row.typeDrafts type = draftOf old.row.typeDrafts type) ∧
      (new.row.type ≠ old.row.type → Leaves state.view before event id old new.row.typeDrafts) := by
  obtain ⟨earlier, request', happened, there, changes⟩ := event_changes run shape present later
  cases asked.symm.trans happened.still
  have kept : ∀ data : LicenseData, data.row.typeDrafts = old.row.typeDrafts → data.row.type = old.row.type →
      (∀ type, type ≠ old.row.type → type ≠ data.row.type → (type = .metered → request.meters ≠ some id) →
        draftOf data.row.typeDrafts type = draftOf old.row.typeDrafts type) ∧
      (data.row.type ≠ old.row.type → Leaves state.view before event id old data.row.typeDrafts) :=
    fun data drafts type => ⟨fun _ _ _ _ => by rw [drafts], fun changed => absurd type changed⟩
  cases changes with
  | kept => exact kept _ rfl rfl
  | relabelled => exact kept _ rfl rfl
  | committed expected writes stamp act commits =>
      cases commits_drafting happened.sound commits there with
      | kept writes other drafts type names => exact kept _ drafts type
      | changed table asked first row => exact kept _ (by rw [row]) (by rw [row])
      | drafted meters asked listed drafts type same =>
          refine ⟨fun other _ _ unasked => ?_, fun changed => absurd type changed⟩
          rw [drafts]
          cases other <;> first | rfl | exact absurd asked (unasked rfl)
      | edited input current row update link inserted statements edits =>
          have moved := @edited_drafts host request id old stamp now before after event input current row
            update link inserted statements state.view earlier happened (server_run_allowed run) shape edits
            there
          exact ⟨fun type other another _ => moved.1 type other another, moved.2⟩

end Events

section Dormancy

variable {early between late : List ServerEvent} {leave read : ServerEvent} {current : License}

/-- A license left its type and had not come back to it when it was read, and no call
for its meters took an act meanwhile, if it was metered. -/
structure Dormant (view : ServerView) (id : LicenseId) (old new : LicenseData) (early : List ServerEvent)
    (leave : ServerEvent) (between : List ServerEvent) (read : ServerEvent) (late : List ServerEvent)
    (current : License) : Prop where
  history : view.history = early ++ leave :: (between ++ read :: late)
  present : leave.before.tables.licenses id = some old
  left : leave.after.tables.licenses id = some new
  changed : new.row.type ≠ old.row.type
  away : ∀ event ∈ between, ∀ data, event.after.tables.licenses id = some data →
    data.row.type ≠ old.row.type
  meters : old.row.type = .metered → ∀ event ∈ between, ∀ request,
    view.requests event.call = some request → request.meters ≠ some id
  read : read.deed = ⟨.findLicense id, .ok (some current)⟩

theorem dormant_draft (run : ServerRun host now state)
    (dormant : Dormant state.view id old new early leave between read late current) :
    current.type ≠ old.row.type ∧
      draftOf current.typeDrafts old.row.type = draftOf new.row.typeDrafts old.row.type := by
  obtain ⟨history, present, left, changed, away, meters, deed⟩ := dormant
  have sound := server_run_sound run
  obtain ⟨input, ran⟩ := deed_ran deed (sound.recorded read (by simp [history])).ran
  obtain ⟨-, found⟩ := exec_findLicense ran
  obtain ⟨stored, there, rfl⟩ := Option.map_eq_some_iff.mp found.symm
  have known : id ∈ leave.after.tables.ids :=
    (sound.recorded leave (by simp [history])).after.tables.known id (by simp [left])
  have kept := @allowed_keeps _ _ _ _ _ _ _ _ _ _
    (fun world : World => ∀ data, world.tables.licenses id = some data → data.row.type ≠ old.row.type ∧
      draftOf data.row.typeDrafts old.row.type = draftOf new.row.typeDrafts old.row.type) _ _
    (fun move world => by cases move <;> rfl) (server_run_allowed run) rfl _ _ _ _ _ history ?_ ?_
  · exact kept stored there
  · intro data same
    cases left.symm.trans same
    exact ⟨changed, rfl⟩
  · intro event member holds data later
    have recorded := sound.recorded event (by simp [history, member])
    have ordered := sound.ordered
    rw [history] at ordered
    have progress : Progress leave.after event.before :=
      (List.pairwise_cons.mp (List.pairwise_append.mp ordered).2.1).1 event (by simp [member])
    obtain ⟨input, ran⟩ := recorded.ran
    obtain ⟨earlier, before, -⟩ :=
      (effect_progress (exec_effect ran)).rows id data (progress.ids id known) later
    obtain ⟨away', same⟩ := holds earlier before
    obtain ⟨ahead, rest, rfl⟩ := List.append_of_mem member
    have shape : state.view.history = (early ++ leave :: ahead) ++ event :: (rest ++ read :: late) := by
      simp [history]
    obtain ⟨sofar, request, happened⟩ := server_run_event run shape
    have drafts := (event_drafts run shape happened.still before later).1 old.row.type (Ne.symm away')
      (Ne.symm (away event (by simp) data later))
      fun metered => meters metered event (by simp) request happened.still
    exact ⟨away event (by simp) data later, drafts.trans same⟩

/-- An update that goes back to a type without giving its settings. -/
structure Returns (view : ServerView) (id : LicenseId) (type : LicenseType) (before : List ServerEvent)
    (read : ServerEvent) (input : UpdateLicenseInput) : Prop where
  asked : view.requests read.call = some (.updateLicense id input)
  target : input.type = some type
  duration : input.trialDurationMinutes = none
  expiry : input.expiresAt = none
  first : ∀ event ∈ before, event.call ≠ read.call

theorem parseFutureDate_date {instant parsed : Instant} {label : String}
    (made : parseFutureDate (.date instant) now label = .ok parsed) : parsed = instant ∧ now < instant := by
  simp only [parseFutureDate] at made
  split at made
  · cases made
  · next future =>
    cases made
    exact ⟨rfl, not_le.mp future⟩

theorem returned_config {target : LicenseType} {input : UpdateLicenseInput} {meterNames names : List String}
    {config : TypeConfig}
    (made : AdminService.updateTypeConfig current input target true
      (AdminService.withCurrentDraft current meterNames) now = .ok config)
    (away : current.type ≠ target) (duration : input.trialDurationMinutes = none)
    (expiry : input.expiresAt = none) (draft : draftOf current.typeDrafts target =
      settingsOf old.row.toLicenseColumns names target) :
    (target = .trial → config.trialDurationMinutes = old.row.trialDurationMinutes) ∧
      (target = .subscription → config.expiresAt = old.row.expiresAt) := by
  have kept := (@withCurrentDraft_other current target meterNames (Ne.symm away)).trans draft
  generalize AdminService.withCurrentDraft current meterNames = drafts at *
  refine ⟨?_, ?_⟩
  · rintro rfl
    have trial : drafts.trial = some old.row.trialDurationMinutes := (LicenseTypeDrafts.mk.inj kept).2.2.2
    simp only [AdminService.updateTypeConfig, duration, trial, Option.map_some, Option.none_or, if_true] at made
    obtain ⟨duration, valid, made⟩ := bind_ok.mp made
    cases made
    exact (Number.integer.inj (validateInteger_bounds valid).1).symm
  · rintro rfl
    have subscription : drafts.subscription = some old.row.expiresAt := (LicenseTypeDrafts.mk.inj kept).2.1
    simp only [AdminService.updateTypeConfig, expiry, AdminService.updatedExpiry, subscription] at made
    obtain ⟨expiresAt, parsed, made⟩ := bind_ok.mp made
    cases expiresAt with
    | none => cases made
    | some expiresAt =>
        cases made
        cases paid : old.row.expiresAt with
        | none =>
            rw [paid] at parsed
            cases parsed
        | some instant =>
            rw [paid] at parsed
            change (parseFutureDate (.date instant) now).map some = _ at parsed
            cases date : parseFutureDate (.date instant) now with
            | error error =>
                rw [date] at parsed
                cases parsed
            | ok future =>
                rw [date] at parsed
                cases parsed
                rw [(parseFutureDate_date date).1]

theorem update_edits {input : UpdateLicenseInput} {trace : ServerTrace} (asked : request = .updateLicense id input)
    (commits : Commits host request trace id writes) (row : ∃ write ∈ writes, write.locksRow = true) :
    ∃ current row update link inserted statements, writes = inserted ++ statements ∧
      Edits request trace id input current row update link inserted statements := by
  obtain ⟨write, member, locks⟩ := row
  subst asked
  cases commits with
  | nothing => cases member
  | edited id data current row update link inserted statements edits =>
      cases edits.asked
      exact ⟨current, row, update, link, inserted, statements, rfl, edits⟩
  | admitted binding license row started registered admitting =>
      obtain ⟨licenseKey, deviceId, ip, same, -⟩ := admitting.lookup.asked
      cases same
  | metered | dropped | disconnected | touched | unlinked =>
      cases List.mem_singleton.mp member
      cases locks
  | reconciled subscriptionId existing locked id row fetched now reconciling =>
      cases reconciling.asked
  | _ => contradiction

def Restores (old : LicenseColumns) (new : LicenseColumns) : Prop :=
  new.type = old.type ∧
    (old.type = .trial → new.trialDurationMinutes = old.trialDurationMinutes) ∧
    (old.type = .subscription → new.expiresAt = old.expiresAt)

theorem trace_append {earlier : ServerView} {rest : List ServerEvent}
    (history : view.history = earlier.history ++ rest) :
    ∃ deeds, view.trace call = earlier.trace call ++ deeds := by
  refine ⟨(rest.filter fun event => event.call = call).map Event.deed, ?_⟩
  simp [View.trace, View.events, history]

theorem trace_head (history : view.history = before ++ read :: late)
    (first : ∀ event ∈ before, event.call ≠ read.call) : (view.trace read.call).head? = some read.deed := by
  have silent : before.filter (fun event => event.call = read.call) = [] := by
    simpa using first
  simp [View.trace, View.events, history, silent]

theorem returned_restores (run : ServerRun host now state)
    (dormant : Dormant state.view id old new early leave between read late current)
    {input : UpdateLicenseInput}
    (returns : Returns state.view id old.row.type (early ++ leave :: between) read input) {names : List String}
    (draft : draftOf current.typeDrafts old.row.type =
      settingsOf old.row.toLicenseColumns names old.row.type)
    {write : ServerEvent} (member : write ∈ state.view.history) (own : write.call = read.call)
    (committed : RowCommit write id) (later : write.after.tables.licenses id = some data) :
    Restores old.row.toLicenseColumns data.row.toLicenseColumns := by
  have away := (dormant_draft run dormant).1
  have history : state.view.history = (early ++ leave :: between) ++ read :: late := by
    simp [dormant.history]
  have head := trace_head history returns.first
  obtain ⟨before, after, shape⟩ := List.append_of_mem member
  obtain ⟨earlier, request, happened⟩ := server_run_event run shape
  obtain rfl := Option.some.inj (happened.still.symm.trans (own ▸ returns.asked))
  obtain ⟨expected, writes, written, landed, locks⟩ := committed
  have held : Commits host _ (earlier.trace write.call) id writes := landed.act ▸ happened.held
  obtain ⟨stamp, made, -⟩ := landed.made
  have there := landed.present
  obtain ⟨current', row, update, link, inserted, statements, rfl, edits⟩ := update_edits rfl held locks
  -- The edit was computed from the read that found the license dormant.
  have same : current' = current := by
    obtain ⟨first, rest, trace, initial⟩ := edits.unchanged.read
    have first : first = [] := initial.resolve_left (by rintro ⟨expiresAt, same⟩; cases same)
    obtain ⟨deeds, longer⟩ := @trace_append state.view write.call earlier (write :: after)
      (by rw [happened.history, shape])
    rw [← own, longer, trace, first, dormant.read] at head
    cases head
    rfl
  subst same
  rw [← happened.world] at there
  obtain ⟨found, columns⟩ := unchanged_row happened.sound edits.unchanged written.before there
  have type : written.before.row.type = current'.type := by
    rw [found]
    exact (congrArg LicenseColumns.type columns).symm
  cases later.symm.trans (landed_later landed)
  obtain ⟨meters, newMeters, config, drawn, redrawn⟩ := @edits_redrawn _ id written.before stamp row
    current' input update link inserted statements (earlier.trace write.call) edits
  have config := redrawn.made
  rw [returns.target, Option.getD_some, decide_eq_true (Ne.symm away)] at config
  obtain ⟨trial, subscription⟩ := returned_config config away returns.duration returns.expiry draft
  have target : input.type.getD current'.type = old.row.type := by rw [returns.target, Option.getD_some]
  rw [made]
  refine ⟨redrawn.type.trans target, fun kind => redrawn.duration.trans (trial kind), fun subscribed => ?_⟩
  refine (redrawn.expiry (.inl ?_)).trans (subscription subscribed)
  have formed := allowedRun_throughout (lasting_formed host) happened.start
  cases link with
  | none => rfl
  | some link =>
      have linked := ((edits_link happened.sound formed edits there).1 link rfl).1
      exact absurd (type.symm.trans (linked.trans subscribed.symm)) away

end Dormancy

section Refusals

variable {trace : ServerTrace} {expiry : Instant} {α β : Type}

/-- An act of the call failed, or it was not yet the time, or the call ends with a domain error. -/
def Refuses (expiry : Instant) (result : Except Failure α) (trace : ServerTrace) : Prop :=
  (∃ deed ∈ trace, ∃ error, deed.result = .error error) ∨
    (∃ now, Took trace .draw now ∧ now.now < expiry) ∨ ∃ error, result = .error (.domain error)

abbrev Refusing (expiry : Instant) (prog : Server α) (trace : ServerTrace) : Prop :=
  prog.wp (fun _ _ => True) trace (Refuses expiry)

theorem refusing_act {act : Act} {rest : act.Val → Server β}
    (returned : ∀ value, Refusing expiry (rest value) (trace ++ [⟨act, .ok value⟩])) :
    Refusing expiry (perform act >>= rest) trace := by
  refine ⟨trivial, fun result => ?_⟩
  cases result with
  | ok value => exact returned value
  | error error => exact .inl ⟨_, List.mem_append_right _ (.head _), error, rfl⟩

theorem refusing_domain {result : Except DomainError α} {rest : α → Server β}
    (returned : ∀ value, result = .ok value → Refusing expiry (rest value) trace) :
    Refusing expiry (ofDomain result >>= rest) trace := by
  cases result with
  | ok value => exact returned value rfl
  | error error => exact .inr (.inr ⟨error, rfl⟩)

theorem refusing_checkCustomer {customerId : Option String} {rest : Unit → Server β}
    (returned : ∀ after, Refusing expiry (rest ()) after) :
    Refusing expiry (AdminService.checkCustomer customerId >>= rest) trace := by
  cases customerId with
  | none => exact returned trace
  | some customerId =>
      refine ⟨trivial, fun result => ?_⟩
      cases result with
      | ok found =>
          cases found with
          | true => exact returned _
          | false => exact .inr (.inr ⟨_, rfl⟩)
      | error error => exact .inl ⟨_, List.mem_append_right _ (.head _), error, rfl⟩

theorem expired_config {input : UpdateLicenseInput} {current : License} {meterNames : List String}
    (away : current.type ≠ .subscription) (unset : input.expiresAt = none)
    (draft : current.typeDrafts.subscription = some (some expiry)) (late : expiry ≤ now) :
    ∃ error, AdminService.updateTypeConfig current input .subscription true
      (AdminService.withCurrentDraft current meterNames) now = .error error := by
  have kept : (AdminService.withCurrentDraft current meterNames).subscription = some (some expiry) := by
    have same := @withCurrentDraft_other current .subscription meterNames (Ne.symm away)
    exact (LicenseTypeDrafts.mk.inj same).2.1.trans draft
  refine ⟨badRequest "expiresAt must be a valid future date", ?_⟩
  have parsed : parseFutureDate (.date expiry) now =
      .error (badRequest "expiresAt must be a valid future date") := by
    rw [parseFutureDate, if_pos late]
    rfl
  have dated : AdminService.updatedExpiry current input.expiresAt true
      (AdminService.withCurrentDraft current meterNames) now = (parseFutureDate (.date expiry) now).map some := by
    rw [unset, AdminService.updatedExpiry, kept]
    rfl
  rw [AdminService.updateTypeConfig, dated, parsed, unset]
  rfl

theorem updateRead_refuses {data : UpdateLicenseInput} {current : License}
    (target : data.type = some .subscription) (unset : data.expiresAt = none)
    (away : current.type ≠ .subscription) (draft : current.typeDrafts.subscription = some (some expiry)) :
    Refusing expiry (do
      let limits ← ofDomain (AdminService.validateLimits data.maxIps data.maxDevices data.maxSessions)
      AdminService.checkCustomer data.customerId
      let targetType := data.type.getD current.type
      ofDomain (AdminService.checkTypeFields targetType data)
      let newMeters ← ofDomain (validateMeters (data.meters.getD []))
      ofDomain (AdminService.checkNewMeters targetType newMeters)
      let currentMeters ← MeterRepository.listMeters id false
      let now ← draw
      let config ← ofDomain (AdminService.updateTypeConfig current data targetType
        (targetType ≠ current.type)
        (AdminService.withCurrentDraft current (currentMeters.map LicenseMeter.name)) now.now)
      let active ← AdminService.meteredDraft id targetType currentMeters newMeters config
      let stripeLink ← AdminService.observedLink host id targetType data
      let updated ← LicenseRepository.update id (AdminService.licenseUpdate current data limits active)
        (AdminService.updateOptions current data newMeters currentMeters)
      AdminService.dropObservedLink id stripeLink
      capture (if targetType ≠ current.type then "license.type_changed" else "license.updated")
      managed updated) trace := by
  refine refusing_domain fun limits _ => ?_
  refine refusing_checkCustomer fun after => ?_
  refine refusing_domain fun _ _ => ?_
  refine refusing_domain fun newMeters _ => ?_
  refine refusing_domain fun _ _ => ?_
  refine refusing_act fun currentMeters => ?_
  refine refusing_act fun drawn => ?_
  by_cases late : expiry ≤ drawn.now
  · obtain ⟨error, refused⟩ := @expired_config drawn.now expiry data current
      (currentMeters.map LicenseMeter.name) away unset draft late
    rw [target, Option.getD_some, decide_eq_true (Ne.symm away), refused]
    exact .inr (.inr ⟨error, rfl⟩)
  · refine Prog.wp_any fun result deeds => .inr (.inl ⟨drawn, ?_, not_le.mp late⟩)
    exact List.mem_append_left _ (List.mem_append_right _ (.head _))

theorem updateLicense_refuses {input : UpdateLicenseInput} (target : input.type = some .subscription)
    (unset : input.expiresAt = none) :
    (AdminService.updateLicense host id input).wp (fun _ _ => True) [] fun result after =>
      ∀ current expiry, after.head? = some ⟨.findLicense id, .ok (some current)⟩ →
        current.type ≠ .subscription → current.typeDrafts.subscription = some (some expiry) →
          Refuses expiry result after := by
  rw [AdminService.updateLicense]
  cases AdminService.requireFields input with
  | error error => exact fun current expiry head => by cases head
  | ok fields =>
      refine ⟨trivial, fun result => ?_⟩
      cases result with
      | error error => exact fun current expiry head => by cases head
      | ok found =>
          cases found with
          | none => exact fun current expiry head => by cases head
          | some current =>
              by_cases dormant : current.type ≠ .subscription ∧
                ∃ expiry, current.typeDrafts.subscription = some (some expiry)
              · obtain ⟨away, expiry, draft⟩ := dormant
                refine Prog.wp_mono (Prog.wp_grows (updateRead_refuses target unset away draft)) ?_
                rintro result after ⟨refuses, deeds, rfl⟩ current' expiry' head - draft'
                cases head
                cases draft.symm.trans draft'
                exact refuses
              · refine Prog.wp_any fun result deeds current' expiry' head away draft => ?_
                cases head
                exact absurd ⟨away, expiry', draft⟩ dormant

def refusal (request : Request) (result : Except Failure Response) (trace : ServerTrace) : Prop :=
  ∀ id input current expiry, request = .updateLicense id input → input.type = some .subscription →
    input.expiresAt = none → trace.head? = some ⟨.findLicense id, .ok (some current)⟩ →
      current.type ≠ .subscription → current.typeDrafts.subscription = some (some expiry) →
        Refuses expiry result trace

theorem program_refuses (request : Request) :
    (program host request).wp (fun _ _ => True) [] (refusal request) := by
  by_cases returns : ∃ id input, request = .updateLicense id input ∧ input.type = some .subscription ∧
    input.expiresAt = none
  · obtain ⟨id, input, rfl, target, unset⟩ := returns
    refine Prog.wp_bind _ (updateLicense_refuses target unset) (fun license after refuses => ?_)
      (fun error after refuses => ?_)
    all_goals
      intro id' input' current expiry same _ _ head away draft
      cases same
      refine (refuses current expiry head away draft).imp_right fun refuses => refuses.imp_right ?_
      rintro ⟨failure, same⟩
      cases same
    exact ⟨failure, rfl⟩
  · refine Prog.wp_any fun result deeds id input current expiry same target unset => ?_
    exact absurd ⟨id, input, same, target, unset⟩ returns

end Refusals

/-- Drafts of types that a license does not have. An act changes none of them but the
metered one, and that only by a call for the meters; a license that leaves a type stores its
settings; and when an update without settings goes back to the type, it writes those
settings, or is refused when the expiry has passed. -/
theorem dormant_drafts (run : ServerRun host now state) :
    (∀ before event after request id old new, state.view.history = before ++ event :: after →
      state.view.requests event.call = some request → event.before.tables.licenses id = some old →
        event.after.tables.licenses id = some new →
          (∀ type, type ≠ old.row.type → type ≠ new.row.type →
            (type = .metered → request.meters ≠ some id) →
              draftOf new.row.typeDrafts type = draftOf old.row.typeDrafts type) ∧
          (new.row.type ≠ old.row.type → Leaves state.view before event id old new.row.typeDrafts)) ∧
    ∀ id old new early leave between read late current,
      Dormant state.view id old new early leave between read late current →
        Leaves state.view early leave id old current.typeDrafts ∧
        ∀ input, Returns state.view id old.row.type (early ++ leave :: between) read input →
          (∀ response, state.pool read.call = some (.done (.ok response)) →
            ∃ write ∈ state.view.history, write.call = read.call ∧ RowCommit write id) ∧
          (∀ write ∈ state.view.history, write.call = read.call → RowCommit write id →
            ∀ data, write.after.tables.licenses id = some data →
              Restores old.row.toLicenseColumns data.row.toLicenseColumns) ∧
          (old.row.type = .subscription → ∀ expiry result, old.row.expiresAt = some expiry →
            state.pool read.call = some (.done result) →
              Refuses expiry result (state.view.trace read.call)) := by
  refine ⟨fun before event after request id old new shape asked present later =>
    event_drafts run shape asked present later, ?_⟩
  intro id old new early leave between read late current dormant
  obtain ⟨away, kept⟩ := dormant_draft run dormant
  obtain ⟨sofar, request, happened⟩ := server_run_event run dormant.history
  obtain ⟨names, left, listed⟩ :=
    (event_drafts run dormant.history happened.still dormant.present dormant.left).2 dormant.changed
  have draft := kept.trans left
  refine ⟨⟨names, draft, listed⟩, fun input returns => ⟨fun response ended => ?_,
    fun write member own committed data later =>
      returned_restores run dormant returns draft member own committed later, ?_⟩⟩
  · obtain ⟨_, _, _, write, _, _, _, history, -, -, -, -, -, own, committed, -⟩ :=
      success_rewritten run returns.asked rfl ended
    exact ⟨write, by simp [history], own, committed⟩
  intro subscribed expiry result paid ended
  have history : state.view.history = (early ++ leave :: between) ++ read :: late := by
    simp [dormant.history]
  have head := (trace_head history returns.first).trans (congrArg some dormant.read)
  obtain ⟨request, asked, refuses⟩ := (run_allowed (@program_refuses host) run).2.2 _ _ ended
  cases returns.asked.symm.trans asked
  rw [subscribed] at draft away
  refine refuses id input current expiry rfl (subscribed ▸ returns.target) returns.expiry head away ?_
  rw [← paid]
  exact (LicenseTypeDrafts.mk.inj draft).2.1

/-- A subscription that becomes a lifetime license, and goes back at a time without an expiry. -/
def returnedSample (time : Instant) (acts : Nat) : List (Choice Input Move Request) :=
  subscriptionSample ++ sampleCall 2 (.updateLicense sampleId { type := some .lifetime }) 3 11 ++
    sampleCall 3 (.updateLicense sampleId { type := some .subscription }) time acts

def leavesType (event : ServerEvent) : Bool :=
  (event.before.tables.licenses sampleId).any fun old => (event.after.tables.licenses sampleId).any fun new =>
    event.call = 2 ∧ old.row.type = .subscription ∧ old.row.expiresAt = some 100 ∧ new.row.type = .lifetime

theorem leavesType_rows {event : ServerEvent} (holds : leavesType event = true) : ∃ old new,
    event.before.tables.licenses sampleId = some old ∧ event.after.tables.licenses sampleId = some new ∧
      event.call = 2 ∧ old.row.type = .subscription ∧ old.row.expiresAt = some 100 ∧ new.row.type = .lifetime := by
  obtain ⟨old, present, holds⟩ := (Option.any_eq_true _ _).mp holds
  obtain ⟨new, later, types⟩ := (Option.any_eq_true _ _).mp holds
  exact ⟨old, new, present, later, of_decide_eq_true types⟩

def staysAway (event : ServerEvent) : Bool :=
  (event.after.tables.licenses sampleId).all fun data => data.row.type ≠ .subscription

def findsSample (event : ServerEvent) : Bool :=
  event.call = 3 && match event.deed with
  | ⟨.findLicense id, .ok (some _)⟩ => id = sampleId
  | _ => false

theorem findsSample_deed {event : ServerEvent} (holds : findsSample event = true) : event.call = 3 ∧
    ∃ current, event.deed = ⟨.findLicense sampleId, .ok (some current)⟩ := by
  obtain ⟨own, holds⟩ := (Bool.and_eq_true _ _).mp holds
  refine ⟨of_decide_eq_true own, ?_⟩
  split at holds
  · next id current deed =>
    obtain rfl := of_decide_eq_true holds
    exact ⟨current, deed⟩
  · cases holds

def comesBack (succeeds : Bool) (state : ServerState) : Bool :=
  let history := state.view.history
  let rest := eventsAfter leavesType history
  (match state.pool 3 with
    | some (.done (.ok _)) => succeeds
    | some (.done (.error _)) => !succeeds
    | _ => false) &&
  history.any leavesType && rest.any findsSample &&
    (eventsBefore leavesType history).all (fun event => event.call ≠ 3) &&
      (eventsBefore findsSample rest).all (fun event => event.call ≠ 3 && staysAway event)

theorem comesBack_dormant {succeeds : Bool} {time : Instant} {acts : Nat}
    (played : (sampleState (returnedSample time acts)).any (comesBack succeeds) = true) :
    ∃ state old new early leave between read late current result, ServerRun sampleHost 0 state ∧
      old.row.type = .subscription ∧ old.row.expiresAt = some 100 ∧ new.row.type = .lifetime ∧
        Dormant state.view sampleId old new early leave between read late current ∧
        Returns state.view sampleId old.row.type (early ++ leave :: between) read { type := some .subscription } ∧
        read.call = 3 ∧ state.pool 3 = some (.done result) ∧ result.isOk = succeeds := by
  obtain ⟨state, run, holds, started⟩ := sampled_calls played
  simp only [comesBack, Bool.and_eq_true] at holds
  obtain ⟨⟨⟨⟨ended, left⟩, came⟩, early⟩, between⟩ := holds
  obtain ⟨leave, history, left⟩ := first_event left
  obtain ⟨read, rest, found⟩ := first_event came
  obtain ⟨old, new, present, later, second, subscription, expiry, lifetime⟩ := leavesType_rows left
  obtain ⟨own, current, deed⟩ := findsSample_deed found
  obtain ⟨result, done, outcome⟩ : ∃ result, state.pool 3 = some (.done result) ∧ result.isOk = succeeds := by
    split at ended
    · next response done => exact ⟨_, done, ended.symm⟩
    · next error done => exact ⟨_, done, by simpa [Except.isOk, Except.toBool] using ended⟩
    · cases ended
  obtain ⟨request, asked, -⟩ := server_run_outcome run done
  have listed := started 3 request asked
  obtain rfl : request = .updateLicense sampleId { type := some .subscription } := by
    simpa [returnedSample, subscriptionSample, startedCalls, sampleCall, List.filterMap_append] using listed
  rw [List.all_eq_true] at early between
  rw [rest] at history
  refine ⟨state, old, new, _, leave, _, read, _, current, result, run, subscription, expiry, lifetime,
    ⟨history, present, later, ?_, ?_, ?_, deed⟩, ⟨own ▸ asked, congrArg some subscription.symm, rfl, rfl, ?_⟩,
    own, done, outcome⟩
  · simp [subscription, lifetime]
  · intro event member data after
    have away := ((Bool.and_eq_true _ _).mp (between event member)).2
    simpa [staysAway, after, subscription] using away
  · simp [subscription]
  · intro event member
    rw [own]
    rcases List.mem_append.mp member with before | inside
    · exact of_decide_eq_true (early event before)
    · rcases List.mem_cons.mp inside with rfl | after
      · simp [second]
      · exact of_decide_eq_true ((Bool.and_eq_true _ _).mp (between event after)).1

theorem dormant_drafts_sample :
    (∃ (state : ServerState) (before : List ServerEvent) (event write : ServerEvent) (old new data : LicenseData),
      ServerRun sampleHost 0 state ∧
      old.row.type = .subscription ∧ old.row.expiresAt = some 100 ∧ new.row.type = .lifetime ∧
      Leaves state.view before event sampleId old new.row.typeDrafts ∧
      write ∈ state.view.history ∧ write.call = 3 ∧ RowCommit write sampleId ∧
      write.after.tables.licenses sampleId = some data ∧ Restores old.row.toLicenseColumns data.row.toLicenseColumns) ∧
    ∃ state error, ServerRun sampleHost 0 state ∧ state.pool 3 = some (.done (.error error)) ∧
      Refuses 100 (.error error : Except Failure Response) (state.view.trace 3) := by
  constructor
  · obtain ⟨state, old, new, early, leave, between, read, late, current, result, run, subscription, expiry, lifetime,
      dormant, returns, own, done, outcome⟩ := @comesBack_dormant true 4 10 (by decide +kernel)
    obtain ⟨steps, returned⟩ := dormant_drafts run
    obtain ⟨-, back⟩ := returned sampleId old new early leave between read late current dormant
    obtain ⟨written, restores, -⟩ := back _ returns
    cases result with
    | error error => cases outcome
    | ok response =>
        obtain ⟨write, member, mine, committed⟩ := written response (own ▸ done)
        obtain ⟨before, row, -, stored, -⟩ := rowCommit_stamps committed
        obtain ⟨data, after, -⟩ := Option.map_eq_some_iff.mp stored
        obtain ⟨earlier, request, happened⟩ := server_run_event run dormant.history
        exact ⟨state, early, leave, write, old, new, data, run, subscription, expiry, lifetime,
          (steps early leave _ request sampleId old new dormant.history happened.still dormant.present
            dormant.left).2 dormant.changed,
          member, mine.trans own, committed, after, restores write member mine committed data after⟩
  · obtain ⟨state, old, new, early, leave, between, read, late, current, result, run, subscription, expiry, lifetime,
      dormant, returns, own, done, outcome⟩ := @comesBack_dormant false 200 3 (by decide +kernel)
    obtain ⟨-, returned⟩ := dormant_drafts run
    obtain ⟨-, back⟩ := returned sampleId old new early leave between read late current dormant
    obtain ⟨-, -, refuses⟩ := back _ returns
    cases result with
    | ok response => cases outcome
    | error error => exact ⟨state, error, run, done, own ▸ refuses subscription 100 _ expiry (own ▸ done)⟩

end Keyzori
