import Keyzori.Server.Shelter

namespace Keyzori

open Interleaving

variable {host : Host} {request : Request} {view : ServerView} {call other : Nat} {id : LicenseId}
  {act : Act} {next : World} {data : LicenseData} {writes : List Write} {now : Instant} {lock : Lock}

section Others

theorem applyWrites_linkKept {subscriptionId : String} {link : StripeSubscriptionLink}
    (inserted : ∀ new fetched, .insertLink new fetched ∈ writes → new.subscriptionId ≠ subscriptionId)
    (updated : ∀ update fetched, .updateLink update fetched ∈ writes →
      ∀ old, data.link = some old → old.subscriptionId ≠ subscriptionId)
    (linked : (applyWrites now writes data).link = some link)
    (same : link.subscriptionId = subscriptionId) : data.link = some link := by
  induction writes generalizing data with
  | nil => exact linked
  | cons write writes ih =>
      have kept := fun later => @ih (write.apply now data)
        (fun new fetched member => inserted new fetched (.tail _ member)) later linked
      cases write with
      | insertLink new fetched =>
          have before := kept fun update other member old present => by
            rw [← Option.some.inj present]
            exact inserted new fetched (.head _)
          rw [← Option.some.inj before] at same
          exact absurd same (inserted new fetched (.head _))
      | updateLink update fetched =>
          have before := kept fun later other member old present => by
            obtain ⟨earlier, had, rfl⟩ := Option.map_eq_some_iff.mp present
            exact updated update fetched (.head _) earlier had
          obtain ⟨earlier, had, rfl⟩ := Option.map_eq_some_iff.mp before
          exact absurd same (updated update fetched (.head _) earlier had)
      | deleteLink =>
          have before := kept fun update other member old present => by cases present
          cases before
      | _ => exact kept fun update other member => updated update other (.tail _ member)

theorem commits_subscription (sound : Sound view)
    (commits : Commits host request (view.trace call) id writes)
    (present : view.world.tables.licenses id = some data) {subscriptionId : String}
    (held : view.world.locks (.stripe subscriptionId) = some other) (distinct : other ≠ call) :
    writes.foldl (recordSnapshot data.link) view.world.stored subscriptionId =
        view.world.stored subscriptionId ∧
      ∀ link, (applyWrites now writes data).link = some link → link.subscriptionId = subscriptionId →
        data.link = some link := by
  have foreign := locks_foreign sound held distinct
  have links := commits_link sound commits present
  have inserted : ∀ new fetched, .insertLink new fetched ∈ writes →
      new.subscriptionId ≠ subscriptionId := by
    rintro new fetched member rfl
    exact foreign (under_holding (links.1 new fetched member).2.1)
  have updated : ∀ update fetched, .updateLink update fetched ∈ writes →
      ∀ old, data.link = some old → old.subscriptionId ≠ subscriptionId := by
    rintro update fetched member old had rfl
    obtain ⟨link, here, fetch, -⟩ := links.2 update fetched member
    cases had.symm.trans here
    exact foreign (under_holding fetch)
  exact ⟨recordSnapshots_same inserted updated, fun link => applyWrites_linkKept inserted updated⟩

/-- No act changes what another call's lock stands for. -/
theorem effect_sheltered (sound : Sound view) (held : warrant host request (view.trace call) act)
    (effect : Effect call view.world act next) (locked : view.world.locks lock = some other)
    (distinct : other ≠ call) : Sheltered lock view.world next := by
  have rows : ∀ id, lock = .row id ∨ lock = .link id ∨ lock = .registration id ∨ lock = .meter id →
      ∀ data, id ∈ view.world.tables.ids → next.tables.licenses id = some data →
        ∃ before, view.world.tables.licenses id = some before ∧ Shelters lock before data := by
    intro id owner data known present
    cases effect_origin effect present with
    | same _ before => exact ⟨data, before, shelters_refl _ data⟩
    | committed expected writes old now before admitted lawful written exact =>
        exact ⟨old, before, written ▸ commits_shelter sound held before admitted owner locked distinct⟩
    | inserted keyHash keyPrefix new meters now fresh unused written exact => exact absurd known fresh
    | linkError subscriptionId error link old now found owned before free written =>
        obtain ⟨here, -⟩ := findBySubscriptionId_some sound.consistent.tables found
        have linked : old.link = some link := by simpa [Tables.link, owned, before] using here
        refine ⟨old, before, ?_⟩
        rw [written]
        rcases owner with rfl | rfl | rfl | rfl
        · refine ⟨rfl, fun later same => ⟨link, linked, ?_⟩⟩
          cases same
          rfl
        · rw [not_free locked distinct] at free
          cases free
        · rfl
        · rfl
  cases lock with
  | row id => exact rows id (.inl rfl)
  | link id => exact rows id (.inr (.inl rfl))
  | registration id => exact rows id (.inr (.inr (.inl rfl)))
  | meter id => exact rows id (.inr (.inr (.inr rfl)))
  | stripe subscriptionId =>
      constructor
      · cases effect with
        | committed id expected writes data now present =>
            exact (@commits_subscription host request view call other id data writes now sound held
              present subscriptionId locked distinct).1
        | _ => rfl
      · intro id link linked same
        obtain ⟨data, present, owned⟩ := Option.bind_eq_some_iff.mp linked
        cases effect_origin effect present with
        | same _ before => exact ⟨link, by simp [Tables.link, before, owned], .refl link⟩
        | committed expected writes old now before admitted lawful written exact =>
            rw [written] at owned
            have kept := (commits_subscription sound held before locked distinct).2 link owned same
            exact ⟨link, by simp [Tables.link, before, kept], .refl link⟩
        | inserted keyHash keyPrefix new meters now fresh unused written exact =>
            rw [written] at owned
            cases owned
        | linkError other error old oldData now found owner before free written =>
            obtain ⟨here, -⟩ := findBySubscriptionId_some sound.consistent.tables found
            rw [written] at owned
            cases owned
            exact ⟨old, owner ▸ here, rfl⟩

end Others

section Own

theorem own_sheltered (held : warrant host request (view.trace call) act)
    (ended : act.ends = false) (holding : Holding (view.trace call) lock)
    (effect : Effect call view.world act next) : Sheltered lock view.world next := by
  cases effect with
  | released act finished =>
      rw [ended] at finished
      cases finished
  | committed => cases ended
  | inserted id keyHash keyPrefix data meters now => exact absurd holding (held.idle lock)
  | deleted id => exact absurd holding (held.1 lock)
  | cascaded customerId => exact absurd holding (held.1 lock)
  | linkError subscriptionId error => exact absurd holding (held.1 lock)
  | claimed limit now due =>
      refine sheltered_same ?_ ?_ lock
      · exact (claim_tables due now view.world.tables).1
      · rfl
  | _ => exact sheltered_same rfl rfl lock

theorem take_self {world : World} {taken : Lock} (held : world.locks lock = some call) :
    (world.take call taken).locks lock = some call := by
  simp only [World.take]
  by_cases same : lock = taken
  · subst same
    exact Function.update_self _ _ _
  · rwa [Function.update_of_ne same]

theorem effect_keeps (effect : Effect call view.world act next) (ended : act.ends = false)
    (held : view.world.locks lock = some call) : next.locks lock = some call := by
  cases effect with
  | released act finished =>
      rw [ended] at finished
      cases finished
  | committed => cases ended
  | locked taken free => exact take_self held
  | lockedRow id free => exact take_self held
  | lockedLink id subscriptionId free => exact take_self held
  | _ => exact held

theorem exec_takes {world : World} {input : Input} {result : Except Failure act.Val}
    (ran : exec call act input world = some (next, result)) (taken : takes ⟨act, result⟩ = some lock) :
    next.locks lock = some call := by
  have holds : ∀ lock, (world.take call lock).locks lock = some call := fun lock =>
    Function.update_self _ _ _
  cases act with
  | lock other =>
      cases result with
      | error error => cases taken
      | ok value =>
          obtain ⟨-, rfl⟩ : other.advisory = true ∧ other = lock := by simpa [takes] using taken
          rcases acquire_some ran with ⟨-, error, same⟩ | ⟨-, rfl, -⟩
          · cases same
          · exact holds _
  | lockRow id =>
      cases result with
      | error error => cases taken
      | ok value =>
          cases value with
          | none => cases taken
          | some row =>
              cases taken
              simp only [exec] at ran
              split at ran
              · rcases attempt_some ran with ⟨-, error, same⟩ | ⟨-, same⟩ <;> cases same
              · rcases acquire_some ran with ⟨-, error, same⟩ | ⟨-, rfl, -⟩
                · cases same
                · exact holds _
  | lockLink id subscriptionId =>
      cases result with
      | error error => cases taken
      | ok value =>
          cases value with
          | none => cases taken
          | some link =>
              cases taken
              simp only [exec] at ran
              split at ran
              · rcases attempt_some ran with ⟨-, error, same⟩ | ⟨-, same⟩ <;> cases same
              · rcases acquire_some ran with ⟨-, error, same⟩ | ⟨-, rfl, -⟩
                · cases same
                · exact holds _
  | _ => cases taken

end Own

section Step

theorem warrant_wellmade (sound : Sound view) (held : warrant host request (view.trace call) act) :
    Wellmade view.world act := by
  constructor
  · rintro id expected writes link fetched rfl member
    obtain ⟨-, -, paidThrough, now, draw, -, rfl, -⟩ := commits_insertLink held member
    rfl
  · rintro id expected writes write fetched rfl member snapshot
    cases write with
    | insertLink link stored =>
        cases snapshot
        obtain ⟨⟨subscriptionId, -, fetch⟩, -, -⟩ := commits_insertLink held member
        exact (fetched_recall sound fetch).2
    | updateLink update stored =>
        cases snapshot
        obtain ⟨subscriptionId, existing, locked, row, updates⟩ := commits_updateLink held member
        exact (fetched_recall sound updates.reconciling.fetched).2
    | _ => cases snapshot

theorem opened_holding {before after : List ServerEvent} {event : ServerEvent}
    (shape : opened (view.events call) = before ++ event :: after)
    (taker : ∃ taker ∈ before ++ [event], takes taker.deed = some lock) :
    event ∈ view.history ∧ Holding (view.trace call) lock := by
  have listed : ∀ other ∈ before ++ [event], other ∈ opened (view.events call) := by
    intro other member
    rw [shape]
    simp only [List.mem_append, List.mem_cons, List.not_mem_nil, or_false] at member ⊢
    tauto
  constructor
  · exact (List.mem_filter.mp (mem_opened (listed event (by simp)))).1
  · obtain ⟨holder, member, taken⟩ := taker
    refine ⟨holder.deed, ?_, taken⟩
    rw [View.trace, ← opened_deeds]
    exact List.mem_map_of_mem (listed holder member)

theorem act_sound (sound : Sound view) (held : warrant host request (view.trace call) act)
    {input : Input} {result : Except Failure act.Val}
    (ran : exec call act input view.world = some (next, result)) :
    Sound (view.record call act result next) := by
  have effect := exec_effect ran
  have consistent := effect_consistent sound.consistent (warrant_wellmade sound held) effect
  have progress := effect_progress effect
  refine ⟨consistent, fun event member => ?_, ?_, fun caller lock holding => ?_, ?_⟩
  · rcases List.mem_append.mp member with old | new
    · obtain ⟨did, before, after, since⟩ := sound.recorded event old
      exact ⟨did, before, after, since.trans progress⟩
    · cases List.mem_singleton.mp new
      exact ⟨⟨input, ran⟩, sound.consistent, consistent, .refl next⟩
  · refine List.pairwise_append.mpr ⟨sound.ordered, List.pairwise_singleton _ _, ?_⟩
    intro earlier member later single
    cases List.mem_singleton.mp single
    exact (sound.recorded earlier member).progress
  · by_cases same : call = caller
    · subst same
      rw [record_trace_self] at holding
      obtain ⟨ended, old | taken⟩ := holding_append.mp holding
      · exact effect_keeps effect ended (sound.locked call lock old)
      · exact exec_takes ran taken
    · rw [record_trace_other same] at holding
      exact (effect_locks effect (Ne.symm same)).mpr (sound.locked caller lock holding)
  · intro caller before event after lock shape taker
    by_cases same : call = caller
    · subst same
      rw [record_events_self, opened_append] at shape
      split at shape
      · simp at shape
      · next continues =>
        rcases List.eq_nil_or_concat after with rfl | ⟨others, last, rfl⟩
        · obtain ⟨-, single⟩ := List.append_inj' shape rfl
          cases single
          exact sheltered_same rfl rfl lock
        · rw [List.concat_eq_append, ← List.cons_append, ← List.append_assoc] at shape
          obtain ⟨old, -⟩ := List.append_inj' shape rfl
          have kept := sound.sheltered call before event others lock old taker
          obtain ⟨listed, holding⟩ := opened_holding old taker
          refine sheltered_trans (sound.recorded event listed).progress kept ?_
          exact own_sheltered held (Bool.eq_false_iff.mpr continues) holding effect
    · rw [record_events_other same] at shape
      have kept := sound.sheltered caller before event after lock shape taker
      obtain ⟨listed, holding⟩ := opened_holding shape taker
      refine sheltered_trans (sound.recorded event listed).progress kept ?_
      exact effect_sheltered sound held effect (sound.locked caller lock holding) (Ne.symm same)

theorem start_sound (now : Instant) : Sound (.start (World.start now)) := by
  refine ⟨consistent_start now, fun event member => ?_, .nil, fun call lock holding => ?_, ?_⟩
  · cases member
  · obtain ⟨deed, member, -⟩ := holding
    cases member
  · intro call before event after lock shape
    have empty : before ++ event :: after = [] := shape.symm
    simp at empty

theorem move_sheltered (event : Move) (world : World) (lock : Lock) :
    Sheltered lock world (move event world) := by
  cases event <;> exact sheltered_same rfl rfl lock

theorem allowed_sound {view next : ServerView} (sound : Sound view) (step : ServerAllowed host view next) :
    Sound next := by
  cases step with
  | start call request unused idle =>
      exact ⟨sound.consistent, sound.recorded, sound.ordered, sound.locked, sound.sheltered⟩
  | act call request act input world result asked held ran => exact act_sound sound held ran
  | environment event =>
      refine ⟨move_consistent sound.consistent event, fun old member => ?_, sound.ordered,
        fun call lock holding => ?_, ?_⟩
      · obtain ⟨did, before, after, since⟩ := sound.recorded old member
        exact ⟨did, before, after, since.trans (move_progress event view.world)⟩
      · have held := sound.locked call lock holding
        cases event <;> exact held
      · intro call before old after lock shape taker
        have listed := (@opened_holding view _ _ _ _ _ shape taker).1
        refine sheltered_trans (sound.recorded old listed).progress
          (sound.sheltered call before old after lock shape taker) ?_
        exact move_sheltered event view.world lock

end Step

section Runs

theorem allowedRun_sound {first last : ServerView} (run : ServerAllowedRun host first last)
    (sound : Sound first) : Sound last :=
  allowed_invariant (fun _ _ => allowed_sound) run sound

theorem server_run_sound {now : Instant} {state : ServerState} (run : ServerRun host now state) :
    Sound state.view :=
  allowedRun_sound (server_run_allowed run) (start_sound now)

def Throughout (property : LicenseData → Prop) (view : ServerView) : Prop :=
  ∀ world, Visited view world → ∀ id data, world.tables.licenses id = some data → property data

/-- A property of the rows of a license that no warranted act can break. -/
structure Lasting (host : Host) (property : LicenseData → Prop) : Prop where
  created : ∀ {request trace id data table} keyHash keyPrefix now, Creates request trace id data table →
    property ⟨insertedRow id keyHash keyPrefix data now, none, [], [], [], table⟩
  committed : ∀ {view : ServerView} {request call id writes data} now, Sound view →
    Throughout property view → Commits host request (view.trace call) id writes →
      view.world.tables.licenses id = some data → property (applyWrites now writes data)
  relabelled : ∀ {data link} error now, data.link = some link → property data →
    property { data with link := some { link with lastError := some error, updatedAt := now } }

theorem visited_record {call : Nat} {act : Act} {result : Except Failure act.Val} {next world : World}
    (visited : Visited (view.record call act result next) world) : world = next ∨ Visited view world := by
  rcases visited with last | ⟨event, member, same⟩
  · exact .inl last
  · rcases List.mem_append.mp member with old | new
    · exact .inr (.inr ⟨event, old, same⟩)
    · cases List.mem_singleton.mp new
      exact .inr (.inl same)

theorem act_throughout {property : LicenseData → Prop} (lasting : Lasting host property)
    (sound : Sound view) (holds : Throughout property view)
    (held : warrant host request (view.trace call) act) (effect : Effect call view.world act next)
    (present : next.tables.licenses id = some data) : property data := by
  cases effect_origin effect present with
  | same _ before => exact holds _ (.inl rfl) id data before
  | committed expected writes old now before admitted lawful written exact =>
      rw [written]
      exact lasting.committed now sound holds held before
  | inserted keyHash keyPrefix new meters now fresh unused written exact =>
      rw [written]
      exact lasting.created keyHash keyPrefix now held
  | linkError subscriptionId error link old now found owner before free written =>
      obtain ⟨here, -⟩ := findBySubscriptionId_some sound.consistent.tables found
      have linked : old.link = some link := by simpa [Tables.link, owner, before] using here
      rw [written]
      exact lasting.relabelled error now linked (holds _ (.inl rfl) id old before)

theorem allowed_throughout {property : LicenseData → Prop} (lasting : Lasting host property)
    {view next : ServerView} (sound : Sound view) (holds : Throughout property view)
    (step : ServerAllowed host view next) : Throughout property next := by
  cases step with
  | start call request unused idle => exact holds
  | act call request act input world result asked held ran =>
      intro visited seen id data present
      rcases visited_record seen with rfl | before
      · exact act_throughout lasting sound holds held (exec_effect ran) present
      · exact holds visited before id data present
  | environment event =>
      rintro visited (rfl | before) id data present
      · refine holds view.world (.inl rfl) id data ?_
        cases event <;> exact present
      · exact holds visited (.inr before) id data present

theorem allowedRun_throughout {property : LicenseData → Prop} (lasting : Lasting host property)
    (run : ServerAllowedRun host (.start (World.start now)) view) : Throughout property view := by
  have both : Sound view ∧ Throughout property view := by
    induction run with
    | refl =>
        refine ⟨start_sound now, ?_⟩
        rintro visited (rfl | ⟨event, member, -⟩) id data present
        · cases present
        · cases member
    | tail _ step ih =>
        exact ⟨allowed_sound ih.1 step, allowed_throughout lasting ih.1 ih.2 step⟩
  exact both.2

theorem server_run_throughout {property : LicenseData → Prop} (lasting : Lasting host property)
    {state : ServerState} (run : ServerRun host now state) : Throughout property state.view :=
  allowedRun_throughout lasting (server_run_allowed run)

theorem allowed_progress {view next : ServerView} (step : ServerAllowed host view next) :
    Progress view.world next.world := by
  cases step with
  | start call request unused idle => exact .refl _
  | act call request act input world result asked held ran => exact effect_progress (exec_effect ran)
  | environment event => exact move_progress event view.world

theorem allowedRun_progress {first last : ServerView} (run : ServerAllowedRun host first last) :
    Progress first.world last.world := by
  induction run with
  | refl => exact .refl _
  | tail _ step ih => exact ih.trans (allowed_progress step)

structure Happened (host : Host) (now : Instant) (last : ServerView) (before : List ServerEvent)
    (event : ServerEvent) (earlier : ServerView) (request : Request) : Prop where
  start : ServerAllowedRun host (.start (World.start now)) earlier
  sound : Sound earlier
  history : earlier.history = before
  world : earlier.world = event.before
  asked : earlier.requests event.call = some request
  still : last.requests event.call = some request
  held : warrant host request (earlier.trace event.call) event.act
  ran : ∃ input, exec event.call event.act input event.before = some (event.after, event.result)
  rest : ServerAllowedRun host (earlier.record event.call event.act event.result event.after) last

theorem allowedRun_event {now : Instant} {view : ServerView}
    (run : ServerAllowedRun host (.start (World.start now)) view) {before after : List ServerEvent}
    {event : ServerEvent} (shape : view.history = before ++ event :: after) :
    ∃ earlier request, Happened host now view before event earlier request := by
  obtain ⟨earlier, request, input, start, same, world, asked, held, ran, rest⟩ :=
    allowed_event run rfl shape
  have sound := allowedRun_sound start (start_sound now)
  exact ⟨earlier, request, start, sound, same, world, asked, allowed_requests rest asked, held,
    ⟨input, ran⟩, rest⟩

theorem server_run_event {now : Instant} {state : ServerState} (run : ServerRun host now state)
    {before after : List ServerEvent} {event : ServerEvent}
    (shape : state.view.history = before ++ event :: after) :
    ∃ earlier request, Happened host now state.view before event earlier request :=
  allowedRun_event (server_run_allowed run) shape

theorem deed_happened {now : Instant} {view : ServerView}
    (run : ServerAllowedRun host (.start (World.start now)) view) {before after : ServerTrace}
    {deed : ServerDeed} (shape : view.trace call = before ++ deed :: after) :
    ∃ early event late earlier request, view.history = early ++ event :: late ∧
      event.call = call ∧ event.deed = deed ∧ Happened host now view early event earlier request ∧
        earlier.trace call = before := by
  obtain ⟨front, back, events, rfl, tail⟩ := List.map_eq_append_iff.mp shape
  obtain ⟨event, others, rfl, rfl, rfl⟩ := List.map_eq_cons_iff.mp tail
  obtain ⟨early, rest, history, rfl, filtered⟩ := List.filter_eq_append_iff.mp events
  obtain ⟨between, late, rfl, others', own, rfl⟩ := List.filter_eq_cons_iff.mp filtered
  have own : event.call = call := by simpa using own
  obtain ⟨earlier, request, happened⟩ := @allowedRun_event _ _ _ run (early ++ between) late event (by
    rw [history, List.append_assoc])
  refine ⟨early ++ between, event, late, earlier, request, by rw [history, List.append_assoc], own, rfl,
    happened, ?_⟩
  have silent : between.filter (fun event => event.call = call) = [] := List.filter_eq_nil_iff.mpr others'
  rw [View.trace, View.events, happened.history, List.filter_append, silent, List.append_nil]

theorem happened_run {now : Instant} {last earlier : ServerView} {before : List ServerEvent}
    {event : ServerEvent} {request : Request}
    (happened : Happened host now last before event earlier request) :
    ServerAllowedRun host earlier last := by
  obtain ⟨input, ran⟩ := happened.ran
  rw [← happened.world] at ran
  exact (Relation.ReflTransGen.single (.act earlier event.call request event.act input event.after
    event.result happened.asked happened.held ran)).trans happened.rest

/-- A relation between the rows of a license that warranted acts keep. -/
structure Moving (host : Host) (property : LicenseData → Prop)
    (relation : LicenseData → LicenseData → Prop) : Prop where
  refl : ∀ data, relation data data
  trans : ∀ {first second third}, relation first second → relation second third → relation first third
  committed : ∀ {view : ServerView} {request call id writes data} now, Sound view →
    Throughout property view → Commits host request (view.trace call) id writes →
      view.world.tables.licenses id = some data → relation data (applyWrites now writes data)
  relabelled : ∀ {data link} error now, data.link = some link →
    relation data { data with link := some { link with lastError := some error, updatedAt := now } }

theorem allowed_moving {property : LicenseData → Prop} {relation : LicenseData → LicenseData → Prop}
    (moving : Moving host property relation) {view next : ServerView} (sound : Sound view)
    (holds : Throughout property view) (step : ServerAllowed host view next) {data : LicenseData}
    (known : id ∈ view.world.tables.ids) (present : next.world.tables.licenses id = some data) :
    ∃ before, view.world.tables.licenses id = some before ∧ relation before data := by
  cases step with
  | start call request unused idle => exact ⟨data, present, moving.refl data⟩
  | act call request act input world result asked held ran =>
      cases effect_origin (exec_effect ran) present with
      | same _ before => exact ⟨data, before, moving.refl data⟩
      | committed expected writes old stamp before admitted lawful written exact =>
          exact ⟨old, before, written ▸ moving.committed stamp sound holds held before⟩
      | inserted keyHash keyPrefix new meters stamp fresh => exact absurd known fresh
      | linkError subscriptionId error link old stamp found owner before free written =>
          obtain ⟨here, -⟩ := findBySubscriptionId_some sound.consistent.tables found
          have linked : old.link = some link := by simpa [Tables.link, owner, before] using here
          exact ⟨old, before, written ▸ moving.relabelled error stamp linked⟩
  | environment event =>
      refine ⟨data, ?_, moving.refl data⟩
      cases event <;> exact present

theorem allowedRun_moving {property : LicenseData → Prop} {relation : LicenseData → LicenseData → Prop}
    (lasting : Lasting host property) (moving : Moving host property relation)
    {first last : ServerView} (run : ServerAllowedRun host first last) (sound : Sound first)
    (holds : Throughout property first) {data : LicenseData} (known : id ∈ first.world.tables.ids)
    (present : last.world.tables.licenses id = some data) :
    ∃ before, first.world.tables.licenses id = some before ∧ relation before data := by
  have all : (Sound last ∧ Throughout property last ∧ id ∈ last.world.tables.ids) ∧
      ∀ data, last.world.tables.licenses id = some data →
        ∃ before, first.world.tables.licenses id = some before ∧ relation before data := by
    clear present
    induction run with
    | refl => exact ⟨⟨sound, holds, known⟩, fun data present => ⟨data, present, moving.refl data⟩⟩
    | tail _ step ih =>
        obtain ⟨⟨sound, holds, known⟩, earlier⟩ := ih
        refine ⟨⟨allowed_sound sound step, allowed_throughout lasting sound holds step,
          (allowed_progress step).ids id known⟩, fun data present => ?_⟩
        obtain ⟨middle, between, late⟩ := allowed_moving moving sound holds step known present
        obtain ⟨before, there, early⟩ := earlier middle between
        exact ⟨before, there, moving.trans early late⟩
  exact all.2 data present

theorem event_moving_after {property : LicenseData → Prop} {relation : LicenseData → LicenseData → Prop}
    (lasting : Lasting host property) (moving : Moving host property relation) {now : Instant}
    {state : ServerState} (run : ServerRun host now state) {event : ServerEvent}
    (member : event ∈ state.view.history) {old new : LicenseData}
    (present : event.after.tables.licenses id = some old)
    (later : state.view.world.tables.licenses id = some new) : relation old new := by
  obtain ⟨before, after, shape⟩ := List.append_of_mem member
  obtain ⟨earlier, request, happened⟩ := server_run_event run shape
  obtain ⟨input, ran⟩ := happened.ran
  have reached := happened.start.tail
    (.act earlier event.call request event.act input event.after event.result happened.asked happened.held
      (happened.world ▸ ran))
  have sound := allowedRun_sound reached (start_sound now)
  have known := sound.consistent.tables.known id (Option.ne_none_iff_exists'.mpr ⟨old, present⟩)
  obtain ⟨found, there, moved⟩ := allowedRun_moving lasting moving happened.rest sound
    (allowedRun_throughout lasting reached) known later
  cases present.symm.trans there
  exact moved

theorem event_moving {property : LicenseData → Prop} {relation : LicenseData → LicenseData → Prop}
    (lasting : Lasting host property) (moving : Moving host property relation) {now : Instant}
    {state : ServerState} (run : ServerRun host now state) {event : ServerEvent}
    (member : event ∈ state.view.history) {old new : LicenseData}
    (present : event.before.tables.licenses id = some old)
    (later : state.view.world.tables.licenses id = some new) : relation old new := by
  obtain ⟨before, after, shape⟩ := List.append_of_mem member
  obtain ⟨earlier, request, happened⟩ := server_run_event run shape
  rw [← happened.world] at present
  have known := happened.sound.consistent.tables.known id (Option.ne_none_iff_exists'.mpr ⟨old, present⟩)
  obtain ⟨found, there, moved⟩ := allowedRun_moving lasting moving (happened_run happened)
    happened.sound (allowedRun_throughout lasting happened.start) known later
  cases present.symm.trans there
  exact moved

inductive Changes (host : Host) (request : Request) (earlier : ServerView) (event : ServerEvent)
    (id : LicenseId) (old : LicenseData) : LicenseData → Prop
  | kept : Changes host request earlier event id old old
  | committed (expected : Option Instant) (writes : List Write) (stamp : Instant)
      (act : event.act = .commit id expected writes)
      (commits : Commits host request (earlier.trace event.call) id writes) :
      Changes host request earlier event id old (applyWrites stamp writes old)
  | relabelled (link : StripeSubscriptionLink) (error : String) (stamp : Instant)
      (linked : old.link = some link) : Changes host request earlier event id old { old with
        link := some { link with lastError := some error, updatedAt := stamp } }

theorem happened_changes {now : Instant} {last earlier : ServerView} {before : List ServerEvent}
    {event : ServerEvent} {old new : LicenseData}
    (happened : Happened host now last before event earlier request)
    (present : event.before.tables.licenses id = some old)
    (later : event.after.tables.licenses id = some new) : Changes host request earlier event id old new := by
  have held := happened.held
  have sound : TablesSound event.before := happened.world ▸ happened.sound.consistent.tables
  obtain ⟨input, ran⟩ := happened.ran
  obtain ⟨call, act, result, world, next⟩ := event
  cases effect_origin (exec_effect ran) later with
  | same _ kept =>
      cases present.symm.trans kept
      exact .kept
  | committed expected writes data stamp there admitted lawful written exact =>
      cases present.symm.trans there
      rw [written]
      exact .committed expected writes stamp rfl held
  | inserted keyHash keyPrefix data meters stamp fresh =>
      exact absurd (sound.known id (Option.ne_none_iff_exists'.mpr ⟨old, present⟩)) fresh
  | linkError subscriptionId error link data stamp found owner there free written =>
      cases present.symm.trans there
      obtain ⟨here, -⟩ := findBySubscriptionId_some sound found
      have linked : old.link = some link := by
        rw [Tables.link, owner] at here
        rw [present] at here
        exact here
      rw [written]
      exact .relabelled link error stamp linked

theorem event_changes {now : Instant} {state : ServerState} {before after : List ServerEvent}
    {event : ServerEvent} {old new : LicenseData} (run : ServerRun host now state)
    (shape : state.view.history = before ++ event :: after)
    (present : event.before.tables.licenses id = some old)
    (later : event.after.tables.licenses id = some new) : ∃ earlier request,
      Happened host now state.view before event earlier request ∧
        earlier.world.tables.licenses id = some old ∧ Changes host request earlier event id old new := by
  obtain ⟨earlier, request, happened⟩ := server_run_event run shape
  exact ⟨earlier, request, happened, happened.world ▸ present, happened_changes happened present later⟩

theorem happened_creates {now : Instant} {last earlier : ServerView} {before : List ServerEvent}
    {event : ServerEvent} {new : LicenseData}
    (happened : Happened host now last before event earlier request)
    (absent : event.before.tables.licenses id = none)
    (later : event.after.tables.licenses id = some new) : ∃ keyHash keyPrefix data table stamp,
      event.act = .insertLicense id keyHash keyPrefix data table ∧ id ∉ event.before.tables.ids ∧
        Creates request (earlier.trace event.call) id data table ∧
        new = ⟨insertedRow id keyHash keyPrefix data stamp, none, [], [], [], table⟩ := by
  have held := happened.held
  obtain ⟨input, ran⟩ := happened.ran
  obtain ⟨call, act, result, world, next⟩ := event
  cases effect_origin (exec_effect ran) later with
  | same _ kept => cases absent.symm.trans kept
  | committed expected writes data stamp there => cases absent.symm.trans there
  | inserted keyHash keyPrefix data table stamp fresh unused written exact =>
      exact ⟨keyHash, keyPrefix, data, table, stamp, rfl, fresh, held, written⟩
  | linkError subscriptionId error link data stamp found owner there => cases absent.symm.trans there

/-- What holds of the rows of a license from its creation on, if every event keeps it. -/
theorem allowedRun_always {now : Instant} {view : ServerView}
    (run : ServerAllowedRun host (.start (World.start now)) view) {property : LicenseData → Prop}
    (created : ∀ event ∈ view.history, ∀ new, event.before.tables.licenses id = none →
      event.after.tables.licenses id = some new → property new)
    (kept : ∀ event ∈ view.history, ∀ old new, event.before.tables.licenses id = some old →
      event.after.tables.licenses id = some new → property old → property new) :
    ∀ world, Visited view world → ∀ data, world.tables.licenses id = some data → property data := by
  have always := @allowed_always _ _ _ _ _ _ _ _ (server host) (warrant host)
    (fun world => ∀ data, world.tables.licenses id = some data → property data) _ _
    (fun event world => by cases event <;> rfl) run rfl
    (fun data present => by cases present) fun event member holds new later => by
      cases before : event.before.tables.licenses id with
      | none => exact created event member new before later
      | some old => exact kept event member old new before later (holds old before)
  rintro world (rfl | ⟨event, member, rfl⟩)
  · exact always.1
  · exact always.2 event member

end Runs

end Keyzori
