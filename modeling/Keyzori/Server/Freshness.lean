import Keyzori.Inbox.Leases
import Keyzori.Server.Shape
import Keyzori.Server.Snapshots
import Keyzori.Server.Versions

namespace Keyzori

open Interleaving

variable {host : Host} {request : Request} {view : ServerView} {call : Nat} {id : LicenseId}
  {act : Act} {next : World} {data : LicenseData} {writes : List Write} {now : Instant}
  {link : StripeSubscriptionLink} {subscriptionId : String} {tick : Nat} {state : ServerState}

section Sources

structure Sourced (view : ServerView) : Prop where
  stored : ∀ subscriptionId, ∀ snapshot ∈ view.world.stored subscriptionId, ∃ fetch ∈ view.history,
    fetch.deed = ⟨.getSubscription subscriptionId, .ok snapshot.fetched⟩
  received : ∀ event ∈ view.world.tables.events, ∃ receipt ∈ view.history,
    (∃ new, receipt.act = .enqueue new ∧ new.eventId = event.eventId) ∧
      receipt.before.ticks = view.world.received event.eventId
  marked : ∀ event ∈ view.world.tables.events, event.status = .processed →
    ∃ mark ∈ view.history, ∃ processedAt, mark.act = .markProcessed event.eventId processedAt

theorem effect_marked {world : World} (effect : Effect call world act next) {event : StripeWebhookEvent}
    (member : event ∈ next.tables.events) (processed : event.status = .processed) :
    event ∈ world.tables.events ∨ ∃ processedAt, act = .markProcessed event.eventId processedAt := by
  cases effect with
  | enqueued new stamp unused =>
      rcases List.mem_append.mp member with old | added
      · exact .inl old
      · rw [List.mem_singleton.mp added] at processed
        cases processed
  | claimed limit stamp due =>
      rcases Inbox.claimAll_member member with ⟨-, processing, -⟩ | ⟨-, old⟩
      · cases processing.symm.trans processed
      · exact .inl old
  | processed eventId stamp =>
      obtain ⟨old, known, same⟩ := Inbox.updateEvent_member member
      split at same
      · next own =>
        exact .inr ⟨stamp, by rw [same, own]⟩
      · exact .inl (same ▸ known)
  | failed eventId error stamp =>
      obtain ⟨old, known, same⟩ := Inbox.updateEvent_member member
      split at same
      · rw [same] at processed
        cases processed
      · exact .inl (same ▸ known)
  | _ => exact .inl member

theorem effect_received {world : World} (effect : Effect call world act next) {event : StripeWebhookEvent}
    (member : event ∈ next.tables.events) :
    ((∃ old ∈ world.tables.events, old.eventId = event.eventId) ∧
        next.received event.eventId = world.received event.eventId) ∨
      (∃ new, act = .enqueue new ∧ new.eventId = event.eventId) ∧
        next.received event.eventId = world.ticks := by
  have origin := effect_events effect member
  have progress := effect_progress effect
  have kept : (∃ old ∈ world.tables.events, old.eventId = event.eventId) →
      next.received event.eventId = world.received event.eventId := by
    rintro ⟨old, known, same⟩
    exact progress.received _ (List.mem_map.mpr ⟨old, known, same⟩)
  rcases origin with ⟨old, known, same, -⟩ | fresh
  · exact .inl ⟨⟨old, known, same⟩, kept ⟨old, known, same⟩⟩
  · cases effect with
    | enqueued new stamp unused =>
        rcases List.mem_append.mp member with old | added
        · exact absurd (List.mem_map_of_mem old) fresh
        · rw [List.mem_singleton.mp added]
          exact .inr ⟨⟨new, rfl, rfl⟩, Function.update_self _ _ _⟩
    | claimed limit stamp due =>
        obtain ⟨old, known, same, -⟩ := claim_origin member
        exact absurd (List.mem_map.mpr ⟨old, known, same⟩) fresh
    | processed eventId stamp | failed eventId error stamp =>
        obtain ⟨old, known, same, -⟩ := updateEvent_origin member fun _ => ⟨rfl, rfl⟩
        exact absurd (List.mem_map.mpr ⟨old, known, same⟩) fresh
    | _ => exact absurd (List.mem_map_of_mem member) fresh

theorem act_sourced (sound : Sound view) (sourced : Sourced view)
    (held : warrant host request (view.trace call) act) {input : Input} {result : Except Failure act.Val}
    (ran : exec call act input view.world = some (next, result)) :
    Sourced (view.record call act result next) := by
  have effect := exec_effect ran
  have older : ∀ subscriptionId, ∀ snapshot ∈ view.world.stored subscriptionId,
      ∃ fetch ∈ (view.record call act result next).history,
        fetch.deed = ⟨.getSubscription subscriptionId, .ok snapshot.fetched⟩ := by
    intro subscriptionId snapshot member
    obtain ⟨fetch, listed, deed⟩ := sourced.stored subscriptionId snapshot member
    exact ⟨fetch, List.mem_append_left _ listed, deed⟩
  refine ⟨fun subscriptionId snapshot member => ?_, fun event member => ?_, fun event member processed => ?_⟩
  · change snapshot ∈ next.stored subscriptionId at member
    cases effect_recording sound held effect with
    | silent stored links => exact older subscriptionId snapshot (stored ▸ member)
    | snapshot id link new linked others stored fetched =>
        rw [stored] at member
        by_cases subscription : subscriptionId = link.subscriptionId
        · subst subscription
          rw [Function.update_self] at member
          rcases List.mem_cons.mp member with rfl | old
          · obtain ⟨fetch, listed, -, deed⟩ := trace_event (within_took (under_within fetched))
            exact ⟨fetch, List.mem_append_left _ listed, deed⟩
          · exact older _ snapshot old
        · rw [Function.update_of_ne subscription] at member
          exact older subscriptionId snapshot member
  · rcases effect_received effect member with ⟨⟨old, known, same⟩, kept⟩ | ⟨enqueues, first⟩
    · obtain ⟨receipt, listed, ⟨new, enqueued, eventId⟩, ticks⟩ := sourced.received old known
      refine ⟨receipt, List.mem_append_left _ listed, ⟨new, enqueued, eventId.trans same⟩, ?_⟩
      exact (ticks.trans (congrArg _ same)).trans kept.symm
    · exact ⟨_, List.mem_append_right _ (.head _), enqueues, first.symm⟩
  · rcases effect_marked effect member processed with old | ⟨processedAt, marks⟩
    · obtain ⟨mark, listed, marks⟩ := sourced.marked event old processed
      exact ⟨mark, List.mem_append_left _ listed, marks⟩
    · exact ⟨_, List.mem_append_right _ (.head _), processedAt, marks⟩

theorem allowedRun_sourced (run : ServerAllowedRun host (.start (World.start now)) view) : Sourced view := by
  have both : Sound view ∧ Sourced view := by
    induction run with
    | refl => exact ⟨start_sound now, ⟨fun _ _ member => (by cases member),
        fun _ member => (by cases member), fun _ member => by cases member⟩⟩
    | tail _ step ih =>
        refine ⟨allowed_sound ih.1 step, ?_⟩
        cases step with
        | start call request unused idle => exact ⟨ih.2.stored, ih.2.received, ih.2.marked⟩
        | act call request act input world result asked held ran => exact act_sourced ih.1 ih.2 held ran
        | environment event => cases event <;> exact ⟨ih.2.stored, ih.2.received, ih.2.marked⟩
  exact both.2

end Sources

section Fetches

/-- What the call has fetched of the subscription under its lock was fetched after a tick. -/
def FetchedAfter (view : ServerView) (subscriptionId : String) (tick call : Nat) : Prop :=
  ∀ fetched, Fetched (view.trace call) subscriptionId fetched → tick < fetched.fetchedAt

theorem act_fetchedAfter {other : Nat} (late : tick < view.world.ticks)
    (after : FetchedAfter view subscriptionId tick other) {input : Input} {result : Except Failure act.Val}
    (ran : exec call act input view.world = some (next, result)) :
    FetchedAfter (view.record call act result next) subscriptionId tick other := by
  intro fetched fetch
  by_cases own : call = other
  · subst own
    rw [Fetched, record_trace_self, under_append] at fetch
    rcases fetch.2 with old | ⟨-, same⟩
    · exact after fetched old
    · cases same
      obtain ⟨-, first, -⟩ := exec_getSubscription ran
      rw [first]
      exact late
  · rw [Fetched, record_trace_other own] at fetch
    exact after fetched fetch

theorem allowed_fetchedAfter {view next : ServerView} (step : ServerAllowed host view next)
    (late : tick < view.world.ticks) (after : FetchedAfter view subscriptionId tick call) :
    FetchedAfter next subscriptionId tick call := by
  cases step with
  | start other request unused idle => exact after
  | act other request act input world result asked held ran => exact act_fetchedAfter late after ran
  | environment event => exact after

theorem allowedRun_fetchedAfter {first last : ServerView} (run : ServerAllowedRun host first last)
    (late : tick < first.world.ticks) (after : FetchedAfter first subscriptionId tick call) :
    tick < last.world.ticks ∧ FetchedAfter last subscriptionId tick call :=
  @allowed_invariant _ _ _ _ _ _ _ _ _ _
    (fun view => tick < view.world.ticks ∧ FetchedAfter view subscriptionId tick call) _ _
    (fun _ _ holds step => ⟨holds.1.trans_le (allowed_progress step).ticks,
      allowed_fetchedAfter step holds.1 holds.2⟩) run ⟨late, after⟩

/-- A link of the subscription shows a snapshot fetched after the tick, and every later one will. -/
structure Renewed (view : ServerView) (subscriptionId : String) (tick : Nat) : Prop where
  late : tick < view.world.ticks
  shown : ∀ id link, view.world.tables.link id = some link → link.subscriptionId = subscriptionId →
    ∀ newest older, view.world.stored subscriptionId = newest :: older → tick < newest.fetched.fetchedAt
  after : ∀ call, FetchedAfter view subscriptionId tick call

theorem recording_renewed {next : World} (recording : Recording view call next)
    (after : FetchedAfter view subscriptionId tick call)
    (shown : ∀ id link, view.world.tables.link id = some link → link.subscriptionId = subscriptionId →
      ∀ newest older, view.world.stored subscriptionId = newest :: older → tick < newest.fetched.fetchedAt) :
    ∀ id link, next.tables.link id = some link → link.subscriptionId = subscriptionId →
      ∀ newest older, next.stored subscriptionId = newest :: older → tick < newest.fetched.fetchedAt := by
  intro id link linked subscription newest older shape
  cases recording with
  | silent stored links =>
      obtain ⟨before, there, relabels⟩ := links id link linked
      rw [Relabels] at relabels
      rw [relabels] at subscription
      exact shown id before there subscription newest older (stored ▸ shape)
  | snapshot owner own snapshot made others stored fetched =>
      rw [stored] at shape
      by_cases same : subscriptionId = own.subscriptionId
      · subst same
        rw [Function.update_self] at shape
        cases shape
        exact after _ fetched
      · rw [Function.update_of_ne same] at shape
        by_cases here : id = owner
        · subst here
          cases linked.symm.trans made
          exact absurd subscription.symm same
        · exact shown id link (others id here ▸ linked) subscription newest older shape

theorem allowed_renewed {view next : ServerView} (sound : Sound view) (step : ServerAllowed host view next)
    (renewed : Renewed view subscriptionId tick) : Renewed next subscriptionId tick := by
  refine ⟨renewed.late.trans_le (allowed_progress step).ticks, ?_,
    fun call => allowed_fetchedAfter step renewed.late (renewed.after call)⟩
  cases step with
  | start call request unused idle => exact renewed.shown
  | act call request act input world result asked held ran =>
      exact recording_renewed (effect_recording sound held (exec_effect ran)) (renewed.after call) renewed.shown
  | environment event => cases event <;> exact renewed.shown

theorem allowedRun_renewed {first last : ServerView} (run : ServerAllowedRun host first last) (sound : Sound first)
    (renewed : Renewed first subscriptionId tick) : Renewed last subscriptionId tick := by
  have both : Sound last ∧ Renewed last subscriptionId tick := by
    induction run with
    | refl => exact ⟨sound, renewed⟩
    | tail _ step ih => exact ⟨allowed_sound ih.1 step, allowed_renewed ih.1 step ih.2⟩
  exact both.2

end Fetches

section Settled

variable {result : Except Failure act.Val}

theorem settles_holding {trace : ServerTrace} {deed : ServerDeed}
    (settles : Settles request trace subscriptionId deed) : Holding trace (.stripe subscriptionId) := by
  cases settles with
  | unlinked held => exact held
  | vanished id existing candidate => exact under_holding candidate
  | committed id existing locked row fetched writes result reconciling => exact under_holding reconciling.fetched

theorem exec_lockLink_none {input : Input} {before after : World}
    (ran : exec call (.lockLink id subscriptionId) input before = some (after, .ok none)) :
    after = before ∧ ∀ link, before.tables.link id = some link → link.subscriptionId ≠ subscriptionId := by
  simp only [exec] at ran
  split at ran
  · next absent =>
    rcases attempt_some ran with ⟨-, error, same⟩ | ⟨same, -⟩
    · cases same
    · refine ⟨same, fun link linked subscription => ?_⟩
      simp [linked, subscription] at absent
  · rcases acquire_some ran with ⟨-, error, same⟩ | ⟨-, -, returned⟩
    · cases same
    · cases returned

/-- After a reconciliation its subscription has no link, or one that shows its snapshot. -/
theorem settles_shown (sound : Sound view) (held : warrant host request (view.trace call) act)
    (settles : Settles request (view.trace call) subscriptionId ⟨act, result⟩)
    (after : FetchedAfter view subscriptionId tick call) {input : Input}
    (ran : exec call act input view.world = some (next, result)) :
    ∀ id link, next.tables.link id = some link → link.subscriptionId = subscriptionId →
      ∀ newest older, next.stored subscriptionId = newest :: older → tick < newest.fetched.fetchedAt := by
  intro id link linked subscription newest older shape
  generalize deed : (⟨act, result⟩ : ServerDeed) = settling at settles
  cases settles with
  | unlinked holding =>
      cases deed
      obtain ⟨rfl, absent⟩ := exec_query ran
      exact absurd subscription (findBySubscriptionId_none sound.consistent.tables absent.symm linked)
  | vanished owner existing candidate same =>
      cases deed
      obtain ⟨rfl, gone⟩ := exec_lockLink_none ran
      obtain ⟨rfl, -⟩ := stripe_link sound candidate linked subscription
      exact absurd subscription (gone link (same ▸ linked))
  | committed owner existing locked row fetched writes result reconciling writing =>
      cases deed
      obtain ⟨candidate, same, read⟩ := reconciling.candidate
      have owned : ∀ other shown, view.world.tables.link other = some shown →
          shown.subscriptionId = subscriptionId → other = owner := fun other shown there subscribed =>
        (stripe_link sound read there subscribed).1.trans same
      cases result with
      | none =>
          have missed := exec_commit_missed ran
          rcases runCommit_some ran with ⟨rfl, -⟩ | ⟨data, present, -⟩
          · obtain rfl := owned id link linked subscription
            change view.world.tables.link id = some link at linked
            simp [Tables.link, missed] at linked
          · cases missed.symm.trans present
      | some written =>
          obtain ⟨present, -, rfl⟩ := exec_commit ran
          obtain ⟨subscribed, kept⟩ := locked_link sound reconciling.locked
          rcases writing with rfl | ⟨update, member⟩
          · by_cases here : id = owner
            · subst here
              simp [Tables.link, World.release, World.write, World.setLicense, applyWrites, Write.apply,
                Write.applyLink] at linked
            · have there : view.world.tables.link id = some link := by
                simpa [Tables.link, World.release, World.write, World.setLicense,
                  Function.update_of_ne here] using linked
              exact absurd (owned id link there subscription) here
          · obtain ⟨-, -, -, -, -, -, drawn, -, rfl⟩ := commits_updateLink held member
            have stored : ((view.world.write owner written.before input.draw.now
                (.updateLink update fetched :: (fetched.snapshot.paidThrough.map Write.setExpiresAt).toList)).release
                  call).stored subscriptionId =
                ⟨fetched, update.lastSyncedAt, false⟩ :: view.world.stored subscriptionId := by
              rw [← subscribed]
              simp only [World.release, World.write, kept written.before present]
              cases fetched.snapshot.paidThrough <;> exact Function.update_self _ _ _
            cases stored.symm.trans shape
            exact after fetched reconciling.fetched

theorem settles_renewed (sound : Sound view) (asked : view.requests call = some request)
    (held : warrant host request (view.trace call) act)
    (settles : Settles request (view.trace call) subscriptionId ⟨act, result⟩) (late : tick < view.world.ticks)
    (after : FetchedAfter view subscriptionId tick call) {input : Input}
    (ran : exec call act input view.world = some (next, result)) :
    Renewed (view.record call act result next) subscriptionId tick := by
  have everyone : ∀ other, FetchedAfter view subscriptionId tick other := by
    intro other fetched fetch
    have locked := sound.locked other _ (under_holding fetch)
    obtain rfl := Option.some.inj (locked.symm.trans (sound.locked call _ (settles_holding settles)))
    exact after fetched fetch
  refine ⟨late.trans_le (effect_ticks (exec_effect ran)), settles_shown sound held settles after ran,
    fun other => act_fetchedAfter late (everyone other) ran⟩

theorem exec_claimDue {limit : Nat} {events : List StripeWebhookEvent} {input : Input} {before after : World}
    (ran : exec call (.claimDue limit now) input before = some (after, .ok events)) :
    ∀ event ∈ events, ∃ old ∈ before.tables.events, old.eventId = event.eventId ∧
      StripeWebhookService.eventSubscription old = StripeWebhookService.eventSubscription event := by
  intro event member
  rcases attempt_some ran with ⟨-, error, same⟩ | ⟨-, returned⟩
  · cases same
  · rw [Except.ok.inj returned] at member
    obtain ⟨old, due, rfl⟩ := List.mem_map.mp member
    exact ⟨old, (Inbox.dueEvents_member due).1, rfl, rfl⟩

theorem claimed_event {world after : World} {limit : Nat} {events : List StripeWebhookEvent} {input : Input}
    {claimed event : StripeWebhookEvent}
    (ran : exec call (.claimDue limit now) input world = some (after, .ok events)) (listed : claimed ∈ events)
    (consistent : Consistent world) {last : World} (progress : Progress world last)
    (member : event ∈ last.tables.events) (same : claimed.eventId = event.eventId) :
    StripeWebhookService.eventSubscription claimed = StripeWebhookService.eventSubscription event ∧
      last.received event.eventId < world.ticks := by
  obtain ⟨old, known, oldId, origin⟩ := exec_claimDue ran claimed listed
  have inbox : old.eventId = event.eventId := oldId.trans same
  have there : event.eventId ∈ world.tables.events.map StripeWebhookEvent.eventId :=
    List.mem_map.mpr ⟨old, known, inbox⟩
  obtain ⟨before, stored, beforeId, earlier⟩ := progress.events event member there
  obtain rfl : before = old := List.inj_on_of_nodup_map consistent.inbox.distinct stored known
    (beforeId.trans inbox.symm)
  refine ⟨origin.symm.trans earlier, ?_⟩
  rw [progress.received _ there, ← inbox]
  exact consistent.inbox.received before known

theorem recorded_ran (sound : Sound view) {event : ServerEvent} {value : act.Val} (member : event ∈ view.history)
    (deed : event.deed = ⟨act, .ok value⟩) : ∃ input, exec event.call act input event.before =
      some (event.after, .ok value) ∧ Consistent event.before ∧ Progress event.before view.world := by
  obtain ⟨ran, before, -, progress⟩ := sound.recorded event member
  obtain ⟨input, ran⟩ := deed_ran deed ran
  exact ⟨input, ran, before, (effect_progress (exec_effect ran)).trans progress⟩

theorem processes_renewed (run : ServerAllowedRun host (.start (World.start now)) view)
    (asked : view.requests call = some request) {event : StripeWebhookEvent}
    (processes : Processes request (view.trace call) event.eventId) (member : event ∈ view.world.tables.events)
    (subscription : StripeWebhookService.eventSubscription event = some subscriptionId)
    (named : subscriptionId ≠ "") : Renewed view subscriptionId (view.world.received event.eventId) := by
  have sound := allowedRun_sound run (start_sound now)
  obtain ⟨-, limit, claimedAt, events, claimed, listed, same, took, settled⟩ := processes
  obtain ⟨claim, known, -, deed⟩ := trace_event took
  obtain ⟨input, ran, consistent, progress⟩ := recorded_ran sound known deed
  have origin := (claimed_event ran listed consistent progress member same).1.trans subscription
  obtain ⟨before, settling, after, shape, settles, ordered⟩ := settled subscriptionId origin named
  obtain ⟨early, last, late, earlier, asker, -, own, rfl, happened, start⟩ := deed_happened run shape
  subst own
  cases happened.still.symm.trans asked
  -- The claim again, now as an act before the reconciliation ended.
  have claimed' : Took (earlier.trace last.call) (.claimDue limit claimedAt) events := by
    obtain ⟨front, rest, rfl, -⟩ := ordered
    rw [Took, start]
    simp
  obtain ⟨claim, known, own, deed⟩ := trace_event claimed'
  obtain ⟨input, ran, consistent, progress⟩ := recorded_ran happened.sound known deed
  obtain ⟨front, rest, split⟩ := List.append_of_mem known
  obtain ⟨first, asker, begun⟩ := allowedRun_event happened.start split
  have received : view.world.received event.eventId < claim.before.ticks :=
    (claimed_event ran listed consistent (progress.trans (allowedRun_progress (happened_run happened)))
      member same).2
  have idle : Idle (first.trace claim.call) := by
    have held := begun.held
    rw [show claim.act = .claimDue limit claimedAt from congrArg Deed.act deed] at held
    exact held.1
  have nothing : FetchedAfter first subscriptionId (view.world.received event.eventId) last.call :=
    fun fetched fetch => absurd (under_holding fetch) (own ▸ idle _)
  obtain ⟨input', did⟩ := begun.ran
  rw [← begun.world] at did received
  obtain ⟨later, fetchedAfter⟩ := allowedRun_fetchedAfter begun.rest
    (received.trans_le (effect_ticks (exec_effect did))) (act_fetchedAfter received nothing did)
  obtain ⟨input'', settled'⟩ := happened.ran
  rw [← happened.world] at settled'
  refine allowedRun_renewed happened.rest (act_sound happened.sound happened.held settled') ?_
  exact settles_renewed happened.sound happened.asked happened.held (start ▸ settles) later fetchedAfter settled'

end Settled

section Runs

theorem processes_grown {trace longer : ServerTrace} {eventId : String}
    (processes : Processes request trace eventId) (grown : trace <+: longer) :
    Processes request longer eventId := by
  obtain ⟨asked, limit, claimedAt, events, event, member, same, took, settled⟩ := processes
  exact ⟨asked, limit, claimedAt, events, event, member, same, grown.subset took,
    fun subscriptionId subscription named => settled_prefix (settled subscriptionId subscription named) grown⟩

def Marked (view : ServerView) (eventId : String) : Prop :=
  ∃ mark ∈ view.history, ∃ processedAt, mark.act = .markProcessed eventId processedAt

theorem marked_renewed (run : ServerAllowedRun host (.start (World.start now)) view) {event : StripeWebhookEvent}
    (member : event ∈ view.world.tables.events) (marked : Marked view event.eventId)
    (subscription : StripeWebhookService.eventSubscription event = some subscriptionId)
    (named : subscriptionId ≠ "") : Renewed view subscriptionId (view.world.received event.eventId) := by
  obtain ⟨mark, listed, processedAt, marks⟩ := marked
  obtain ⟨early, late, shape⟩ := List.append_of_mem listed
  obtain ⟨earlier, request, happened⟩ := allowedRun_event run shape
  have processes : Processes request (earlier.trace mark.call) event.eventId := by
    have held := happened.held
    rwa [marks] at held
  have grown : earlier.trace mark.call <+: view.trace mark.call := by
    rw [View.trace, View.events, happened.history, View.trace, View.events, shape, List.filter_append,
      List.map_append]
    exact List.prefix_append _ _
  exact processes_renewed run happened.still (processes_grown processes grown) member subscription named

def FetchedAfterReceipt (view : ServerView) (event : StripeWebhookEvent) (subscriptionId : String)
    (snapshot : StoredSnapshot) : Prop :=
  ∃ early receipt between fetch late, view.history = early ++ receipt :: (between ++ fetch :: late) ∧
    (∃ new, receipt.act = .enqueue new ∧ new.eventId = event.eventId) ∧
    receipt.before.ticks = view.world.received event.eventId ∧
    fetch.deed = ⟨.getSubscription subscriptionId, .ok snapshot.fetched⟩

theorem fetch_tick (sound : Sound view) {fetch : ServerEvent} {fetched : FetchedSnapshot}
    (member : fetch ∈ view.history) (deed : fetch.deed = ⟨.getSubscription subscriptionId, .ok fetched⟩) :
    fetched.fetchedAt = fetch.before.ticks ∧ fetch.after.ticks = fetch.before.ticks + 1 := by
  obtain ⟨input, ran, -⟩ := recorded_ran sound member deed
  obtain ⟨-, tick, after⟩ := exec_getSubscription ran
  exact ⟨tick, by rw [after]⟩

theorem events_ordered {history : List ServerEvent} {first second : ServerEvent} (one : first ∈ history)
    (two : second ∈ history) (distinct : first ≠ second) :
    (∃ early between late, history = early ++ first :: (between ++ second :: late)) ∨
      ∃ early between late, history = early ++ second :: (between ++ first :: late) := by
  obtain ⟨early, late, rfl⟩ := List.append_of_mem one
  rcases List.mem_append.mp two with before | after
  · obtain ⟨front, back, rfl⟩ := List.append_of_mem before
    exact .inr ⟨front, back, late, by simp⟩
  · obtain ⟨front, back, rfl⟩ := List.append_of_mem ((List.mem_cons.mp after).resolve_left (Ne.symm distinct))
    exact .inl ⟨early, front, back, rfl⟩

/-- The order of the ticks is the order of the events. -/
theorem receipt_before_fetch (run : ServerAllowedRun host (.start (World.start now)) view)
    {event : StripeWebhookEvent} (member : event ∈ view.world.tables.events) {snapshot : StoredSnapshot}
    (stored : snapshot ∈ view.world.stored subscriptionId)
    (later : view.world.received event.eventId < snapshot.fetched.fetchedAt) :
    FetchedAfterReceipt view event subscriptionId snapshot := by
  have sound := allowedRun_sound run (start_sound now)
  have sourced := allowedRun_sourced run
  obtain ⟨receipt, known, enqueues, ticks⟩ := sourced.received event member
  obtain ⟨fetch, listed, deed⟩ := sourced.stored subscriptionId snapshot stored
  obtain ⟨tick, after⟩ := fetch_tick sound listed deed
  have distinct : receipt ≠ fetch := by
    rintro rfl
    omega
  rcases events_ordered known listed distinct with ⟨early, between, late, shape⟩ | ⟨early, between, late, shape⟩
  · exact ⟨early, receipt, between, fetch, late, shape, enqueues, ticks, deed⟩
  · have sublist : [fetch, receipt].Sublist view.history := by
      rw [shape]
      exact ((List.singleton_sublist.mpr (by simp)).cons_cons _).trans (List.sublist_append_right _ _)
    have progress : Progress fetch.after receipt.before := by simpa using sound.ordered.sublist sublist
    have ordered := progress.ticks
    omega

/-- Snapshots are stored in the order in which they were fetched; a link shows the newest of
them; and once an event of its subscription is marked as processed, that one was fetched after
the event was received. -/
theorem snapshots_fresh (run : ServerRun host now state) :
    (∀ subscriptionId, (state.view.world.stored subscriptionId).Pairwise fun newer older =>
      older.fetched.fetchedAt < newer.fetched.fetchedAt) ∧
    ∀ id link, state.view.world.tables.link id = some link → ∃ newest older,
      state.view.world.stored link.subscriptionId = newest :: older ∧
        Reflects link newest.fetched.snapshot ∧
        ∀ event ∈ state.view.world.tables.events,
          StripeWebhookService.eventSubscription event = some link.subscriptionId →
            event.status = .processed ∨ Marked state.view event.eventId →
              FetchedAfterReceipt state.view event link.subscriptionId newest := by
  have allowed := server_run_allowed run
  have mirrored := allowedRun_mirrored allowed
  refine ⟨mirrored.ordered, fun id link linked => ?_⟩
  obtain ⟨⟨newest, older, stored, reflects, -⟩, -, named⟩ := mirrored.shown id link linked
  refine ⟨newest, older, stored, reflects, fun event member subscription processed => ?_⟩
  have marked : Marked state.view event.eventId :=
    processed.elim ((allowedRun_sourced allowed).marked event member) fun marked => marked
  have renewed := marked_renewed allowed member marked subscription named
  exact receipt_before_fetch allowed member (stored ▸ .head _)
    (renewed.shown id link linked rfl newest older stored)

end Runs

section Samples

def sampleEvent : StripeEvent :=
  ⟨"evt", "customer.subscription.updated", .object [("data", .object [("object", .object
    [("id", .string "sub"), ("object", .string "subscription")])])]⟩

def processedSample : List (Choice Input Move Request) :=
  linkedSample ++ sampleCall 3 (.receive (.ok sampleEvent)) 3 1 ++
    sampleCall 4 (.processDue (.integer 10)) 4 14

theorem snapshots_fresh_sample : ∃ state, ServerRun sampleHost 0 state ∧
    ∃ event ∈ state.view.world.tables.events, event.status = .processed ∧ ∃ newest older,
      state.view.world.stored "sub" = newest :: older ∧
        FetchedAfterReceipt state.view event "sub" newest := by
  obtain ⟨state, run, holds⟩ := @sampled_run processedSample
    (fun state => ((state.view.world.tables.link sampleId).any fun link => link.subscriptionId = "sub") &&
      state.view.world.tables.events.any fun event => event.status = .processed &&
        decide (StripeWebhookService.eventSubscription event = some "sub")) (by decide +kernel)
  obtain ⟨linked, marked⟩ := (Bool.and_eq_true _ _).mp holds
  obtain ⟨link, linked, same⟩ := (Option.any_eq_true _ _).mp linked
  obtain ⟨event, member, holds⟩ := List.any_eq_true.mp marked
  obtain ⟨processed, subscription⟩ := (Bool.and_eq_true _ _).mp holds
  have named : link.subscriptionId = "sub" := of_decide_eq_true same
  have processed : event.status = .processed := of_decide_eq_true processed
  obtain ⟨newest, older, stored, -, fresh⟩ := (snapshots_fresh run).2 sampleId link linked
  rw [named] at stored fresh
  exact ⟨state, run, event, member, processed, newest, older, stored,
    fresh event member (of_decide_eq_true subscription) (.inl processed)⟩

end Samples

end Keyzori
