import Keyzori.Inbox.Leases
import Keyzori.Server.AloneStripe
import Keyzori.Server.Billing
import Keyzori.Server.RuntimeCalls

namespace Keyzori

open Interleaving Relation

variable {host : Host} {call : Nat} {clock : Instant → Prop} {used : List String} {world next last : World}
  {now : Instant} {subscriptionId : String} {link : StripeSubscriptionLink} {data new : LicenseData}
  {event : StripeWebhookEvent} {events : List StripeWebhookEvent}

def unresolved (world : World) (event : StripeWebhookEvent) : Bool :=
  (namedSubscription event).any fun subscriptionId =>
    (world.tables.findBySubscriptionId subscriptionId).isSome && (world.snapshot subscriptionId).isNone

structure Current (link : StripeSubscriptionLink) (snapshot : StripeSubscriptionSnapshot) : Prop where
  reflects : Reflects link snapshot
  blocked : link.billingRevokedAt.isSome = snapshot.billingBlocked
  settled : link.lastError = none

/-- What a batch leaves of the row of an event that it claimed. -/
def settledRow (host : Host) (now : Instant) (world : World) (event : StripeWebhookEvent) :
    StripeWebhookEvent → StripeWebhookEvent :=
  if unresolved world event then
    failedAt missingMessage (now + StripeWebhookService.retryDelay host event.attempts)
  else processedAt now

structure SettlesAll (host : Host) (now : Instant) (events : List StripeWebhookEvent) (world next : World) : Prop where
  billable : Billable next
  stripe : next.stripe = world.stripe
  rows : next.tables.events = events.foldl (fun rows event => rows.map fun row =>
    if row.eventId = event.eventId then settledRow host now world event row else row) world.tables.events
  links : ∀ id, (next.tables.link id).map StripeSubscriptionLink.subscriptionId =
    (world.tables.link id).map StripeSubscriptionLink.subscriptionId
  shows : ∀ event ∈ events, ∀ subscriptionId snapshot, namedSubscription event = some subscriptionId →
    world.snapshot subscriptionId = some snapshot → ∀ id link, next.tables.link id = some link →
      link.subscriptionId = subscriptionId → Current link snapshot
  apart : ∀ id, (∀ event ∈ events, ∀ link, world.tables.link id = some link →
    namedSubscription event ≠ some link.subscriptionId) → next.tables.licenses id = world.tables.licenses id

section Steps

structure Relinked (old new : LicenseData) : Prop where
  id : new.row.id = old.row.id
  key : new.row.keyHash = old.row.keyHash
  type : new.row.type = old.row.type
  link : ∀ link, new.link = some link → ∃ before, old.link = some before ∧
    before.subscriptionId = link.subscriptionId ∧ before.licenseId = link.licenseId

theorem relinked_refl (data : LicenseData) : Relinked data data :=
  ⟨rfl, rfl, rfl, fun link linked => ⟨link, linked, rfl, rfl⟩⟩

theorem relinked_link (relinked : ∀ id new, next.tables.licenses id = some new →
      ∃ old, world.tables.licenses id = some old ∧ Relinked old new) {id : LicenseId}
    (linked : next.tables.link id = some link) : ∃ before, world.tables.link id = some before ∧
      before.subscriptionId = link.subscriptionId ∧ before.licenseId = link.licenseId := by
  obtain ⟨new, present, linked⟩ := Option.bind_eq_some_iff.mp linked
  obtain ⟨old, before, same⟩ := relinked id new present
  obtain ⟨earlier, here, names⟩ := same.link link linked
  exact ⟨earlier, by rw [Tables.link, before]; exact here, names⟩

theorem billable_relinked (billable : Billable world) (relinked : ∀ id new, next.tables.licenses id = some new →
      ∃ old, world.tables.licenses id = some old ∧ Relinked old new)
    (ids : next.tables.ids = world.tables.ids) (keys : next.keyHashes = world.keyHashes) : Billable next := by
  obtain ⟨sound, type⟩ := billable
  refine ⟨⟨fun id present => ?_, fun id data present => ?_, fun id link linked => ?_,
    fun id other link otherLink linked otherLinked same => ?_, fun id data present => ?_,
    fun id other data otherData present otherPresent same => ?_⟩, fun id data link present linked => ?_⟩
  · obtain ⟨data, present⟩ := Option.ne_none_iff_exists'.mp present
    obtain ⟨old, before, -⟩ := relinked id data present
    exact ids ▸ sound.known id (by simp [before])
  · obtain ⟨old, before, kept⟩ := relinked id data present
    exact kept.id.trans (sound.rowId id old before)
  · obtain ⟨before, there, -, owner⟩ := relinked_link relinked linked
    exact owner.symm.trans (sound.linkOwner id before there)
  · obtain ⟨first, one, named, -⟩ := relinked_link relinked linked
    obtain ⟨second, two, otherNamed, -⟩ := relinked_link relinked otherLinked
    exact sound.linkUnique id other first second one two (named.trans (same.trans otherNamed.symm))
  · obtain ⟨old, before, kept⟩ := relinked id data present
    rw [kept.key, keys]
    exact sound.keyStored id old before
  · obtain ⟨old, before, kept⟩ := relinked id data present
    obtain ⟨otherOld, otherBefore, otherKept⟩ := relinked other otherData otherPresent
    exact sound.keyUnique id other old otherOld before otherBefore
      (kept.key.symm.trans (same.trans otherKept.key))
  · obtain ⟨old, before, kept⟩ := relinked id data present
    obtain ⟨earlier, here, -⟩ := kept.link link linked
    exact kept.type.trans (type id old earlier before here)

theorem relinked_one (linked : LinkedTo world subscriptionId link data) (same : Relinked data new)
    (changed : next.tables.licenses = Function.update world.tables.licenses link.licenseId (some new)) :
    ∀ id after, next.tables.licenses id = some after →
      ∃ old, world.tables.licenses id = some old ∧ Relinked old after := by
  intro id after present
  rw [changed] at present
  by_cases here : id = link.licenseId
  · subst here
    rw [Function.update_self] at present
    cases present
    exact ⟨data, linked.present, same⟩
  · rw [Function.update_of_ne here] at present
    exact ⟨after, present, relinked_refl after⟩

theorem linkedTo_link (linked : LinkedTo world subscriptionId link data) :
    world.tables.link link.licenseId = some link := by
  rw [Tables.link, linked.present]
  exact linked.linked

theorem relinked_settles (billable : Billable world) (linked : LinkedTo world subscriptionId link data)
    (named : namedSubscription event = some subscriptionId) (same : Relinked data new)
    {relinked : StripeSubscriptionLink} (shown : new.link = some relinked)
    (changed : next.tables.licenses = Function.update world.tables.licenses link.licenseId (some new))
    (ids : next.tables.ids = world.tables.ids) (keys : next.keyHashes = world.keyHashes)
    (stripe : next.stripe = world.stripe)
    (rows : next.tables.events = world.tables.events.map fun row =>
      if row.eventId = event.eventId then settledRow host now world event row else row)
    (current : ∀ snapshot, world.snapshot subscriptionId = some snapshot → Current relinked snapshot) :
    SettlesAll host now [event] world next := by
  have traced := relinked_one linked same changed
  have after : Billable next := billable_relinked billable traced ids keys
  have there := linkedTo_link linked
  have here : next.tables.link link.licenseId = some relinked := by
    rw [Tables.link, changed, Function.update_self]
    exact shown
  have others : ∀ id, id ≠ link.licenseId → next.tables.licenses id = world.tables.licenses id := by
    intro id other
    rw [changed, Function.update_of_ne other]
  obtain ⟨before, old, subscription, -⟩ := same.link relinked shown
  cases linked.linked.symm.trans old
  refine ⟨after, stripe, rows, fun id => ?_, ?_, fun id apart => ?_⟩
  · by_cases own : id = link.licenseId
    · rw [own, here, there]
      exact congrArg some subscription.symm
    · rw [Tables.link, Tables.link, others id own]
  · intro other listed subscriptionId' snapshot names known id found shows same'
    cases List.mem_singleton.mp listed
    cases named.symm.trans names
    have own : id = link.licenseId := after.tables.linkUnique id _ found relinked shows here
      (same'.trans (linked.named.symm.trans subscription))
    rw [own, here] at shows
    cases shows
    exact current snapshot known
  · refine others id fun own => ?_
    subst own
    exact apart event (.head _) link there (named.trans (congrArg some linked.named.symm))

theorem unresolved_linked (linked : LinkedTo world subscriptionId link data)
    (named : namedSubscription event = some subscriptionId) :
    unresolved world event = (world.snapshot subscriptionId).isNone := by
  simp [unresolved, named, linked.found]

theorem unresolved_unlinked (absent : ∀ subscriptionId, namedSubscription event = some subscriptionId →
    world.tables.findBySubscriptionId subscriptionId = none) : unresolved world event = false := by
  cases named : namedSubscription event with
  | none => simp [unresolved, named]
  | some subscriptionId => simp [unresolved, named, absent subscriptionId named]

theorem event_settles {succeeded : Bool} (billable : Billable world)
    (ends : EventEnds host clock now event world succeeded next) :
    SettlesAll host now [event] world next ∧ succeeded = !unresolved world event := by
  cases ends with
  | unlinked absent =>
      have resolved := unresolved_unlinked absent
      refine ⟨⟨?_, rfl, ?_, fun _ => rfl, ?_, fun _ _ => rfl⟩, by rw [resolved]; rfl⟩
      · exact billable_relinked billable (fun id data present => ⟨data, present, relinked_refl data⟩) rfl rfl
      · simp only [List.foldl_cons, List.foldl_nil, settledRow, resolved]
        rfl
      · intro other listed subscriptionId snapshot named known id link linked same
        cases List.mem_singleton.mp listed
        exact absurd same (findBySubscriptionId_none billable.tables (absent _ named) linked)
  | @synchronized subscriptionId link data snapshot written named linked known time =>
      have resolved : unresolved world event = false := by rw [unresolved_linked linked named, known]; rfl
      obtain ⟨id, key, type, shows⟩ := @reconciled_rows now link data ⟨snapshot, world.ticks⟩ written
      rw [linked.linked, Option.map_some] at shows
      refine ⟨relinked_settles billable linked named ⟨id, key, type, ?_⟩ shows rfl rfl ?_ rfl ?_ ?_,
        by rw [resolved]; rfl⟩
      · intro after same
        rw [shows] at same
        cases same
        exact ⟨link, linked.linked, rfl, rfl⟩
      · have none : (reconciledWrites link ⟨snapshot, world.ticks⟩ now).flatMap storedKeys = [] := by
          rw [reconciledWrites]
          cases snapshot.paidThrough <;> rfl
        exact congrArg (· ++ world.keyHashes) none
      · simp only [settledRow, resolved]
        rfl
      · intro other same
        cases known.symm.trans same
        exact ⟨⟨rfl, rfl, rfl, rfl, rfl⟩, billingRevokedAt_blocked (some link), rfl⟩
  | @unknown subscriptionId link data written named linked absent time =>
      have failed : unresolved world event = true := by rw [unresolved_linked linked named, absent]; rfl
      have same : Relinked data { data with
          link := some { link with lastError := some missingMessage, updatedAt := written } } := by
        refine ⟨rfl, rfl, rfl, fun after same => ?_⟩
        cases same
        exact ⟨link, linked.linked, rfl, rfl⟩
      refine ⟨relinked_settles billable linked named same rfl rfl rfl rfl rfl ?_ ?_, by rw [failed]; rfl⟩
      · simp only [settledRow, failed]
        rfl
      · intro other known
        rw [absent] at known
        cases known

end Steps

section Batches

variable {middle : World} {first rest : List StripeWebhookEvent}

theorem linked_iff (sound : TablesSound world) : (world.tables.findBySubscriptionId subscriptionId).isSome = true ↔
    ∃ id, (world.tables.link id).map StripeSubscriptionLink.subscriptionId = some subscriptionId := by
  constructor
  · intro linked
    obtain ⟨link, found⟩ := Option.isSome_iff_exists.mp linked
    obtain ⟨there, named⟩ := findBySubscriptionId_some sound found
    exact ⟨link.licenseId, by rw [there, Option.map_some, named]⟩
  · rintro ⟨id, linked⟩
    obtain ⟨link, there, named⟩ := Option.map_eq_some_iff.mp linked
    by_contra absent
    exact findBySubscriptionId_none sound (by simpa using absent) there named

theorem snapshot_same (stripe : next.stripe = world.stripe) : next.snapshot = world.snapshot := by
  funext subscriptionId
  rw [World.snapshot, World.snapshot, stripe]

/-- Whether an event can be resolved does not change while events are settled. -/
theorem unresolved_same (billable : Billable world) (settles : SettlesAll host now events world next)
    (event : StripeWebhookEvent) : unresolved next event = unresolved world event := by
  rw [unresolved, unresolved]
  refine congrArg (Option.any · _) (funext fun subscriptionId => ?_)
  rw [snapshot_same settles.stripe]
  refine congrArg (· && _) (Bool.eq_iff_iff.mpr ?_)
  rw [linked_iff settles.billable.tables, linked_iff billable.tables]
  simp only [settles.links]

theorem settles_none (billable : Billable world) : SettlesAll host now [] world world :=
  ⟨billable, rfl, rfl, fun _ => rfl, fun _ listed => absurd listed (List.not_mem_nil), fun _ _ => rfl⟩

theorem settles_append (billable : Billable world) (before : SettlesAll host now first world middle)
    (after : SettlesAll host now rest middle next) : SettlesAll host now (first ++ rest) world next := by
  have still : settledRow host now middle = settledRow host now world := by
    funext event
    rw [settledRow, settledRow, unresolved_same billable before]
  refine ⟨after.billable, after.stripe.trans before.stripe, ?_, fun id => (after.links id).trans (before.links id),
    ?_, fun id apart => ?_⟩
  · rw [after.rows, before.rows, List.foldl_append, still]
  · intro event listed subscriptionId snapshot named known id link linked same
    have known' : middle.snapshot subscriptionId = some snapshot := by rw [snapshot_same before.stripe, known]
    by_cases again : ∃ other ∈ rest, namedSubscription other = some subscriptionId
    · obtain ⟨other, member, names⟩ := again
      exact after.shows other member subscriptionId snapshot names known' id link linked same
    · have early : event ∈ first := (List.mem_append.mp listed).resolve_right fun late => again ⟨event, late, named⟩
      have kept : next.tables.licenses id = middle.tables.licenses id := by
        refine after.apart id fun other member link' there names => again ⟨other, member, ?_⟩
        have both := after.links id
        rw [linked, there] at both
        rw [names, ← same, Option.some.inj both]
      refine before.shows event early subscriptionId snapshot named known id link ?_ same
      rw [Tables.link, ← kept]
      exact linked
  · have early := before.apart id fun event member => apart event (List.mem_append_left _ member)
    refine (after.apart id fun event member link linked => ?_).trans early
    refine apart event (List.mem_append_right _ member) link ?_
    rw [Tables.link, ← early]
    exact linked

theorem processAll_alone (ticking : ∃ now, clock now) (billable : Billable world) :
    Alone call clock used (StripeWebhookService.processAll host now events) world fun result next =>
      result = .ok (events.map fun event => !unresolved world event) ∧ SettlesAll host now events world next := by
  induction events generalizing world with
  | nil => exact alone_pure ⟨rfl, settles_none billable⟩
  | cons event events ih =>
      refine alone_then _ (processOne_alone ticking billable) ?_ ?_
      · rintro value middle ⟨succeeded, same, ends⟩
        cases same
        obtain ⟨settles, rfl⟩ := event_settles billable ends
        refine alone_then _ (ih settles.billable) ?_ ?_
        · rintro outcomes next ⟨same, others⟩
          cases same
          refine alone_pure ⟨?_, settles_append billable settles others⟩
          have same : (events.map fun event => !unresolved middle event) =
              events.map fun event => !unresolved world event :=
            List.map_congr_left fun other _ => congrArg (!·) (unresolved_same billable settles other)
          rw [same]
          rfl
        · rintro _ _ ⟨same, -⟩
          cases same
      · rintro _ _ ⟨succeeded, same, -⟩
        cases same

end Batches

def batchedRow (host : Host) (now : Instant) (world : World) (row : StripeWebhookEvent) : StripeWebhookEvent :=
  settledRow host now world (claimed now row) (claimed now row)

section Rows

variable {rows : List StripeWebhookEvent} {row : StripeWebhookEvent}
  {set : StripeWebhookEvent → StripeWebhookEvent → StripeWebhookEvent}

def markEach (set : StripeWebhookEvent → StripeWebhookEvent → StripeWebhookEvent)
    (events rows : List StripeWebhookEvent) : List StripeWebhookEvent :=
  events.foldl (fun rows event => rows.map fun row =>
    if row.eventId = event.eventId then set event row else row) rows

def eventWith (events : List StripeWebhookEvent) (eventId : String) : Option StripeWebhookEvent :=
  events.find? fun event => event.eventId = eventId

theorem markEach_rows (distinct : (events.map StripeWebhookEvent.eventId).Nodup)
    (keeps : ∀ event row, (set event row).eventId = row.eventId) :
    markEach set events rows = rows.map fun row =>
      ((eventWith events row.eventId).map fun event => set event row).getD row := by
  induction events generalizing rows with
  | nil => exact (List.map_id' rows).symm
  | cons event events ih =>
      obtain ⟨fresh, distinct⟩ := List.nodup_cons.mp distinct
      change markEach set events _ = _
      rw [ih distinct, List.map_map]
      refine List.map_congr_left fun row _ => ?_
      simp only [Function.comp]
      by_cases same : row.eventId = event.eventId
      · have once : eventWith events row.eventId = none := by
          refine List.find?_eq_none.mpr fun other member other' => fresh ?_
          rw [← same, ← of_decide_eq_true other']
          exact List.mem_map_of_mem member
        have here : eventWith (event :: events) row.eventId = some event := by
          rw [eventWith, List.find?_cons_of_pos (by simp [same])]
        rw [if_pos same, keeps, once, here]
        rfl
      · have later : eventWith (event :: events) row.eventId = eventWith events row.eventId := by
          rw [eventWith, List.find?_cons_of_neg (by simpa using Ne.symm same), eventWith]
        rw [if_neg same, later]

theorem lease_rows (due : List StripeWebhookEvent) :
    (world.lease now due).tables.events = markEach (fun _ => claimed now) due world.tables.events := by
  have folded : ∀ tables : Tables, (due.foldl (fun tables event => updateEvent event.eventId (claimed now) tables)
      tables).events = markEach (fun _ => claimed now) due tables.events := by
    induction due with
    | nil => exact fun _ => rfl
    | cons event events ih => exact fun tables => ih _
  exact folded world.tables

theorem lease_apart (due : List StripeWebhookEvent) :
    (world.lease now due).tables.licenses = world.tables.licenses ∧
      (world.lease now due).tables.ids = world.tables.ids := by
  have folded : ∀ tables : Tables, (due.foldl (fun tables event => updateEvent event.eventId (claimed now) tables)
      tables).licenses = tables.licenses ∧
        (due.foldl (fun tables event => updateEvent event.eventId (claimed now) tables)
        tables).ids = tables.ids := by
    induction due with
    | nil => exact fun _ => ⟨rfl, rfl⟩
    | cons event events ih => exact fun tables => ih _
  exact folded world.tables

theorem due_found (distinct : (rows.map StripeWebhookEvent.eventId).Nodup) {due : List StripeWebhookEvent}
    (sub : ∀ event ∈ due, event ∈ rows) (member : row ∈ rows) :
    eventWith due row.eventId = if row.eventId ∈ due.map StripeWebhookEvent.eventId then some row else none := by
  split
  · next listed =>
    obtain ⟨event, inside, named⟩ := List.mem_map.mp listed
    have some : (eventWith due row.eventId).isSome = true :=
      List.find?_isSome.mpr ⟨event, inside, decide_eq_true named⟩
    obtain ⟨found, same⟩ := Option.isSome_iff_exists.mp some
    have inside := sub found (List.mem_of_find?_eq_some same)
    have named : found.eventId = row.eventId := by simpa using List.find?_some same
    rw [same, List.inj_on_of_nodup_map distinct inside member named]
  · next absent =>
    refine List.find?_eq_none.mpr fun event listed same => absent ?_
    rw [← of_decide_eq_true same]
    exact List.mem_map_of_mem listed

end Rows

section Worker

theorem settledRow_id (event row : StripeWebhookEvent) :
    (settledRow host now world event row).eventId = row.eventId := by
  rw [settledRow]
  split <;> rfl

structure BatchEnds (host : Host) (limit : Nat) (now : Instant) (world : World)
    (result : Except Failure StripeWebhookBatchResult) (next : World) : Prop where
  answer : result = .ok (
    let due := dueEvents world.tables.events [] limit now
    ⟨due.length, due.countP (!unresolved world ·), due.countP (unresolved world)⟩)
  rows : next.tables.events = world.tables.events.map fun row =>
    if row.eventId ∈ (dueEvents world.tables.events [] limit now).map StripeWebhookEvent.eventId then
      batchedRow host now world row
    else row
  stripe : next.stripe = world.stripe
  links : ∀ id, (next.tables.link id).map StripeSubscriptionLink.subscriptionId =
    (world.tables.link id).map StripeSubscriptionLink.subscriptionId
  shows : ∀ event ∈ dueEvents world.tables.events [] limit now, ∀ subscriptionId snapshot,
    namedSubscription event = some subscriptionId → world.snapshot subscriptionId = some snapshot →
      ∀ id link, next.tables.link id = some link → link.subscriptionId = subscriptionId → Current link snapshot
  apart : ∀ id, (∀ event ∈ dueEvents world.tables.events [] limit now, ∀ link, world.tables.link id = some link →
    namedSubscription event ≠ some link.subscriptionId) → next.tables.licenses id = world.tables.licenses id

theorem batch_rows {due : List StripeWebhookEvent}
    (distinct : (world.tables.events.map StripeWebhookEvent.eventId).Nodup)
    (sub : ∀ event ∈ due, event ∈ world.tables.events) (once : (due.map StripeWebhookEvent.eventId).Nodup) :
    markEach (settledRow host now world) (due.map (claimed now)) (world.lease now due).tables.events =
      world.tables.events.map fun row =>
        if row.eventId ∈ due.map StripeWebhookEvent.eventId then batchedRow host now world row else row := by
  have ids : (due.map (claimed now)).map StripeWebhookEvent.eventId = due.map StripeWebhookEvent.eventId := by
    rw [List.map_map]
    rfl
  have leased : ∀ eventId, eventWith (due.map (claimed now)) eventId = (eventWith due eventId).map (claimed now) := by
    intro eventId
    rw [eventWith, List.find?_map]
    rfl
  have leases : markEach (fun _ => claimed now) due world.tables.events = _ := markEach_rows once fun _ _ => rfl
  rw [lease_rows, leases, markEach_rows (by rwa [ids]) settledRow_id, List.map_map]
  refine List.map_congr_left fun row member => ?_
  have found := due_found distinct sub member
  simp only [Function.comp, leased]
  split
  · next listed =>
    rw [if_pos listed] at found
    rw [found]
    change ((Option.map _ ((eventWith due row.eventId).map (claimed now))).getD _) = _
    rw [found]
    rfl
  · next absent =>
    rw [if_neg absent] at found
    rw [found]
    change ((Option.map _ ((eventWith due row.eventId).map (claimed now))).getD row) = _
    rw [found]
    rfl

theorem lease_billable (billable : Billable world) (due : List StripeWebhookEvent) :
    Billable (world.lease now due) := by
  obtain ⟨licenses, ids⟩ := @lease_apart world now due
  refine billable_relinked billable (fun id data present => ?_) ids rfl
  rw [licenses] at present
  exact ⟨data, present, relinked_refl data⟩

theorem lease_unresolved (due : List StripeWebhookEvent) :
    unresolved (world.lease now due) = unresolved world := by
  obtain ⟨licenses, ids⟩ := @lease_apart world now due
  have same : (world.lease now due).tables.findBySubscriptionId = world.tables.findBySubscriptionId := by
    funext subscriptionId
    rw [Tables.findBySubscriptionId, Tables.findBySubscriptionId,
      Tables.allLicenses, Tables.allLicenses, licenses, ids]
  funext event
  rw [unresolved, unresolved, same]
  rfl

theorem processDue_alone {limit : Int} (ticking : ∃ now, clock now) (billable : Billable world)
    (distinct : (world.tables.events.map StripeWebhookEvent.eventId).Nodup) (positive : 1 ≤ limit) :
    Alone call clock used (StripeWebhookService.processDue host (.integer limit)) world fun result next =>
      ∃ reading, clock reading ∧ BatchEnds host limit.toNat reading world result next := by
  refine alone_draw ticking fun drawn time _ => ?_
  refine alone_known (claimDue_alone ticking positive) ?_
  have members := fun event (member : event ∈ dueEvents world.tables.events [] limit.toNat drawn.now) =>
    (Inbox.dueEvents_member member).1
  have once := Inbox.dueEvents_nodup [] limit.toNat drawn.now distinct
  generalize shape : dueEvents world.tables.events [] limit.toNat drawn.now = due at members once
  refine alone_then _ (processAll_alone ticking (lease_billable billable due)) ?_ ?_
  · rintro outcomes next ⟨same, settles⟩
    cases same
    have links : (world.lease drawn.now due).tables.link = world.tables.link := by
      funext id
      rw [Tables.link, Tables.link, (lease_apart due).1]
    have still : settledRow host drawn.now (world.lease drawn.now due) = settledRow host drawn.now world := by
      funext event
      rw [settledRow, settledRow, lease_unresolved]
    refine alone_pure ⟨drawn.now, time, ?_, ?_, settles.stripe, ?_, ?_, ?_⟩
    · rw [shape, lease_unresolved, List.length_map, List.map_map, List.countP_map, List.countP_map]
      simp only [Function.comp_def, id, Bool.not_not]
      rfl
    · rw [shape, ← batch_rows distinct members once, settles.rows, still]
      rfl
    · exact fun id => (settles.links id).trans (by rw [links])
    · rw [shape]
      intro event member subscriptionId snapshot named known
      exact settles.shows (claimed drawn.now event) (List.mem_map_of_mem member) subscriptionId snapshot named known
    · rw [shape]
      intro id apart
      refine (settles.apart id fun event member link linked => ?_).trans (congrFun (lease_apart due).1 id)
      obtain ⟨event, listed, rfl⟩ := List.mem_map.mp member
      rw [links] at linked
      exact apart event listed link linked
  · rintro _ _ ⟨same, -⟩
    cases same

end Worker

section Runs

variable {state last : ServerState} {limit : Int} {result : Except Failure Response}

theorem run_billable (run : ServerRun host now state) : Billable state.view.world where
  tables := (server_run_sound run).consistent.tables
  type id data link present linked :=
    ((server_run_throughout (lasting_formed host) run _ (.inl rfl) id data present).coherent link linked).1

theorem batch_alone (run : ServerRun host now state) (ticking : ∃ now, clock now) (positive : 1 ≤ limit) :
    Alone call clock used (program host (.processDue (.integer limit))) state.view.world fun result next =>
      ∃ reading answer, clock reading ∧ result = answer.map .batch ∧
        BatchEnds host limit.toNat reading state.view.world answer next :=
  alone_map (processDue_alone ticking (run_billable run) (server_run_sound run).consistent.inbox.distinct positive)
    fun answer _ ⟨reading, time, ends⟩ => ⟨reading, answer, time, rfl, ends⟩

theorem batch_serves (run : ServerRun host now state) (idle : state.Ended) (ticking : ∃ now, clock now)
    (unused : state.pool call = none) (positive : 1 ≤ limit) :
    ∃ last result, Serves host clock call (.processDue (.integer limit)) state last result := by
  have holds := idle_alone run idle (@batch_alone host call clock state.view.world.tables.rowKeys now
    _ _ run ticking positive)
  obtain ⟨last, result, turns, ended, -⟩ := @alone_ends _ _ _ _ _ _ _ _ _ _ (server host)
    (asked host call (.processDue (.integer limit)) state) _ _ asked_pool holds
  exact ⟨last, result, unused, turns, ended⟩

theorem batch_ends (run : ServerRun host now state) (idle : state.Ended) (ticking : ∃ now, clock now)
    (positive : 1 ≤ limit) (serves : Serves host clock call (.processDue (.integer limit)) state last result) :
    ∃ reading answer, clock reading ∧ result = answer.map .batch ∧
      BatchEnds host limit.toNat reading state.view.world answer last.view.world := by
  have holds := idle_alone run idle (@batch_alone host call clock state.view.world.tables.rowKeys now
    _ _ run ticking positive)
  obtain ⟨rest, left, remaining⟩ := alone_turns asked_pool holds serves.turns
  cases left.symm.trans serves.ended
  obtain ⟨next, locks, ⟨reading, answer, time, same, ends⟩, -, after⟩ := remaining
  refine ⟨reading, answer, time, same, ?_⟩
  rw [after]
  exact ⟨ends.answer, ends.rows, ends.stripe, ends.links, ends.shows, ends.apart⟩

/-- In any state of a run in which no call is on its way, a batch that runs alone comes to an
end; it claims the events that are due, processes all of them but those whose link Stripe does
not know, which it puts off, and makes the links they name show what Stripe has. -/
theorem webhooks_settled (run : ServerRun host now state) (idle : state.Ended) (ticking : ∃ now, clock now)
    (unused : state.pool call = none) (positive : 1 ≤ limit) :
    (∃ last result, Serves host clock call (.processDue (.integer limit)) state last result) ∧
      ∀ last result, Serves host clock call (.processDue (.integer limit)) state last result →
        ∃ reading answer, clock reading ∧ result = answer.map .batch ∧
          BatchEnds host limit.toNat reading state.view.world answer last.view.world :=
  ⟨batch_serves run idle ticking unused positive, fun _ _ => batch_ends run idle ticking positive⟩

end Runs

end Keyzori
