import Keyzori.Server.AloneSessions
import Keyzori.Server.Shape
import Keyzori.Server.Snapshots

namespace Keyzori

open Interleaving

variable {host : Host} {call : Nat} {clock : Instant → Prop} {used : List String} {world : World} {now : Instant}
  {subscriptionId : String} {link : StripeSubscriptionLink} {data : LicenseData}

/-- The state that Stripe has of a subscription, as the gateway hands it on. -/
def World.snapshot (world : World) (subscriptionId : String) : Option StripeSubscriptionSnapshot :=
  if subscriptionId = "" then none
  else (world.stripe subscriptionId).map fun snapshot => { snapshot with subscriptionId }

section Acts

variable {β : Type} {post : Except Failure β → World → Prop}

theorem alone_getSubscription {snapshot : StripeSubscriptionSnapshot} {rest : FetchedSnapshot → Server β}
    (ticking : ∃ now, clock now) (known : world.snapshot subscriptionId = some snapshot)
    (then_ : Alone call clock used (rest ⟨snapshot, world.ticks⟩) { world with ticks := world.ticks + 1 } post) :
    Alone call clock used (StripeSubscriptionService.getSubscription subscriptionId >>= rest) world post := by
  refine @alone_goes _ _ _ _ _ _ (.getSubscription subscriptionId) _ _ _ (fun locks => locks) ticking
    (fun locks input _ sane => ?_) (fun _ unlocked => unlocked) then_
  rw [World.snapshot] at known
  split at known
  · cases known
  · next named =>
    obtain ⟨stored, present, rfl⟩ := Option.map_eq_some_iff.mp known
    have present : (world.under locks).stripe subscriptionId = some stored := present
    simp only [exec, if_neg named, present, attempt, sane.faultless]
    rfl

theorem alone_resourceMissing {rest : FetchedSnapshot → Server β} (ticking : ∃ now, clock now)
    (unknown : world.snapshot subscriptionId = none) (ends : post (.error (.internal "resource_missing")) world) :
    Alone call clock used (StripeSubscriptionService.getSubscription subscriptionId >>= rest) world post := by
  intro locks unlocked
  have runs : ∀ input, exec call (.getSubscription subscriptionId) input (world.under locks) =
      some (world.under locks, .error (.internal "resource_missing")) := by
    intro input
    have absent : (if subscriptionId = "" then none else (world.under locks).stripe subscriptionId) = none := by
      rw [World.snapshot] at unknown
      split at unknown
      · next empty => exact if_pos empty
      · next named => exact (if_neg named).trans (Option.map_eq_none_iff.mp unknown)
    simp only [exec, absent]
  refine alone_call ?_ (fun input after value sane ran => ?_) fun input after error sane ran => ?_
  · obtain ⟨input, sane, -⟩ := sane_input ticking used []
    exact ⟨input, sane, by rw [runs]; rfl⟩
  · rw [runs] at ran
    cases ran
  · rw [runs] at ran
    cases ran
    exact ⟨world, locks, ends, unlocked, rfl⟩

theorem alone_lockLink {id : LicenseId} {rest : Option StripeSubscriptionLink → Server β}
    (ticking : ∃ now, clock now) (linked : world.tables.link id = some link)
    (named : link.subscriptionId = subscriptionId) (then_ : Alone call clock used (rest (some link)) world post) :
    Alone call clock used (perform (.lockLink id subscriptionId) >>= rest) world post := by
  refine @alone_goes _ _ _ _ _ _ (.lockLink id subscriptionId) _ _ _
    (fun locks => Function.update locks (.link id) (some call)) ticking
    (fun locks input unlocked sane => ?_) (fun _ unlocked => unlocked_take unlocked _) then_
  have there : ((world.under locks).tables.link id).filter (fun link => link.subscriptionId = subscriptionId) =
      some link := by
    change (world.tables.link id).filter _ = _
    rw [linked, Option.filter_some, if_pos (decide_eq_true named)]
  simp only [exec, there, acquire, sane.faultless, unlocked_free unlocked, if_true]
  rfl

theorem alone_finish {rest : Unit → Server β} (ticking : ∃ now, clock now)
    (then_ : Alone call clock used (rest ()) world post) :
    Alone call clock used (perform .finish >>= rest) world post :=
  @alone_goes _ _ _ _ _ _ .finish _ _ _ _ ticking
    (fun _ _ _ sane => by simp only [exec, sane.faultless]; rfl) (fun _ unlocked => unlocked_release unlocked) then_

theorem alone_recorded {type : String} {rest : Unit → Server β} (ticking : ∃ now, clock now)
    (then_ : Alone call clock used (rest ()) world post) :
    Alone call clock used (perform (.capture type) >>= rest) world post :=
  @alone_goes _ _ _ _ _ _ (.capture type) _ _ _ (fun locks => locks) ticking
    (fun locks input _ sane => by simp only [exec, attempt, sane.faultless]; rfl) (fun _ unlocked => unlocked) then_

theorem execute_alone {writes : List Write} (ticking : ∃ now, clock now) :
    Alone call clock used (execute writes) world fun result next => result = .ok writes ∧ next = world :=
  alone_query ticking (alone_pure ⟨rfl, rfl⟩)

end Acts

section Inbox

variable {β : Type} {post : Except Failure β → World → Prop}

def World.lease (world : World) (now : Instant) (due : List StripeWebhookEvent) : World :=
  { world with
    tables := due.foldl (fun tables event => updateEvent event.eventId (claimed now) tables) world.tables }

def World.mark (world : World) (eventId : String) (set : StripeWebhookEvent → StripeWebhookEvent) : World :=
  { world with tables := updateEvent eventId set world.tables }

def processedAt (now : Instant) (event : StripeWebhookEvent) : StripeWebhookEvent :=
  { event with
    status := .processed
    processedAt := some now
    lastError := none }

def failedAt (error : String) (nextAttemptAt : Instant) (event : StripeWebhookEvent) : StripeWebhookEvent :=
  { event with
    status := .failed
    lastError := some error
    nextAttemptAt }

theorem claimDue_alone {limit : Int} (ticking : ∃ now, clock now) (positive : 1 ≤ limit) :
    Alone call clock used (WebhookRepository.claimDue (.integer limit) now) world fun result next =>
      result = .ok ((dueEvents world.tables.events [] limit.toNat now).map (claimed now)) ∧
        next = world.lease now (dueEvents world.tables.events [] limit.toNat now) := by
  rw [WebhookRepository.claimDue, if_neg (by omega)]
  exact @alone_perform _ _ _ _ (.claimDue limit.toNat now) _ _ (fun locks => locks) ticking
    (fun locks input _ sane => by simp only [exec, attempt, sane.faultless, sane.unskipped]; rfl)
    fun _ unlocked => unlocked

theorem markProcessed_alone {eventId : String} (ticking : ∃ now, clock now) :
    Alone call clock used (WebhookRepository.markProcessed eventId now) world fun result next =>
      result = .ok () ∧ next = world.mark eventId (processedAt now) :=
  @alone_perform _ _ _ _ (.markProcessed eventId now) _ _ (fun locks => locks) ticking
    (fun locks input _ sane => by simp only [exec, attempt, sane.faultless]; rfl) fun _ unlocked => unlocked

theorem markFailed_alone {eventId error : String} {nextAttemptAt : Instant} (ticking : ∃ now, clock now) :
    Alone call clock used (WebhookRepository.markFailed eventId error nextAttemptAt) world fun result next =>
      result = .ok () ∧ next = world.mark eventId (failedAt error nextAttemptAt) :=
  @alone_perform _ _ _ _ (.markFailed eventId error nextAttemptAt) _ _ (fun locks => locks) ticking
    (fun locks input _ sane => by simp only [exec, attempt, sane.faultless]; rfl) fun _ unlocked => unlocked

end Inbox

def reconciledWrites (link : StripeSubscriptionLink) (fetched : FetchedSnapshot) (now : Instant) : List Write :=
  .updateLink (linkUpdate link fetched.snapshot now) fetched :: (fetched.snapshot.paidThrough.map .setExpiresAt).toList

def World.reconciled (world : World) (link : StripeSubscriptionLink) (data : LicenseData)
    (snapshot : StripeSubscriptionSnapshot) (now written : Instant) : World :=
  World.write { world with ticks := world.ticks + 1 } link.licenseId data written
    (reconciledWrites link ⟨snapshot, world.ticks⟩ now)

structure LinkedTo (world : World) (subscriptionId : String) (link : StripeSubscriptionLink) (data : LicenseData) :
    Prop where
  found : world.tables.findBySubscriptionId subscriptionId = some link
  present : world.tables.licenses link.licenseId = some data
  linked : data.link = some link
  named : link.subscriptionId = subscriptionId
  type : data.row.type = .subscription

/-- Links are known by their subscriptions, which only subscriptions have. -/
structure Billable (world : World) : Prop where
  tables : TablesSound world
  type : ∀ id data link, world.tables.licenses id = some data → data.link = some link → data.row.type = .subscription

theorem linkedTo_found (billable : Billable world)
    (found : world.tables.findBySubscriptionId subscriptionId = some link) :
    ∃ data, LinkedTo world subscriptionId link data := by
  obtain ⟨linked, named⟩ := findBySubscriptionId_some billable.tables found
  obtain ⟨data, present, linked⟩ := Option.bind_eq_some_iff.mp linked
  exact ⟨data, found, present, linked, named, billable.type _ _ _ present linked⟩

inductive ReconcileEnds (clock : Instant → Prop) (now : Instant) (subscriptionId : String) (world : World) :
    Except Failure Unit → World → Prop
  | unlinked (absent : world.tables.findBySubscriptionId subscriptionId = none) :
      ReconcileEnds clock now subscriptionId world (.ok ()) world
  | unknown {link : StripeSubscriptionLink} {data : LicenseData} (linked : LinkedTo world subscriptionId link data)
      (absent : world.snapshot subscriptionId = none) :
      ReconcileEnds clock now subscriptionId world (.error (.internal "resource_missing")) world
  | synchronized {link : StripeSubscriptionLink} {data : LicenseData} {snapshot : StripeSubscriptionSnapshot}
      {written : Instant} (linked : LinkedTo world subscriptionId link data)
      (known : world.snapshot subscriptionId = some snapshot) (time : clock written) :
      ReconcileEnds clock now subscriptionId world (.ok ()) (world.reconciled link data snapshot now written)

section Reconciliation

theorem reconcileForSubscriptionLicense_alone {fetched : FetchedSnapshot} (ticking : ∃ now, clock now)
    (linked : LinkedTo world subscriptionId link data) :
    Alone call clock used (StripeRepository.reconcileForSubscriptionLicense subscriptionId
        (linkUpdate link fetched.snapshot now) fetched) world fun result next =>
      next = world ∧ ∃ updated, result =
        .ok (some updated, some (link.licenseId, reconciledWrites link fetched now)) := by
  have there : world.tables.link link.licenseId = some link := by
    rw [Tables.link, linked.present]
    exact linked.linked
  refine alone_query ticking ?_
  rw [linked.found]
  refine alone_lockRow ticking linked.present (alone_lockLink ticking there linked.named ?_)
  have type : ¬(some data.row).map (fun row => row.type) ≠ some .subscription :=
    not_not.mpr (congrArg some linked.type)
  dsimp only
  rw [if_neg type]
  refine alone_draw ticking fun drawn _ _ => ?_
  exact alone_known (execute_alone ticking) (alone_pure ⟨rfl, _, rfl⟩)

theorem reconciled_rows (fetched : FetchedSnapshot) (written : Instant) :
    let after := applyWrites written (reconciledWrites link fetched now) data
    after.row.id = data.row.id ∧ after.row.keyHash = data.row.keyHash ∧ after.row.type = data.row.type ∧
      after.link = data.link.map ((linkUpdate link fetched.snapshot now).apply written) := by
  rw [reconciledWrites]
  cases fetched.snapshot.paidThrough <;> exact ⟨rfl, rfl, rfl, rfl⟩

theorem reconciled_present (linked : LinkedTo world subscriptionId link data) (snapshot : StripeSubscriptionSnapshot)
    (now written : Instant) : ∃ license, (world.reconciled link data snapshot now written).tables.license
      link.licenseId = some license ∧ license.type = .subscription := by
  refine ⟨(applyWrites written (reconciledWrites link ⟨snapshot, world.ticks⟩ now) data).license, ?_, ?_⟩
  · have here : (world.reconciled link data snapshot now written).tables.licenses link.licenseId =
        some (applyWrites written (reconciledWrites link ⟨snapshot, world.ticks⟩ now) data) :=
      Function.update_self _ _ _
    rw [Tables.license, here]
    rfl
  · exact (reconciled_rows ⟨snapshot, world.ticks⟩ written).2.2.1.trans linked.type

theorem reconcileOperation_alone (ticking : ∃ now, clock now) (billable : Billable world) :
    Alone call clock used (StripeSubscriptionService.reconcileOperation subscriptionId now) world fun result next =>
      (world.tables.findBySubscriptionId subscriptionId = none ∧ result = .ok (none, none) ∧ next = world) ∨
        ∃ link data, LinkedTo world subscriptionId link data ∧
          ((world.snapshot subscriptionId = none ∧ result = .error (.internal "resource_missing") ∧ next = world) ∨
            ∃ snapshot updated, world.snapshot subscriptionId = some snapshot ∧
              result = .ok (some (updated, link.licenseId),
                some (link.licenseId, reconciledWrites link ⟨snapshot, world.ticks⟩ now)) ∧
              next = { world with ticks := world.ticks + 1 }) := by
  refine alone_query ticking ?_
  cases found : world.tables.findBySubscriptionId subscriptionId with
  | none => exact alone_pure (.inl ⟨rfl, rfl, rfl⟩)
  | some link =>
      obtain ⟨data, linked⟩ := linkedTo_found billable found
      cases known : world.snapshot subscriptionId with
      | none => exact alone_resourceMissing ticking known (.inr ⟨link, data, linked, .inl ⟨rfl, rfl, rfl⟩⟩)
      | some snapshot =>
          refine alone_getSubscription ticking known ?_
          have still : LinkedTo { world with ticks := world.ticks + 1 } subscriptionId link data :=
            ⟨linked.found, linked.present, linked.linked, linked.named, linked.type⟩
          refine alone_then _ (reconcileForSubscriptionLicense_alone ticking still) ?_ ?_
          · rintro _ _ ⟨rfl, updated, same⟩
            cases same
            exact alone_pure (.inr ⟨link, data, linked, .inr ⟨snapshot, updated, rfl, rfl, rfl⟩⟩)
          · rintro _ _ ⟨-, updated, same⟩
            cases same

theorem reconciliation_alone (ticking : ∃ now, clock now) (billable : Billable world) :
    Alone call clock used (StripeRepository.withSubscriptionReconciliationLock subscriptionId
        (StripeSubscriptionService.reconcileOperation subscriptionId now)) world fun result next =>
      (world.tables.findBySubscriptionId subscriptionId = none ∧ result = .ok none ∧ next = world) ∨
        ∃ link data, LinkedTo world subscriptionId link data ∧
          ((world.snapshot subscriptionId = none ∧ result = .error (.internal "resource_missing") ∧ next = world) ∨
            ∃ snapshot updated written, world.snapshot subscriptionId = some snapshot ∧ clock written ∧
              result = .ok (some (updated, link.licenseId)) ∧
              next = world.reconciled link data snapshot now written) := by
  refine alone_orRollback ticking _ (alone_lock ticking (reconcileOperation_alone ticking billable)) ?_ ?_
  · rintro value next (⟨absent, same, rfl⟩ | ⟨link, data, linked, ⟨-, same, -⟩ |
      ⟨snapshot, updated, known, same, rfl⟩⟩)
    · cases same
      exact alone_finish ticking (alone_pure (.inl ⟨absent, rfl, rfl⟩))
    · cases same
    · cases same
      have fresh : ∀ keyHash keyPrefix, .rotateKey keyHash keyPrefix ∉
          reconciledWrites link ⟨snapshot, world.ticks⟩ now := by
        intro keyHash keyPrefix member
        rw [reconciledWrites] at member
        cases paid : snapshot.paidThrough <;> simp [paid] at member
      have lawful : (reconciledWrites link ⟨snapshot, world.ticks⟩ now).findSome?
          (Tables.violation { world with ticks := world.ticks + 1 }.tables link.licenseId) = none := by
        rw [reconciledWrites]
        cases snapshot.paidThrough <;> rfl
      refine alone_commit ticking linked.present (fun _ _ member => absurd member (fresh _ _)) lawful
        fun written time => ?_
      exact alone_pure (.inr ⟨link, data, linked, .inr ⟨snapshot, updated, written, known, time, rfl, rfl⟩⟩)
  · rintro error next (⟨-, same, -⟩ | ⟨link, data, linked, ⟨unknown, same, rfl⟩ | ⟨snapshot, updated, -, same, -⟩⟩)
    · cases same
    · cases same
      exact .inr ⟨link, data, linked, .inl ⟨unknown, rfl, rfl⟩⟩
    · cases same

theorem reconcileSubscription_alone (ticking : ∃ now, clock now) (billable : Billable world) :
    Alone call clock used (StripeSubscriptionService.reconcileSubscription subscriptionId now) world fun result next =>
      ReconcileEnds clock now subscriptionId world (result.map fun _ => ()) next := by
  refine alone_then _ (reconciliation_alone ticking billable) ?_ ?_
  · rintro value next (⟨absent, same, rfl⟩ | ⟨link, data, linked, ⟨-, same, -⟩ |
      ⟨snapshot, updated, written, known, time, same, rfl⟩⟩)
    · cases same
      exact alone_pure (.unlinked absent)
    · cases same
    · cases same
      obtain ⟨license, present, type⟩ := reconciled_present linked snapshot now written
      refine alone_findLicense ticking ?_
      rw [present]
      dsimp only
      rw [if_neg (not_not.mpr type)]
      exact alone_recorded ticking (alone_pure (.synchronized linked known time))
  · rintro error next (⟨-, same, -⟩ | ⟨link, data, linked, ⟨unknown, same, rfl⟩ |
      ⟨snapshot, updated, written, -, -, same, -⟩⟩)
    · cases same
    · cases same
      exact .unknown linked unknown
    · cases same

end Reconciliation

def World.linkFailed (world : World) (link : StripeSubscriptionLink) (data : LicenseData) (error : String)
    (written : Instant) : World :=
  world.setLicense link.licenseId { data with
    link := some { link with lastError := some error, updatedAt := written } }

def missingMessage : String := "resource_missing"

def namedSubscription (event : StripeWebhookEvent) : Option String :=
  (StripeWebhookService.eventSubscription event).filter fun subscriptionId => subscriptionId ≠ ""

inductive EventEnds (host : Host) (clock : Instant → Prop) (now : Instant) (event : StripeWebhookEvent)
    (world : World) : Bool → World → Prop
  | unlinked (absent : ∀ subscriptionId, namedSubscription event = some subscriptionId →
        world.tables.findBySubscriptionId subscriptionId = none) :
      EventEnds host clock now event world true (world.mark event.eventId (processedAt now))
  | synchronized {subscriptionId : String} {link : StripeSubscriptionLink} {data : LicenseData}
      {snapshot : StripeSubscriptionSnapshot} {written : Instant}
      (named : namedSubscription event = some subscriptionId) (linked : LinkedTo world subscriptionId link data)
      (known : world.snapshot subscriptionId = some snapshot) (time : clock written) :
      EventEnds host clock now event world true
        ((world.reconciled link data snapshot now written).mark event.eventId (processedAt now))
  | unknown {subscriptionId : String} {link : StripeSubscriptionLink} {data : LicenseData} {written : Instant}
      (named : namedSubscription event = some subscriptionId) (linked : LinkedTo world subscriptionId link data)
      (absent : world.snapshot subscriptionId = none) (time : clock written) :
      EventEnds host clock now event world false
        ((world.linkFailed link data missingMessage written).mark event.eventId
          (failedAt missingMessage (now + StripeWebhookService.retryDelay host event.attempts)))

section Events

variable {event : StripeWebhookEvent} {β : Type} {post : Except Failure β → World → Prop}

theorem alone_updateLinkError {error : String} {rest : Bool → Server β} (ticking : ∃ now, clock now)
    (linked : LinkedTo world subscriptionId link data)
    (then_ : ∀ written, clock written →
      Alone call clock used (rest true) (world.linkFailed link data error written) post) :
    Alone call clock used (perform (.updateLinkError subscriptionId error) >>= rest) world post := by
  intro locks unlocked
  have runs : ∀ input, Sane clock used input →
      exec call (.updateLinkError subscriptionId error) input (world.under locks) =
      some ((world.under locks).linkFailed link data error input.draw.now, .ok true) := by
    intro input sane
    have found : (world.under locks).tables.findBySubscriptionId subscriptionId = some link := linked.found
    have present : (world.under locks).tables.licenses link.licenseId = some data := linked.present
    simp only [exec, found, present, await, sane.faultless, unlocked_free unlocked, if_true]
    rfl
  refine alone_call ?_ (fun input after value sane ran => ?_) fun input after error sane ran => ?_
  · obtain ⟨input, sane, -⟩ := sane_input ticking used []
    exact ⟨input, sane, by rw [runs input sane]; rfl⟩
  · rw [runs input sane] at ran
    cases ran
    exact then_ _ sane.time _ unlocked
  · rw [runs input sane] at ran
    cases ran

theorem recordFailure_alone {message : String} (ticking : ∃ now, clock now)
    (linked : LinkedTo world subscriptionId link data) (named : subscriptionId ≠ "") :
    Alone call clock used (StripeWebhookService.recordFailure (some subscriptionId) message) world fun result next =>
      result = .ok () ∧ ∃ written, clock written ∧
        next = world.linkFailed link data (String.ofList (message.toList.take 1000)) written := by
  rw [StripeWebhookService.recordFailure, if_neg named]
  refine alone_covered ?_ ?_
  · refine alone_query ticking ?_
    rw [linked.found]
    refine alone_updateLinkError ticking linked fun written time => ?_
    exact alone_pure ⟨rfl, written, time, rfl⟩
  · rintro error next ⟨same, -⟩
    cases same

theorem namedSubscription_some (named : namedSubscription event = some subscriptionId) :
    StripeWebhookService.eventSubscription event = some subscriptionId ∧ subscriptionId ≠ "" := by
  obtain ⟨same, holds⟩ := Option.filter_eq_some_iff.mp named
  exact ⟨same, of_decide_eq_true holds⟩

theorem reconcileEvent_alone (ticking : ∃ now, clock now) (billable : Billable world) :
    Alone call clock used (StripeWebhookService.reconcileEvent (StripeWebhookService.eventSubscription event) now) world
      fun result next => (namedSubscription event = none ∧ result = .ok () ∧ next = world) ∨
        ∃ subscriptionId, namedSubscription event = some subscriptionId ∧
          ReconcileEnds clock now subscriptionId world result next := by
  cases subscription : StripeWebhookService.eventSubscription event with
  | none => exact alone_pure (.inl ⟨by rw [namedSubscription, subscription]; rfl, rfl, rfl⟩)
  | some subscriptionId =>
      rw [StripeWebhookService.reconcileEvent]
      split
      · next empty =>
        exact alone_pure (.inl ⟨by rw [namedSubscription, subscription, empty]; rfl, rfl, rfl⟩)
      · next named =>
        have filtered : namedSubscription event = some subscriptionId := by
          rw [namedSubscription, subscription, Option.filter_some, if_pos (decide_eq_true named)]
        refine alone_then _ (reconcileSubscription_alone ticking billable) ?_ ?_
        · exact fun value next ends => alone_pure (.inr ⟨subscriptionId, filtered, ends⟩)
        · exact fun error next ends => .inr ⟨subscriptionId, filtered, ends⟩

theorem failEvent_alone (ticking : ∃ now, clock now) (linked : LinkedTo world subscriptionId link data)
    (named : namedSubscription event = some subscriptionId) :
    Alone call clock used (StripeWebhookService.failEvent host event now (.internal missingMessage)) world
      fun result next => result = .ok false ∧ ∃ written, clock written ∧
        next = (world.linkFailed link data missingMessage written).mark event.eventId
          (failedAt missingMessage (now + StripeWebhookService.retryDelay host event.attempts)) := by
  obtain ⟨subscription, nonempty⟩ := namedSubscription_some named
  rw [StripeWebhookService.failEvent, subscription]
  refine alone_then _ (recordFailure_alone ticking linked nonempty) ?_ ?_
  · rintro _ _ ⟨-, written, time, rfl⟩
    refine alone_known (markFailed_alone ticking) (alone_recorded ticking (alone_pure ⟨rfl, written, time, ?_⟩))
    rfl
  · rintro _ _ ⟨same, -⟩
    cases same

theorem processOne_alone (ticking : ∃ now, clock now) (billable : Billable world) :
    Alone call clock used (StripeWebhookService.processOne host event now) world fun result next =>
      ∃ succeeded, result = .ok succeeded ∧ EventEnds host clock now event world succeeded next := by
  refine alone_caught (fun result next => (result = .ok true ∧ EventEnds host clock now event world true next) ∨
      result = .error (.internal missingMessage) ∧ next = world ∧ ∃ subscriptionId link data,
        namedSubscription event = some subscriptionId ∧ LinkedTo world subscriptionId link data ∧
          world.snapshot subscriptionId = none) ?_ ?_ ?_
  · refine alone_then _ (reconcileEvent_alone ticking billable) ?_ ?_
    · rintro value next (⟨unnamed, -, rfl⟩ | ⟨subscriptionId, named, ends⟩)
      · refine alone_known (markProcessed_alone ticking) (alone_pure (.inl ⟨rfl, .unlinked ?_⟩))
        intro subscriptionId named
        rw [unnamed] at named
        cases named
      · cases ends with
        | unlinked absent =>
            refine alone_known (markProcessed_alone ticking) (alone_pure (.inl ⟨rfl, .unlinked ?_⟩))
            intro other same
            rw [named] at same
            cases same
            exact absent
        | synchronized linked known time =>
            exact alone_known (markProcessed_alone ticking)
              (alone_pure (.inl ⟨rfl, .synchronized named linked known time⟩))
    · rintro error next (⟨-, same, -⟩ | ⟨subscriptionId, named, ends⟩)
      · cases same
      · cases ends with
        | unknown linked absent => exact .inr ⟨rfl, rfl, subscriptionId, _, _, named, linked, absent⟩
  · rintro value next (⟨same, ends⟩ | ⟨same, -⟩)
    · cases same
      exact ⟨true, rfl, ends⟩
    · cases same
  · rintro error next (⟨same, -⟩ | ⟨same, rfl, subscriptionId, link, data, named, linked, absent⟩)
    · cases same
    · cases same
      refine alone_weaken (failEvent_alone ticking linked named) ?_
      rintro _ _ ⟨rfl, written, time, rfl⟩
      exact ⟨false, rfl, .unknown named linked absent time⟩

end Events

end Keyzori
