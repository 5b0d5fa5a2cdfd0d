import Keyzori.Server.ProgramRules

namespace Keyzori

open Interleaving

variable {host : Host} {request : Request} {trace : ServerTrace} {α β : Type} {id : LicenseId}
  {subscriptionId : String} {claim : ServerDeed}

section Lock

variable (host request) in
def Bracketed (ready : α → Option (LicenseId × List Write) → ServerTrace → Prop)
    (result : Except Failure α) (after : ServerTrace) : Prop :=
  Idle after ∧ ∀ value, result = .ok value → ∃ before written deed,
    ready value written before ∧ after = before ++ [deed] ∧
      ∀ id writes, written = some (id, writes) → ∃ rows, deed = ⟨.commit id none writes, .ok rows⟩

theorem withSubscriptionReconciliationLock_meets
    {operation : Server (α × Option (LicenseId × List Write))}
    (ready : α → Option (LicenseId × List Write) → ServerTrace → Prop)
    (inside : Meets host request operation
      (trace ++ [⟨.lock (.stripe subscriptionId), .ok ()⟩]) fun result after =>
        ∀ value written, result = .ok (value, written) → ready value written after)
    (commits : ∀ value id writes after, ready value (some (id, writes)) after →
      Commits host request after id writes) :
    Meets host request (StripeRepository.withSubscriptionReconciliationLock subscriptionId operation)
      trace (Bracketed ready) := by
  refine meets_bind (fun result after => match result with
    | .ok (value, written) => ready value written after
    | .error _ => Idle after) ?_ ?_ (fun _ _ idle => ⟨idle, fun _ same => by cases same⟩)
  · refine meets_orRollback (fun result after => ∀ value written, result = .ok (value, written) →
      ready value written after) ?_ ?_ (fun _ _ _ _ _ => idle_ends rfl)
    · exact meets_act True.intro (fun _ => inside) (fun _ _ _ same => by cases same)
    · rintro ⟨value, written⟩ after holds
      exact holds value written rfl
  · rintro ⟨value, written⟩ before holds
    cases written with
    | none =>
        refine meets_act True.intro (fun _ => ⟨idle_ends rfl, fun other same => ?_⟩)
          (fun _ => ⟨idle_ends rfl, fun _ same => by cases same⟩)
        cases same
        exact ⟨before, none, _, holds, rfl, fun _ _ same => by cases same⟩
    | some written =>
        obtain ⟨id, writes⟩ := written
        refine meets_act (commits value id writes before holds)
          (fun rows => ⟨idle_ends rfl, fun other same => ?_⟩)
          (fun _ => ⟨idle_ends rfl, fun _ same => by cases same⟩)
        cases same
        refine ⟨before, some (id, writes), _, holds, rfl, fun other writes same => ?_⟩
        cases same
        exact ⟨rows, rfl⟩

end Lock

section Reconcile

variable (request) in
/-- A reconciliation settles its subscription after every claim made before its lock. -/
def Settling (base : ServerTrace) (subscriptionId : String) (after : ServerTrace) : Prop :=
  ∀ claim, InOrder base claim ⟨.lock (.stripe subscriptionId), .ok ()⟩ →
    Settled request after claim subscriptionId

theorem settling_append {base : ServerTrace} {deed : ServerDeed} (grown : base <+: trace)
    (settles : Settles request trace subscriptionId deed) (others : ServerTrace) :
    Settling request base subscriptionId (trace ++ deed :: others) :=
  fun _ ordered => ⟨trace, deed, others, rfl, settles, inOrder_prefix ordered grown⟩

variable (host request) in
def Ready (base : ServerTrace) (subscriptionId : String) (written : Option (LicenseId × List Write))
    (after : ServerTrace) : Prop :=
  match written with
  | none => Settling request base subscriptionId after
  | some (id, writes) => base <+: after ∧ Commits host request after id writes ∧
      ∀ rows, Settles request after subscriptionId ⟨.commit id none writes, .ok rows⟩

theorem reconciling_meets {existing locked : StripeSubscriptionLink} {row : Option StoredLicense}
    {fetched : FetchedSnapshot} {now : Instant} {base : ServerTrace}
    (reconciling : Reconciling request trace subscriptionId existing locked id row fetched)
    (grown : base <+: trace) :
    Meets host request (do
      if row.map (fun row => row.type) ≠ some .subscription then
        let writes ← execute [.deleteLink]
        return (none, some (id, writes))
      else do
        let draw ← draw
        let writes ← execute (.updateLink (linkUpdate existing fetched.snapshot now) fetched ::
          (fetched.snapshot.paidThrough.map Write.setExpiresAt).toList)
        return (some ((linkUpdate existing fetched.snapshot now).apply draw.now locked), some (id, writes)))
      trace fun result after => ∀ link written, result = .ok (link, written) →
        Ready host request base subscriptionId written after := by
  have kept : ∀ after, Quietly trace after →
      Reconciling request after subscriptionId existing locked id row fetched := fun after quietly =>
    ⟨reconciling.asked, under_quietly quietly reconciling.existing,
      reconciling.candidate.imp fun _ read => ⟨read.1, under_quietly quietly read.2⟩,
      under_quietly quietly reconciling.fetched, within_quietly quietly reconciling.row,
      within_quietly quietly reconciling.locked⟩
  split
  · next other =>
    refine meets_execute ?_ (fun _ _ _ same => by cases same)
    rintro link written same
    cases same
    have still := kept (trace ++ [⟨.query fun _ => (), .ok ()⟩]) (along_step along_refl rfl _)
    refine ⟨grown.trans (List.prefix_append _ _), ?_, fun rows => ?_⟩
    · exact .disconnected subscriptionId existing locked id row fetched still other
    · exact .committed id existing locked row fetched _ rows still (.inl rfl)
  · next subscription =>
    refine meets_act True.intro (fun drawn => ?_) (fun _ _ _ same => by cases same)
    refine meets_execute ?_ (fun _ _ _ same => by cases same)
    rintro link written same
    cases same
    have still := kept (trace ++ [⟨.draw, .ok drawn⟩] ++ [⟨.query fun _ => (), .ok ()⟩])
      (along_step (along_step along_refl rfl _) rfl _)
    refine ⟨(grown.trans (List.prefix_append _ _)).trans (List.prefix_append _ _), ?_, fun rows => ?_⟩
    · cases row with
      | none => simp at subscription
      | some row =>
          exact .reconciled subscriptionId existing locked id row fetched now still (by simpa using subscription)
    · exact .committed id existing locked row fetched _ rows still (.inr ⟨_, .head _⟩)

theorem reconcileForSubscriptionLicense_meets {existing : StripeSubscriptionLink}
    {fetched : FetchedSnapshot} {now : Instant} {base : ServerTrace}
    (asked : request.synchronizes = true) (held : Holding trace (.stripe subscriptionId))
    (read : Under trace (.stripe subscriptionId)
      (.query fun tables => tables.findBySubscriptionId subscriptionId) (some existing))
    (fetch : Fetched trace subscriptionId fetched) (grown : base <+: trace) :
    Meets host request (StripeRepository.reconcileForSubscriptionLicense subscriptionId
      (linkUpdate existing fetched.snapshot now) fetched) trace fun result after =>
        ∀ link written, result = .ok (link, written) →
          Ready host request base subscriptionId written after := by
  refine meets_act True.intro (fun found => ?_) (fun _ _ _ same => by cases same)
  cases found with
  | none =>
      rintro link written same
      cases same
      exact settling_append grown (.unlinked held) []
  | some candidate =>
      have seen : Under (trace ++ [⟨.query fun tables => tables.findBySubscriptionId subscriptionId,
          .ok (some candidate)⟩]) (.stripe subscriptionId)
          (.query fun tables => tables.findBySubscriptionId subscriptionId) (some candidate) :=
        under_append.mpr ⟨rfl, .inr ⟨held, rfl⟩⟩
      have longer := grown.trans (List.prefix_append trace
        [⟨.query fun tables => tables.findBySubscriptionId subscriptionId, .ok (some candidate)⟩])
      have first : Under (trace ++ [⟨.query fun tables => tables.findBySubscriptionId subscriptionId,
          .ok (some candidate)⟩]) (.stripe subscriptionId)
          (.query fun tables => tables.findBySubscriptionId subscriptionId) (some existing) :=
        under_append.mpr ⟨rfl, .inl read⟩
      have second : Fetched (trace ++ [⟨.query fun tables => tables.findBySubscriptionId subscriptionId,
          .ok (some candidate)⟩]) subscriptionId fetched := under_append.mpr ⟨rfl, .inl fetch⟩
      generalize trace ++ [⟨.query fun tables => tables.findBySubscriptionId subscriptionId,
        .ok (some candidate)⟩] = trace at *
      refine meets_act True.intro (fun row => ?_) (fun _ _ _ same => by cases same)
      refine meets_act True.intro (fun found => ?_) (fun _ _ _ same => by cases same)
      cases found with
      | none =>
          rintro link written same
          cases same
          refine settling_append (longer.trans (List.prefix_append _ _)) (.vanished _ candidate ?_ rfl) []
          exact under_append.mpr ⟨rfl, .inl seen⟩
      | some locked =>
          refine reconciling_meets ⟨asked, ?_, ⟨candidate, rfl, ?_⟩, ?_, ?_, ?_⟩
            ((longer.trans (List.prefix_append _ _)).trans (List.prefix_append _ _))
          · exact under_append.mpr ⟨rfl, .inl (under_append.mpr ⟨rfl, .inl first⟩)⟩
          · exact under_append.mpr ⟨rfl, .inl (under_append.mpr ⟨rfl, .inl seen⟩)⟩
          · exact under_append.mpr ⟨rfl, .inl (under_append.mpr ⟨rfl, .inl second⟩)⟩
          · exact within_append.mpr ⟨rfl, .inl (within_append.mpr ⟨rfl, .inr rfl⟩)⟩
          · exact within_append.mpr ⟨rfl, .inr rfl⟩

theorem reconcileOperation_meets {now : Instant} (asked : request.synchronizes = true)
    (held : Holding trace (.stripe subscriptionId)) :
    Meets host request (StripeSubscriptionService.reconcileOperation subscriptionId now) trace
      fun result after => ∀ value written, result = .ok (value, written) →
        Ready host request trace subscriptionId written after := by
  refine meets_act True.intro (fun found => ?_) (fun _ _ _ same => by cases same)
  cases found with
  | none =>
      rintro value written same
      cases same
      exact settling_append (List.prefix_refl _) (.unlinked held) []
  | some existing =>
      refine meets_act asked (fun fetched => ?_) (fun _ _ _ same => by cases same)
      have first : Under (trace ++ [⟨.query fun tables => tables.findBySubscriptionId subscriptionId,
            .ok (some existing)⟩] ++ [⟨.getSubscription subscriptionId, .ok fetched⟩])
          (.stripe subscriptionId)
          (.query fun tables => tables.findBySubscriptionId subscriptionId) (some existing) :=
        under_append.mpr ⟨rfl, .inl (under_append.mpr ⟨rfl, .inr ⟨held, rfl⟩⟩)⟩
      have second : Fetched (trace ++ [⟨.query fun tables => tables.findBySubscriptionId subscriptionId,
            .ok (some existing)⟩] ++ [⟨.getSubscription subscriptionId, .ok fetched⟩])
          subscriptionId fetched :=
        under_append.mpr ⟨rfl, .inr ⟨holding_append.mpr ⟨rfl, .inl held⟩, rfl⟩⟩
      have holds : Holding (trace ++ [⟨.query fun tables => tables.findBySubscriptionId subscriptionId,
            .ok (some existing)⟩] ++ [⟨.getSubscription subscriptionId, .ok fetched⟩])
          (.stripe subscriptionId) :=
        holding_append.mpr ⟨rfl, .inl (holding_append.mpr ⟨rfl, .inl held⟩)⟩
      refine meets_bind _ (reconcileForSubscriptionLicense_meets asked holds first second
        ((List.prefix_append _ _).trans (List.prefix_append _ _))) ?_ (fun _ _ _ _ _ same => by cases same)
      rintro ⟨link, written⟩ after ready value written' same
      cases same
      exact ready link written rfl

theorem settled_prefix {after : ServerTrace} (settled : Settled request trace claim subscriptionId)
    (grown : trace <+: after) : Settled request after claim subscriptionId := by
  obtain ⟨before, deed, others, rfl, settles, ordered⟩ := settled
  obtain ⟨deeds, rfl⟩ := grown
  exact ⟨before, deed, others ++ deeds, by simp, settles, ordered⟩

theorem reconcileSubscription_meets {now : Instant} (asked : request.synchronizes = true) :
    Meets host request (StripeSubscriptionService.reconcileSubscription subscriptionId now) trace
      fun result after => Idle after ∧ ∀ value, result = .ok value → ∀ claim ∈ trace,
        Settled request after claim subscriptionId := by
  refine meets_bind _ (withSubscriptionReconciliationLock_meets
    (fun _ => Ready host request (trace ++ [⟨.lock (.stripe subscriptionId), .ok ()⟩]) subscriptionId)
    (reconcileOperation_meets asked (holding_append.mpr ⟨rfl, .inr rfl⟩)) ?_) ?_
    (fun _ _ ended => ⟨ended.1, fun _ same => by cases same⟩)
  · exact fun _ _ _ _ ready => ready.2.1
  · rintro value middle ⟨calm, ended⟩
    have settled : ∀ claim ∈ trace, Settled request middle claim subscriptionId := by
      intro claim member
      have ordered : InOrder (trace ++ [⟨.lock (.stripe subscriptionId), .ok ()⟩]) claim
          ⟨.lock (.stripe subscriptionId), .ok ()⟩ := inOrder_append.mpr (.inr ⟨member, rfl⟩)
      obtain ⟨before, written, deed, ready, rfl, commits⟩ := ended value rfl
      cases written with
      | none => exact settled_prefix (ready claim ordered) (List.prefix_append _ _)
      | some written =>
          obtain ⟨id, writes⟩ := written
          obtain ⟨rows, rfl⟩ := commits id writes rfl
          exact ⟨before, _, [], rfl, ready.2.2 rows, inOrder_prefix ordered ready.1⟩
    have still : ∀ after, Quietly middle after → ∀ claim ∈ trace, Settled request after claim subscriptionId := by
      rintro after ⟨deeds, -, rfl⟩ claim member
      exact settled_prefix (settled claim member) (List.prefix_append _ _)
    cases value with
    | none => exact ⟨calm, fun _ _ => settled⟩
    | some found =>
        obtain ⟨link, licenseId⟩ := found
        have read : ∀ result, Quietly middle (middle ++ [⟨.findLicense licenseId, result⟩]) :=
          fun result => along_step along_refl rfl result
        refine meets_act True.intro (fun found => ?_)
          (fun _ => ⟨idle_quietly (read _) calm, fun _ same => by cases same⟩)
        cases found with
        | none => exact ⟨idle_quietly (read _) calm, fun _ _ => still _ (read _)⟩
        | some license =>
            dsimp only
            split
            · exact ⟨idle_quietly (read _) calm, fun _ _ => still _ (read _)⟩
            · have captured := fun result => @along_step _ _ _ (read (.ok (some license)))
                (.capture "stripe.synchronized") rfl result
              refine meets_act True.intro (fun _ => ?_)
                (fun _ => ⟨idle_quietly (captured _) calm, fun _ same => by cases same⟩)
              exact ⟨idle_quietly (captured _) calm, fun _ _ => still _ (captured _)⟩

end Reconcile

section Services

variable {licenseId : LicenseId}

theorem createLink_meets {now : Instant} (asked : request = .linkLicense licenseId subscriptionId)
    (held : Holding trace (.stripe subscriptionId)) :
    Meets host request (StripeSubscriptionService.createLink licenseId subscriptionId now) trace
      fun result after => ∀ outcome written, result = .ok (outcome, written) →
        ∀ id writes, written = some (id, writes) → Commits host request after id writes := by
  refine meets_act (show request.synchronizes = true by rw [asked]; rfl) (fun fetched => ?_)
    (fun _ _ _ same => by cases same)
  have fetch : Fetched (trace ++ [⟨.getSubscription subscriptionId, .ok fetched⟩]) subscriptionId fetched :=
    under_append.mpr ⟨rfl, .inr ⟨held, rfl⟩⟩
  generalize trace ++ [⟨.getSubscription subscriptionId, .ok fetched⟩] = trace at fetch
  refine meets_except (fun _ _ => ?_) (fun _ _ _ _ same => by cases same)
  refine meets_bind (fun result after => ∀ link writes, result = .ok (some (link, writes)) →
    Commits host request after licenseId writes) ?_ ?_ (fun _ _ _ _ _ same => by cases same)
  · refine meets_act True.intro (fun row => ?_) (fun _ _ _ same => by cases same)
    dsimp only
    split
    · exact fun _ _ same => by cases same
    · next typed =>
      split
      · exact fun _ _ same => by cases same
      · next paidThrough paid =>
        refine meets_act True.intro (fun drawn => ?_) (fun _ _ _ same => by cases same)
        refine meets_act True.intro (fun violated => ?_) (fun _ _ _ same => by cases same)
        cases violated with
        | some constraint => exact fun _ _ same => by cases same
        | none =>
            refine meets_execute ?_ (fun _ _ _ same => by cases same)
            rintro link writes same
            cases same
            cases row with
            | none => simp at typed
            | some row =>
                refine .linked licenseId subscriptionId row fetched paidThrough now drawn asked ?_ ?_
                  (by simpa using typed) paid
                · exact under_quietly (along_step (along_step (along_step along_refl rfl _) rfl _)
                    rfl _) (under_append.mpr ⟨rfl, .inl fetch⟩)
                · exact within_quietly (along_step (along_step (along_step along_refl rfl _) rfl _)
                    rfl _) (within_append.mpr ⟨rfl, .inr rfl⟩)
  · rintro value after commits
    cases value with
    | none => exact fun _ _ same => by cases same
    | some value =>
        obtain ⟨link, writes⟩ := value
        rintro outcome written same id writes' rfl
        cases same
        exact commits link writes rfl

theorem linkOperation_meets {now : Instant} (asked : request = .linkLicense licenseId subscriptionId)
    (held : Holding trace (.stripe subscriptionId)) :
    Meets host request (StripeSubscriptionService.linkOperation licenseId subscriptionId now) trace
      fun result after => ∀ outcome written, result = .ok (outcome, written) →
        ∀ id writes, written = some (id, writes) → Commits host request after id writes := by
  refine meets_act True.intro (fun licenseLink => ?_) (fun _ _ _ same => by cases same)
  refine meets_act True.intro (fun subscriptionLink => ?_) (fun _ _ _ same => by cases same)
  have holds := holding_quietly (along_step (along_step along_refl rfl (.ok licenseLink)) rfl
    (.ok subscriptionLink)) held
  cases licenseLink with
  | some link =>
      dsimp only
      split
      · rintro outcome written same id writes rfl
        cases same
      · exact fun _ _ same => by cases same
  | none =>
      cases subscriptionLink with
      | some link => exact fun _ _ same => by cases same
      | none => exact createLink_meets asked holds

theorem translateLinkError_meets {error : Failure} :
    Meets host request (StripeSubscriptionService.translateLinkError licenseId subscriptionId error)
      trace fun _ _ => True := by
  refine meets_act True.intro (fun racedLicenseLink => ?_) (fun _ => trivial)
  refine meets_act True.intro (fun racedSubscriptionLink => ?_) (fun _ => trivial)
  cases error with
  | integration => trivial
  | domain | internal =>
      dsimp only
      split
      · trivial
      · split <;> trivial

theorem linkLicense_meets (asked : request = .linkLicense licenseId subscriptionId) :
    Meets host request (StripeSubscriptionService.linkLicense licenseId subscriptionId) trace
      fun _ _ => True := by
  refine meets_act True.intro (fun now => ?_) (fun _ => trivial)
  refine meets_bind (fun _ _ => True) ?_ (fun _ middle _ => ?_) (fun _ _ _ => trivial)
  · refine meets_act True.intro (fun found => ?_) (fun _ => trivial)
    cases found with
    | none => trivial
    | some license =>
        dsimp only
        split <;> trivial
  · refine meets_bind (fun _ _ => True) ?_ (fun outcome after _ => ?_) (fun _ _ _ => trivial)
    · refine Prog.wp_tryCatch _ (withSubscriptionReconciliationLock_meets
        (fun _ written after => ∀ id writes, written = some (id, writes) →
          Commits host request after id writes)
        (linkOperation_meets asked (holding_append.mpr ⟨rfl, .inr rfl⟩)) ?_)
        (fun _ _ _ => trivial) (fun _ _ _ => translateLinkError_meets)
      exact fun _ _ _ _ ready => ready _ _ rfl
    · cases outcome with
      | reconcile =>
          refine meets_bind _ (reconcileSubscription_meets (by rw [asked]; rfl)) ?_ (fun _ _ _ => trivial)
          rintro reconciled _ -
          cases reconciled <;> trivial
      | created link =>
          refine meets_act True.intro (fun found => ?_) (fun _ => trivial)
          cases found with
          | none => trivial
          | some license =>
              dsimp only
              split
              · trivial
              · exact meets_act True.intro (fun _ => trivial) (fun _ => trivial)

theorem unlinkLicense_meets (asked : request = .unlinkLicense licenseId) :
    Meets host request (StripeSubscriptionService.unlinkLicense licenseId) trace fun _ _ => True := by
  refine meets_act True.intro (fun _ => ?_) (fun _ => trivial)
  refine meets_act True.intro (fun found => ?_) (fun _ => trivial)
  cases found with
  | none => trivial
  | some link =>
      refine meets_bind (fun _ _ => True) ?_ (fun deleted _ _ => ?_) (fun _ _ _ => trivial)
      · exact meets_act (Commits.unlinked licenseId link asked (took_append.mpr (.inr rfl)))
          (fun _ => trivial) (fun _ => trivial)
      · refine meets_end (Prog.only_bind ?_ fun _ => trivial)
        split
        · exact Prog.only_call rfl
        · trivial

theorem syncLicense_meets (asked : request.synchronizes = true) :
    Meets host request (StripeSubscriptionService.syncLicense licenseId) trace fun _ _ => True := by
  refine meets_act True.intro (fun now => ?_) (fun _ => trivial)
  refine meets_act True.intro (fun found => ?_) (fun _ => trivial)
  cases found with
  | none => trivial
  | some link => exact Prog.wp_mono (reconcileSubscription_meets asked) fun _ _ _ => trivial

theorem receive_meets {event : Except Failure StripeEvent} (asked : request.receives = true) :
    Meets host request (StripeWebhookService.receive event) trace fun _ _ => True := by
  refine meets_except (fun event _ => ?_) (fun _ _ => trivial)
  exact meets_act asked (fun _ => trivial) (fun _ => trivial)

end Services

section Inbox

variable {event : StripeWebhookEvent} {now : Instant}

theorem recordFailure_meets {subscription : Option String} {message : String}
    (asked : request.synchronizes = true) (idle : Idle trace) :
    Meets host request (StripeWebhookService.recordFailure subscription message) trace
      fun _ after => Idle after ∧ trace <+: after := by
  cases subscription with
  | none => exact ⟨idle, List.prefix_refl _⟩
  | some subscriptionId =>
      rw [StripeWebhookService.recordFailure]
      split
      · exact ⟨idle, List.prefix_refl _⟩
      · refine Prog.wp_tryCatch (fun _ after => Idle after ∧ trace <+: after) ?_ (fun _ _ holds => holds)
          (fun _ _ holds => holds)
        have read := fun result => @idle_append _
          ⟨.query fun tables => tables.findBySubscriptionId subscriptionId, result⟩ idle rfl
        refine meets_act True.intro (fun found => ?_) (fun _ => ⟨read _, List.prefix_append _ _⟩)
        cases found with
        | none => exact ⟨read _, List.prefix_append _ _⟩
        | some link =>
            have longer : ∀ first second : ServerDeed, trace <+: trace ++ [first] ++ [second] := by
              intro first second
              rw [List.append_assoc]
              exact List.prefix_append _ _
            refine meets_act ⟨read _, asked⟩ (fun updated => ?_) (fun _ => ⟨idle_append (read _) rfl, longer _ _⟩)
            cases updated <;> exact ⟨idle_append (read _) rfl, longer _ _⟩

theorem reconcileEvent_meets {subscription : Option String} (asked : request.synchronizes = true)
    (idle : Idle trace) (member : claim ∈ trace) :
    Meets host request (StripeWebhookService.reconcileEvent subscription now) trace
      fun result after => (Idle after ∧ ∀ value, result = .ok value → ∀ subscriptionId,
        subscription = some subscriptionId → subscriptionId ≠ "" →
          Settled request after claim subscriptionId) ∧ trace <+: after := by
  refine Prog.wp_grows ?_
  cases subscription with
  | none => exact ⟨idle, fun _ _ _ same => by cases same⟩
  | some subscriptionId =>
      rw [StripeWebhookService.reconcileEvent]
      split
      · next empty =>
        refine ⟨idle, fun _ _ other same nonempty => absurd ?_ nonempty⟩
        rw [← Option.some.inj same, empty]
      · refine meets_bind _ (reconcileSubscription_meets asked) ?_
          (fun _ _ holds => ⟨holds.1, fun _ same => by cases same⟩)
        rintro value after ⟨calm, settled⟩
        refine ⟨calm, fun _ _ other same _ => ?_⟩
        rw [← Option.some.inj same]
        exact settled value rfl claim member

theorem processes_synchronizes (asked : request.processes = true) : request.synchronizes = true := by
  cases request <;> first | rfl | cases asked

/-- One event: it is marked as processed only after its subscription was settled. -/
theorem processOne_meets {limit : Nat} {events : List StripeWebhookEvent} {claimedAt : Instant}
    (asked : request.processes = true) (idle : Idle trace) (member : event ∈ events)
    (claimed : Took trace (.claimDue limit claimedAt) events) :
    Meets host request (StripeWebhookService.processOne host event now) trace
      fun _ after => Idle after ∧ trace <+: after := by
  refine Prog.wp_tryCatch (fun _ after => Idle after ∧ trace <+: after) ?_ (fun _ _ holds => holds) ?_
  · refine meets_bind _ (reconcileEvent_meets (processes_synchronizes asked) idle claimed) ?_
      (fun _ _ holds => ⟨holds.1.1, holds.2⟩)
    rintro value after ⟨⟨calm, settled⟩, grown⟩
    have marks : Processes request after event.eventId :=
      ⟨asked, limit, claimedAt, events, event, member, rfl, grown.subset claimed, settled value rfl⟩
    have longer := fun result => grown.trans
      (List.prefix_append after [(⟨.markProcessed event.eventId now, result⟩ : ServerDeed)])
    refine meets_act marks (fun _ => ?_) (fun _ => ⟨idle_append calm rfl, longer _⟩)
    exact ⟨idle_append calm rfl, longer _⟩
  · rintro error after ⟨calm, grown⟩
    refine meets_bind _ (recordFailure_meets (processes_synchronizes asked) calm) ?_
      (fun _ _ holds => ⟨holds.1, grown.trans holds.2⟩)
    rintro _ later ⟨still, longer⟩
    have marked := fun result => @idle_append _ ⟨.markFailed event.eventId (errorMessage error)
      (now + StripeWebhookService.retryDelay host event.attempts), result⟩ still rfl
    have reached := (grown.trans longer).trans (List.prefix_append later
      [⟨.markFailed event.eventId (errorMessage error)
        (now + StripeWebhookService.retryDelay host event.attempts), .ok ()⟩])
    refine meets_act asked (fun _ => ?_)
      (fun _ => ⟨marked _, (grown.trans longer).trans (List.prefix_append _ _)⟩)
    refine meets_act True.intro (fun _ => ?_)
      (fun _ => ⟨idle_append (marked _) rfl, reached.trans (List.prefix_append _ _)⟩)
    exact ⟨idle_append (marked _) rfl, reached.trans (List.prefix_append _ _)⟩

theorem processAll_meets {limit : Nat} {claimed events : List StripeWebhookEvent} {claimedAt : Instant}
    (asked : request.processes = true) (idle : Idle trace)
    (members : ∀ event ∈ events, event ∈ claimed)
    (took : Took trace (.claimDue limit claimedAt) claimed) :
    Meets host request (StripeWebhookService.processAll host now events) trace fun _ _ => True := by
  induction events generalizing trace with
  | nil => trivial
  | cons event events ih =>
      refine meets_bind _ (processOne_meets asked idle (members event (.head _)) took) ?_
        (fun _ _ _ => trivial)
      rintro succeeded after ⟨calm, grown⟩
      refine meets_bind (fun _ _ => True) (ih calm ?_ (grown.subset took)) (fun _ _ _ => trivial)
        (fun _ _ _ => trivial)
      exact fun other member => members other (List.mem_cons_of_mem _ member)

theorem claimDue_meets {limit : Number} (asked : request.processes = true) (idle : Idle trace) :
    Meets host request (WebhookRepository.claimDue limit now) trace fun result after =>
      Idle after ∧ ∀ claimed, result = .ok claimed →
        claimed = [] ∨ ∃ limit, Took after (.claimDue limit now) claimed := by
  have nothing : Idle trace ∧ ∀ claimed : List StripeWebhookEvent,
      (Except.ok [] : Except Failure (List StripeWebhookEvent)) = .ok claimed →
        claimed = [] ∨ ∃ limit, Took trace (.claimDue limit now) claimed :=
    ⟨idle, fun _ same => .inl (Except.ok.inj same).symm⟩
  cases limit with
  | other => exact nothing
  | integer limit =>
      rw [WebhookRepository.claimDue]
      split
      · exact nothing
      · refine meets_last ⟨idle, asked⟩ fun result => ⟨idle_append idle rfl, ?_⟩
        rintro claimed rfl
        exact .inr ⟨_, took_append.mpr (.inr rfl)⟩

theorem processDue_meets {limit : Number} (asked : request.processes = true) (idle : Idle trace) :
    Meets host request (StripeWebhookService.processDue host limit) trace fun _ _ => True := by
  refine meets_act True.intro (fun now => ?_) (fun _ => trivial)
  refine meets_bind _ (claimDue_meets asked (idle_append idle rfl)) ?_ (fun _ _ _ => trivial)
  rintro claimed after ⟨calm, took⟩
  refine meets_bind (fun _ _ => True) ?_ (fun _ _ _ => trivial) (fun _ _ _ => trivial)
  rcases took claimed rfl with rfl | ⟨limit, took⟩
  · trivial
  · exact processAll_meets asked calm (fun _ member => member) took

end Inbox

end Keyzori
