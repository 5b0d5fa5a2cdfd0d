import Keyzori.Library.Doubles
import Keyzori.Server.Shape
import Keyzori.Server.Versions

namespace Keyzori

open Interleaving

namespace StripeGateway

inductive Expandable
  | null
  | id (id : String)
  | object (id : String)
  deriving DecidableEq

def expandableId : Expandable → Option String
  | .null => none
  | .id id => if id = "" then none else some id
  | .object id => some id

/-- What may stand in `current_period_end`. Doubles are taken as the rationals they are. -/
inductive PeriodEnd
  | missing
  | notFinite
  | seconds (value : ℚ)
  deriving DecidableEq

def PeriodEnd.finite : PeriodEnd → Option ℚ
  | seconds value => some value
  | missing | notFinite => none

structure SubscriptionItem where
  currentPeriodEnd : PeriodEnd
  price : Expandable
  deriving DecidableEq

structure Subscription where
  id : String
  customer : Expandable
  status : String
  cancelAtPeriodEnd : Bool
  items : List SubscriptionItem
  deriving DecidableEq

inductive Date
  | valid (instant : Instant)
  | invalid
  deriving DecidableEq

def maxTime : ℚ := 8640000000000000

/-- `new Date(milliseconds)` cuts a fraction off. -/
def newDate (milliseconds : ℚ) : Date :=
  if milliseconds < -maxTime ∨ maxTime < milliseconds then .invalid
  else .valid (milliseconds.num.tdiv milliseconds.den)

/-- An invalid date compares with nothing. -/
def Date.isAfter (date : Date) (now : Instant) : Bool :=
  match date with
  | valid instant => now < instant
  | invalid => false

/-- The snapshot as the gateway returns it. -/
structure Summary where
  subscriptionId : String
  stripeCustomerId : String
  status : String
  paidThrough : Option Date
  cancelAtPeriodEnd : Bool
  priceIds : List String
  billingBlocked : Bool
  deriving DecidableEq

/-- The snapshot as statements can store it: writing an invalid date throws. -/
def Summary.storable (summary : Summary) : Option StripeSubscriptionSnapshot :=
  match summary.paidThrough with
  | some .invalid => none
  | some (.valid paidThrough) => some
      ⟨summary.subscriptionId, summary.stripeCustomerId, summary.status, some paidThrough,
        summary.cancelAtPeriodEnd, summary.priceIds, summary.billingBlocked⟩
  | none => some
      ⟨summary.subscriptionId, summary.stripeCustomerId, summary.status, none,
        summary.cancelAtPeriodEnd, summary.priceIds, summary.billingBlocked⟩

def periodEnds (subscription : Subscription) : List ℚ :=
  subscription.items.filterMap fun item => item.currentPeriodEnd.finite

/-- The product is one of doubles. What is too large or too small for their exponents is no
date either way, or one of less than a millisecond. -/
def periodDate (seconds : ℚ) : Date := newDate (Doubles.round (seconds * 1000))

/-- Zero seconds are falsy, as no period end is. -/
def paidThrough (subscription : Subscription) : Option Date :=
  match (periodEnds subscription).min? with
  | some paidThroughSeconds => if paidThroughSeconds = 0 then none else some (periodDate paidThroughSeconds)
  | none => none

def terminal : List String := ["canceled", "incomplete_expired", "paused", "unpaid"]

def statusAllowsAccess (status : String) : Bool :=
  status = "active" || status = "trialing" || status = "past_due"

/-- `now` is the gateway's clock, which counts up from the epoch. -/
def summarizeSubscription (subscription : Subscription) (now : Nat) : Except Failure Summary :=
  let stripeCustomerId := (expandableId subscription.customer).getD ""
  let periodAllowsAccess := (paidThrough subscription).any fun paidThrough => paidThrough.isAfter now
  if stripeCustomerId = "" then .error (.internal "Stripe subscription has no customer ID.")
  else .ok
    { subscriptionId := subscription.id
      stripeCustomerId
      status := subscription.status
      paidThrough := paidThrough subscription
      cancelAtPeriodEnd := subscription.cancelAtPeriodEnd
      priceIds := (subscription.items.filterMap fun item => expandableId item.price).eraseDups
      billingBlocked := terminal.contains subscription.status ||
        !statusAllowsAccess subscription.status || !periodAllowsAccess }

def EndsAfter (seconds : ℚ) (time : Instant) : Prop := ((time : Int) : ℚ) < seconds * 1000

/-- To the millisecond, the precision of a date. -/
def DateAfter (seconds : ℚ) (time : Instant) : Prop := ∃ instant, periodDate seconds = .valid instant ∧ time < instant

/-- What the subscription says about access at a time, under a reading of its period ends. -/
def Grants (after : ℚ → Instant → Prop) (subscription : Subscription) (time : Instant) : Prop :=
  (subscription.status = "active" ∨ subscription.status = "trialing" ∨ subscription.status = "past_due") ∧
    ∃ least ∈ periodEnds subscription, (∀ other ∈ periodEnds subscription, least ≤ other) ∧ after least time

def EndsWhole (subscription : Subscription) : Prop :=
  ∀ least ∈ periodEnds subscription, (∀ other ∈ periodEnds subscription, least ≤ other) →
    ∃ seconds : Int, least = seconds

section Summary

variable {subscription : Subscription} {now : Nat} {time : Instant} {summary : Summary}
  {snapshot : StripeSubscriptionSnapshot}

theorem least_end (value : ℚ) : (periodEnds subscription).min? = some value ↔
    value ∈ periodEnds subscription ∧ ∀ other ∈ periodEnds subscription, value ≤ other :=
  List.min?_eq_some_iff

theorem periodDate_zero : periodDate 0 = .valid 0 := by
  rw [periodDate, zero_mul, Doubles.round_zero]
  rfl

theorem paidThrough_after (epoch : 0 ≤ time) :
    (∃ instant, paidThrough subscription = some (.valid instant) ∧ time < instant) ↔
      ∃ least ∈ periodEnds subscription, (∀ other ∈ periodEnds subscription, least ≤ other) ∧
        DateAfter least time := by
  unfold paidThrough
  constructor
  · rintro ⟨instant, paid, after⟩
    split at paid
    · next seconds smallest =>
      obtain ⟨member, least⟩ := (least_end seconds).mp smallest
      split at paid
      · cases paid
      · exact ⟨seconds, member, least, instant, Option.some.inj paid, after⟩
    · cases paid
  · rintro ⟨seconds, member, smallest, instant, date, after⟩
    have nonzero : seconds ≠ 0 := by
      rintro rfl
      cases date.symm.trans periodDate_zero
      exact absurd (epoch.trans_lt after) (lt_irrefl _)
    rw [(least_end seconds).mpr ⟨member, smallest⟩]
    exact ⟨instant, by simp only [if_neg nonzero, date], after⟩

/-- What a date cannot hold is far from what it can. -/
theorem round_valid {milliseconds : Int} {instant : Instant}
    (made : newDate (Doubles.round milliseconds) = .valid instant) : instant = milliseconds := by
  rcases le_or_gt |milliseconds| (2 ^ 53) with short | long
  · rw [Doubles.round_int short, newDate] at made
    split at made
    · cases made
    · cases made
      exact Int.tdiv_one milliseconds
  · have near := Doubles.round_error milliseconds
    have size : (2 ^ 53 : ℚ) < |(milliseconds : ℚ)| := by exact_mod_cast long
    have rounded := abs_sub_abs_le_abs_sub (milliseconds : ℚ) (Doubles.round milliseconds)
    rw [abs_sub_comm] at rounded
    have far : maxTime < |Doubles.round milliseconds| := by
      unfold maxTime
      linarith
    rw [newDate, if_pos] at made
    · cases made
    · rcases lt_abs.mp far with late | early
      · exact .inr late
      · exact .inl (by linarith)

theorem whole_after {seconds : Int} (valid : periodDate seconds ≠ .invalid) :
    DateAfter seconds time ↔ EndsAfter seconds time := by
  have product : (seconds : ℚ) * 1000 = ((seconds * 1000 : Int) : ℚ) := by push_cast; rfl
  cases date : periodDate seconds with
  | invalid => exact absurd date valid
  | valid instant =>
      have exact : instant = seconds * 1000 := by
        rw [periodDate, product] at date
        exact round_valid date
      unfold DateAfter EndsAfter
      rw [date, product, Int.cast_lt, ← exact]
      constructor
      · rintro ⟨other, same, after⟩
        cases same
        exact after
      · exact fun after => ⟨instant, rfl, after⟩

theorem storable_fields (stored : summary.storable = some snapshot) :
    snapshot.billingBlocked = summary.billingBlocked ∧ summary.paidThrough ≠ some .invalid ∧
      ∀ instant, snapshot.paidThrough = some instant ↔ summary.paidThrough = some (.valid instant) := by
  unfold Summary.storable at stored
  split at stored
  · cases stored
  · next instant paid =>
    cases stored
    simp [paid]
  · next paid =>
    cases stored
    simp [paid]

structure Summarized (subscription : Subscription) (now : Nat) (summary : Summary) : Prop where
  paid : summary.paidThrough = paidThrough subscription
  blocked : summary.billingBlocked = false ↔
    (subscription.status = "active" ∨ subscription.status = "trialing" ∨ subscription.status = "past_due") ∧
      ∃ instant, paidThrough subscription = some (.valid instant) ∧ now < instant

theorem summarizeSubscription_made (made : summarizeSubscription subscription now = .ok summary) :
    Summarized subscription now summary := by
  simp only [summarizeSubscription] at made
  split at made
  · cases made
  · cases made
    refine ⟨rfl, ?_⟩
    simp only [Bool.or_eq_false_iff, Bool.not_eq_false']
    constructor
    · rintro ⟨⟨-, status⟩, period⟩
      obtain ⟨date, through, after⟩ := (Option.any_eq_true _ _).mp period
      cases date with
      | invalid => cases after
      | valid instant =>
          exact ⟨by simpa [statusAllowsAccess, or_assoc] using status, instant, through, of_decide_eq_true after⟩
    · rintro ⟨status, instant, through, after⟩
      refine ⟨⟨?_, by simpa [statusAllowsAccess, or_assoc] using status⟩, ?_⟩
      · rcases status with status | status | status <;> rw [status] <;> rfl
      · rw [through]
        exact decide_eq_true after

theorem summary_grants (made : summarizeSubscription subscription now = .ok summary)
    (stored : summary.storable = some snapshot) (later : now ≤ time) :
    (snapshot.billingBlocked = false ∧ ∃ instant, snapshot.paidThrough = some instant ∧ time < instant) ↔
      Grants DateAfter subscription time := by
  obtain ⟨through, unblocked⟩ := summarizeSubscription_made made
  obtain ⟨blocked, -, paid⟩ := storable_fields stored
  have ends := @paidThrough_after subscription time ((Int.natCast_nonneg now).trans later)
  simp only [blocked, unblocked, paid, through, Grants]
  rw [ends]
  constructor
  · rintro ⟨⟨status, -⟩, least⟩
    exact ⟨status, least⟩
  · rintro ⟨status, least⟩
    obtain ⟨instant, same, after⟩ := ends.mpr least
    exact ⟨⟨status, instant, same, later.trans_lt after⟩, least⟩

theorem whole_grants (made : summarizeSubscription subscription now = .ok summary)
    (stored : summary.storable = some snapshot) (whole : EndsWhole subscription) :
    Grants DateAfter subscription time ↔ Grants EndsAfter subscription time := by
  have valid := (storable_fields stored).2.1
  rw [(summarizeSubscription_made made).paid] at valid
  refine and_congr_right fun _ => exists_congr fun least => and_congr_right fun member =>
    and_congr_right fun smallest => ?_
  obtain ⟨seconds, rfl⟩ := whole least member smallest
  rcases eq_or_ne seconds 0 with rfl | nonzero
  · exact whole_after (by rw [Int.cast_zero, periodDate_zero]; nofun)
  · refine whole_after fun invalid => valid ?_
    have apart : (seconds : ℚ) ≠ 0 := Int.cast_ne_zero.mpr nonzero
    simp only [paidThrough, (least_end (seconds : ℚ)).mpr ⟨member, smallest⟩, if_neg apart, invalid]

theorem unblocked_paid (made : summarizeSubscription subscription now = .ok summary)
    (stored : summary.storable = some snapshot) (granting : snapshot.billingBlocked = false) :
    ∃ instant, snapshot.paidThrough = some instant := by
  obtain ⟨through, unblocked⟩ := summarizeSubscription_made made
  obtain ⟨blocked, -, paid⟩ := storable_fields stored
  obtain ⟨-, instant, same, -⟩ := unblocked.mp (blocked ▸ granting)
  exact ⟨instant, (paid instant).mpr (through.trans same)⟩

end Summary

end StripeGateway

open StripeGateway

section Access

variable {host : Host} {id : LicenseId} {now : Instant} {state : ServerState} {license : License}
  {snapshot : StripeSubscriptionSnapshot} {data : LicenseData} {request : Request} {view : ServerView}
  {call : Nat} {writes : List Write}

/-- A license stands as a snapshot has left it. -/
structure Billed (snapshot : StripeSubscriptionSnapshot) (license : License) : Prop where
  type : license.type = .subscription
  revoked : license.billingRevokedAt.isSome = snapshot.billingBlocked
  expiry : ∀ paidThrough, snapshot.paidThrough = some paidThrough → license.expiresAt = some paidThrough

theorem billed_active {subscription : Subscription} {fetched : Nat} {time : Instant} {summary : Summary}
    (billed : Billed snapshot license) (made : summarizeSubscription subscription fetched = .ok summary)
    (stored : summary.storable = some snapshot) (later : fetched ≤ time) :
    (deriveLicenseStatus license time).status = .active ↔
      license.manualRevokedAt = none ∧ Grants DateAfter subscription time := by
  rw [← summary_grants made stored later]
  cases manual : license.manualRevokedAt with
  | some revokedAt => simp [deriveLicenseStatus_manual, manual]
  | none =>
      cases granting : snapshot.billingBlocked with
      | true => simp [deriveLicenseStatus_billing, manual, billed.revoked, granting]
      | false =>
          obtain ⟨instant, paid⟩ := unblocked_paid made stored granting
          have unrevoked : license.billingRevokedAt = none := by simpa [granting] using billed.revoked
          have status : deriveLicenseStatus license time =
              if instant ≤ time then ⟨.expired, some .subscriptionExpired⟩ else ⟨.active, none⟩ := by
            simp [deriveLicenseStatus, manual, unrevoked, billed.type, billed.expiry instant paid]
          rw [status, paid]
          by_cases ended : instant ≤ time
          · simp [ended]
          · simp [ended, not_le.mp ended]

def StoresSnapshot (event : ServerEvent) (id : LicenseId) (snapshot : StripeSubscriptionSnapshot) : Prop :=
  ∃ expected writes written write fetched, Landed event id expected writes written ∧
    write ∈ writes ∧ write.snapshot = some fetched ∧ fetched.snapshot = snapshot

def WritesLicense (event : ServerEvent) (id : LicenseId) : Prop :=
  ∃ expected writes, event.act = .commit id expected writes ∧
    ∃ write ∈ writes, write.locksRow = true ∨ write.locksLink = true

theorem billingRevokedAt_blocked (existing : Option StripeSubscriptionLink) :
    (billingRevokedAt snapshot existing now).isSome = snapshot.billingBlocked := by
  unfold billingRevokedAt
  split <;> simp_all

theorem paid_billed {link : StripeSubscriptionLink} {stamp : Instant}
    (linked : data.link = some link) (type : data.row.type = .subscription)
    (revoked : link.billingRevokedAt.isSome = snapshot.billingBlocked) :
    Billed snapshot
      (applyWrites stamp (snapshot.paidThrough.map Write.setExpiresAt).toList data).license := by
  cases paid : snapshot.paidThrough with
  | none =>
      refine ⟨type, ?_, fun paidThrough same => ?_⟩
      · change (data.link.bind _).isSome = _
        rw [linked]
        exact revoked
      · cases paid.symm.trans same
  | some paidThrough =>
      refine ⟨type, ?_, fun other same => ?_⟩
      · change (data.link.bind _).isSome = _
        rw [linked]
        exact revoked
      · cases paid.symm.trans same
        rfl

theorem commits_billed {write : Write} {fetched : FetchedSnapshot} {stamp : Instant} (sound : Sound view)
    (commits : Commits host request (view.trace call) id writes) (member : write ∈ writes)
    (stores : write.snapshot = some fetched) (present : view.world.tables.licenses id = some data) :
    Billed fetched.snapshot (applyWrites stamp writes data).license := by
  cases write with
  | insertLink link source =>
      cases stores
      obtain ⟨-, ⟨row, locked, type⟩, paidThrough, now, draw, paid, rfl, rfl⟩ :=
        commits_insertLink commits member
      have same := (locked_row sound locked).2 data present
      have billed := @paid_billed fetched.snapshot
        { data with link := some ((newLink id fetched.snapshot now).row draw) } _ stamp rfl
        (same ▸ type) (billingRevokedAt_blocked none)
      rw [paid] at billed
      exact billed
  | updateLink update source =>
      cases stores
      obtain ⟨subscriptionId, existing, locked, row, ⟨reconciling, type, now, rfl, rfl⟩⟩ :=
        commits_updateLink commits member
      have same := (locked_row sound reconciling.row).2 data present
      have linked := (locked_link sound reconciling.locked).2 data present
      exact @paid_billed fetched.snapshot
        { data with link := data.link.map ((linkUpdate existing fetched.snapshot now).apply stamp) } _ stamp
        (by rw [linked]; rfl) (same ▸ type) (billingRevokedAt_blocked (some existing))
  | _ => cases stores

theorem storing_billed {before after : List ServerEvent} {store : ServerEvent} (run : ServerRun host now state)
    (shape : state.view.history = before ++ store :: after) (stores : StoresSnapshot store id snapshot)
    (present : store.after.tables.licenses id = some data) : Billed snapshot data.license := by
  obtain ⟨expected, writes, written, write, fetched, landed, member, same, rfl⟩ := stores
  obtain ⟨earlier, request, happened⟩ := server_run_event run shape
  have held := happened.held
  rw [landed.act] at held
  obtain ⟨stamp, made, -⟩ := landed.made
  cases present.symm.trans (landed_later landed)
  rw [made]
  exact commits_billed happened.sound held member same (happened.world ▸ landed.present)

theorem event_billed {before after : List ServerEvent} {event : ServerEvent} {old new : LicenseData}
    (run : ServerRun host now state) (shape : state.view.history = before ++ event :: after)
    (unwritten : ¬WritesLicense event id) (present : event.before.tables.licenses id = some old)
    (later : event.after.tables.licenses id = some new) (billed : Billed snapshot old.license) :
    Billed snapshot new.license := by
  obtain ⟨earlier, request, happened, there, changes⟩ := event_changes run shape present later
  cases changes with
  | kept => exact billed
  | relabelled link error stamp linked =>
      have revoked : ({ old with link := some { link with lastError := some error, updatedAt := stamp } } :
          LicenseData).license = old.license := by
        simp [LicenseData.license, linked]
      exact revoked ▸ billed
  | committed expected writes stamp act commits =>
      have silent : ∀ write ∈ writes, write.locksRow = false ∧ write.locksLink = false := by
        intro write member
        by_contra writes'
        exact unwritten ⟨expected, writes, act, write, member, by grind⟩
      have row : (applyWrites stamp writes old).row = old.row :=
        applyWrites_row fun write member => (silent write member).1
      have link : (applyWrites stamp writes old).link = old.link :=
        applyWrites_link fun write member => (silent write member).2
      rw [LicenseData.license, row, link]
      exact billed

/-- A license stands as its snapshot says until its row or its link is written again. -/
theorem stored_billed {before after : List ServerEvent} {store : ServerEvent} (run : ServerRun host now state)
    (shape : state.view.history = before ++ store :: after) (stores : StoresSnapshot store id snapshot)
    (unwritten : ∀ event ∈ after, ¬WritesLicense event id)
    (present : state.view.world.tables.license id = some license) : Billed snapshot license := by
  have sound := server_run_sound run
  have known : id ∈ store.after.tables.ids := by
    obtain ⟨expected, writes, written, write, found, landed, -⟩ := stores
    exact (sound.recorded store (by simp [shape])).after.tables.known id (by simp [landed_later landed])
  have ordered := sound.ordered
  rw [shape] at ordered
  have kept := @allowed_lasts _ _ _ _ _ _ _ _ _ _
    (fun world : World => ∀ data, world.tables.licenses id = some data → Billed snapshot data.license) _ _
    (fun move world => by cases move <;> rfl) (server_run_allowed run) rfl _ _ _ shape
    (fun data there => storing_billed run shape stores there) ?_
  · obtain ⟨data, there, rfl⟩ := Option.map_eq_some_iff.mp present
    exact kept data there
  · intro event member holds data there
    have progress : Progress store.after event.before :=
      (List.pairwise_cons.mp (List.pairwise_append.mp ordered).2.1).1 event member
    obtain ⟨input, ran⟩ := (sound.recorded event (by simp [shape, member])).ran
    obtain ⟨earlier, had, -⟩ := (effect_progress (exec_effect ran)).rows id data (progress.ids id known) there
    obtain ⟨ahead, rest, rfl⟩ := List.append_of_mem member
    exact @event_billed _ _ _ _ _ (before ++ store :: ahead) rest _ _ _ run (by simp [shape])
      (unwritten event (by simp)) had there (holds earlier had)

/-- From the fetch of a subscription on, the license that the fetched state was stored for is
active exactly as long as the license is not revoked by hand and the subscription grants access:
until the date of its least period end, which is where whole seconds end. -/
theorem billing_access {before after : List ServerEvent} {store : ServerEvent} {subscription : Subscription}
    {fetched : Nat} {time : Instant} {summary : Summary} (run : ServerRun host now state)
    (shape : state.view.history = before ++ store :: after) (stores : StoresSnapshot store id snapshot)
    (made : summarizeSubscription subscription fetched = .ok summary)
    (stored : summary.storable = some snapshot) (unwritten : ∀ event ∈ after, ¬WritesLicense event id)
    (present : state.view.world.tables.license id = some license) (later : fetched ≤ time) :
    ((deriveLicenseStatus license time).status = .active ↔
      license.manualRevokedAt = none ∧ Grants DateAfter subscription time) ∧
    (EndsWhole subscription → ((deriveLicenseStatus license time).status = .active ↔
      license.manualRevokedAt = none ∧ Grants EndsAfter subscription time)) := by
  have active := billed_active (stored_billed run shape stores unwritten present) made stored later
  refine ⟨active, fun whole => ?_⟩
  rw [active, whole_grants made stored whole]

end Access

section Samples

def sampleSubscription : Subscription :=
  ⟨"sub", .id "cus", "active", false,
    [⟨.seconds 2, .null⟩, ⟨.missing, .null⟩, ⟨.seconds 1, .object "price"⟩]⟩

def sampleSnapshot : StripeSubscriptionSnapshot :=
  ⟨"sub", "cus", "active", some 1000, false, ["price"], false⟩

/-- A call that links a license, up to the commit of the link. -/
def storedSample : List (Choice Input Move Request) :=
  subscriptionSample ++ .environment (.subscription "sub" (some sampleSnapshot)) ::
    sampleCall 2 (.linkLicense sampleId "sub") 2 11

def stores (event : ServerEvent) : Bool :=
  match event with
  | ⟨_, .commit id _ (.insertLink _ fetched :: _), .ok (some _), _, _⟩ =>
      id = sampleId && fetched.snapshot = sampleSnapshot
  | _ => false

theorem stores_sample {event : ServerEvent} (stored : stores event = true)
    (ran : ∃ input, exec event.call event.act input event.before = some (event.after, event.result)) :
    StoresSnapshot event sampleId sampleSnapshot := by
  unfold stores at stored
  split at stored
  · next id expected link fetched others written before after =>
    simp only [Bool.and_eq_true, decide_eq_true_eq] at stored
    obtain ⟨rfl, same⟩ := stored
    exact ⟨expected, _, written, _, fetched, deed_landed rfl ran, .head _, rfl, same⟩
  · cases stored

theorem stored_sample : ∃ state license before store, ServerRun sampleHost 0 state ∧
    state.view.history = before ++ [store] ∧ StoresSnapshot store sampleId sampleSnapshot ∧
      state.view.world.tables.license sampleId = some license ∧ license.manualRevokedAt = none := by
  obtain ⟨state, run, holds⟩ := @sampled_run storedSample
    (fun state => state.view.history.getLast?.any stores &&
      (state.view.world.tables.license sampleId).any fun license => license.manualRevokedAt.isNone)
    (by decide +kernel)
  obtain ⟨last, there⟩ := Bool.and_eq_true_iff.mp holds
  obtain ⟨store, final, stored⟩ := (Option.any_eq_true _ _).mp last
  obtain ⟨license, present, unrevoked⟩ := (Option.any_eq_true _ _).mp there
  obtain ⟨before, shape⟩ := List.getLast?_eq_some_iff.mp final
  have ran := ((server_run_sound run).recorded store (by simp [shape])).ran
  exact ⟨state, license, before, store, run, shape, stores_sample stored ran, present, by simpa using unrevoked⟩

theorem billing_access_sample : ∃ state license, ServerRun sampleHost 0 state ∧
    state.view.world.tables.license sampleId = some license ∧
      (deriveLicenseStatus license 999).status = .active ∧
        (deriveLicenseStatus license 1000).status ≠ .active := by
  obtain ⟨state, license, before, store, run, shape, stores, present, unrevoked⟩ := stored_sample
  have whole : EndsWhole sampleSubscription := by
    intro least member smallest
    have ends : periodEnds sampleSubscription = [2, 1] := by decide +kernel
    rw [ends] at member
    rcases List.mem_pair.mp member with rfl | rfl
    · exact ⟨2, rfl⟩
    · exact ⟨1, rfl⟩
  have access := fun time later => (@billing_access sampleHost sampleId 0 state license sampleSnapshot before []
    store sampleSubscription 2 time ⟨"sub", "cus", "active", some (.valid 1000), false, ["price"], false⟩
    run shape stores (by decide +kernel) rfl (by simp) present later).2 whole
  refine ⟨state, license, run, present, (access 999 (by decide)).mpr ⟨unrevoked, ?_⟩, ?_⟩
  · exact ⟨.inl rfl, 1, by decide +kernel, by decide +kernel, by unfold EndsAfter; norm_num⟩
  · intro active
    obtain ⟨-, -, least, -, smallest, after⟩ := (access 1000 (by decide)).mp active
    have bounded : least ≤ 1 := smallest 1 (by decide +kernel)
    unfold EndsAfter at after
    norm_num at after
    linarith

def fractionalSubscription : Subscription :=
  ⟨"sub", .id "cus", "active", false, [⟨.seconds (1025 / 1024), .object "price"⟩]⟩

/-- A period end between two milliseconds is cut: at its last millisecond the license has
expired, though the period ends after it. -/
theorem fractional_end_cut : ¬∀ (host : Host) (id : LicenseId) (now : Instant) (state : ServerState)
    (license : License) (snapshot : StripeSubscriptionSnapshot) (before after : List ServerEvent)
    (store : ServerEvent) (subscription : Subscription) (fetched : Nat) (time : Instant) (summary : Summary),
    ServerRun host now state → state.view.history = before ++ store :: after →
    StoresSnapshot store id snapshot → summarizeSubscription subscription fetched = .ok summary →
    summary.storable = some snapshot → (∀ event ∈ after, ¬WritesLicense event id) →
    state.view.world.tables.license id = some license → fetched ≤ time →
    ((deriveLicenseStatus license time).status = .active ↔
      license.manualRevokedAt = none ∧ Grants EndsAfter subscription time) := by
  intro rule
  obtain ⟨state, license, before, store, run, shape, stores, present, unrevoked⟩ := stored_sample
  have made : summarizeSubscription fractionalSubscription 2 =
      .ok ⟨"sub", "cus", "active", some (.valid 1000), false, ["price"], false⟩ := by decide +kernel
  have billed := stored_billed run shape stores (by simp) present
  have active := (rule _ _ _ _ _ _ _ _ _ _ 2 1000 _ run shape stores made rfl (by simp) present (by decide)).mpr
    ⟨unrevoked, .inl rfl, 1025 / 1024, by decide +kernel, by decide +kernel, by unfold EndsAfter; norm_num⟩
  obtain ⟨-, -, least, member, -, instant, date, after⟩ := (billed_active billed made rfl (by decide)).mp active
  have ends : periodEnds fractionalSubscription = [1025 / 1024] := by decide +kernel
  have cut : periodDate (1025 / 1024) = .valid 1000 := by decide +kernel
  rw [ends, List.mem_singleton] at member
  subst member
  cases date.symm.trans cut
  exact absurd after (lt_irrefl _)

end Samples

end Keyzori
