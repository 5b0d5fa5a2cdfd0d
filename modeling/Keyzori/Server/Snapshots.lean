import Keyzori.Server.SoundRuns

/-! What a link shows: the newest snapshot that was stored for its subscription, and
a revocation that goes back to the first of its last blocked snapshots. Snapshots are
stored in the order in which they were fetched, since the fetch and the commit stand
under one lock. -/

namespace Keyzori

open Interleaving

variable {host : Host} {request : Request} {view : ServerView} {call : Nat} {id : LicenseId}
  {act : Act} {next : World} {data : LicenseData} {writes : List Write} {now : Instant}
  {link : StripeSubscriptionLink} {snapshot : StoredSnapshot} {stored older : List StoredSnapshot}

section Revocation

def StoredSnapshot.blocked (snapshot : StoredSnapshot) : Bool := snapshot.fetched.snapshot.billingBlocked

def sinceLinked : List StoredSnapshot → List StoredSnapshot
  | [] => []
  | snapshot :: older => snapshot :: if snapshot.linking then [] else sinceLinked older

/-- The time of the first of the blocked snapshots that the link ends with. -/
def revokedSince (stored : List StoredSnapshot) : Option Instant :=
  ((sinceLinked stored).takeWhile StoredSnapshot.blocked).getLast?.map StoredSnapshot.syncedAt

theorem revokedSince_cons : revokedSince (snapshot :: older) =
    if snapshot.blocked then
      some ((if snapshot.linking then none else revokedSince older).getD snapshot.syncedAt)
    else none := by
  cases blocked : snapshot.blocked with
  | false => simp [revokedSince, sinceLinked, blocked]
  | true =>
      cases linking : snapshot.linking with
      | true => simp [revokedSince, sinceLinked, blocked, linking]
      | false =>
          simp only [revokedSince, sinceLinked, linking, blocked, List.takeWhile_cons,
            List.getLast?_cons, if_true, Option.map_some, Bool.false_eq_true, if_false]
          cases ((sinceLinked older).takeWhile StoredSnapshot.blocked).getLast? <;> rfl

theorem revokedSince_isSome : (revokedSince (snapshot :: older)).isSome = snapshot.blocked := by
  rw [revokedSince_cons]
  split <;> simp_all

end Revocation

section Shows

structure Reflects (link : StripeSubscriptionLink) (snapshot : StripeSubscriptionSnapshot) : Prop where
  customer : link.stripeCustomerId = snapshot.stripeCustomerId
  status : link.status = snapshot.status
  paid : link.paidThrough = snapshot.paidThrough
  cancels : link.cancelAtPeriodEnd = snapshot.cancelAtPeriodEnd
  price : link.priceId = snapshot.priceIds.head?

/-- A link shows the newest of the snapshots stored for its subscription. -/
structure Shows (link : StripeSubscriptionLink) (stored : List StoredSnapshot) : Prop where
  newest : ∃ newest older, stored = newest :: older ∧ Reflects link newest.fetched.snapshot ∧
    link.lastSyncedAt = some newest.syncedAt
  revoked : link.billingRevokedAt = revokedSince stored
  named : link.subscriptionId ≠ ""

theorem shows_relabels {old : StripeSubscriptionLink} (shows : Shows old stored) (relabels : Relabels old link) :
    Shows link stored := by
  rw [Relabels] at relabels
  rw [relabels]
  obtain ⟨⟨newest, older, same, ⟨customer, status, paid, cancels, price⟩, synced⟩, revoked, named⟩ := shows
  exact ⟨⟨newest, older, same, ⟨customer, status, paid, cancels, price⟩, synced⟩, revoked, named⟩

structure Mirrored (world : World) : Prop where
  ordered : ∀ subscriptionId, (world.stored subscriptionId).Pairwise fun newer older =>
    older.fetched.fetchedAt < newer.fetched.fetchedAt
  shown : ∀ id link, world.tables.link id = some link → Shows link (world.stored link.subscriptionId)

theorem stripe_link (sound : Sound view) {subscriptionId : String} {existing : StripeSubscriptionLink}
    (read : Under (view.trace call) (.stripe subscriptionId)
      (.query fun tables => tables.findBySubscriptionId subscriptionId) (some existing))
    (linked : view.world.tables.link id = some link) (subscription : link.subscriptionId = subscriptionId) :
    id = existing.licenseId ∧ Relabels existing link := by
  obtain ⟨old, past, found, -, still⟩ := under_query sound read
  obtain ⟨before, there, relabels⟩ := still id link linked subscription
  obtain ⟨here, same⟩ := findBySubscriptionId_some past.consistent.tables found.symm
  have subscribed : before.subscriptionId = link.subscriptionId := by
    rw [Relabels] at relabels
    rw [relabels]
  obtain rfl := past.consistent.tables.linkUnique _ _ before existing there here
    (subscribed.trans (subscription.trans same.symm))
  exact ⟨rfl, Option.some.inj (there.symm.trans here) ▸ relabels⟩

theorem fetched_named (sound : Sound view) {subscriptionId : String} {fetched : FetchedSnapshot}
    (fetch : Fetched (view.trace call) subscriptionId fetched) : subscriptionId ≠ "" := by
  rintro rfl
  obtain ⟨before, after, recalled, -⟩ := under_recall sound fetch
  obtain ⟨input, ran⟩ := recalled.ran
  cases ran

inductive Storing (view : ServerView) (call : Nat) (data : LicenseData) (writes : List Write) (now : Instant) :
    Prop
  | silent (stored : ∀ subscriptionId, writes.foldl (recordSnapshot data.link) view.world.stored
        subscriptionId = view.world.stored subscriptionId)
      (kept : ∀ link, (applyWrites now writes data).link = some link → data.link = some link)
  | snapshot (link : StripeSubscriptionLink) (snapshot : StoredSnapshot)
      (linked : (applyWrites now writes data).link = some link)
      (stored : writes.foldl (recordSnapshot data.link) view.world.stored =
        Function.update view.world.stored link.subscriptionId
          (snapshot :: view.world.stored link.subscriptionId))
      (fetched : Fetched (view.trace call) link.subscriptionId snapshot.fetched)
      (reflects : Reflects link snapshot.fetched.snapshot)
      (synced : link.lastSyncedAt = some snapshot.syncedAt)
      (revoked : link.billingRevokedAt = billingRevokedAt snapshot.fetched.snapshot
        (if snapshot.linking then none else data.link) snapshot.syncedAt)
      (same : snapshot.linking = false → ∃ old, data.link = some old ∧
        old.subscriptionId = link.subscriptionId)

theorem commits_storing (sound : Sound view) (commits : Commits host request (view.trace call) id writes)
    (present : view.world.tables.licenses id = some data) : Storing view call data writes now := by
  by_cases inserts : ∃ link fetched, .insertLink link fetched ∈ writes
  · obtain ⟨link, fetched, member⟩ := inserts
    obtain ⟨-, fetch, -⟩ := (commits_link sound commits present).1 link fetched member
    obtain ⟨-, -, paidThrough, drawn, draw, -, rfl, rfl⟩ := commits_insertLink commits member
    exact .snapshot _ ⟨fetched, drawn, true⟩ rfl rfl fetch ⟨rfl, rfl, rfl, rfl, rfl⟩ rfl rfl
      fun updated => by cases updated
  by_cases updates : ∃ update fetched, .updateLink update fetched ∈ writes
  · obtain ⟨update, fetched, member⟩ := updates
    obtain ⟨link, linked, fetch, -⟩ := (commits_link sound commits present).2 update fetched member
    obtain ⟨subscriptionId, existing, locked, row, ⟨reconciling, -, drawn, rfl, rfl⟩⟩ :=
      commits_updateLink commits member
    obtain rfl : link = locked := by
      have kept := (locked_link sound reconciling.locked).2 data present
      exact Option.some.inj (linked.symm.trans kept)
    have here : view.world.tables.link id = some link := by rw [Tables.link, present]; exact linked
    have relabels := (stripe_link sound reconciling.existing here
      (locked_link sound reconciling.locked).1).2
    have revoked : existing.billingRevokedAt = link.billingRevokedAt := by
      rw [Relabels] at relabels
      rw [relabels]
    refine .snapshot ((linkUpdate existing fetched.snapshot drawn).apply now link)
      ⟨fetched, synchronizedAt existing drawn, false⟩ ?_ ?_ fetch ⟨rfl, rfl, rfl, rfl, rfl⟩ rfl ?_
      fun _ => ⟨link, linked, rfl⟩
    · cases fetched.snapshot.paidThrough <;>
        simp [applyWrites, Write.apply, Write.applyLink, linked]
    · rw [linked]
      cases fetched.snapshot.paidThrough <;> rfl
    · simp [linkUpdate, StripeSubscriptionLinkUpdate.apply, billingRevokedAt, linked, revoked]
  · have inserted : ∀ new fetched, .insertLink new fetched ∉ writes := fun new fetched member =>
      inserts ⟨new, fetched, member⟩
    have updated : ∀ update fetched, .updateLink update fetched ∉ writes := fun update fetched member =>
      updates ⟨update, fetched, member⟩
    refine .silent (fun subscriptionId => recordSnapshots_same
      (fun new fetched member => absurd member (inserted new fetched))
      fun update fetched member => absurd member (updated update fetched)) fun link linked => ?_
    exact @applyWrites_linkKept data writes now link.subscriptionId link
      (fun new fetched member => absurd member (inserted new fetched))
      (fun update fetched member => absurd member (updated update fetched)) linked rfl

/-- Whatever was stored before a transaction was fetched before its own fetch. -/
theorem fetched_newest (sound : Sound view) {subscriptionId : String} {fetched : FetchedSnapshot}
    (fetch : Fetched (view.trace call) subscriptionId fetched) :
    ∀ older ∈ view.world.stored subscriptionId, older.fetched.fetchedAt < fetched.fetchedAt := by
  intro older member
  obtain ⟨before, after, recalled, ⟨same, -⟩, -⟩ := under_recall sound fetch
  obtain ⟨input, ran⟩ := recalled.ran
  obtain ⟨-, tick, rfl⟩ := exec_getSubscription ran
  rw [same] at member
  rw [tick]
  exact recalled.consistent.snapshots.fetched subscriptionId older member

/-- A link that was there before, but for its last error, shows what it showed. -/
theorem mirrored_kept {world next : World} (mirrored : Mirrored world) (stored : next.stored = world.stored)
    (links : ∀ id link, next.tables.link id = some link → ∃ before, world.tables.link id = some before ∧
      Relabels before link) : Mirrored next := by
  refine ⟨stored ▸ mirrored.ordered, fun id link linked => ?_⟩
  obtain ⟨before, there, relabels⟩ := links id link linked
  have shows := shows_relabels (mirrored.shown id before there) relabels
  have subscription : before.subscriptionId = link.subscriptionId := by
    rw [Relabels] at relabels
    rw [relabels]
  rwa [stored, ← subscription]

inductive Recording (view : ServerView) (call : Nat) (next : World) : Prop
  | silent (stored : next.stored = view.world.stored)
      (links : ∀ id link, next.tables.link id = some link →
        ∃ before, view.world.tables.link id = some before ∧ Relabels before link)
  | snapshot (id : LicenseId) (link : StripeSubscriptionLink) (snapshot : StoredSnapshot)
      (linked : next.tables.link id = some link)
      (others : ∀ other, other ≠ id → next.tables.link other = view.world.tables.link other)
      (stored : next.stored = Function.update view.world.stored link.subscriptionId
        (snapshot :: view.world.stored link.subscriptionId))
      (fetched : Fetched (view.trace call) link.subscriptionId snapshot.fetched)
      (reflects : Reflects link snapshot.fetched.snapshot)
      (synced : link.lastSyncedAt = some snapshot.syncedAt)
      (revoked : link.billingRevokedAt = billingRevokedAt snapshot.fetched.snapshot
        (if snapshot.linking then none else view.world.tables.link id) snapshot.syncedAt)
      (same : snapshot.linking = false → ∃ old, view.world.tables.link id = some old ∧
        old.subscriptionId = link.subscriptionId)

theorem recording_same {world : World} (stored : world.stored = view.world.stored)
    (licenses : world.tables.licenses = view.world.tables.licenses) : Recording view call world := by
  refine .silent stored fun id link linked => ⟨link, ?_, .refl link⟩
  rwa [Tables.link, licenses] at linked

theorem commit_recording {world : World} (sound : Sound view)
    (commits : Commits host request (view.trace call) id writes)
    (present : view.world.tables.licenses id = some data)
    (exact : world = (view.world.write id data now writes).release call) : Recording view call world := by
  have own : world.tables.link id = (applyWrites now writes data).link := by
    simp [exact, Tables.link, World.release, World.write, World.setLicense]
  have others : ∀ other, other ≠ id → world.tables.link other = view.world.tables.link other := by
    intro other distinct
    simp [exact, Tables.link, World.release, World.write, World.setLicense,
      Function.update_of_ne distinct]
  have kept : world.stored = writes.foldl (recordSnapshot data.link) view.world.stored := by
    rw [exact]
    rfl
  have before : view.world.tables.link id = data.link := by simp [Tables.link, present]
  cases @commits_storing _ _ _ _ _ _ _ now sound commits present with
  | silent stored links =>
      refine .silent (kept.trans (funext stored)) fun other link linked => ⟨link, ?_, .refl link⟩
      by_cases same : other = id
      · subst same
        rw [before]
        exact links link (own.symm.trans linked)
      · rwa [← others other same]
  | snapshot link snapshot linked stored fetched reflects synced revoked same =>
      rw [← before] at revoked same
      exact .snapshot id link snapshot (own.trans linked) others (kept.trans stored) fetched reflects synced
        revoked same

theorem effect_recording (sound : Sound view) (held : warrant host request (view.trace call) act)
    (effect : Effect call view.world act next) : Recording view call next := by
  cases effect with
  | committed id expected writes data stamp present => exact commit_recording sound held present rfl
  | inserted id keyHash keyPrefix data meters now fresh unused =>
      refine .silent rfl fun other link linked => ⟨link, ?_, .refl link⟩
      by_cases same : other = id
      · subst same
        simp [Tables.link, World.inserted, World.setLicense] at linked
      · simpa [Tables.link, World.inserted, World.setLicense, Function.update_of_ne same] using linked
  | deleted id row link =>
      refine .silent rfl fun other link linked => ⟨link, ?_, .refl link⟩
      by_cases same : other = id
      · subst same
        simp [Tables.link, World.deleted] at linked
      · simpa [Tables.link, World.deleted, Function.update_of_ne same] using linked
  | cascaded customerId free =>
      refine .silent rfl fun other link linked => ⟨link, ?_, .refl link⟩
      simp only [Tables.link, World.cascaded] at linked
      split at linked
      · cases linked
      · exact linked
  | linkError subscriptionId error link data now found present free =>
      obtain ⟨here, -⟩ := findBySubscriptionId_some sound.consistent.tables found
      refine .silent rfl fun other shown linked => ?_
      by_cases same : other = link.licenseId
      · subst same
        refine ⟨link, here, ?_⟩
        simp only [Tables.link, World.setLicense, Function.update_self, Option.bind_some,
          Option.some.injEq] at linked
        rw [← linked]
        rfl
      · refine ⟨shown, ?_, .refl shown⟩
        simpa [Tables.link, World.setLicense, Function.update_of_ne same] using linked
  | claimed limit stamp due => exact recording_same rfl (claim_tables due stamp view.world.tables).1
  | _ => exact recording_same rfl rfl

theorem recording_mirrored (sound : Sound view) (mirrored : Mirrored view.world) (consistent : Consistent next)
    (recording : Recording view call next) : Mirrored next := by
  cases recording with
  | silent stored links => exact mirrored_kept mirrored stored links
  | snapshot id link snapshot linked others stored fetched reflects synced revoked same =>
      have newest := fetched_newest sound fetched
      refine ⟨fun subscriptionId => ?_, fun other shown there => ?_⟩
      · rw [stored]
        by_cases subscription : subscriptionId = link.subscriptionId
        · subst subscription
          rw [Function.update_self]
          exact List.pairwise_cons.mpr ⟨newest, mirrored.ordered _⟩
        · rw [Function.update_of_ne subscription]
          exact mirrored.ordered subscriptionId
      · rw [stored]
        by_cases owner : other = id
        · subst owner
          obtain rfl : link = shown := Option.some.inj (linked.symm.trans there)
          rw [Function.update_self]
          refine ⟨⟨snapshot, _, rfl, reflects, synced⟩, ?_, fetched_named sound fetched⟩
          rw [revoked, billingRevokedAt, revokedSince_cons]
          cases linking : snapshot.linking with
          | true => rfl
          | false =>
              obtain ⟨old, had, subscription⟩ := same linking
              have shows := (mirrored.shown other old had).revoked
              rw [subscription] at shows
              simp only [had, Bool.false_eq_true, if_false, Option.bind_some, shows]
              rfl
        · have distinct : shown.subscriptionId ≠ link.subscriptionId := fun subscription =>
            owner (consistent.tables.linkUnique other id shown link there linked subscription)
          rw [Function.update_of_ne distinct]
          exact mirrored.shown other shown (others other owner ▸ there)

theorem allowedRun_mirrored (run : ServerAllowedRun host (.start (World.start now)) view) :
    Mirrored view.world := by
  have both : Sound view ∧ Mirrored view.world := by
    induction run with
    | refl => exact ⟨start_sound now, fun _ => .nil, fun id link linked => by cases linked⟩
    | tail _ step ih =>
        refine ⟨allowed_sound ih.1 step, ?_⟩
        cases step with
        | start call request unused idle => exact ih.2
        | act call request act input world result asked held ran =>
            exact recording_mirrored ih.1 ih.2 (act_sound ih.1 held ran).consistent
              (effect_recording ih.1 held (exec_effect ran))
        | environment event =>
            refine mirrored_kept ih.2 (by cases event <;> rfl) fun id link linked => ⟨link, ?_, .refl link⟩
            cases event <;> exact linked
  exact both.2

end Shows

end Keyzori
