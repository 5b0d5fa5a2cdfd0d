import Keyzori.Server.Snapshots
import Keyzori.Server.TrialClock

namespace Keyzori

open Interleaving

variable {host : Host} {request : Request} {view : ServerView} {call : Nat} {id owner : LicenseId}
  {now : Instant} {data : LicenseData} {writes : List Write} {trace : ServerTrace} {revoked : Bool}
  {state : ServerState}

def Request.toggles : Request → Option (LicenseId × Bool)
  | .revokeLicense id _ => some (id, true)
  | .restoreLicense id => some (id, false)
  | _ => none

/-- The operations on a license that have nothing to do with its billing. -/
def Request.manual : Request → Bool
  | .revokeLicense _ _ | .restoreLicense _ | .rotateLicenseKey _ => true
  | _ => false

section Rows

theorem toggles_cases (asked : request.toggles = some (owner, revoked)) :
    (∃ text, request = .revokeLicense owner text ∧ revoked = true) ∨
      request = .restoreLicense owner ∧ revoked = false := by
  unfold Request.toggles at asked
  split at asked
  · cases asked
    exact .inl ⟨_, rfl, rfl⟩
  · cases asked
    exact .inr ⟨rfl, rfl⟩
  · cases asked

theorem commits_toggling (commits : Commits host request trace id writes)
    (asked : request.toggles = some (owner, revoked)) :
    (∀ write ∈ writes, write.locksRow = false) ∨ ∃ update revokedAt,
      (writes = [.updateWithSessionInvalidation update] ∨ writes = [.updateLicense update]) ∧
        update.manualRevokedAt = some revokedAt ∧ revokedAt.isSome = revoked := by
  cases commits with
  | nothing => exact .inl (by simp)
  | touched => exact .inl (by simp [Write.locksRow])
  | metered => exact .inl (by simp [Write.locksRow])
  | dropped => exact .inl (by simp [Write.locksRow])
  | unlinked => exact .inl (by simp [Write.locksRow])
  | disconnected => exact .inl (by simp [Write.locksRow])
  | revoked id stamp reason text same =>
      subst same
      cases asked
      exact .inr ⟨_, _, .inl rfl, rfl, rfl⟩
  | restored id same =>
      subst same
      cases asked
      exact .inr ⟨_, _, .inr rfl, rfl, rfl⟩
  | admitted binding license row started registered admitting =>
      obtain ⟨licenseKey, deviceId, ip, same, -⟩ := admitting.lookup.asked
      subst same
      cases asked
  | reconciled _ _ _ _ _ _ _ reconciling =>
      rcases toggles_cases asked with ⟨text, rfl, -⟩ | ⟨rfl, -⟩ <;> cases reconciling.asked
  | edited _ _ _ _ _ _ _ _ edits =>
      rcases toggles_cases asked with ⟨text, rfl, -⟩ | ⟨rfl, -⟩ <;> cases edits.asked
  | _ => rcases toggles_cases asked with ⟨text, rfl, -⟩ | ⟨rfl, -⟩ <;> contradiction

/-- A transaction leaves a revocation by hand alone, unless it is the operator's. -/
theorem commits_manual (commits : Commits host request trace id writes) :
    ((applyWrites now writes data).row.manualRevokedAt = data.row.manualRevokedAt ∧
        (applyWrites now writes data).row.manualRevocationReason = data.row.manualRevocationReason) ∨
      ∃ revoked, request.toggles = some (id, revoked) := by
  rcases @once_row writes now data (commits_once commits) with ⟨-, same⟩ | ⟨write, member, row, applied, same⟩
  · exact .inl (by rw [same]; exact ⟨rfl, rfl⟩)
  rw [same]
  cases write with
  | updateLicense final =>
      cases applied
      rcases commits_updateLicense commits member with ⟨asked, -⟩ | ⟨input, current, row, update, link,
        inserted, statements, options, currentMeters, edits, computed, branch, listed, -⟩
      · exact .inr ⟨false, by rw [asked]; rfl⟩
      · obtain ⟨limits, config, newMeters, drawn, -, -, -, -, rfl, -⟩ := computed.config
        cases branch <;> simp at listed <;> subst listed <;> exact .inl ⟨rfl, rfl⟩
  | updateWithSessionInvalidation final =>
      obtain ⟨text, stamp, reason, asked, -⟩ := commits_revokes commits member
      exact .inr ⟨true, by rw [asked]; rfl⟩
  | startTrial | incrementSessionRevision | rotateKey | meterDraft | setExpiresAt =>
      cases applied
      exact .inl ⟨rfl, rfl⟩
  | _ => cases applied

theorem commits_unlinking (commits : Commits host request trace id writes) (manual : request.manual = true) :
    ∀ write ∈ writes, write.locksLink = false := by
  have kind : (∃ owner text, request = .revokeLicense owner text) ∨ (∃ owner, request = .restoreLicense owner) ∨
      ∃ owner, request = .rotateLicenseKey owner := by
    cases request <;> simp_all [Request.manual]
  cases commits with
  | nothing => simp
  | touched | revoked | restored | rotated | terminated | drafted | metered => simp [Write.locksLink]
  | admitted _ _ _ _ _ admitting =>
      obtain ⟨licenseKey, deviceId, ip, rfl, -⟩ := admitting.lookup.asked
      cases manual
  | allowed id write listed => cases write <;> simp_all [Write.allowlist, Write.locksLink]
  | removed _ _ _ _ _ asked =>
      rcases kind with ⟨owner, text, rfl⟩ | ⟨owner, rfl⟩ | ⟨owner, rfl⟩ <;> cases asked
  | reconciled _ _ _ _ _ _ _ reconciling =>
      rcases kind with ⟨owner, text, rfl⟩ | ⟨owner, rfl⟩ | ⟨owner, rfl⟩ <;> cases reconciling.asked
  | disconnected _ _ _ _ _ _ reconciling =>
      rcases kind with ⟨owner, text, rfl⟩ | ⟨owner, rfl⟩ | ⟨owner, rfl⟩ <;> cases reconciling.asked
  | edited _ _ _ _ _ _ _ _ edits =>
      rcases kind with ⟨owner, text, rfl⟩ | ⟨owner, rfl⟩ | ⟨owner, rfl⟩ <;> cases edits.asked
  | _ => rcases kind with ⟨owner, text, rfl⟩ | ⟨owner, rfl⟩ | ⟨owner, rfl⟩ <;> contradiction

end Rows

section Events

variable {before after : List ServerEvent} {event : ServerEvent} {old new : LicenseData}

def Toggles (view : ServerView) (event : ServerEvent) (id : LicenseId) (revoked : Bool) : Prop :=
  RowCommit event id ∧
    ∃ request, view.requests event.call = some request ∧ request.toggles = some (id, revoked)

/-- The last of the revocations and restorations among some events is a revocation. -/
def RevokedLast (view : ServerView) (id : LicenseId) (events : List ServerEvent) : Prop :=
  ∃ early event late, events = early ++ event :: late ∧ Toggles view event id true ∧
    ∀ other ∈ late, ∀ revoked, ¬Toggles view other id revoked

theorem revokedLast_append {events : List ServerEvent} : RevokedLast view id (events ++ [event]) ↔
    Toggles view event id true ∨
      (∀ revoked, ¬Toggles view event id revoked) ∧ RevokedLast view id events := by
  constructor
  · rintro ⟨early, toggle, late, shape, toggles, none⟩
    rcases List.eq_nil_or_concat late with rfl | ⟨others, last, rfl⟩
    · obtain ⟨-, single⟩ := List.append_inj' shape rfl
      exact .inl (List.singleton_inj.mp single ▸ toggles)
    · have split : events ++ [event] = (early ++ toggle :: others) ++ [last] := by simpa using shape
      obtain ⟨rfl, single⟩ := List.append_inj' split rfl
      cases List.singleton_inj.mp single
      exact .inr ⟨none event (by simp), early, toggle, others, rfl, toggles,
        fun other member => none other (by simp [member])⟩
  · rintro (toggles | ⟨none, early, toggle, late, rfl, toggles, rest⟩)
    · exact ⟨events, event, [], rfl, toggles, by simp⟩
    · refine ⟨early, toggle, late ++ [event], by simp, toggles, fun other member => ?_⟩
      rcases List.mem_append.mp member with listed | single
      · exact rest other listed
      · exact List.mem_singleton.mp single ▸ none

theorem toggles_row (run : ServerAllowedRun host (.start (World.start now)) view)
    (shape : view.history = before ++ event :: after) (toggles : Toggles view event id revoked) :
    ∃ old new, event.before.tables.licenses id = some old ∧ event.after.tables.licenses id = some new ∧
      new.row.manualRevokedAt.isSome = revoked := by
  obtain ⟨⟨expected, writes, written, landed, write, member, locks⟩, request, asked, toggled⟩ := toggles
  obtain ⟨earlier, asker, happened⟩ := allowedRun_event run shape
  cases happened.still.symm.trans asked
  have held : Commits host request (earlier.trace event.call) id writes := by
    have warranted := happened.held
    rwa [landed.act] at warranted
  obtain ⟨stamp, made, -⟩ := landed.made
  refine ⟨written.before, written.after, landed.present, landed_later landed, ?_⟩
  rcases commits_toggling held toggled with silent | ⟨update, revokedAt, statement, sets, same⟩
  · exact absurd locks (Bool.eq_false_iff.mp (silent write member))
  · rw [made, ← same]
    rcases statement with rfl | rfl <;>
      simp [applyWrites, Write.apply, Write.applyRow, LicenseUpdate.apply, sets]

theorem event_manual (run : ServerAllowedRun host (.start (World.start now)) view)
    (shape : view.history = before ++ event :: after) (present : event.before.tables.licenses id = some old)
    (later : event.after.tables.licenses id = some new) (other : ∀ revoked, ¬Toggles view event id revoked) :
    new.row.manualRevokedAt = old.row.manualRevokedAt ∧
      new.row.manualRevocationReason = old.row.manualRevocationReason := by
  obtain ⟨earlier, request, happened⟩ := allowedRun_event run shape
  cases happened_changes happened present later with
  | kept => exact ⟨rfl, rfl⟩
  | relabelled => exact ⟨rfl, rfl⟩
  | committed expected writes stamp act commits =>
      by_cases same : applyWrites stamp writes old = old
      · rw [same]
        exact ⟨rfl, rfl⟩
      rcases @commits_manual _ _ _ stamp old writes _ commits with kept | ⟨revoked, toggled⟩
      · exact kept
      · have changed : event.after.tables.licenses id ≠ event.before.tables.licenses id := by
          rw [present, later]
          exact fun equal => same (Option.some.inj equal)
        obtain ⟨written, landed⟩ := changing_commit act happened.ran changed
        by_cases row : ∃ write ∈ writes, write.locksRow = true
        · exact absurd ⟨⟨expected, writes, written, landed, row⟩, request, happened.still, toggled⟩ (other revoked)
        · have silent : ∀ write ∈ writes, write.locksRow = false := fun write member =>
            Bool.eq_false_iff.mpr fun locks => row ⟨write, member, locks⟩
          rw [applyWrites_row silent]
          exact ⟨rfl, rfl⟩

theorem event_unlinking (run : ServerAllowedRun host (.start (World.start now)) view)
    (shape : view.history = before ++ event :: after) (asked : view.requests event.call = some request)
    (manual : request.manual = true) (id : LicenseId) :
    event.after.tables.link id = event.before.tables.link id := by
  obtain ⟨earlier, asker, happened⟩ := allowedRun_event run shape
  cases happened.still.symm.trans asked
  have held := happened.held
  obtain ⟨input, ran⟩ := happened.ran
  obtain ⟨call, act, result, world, next⟩ := event
  have effect : Effect call world act next := exec_effect ran
  rcases effect_licenses effect id with same | touched
  · rw [Tables.link, Tables.link, same]
  · cases touched with
    | committed expected writes data stamp present admitted version lawful exact =>
        subst exact
        have kept : (applyWrites stamp writes data).link = data.link :=
          applyWrites_link (commits_unlinking held manual)
        simp [Tables.link, World.release, World.write, World.setLicense, present, kept]
    | inserted =>
        obtain ⟨input, limits, config, meters, drawn, rfl, -⟩ := Creates.computed held
        cases manual
    | deleted =>
        obtain ⟨-, rfl⟩ := held
        cases manual
    | cascaded =>
        obtain ⟨-, rfl⟩ := held
        cases manual
    | linkError =>
        obtain ⟨-, synchronizes⟩ := held
        cases request <;> simp_all [Request.manual, Request.synchronizes]

end Events

section Runs

theorem revoked_last (run : ServerAllowedRun host (.start (World.start now)) view)
    (present : view.world.tables.licenses id = some data) :
    data.row.manualRevokedAt.isSome ↔ RevokedLast view id view.history := by
  let holds : List ServerEvent → World → Prop := fun events world => ∀ data,
    world.tables.licenses id = some data → (data.row.manualRevokedAt.isSome ↔ RevokedLast view id events)
  suffices along : holds view.history view.world from along data present
  refine @allowed_along _ _ _ _ _ _ _ _ _ _ holds _ _ ?_ run rfl ?_ ?_
  · exact fun events move world => by cases move <;> rfl
  · exact fun data present => by cases present
  intro before event after shape sofar data later
  rw [revokedLast_append]
  by_cases toggles : ∃ revoked, Toggles view event id revoked
  · obtain ⟨revoked, toggles⟩ := toggles
    obtain ⟨old, new, -, there, made⟩ := toggles_row run shape toggles
    cases later.symm.trans there
    rw [made]
    cases revoked with
    | true => exact ⟨fun _ => .inl toggles, fun _ => rfl⟩
    | false =>
        refine ⟨fun revoked => (by cases revoked), ?_⟩
        rintro (other | ⟨none, -⟩)
        · obtain ⟨-, new, -, there, same⟩ := toggles_row run shape other
          cases later.symm.trans there
          exact made.symm.trans same
        · exact absurd toggles (none false)
  · have none : ∀ revoked, ¬Toggles view event id revoked := fun revoked toggled => toggles ⟨revoked, toggled⟩
    rw [or_iff_right (none true), and_iff_right none]
    cases present : event.before.tables.licenses id with
    | some old =>
        rw [(event_manual run shape present later none).1]
        exact sofar old present
    | none =>
        obtain ⟨earlier, request, happened⟩ := allowedRun_event run shape
        obtain ⟨keyHash, keyPrefix, created, table, stamp, -, fresh, -, rfl⟩ :=
          happened_creates happened present later
        refine ⟨fun revoked => (by cases revoked), ?_⟩
        rintro ⟨early, toggle, late, rfl, ⟨committed, -⟩, -⟩
        have member : toggle ∈ earlier.history := by simp [happened.history]
        have remembered := happened.sound.recorded toggle member
        obtain ⟨before, written, -, stored, -⟩ := rowCommit_stamps committed
        obtain ⟨kept, there, -⟩ := Option.map_eq_some_iff.mp stored
        have known := remembered.after.tables.known id (by simp [there])
        exact absurd (happened.world ▸ remembered.progress.ids id known) fresh

structure ShowsBilling (world : World) (link : StripeSubscriptionLink) (newest : StoredSnapshot) : Prop where
  stored : ∃ older, world.stored link.subscriptionId = newest :: older
  revoked : link.billingRevokedAt.isSome = newest.blocked
  since : link.billingRevokedAt = revokedSince (world.stored link.subscriptionId)

theorem link_billing (run : ServerAllowedRun host (.start (World.start now)) view)
    {link : StripeSubscriptionLink} (linked : view.world.tables.link id = some link) :
    ∃ newest, ShowsBilling view.world link newest := by
  obtain ⟨⟨newest, older, stored, -⟩, revoked, -⟩ := (allowedRun_mirrored run).shown id link linked
  refine ⟨newest, ⟨older, stored⟩, ?_, revoked⟩
  rw [revoked, stored, revokedSince_isSome]

/-- A license is revoked by hand from a revocation to the next restoration, and nothing else
touches that; its link is revoked from the first of the last blocked snapshots on, and no
revocation, restoration or rotation touches that; so its status names the revocation by hand
as long as there is one, and else the one by Stripe. -/
theorem revocations_independent (run : ServerRun host now state) :
    (∀ id data, state.view.world.tables.licenses id = some data →
      (data.row.manualRevokedAt.isSome ↔ RevokedLast state.view id state.view.history)) ∧
    (∀ event ∈ state.view.history, ∀ id old new, event.before.tables.licenses id = some old →
      event.after.tables.licenses id = some new → (∀ revoked, ¬Toggles state.view event id revoked) →
        new.row.manualRevokedAt = old.row.manualRevokedAt ∧
          new.row.manualRevocationReason = old.row.manualRevocationReason) ∧
    (∀ event ∈ state.view.history, ∀ request, state.view.requests event.call = some request →
      request.manual = true → ∀ id, event.after.tables.link id = event.before.tables.link id) ∧
    (∀ id link, state.view.world.tables.link id = some link →
      ∃ newest, ShowsBilling state.view.world link newest) ∧
    ∀ id license, state.view.world.tables.license id = some license → ∀ time,
      (RevokedLast state.view id state.view.history →
        deriveLicenseStatus license time = ⟨.revoked, some .manualRevocation⟩) ∧
      (¬RevokedLast state.view id state.view.history → ∀ link newest,
        state.view.world.tables.link id = some link → ShowsBilling state.view.world link newest →
          newest.blocked = true →
            deriveLicenseStatus license time = ⟨.revoked, some .billingRevocation⟩) := by
  have allowed := server_run_allowed run
  refine ⟨fun id data present => revoked_last allowed present, fun event member id old new present later other => ?_,
    fun event member request asked manual id => ?_, fun id link linked => link_billing allowed linked,
    fun id license found time => ?_⟩
  · obtain ⟨early, late, shape⟩ := List.append_of_mem member
    exact event_manual allowed shape present later other
  · obtain ⟨early, late, shape⟩ := List.append_of_mem member
    exact event_unlinking allowed shape asked manual id
  · obtain ⟨data, present, rfl⟩ := Option.map_eq_some_iff.mp found
    refine ⟨fun last => ?_, fun restored link newest linked shows blocked => ?_⟩
    · exact deriveLicenseStatus_manual ((revoked_last allowed present).mpr last) time
    · have unset : data.row.manualRevokedAt = none := by
        by_contra set
        exact restored ((revoked_last allowed present).mp (Option.isSome_iff_ne_none.mpr set))
      have had : data.link = some link := by simpa [Tables.link, present] using linked
      refine deriveLicenseStatus_billing unset ?_ time
      simpa [toDomainLicense, had] using shows.revoked.trans blocked

end Runs

section Samples

/-- A license that a blocked snapshot was stored for, then revoked by hand, and then restored. -/
def blockedSample : List (Choice Input Move Request) :=
  subscriptionSample ++
    .environment (.subscription "sub" (some ⟨"sub", "cus", "unpaid", some 500, false, [], true⟩)) ::
      sampleCall 2 (.linkLicense sampleId "sub") 2 13

def revokedSample : List (Choice Input Move Request) :=
  blockedSample ++ sampleCall 3 (.revokeLicense sampleId "fraud") 3 7

def restoredSample : List (Choice Input Move Request) :=
  revokedSample ++ sampleCall 4 (.restoreLicense sampleId) 4 5

def billed (manual : Bool) (state : ServerState) : Bool :=
  (state.view.world.tables.licenses sampleId).any fun data =>
    data.row.manualRevokedAt.isSome = manual ∧ data.link.any fun link => link.billingRevokedAt.isSome

theorem billed_license {manual : Bool} (holds : billed manual state = true) : ∃ data link license,
    state.view.world.tables.licenses sampleId = some data ∧ data.row.manualRevokedAt.isSome = manual ∧
      state.view.world.tables.link sampleId = some link ∧ link.billingRevokedAt.isSome ∧
        state.view.world.tables.license sampleId = some license ∧ license.billingRevokedAt.isSome := by
  obtain ⟨data, present, holds⟩ := (Option.any_eq_true _ _).mp holds
  obtain ⟨revoked, linked⟩ := of_decide_eq_true holds
  obtain ⟨link, had, blocked⟩ := (Option.any_eq_true _ _).mp linked
  refine ⟨data, link, _, present, revoked, ?_, blocked, Option.map_eq_some_iff.mpr ⟨data, present, rfl⟩, ?_⟩
  · simp [Tables.link, present, had]
  · simp [toDomainLicense, had, blocked]

theorem revocations_independent_sample :
    (∃ state license, ServerRun sampleHost 0 state ∧
      state.view.world.tables.license sampleId = some license ∧ license.billingRevokedAt.isSome ∧
      RevokedLast state.view sampleId state.view.history ∧
      ∀ time, deriveLicenseStatus license time = ⟨.revoked, some .manualRevocation⟩) ∧
    ∃ state license, ServerRun sampleHost 0 state ∧
      state.view.world.tables.license sampleId = some license ∧ license.billingRevokedAt.isSome ∧
      ¬RevokedLast state.view sampleId state.view.history ∧
      ∀ time, deriveLicenseStatus license time = ⟨.revoked, some .billingRevocation⟩ := by
  constructor
  · obtain ⟨state, run, holds⟩ := @sampled_run revokedSample (billed true) (by decide +kernel)
    obtain ⟨data, link, license, present, revoked, -, -, found, blocked⟩ := billed_license holds
    obtain ⟨manual, -, -, -, status⟩ := revocations_independent run
    have last := (manual sampleId data present).mp revoked
    exact ⟨state, license, run, found, blocked, last, fun time => (status sampleId license found time).1 last⟩
  · obtain ⟨state, run, holds⟩ := @sampled_run restoredSample (billed false) (by decide +kernel)
    obtain ⟨data, link, license, present, restored, linked, revoked, found, blocked⟩ := billed_license holds
    obtain ⟨manual, -, -, billing, status⟩ := revocations_independent run
    have last : ¬RevokedLast state.view sampleId state.view.history := fun last => by
      simp [(manual sampleId data present).mpr last] at restored
    obtain ⟨newest, shows⟩ := billing sampleId link linked
    exact ⟨state, license, run, found, blocked, last, fun time =>
      (status sampleId license found time).2 last link newest linked shows (shows.revoked.symm.trans revoked)⟩

end Samples

end Keyzori
