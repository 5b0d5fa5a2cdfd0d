import Keyzori.Server.SoundRuns

namespace Keyzori

open Interleaving

/-- The expiry, the duration and the start that go with a type. -/
def Fits (type : LicenseType) (expiresAt : Option Instant) (trialDurationMinutes : Int)
    (trialStartedAt : Option Instant) : Prop :=
  match type with
  | .subscription => expiresAt ≠ none ∧ trialDurationMinutes = 0 ∧ trialStartedAt = none
  | .trial => 1 ≤ trialDurationMinutes ∧ trialDurationMinutes ≤ maxLicenseLimit ∧ expiresAt = none
  | .lifetime | .metered => expiresAt = none ∧ trialDurationMinutes = 0 ∧ trialStartedAt = none

def Shaped (row : LicenseColumns) : Prop :=
  Fits row.type row.expiresAt row.trialDurationMinutes row.trialStartedAt

/-- A link belongs to a subscription and agrees with it on the expiry. -/
def Coherent (data : LicenseData) : Prop := ∀ link, data.link = some link →
  data.row.type = .subscription ∧
    ∀ paidThrough, link.paidThrough = some paidThrough → data.row.expiresAt = some paidThrough

structure Formed (data : LicenseData) : Prop where
  shaped : Shaped data.row.toLicenseColumns
  coherent : Coherent data

section Fits

variable {type : LicenseType} {expiresAt otherExpiresAt : Option Instant}
  {trialDurationMinutes otherDurationMinutes : Int} {trialStartedAt otherStartedAt : Option Instant}

theorem fits_start (one : Fits type expiresAt trialDurationMinutes trialStartedAt)
    (other : Fits type otherExpiresAt otherDurationMinutes otherStartedAt) :
    Fits type expiresAt trialDurationMinutes otherStartedAt := by
  cases type with
  | trial => exact one
  | subscription => exact ⟨one.1, one.2.1, other.2.2⟩
  | lifetime => exact ⟨one.1, one.2.1, other.2.2⟩
  | metered => exact ⟨one.1, one.2.1, other.2.2⟩

theorem fits_expiry (one : Fits type expiresAt trialDurationMinutes trialStartedAt)
    (other : Fits type otherExpiresAt otherDurationMinutes otherStartedAt) :
    Fits type otherExpiresAt trialDurationMinutes trialStartedAt := by
  cases type with
  | trial => exact ⟨one.1, one.2.1, other.2.2⟩
  | subscription => exact ⟨other.1, one.2⟩
  | lifetime => exact ⟨other.1, one.2⟩
  | metered => exact ⟨other.1, one.2⟩

theorem createTypeConfig_fits {data : CreateLicenseInput} {meters : List NewLicenseMeter}
    {now : Instant} {config : TypeConfig}
    (made : AdminService.createTypeConfig data meters now = .ok config) :
    Fits data.type config.expiresAt config.trialDurationMinutes none := by
  rcases AdminService.createTypeConfig_ok made with
    ⟨type, expiresAt, rfl⟩ | ⟨type, duration, positive, bounded, rfl⟩ | ⟨type, rfl⟩ | ⟨type, rfl⟩
  · rw [type]
    exact ⟨by simp, rfl, rfl⟩
  · rw [type]
    exact ⟨positive, bounded, rfl⟩
  · rw [type]
    exact ⟨rfl, rfl, rfl⟩
  · rw [type]
    exact ⟨rfl, rfl, rfl⟩

theorem updateTypeConfig_fits {current : License} {data : UpdateLicenseInput} {changed : Bool}
    {drafts : LicenseTypeDrafts} {now : Instant} {config : TypeConfig}
    (made : AdminService.updateTypeConfig current data type changed drafts now = .ok config) :
    Fits type config.expiresAt config.trialDurationMinutes config.trialStartedAt := by
  cases type with
  | subscription =>
      simp only [AdminService.updateTypeConfig] at made
      split at made
      · cases made
      · obtain ⟨expiresAt, -, made⟩ := bind_ok.mp made
        cases expiresAt with
        | none => cases made
        | some expiresAt =>
            cases made
            exact ⟨by simp, rfl, rfl⟩
  | trial =>
      simp only [AdminService.updateTypeConfig] at made
      split at made
      · cases made
      · obtain ⟨duration, valid, made⟩ := bind_ok.mp made
        cases made
        obtain ⟨-, positive, bounded⟩ := validateInteger_bounds valid
        exact ⟨positive, bounded, rfl⟩
  | lifetime =>
      cases made
      exact ⟨rfl, rfl, rfl⟩
  | metered =>
      cases made
      exact ⟨rfl, rfl, rfl⟩

end Fits

section Edits

variable {current : License} {data : UpdateLicenseInput} {update : LicenseUpdate}
  {options : LicenseUpdateOptions} {currentMeters : List LicenseMeter} {row : StoredLicense}
  {trace : ServerTrace} {id : LicenseId}

theorem editedConfig_drafts (targetType : LicenseType) (currentMeters : List LicenseMeter)
    (newMeters : List NewLicenseMeter) (config : TypeConfig) :
    ∃ drafts, editedConfig targetType currentMeters newMeters config =
      { config with typeDrafts := drafts } := by
  rw [editedConfig]
  split
  · exact ⟨_, rfl⟩
  · exact ⟨config.typeDrafts, rfl⟩

theorem computed_shaped (computed : Computed trace id current data update options currentMeters)
    (same : current.toLicenseColumns = row.toLicenseColumns) (shaped : Shaped row.toLicenseColumns) :
    Shaped (update.apply row).toLicenseColumns := by
  obtain ⟨limits, config, newMeters, now, -, -, -, made, rfl, -⟩ := computed.config
  have fits := updateTypeConfig_fits made
  have type : current.type = row.type := congrArg LicenseColumns.type same
  obtain ⟨drafts, exact⟩ := editedConfig_drafts (data.type.getD current.type) currentMeters newMeters config
  rw [exact]
  by_cases changed : data.type.getD current.type = current.type
  · have kept : Fits (data.type.getD current.type) row.expiresAt row.trialDurationMinutes
        row.trialStartedAt := by
      rw [changed, type]
      exact shaped
    simpa [Shaped, LicenseUpdate.apply, AdminService.licenseUpdate, changed] using
      changed ▸ fits_start fits kept
  · simpa [Shaped, LicenseUpdate.apply, AdminService.licenseUpdate, changed] using fits

theorem kept_shaped (computed : Computed trace id current data update options currentMeters)
    (same : current.toLicenseColumns = row.toLicenseColumns) (shaped : Shaped row.toLicenseColumns)
    (target : update.type = some .subscription) (type : row.type = .subscription)
    (drafts : Option LicenseTypeDrafts) :
    Shaped ({ update with expiresAt := none, typeDrafts := drafts }.apply row).toLicenseColumns := by
  have fits := computed_shaped computed same shaped
  have becomes : (update.apply row).type = .subscription := by simp [LicenseUpdate.apply, target]
  rw [Shaped, becomes] at fits
  rw [Shaped, type] at shaped
  have kept : Fits .subscription row.expiresAt (update.apply row).trialDurationMinutes
      (update.apply row).trialStartedAt := fits_expiry fits shaped
  simpa [Shaped, LicenseUpdate.apply, target] using kept

end Edits

section Commits

variable {host : Host} {request : Request} {view : ServerView} {call : Nat} {id : LicenseId}
  {data : LicenseData} {now : Instant} {row : StoredLicense} {current : License}
  {input : UpdateLicenseInput} {update : LicenseUpdate} {link found : Option StripeSubscriptionLink}
  {inserted statements : List Write}

theorem edits_link (sound : Sound view) (formed : Throughout Formed view)
    (edits : Edits request (view.trace call) id input current row update link inserted statements)
    (present : view.world.tables.licenses id = some data) :
    (∀ found, link = some found → data.row.type = .subscription ∧
        ∀ paidThrough, found.paidThrough = some paidThrough → data.row.expiresAt = some paidThrough) ∧
      ∀ found, data.link = some found → ∃ old, link = some old ∧ old.paidThrough = found.paidThrough := by
  obtain ⟨old, before, past, read, there, kept, labels⟩ := under_row sound edits.linked present
  have same : link = before.link := by rw [read, Tables.link, there, Option.bind_some]
  constructor
  · intro found linked
    rw [kept]
    exact (formed old past.visited id before there).coherent found (same ▸ linked)
  · intro found linked
    obtain ⟨earlier, here, relabels⟩ := labels found linked
    exact ⟨earlier, same ▸ here, by rw [relabels]⟩

theorem inserted_meters (shape : inserted = [] ∨ ∃ table, inserted = [.meters table]) :
    ∃ table, applyWrites now inserted data = { data with meters := table } := by
  rcases shape with rfl | ⟨table, rfl⟩
  · exact ⟨data.meters, rfl⟩
  · exact ⟨table, rfl⟩

theorem edits_formed (sound : Sound view) (formed : Throughout Formed view)
    (edits : Edits request (view.trace call) id input current row update link inserted statements)
    (present : view.world.tables.licenses id = some data) :
    Formed (applyWrites now (inserted ++ statements) data) := by
  obtain ⟨agrees, labels⟩ := edits_link sound formed edits present
  obtain ⟨options, currentMeters, computed, branch, inserts⟩ := edits.computed
  obtain ⟨table, metered⟩ := @inserted_meters data now inserted (inserts_shape inserts)
  obtain ⟨rfl, columns⟩ := unchanged_row sound edits.unchanged data present
  have before := formed view.world (.inl rfl) id data present
  have shaped := computed_shaped computed columns before.shaped
  rw [applyWrites_append, metered]
  cases updateStatements_cases branch with
  | plain =>
      refine ⟨shaped, fun found linked => ?_⟩
      obtain ⟨old, here, -⟩ := labels found linked
      cases here
  | unlinks link other confirmed =>
      refine ⟨shaped, fun found linked => ?_⟩
      cases linked
  | linked link type automatic =>
      obtain ⟨subscription, expires⟩ := agrees link rfl
      refine ⟨kept_shaped computed columns before.shaped type subscription _, fun found linked => ?_⟩
      refine ⟨?_, fun paidThrough paid => ?_⟩
      · simp [applyWrites, Write.apply, Write.applyRow, LicenseUpdate.apply, type]
      · exact (before.coherent found linked).2 paidThrough paid

theorem paid_formed {paidThrough : Option Instant} {link : StripeSubscriptionLink}
    (formed : Formed data) (type : data.row.type = .subscription)
    (paid : link.paidThrough = paidThrough) :
    Formed (applyWrites now (paidThrough.map Write.setExpiresAt).toList { data with link := some link }) := by
  have shaped := formed.shaped
  rw [Shaped, type] at shaped
  cases paidThrough with
  | none =>
      refine ⟨formed.shaped, fun found linked => ⟨type, fun instant same => ?_⟩⟩
      cases linked
      rw [paid] at same
      cases same
  | some paidThrough =>
      refine ⟨?_, fun found linked => ⟨type, fun instant same => ?_⟩⟩
      · have fits : Fits .subscription (some paidThrough) data.row.trialDurationMinutes
            data.row.trialStartedAt := ⟨by simp, shaped.2⟩
        simpa [Shaped, applyWrites, Write.apply, Write.applyRow, type] using fits
      · cases linked
        exact paid.symm.trans same

theorem start_formed (startedAt : Instant) (formed : Formed data) (type : data.row.type = .trial) :
    Formed (applyWrites now [.startTrial startedAt] data) := by
  have shaped := formed.shaped
  rw [Shaped, type] at shaped
  refine ⟨?_, formed.coherent⟩
  have fits : Fits .trial data.row.expiresAt data.row.trialDurationMinutes (some startedAt) := shaped
  simpa [Shaped, applyWrites, Write.apply, Write.applyRow, type] using fits

theorem created_formed {trace : ServerTrace} {new : NewLicense} {table : MeterTable}
    {keyHash keyPrefix : String} (creates : Creates request trace id new table) :
    Formed ⟨insertedRow id keyHash keyPrefix new now, none, [], [], [], table⟩ := by
  obtain ⟨input, limits, config, meters, draw, -, -, made, rfl⟩ := creates.computed
  refine ⟨createTypeConfig_fits made, fun found linked => ?_⟩
  cases linked

theorem commits_formed {writes : List Write} (sound : Sound view) (formed : Throughout Formed view)
    (commits : Commits host request (view.trace call) id writes)
    (present : view.world.tables.licenses id = some data) : Formed (applyWrites now writes data) := by
  have before := formed view.world (.inl rfl) id data present
  have unlinked : Formed { data with link := none } := ⟨before.shaped, fun found linked => by cases linked⟩
  cases commits with
  | edited id input current row update link inserted statements edits =>
      exact edits_formed sound formed edits present
  | admitted binding license row started registered admitting starts registers =>
      cases starts with
      | running => cases registers <;> exact ⟨before.shaped, before.coherent⟩
      | first drawn type =>
          have same := (admitting_row sound admitting).2 data present
          have started : Formed (applyWrites now [.startTrial drawn.now] data) :=
            start_formed drawn.now before (same ▸ type)
          cases registers <;> exact ⟨started.shaped, started.coherent⟩
  | linked id subscriptionId row fetched paidThrough now' draw asked fetch locked type paid =>
      have same := (locked_row sound locked).2 data present
      change Formed (applyWrites now (Option.map Write.setExpiresAt (some paidThrough)).toList
        { data with link := some ((newLink id fetched.snapshot now').row draw) })
      exact paid_formed before (same ▸ type) paid
  | reconciled subscriptionId existing locked id row fetched now' reconciling type =>
      have same := (locked_row sound reconciling.row).2 data present
      have linked := (locked_link sound reconciling.locked).2 data present
      change Formed (applyWrites now _ { data with
        link := data.link.map ((linkUpdate existing fetched.snapshot now').apply now) })
      rw [linked]
      exact paid_formed before (same ▸ type) rfl
  | removed id filter always count increment asked counted increments =>
      cases increments <;> exact ⟨before.shaped, before.coherent⟩
  | dropped => exact unlinked
  | unlinked => exact unlinked
  | disconnected => exact unlinked
  | allowed id write listed asked =>
      cases write <;> first | exact ⟨before.shaped, before.coherent⟩ | cases listed
  | _ => exact ⟨before.shaped, before.coherent⟩

theorem lasting_formed (host : Host) : Lasting host Formed where
  created _ _ _ creates := created_formed creates
  committed _ sound formed commits present := commits_formed sound formed commits present
  relabelled := by
    intro data link error now linked formed
    refine ⟨formed.shaped, fun found same => ?_⟩
    cases same
    exact formed.coherent link linked

/-- What an update may do to a license with a link: it drops the link, or it keeps
the type and the expiry. -/
theorem edits_linked {link : StripeSubscriptionLink} (sound : Sound view)
    (formed : Throughout Formed view)
    (edits : Edits request (view.trace call) id input current row update found inserted statements)
    (present : view.world.tables.licenses id = some data) (linked : data.link = some link) :
    ((applyWrites now (inserted ++ statements) data).row.type = data.row.type ∧
        (applyWrites now (inserted ++ statements) data).row.expiresAt = data.row.expiresAt) ∨
      ((applyWrites now (inserted ++ statements) data).link = none ∧ request.edits = some (id, input) ∧
        input.unlinkStripe = some true) := by
  obtain ⟨agrees, labels⟩ := edits_link sound formed edits present
  obtain ⟨options, currentMeters, computed, branch, inserts⟩ := edits.computed
  obtain ⟨limits, config, newMeters, draw, -, -, -, -, -, rfl⟩ := computed.config
  obtain ⟨table, metered⟩ := @inserted_meters data now inserted (inserts_shape inserts)
  rw [applyWrites_append, metered]
  cases updateStatements_cases branch with
  | plain =>
      obtain ⟨old, here, -⟩ := labels link linked
      cases here
  | unlinks found other confirmed =>
      exact .inr ⟨rfl, edits.asked, by simpa [AdminService.updateOptions] using confirmed⟩
  | linked found type automatic =>
      refine .inl ⟨?_, rfl⟩
      rw [(agrees found rfl).1]
      simp [applyWrites, Write.apply, Write.applyRow, LicenseUpdate.apply, type]

theorem commits_linked {writes : List Write} {link : StripeSubscriptionLink} (sound : Sound view)
    (formed : Throughout Formed view) (commits : Commits host request (view.trace call) id writes)
    (present : view.world.tables.licenses id = some data) (linked : data.link = some link) :
    ((applyWrites now writes data).row.type = data.row.type ∧
        ((applyWrites now writes data).row.expiresAt = data.row.expiresAt ∨
          request.synchronizes = true)) ∨
      ((applyWrites now writes data).link = none ∧ ∃ input, request.edits = some (id, input) ∧
        input.unlinkStripe = some true) := by
  cases commits with
  | edited id input current row update link inserted statements edits =>
      rcases edits_linked sound formed edits present linked with ⟨type, expiry⟩ | ⟨gone, asked, confirmed⟩
      · exact .inl ⟨type, .inl expiry⟩
      · exact .inr ⟨gone, input, asked, confirmed⟩
  | admitted binding license row started registered admitting starts registers =>
      cases starts <;> cases registers <;> exact .inl ⟨rfl, .inl rfl⟩
  | linked id subscriptionId row fetched paidThrough now draw asked => exact .inl ⟨rfl, .inr (by rw [asked]; rfl)⟩
  | reconciled subscriptionId existing locked id row fetched now reconciling type =>
      refine .inl ⟨?_, .inr reconciling.asked⟩
      cases fetched.snapshot.paidThrough <;> rfl
  | removed id filter always count increment asked counted increments =>
      cases increments <;> exact .inl ⟨rfl, .inl rfl⟩
  | allowed id write listed asked =>
      cases write <;> first | exact .inl ⟨rfl, .inl rfl⟩ | cases listed
  | _ => exact .inl ⟨rfl, .inl rfl⟩

end Commits

section Checks

def subscriptionExpiryRequired (row : LicenseColumns) : Bool :=
  decide (row.type ≠ .subscription) || row.expiresAt.isSome

def trialDurationRequired (row : LicenseColumns) : Bool :=
  decide (row.type ≠ .trial) || decide (row.trialDurationMinutes > 0)

def passes (row : StoredLicense) : Bool :=
  subscriptionExpiryRequired row.toLicenseColumns && trialDurationRequired row.toLicenseColumns

theorem shaped_passes {row : StoredLicense} (shaped : Shaped row.toLicenseColumns) : passes row = true := by
  rw [Shaped] at shaped
  rw [passes, Bool.and_eq_true, subscriptionExpiryRequired, trialDurationRequired]
  cases type : row.type with
  | subscription =>
      rw [type] at shaped
      simp [Option.isSome_iff_ne_none, shaped.1]
  | trial =>
      rw [type] at shaped
      have positive : row.trialDurationMinutes > 0 := shaped.1
      simp [positive]
  | lifetime => simp
  | metered => simp

theorem perpetual_status {license : License} (type : license.type = .lifetime ∨ license.type = .metered)
    (now : Instant) : (deriveLicenseStatus license now).status ≠ .expired := by
  rw [deriveLicenseStatus]
  split
  · simp
  · split
    · simp
    · rcases type with type | type <;> simp [type]

/-- The rows of `licenses` that the statements of an act write one after another. -/
inductive Stores (event : ServerEvent) : StoredLicense → Prop
  | written (id : LicenseId) (expected : Option Instant) (writes part : List Write) (data : LicenseData)
      (now : Instant) (act : event.act = .commit id expected writes)
      (present : event.before.tables.licenses id = some data) (early : part <+: writes) :
      Stores event (applyWrites now part data).row
  | inserted (id : LicenseId) (keyHash keyPrefix : String) (data : NewLicense) (table : MeterTable)
      (now : Instant) (act : event.act = .insertLicense id keyHash keyPrefix data table) :
      Stores event (insertedRow id keyHash keyPrefix data now)

def Write.updates : Write → Bool
  | updateLicense _ | updateWithSessionInvalidation _ => true
  | _ => false

/-- Statements that a transaction can take back pass the checks as well. -/
theorem statement_passes {write : Write} {data : LicenseData} (now : Instant)
    (shaped : Shaped data.row.toLicenseColumns) (kept : write.updates = false) :
    passes (write.apply now data).row = true := by
  have before := shaped_passes shaped
  cases write with
  | updateLicense update => cases kept
  | updateWithSessionInvalidation update => cases kept
  | setExpiresAt paidThrough =>
      rw [passes, Bool.and_eq_true] at before ⊢
      exact ⟨by simp [subscriptionExpiryRequired, Write.apply, Write.applyRow], before.2⟩
  | _ => exact before

end Checks

variable {host : Host} {now : Instant} {state : ServerState}

/-- The type of a license fixes its other settings in every reachable state, no
statement of any call can fail on the checks, and a license without a deadline
never expires. -/
theorem license_shape (run : ServerRun host now state) :
    (∀ id data, state.view.world.tables.licenses id = some data → Shaped data.row.toLicenseColumns ∧
        (∀ write stamp, Write.updates write = false → passes (write.apply stamp data).row = true) ∧
        (data.row.type = .lifetime ∨ data.row.type = .metered → ∀ billingRevokedAt time,
          (deriveLicenseStatus (toDomainLicense data.row billingRevokedAt) time).status ≠ .expired)) ∧
      ∀ event ∈ state.view.history, ∀ row, Stores event row → passes row = true := by
  constructor
  · intro id data present
    have formed := server_run_throughout (lasting_formed host) run _ (.inl rfl) id data present
    exact ⟨formed.shaped, fun write stamp => statement_passes stamp formed.shaped,
      fun type billingRevokedAt time => perpetual_status type time⟩
  · intro event member row stores
    obtain ⟨before, after, shape⟩ := List.append_of_mem member
    obtain ⟨earlier, request, happened⟩ := server_run_event run shape
    have formed := allowedRun_throughout (lasting_formed host) happened.start
    have held := happened.held
    cases stores with
    | written id expected writes part data stamp act present early =>
        rw [act] at held
        rw [← happened.world] at present
        have kept := (formed _ (.inl rfl) id data present).shaped
        rcases @once_part writes stamp data (commits_once held) part early with same | same
        · exact shaped_passes (same ▸ kept)
        · rw [same]
          exact shaped_passes (commits_formed happened.sound formed held present).shaped
    | inserted id keyHash keyPrefix data table stamp act =>
        rw [act] at held
        exact shaped_passes (created_formed held).shaped

theorem license_shape_sample : ∃ state data, ServerRun sampleHost 0 state ∧
    state.view.world.tables.licenses sampleId = some data ∧ data.row.type = .subscription ∧
      Shaped data.row.toLicenseColumns := by
  obtain ⟨state, run, holds⟩ := @sampled_run subscriptionSample
    (fun state => (state.view.world.tables.licenses sampleId).any fun data =>
      data.row.type = .subscription) (by decide +kernel)
  obtain ⟨data, present, type⟩ := (Option.any_eq_true _ _).mp holds
  exact ⟨state, data, run, present, of_decide_eq_true type, ((license_shape run).1 sampleId data present).1⟩

theorem event_linked {before after : List ServerEvent} {event : ServerEvent} {id : LicenseId}
    {old new : LicenseData} {link : StripeSubscriptionLink} (run : ServerRun host now state)
    (shape : state.view.history = before ++ event :: after)
    (present : event.before.tables.licenses id = some old)
    (later : event.after.tables.licenses id = some new) (linked : old.link = some link) :
    ∃ request, state.view.requests event.call = some request ∧
      ((new.row.type = old.row.type ∧
          (new.row.expiresAt = old.row.expiresAt ∨ request.synchronizes = true)) ∨
        (new.link = none ∧ ∃ input, request.edits = some (id, input) ∧ input.unlinkStripe = some true)) := by
  obtain ⟨earlier, request, happened, there, changes⟩ := event_changes run shape present later
  refine ⟨request, happened.still, ?_⟩
  cases changes with
  | kept => exact .inl ⟨rfl, .inl rfl⟩
  | relabelled => exact .inl ⟨rfl, .inl rfl⟩
  | committed expected writes stamp act commits =>
      have formed := allowedRun_throughout (lasting_formed host) happened.start
      exact commits_linked happened.sound formed commits there linked

/-- Links belong to subscriptions and fix their expiry, whatever operators and
Stripe do, and leave only when the operator confirmed it. -/
theorem stripe_link_coherence (run : ServerRun host now state) :
    (∀ id data link, state.view.world.tables.licenses id = some data → data.link = some link →
        data.row.type = .subscription ∧ ∀ paidThrough,
          link.paidThrough = some paidThrough → data.row.expiresAt = some paidThrough) ∧
      (∀ id license, state.view.world.tables.license id = some license →
        license.type ≠ .subscription → license.billingRevokedAt = none) ∧
      ∀ event ∈ state.view.history, ∀ request, state.view.requests event.call = some request →
        ∀ id old new, event.before.tables.licenses id = some old → old.link.isSome →
          event.after.tables.licenses id = some new →
            (request.synchronizes = false → new.link.isSome → new.row.expiresAt = old.row.expiresAt) ∧
              (new.row.type ≠ .subscription → new.link = none ∧ ∃ input,
                request.edits = some (id, input) ∧ input.unlinkStripe = some true) := by
  have formed := server_run_throughout (lasting_formed host) run
  refine ⟨fun id data link present => (formed _ (.inl rfl) id data present).coherent link, ?_, ?_⟩
  · intro id license found other
    obtain ⟨data, present, rfl⟩ := Option.map_eq_some_iff.mp found
    cases linked : data.link with
    | none => rfl
    | some link =>
        have type := ((formed _ (.inl rfl) id data present).coherent link linked).1
        exact absurd type other
  · intro event member request asked id old new present linked later
    obtain ⟨link, linked⟩ := Option.isSome_iff_exists.mp linked
    obtain ⟨before, after, shape⟩ := List.append_of_mem member
    obtain ⟨other, same, effect⟩ := event_linked run shape present later linked
    cases asked.symm.trans same
    have type := ((formed _ (.inr ⟨event, member, rfl⟩) id old present).coherent link linked).1
    rcases effect with ⟨kept, expiry⟩ | ⟨gone, confirmed⟩
    · refine ⟨fun operator _ => expiry.resolve_right (by simp [operator]), fun changed => ?_⟩
      exact absurd (kept.trans type) changed
    · refine ⟨fun _ still => ?_, fun _ => ⟨gone, confirmed⟩⟩
      rw [gone] at still
      cases still

def linkedSample : List (Choice Input Move Request) :=
  subscriptionSample ++
    .environment (.subscription "sub" (some ⟨"sub", "cus", "active", some 500, false, [], true⟩)) ::
      sampleCall 2 (.linkLicense sampleId "sub") 2 13

theorem stripe_link_coherence_sample : ∃ state data link, ServerRun sampleHost 0 state ∧
    state.view.world.tables.licenses sampleId = some data ∧ data.link = some link ∧
      link.paidThrough = some 500 ∧ data.row.type = .subscription ∧ data.row.expiresAt = some 500 := by
  obtain ⟨state, run, holds⟩ := @sampled_run linkedSample
    (fun state => (state.view.world.tables.licenses sampleId).any fun data =>
      data.link.any fun link => link.paidThrough = some 500) (by decide +kernel)
  obtain ⟨data, present, holds⟩ := (Option.any_eq_true _ _).mp holds
  obtain ⟨link, linked, paid⟩ := (Option.any_eq_true _ _).mp holds
  have coherent := (stripe_link_coherence run).1 sampleId data link present linked
  have period := of_decide_eq_true paid
  exact ⟨state, data, link, run, present, linked, period, coherent.1, coherent.2 500 period⟩

end Keyzori
