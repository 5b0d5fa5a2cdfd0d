import Keyzori.Server.ProgramRules

namespace Keyzori

open Interleaving

variable {host : Host} {request : Request} {trace after : ServerTrace} {α β : Type} {id : LicenseId}

theorem unchanged_quietly {current : License} {row : StoredLicense} (quietly : Quietly trace after)
    (unchanged : Unchanged request trace id current row) : Unchanged request after id current row :=
  ⟨initial_along quietly unchanged.read, within_quietly quietly unchanged.locked, unchanged.version⟩

theorem inserts_quietly {newMeters : List NewLicenseMeter} {inserted : List Write}
    (quietly : Quietly trace after) (inserts : Inserts trace id newMeters inserted) :
    Inserts after id newMeters inserted := by
  cases inserts with
  | nothing empty => exact .nothing _ empty
  | missing region now read ran => exact .missing _ region now (under_quietly quietly read) ran
  | inserted region table now read ran =>
      exact .inserted _ region table now (under_quietly quietly read) ran

theorem computed_grows {current : License} {data : UpdateLicenseInput} {update : LicenseUpdate}
    {options : LicenseUpdateOptions} {currentMeters : List LicenseMeter} (grown : trace <+: after)
    (computed : Computed trace id current data update options currentMeters) :
    Computed after id current data update options currentMeters := by
  obtain ⟨⟨limits, config, newMeters, now, drawn, made⟩, listed, limited, bounded⟩ := computed
  exact ⟨⟨limits, config, newMeters, now, grown.subset drawn, made⟩, inOrder_prefix listed grown, limited,
    bounded⟩

structure Planned (id : LicenseId) (request : Request) (trace : ServerTrace)
    (data : UpdateLicenseInput) (current : License) (update : LicenseUpdate)
    (options : LicenseUpdateOptions) : Prop where
  asked : request.edits = some (id, data)
  read : Initial request trace id current
  computed : ∃ currentMeters, Computed trace id current data update options currentMeters

theorem planned_grows {data : UpdateLicenseInput} {current : License} {update : LicenseUpdate}
    {options : LicenseUpdateOptions} (grown : trace <+: after)
    (planned : Planned id request trace data current update options) :
    Planned id request after data current update options := by
  obtain ⟨asked, read, currentMeters, computed⟩ := planned
  exact ⟨asked, initial_grows read grown, currentMeters, computed_grows grown computed⟩

section Transaction

variable {data : UpdateLicenseInput} {current : License} {update : LicenseUpdate}
  {options : LicenseUpdateOptions} {row : StoredLicense}

structure Metered (id : LicenseId) (trace : ServerTrace) (update : LicenseUpdate)
    (newMeters : List NewLicenseMeter) (inserted : List Write) : Prop where
  inserts : Inserts trace id newMeters inserted
  active : update.type = some .metered → ∃ region,
    Under trace (.meter id) (.query fun tables => tables.meters id) region ∧
      MeterRegion.activeMeters (region.map fun table => inserted.foldl Write.applyMeters table) ≠ []

theorem insertNewMeters_meets {newMeters : List NewLicenseMeter}
    (held : newMeters ≠ [] → Holding trace (.meter id)) (row : Holding trace (.row id)) :
    Meets host request (LicenseRepository.insertNewMeters id newMeters) trace fun result after =>
      Quietly trace after ∧ ∀ inserted, result = .ok inserted → Inserts after id newMeters inserted := by
  rw [LicenseRepository.insertNewMeters]
  split
  · next empty =>
    refine ⟨along_refl, fun inserted same => ?_⟩
    cases same
    exact .nothing _ (List.isEmpty_iff.mp empty)
  · next some =>
    have locked := held (by simpa using some)
    refine meets_act True.intro (fun now => ?_)
      (fun _ => ⟨along_step along_refl rfl _, fun _ same => by cases same⟩)
    have drawn : Quietly trace (trace ++ [⟨.draw, .ok now⟩]) := along_step along_refl rfl _
    refine meets_act True.intro (fun region => ?_)
      (fun _ => ⟨along_step drawn rfl _, fun _ same => by cases same⟩)
    refine meets_except (fun written ran => ?_)
      (fun _ _ => ⟨along_step drawn rfl _, fun _ same => by cases same⟩)
    refine ⟨along_step drawn rfl _, fun inserted same => ?_⟩
    cases same
    obtain ⟨table, done⟩ := written
    cases table with
    | none =>
        exact .missing _ region now
          (under_append.mpr ⟨rfl, .inr ⟨holding_quietly drawn row, rfl⟩⟩) ran
    | some table =>
        exact .inserted _ region table now
          (under_append.mpr ⟨rfl, .inr ⟨holding_quietly drawn locked, rfl⟩⟩) ran

theorem requireActiveMeter_meets {newMeters : List NewLicenseMeter} {inserted : List Write}
    (held : update.type = some .metered → Holding trace (.meter id))
    (inserts : Inserts trace id newMeters inserted) :
    Meets host request (LicenseRepository.requireActiveMeter id update inserted) trace
      fun result after => Quietly trace after ∧
        (result = .ok () → Metered id after update newMeters inserted) := by
  rw [LicenseRepository.requireActiveMeter]
  split
  · next metered =>
    refine meets_act True.intro (fun region => ?_)
      (fun _ => ⟨along_step along_refl rfl _, fun same => by cases same⟩)
    have read : Quietly trace (trace ++ [⟨.query fun tables => tables.meters id, .ok region⟩]) :=
      along_step along_refl rfl _
    dsimp only
    split
    · exact ⟨read, fun same => by cases same⟩
    · next some =>
      refine ⟨read, fun _ => ⟨inserts_quietly read inserts, fun _ => ⟨region, ?_, ?_⟩⟩⟩
      · exact under_append.mpr ⟨rfl, .inr ⟨held metered, rfl⟩⟩
      · simpa using some
  · next other => exact ⟨along_refl, fun _ => ⟨inserts, fun metered => absurd metered other⟩⟩

theorem updateStatements_meets (planned : Planned id request trace data current update options)
    (meter : update.type = some .metered ∨ options.newMeters ≠ [] → Holding trace (.meter id))
    (expected : options.expectedUpdatedAt = some current.updatedAt) :
    Meets host request (do
      let locked ← firstOrThrow (← lockRow id) "locking a license for update"
      ofExcept (LicenseRepository.checkVersion locked options)
      let inserted ← LicenseRepository.insertNewMeters id options.newMeters
      LicenseRepository.requireActiveMeter id update inserted
      let link ← query (fun tables => tables.link id)
      let statements ← ofExcept (LicenseRepository.updateStatements update options link)
      execute (inserted ++ statements)) trace fun result after => ∀ writes, result = .ok writes →
        ∃ row link inserted statements, writes = inserted ++ statements ∧
          Edits request after id data current row update link inserted statements := by
  have failed : ∀ (error : Failure) (after : ServerTrace) (writes : List Write),
      (Except.error error : Except Failure (List Write)) = .ok writes →
        ∃ row link inserted statements, writes = inserted ++ statements ∧
          Edits request after id data current row update link inserted statements := by
    intro error after writes same
    cases same
  refine meets_act True.intro (fun found => ?_) (fun _ => failed _ _)
  refine meets_firstOrThrow (fun locked same => ?_) (fun _ => failed _ _)
  subst same
  refine meets_except (fun _ checked => ?_) (fun _ _ => failed _ _)
  have version : locked.updatedAt = current.updatedAt := by
    by_contra differs
    simp [LicenseRepository.checkVersion, expected, differs] at checked
  have unchanged : Unchanged request (trace ++ [⟨.lockRow id, .ok (some locked)⟩]) id current locked :=
    ⟨initial_grows planned.read (List.prefix_append _ _), within_append.mpr ⟨rfl, .inr rfl⟩, version⟩
  have row : Holding (trace ++ [⟨.lockRow id, .ok (some locked)⟩]) (.row id) :=
    holding_append.mpr ⟨rfl, .inr rfl⟩
  have meters : update.type = some .metered ∨ options.newMeters ≠ [] →
      Holding (trace ++ [⟨.lockRow id, .ok (some locked)⟩]) (.meter id) :=
    fun needed => holding_append.mpr ⟨rfl, .inl (meter needed)⟩
  refine meets_bind _ (insertNewMeters_meets (fun some => meters (.inr some)) row) ?_ (fun _ _ _ => failed _ _)
  rintro inserted after ⟨quietly, inserts⟩
  refine meets_bind _ (requireActiveMeter_meets
    (fun metered => holding_quietly quietly (meters (.inl metered))) (inserts inserted rfl)) ?_
    (fun _ _ _ => failed _ _)
  rintro _ later ⟨calmly, metered⟩
  have found := metered rfl
  refine meets_act True.intro (fun link => ?_) (fun _ => failed _ _)
  refine meets_except (fun statements branch => ?_) (fun _ _ => failed _ _)
  refine meets_act True.intro (fun _ => ?_) (fun _ => failed _ _)
  rintro writes same
  cases same
  have ending : Quietly later (later ++ [⟨.query fun tables => tables.link id, .ok link⟩] ++
      [⟨.query fun _ => (), .ok ()⟩]) := along_step (along_step along_refl rfl _) rfl _
  obtain ⟨currentMeters, computed⟩ := planned.computed
  have grown := (List.prefix_append trace _).trans (along_grown
    (along_trans quietly (along_trans calmly ending)))
  refine ⟨locked, link, inserted, statements, rfl, planned.asked, ?_, ?_, ?_, ?_⟩
  · exact unchanged_quietly ending (unchanged_quietly calmly (unchanged_quietly quietly unchanged))
  · refine under_append.mpr ⟨rfl, .inl (under_append.mpr ⟨rfl, .inr ⟨?_, rfl⟩⟩)⟩
    exact holding_quietly calmly (holding_quietly quietly row)
  · exact ⟨options, currentMeters, computed_grows grown computed, branch,
      inserts_quietly ending found.inserts⟩
  · intro typed
    obtain ⟨region, read, active⟩ := found.active typed
    exact ⟨region, under_quietly ending read, active⟩

def Committed (id : LicenseId) (type : Option LicenseType) (trace : ServerTrace) : Prop :=
  ∃ writes written update, Took trace (.commit id none writes) written ∧
    .updateLicense update ∈ writes ∧ update.type = type

theorem updateStatements_updates {link : Option StripeSubscriptionLink} {statements : List Write}
    (branch : LicenseRepository.updateStatements update options link = .ok statements) :
    ∃ final, .updateLicense final ∈ statements ∧ final.type = update.type := by
  simp only [LicenseRepository.updateStatements] at branch
  split at branch
  · split at branch
    · cases branch
    · split at branch <;> cases branch
      · exact ⟨update, by simp, rfl⟩
      · exact ⟨update, by simp, rfl⟩
  · split at branch
    · cases branch
      exact ⟨update, by simp, rfl⟩
    · split at branch <;> cases branch
      exact ⟨_, .head _, rfl⟩

theorem updateTransaction_meets (planned : Planned id request trace data current update options)
    (expected : options.expectedUpdatedAt = some current.updatedAt) :
    Meets host request (LicenseRepository.updateTransaction id update options) trace
      fun result after => result = .ok () → Committed id update.type after := by
  refine meets_bind (fun result after => ∀ writes, result = .ok writes →
    Commits host request after id writes ∧
      ∃ final, .updateLicense final ∈ writes ∧ final.type = update.type) ?_ ?_
    (fun _ _ _ same => by cases same)
  · refine meets_orRollback (fun result after => ∀ writes, result = .ok writes →
      ∃ row link inserted statements, writes = inserted ++ statements ∧
        Edits request after id data current row update link inserted statements) ?_ ?_
      (fun _ _ _ _ _ _ same => by cases same)
    · rw [LicenseRepository.lockMeters]
      split
      · refine meets_act True.intro (fun _ => ?_) (fun _ _ same => by cases same)
        refine updateStatements_meets (planned_grows (List.prefix_append _ _) planned) (fun _ => ?_)
          expected
        exact holding_append.mpr ⟨rfl, .inr rfl⟩
      · next unneeded =>
        exact updateStatements_meets planned (fun needed => absurd needed unneeded) expected
    · rintro value after holds writes same
      obtain ⟨row, link, inserted, statements, rfl, edits⟩ := holds writes same
      refine ⟨.edited id data current row update link inserted statements edits, ?_⟩
      obtain ⟨options', currentMeters, -, branch, -⟩ := edits.computed
      obtain ⟨final, member, type⟩ := updateStatements_updates branch
      exact ⟨final, List.mem_append_right _ member, type⟩
  · rintro writes after ready
    obtain ⟨commits, final, member, type⟩ := ready writes rfl
    refine meets_act commits (fun written => ?_) (fun _ same => by cases same)
    exact fun _ => ⟨writes, written, final, took_append.mpr (.inr rfl), member, type⟩

theorem update_meets (planned : Planned id request trace data current update options)
    (expected : options.expectedUpdatedAt = some current.updatedAt) (typed : update.type.isSome) :
    Meets host request (LicenseRepository.update id update options) trace
      fun result after => (∃ license, result = .ok license) → Committed id update.type after := by
  rw [LicenseRepository.update, if_pos (.inl typed)]
  refine meets_bind _ (updateTransaction_meets planned expected) ?_ (fun _ _ _ same => ?_)
  · rintro _ after committed
    obtain ⟨writes, written, final, took, wrote⟩ := committed rfl
    have still : ∀ result, Committed id update.type (after ++ [⟨.findLicense id, result⟩]) := fun _ =>
      ⟨writes, written, final, took_append.mpr (.inl took), wrote⟩
    refine meets_act True.intro (fun found => ?_) (fun _ _ => still _)
    cases found <;> exact fun _ => still _
  · obtain ⟨license, same⟩ := same
    cases same

end Transaction

section Service

variable {data : UpdateLicenseInput} {current : License}

theorem checkCustomer_quiet (customerId : Option String) : Quiet (AdminService.checkCustomer customerId) := by
  cases customerId with
  | none => trivial
  | some customerId => exact quiet_requireCustomer customerId

theorem meteredDraft_meets {targetType : LicenseType} {currentMeters : List LicenseMeter}
    {newMeters : List NewLicenseMeter} {config : TypeConfig} :
    Meets host request (AdminService.meteredDraft id targetType currentMeters newMeters config) trace
      fun result after => Quietly trace after ∧ ∀ active, result = .ok active →
        active = editedConfig targetType currentMeters newMeters config := by
  rw [AdminService.meteredDraft, editedConfig]
  split
  · refine meets_act True.intro (fun allMeters => ?_)
      (fun _ => ⟨along_step along_refl rfl _, fun _ same => by cases same⟩)
    refine meets_domain (fun _ _ => ?_)
      (fun _ _ => ⟨along_step along_refl rfl _, fun _ same => by cases same⟩)
    dsimp only
    split
    · exact ⟨along_step along_refl rfl _, fun _ same => by cases same⟩
    · refine ⟨along_step along_refl rfl _, fun active same => ?_⟩
      cases same
      rfl
  · refine ⟨along_refl, fun active same => ?_⟩
    cases same
    rfl

/-- The link the service saw, and that the operator confirmed to drop it. -/
def Observed (id : LicenseId) (data : UpdateLicenseInput) (targetType : LicenseType)
    (trace : ServerTrace) (link : StripeSubscriptionLink) : Prop :=
  Took trace (.query fun tables => tables.link id) (some link) ∧ data.unlinkStripe = some true ∧
    targetType ≠ .subscription

theorem observedLink_meets {targetType : LicenseType} :
    Meets host request (AdminService.observedLink host id targetType data) trace fun result after =>
      Quietly trace after ∧ ∀ link, result = .ok (some link) → Observed id data targetType after link := by
  rw [AdminService.observedLink]
  split
  · next needed =>
    refine meets_act True.intro (fun found => ?_)
      (fun _ => ⟨along_step along_refl rfl _, fun _ same => by cases same⟩)
    refine ⟨along_step along_refl rfl _, fun link same => ?_⟩
    simp only [AdminService.checkStripeLink] at same
    split at same
    · cases same
    · next allowed =>
      split at same
      · cases same
      · next confirmed =>
        cases same
        refine ⟨took_append.mpr (.inr rfl), by simpa using confirmed, fun subscription => ?_⟩
        exact allowed ⟨rfl, subscription, needed.2.resolve_left fun other => other subscription⟩
  · exact ⟨along_refl, fun _ same => by cases same⟩

theorem dropObservedLink_meets {link : Option StripeSubscriptionLink} {targetType : LicenseType}
    {rest : Unit → Server β} (asked : request.edits = some (id, data))
    (observed : ∀ seen, link = some seen → Observed id data targetType trace seen)
    (committed : Committed id (some targetType) trace) (quiet : ∀ value, Quiet (rest value)) :
    Meets host request (AdminService.dropObservedLink id link >>= rest) trace
      fun _ after => Committed id (some targetType) after := by
  have still : ∀ after : ServerTrace, (∀ deed ∈ trace, deed ∈ after) →
      Committed id (some targetType) after := by
    obtain ⟨writes, written, update, took, wrote⟩ := committed
    exact fun after kept => ⟨writes, written, update, kept _ took, wrote⟩
  have ended : ∀ middle : ServerTrace, (∀ deed ∈ trace, deed ∈ middle) → ∀ value,
      Meets host request (rest value) middle fun _ after => Committed id (some targetType) after := by
    intro middle kept value
    refine Prog.wp_only (quiet value) (fun trace act quiet => quiet_warrant quiet trace) ?_
    exact fun _ deeds _ => still _ fun deed member => List.mem_append_left _ (kept deed member)
  cases link with
  | none => exact ended trace (fun _ member => member) ()
  | some seen =>
      obtain ⟨took, confirmed, other⟩ := observed seen rfl
      obtain ⟨writes, written, update, committed, updated, type⟩ := committed
      have changed : update.type ≠ some .subscription := type ▸ fun same => other (Option.some.inj same)
      refine meets_bind (fun _ after => ∀ deed ∈ trace, deed ∈ after) ?_
        (fun value middle kept => ended middle kept value) (fun _ after kept => still after kept)
      refine meets_bind (fun _ after => ∀ deed ∈ trace, deed ∈ after) ?_ ?_ (fun _ _ kept => kept)
      · refine meets_act (Commits.dropped id data seen update writes written asked confirmed changed took
          committed updated) (fun rows => ?_) (fun _ => ?_)
        · exact fun _ member => List.mem_append_left _ member
        · exact fun _ member => List.mem_append_left _ member
      · intro _ middle kept
        refine Prog.wp_only (quiet_capture _) (fun trace act quiet => quiet_warrant quiet trace) ?_
        exact fun _ deeds _ deed member => List.mem_append_left _ (kept deed member)

theorem updateLicense_meets (asked : request.edits = some (id, data))
    (first : (∃ expiresAt, request = .renewSubscription id expiresAt) ∨ trace = []) :
    Meets host request (AdminService.updateLicense host id data) trace
      fun result after => (∃ license, result = .ok license) → ∃ type, Committed id type after := by
  have failed : ∀ error : Failure, ¬∃ license : ManagedLicense,
      (Except.error error : Except Failure ManagedLicense) = .ok license := by
    rintro error ⟨license, same⟩
    cases same
  refine meets_domain (fun _ _ => ?_) (fun _ _ same => absurd same (failed _))
  refine meets_requireLicense (fun current => ?_) (fun _ _ same => absurd same (failed _))
  have read : Initial request (trace ++ [⟨.findLicense id, .ok (some current)⟩]) id current :=
    initial_read first
  generalize trace ++ [⟨.findLicense id, .ok (some current)⟩] = trace at read
  refine meets_domain (fun limits limited => ?_) (fun _ _ same => absurd same (failed _))
  refine meets_quiet (checkCustomer_quiet _) (fun _ first quietly => ?_)
    (fun _ _ _ same => absurd same (failed _))
  have found : Took first (.findLicense id) (some current) := took_along quietly (initial_took read)
  refine meets_domain (fun _ fields => ?_) (fun _ _ same => absurd same (failed _))
  refine meets_domain (fun newMeters valid => ?_) (fun _ _ same => absurd same (failed _))
  refine meets_domain (fun _ allowed => ?_) (fun _ _ same => absurd same (failed _))
  refine meets_act True.intro (fun currentMeters => ?_) (fun _ same => absurd same (failed _))
  have listed : InOrder (first ++ [⟨.query (activeListed id), .ok currentMeters⟩])
      ⟨.findLicense id, .ok (some current)⟩ ⟨.query (activeListed id), .ok currentMeters⟩ :=
    inOrder_append.mpr (.inr ⟨found, rfl⟩)
  refine meets_act True.intro (fun now => ?_) (fun _ same => absurd same (failed _))
  refine meets_domain (fun config configured => ?_) (fun _ _ same => absurd same (failed _))
  have start : Quietly first (first ++ [⟨.query (activeListed id), .ok currentMeters⟩] ++
      [⟨.draw, .ok now⟩]) := along_step (along_step along_refl rfl _) rfl _
  refine meets_bind _ meteredDraft_meets ?_ (fun _ _ _ same => absurd same (failed _))
  rintro active fourth ⟨drafted, shape⟩
  refine meets_bind _ observedLink_meets ?_ (fun _ _ _ same => absurd same (failed _))
  rintro link fifth ⟨looked, observed⟩
  have later := along_grown (along_trans drafted looked)
  have before : Initial request fifth id current :=
    initial_along looked (initial_along drafted (initial_along start (initial_along quietly read)))
  have computed : Computed fifth id current data (AdminService.licenseUpdate current data limits active)
      (AdminService.updateOptions current data newMeters currentMeters) currentMeters := by
    rw [shape active rfl]
    refine ⟨⟨limits, config, newMeters, now, later.subset (took_append.mpr (.inr rfl)), fields, allowed,
      configured, rfl, rfl⟩, inOrder_prefix listed ((List.prefix_append _ _).trans later),
      ⟨limits, _, limited, rfl⟩, fun meter member => ?_⟩
    exact validateMeters_bounded valid meter (List.mem_of_mem_filter member)
  have planned : Planned id request fifth data current (AdminService.licenseUpdate current data limits active)
      (AdminService.updateOptions current data newMeters currentMeters) :=
    ⟨asked, before, currentMeters, computed⟩
  refine meets_bind _ (Prog.wp_grows (update_meets planned rfl rfl)) ?_
    (fun _ _ _ same => absurd same (failed _))
  rintro updated after ⟨committed, grown⟩
  refine Prog.wp_mono (dropObservedLink_meets asked ?_ (committed ⟨_, rfl⟩) fun _ =>
    Prog.only_bind (quiet_capture _) fun _ => quiet_managed _) fun _ _ holds _ => ⟨_, holds⟩
  rintro seen rfl
  obtain ⟨took, confirmed⟩ := observed seen rfl
  exact ⟨grown.subset took, confirmed⟩

theorem renewSubscription_meets {expiresAt : DateText}
    (asked : request = .renewSubscription id expiresAt) :
    Meets host request (AdminService.renewSubscription host id expiresAt) trace
      fun result after => (∃ license, result = .ok license) → ∃ type, Committed id type after := by
  have failed : ∀ error : Failure, ¬∃ license : ManagedLicense,
      (Except.error error : Except Failure ManagedLicense) = .ok license := by
    rintro error ⟨license, same⟩
    cases same
  refine meets_requireLicense (fun current => ?_) (fun _ _ same => absurd same (failed _))
  split
  · exact fun same => absurd same (failed _)
  · exact updateLicense_meets (by rw [asked]; rfl) (.inl ⟨expiresAt, asked⟩)

end Service

end Keyzori
