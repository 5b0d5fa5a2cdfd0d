import Keyzori.Server.Programs

/-! How the programs take their locks. A call takes an advisory lock only when it holds
none, then the row of the license, then its link, and it ends with none: every statement
that can wait asks for a lock above those its transaction holds. -/

namespace Keyzori

open Interleaving

variable {host : Host} {α β : Type} {trace : ServerTrace} {id : LicenseId} {lock : Lock}

/-- The order of the locks. No call takes two advisory ones. -/
def Lock.rank : Lock → Fin 3
  | registration _ | stripe _ | meter _ => 0
  | row _ => 1
  | link _ => 2

/-- Whether a statement inserts rows that refer to the license row, which shares a lock on it. -/
def Write.sharesRow (write : Write) : Bool :=
  match write with
  | .insertDevice _ | .insertLink _ _ | .allowIp _ | .allowDevice _ | .meters _ => true
  | _ => false

def Act.deletes (act : Act) : Bool :=
  match act with
  | .deleteLicense _ | .deleteCustomer _ => true
  | _ => false

/-- The locks that an act may have to wait for. -/
inductive Act.Asks : Act → Lock → Prop
  | lock (lock : Lock) : Asks (.lock lock) lock
  | lockRow (id : LicenseId) : Asks (.lockRow id) (.row id)
  | lockLink (id : LicenseId) (subscriptionId : String) : Asks (.lockLink id subscriptionId) (.link id)
  | writtenRow (id : LicenseId) (expected : Option Instant) (writes : List Write) (write : Write)
      (member : write ∈ writes) (locks : write.locksRow = true) :
      Asks (.commit id expected writes) (.row id)
  | sharedRow (id : LicenseId) (expected : Option Instant) (writes : List Write) (write : Write)
      (member : write ∈ writes) (shares : write.sharesRow = true) :
      Asks (.commit id expected writes) (.row id)
  | writtenLink (id : LicenseId) (expected : Option Instant) (writes : List Write) (write : Write)
      (member : write ∈ writes) (locks : write.locksLink = true) :
      Asks (.commit id expected writes) (.link id)
  | deletedRow (id : LicenseId) : Asks (.deleteLicense id) (.row id)
  | deletedLink (id : LicenseId) : Asks (.deleteLicense id) (.link id)
  | cascadedRow (customerId : String) (id : LicenseId) : Asks (.deleteCustomer customerId) (.row id)
  | cascadedLink (customerId : String) (id : LicenseId) : Asks (.deleteCustomer customerId) (.link id)
  | failedLink (subscriptionId error : String) (id : LicenseId) :
      Asks (.updateLinkError subscriptionId error) (.link id)

def Above (trace : ServerTrace) (lock : Lock) : Prop :=
  Holding trace lock ∨ ∀ held, Holding trace held → held.rank < lock.rank

def Faithful (trace : ServerTrace) : Prop :=
  ∀ id row, Took trace (.lockRow id) (some row) → row.id = id

/-- What every act keeps to. -/
structure Orderly (trace : ServerTrace) (act : Act) : Prop where
  advisory : ∀ lock, act = .lock lock → lock.advisory = true
  deletes : act.deletes = true → Idle trace
  climbs : Faithful trace → ∀ lock, act.Asks lock → Above trace lock

section Rules

def Act.loose : Act → Bool
  | .lock _ | .lockRow _ | .lockLink _ _ => false
  | _ => true

theorem loose_takes {deed : ServerDeed} (loose : deed.act.loose = true) : takes deed = none := by
  obtain ⟨act, result⟩ := deed
  cases act <;> first | rfl | cases loose

theorem idle_loose {deed : ServerDeed} (idle : Idle trace) (loose : deed.act.loose = true) :
    Idle (trace ++ [deed]) := by
  intro lock holding
  obtain ⟨-, held | taken⟩ := holding_append.mp holding
  · exact idle lock held
  · rw [loose_takes loose] at taken
    cases taken

theorem faithful_before {longer : ServerTrace} (grown : trace <+: longer) (faithful : Faithful longer) :
    Faithful trace := fun id row took => faithful id row (grown.subset took)

theorem idle_ended {deed : ServerDeed} (ended : deed.act.ends = true) : Idle (trace ++ [deed]) := by
  intro lock holding
  obtain ⟨open', -⟩ := holding_append.mp holding
  rw [ended] at open'
  cases open'

theorem faithful_earlier {deed : ServerDeed} (faithful : Faithful (trace ++ [deed])) : Faithful trace :=
  fun id row took => faithful id row (took_append.mpr (.inl took))

theorem orderly_idle {act : Act} (idle : Idle trace) (advisory : ∀ lock, act = .lock lock → lock.advisory = true) :
    Orderly trace act :=
  ⟨advisory, fun _ => idle, fun _ _ _ => .inr fun held holding => absurd holding (idle held)⟩

abbrev Tidy (prog : Server α) : Prop :=
  ∀ trace, Idle trace → prog.wp Orderly trace fun _ after => Idle after

theorem tidy_done {result : Except Failure α} : Tidy (ofExcept result) := fun _ idle => idle

theorem tidy_bind {prog : Server α} {rest : α → Server β} (first : Tidy prog)
    (second : ∀ value, Tidy (rest value)) : Tidy (prog >>= rest) := fun trace idle =>
  Prog.wp_bind _ (first trace idle) (fun value after => second value after) fun _ _ idle => idle

theorem tidy_tryCatch {prog : Server α} {handler : Failure → Server α} (first : Tidy prog)
    (second : ∀ error, Tidy (handler error)) : Tidy (tryCatch prog handler) := fun trace idle =>
  Prog.wp_tryCatch _ (first trace idle) (fun _ _ idle => idle) fun error after => second error after

theorem tidy_only {prog : Server α} (only : prog.Only fun act => act.loose = true) : Tidy prog := by
  intro trace idle
  induction prog generalizing trace with
  | done result => exact idle
  | act act next ih =>
      refine ⟨orderly_idle idle fun lock same => ?_, fun result => ih result (only.2 result) _ ?_⟩
      · have loose := only.1
        rw [same] at loose
        cases loose
      · exact idle_loose idle only.1

theorem tidy_quiet {prog : Server α} (quiet : Quiet prog) : Tidy prog :=
  tidy_only (Prog.only_mono quiet fun act quiet => by cases act <;> first | rfl | cases quiet)

theorem tidy_act {act : Act} {rest : act.Val → Server β} (loose : act.loose = true)
    (second : ∀ value, Tidy (rest value)) : Tidy (perform act >>= rest) :=
  tidy_bind (tidy_only (Prog.only_call loose)) second

theorem tidy_map {prog : Server α} {value : α → β} (first : Tidy prog) : Tidy (value <$> prog) :=
  tidy_bind first fun _ => tidy_done

end Rules

section Transactions

def Beneath (id : LicenseId) (trace : ServerTrace) : Prop :=
  Faithful trace → ∀ held, Holding trace held → held.advisory = true ∨ held = .row id

theorem beneath_idle (idle : Idle trace) : Beneath id trace := fun _ held holding =>
  absurd holding (idle held)

theorem advisory_rank {held : Lock} (advisory : held.advisory = true) : held.rank = 0 := by
  cases held <;> first | rfl | cases advisory

theorem beneath_row (beneath : Beneath id trace) (faithful : Faithful trace) : Above trace (.row id) := by
  by_cases own : Holding trace (.row id)
  · exact .inl own
  · refine .inr fun held holding => ?_
    rcases beneath faithful held holding with advisory | rfl
    · rw [advisory_rank advisory]
      exact (by decide : (0 : Fin 3) < 1)
    · exact absurd holding own

theorem beneath_link {other : LicenseId} (beneath : Beneath id trace) (faithful : Faithful trace) :
    Above trace (.link other) := by
  refine .inr fun held holding => ?_
  rcases beneath faithful held holding with advisory | rfl
  · rw [advisory_rank advisory]
    exact (by decide : (0 : Fin 3) < 2)
  · exact (by decide : (1 : Fin 3) < 2)

def Act.inside (id : LicenseId) : Act → Prop
  | .lockRow owner => owner = id
  | .commit _ _ _ | .finish | .rollback | .lock _ | .lockLink _ _ | .deleteLicense _ | .deleteCustomer _
  | .updateLinkError _ _ => False
  | _ => True

theorem quiet_inside {act : Act} (quiet : act.quiet = true) : act.inside id := by
  cases act <;> trivial

theorem inside_orderly {act : Act} (inside : act.inside id) (beneath : Beneath id trace) : Orderly trace act := by
  refine ⟨?_, fun deletes => ?_, fun faithful lock asks => ?_⟩
  · rintro lock rfl
    cases inside
  · cases act <;> first | exact absurd deletes Bool.false_ne_true | exact False.elim inside
  · cases asks with
    | lockRow owner =>
        obtain rfl := inside
        exact beneath_row beneath faithful
    | _ => cases inside

theorem inside_beneath {deed : ServerDeed} (inside : deed.act.inside id) (beneath : Beneath id trace) :
    Beneath id (trace ++ [deed]) := by
  intro faithful held holding
  obtain ⟨-, before | taken⟩ := holding_append.mp holding
  · exact beneath (faithful_earlier faithful) held before
  · obtain ⟨act, result⟩ := deed
    cases act with
    | lockRow owner =>
        obtain rfl := inside
        cases result with
        | error error => cases taken
        | ok row =>
            cases row with
            | none => cases taken
            | some row =>
                cases taken
                exact .inr rfl
    | lock | lockLink => cases inside
    | _ => cases taken

abbrev Inside (id : LicenseId) (prog : Server α) : Prop := prog.Only (Act.inside id)

theorem inside_wp {prog : Server α} (inside : Inside id prog) (beneath : Beneath id trace) :
    prog.wp Orderly trace fun _ after => Beneath id after := by
  induction prog generalizing trace with
  | done result => exact beneath
  | act act next ih =>
      exact ⟨inside_orderly inside.1 beneath, fun result =>
        ih result (inside.2 result) (inside_beneath inside.1 beneath)⟩

theorem inside_quiet {prog : Server α} (quiet : Quiet prog) : Inside id prog :=
  Prog.only_mono quiet fun _ => quiet_inside

theorem inside_act {act : Act} {rest : act.Val → Server β} (inside : act.inside id)
    (second : ∀ value, Inside id (rest value)) : Inside id (perform act >>= rest) :=
  Prog.only_bind (Prog.only_call inside) second

theorem advisory_taken (idle : Idle trace) (advisory : lock.advisory = true) :
    Beneath id (trace ++ [⟨.lock lock, .ok ()⟩]) := by
  intro _ held holding
  obtain ⟨-, before | taken⟩ := holding_append.mp holding
  · exact absurd before (idle held)
  · simp only [takes, advisory, if_true, Option.some.injEq] at taken
    exact .inl (taken ▸ advisory)

/-- A body that leaves its transaction ready for a commit to the license it tells. -/
abbrev Bracket (id : α → LicenseId) (body : Server α) : Prop := ∀ trace, Idle trace →
  body.wp Orderly trace fun result after => ∀ value, result = .ok value → Beneath (id value) after

theorem bracket_inside {body : Server α} (inside : Inside id body) : Bracket (fun _ => id) body :=
  fun _ idle => Prog.wp_mono (inside_wp inside (beneath_idle idle)) fun _ _ beneath _ _ => beneath

theorem bracket_lock {body : Unit → Server α} (advisory : lock.advisory = true)
    (inside : Inside id (body ())) : Bracket (fun _ => id) (perform (.lock lock) >>= body) := by
  intro trace idle
  refine ⟨orderly_idle idle fun other same => ?_, fun result => ?_⟩
  · cases same
    exact advisory
  · cases result with
    | error error => exact fun value same => by cases same
    | ok value =>
        exact Prog.wp_mono (inside_wp inside (advisory_taken idle advisory)) fun _ _ beneath _ _ => beneath

theorem commit_orderly {expected : Option Instant} {writes : List Write} (beneath : Beneath id trace) :
    Orderly trace (.commit id expected writes) := by
  refine ⟨fun lock same => (by cases same), fun deletes => (by cases deletes), fun faithful lock asks => ?_⟩
  cases asks with
  | writtenRow | sharedRow => exact beneath_row beneath faithful
  | writtenLink => exact beneath_link beneath faithful

theorem rollback_wp {error : Failure} (trace : ServerTrace) :
    Prog.wp Orderly (do
      perform .rollback
      throw error : Server α) trace fun result after => Idle after ∧ ∀ value, result ≠ .ok value := by
  refine ⟨⟨fun lock same => (by cases same), fun deletes => (by cases deletes), fun _ lock asks => (by cases asks)⟩,
    fun result => ?_⟩
  cases result with
  | error error => exact ⟨idle_ended rfl, fun value same => by cases same⟩
  | ok value => exact ⟨idle_ended rfl, fun value same => by cases same⟩

abbrev Closing (id : LicenseId) (prog : Server α) : Prop :=
  ∀ trace, Beneath id trace → prog.wp Orderly trace fun _ after => Idle after

theorem closing_commit {expected : Option Instant} {writes : List Write}
    {rest : Option Written → Server β} (after : ∀ rows, Tidy (rest rows)) :
    Closing id (commit id expected writes >>= rest) := by
  intro trace beneath
  refine ⟨commit_orderly beneath, fun result => ?_⟩
  cases result with
  | error error => exact idle_ended rfl
  | ok rows => exact after rows _ (idle_ended rfl)

theorem closing_bind {prog : Server α} {rest : α → Server β} (first : Closing id prog)
    (second : ∀ value, Tidy (rest value)) : Closing id (prog >>= rest) := fun trace beneath =>
  Prog.wp_bind _ (first trace beneath) (fun value after => second value after) fun _ _ idle => idle

theorem closing_tryCatch {prog : Server α} {handler : Failure → Server α} (first : Closing id prog)
    (second : ∀ error, Tidy (handler error)) : Closing id (tryCatch prog handler) := fun trace beneath =>
  Prog.wp_tryCatch _ (first trace beneath) (fun _ _ idle => idle) fun error after => second error after

def HandsOn (middle : Except Failure α → ServerTrace → Prop) : Except Failure α → ServerTrace → Prop
  | .ok value, after => middle (.ok value) after
  | .error _, after => Idle after

theorem orRollback_wp {body : Server α} {rest : α → Server β}
    {middle : Except Failure α → ServerTrace → Prop} (inside : body.wp Orderly trace middle)
    (after : ∀ value trace, middle (.ok value) trace →
      (rest value).wp Orderly trace fun _ after => Idle after) :
    (orRollback body >>= rest).wp Orderly trace fun _ after => Idle after := by
  refine Prog.wp_bind (HandsOn middle) ?_ after fun _ _ idle => idle
  refine Prog.wp_tryCatch _ inside (fun value after holds => holds) ?_
  refine fun error during _ => Prog.wp_mono (rollback_wp during) fun result after ended => ?_
  cases result with
  | error error => exact ended.1
  | ok value => exact absurd rfl (ended.2 value)

/-- A transaction that rolls back what throws and goes on with what returns. -/
theorem tidy_transaction {body : Server α} {id : α → LicenseId} {rest : α → Server β}
    (bracket : Bracket id body) (after : ∀ value, Closing (id value) (rest value)) :
    Tidy (orRollback body >>= rest) := fun trace idle =>
  orRollback_wp (bracket trace idle) fun value later beneath => after value later (beneath value rfl)

theorem closing_orRollback {body : Server α} {rest : α → Server β} (inside : Inside id body)
    (after : ∀ value, Closing id (rest value)) : Closing id (orRollback body >>= rest) := fun _ beneath =>
  orRollback_wp (inside_wp inside beneath) fun value later holds => after value later holds

end Transactions

section Repositories

theorem updateTransaction_tidy (id : LicenseId) (data : LicenseUpdate) (options : LicenseUpdateOptions) :
    Tidy (LicenseRepository.updateTransaction id data options) := by
  have body : Inside id (do
      let locked ← firstOrThrow (← lockRow id) "locking a license for update"
      ofExcept (LicenseRepository.checkVersion locked options)
      let inserted ← LicenseRepository.insertNewMeters id options.newMeters
      LicenseRepository.requireActiveMeter id data inserted
      let link ← query (fun tables => tables.link id)
      let statements ← ofExcept (LicenseRepository.updateStatements data options link)
      execute (inserted ++ statements)) := by
    refine inside_act rfl fun row => inside_quiet (Prog.only_bind quiet_firstOrThrow fun locked => ?_)
    refine quiet_except fun _ => Prog.only_bind (insertNewMeters_quiet _ _) fun inserted => ?_
    refine Prog.only_bind (requireActiveMeter_quiet _ _ _) fun _ => quiet_act rfl fun link => ?_
    exact quiet_except fun statements => quiet_execute _
  have bracket : Bracket (fun _ => id) (LicenseRepository.lockMeters id data options >>= fun _ => do
      let locked ← firstOrThrow (← lockRow id) "locking a license for update"
      ofExcept (LicenseRepository.checkVersion locked options)
      let inserted ← LicenseRepository.insertNewMeters id options.newMeters
      LicenseRepository.requireActiveMeter id data inserted
      let link ← query (fun tables => tables.link id)
      let statements ← ofExcept (LicenseRepository.updateStatements data options link)
      execute (inserted ++ statements)) := by
    rw [LicenseRepository.lockMeters]
    split
    · exact bracket_lock rfl body
    · exact bracket_inside body
  exact tidy_transaction bracket fun writes => closing_commit fun _ => tidy_done

theorem update_tidy (id : LicenseId) (data : LicenseUpdate) (options : LicenseUpdateOptions) :
    Tidy (LicenseRepository.update id data options) := by
  refine tidy_bind ?_ fun _ => tidy_quiet (quiet_reload _ _)
  split
  · exact updateTransaction_tidy id data options
  · refine tidy_act rfl fun rows => ?_
    cases rows with
    | some written => exact tidy_done
    | none => cases options.expectedUpdatedAt <;> exact tidy_done

theorem rotateKey_tidy (id : LicenseId) (licenseKey : String) (expectedUpdatedAt : Instant) :
    Tidy (LicenseRepository.rotateKey host id licenseKey expectedUpdatedAt) := by
  refine tidy_transaction (bracket_inside (inside_act rfl fun row => inside_quiet ?_)) fun _ =>
    closing_commit fun rows => tidy_quiet (Prog.only_bind quiet_firstOrThrow fun _ => trivial)
  cases row with
  | none => trivial
  | some row =>
      dsimp only
      split
      · trivial
      · exact quiet_query _

theorem updateMeterDraft_tidy (id : LicenseId) (meterNames : List String) :
    Tidy (LicenseRepository.updateMeterDraft id meterNames) :=
  tidy_transaction (bracket_inside (inside_act rfl fun _ => inside_quiet quiet_firstOrThrow)) fun _ =>
    closing_commit fun _ => tidy_quiet (quiet_reload _ _)

theorem transaction_tidy {body : Server (α × List Write)} (inside : Inside id body) :
    Tidy (MeterRepository.transaction id body) :=
  tidy_transaction (bracket_lock rfl inside) fun _ => closing_commit fun _ => tidy_done

theorem incrementLicenseSessionRevision_inside (id : LicenseId) :
    Inside id (DeviceRepository.incrementLicenseSessionRevision id) :=
  inside_act rfl fun row => by cases row <;> trivial

theorem startTrialIfUnset_inside (id : LicenseId) (startedAt : Instant) :
    Inside id (DeviceRepository.startTrialIfUnset id startedAt) := by
  refine inside_act rfl fun row => ?_
  cases row with
  | none => trivial
  | some row =>
      dsimp only
      split <;> trivial

theorem tidy_commit {expected : Option Instant} {writes : List Write} {rest : Option Written → Server β}
    (after : ∀ rows, Tidy (rest rows)) : Tidy (commit id expected writes >>= rest) := tidy_act rfl after

theorem touchDevice_tidy (licenseId : LicenseId) (id : String) (seenAt : Instant) :
    Tidy (DeviceRepository.touchDevice licenseId id seenAt) := tidy_commit fun _ => tidy_done

end Repositories

section Licenses

theorem touchBestEffort_tidy (id : LicenseId) (binding : SessionBinding) :
    Tidy (LicenseService.touchBestEffort id binding) := by
  refine tidy_tryCatch (tidy_act rfl fun device => ?_) fun _ => tidy_done
  cases device with
  | none => exact tidy_done
  | some device => exact tidy_act rfl fun now => touchDevice_tidy id device.id now.now

theorem removeSession_loose (sessionToken : String) (binding : SessionBinding) :
    (LicenseService.removeSessionBestEffort host sessionToken binding).Only fun act => act.loose = true :=
  Prog.only_tryCatch (Prog.only_bind (Prog.only_call rfl) fun _ => trivial) fun _ => trivial

theorem policy_wp (beneath : Beneath id trace) :
    (DeviceRepository.findLicenseAdmissionPolicy id).wp Orderly trace fun result after =>
      Beneath id after ∧ ∀ policy, result = .ok (some policy) → Faithful after → policy.id = id := by
  refine ⟨inside_orderly rfl beneath, fun result => ?_⟩
  rcases result with error | none | row
  · exact ⟨inside_beneath rfl beneath, fun policy same => by cases same⟩
  · exact ⟨inside_beneath rfl beneath, fun policy same => by cases same⟩
  · have rest : Quiet (do
        let billingRevokedAt ← query (fun tables =>
          (tables.link id).bind StripeSubscriptionLink.billingRevokedAt)
        return some (← LicenseRepository.withAllowlists (toDomainLicense row billingRevokedAt))) :=
      quiet_act rfl fun _ => Prog.only_bind (quiet_withAllowlists _) fun _ => trivial
    have returns : Prog.Returns (fun found => ∀ policy, found = some policy → policy.id = row.id) (do
        let billingRevokedAt ← query (fun tables =>
          (tables.link id).bind StripeSubscriptionLink.billingRevokedAt)
        return some (← LicenseRepository.withAllowlists (toDomainLicense row billingRevokedAt)) :
          Server (Option LicenseWithAllowlists)) := by
      refine Prog.returns_bind (fun _ => True) (Prog.returns_any _) fun billing _ => ?_
      refine Prog.returns_bind (fun policy => policy.id = row.id) ?_ fun policy same other found => ?_
      · exact Prog.returns_bind (fun _ => True) (Prog.returns_any _) fun _ _ =>
          Prog.returns_bind (fun _ => True) (Prog.returns_any _) fun _ _ => rfl
      · cases found
        exact same
    refine Prog.wp_mono (Prog.wp_grows (Prog.wp_returned returns
      (inside_wp (inside_quiet rest) (inside_beneath rfl beneath)))) ?_
    rintro result after ⟨⟨beneath, returned⟩, grown⟩
    refine ⟨beneath, fun policy same faithful => ?_⟩
    rw [returned _ same policy rfl]
    exact faithful_before grown faithful id row (took_append.mpr (.inr rfl))

theorem quiet_assertActive (license : License) : Quiet (assertActive license) :=
  quiet_act rfl fun _ => trivial

theorem admissionChecks_quiet (license : License) (binding : SessionBinding)
    (policy : Option LicenseWithAllowlists) : Quiet (do
      let current ← ofExcept (LicenseService.unchangedSince license policy)
      assertActive current.toLicense
      ofExcept (assertAllowed current binding)
      let existing ← DeviceRepository.findRegisteredDevice current.id binding
      LicenseService.checkRegistration current.toLicense binding existing
      return (current, existing)) := by
  refine quiet_except fun current => Prog.only_bind (quiet_assertActive _) fun _ => ?_
  refine quiet_except fun _ => Prog.only_bind (quiet_query _) fun existing => ?_
  refine Prog.only_bind ?_ fun _ => trivial
  cases existing with
  | some device => trivial
  | none =>
      refine Prog.only_bind ?_ fun usage => trivial
      exact quiet_act rfl fun _ => quiet_act rfl fun _ => quiet_act rfl fun _ => trivial

theorem admissionChecks_returns (license : License) (binding : SessionBinding)
    (policy : Option LicenseWithAllowlists) : Prog.Returns (fun value => policy = some value.1) (do
      let current ← ofExcept (LicenseService.unchangedSince license policy)
      assertActive current.toLicense
      ofExcept (assertAllowed current binding)
      let existing ← DeviceRepository.findRegisteredDevice current.id binding
      LicenseService.checkRegistration current.toLicense binding existing
      return (current, existing) : Server (LicenseWithAllowlists × Option RegisteredDevice)) := by
  refine Prog.returns_bind (fun current => policy = some current) ?_ fun current same => ?_
  · cases policy with
    | none => trivial
    | some policy =>
        simp only [LicenseService.unchangedSince]
        split
        · trivial
        · exact rfl
  · refine Prog.returns_bind (fun _ => True) (Prog.returns_any _) fun _ _ => ?_
    refine Prog.returns_bind (fun _ => True) (Prog.returns_any _) fun _ _ => ?_
    refine Prog.returns_bind (fun _ => True) (Prog.returns_any _) fun _ _ => ?_
    exact Prog.returns_bind (fun _ => True) (Prog.returns_any _) fun _ _ => same

theorem admissionPolicy_bracket (license : License) (binding : SessionBinding) :
    Bracket (fun returned => returned.1.id) (LicenseService.admissionPolicy license binding) := by
  intro trace idle
  refine ⟨orderly_idle idle fun other same => (by cases same; rfl), fun result => ?_⟩
  cases result with
  | error error => exact fun value same => by cases same
  | ok _ =>
      have beneath : Beneath license.id (trace ++ [⟨.lock (.registration license.id), .ok ()⟩]) :=
        advisory_taken idle rfl
      refine @Prog.wp_bind _ _ _ _ _ _ _ (DeviceRepository.findLicenseAdmissionPolicy license.id) _ _ _
        (policy_wp beneath) (fun policy during found => ?_) fun error after _ => ?_
      · refine Prog.wp_mono (Prog.wp_grows (Prog.wp_returned (admissionChecks_returns license binding policy)
          (inside_wp (inside_quiet (admissionChecks_quiet license binding policy)) found.1))) ?_
        rintro result after ⟨⟨beneath, returned⟩, grown⟩ value same faithful
        change ∀ held, Holding after held → held.advisory = true ∨ held = .row value.1.id
        rw [found.2 value.1 (congrArg Except.ok (returned value same)) (faithful_before grown faithful)]
        exact beneath faithful
      · exact fun value same => by cases same

theorem admissionWrites_inside (current : LicenseWithAllowlists) (binding : SessionBinding)
    (existing : Option RegisteredDevice) :
    Inside current.id (LicenseService.admissionWrites current binding existing) := by
  refine Prog.only_bind ?_ fun started => Prog.only_bind ?_ fun _ => trivial
  · rw [LicenseService.startTrial]
    split
    · refine inside_act trivial fun now => Prog.only_bind (startTrialIfUnset_inside _ _) fun found => ?_
      obtain ⟨_ | startedAt, writes⟩ := found <;> trivial
    · trivial
  · cases existing with
    | some device => trivial
    | none => exact inside_quiet (quiet_act rfl fun _ => quiet_execute _)

theorem admitActivation_tidy (license : License) (binding : SessionBinding) :
    Tidy (LicenseService.admitActivation host license binding) := by
  refine tidy_transaction (admissionPolicy_bracket license binding) fun found => ?_
  refine closing_orRollback ?_ fun sessionToken => closing_bind (closing_tryCatch ?_ fun _ => ?_) fun _ => ?_
  · exact inside_act trivial fun registered => by cases registered <;> trivial
  · exact closing_orRollback (admissionWrites_inside _ _ _) fun _ => closing_commit fun _ => tidy_done
  · exact tidy_only (Prog.only_bind (removeSession_loose _ _) fun _ => trivial)
  · exact tidy_bind (touchBestEffort_tidy _ _) fun _ => tidy_done

theorem capture_tidy (type : String) : Tidy (capture type) := tidy_quiet (quiet_capture type)

theorem activate_tidy (licenseKey deviceId ip : String) :
    Tidy (LicenseService.activate host licenseKey deviceId ip) := by
  refine tidy_bind tidy_done fun binding => tidy_tryCatch ?_ fun error =>
    tidy_bind (capture_tidy _) fun _ => tidy_done
  refine tidy_bind (tidy_act rfl fun found => ?_) fun found => tidy_bind (capture_tidy _) fun _ => ?_
  · cases found with
    | none => exact tidy_done
    | some license =>
        exact tidy_quiet (Prog.only_bind (quiet_withAllowlists license) fun _ => trivial)
  · cases found with
    | none => exact tidy_done
    | some license =>
        refine tidy_bind (admitActivation_tidy _ _) fun admitted => ?_
        exact tidy_bind (capture_tidy _) fun _ => tidy_done

theorem removeSessionBestEffort_tidy (sessionToken : String) (binding : SessionBinding) :
    Tidy (LicenseService.removeSessionBestEffort host sessionToken binding) :=
  tidy_only (removeSession_loose sessionToken binding)

theorem rejectSession_tidy (sessionToken : String) (binding : SessionBinding) (error : Failure) :
    Tidy (LicenseService.rejectSession host sessionToken binding error) :=
  tidy_bind (removeSessionBestEffort_tidy _ _) fun _ => tidy_done

theorem requireActiveSessionLicense_tidy (resolved : ResolvedSession) (binding : SessionBinding) :
    Tidy (LicenseService.requireActiveSessionLicense host resolved binding) := by
  rw [LicenseService.requireActiveSessionLicense]
  split
  · exact rejectSession_tidy _ _ _
  · refine tidy_act rfl fun found => ?_
    cases found with
    | none => exact rejectSession_tidy _ _ _
    | some license =>
        refine tidy_bind (tidy_act rfl fun again => ?_) fun listed => ?_
        · cases again with
          | none => exact tidy_done
          | some again => exact tidy_quiet (Prog.only_bind (quiet_withAllowlists again) fun _ => trivial)
        · cases listed with
          | none => exact rejectSession_tidy _ _ _
          | some listed =>
              dsimp only
              rw [LicenseService.checkSessionLicense]
              split
              · exact rejectSession_tidy _ _ _
              · refine tidy_bind (tidy_tryCatch (tidy_quiet checkPolicy_quiet) fun _ => ?_) fun _ => tidy_done
                exact tidy_bind (removeSessionBestEffort_tidy _ _) fun _ => tidy_done

theorem resolveSession_tidy (sessionToken : String) (binding : SessionBinding) :
    Tidy (LicenseService.resolveSession host sessionToken binding) := by
  refine tidy_act rfl fun resolved => ?_
  cases resolved with
  | none => exact tidy_done
  | some resolved => exact requireActiveSessionLicense_tidy resolved binding

theorem heartbeat_tidy (sessionToken deviceId ip : String) :
    Tidy (LicenseService.heartbeat host sessionToken deviceId ip) := by
  refine tidy_bind tidy_done fun binding => tidy_bind (resolveSession_tidy _ _) fun license => ?_
  exact tidy_bind (touchBestEffort_tidy _ _) fun _ => tidy_bind (capture_tidy _) fun _ => tidy_done

theorem consumeUnits_tidy (license : License) (input : UsageRequest) :
    Tidy (LicenseService.consumeUnits host license input) := by
  rw [LicenseService.consumeUnits]
  split
  · exact tidy_done
  · refine tidy_bind (transaction_tidy (inside_quiet (statements_quiet _ _))) fun result => ?_
    refine tidy_bind tidy_done fun response => tidy_bind ?_ fun _ => tidy_done
    cases result <;> first | exact capture_tidy _ | exact tidy_done

theorem consume_tidy (sessionToken deviceId ip : String) (input : ConsumeUsageInput) :
    Tidy (LicenseService.consume host sessionToken deviceId ip input) := by
  refine tidy_bind tidy_done fun binding => tidy_tryCatch ?_ fun error =>
    tidy_bind (capture_tidy _) fun _ => tidy_done
  refine tidy_bind tidy_done fun request => tidy_bind (resolveSession_tidy _ _) fun license => ?_
  exact consumeUnits_tidy _ _

theorem deactivate_tidy (sessionToken deviceId ip : String) :
    Tidy (LicenseService.deactivate host sessionToken deviceId ip) := by
  refine tidy_bind tidy_done fun binding => tidy_act rfl fun removed => ?_
  cases removed with
  | none => exact tidy_done
  | some removed =>
      exact tidy_bind (tidy_quiet (enrichDeactivation_quiet removed)) fun _ => capture_tidy _

end Licenses

section Operators

theorem requireLicense_tidy {rest : License → Server β} (after : ∀ license, Tidy (rest license)) :
    Tidy (AdminService.requireLicense id >>= rest) :=
  tidy_bind (tidy_act rfl fun found => by cases found <;> exact tidy_done) after

theorem domain_tidy {result : Except DomainError α} {rest : α → Server β}
    (after : ∀ value, Tidy (rest value)) : Tidy (ofDomain result >>= rest) :=
  tidy_bind (tidy_quiet (quiet_domain result)) after

theorem cleanup_tidy (id : LicenseId) (revision : Option Nat) :
    Tidy (AdminService.removeSessionsBestEffort id revision) :=
  tidy_tryCatch (tidy_act rfl fun _ => tidy_done) fun _ => tidy_done

theorem removeEach_tidy (ids : List LicenseId) : Tidy (AdminService.removeEachBestEffort ids) := by
  induction ids with
  | nil => exact tidy_done
  | cons id ids ih => exact tidy_bind (cleanup_tidy id none) fun _ => ih

theorem deleteCustomer_tidy (id : String) : Tidy (AdminService.deleteCustomer id) := by
  refine tidy_bind (tidy_quiet (quiet_requireCustomer id)) fun _ => tidy_act rfl fun ids => ?_
  exact tidy_act rfl fun _ => tidy_bind (removeEach_tidy ids) fun _ => capture_tidy _

theorem createLicense_tidy (data : CreateLicenseInput) : Tidy (AdminService.createLicense host data) := by
  refine tidy_bind (tidy_quiet (quiet_requireCustomer _)) fun _ => domain_tidy fun limits => ?_
  refine domain_tidy fun meters => tidy_act rfl fun now => domain_tidy fun config => ?_
  refine tidy_act rfl fun licenseKey => tidy_bind ?_ fun _ => tidy_bind (capture_tidy _) fun _ => tidy_done
  refine tidy_act rfl fun id => tidy_act rfl fun drawn => tidy_bind tidy_done fun table => ?_
  exact tidy_act rfl fun stored => tidy_done

theorem deleteByLicenseId_tidy (id : LicenseId) : Tidy (StripeRepository.deleteByLicenseId id) :=
  tidy_commit fun _ => tidy_done

theorem updateLicense_tidy (id : LicenseId) (data : UpdateLicenseInput) :
    Tidy (AdminService.updateLicense host id data) := by
  refine domain_tidy fun _ => requireLicense_tidy fun current => domain_tidy fun limits => ?_
  refine tidy_bind (tidy_quiet (checkCustomer_quiet _)) fun _ => domain_tidy fun _ => ?_
  refine domain_tidy fun newMeters => domain_tidy fun _ => tidy_act rfl fun currentMeters => ?_
  refine tidy_act rfl fun now => domain_tidy fun config => ?_
  refine tidy_bind (tidy_quiet (meteredDraft_quiet _ _ _ _ _)) fun active => ?_
  refine tidy_bind (tidy_quiet (observedLink_quiet _ _ _)) fun stripeLink => ?_
  refine tidy_bind (update_tidy _ _ _) fun updated => tidy_bind ?_ fun _ => ?_
  · cases stripeLink with
    | none => exact tidy_done
    | some link => exact tidy_bind (deleteByLicenseId_tidy id) fun _ => capture_tidy _
  · exact tidy_bind (capture_tidy _) fun _ => tidy_quiet (quiet_managed _)

theorem renewSubscription_tidy (id : LicenseId) (expiresAt : DateText) :
    Tidy (AdminService.renewSubscription host id expiresAt) := by
  refine requireLicense_tidy fun current => ?_
  split
  · exact tidy_done
  · exact updateLicense_tidy id _

theorem invalidation_tidy {writes : List Write} {action message : String} {rest : License → Server β}
    (after : ∀ license, Tidy (rest license)) : Tidy ((do
      let _ ← firstOrThrow (← commit id none writes) action
      LicenseRepository.reload id message) >>= rest) :=
  tidy_bind (tidy_commit fun _ => tidy_bind (tidy_quiet quiet_firstOrThrow) fun _ =>
    tidy_quiet (quiet_reload _ _)) after

theorem revokeLicense_tidy (id : LicenseId) (text : String) : Tidy (AdminService.revokeLicense id text) := by
  refine requireLicense_tidy fun license => domain_tidy fun reason => tidy_act rfl fun now => ?_
  refine invalidation_tidy fun updated => tidy_bind (cleanup_tidy _ _) fun _ => ?_
  exact tidy_bind (capture_tidy _) fun _ => tidy_quiet (quiet_managed _)

theorem restoreLicense_tidy (id : LicenseId) : Tidy (AdminService.restoreLicense id) := by
  refine requireLicense_tidy fun license => tidy_bind (update_tidy _ _ _) fun updated => ?_
  exact tidy_bind (capture_tidy _) fun _ => tidy_quiet (quiet_managed _)

theorem rotateLicenseKey_tidy (id : LicenseId) : Tidy (AdminService.rotateLicenseKey host id) := by
  refine requireLicense_tidy fun current => tidy_act rfl fun licenseKey => ?_
  refine tidy_bind (rotateKey_tidy _ _ _) fun rotated => tidy_bind (cleanup_tidy _ _) fun _ => ?_
  exact tidy_bind (capture_tidy _) fun _ => tidy_done

theorem addAllowed_tidy (id : LicenseId) (write : Write) (constraint : String) :
    Tidy (AccessRepository.addAllowed id write constraint) :=
  tidy_commit fun rows => by cases rows <;> exact tidy_done

theorem normalizedIp_tidy {value : String} {rest : String → Server β} (after : ∀ ip, Tidy (rest ip)) :
    Tidy (AdminService.normalizedIp host value >>= rest) :=
  tidy_bind (tidy_quiet (normalizedIp_quiet value)) after

theorem removeAllowed_tidy (id : LicenseId) (write : Write) (listed : LicenseData → Bool) :
    Tidy (AccessRepository.removeAllowed id write listed) := tidy_commit fun _ => tidy_done

theorem allowLicenseIp_tidy (id : LicenseId) (value : String) :
    Tidy (AdminService.allowLicenseIp host id value) := by
  refine requireLicense_tidy fun _ => normalizedIp_tidy fun ip => ?_
  refine tidy_bind (tidy_quiet getAccessRecords_quiet) fun before => ?_
  exact tidy_bind (addAllowed_tidy _ _ _) fun _ => tidy_bind (capture_tidy _) fun _ => tidy_done

theorem allowLicenseDevice_tidy (id : LicenseId) (value : String) :
    Tidy (AdminService.allowLicenseDevice id value) := by
  refine requireLicense_tidy fun _ => domain_tidy fun device => ?_
  refine tidy_bind (tidy_quiet getAccessRecords_quiet) fun before => ?_
  exact tidy_bind (addAllowed_tidy _ _ _) fun _ => tidy_bind (capture_tidy _) fun _ => tidy_done

theorem disallow_tidy {write : Write} {listed : LicenseData → Bool} : Tidy (do
    let removed ← AccessRepository.removeAllowed id write listed
    (if removed then capture "license.updated" else pure ())
    return removed) := by
  refine tidy_bind (removeAllowed_tidy _ _ _) fun removed => tidy_bind ?_ fun _ => tidy_done
  cases removed
  · exact tidy_done
  · exact capture_tidy _

theorem removal_inside (id : LicenseId) (filter : DeviceFilter) (always : Bool) : Inside id (do
    let (count, removal) ← DeviceRepository.removeRegistrations id filter
    let (sessionRevision, increment) ← AdminService.incrementWhen (always || count > 0) id
    return ((count, sessionRevision), removal ++ increment)) := by
  refine Prog.only_bind (inside_quiet (quiet_act rfl fun _ => trivial)) fun removed => ?_
  refine Prog.only_bind ?_ fun _ => trivial
  rw [AdminService.incrementWhen]
  split
  · exact incrementLicenseSessionRevision_inside id
  · trivial

theorem cleanUpRemoval_tidy (id : LicenseId) (filter : DeviceFilter) (always : Bool) :
    Tidy (AdminService.cleanUpRemoval id filter always) := by
  refine tidy_bind (tidy_transaction (bracket_lock rfl (removal_inside id filter always)) fun _ =>
    closing_commit fun _ => tidy_done) fun removed => ?_
  dsimp only
  split
  · exact tidy_bind (cleanup_tidy _ _) fun _ => tidy_bind (capture_tidy _) fun _ => tidy_done
  · exact tidy_done

theorem terminateLicenseSessions_tidy (id : LicenseId) :
    Tidy (AdminService.terminateLicenseSessions id) := by
  refine requireLicense_tidy fun _ => invalidation_tidy fun updated => ?_
  exact tidy_bind (cleanup_tidy _ _) fun _ => tidy_bind (capture_tidy _) fun _ => tidy_done

theorem draft_tidy (id : LicenseId) : Tidy (AdminService.updateMeterDraft id) :=
  tidy_act rfl fun _ => tidy_bind (updateMeterDraft_tidy _ _) fun _ => tidy_done

theorem createLicenseMeter_tidy (id : LicenseId) (data : CreateMeterInput) :
    Tidy (AdminService.createLicenseMeter id data) := by
  refine requireLicense_tidy fun _ => domain_tidy fun meters => ?_
  cases meters with
  | nil => exact tidy_done
  | cons input others =>
      refine tidy_bind (transaction_tidy (inside_quiet (statements_quiet _ _))) fun meter => ?_
      exact tidy_bind (draft_tidy id) fun _ => tidy_bind (capture_tidy _) fun _ => tidy_done

theorem archiveLicenseMeter_tidy (id : LicenseId) (name text : String) :
    Tidy (AdminService.archiveLicenseMeter id name text) := by
  refine requireLicense_tidy fun _ => domain_tidy fun name => domain_tidy fun reason => ?_
  refine tidy_bind (transaction_tidy (inside_act rfl fun row => inside_quiet (statements_quiet _ _))) ?_
  rintro (_ | meter)
  · exact tidy_done
  · dsimp only
    split
    · exact tidy_done
    · exact tidy_bind (draft_tidy id) fun _ => tidy_bind (capture_tidy _) fun _ => tidy_done

theorem adjustMeter_tidy (id : LicenseId) (name : String) (delta : Int) (text : String)
    (kind : MeterLedgerKind) : Tidy (AdminService.adjustMeter id name delta text kind) := by
  refine requireLicense_tidy fun _ => domain_tidy fun reason => domain_tidy fun name => ?_
  refine tidy_bind (transaction_tidy (inside_quiet (statements_quiet _ _))) fun result => ?_
  exact domain_tidy fun meter => tidy_bind (capture_tidy _) fun _ => tidy_done

end Operators

section Stripe

/-- A body that leaves its transaction ready for the commit it asks for, if it asks for one. -/
abbrev Prepares (prog : Server (α × Option (LicenseId × List Write))) (trace : ServerTrace) : Prop :=
  prog.wp Orderly trace fun result after => ∀ value id writes, result = .ok (value, some (id, writes)) →
    Orderly after (.commit id none writes)

theorem quiet_orderly {act : Act} (quiet : act.quiet = true) : Orderly trace act := by
  refine ⟨?_, fun deletes => ?_, fun _ lock asks => ?_⟩
  · rintro lock rfl
    cases quiet
  · cases act <;> first | exact absurd deletes Bool.false_ne_true | exact absurd quiet Bool.false_ne_true
  · cases asks <;> cases quiet

theorem quiet_prepares {prog : Server (α × Option (LicenseId × List Write))} (quiet : Quiet prog)
    (returns : prog.Returns fun value => ∀ id writes, value.2 = some (id, writes) →
      ∀ after, Quietly trace after → Orderly after (.commit id none writes)) : Prepares prog trace := by
  have ended : prog.wp Orderly trace fun _ after => Quietly trace after :=
    Prog.wp_only quiet (fun _ _ => quiet_orderly) fun _ deeds kinds => ⟨deeds, kinds, rfl⟩
  refine Prog.wp_mono (Prog.wp_returned returns ended) ?_
  rintro result after ⟨quietly, ready⟩ value id writes same
  exact ready _ same id writes rfl after quietly

theorem reconciliation_tidy {subscriptionId : String} {operation : Server (α × Option (LicenseId × List Write))}
    (prepares : ∀ trace, (∀ id, Beneath id trace) → Prepares operation trace) :
    Tidy (StripeRepository.withSubscriptionReconciliationLock subscriptionId operation) := by
  intro trace idle
  have inside : (lock (.stripe subscriptionId) >>= fun _ => operation).wp Orderly trace fun result after =>
      ∀ value id writes, result = .ok (value, some (id, writes)) →
        Orderly after (.commit id none writes) := by
    refine ⟨orderly_idle idle fun other same => (by cases same; rfl), fun result => ?_⟩
    cases result with
    | error error => exact fun value id writes same => by cases same
    | ok _ =>
        exact prepares (trace ++ [⟨.lock (.stripe subscriptionId), .ok ()⟩]) fun id => advisory_taken idle rfl
  refine orRollback_wp inside ?_
  rintro ⟨value, _ | ⟨id, writes⟩⟩ during ready
  · refine ⟨⟨fun lock same => (by cases same), fun deletes => (by cases deletes), fun _ lock asks => (by cases asks)⟩,
    fun result => ?_⟩
    cases result <;> exact idle_ended rfl
  · refine ⟨ready value id writes rfl, fun result => ?_⟩
    cases result <;> exact idle_ended rfl

theorem createForSubscriptionLicense_inside (data : NewStripeSubscriptionLink) (fetched : FetchedSnapshot) :
    Inside data.licenseId (StripeRepository.createForSubscriptionLicense data fetched) := by
  refine inside_act rfl fun row => ?_
  dsimp only
  split
  · trivial
  · cases data.paidThrough with
    | none => trivial
    | some paidThrough =>
        refine inside_quiet (quiet_act rfl fun draw => quiet_act rfl fun violated => ?_)
        cases violated with
        | some constraint => trivial
        | none => exact Prog.only_bind (quiet_execute _) fun _ => trivial

theorem linkOperation_inside (licenseId : LicenseId) (subscriptionId : String) (now : Instant) :
    Inside licenseId (StripeSubscriptionService.linkOperation licenseId subscriptionId now) := by
  refine inside_act trivial fun licenseLink => inside_act trivial fun subscriptionLink => ?_
  rcases licenseLink with _ | link
  · rcases subscriptionLink with _ | other
    · refine inside_act trivial fun fetched => Prog.only_bind trivial fun _ => ?_
      refine Prog.only_bind (createForSubscriptionLicense_inside _ _) fun created => ?_
      cases created <;> trivial
    · trivial
  · dsimp only
    split <;> trivial

theorem linkOperation_returns (licenseId : LicenseId) (subscriptionId : String) (now : Instant) :
    (StripeSubscriptionService.linkOperation licenseId subscriptionId now).Returns
      fun value => ∀ id writes, value.2 = some (id, writes) → id = licenseId := by
  refine Prog.returns_bind (fun _ => True) (Prog.returns_any _) fun licenseLink _ => ?_
  refine Prog.returns_bind (fun _ => True) (Prog.returns_any _) fun subscriptionLink _ => ?_
  rcases licenseLink with _ | link
  · rcases subscriptionLink with _ | other
    · refine Prog.returns_bind (fun _ => True) (Prog.returns_any _) fun fetched _ => ?_
      refine Prog.returns_bind (fun _ => True) (Prog.returns_any _) fun _ _ => ?_
      refine Prog.returns_bind (fun _ => True) (Prog.returns_any _) fun created _ => ?_
      cases created with
      | none => trivial
      | some created =>
          rintro id writes ⟨⟩
          rfl
    · trivial
  · dsimp only
    split
    · rintro id writes ⟨⟩
    · trivial

theorem linkOperation_prepares (licenseId : LicenseId) (subscriptionId : String) (now : Instant)
    (beneath : ∀ id, Beneath id trace) :
    Prepares (StripeSubscriptionService.linkOperation licenseId subscriptionId now) trace := by
  have inside := linkOperation_inside licenseId subscriptionId now
  have returns := linkOperation_returns licenseId subscriptionId now
  refine Prog.wp_mono (Prog.wp_returned returns (inside_wp inside (beneath licenseId))) ?_
  rintro result after ⟨ended, owned⟩ value id writes same
  obtain rfl := owned _ same id writes rfl
  exact commit_orderly ended

theorem execute_returns (writes : List Write) : (execute writes).Returns fun written => written = writes :=
  Prog.returns_bind (fun _ => True) (Prog.returns_any _) fun _ _ => rfl

theorem held_orderly {writes : List Write} (link : Holding trace (.link id))
    (row : (∃ write ∈ writes, write.locksRow = true ∨ write.sharesRow = true) → Holding trace (.row id)) :
    Orderly trace (.commit id none writes) := by
  refine ⟨fun lock same => (by cases same), fun deletes => (by cases deletes), fun _ lock asks => .inl ?_⟩
  cases asks with
  | writtenRow _ _ _ write member locks => exact row ⟨write, member, .inl locks⟩
  | sharedRow _ _ _ write member shares => exact row ⟨write, member, .inr shares⟩
  | writtenLink => exact link

theorem written_prepares (id : LicenseId) (data : StripeSubscriptionLinkUpdate) (fetched : FetchedSnapshot)
    (existing : StripeSubscriptionLink) {license : Option StoredLicense} (link : Holding trace (.link id))
    (row : ∀ row, license = some row → Holding trace (.row id)) :
    Prepares (if license.map (fun row => row.type) ≠ some .subscription then do
        let writes ← execute [.deleteLink]
        return (none, some (id, writes))
      else do
        let draw ← draw
        let writes ← execute
          (.updateLink data fetched :: (data.paidThrough.map Write.setExpiresAt).toList)
        return (some (data.apply draw.now existing), some (id, writes))) trace := by
  split
  · refine quiet_prepares (Prog.only_bind (quiet_execute _) fun _ => trivial) ?_
    refine Prog.returns_bind _ (execute_returns _) fun written same => ?_
    rintro owner writes ⟨⟩ after quietly
    refine held_orderly (holding_quietly quietly link) ?_
    rintro ⟨write, member, locks⟩
    rw [same, List.mem_singleton] at member
    subst member
    rcases locks with locks | shares
    · cases locks
    · cases shares
  · next type =>
    obtain ⟨stored, found, -⟩ := Option.map_eq_some_iff.mp (not_not.mp type)
    refine quiet_prepares (quiet_act rfl fun _ => Prog.only_bind (quiet_execute _) fun _ => trivial) ?_
    refine Prog.returns_bind (fun _ => True) (Prog.returns_any _) fun draw _ => ?_
    refine Prog.returns_bind (fun _ => True) (Prog.returns_any _) fun written _ => ?_
    rintro owner writes ⟨⟩ after quietly
    exact held_orderly (holding_quietly quietly link) fun _ => holding_quietly quietly (row stored found)

theorem reconcile_prepares (subscriptionId : String) (data : StripeSubscriptionLinkUpdate)
    (fetched : FetchedSnapshot) (beneath : ∀ id, Beneath id trace) :
    Prepares (StripeRepository.reconcileForSubscriptionLicense subscriptionId data fetched) trace := by
  refine ⟨quiet_orderly rfl, fun result => ?_⟩
  rcases result with error | none | candidate
  · exact fun value id writes same => by cases same
  · exact fun value id writes same => by cases same
  · refine ⟨inside_orderly rfl (inside_beneath trivial (beneath candidate.licenseId)), fun result => ?_⟩
    cases result with
    | error error => exact fun value id writes same => by cases same
    | ok license =>
        refine ⟨⟨fun lock same => (by cases same), fun deletes => (by cases deletes), fun faithful lock asks => ?_⟩,
          fun result => ?_⟩
        · cases asks
          exact beneath_link (inside_beneath rfl (inside_beneath trivial (beneath candidate.licenseId))) faithful
        · rcases result with error | none | existing
          · exact fun value id writes same => by cases same
          · exact fun value id writes same => by cases same
          · exact written_prepares candidate.licenseId data fetched existing
              (holding_append.mpr ⟨rfl, .inr rfl⟩) fun row found =>
                holding_append.mpr ⟨rfl, .inl (holding_append.mpr ⟨rfl, .inr (by rw [found]; rfl)⟩)⟩

theorem reconcileOperation_prepares (subscriptionId : String) (now : Instant)
    (beneath : ∀ id, Beneath id trace) :
    Prepares (StripeSubscriptionService.reconcileOperation subscriptionId now) trace := by
  refine ⟨quiet_orderly rfl, fun result => ?_⟩
  rcases result with error | none | existing
  · exact fun value id writes same => by cases same
  · exact fun value id writes same => by cases same
  · refine ⟨inside_orderly trivial (inside_beneath trivial (beneath existing.licenseId)), fun result => ?_⟩
    cases result with
    | error error => exact fun value id writes same => by cases same
    | ok fetched =>
        refine @Prog.wp_bind _ _ _ _ _ _ _ (StripeRepository.reconcileForSubscriptionLicense subscriptionId
          (linkUpdate existing fetched.snapshot now) fetched) _ _ _ (reconcile_prepares _ _ _ ?_) ?_ ?_
        · exact fun id => inside_beneath trivial (inside_beneath trivial (beneath id))
        · rintro ⟨link, written⟩ after ready value id writes same
          cases same
          exact ready _ id writes rfl
        · exact fun error after _ value id writes same => by cases same

theorem reconcileSubscription_tidy (subscriptionId : String) (now : Instant) :
    Tidy (StripeSubscriptionService.reconcileSubscription subscriptionId now) := by
  refine tidy_bind (reconciliation_tidy fun _ => reconcileOperation_prepares subscriptionId now) fun found => ?_
  rcases found with _ | ⟨link, licenseId⟩
  · exact tidy_done
  · refine tidy_act rfl fun license => ?_
    cases license with
    | none => exact tidy_done
    | some license =>
        dsimp only
        split
        · exact tidy_done
        · exact tidy_act rfl fun _ => tidy_done

theorem linkLicense_tidy (licenseId : LicenseId) (subscriptionId : String) :
    Tidy (StripeSubscriptionService.linkLicense licenseId subscriptionId) := by
  refine tidy_act rfl fun now => tidy_bind ?_ fun license => tidy_bind ?_ fun outcome => ?_
  · refine tidy_act rfl fun found => ?_
    cases found with
    | none => exact tidy_done
    | some license =>
        dsimp only
        split <;> exact tidy_done
  · refine tidy_tryCatch (reconciliation_tidy fun _ => linkOperation_prepares _ _ _) fun error => ?_
    refine tidy_act rfl fun raced => tidy_act rfl fun other => ?_
    cases error with
    | integration => exact tidy_done
    | _ =>
        dsimp only
        split
        · exact tidy_done
        · split <;> exact tidy_done
  · cases outcome with
    | reconcile =>
        refine tidy_bind (reconcileSubscription_tidy _ _) fun reconciled => ?_
        cases reconciled <;> exact tidy_done
    | created link =>
        refine tidy_act rfl fun license => ?_
        cases license with
        | none => exact tidy_done
        | some license =>
            dsimp only
            split
            · exact tidy_done
            · exact tidy_act rfl fun _ => tidy_done

theorem unlinkLicense_tidy (licenseId : LicenseId) :
    Tidy (StripeSubscriptionService.unlinkLicense licenseId) := by
  refine tidy_act rfl fun license => tidy_act rfl fun link => ?_
  cases link with
  | none => exact tidy_done
  | some link =>
      refine tidy_bind (deleteByLicenseId_tidy licenseId) fun deleted => tidy_bind ?_ fun _ => tidy_done
      cases deleted
      · exact tidy_done
      · exact tidy_only (Prog.only_call rfl)

theorem syncLicense_tidy (licenseId : LicenseId) : Tidy (StripeSubscriptionService.syncLicense licenseId) := by
  refine tidy_act rfl fun now => tidy_act rfl fun link => ?_
  cases link with
  | none => exact tidy_done
  | some link => exact reconcileSubscription_tidy _ _

theorem receive_tidy (verified : Except Failure StripeEvent) : Tidy (StripeWebhookService.receive verified) :=
  tidy_bind tidy_done fun _ => tidy_act rfl fun _ => tidy_done

theorem recordFailure_tidy (subscriptionId : Option String) (message : String) :
    Tidy (StripeWebhookService.recordFailure subscriptionId message) := by
  cases subscriptionId with
  | none => exact tidy_done
  | some subscriptionId =>
      rw [StripeWebhookService.recordFailure]
      split
      · exact tidy_done
      · refine tidy_tryCatch (tidy_act rfl fun link => ?_) fun _ => tidy_done
        cases link with
        | none => exact tidy_done
        | some link => exact tidy_act rfl fun updated => by cases updated <;> exact tidy_done

theorem processOne_tidy (event : StripeWebhookEvent) (now : Instant) :
    Tidy (StripeWebhookService.processOne host event now) := by
  refine tidy_tryCatch (tidy_bind ?_ fun _ => tidy_act rfl fun _ => tidy_done) fun error => ?_
  · cases StripeWebhookService.eventSubscription event with
    | none => exact tidy_done
    | some subscriptionId =>
        rw [StripeWebhookService.reconcileEvent]
        split
        · exact tidy_done
        · exact tidy_bind (reconcileSubscription_tidy _ _) fun _ => tidy_done
  · refine tidy_bind (recordFailure_tidy _ _) fun _ => tidy_act rfl fun _ => ?_
    exact tidy_act rfl fun _ => tidy_done

theorem processAll_tidy (now : Instant) (events : List StripeWebhookEvent) :
    Tidy (StripeWebhookService.processAll host now events) := by
  induction events with
  | nil => exact tidy_done
  | cons event events ih =>
      exact tidy_bind (processOne_tidy event now) fun _ => tidy_bind ih fun _ => tidy_done

theorem processDue_tidy (limit : Number) : Tidy (StripeWebhookService.processDue host limit) :=
  by
  refine tidy_act rfl fun now => tidy_bind ?_ fun claimed => tidy_bind (processAll_tidy _ _) fun _ => tidy_done
  rw [WebhookRepository.claimDue.eq_def]
  cases limit with
  | integer limit =>
      dsimp only
      split
      · exact tidy_done
      · exact tidy_only (Prog.only_call rfl)
  | other => exact tidy_done

end Stripe

/-- Every call keeps the order of the locks, and ends without any. -/
theorem program_tidy (request : Request) : Tidy (program host request) := by
  rw [program.eq_def]
  cases request with
  | activate licenseKey deviceId ip => exact tidy_map (activate_tidy _ _ _)
  | heartbeat sessionToken deviceId ip => exact tidy_map (heartbeat_tidy _ _ _)
  | consume sessionToken deviceId ip input => exact tidy_map (consume_tidy _ _ _ _)
  | deactivate sessionToken deviceId ip => exact tidy_map (deactivate_tidy _ _ _)
  | createCustomer id => exact tidy_map (tidy_act rfl fun _ => capture_tidy _)
  | deleteCustomer id => exact tidy_map (deleteCustomer_tidy id)
  | createLicense data => exact tidy_map (createLicense_tidy data)
  | updateLicense id data => exact tidy_map (updateLicense_tidy id data)
  | renewSubscription id expiresAt => exact tidy_map (renewSubscription_tidy id expiresAt)
  | deleteLicense id =>
      refine tidy_map (requireLicense_tidy fun _ => tidy_act rfl fun _ => ?_)
      exact tidy_bind (cleanup_tidy id none) fun _ => capture_tidy _
  | revokeLicense id reason => exact tidy_map (revokeLicense_tidy id reason)
  | restoreLicense id => exact tidy_map (restoreLicense_tidy id)
  | rotateLicenseKey id => exact tidy_map (rotateLicenseKey_tidy id)
  | allowLicenseIp id value => exact tidy_map (allowLicenseIp_tidy id value)
  | removeLicenseAllowedIp id value =>
      exact tidy_map (requireLicense_tidy fun _ => normalizedIp_tidy fun _ => disallow_tidy)
  | allowLicenseDevice id value => exact tidy_map (allowLicenseDevice_tidy id value)
  | removeLicenseAllowedDevice id value =>
      exact tidy_map (requireLicense_tidy fun _ => domain_tidy fun _ => disallow_tidy)
  | removeRegisteredIp id value =>
      exact tidy_map (requireLicense_tidy fun _ => normalizedIp_tidy fun _ => cleanUpRemoval_tidy _ _ _)
  | removeRegisteredDevice id value =>
      exact tidy_map (requireLicense_tidy fun _ => domain_tidy fun _ => cleanUpRemoval_tidy _ _ _)
  | resetRegisteredDevices id =>
      exact tidy_map (requireLicense_tidy fun _ => cleanUpRemoval_tidy _ _ _)
  | terminateLicenseSessions id => exact tidy_map (terminateLicenseSessions_tidy id)
  | createLicenseMeter id data => exact tidy_map (createLicenseMeter_tidy id data)
  | archiveLicenseMeter id name reason => exact tidy_map (archiveLicenseMeter_tidy id name reason)
  | topUpLicenseMeter id name units reason =>
      exact tidy_map (domain_tidy fun _ => adjustMeter_tidy _ _ _ _ _)
  | adjustLicenseMeter id name delta reason =>
      exact tidy_map (domain_tidy fun _ => adjustMeter_tidy _ _ _ _ _)
  | linkLicense id subscriptionId => exact tidy_map (linkLicense_tidy id subscriptionId)
  | unlinkLicense id => exact tidy_map (unlinkLicense_tidy id)
  | syncLicense id => exact tidy_map (syncLicense_tidy id)
  | receive event => exact tidy_map (receive_tidy event)
  | processDue limit => exact tidy_map (processDue_tidy limit)

end Keyzori
