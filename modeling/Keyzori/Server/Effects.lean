import Keyzori.Server.Traces

namespace Keyzori

open ExpiringStore Interleaving

def World.inserted (world : World) (id : LicenseId) (keyHash keyPrefix : String) (data : NewLicense)
    (meters : MeterTable) (now : Instant) : World :=
  { world.setLicense id ⟨insertedRow id keyHash keyPrefix data now, none, [], [], [], meters⟩ with
    tables := { (world.setLicense id
      ⟨insertedRow id keyHash keyPrefix data now, none, [], [], [], meters⟩).tables with
        ids := id :: world.tables.ids }
    keyHashes := keyHash :: world.keyHashes }

def World.deleted (world : World) (id : LicenseId) : World :=
  { world with tables := { world.tables with
      licenses := Function.update world.tables.licenses id none } }

def World.cascaded (world : World) (customerId : String) : World :=
  { world with tables := { world.tables with
      customers := world.tables.customers.filter fun stored => stored ≠ customerId
      licenses := fun id =>
        if world.tables.ownedBy customerId id then none else world.tables.licenses id } }

inductive Effect (call : Nat) (world : World) : Act → World → Prop
  | idle (act : Act) : Effect call world act world
  | released (act : Act) (ended : act.ends = true) : Effect call world act (world.release call)
  | locked (lock : Lock) (free : world.free call lock = true) :
      Effect call world (.lock lock) (world.take call lock)
  | lockedRow (id : LicenseId) (free : world.free call (.row id) = true) :
      Effect call world (.lockRow id) (world.take call (.row id))
  | lockedLink (id : LicenseId) (subscriptionId : String)
      (free : world.free call (.link id) = true) :
      Effect call world (.lockLink id subscriptionId) (world.take call (.link id))
  | committed (id : LicenseId) (expected : Option Instant) (writes : List Write) (data : LicenseData)
      (now : Instant) (present : world.tables.licenses id = some data)
      (admitted : world.admits call id writes = true)
      (version : ∀ stamp, expected = some stamp → data.row.updatedAt = stamp)
      (lawful : writes.findSome? (world.tables.violation id) = none) :
      Effect call world (.commit id expected writes)
        ((world.write id data now writes).release call)
  | customer (id : String) :
      Effect call world (.insertCustomer id)
        { world with tables := { world.tables with customers := id :: world.tables.customers } }
  | inserted (id : LicenseId) (keyHash keyPrefix : String) (data : NewLicense) (meters : MeterTable)
      (now : Instant) (fresh : id ∉ world.tables.ids) (unused : keyHash ∉ world.keyHashes)
      (lawful : world.tables.meterViolation id meters = none) :
      Effect call world (.insertLicense id keyHash keyPrefix data meters)
        (world.inserted id keyHash keyPrefix data meters now)
  | deleted (id : LicenseId) (row : world.free call (.row id) = true)
      (link : world.free call (.link id) = true) :
      Effect call world (.deleteLicense id) (world.deleted id)
  | cascaded (customerId : String)
      (free : ∀ id ∈ world.tables.ids, world.tables.ownedBy customerId id = true →
        world.free call (.row id) = true ∧ world.free call (.link id) = true) :
      Effect call world (.deleteCustomer customerId) (world.cascaded customerId)
  | linkError (subscriptionId error : String) (link : StripeSubscriptionLink) (data : LicenseData)
      (now : Instant) (found : world.tables.findBySubscriptionId subscriptionId = some link)
      (present : world.tables.licenses link.licenseId = some data)
      (free : world.free call (.link link.licenseId) = true) :
      Effect call world (.updateLinkError subscriptionId error)
        (world.setLicense link.licenseId { data with
          link := some { link with lastError := some error, updatedAt := now } })
  | enqueued (event : NewStripeWebhookEvent) (now : Instant)
      (fresh : ∀ stored ∈ world.tables.events, stored.eventId ≠ event.eventId) :
      Effect call world (.enqueue event)
        { world with
          tables := { world.tables with
            events := world.tables.events ++ [newWebhookEvent event now] }
          ticks := world.ticks + 1
          received := Function.update world.received event.eventId world.ticks }
  | claimed (limit : Nat) (now : Instant) (due : List StripeWebhookEvent) :
      Effect call world (.claimDue limit now)
        { world with
          tables := due.foldl (fun tables event => updateEvent event.eventId (claimed now) tables)
            world.tables }
  | processed (eventId : String) (processedAt : Instant) :
      Effect call world (.markProcessed eventId processedAt)
        { world with
          tables := updateEvent eventId (fun event => { event with
            status := .processed
            processedAt := some processedAt
            lastError := none }) world.tables }
  | failed (eventId error : String) (nextAttemptAt : Instant) :
      Effect call world (.markFailed eventId error nextAttemptAt)
        { world with
          tables := updateEvent eventId (fun event => { event with
            status := .failed
            lastError := some error
            nextAttemptAt }) world.tables }
  | fetched (subscriptionId : String) :
      Effect call world (.getSubscription subscriptionId) { world with ticks := world.ticks + 1 }
  | registered (id : LicenseId) (sessionRevision : Nat) (bindingHash : String) (maxSessions : Int)
      (token : String) (fresh : token ∉ world.tokens.map Prod.fst) :
      Effect call world (.registerSession id sessionRevision bindingHash maxSessions)
        { world with
          sessions := (registerSession world.sessions id sessionRevision bindingHash
            sessionTtlSeconds maxSessions token).1
          tokens := (token, ⟨id, sessionRevision, bindingHash⟩) :: world.tokens }
  | refreshed (token bindingHash : String) :
      Effect call world (.refreshSession token bindingHash)
        { world with
          sessions := (refreshSession world.sessions token bindingHash sessionTtlSeconds).1 }
  | removed (token bindingHash : String) :
      Effect call world (.removeSession token bindingHash)
        { world with sessions := (removeSession world.sessions token bindingHash).1 }
  | removedAll (id : LicenseId) (preserveFromRevision : Option Nat) :
      Effect call world (.removeAllSessions id preserveFromRevision)
        { world with sessions := (removeAllSessions world.sessions id preserveFromRevision).1 }

section Inversion

variable {α : Type} {call : Nat} {input : Input} {world next : World}

theorem answer_cases (fault : Option Fault) (result : Except Failure α) :
    answer fault result = result ∨ ∃ error, answer fault result = .error error := by
  unfold answer
  split
  · exact .inr ⟨_, rfl⟩
  · exact .inl rfl

@[simp] theorem answer_none (result : Except Failure α) : answer none result = result := rfl

theorem answer_ok {fault : Option Fault} {result : Except Failure α} {value : α}
    (answered : answer fault result = .ok value) : result = .ok value := by
  rcases answer_cases fault result with same | ⟨error, failed⟩
  · exact same ▸ answered
  · cases failed.symm.trans answered

theorem attempt_some {done : World × α} {result : Except Failure α}
    (ran : attempt input world done = some (next, result)) :
    ((next = world ∨ next = done.1) ∧ ∃ error, result = .error error) ∨ (next = done.1 ∧ result = .ok done.2) := by
  simp only [attempt] at ran
  split at ran
  · cases ran
    exact .inl ⟨.inl rfl, _, rfl⟩
  · cases ran
    rcases answer_cases input.fault (.ok done.2) with same | ⟨error, failed⟩
    · exact .inr ⟨rfl, same⟩
    · exact .inl ⟨.inr rfl, error, failed⟩

theorem await_some {done : World × α} {result : Except Failure α} {ready : Bool}
    (ran : await input world ready done = some (next, result)) :
    ((next = world ∨ ready = true ∧ next = done.1) ∧ ∃ error, result = .error error) ∨
      (ready = true ∧ next = done.1 ∧ result = .ok done.2) := by
  simp only [await] at ran
  split at ran
  · cases ran
    exact .inl ⟨.inl rfl, _, rfl⟩
  · split at ran
    · next isReady =>
      cases ran
      rcases answer_cases input.fault (.ok done.2) with same | ⟨error, failed⟩
      · exact .inr ⟨isReady, rfl, same⟩
      · exact .inl ⟨.inr ⟨isReady, rfl⟩, error, failed⟩
    · cases ran

theorem acquire_some {done : World × α} {result : Except Failure α} {ready : Bool}
    (ran : acquire input world ready done = some (next, result)) :
    (next = world ∧ ∃ error, result = .error error) ∨
      (ready = true ∧ next = done.1 ∧ result = .ok done.2) := by
  simp only [acquire] at ran
  split at ran
  · cases ran
    exact .inl ⟨rfl, _, rfl⟩
  · split at ran
    · next isReady =>
      cases ran
      exact .inr ⟨isReady, rfl, rfl⟩
    · cases ran

theorem attempt_next {done : World × α} {result : Except Failure α}
    (ran : attempt input world done = some (next, result)) : next = world ∨ next = done.1 := by
  rcases attempt_some ran with ⟨moved, -⟩ | ⟨same, -⟩
  · exact moved
  · exact .inr same

theorem attempt_effect {act : Act} {done : World × α} {result : Except Failure α}
    (ran : attempt input world done = some (next, result)) (effect : Effect call world act done.1) :
    Effect call world act next := by
  rcases attempt_next ran with rfl | rfl
  · exact .idle act
  · exact effect

theorem await_next {done : World × α} {result : Except Failure α} {ready : Bool}
    (ran : await input world ready done = some (next, result)) :
    next = world ∨ ready = true ∧ next = done.1 := by
  rcases await_some ran with ⟨moved, -⟩ | ⟨isReady, same, -⟩
  · exact moved
  · exact .inr ⟨isReady, same⟩

theorem await_effect {act : Act} {done : World × α} {result : Except Failure α} {ready : Bool}
    (ran : await input world ready done = some (next, result))
    (effect : ready = true → Effect call world act done.1) : Effect call world act next := by
  rcases await_next ran with rfl | ⟨isReady, rfl⟩
  · exact .idle act
  · exact effect isReady

theorem acquire_effect {act : Act} {done : World × α} {result : Except Failure α} {ready : Bool}
    (ran : acquire input world ready done = some (next, result))
    (effect : ready = true → Effect call world act done.1) : Effect call world act next := by
  rcases acquire_some ran with ⟨rfl, -⟩ | ⟨isReady, rfl, -⟩
  · exact .idle act
  · exact effect isReady

/-- How a commit ends: it failed, no row matched, or it wrote, though its answer may be lost. -/
theorem runCommit_some {id : LicenseId} {expected : Option Instant} {writes : List Write}
    {result : Except Failure (Option Written)}
    (ran : runCommit call id expected writes input world = some (next, result)) :
    (next = world.release call ∧ ((∃ error, result = .error error) ∨ result = .ok none)) ∨
      ∃ data, world.tables.licenses id = some data ∧ world.admits call id writes = true ∧
        (∀ stamp, expected = some stamp → data.row.updatedAt = stamp) ∧
        writes.findSome? (world.tables.violation id) = none ∧
        next = (world.write id data input.draw.now writes).release call ∧
        (result = .ok (some ⟨data, applyWrites input.draw.now writes data⟩) ∨ ∃ error, result = .error error) := by
  simp only [runCommit] at ran
  split at ran
  · cases ran
    exact .inl ⟨rfl, .inl ⟨_, rfl⟩⟩
  · split at ran
    · cases ran
      exact .inl ⟨rfl, (answer_cases _ _).symm⟩
    · next data present =>
      split at ran
      · cases ran
      · next admitted =>
        split at ran
        · cases ran
          exact .inl ⟨rfl, (answer_cases _ _).symm⟩
        · next version =>
          split at ran
          · cases ran
            exact .inl ⟨rfl, .inl ((answer_cases _ _).elim (fun same => ⟨_, same⟩) fun failed => failed)⟩
          · next lawful =>
            cases ran
            refine .inr ⟨data, present, by simpa using admitted, ?_, lawful, rfl, answer_cases _ _⟩
            rintro stamp rfl
            simpa using version

theorem exec_effect {act : Act} {result : Except Failure act.Val}
    (ran : exec call act input world = some (next, result)) : Effect call world act next := by
  cases act with
  | draw | licenseKey | licenseId =>
      cases ran
      exact .idle _
  | capture type => exact attempt_effect ran (.idle _)
  | query read => exact attempt_effect ran (.idle _)
  | findLicense id => exact attempt_effect ran (.idle _)
  | findByKeyHash keyHash => exact attempt_effect ran (.idle _)
  | lock lock => exact acquire_effect ran (.locked lock)
  | lockRow id =>
      simp only [exec] at ran
      split at ran
      · exact attempt_effect ran (.idle _)
      · exact acquire_effect ran (.lockedRow id)
  | lockLink id subscriptionId =>
      simp only [exec] at ran
      split at ran
      · exact attempt_effect ran (.idle _)
      · exact acquire_effect ran (.lockedLink id subscriptionId)
  | commit id expected writes =>
      rcases runCommit_some ran with ⟨rfl, -⟩ | ⟨data, present, admitted, version, lawful, rfl, -⟩
      · exact .released _ rfl
      · exact .committed id expected writes data _ present admitted version lawful
  | finish =>
      simp only [exec] at ran
      split at ran <;> cases ran <;> exact .released _ rfl
  | rollback =>
      cases ran
      exact .released _ rfl
  | insertCustomer id => exact await_effect ran fun _ => .customer id
  | insertLicense id keyHash keyPrefix data meters =>
      simp only [exec] at ran
      split at ran
      · cases ran
        exact .idle _
      · split at ran
        · cases ran
          exact .idle _
        · next lawful =>
          refine await_effect ran fun ready => ?_
          have both := of_decide_eq_true ready
          exact .inserted id keyHash keyPrefix data meters _ both.1 both.2 lawful
  | deleteLicense id =>
      refine await_effect ran fun ready => ?_
      rw [Bool.and_eq_true] at ready
      exact .deleted id ready.1 ready.2
  | deleteCustomer customerId =>
      refine await_effect ran fun ready => .cascaded customerId ?_
      intro id known owned
      have free := List.all_eq_true.mp ready id known
      simpa [owned] using free
  | updateLinkError subscriptionId error =>
      simp only [exec] at ran
      split at ran
      · exact attempt_effect ran (.idle _)
      · next link found =>
        split at ran
        · exact attempt_effect ran (.idle _)
        · next data present =>
          exact await_effect ran (.linkError subscriptionId error link data _ found present)
  | enqueue event =>
      simp only [exec] at ran
      split at ran
      · exact attempt_effect ran (.idle _)
      · next absent =>
        refine attempt_effect ran (.enqueued event _ ?_)
        intro stored member same
        exact absurd (List.find?_eq_none.mp absent stored member) (by simpa using same)
  | claimDue limit now => exact attempt_effect ran (.claimed limit now _)
  | markProcessed eventId processedAt => exact attempt_effect ran (.processed eventId processedAt)
  | markFailed eventId error nextAttemptAt => exact attempt_effect ran (.failed eventId error _)
  | getSubscription subscriptionId =>
      simp only [exec] at ran
      split at ran
      · cases ran
        exact .idle _
      · exact attempt_effect ran (.fetched subscriptionId)
  | registerSession id sessionRevision bindingHash maxSessions =>
      refine await_effect ran fun ready => ?_
      exact .registered id sessionRevision bindingHash maxSessions _ (of_decide_eq_true ready)
  | refreshSession token bindingHash =>
      simp only [exec] at ran
      split at ran <;> cases ran
      · exact .idle _
      · exact .refreshed token bindingHash
  | removeSession token bindingHash =>
      simp only [exec] at ran
      split at ran <;> cases ran
      · exact .idle _
      · exact .removed token bindingHash
  | removeAllSessions id preserveFromRevision =>
      exact attempt_effect ran (.removedAll id preserveFromRevision)

end Inversion

section Rows

/-- How a license row may have changed since it was read. -/
structure RowLe (old new : StoredLicense) : Prop where
  id : new.id = old.id
  revision : old.sessionRevision ≤ new.sessionRevision
  updatedAt : old.updatedAt ≤ new.updatedAt
  same : old.updatedAt = new.updatedAt → new = old

theorem RowLe.refl (row : StoredLicense) : RowLe row row := ⟨rfl, le_rfl, le_rfl, fun _ => rfl⟩

theorem RowLe.trans {first second third : StoredLicense} (one : RowLe first second)
    (other : RowLe second third) : RowLe first third := by
  refine ⟨other.id.trans one.id, one.revision.trans other.revision,
    one.updatedAt.trans other.updatedAt, fun stamp => ?_⟩
  have middle : second.updatedAt = first.updatedAt :=
    le_antisymm (other.updatedAt.trans_eq stamp.symm) one.updatedAt
  exact (other.same (middle.trans stamp)).trans (one.same middle.symm)

variable {now : Instant} {data : LicenseData} {write : Write} {writes : List Write}

theorem applyRow_none (unlocked : write.locksRow = false) : write.applyRow data.row = none := by
  cases write <;> first | rfl | cases unlocked

theorem apply_row_unlocked (unlocked : write.locksRow = false) :
    (write.apply now data).row = data.row := by
  simp only [Write.apply, applyRow_none unlocked]

theorem applyRow_some {row : StoredLicense} (written : write.applyRow data.row = some row) :
    row.id = data.row.id ∧ data.row.sessionRevision ≤ row.sessionRevision := by
  cases write with
  | insertDevice _ | touchDevice _ _ | deleteDevices _ | insertLink _ _ | updateLink _ _ | deleteLink
  | allowIp _ | removeAllowedIp _ | allowDevice _ | removeAllowedDevice _ | meters _ => cases written
  | updateLicense _ | updateWithSessionInvalidation _ | incrementSessionRevision | rotateKey _ _
  | startTrial _ | meterDraft _ | setExpiresAt _ =>
      cases written
      simp [LicenseUpdate.apply]

theorem apply_row_le : RowLe data.row (write.apply now data).row := by
  simp only [Write.apply]
  split
  · next row written =>
    obtain ⟨same, revision⟩ := applyRow_some written
    have later : data.row.updatedAt < nextLicenseUpdatedAt now data.row :=
      lt_of_lt_of_le (Int.lt_succ _) (le_max_right _ _)
    exact ⟨same, revision, later.le, fun stamp => absurd stamp later.ne⟩
  · exact RowLe.refl data.row

theorem applyWrites_row_le : RowLe data.row (applyWrites now writes data).row := by
  induction writes generalizing data with
  | nil => exact RowLe.refl data.row
  | cons write writes ih => exact apply_row_le.trans ih

theorem applyWrites_row (unlocked : ∀ write ∈ writes, write.locksRow = false) :
    (applyWrites now writes data).row = data.row := by
  induction writes generalizing data with
  | nil => rfl
  | cons write writes ih =>
      have first : (write.apply now data).row = data.row := apply_row_unlocked (unlocked write (.head _))
      have rest := @ih (write.apply now data) fun other member => unlocked other (.tail _ member)
      exact rest.trans first

theorem applyWrites_link (unlocked : ∀ write ∈ writes, write.locksLink = false) :
    (applyWrites now writes data).link = data.link := by
  induction writes generalizing data with
  | nil => rfl
  | cons write writes ih =>
      have first : (write.apply now data).link = data.link := by
        have here := unlocked write (.head _)
        cases write <;> first | rfl | cases here
      have rest := @ih (write.apply now data) fun other member => unlocked other (.tail _ member)
      exact rest.trans first

end Rows

section Facets

variable {call : Nat} {world next : World} {act : Act}

theorem free_iff {lock : Lock} :
    world.free call lock = true ↔ ∀ holder, world.locks lock = some holder → holder = call := by
  simp only [World.free, Option.all_eq_true, decide_eq_true_eq]

theorem release_other {lock : Lock} {other : Nat} (distinct : other ≠ call) :
    (world.release call).locks lock = some other ↔ world.locks lock = some other := by
  simp only [World.release]
  split
  · next held => simp [held, Ne.symm distinct]
  · rfl

theorem take_other {lock taken : Lock} {other : Nat} (distinct : other ≠ call)
    (free : world.free call taken = true) :
    (world.take call taken).locks lock = some other ↔ world.locks lock = some other := by
  simp only [World.take]
  by_cases same : lock = taken
  · subst same
    rw [Function.update_self]
    have unheld : world.locks lock ≠ some other := fun held => distinct (free_iff.mp free other held)
    simp [unheld, Ne.symm distinct]
  · rw [Function.update_of_ne same]

theorem effect_locks (effect : Effect call world act next) {lock : Lock} {other : Nat}
    (distinct : other ≠ call) : next.locks lock = some other ↔ world.locks lock = some other := by
  cases effect with
  | released => exact release_other distinct
  | committed id expected writes data now => exact release_other distinct
  | locked taken free => exact take_other distinct free
  | lockedRow id free => exact take_other distinct free
  | lockedLink id subscriptionId free => exact take_other distinct free
  | _ => rfl

theorem claim_tables (due : List StripeWebhookEvent) (now : Instant) (tables : Tables) :
    let claimed := due.foldl (fun tables event => updateEvent event.eventId (claimed now) tables) tables
    claimed.licenses = tables.licenses ∧ claimed.ids = tables.ids := by
  induction due generalizing tables with
  | nil => exact ⟨rfl, rfl⟩
  | cons event due ih => exact ih (updateEvent event.eventId (claimed now) tables)

/-- What an act can make of the rows of one license. -/
inductive Touched (call : Nat) (id : LicenseId) (world next : World) : Act → Prop
  | committed (expected : Option Instant) (writes : List Write) (data : LicenseData) (now : Instant)
      (present : world.tables.licenses id = some data)
      (admitted : world.admits call id writes = true)
      (version : ∀ stamp, expected = some stamp → data.row.updatedAt = stamp)
      (lawful : writes.findSome? (world.tables.violation id) = none)
      (exact : next = (world.write id data now writes).release call) :
      Touched call id world next (.commit id expected writes)
  | inserted (keyHash keyPrefix : String) (data : NewLicense) (meters : MeterTable) (now : Instant)
      (fresh : id ∉ world.tables.ids) (unused : keyHash ∉ world.keyHashes)
      (exact : next = world.inserted id keyHash keyPrefix data meters now)
      (lawful : world.tables.meterViolation id meters = none) :
      Touched call id world next (.insertLicense id keyHash keyPrefix data meters)
  | deleted (row : world.free call (.row id) = true) (link : world.free call (.link id) = true)
      (exact : next = world.deleted id) : Touched call id world next (.deleteLicense id)
  | cascaded (customerId : String) (owned : world.tables.ownedBy customerId id = true)
      (free : id ∈ world.tables.ids →
        world.free call (.row id) = true ∧ world.free call (.link id) = true)
      (exact : next = world.cascaded customerId) :
      Touched call id world next (.deleteCustomer customerId)
  | linkError (subscriptionId error : String) (link : StripeSubscriptionLink) (data : LicenseData)
      (now : Instant) (found : world.tables.findBySubscriptionId subscriptionId = some link)
      (owner : link.licenseId = id) (present : world.tables.licenses id = some data)
      (free : world.free call (.link id) = true)
      (exact : next = world.setLicense id { data with
        link := some { link with lastError := some error, updatedAt := now } }) :
      Touched call id world next (.updateLinkError subscriptionId error)

theorem effect_licenses (effect : Effect call world act next) (id : LicenseId) :
    next.tables.licenses id = world.tables.licenses id ∨ Touched call id world next act := by
  cases effect with
  | committed other expected writes data now present admitted version lawful =>
      by_cases same : id = other
      · subst same
        exact .inr (.committed expected writes data now present admitted version lawful rfl)
      · exact .inl (Function.update_of_ne same _ _)
  | inserted other keyHash keyPrefix data meters now fresh unused lawful =>
      by_cases same : id = other
      · subst same
        exact .inr (.inserted keyHash keyPrefix data meters now fresh unused rfl lawful)
      · exact .inl (Function.update_of_ne same _ _)
  | deleted other row link =>
      by_cases same : id = other
      · subst same
        exact .inr (.deleted row link rfl)
      · exact .inl (Function.update_of_ne same _ _)
  | cascaded customerId free =>
      by_cases owned : world.tables.ownedBy customerId id = true
      · exact .inr (.cascaded customerId owned (fun known => free id known owned) rfl)
      · refine .inl ?_
        simp only [World.cascaded]
        exact if_neg owned
  | linkError subscriptionId error link data now found present free =>
      by_cases same : id = link.licenseId
      · subst same
        exact .inr (.linkError subscriptionId error link data now found rfl present free rfl)
      · exact .inl (Function.update_of_ne same _ _)
  | claimed limit now due =>
      exact .inl (congrFun (claim_tables due now world.tables).1 id)
  | _ => exact .inl rfl

end Facets

end Keyzori
