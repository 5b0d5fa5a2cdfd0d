import Keyzori.Library.LockOrder
import Keyzori.Server.LockDiscipline
import Keyzori.Server.SoundRuns
import Mathlib.Data.Fintype.Order

/-! Calls that wait for one another. The locks of a world are those that the open
transactions of running calls took, so no lock outlives its call, and as every call
climbs the order of the locks, some call can always go on. A deletion is one step here:
the rows of customers, meters and devices that it locks as it cascades are no locks of
the world. -/

namespace Keyzori

open Interleaving LockOrder

variable {host : Host} {now : Instant} {state : ServerState} {view : ServerView} {world next : World}
  {act : Act} {call other : Nat} {lock : Lock} {input : Input}

section Waiting

/-- The locks without which an act cannot happen in a world, with those that foreign keys
share on the license row, which only delay an act. -/
inductive Act.Needs (world : World) : Act → Lock → Prop
  | lock (lock : Lock) : Needs world (.lock lock) lock
  | lockRow (id : LicenseId) (present : (world.tables.row id).isSome = true) :
      Needs world (.lockRow id) (.row id)
  | lockLink (id : LicenseId) (subscriptionId : String)
      (present : ((world.tables.link id).filter fun link =>
        link.subscriptionId = subscriptionId).isSome = true) :
      Needs world (.lockLink id subscriptionId) (.link id)
  | writtenRow (id : LicenseId) (expected : Option Instant) (writes : List Write) (write : Write)
      (present : world.tables.licenses id ≠ none) (member : write ∈ writes)
      (locks : write.locksRow = true) : Needs world (.commit id expected writes) (.row id)
  | sharedRow (id : LicenseId) (expected : Option Instant) (writes : List Write) (write : Write)
      (present : world.tables.licenses id ≠ none) (member : write ∈ writes)
      (shares : write.sharesRow = true) : Needs world (.commit id expected writes) (.row id)
  | writtenLink (id : LicenseId) (expected : Option Instant) (writes : List Write) (write : Write)
      (present : world.tables.licenses id ≠ none) (member : write ∈ writes)
      (locks : write.locksLink = true) : Needs world (.commit id expected writes) (.link id)
  | deletedRow (id : LicenseId) : Needs world (.deleteLicense id) (.row id)
  | deletedLink (id : LicenseId) : Needs world (.deleteLicense id) (.link id)
  | cascadedRow (customerId : String) (id : LicenseId) (known : id ∈ world.tables.ids)
      (owned : world.tables.ownedBy customerId id = true) : Needs world (.deleteCustomer customerId) (.row id)
  | cascadedLink (customerId : String) (id : LicenseId) (known : id ∈ world.tables.ids)
      (owned : world.tables.ownedBy customerId id = true) : Needs world (.deleteCustomer customerId) (.link id)
  | failedLink (subscriptionId error : String) (link : StripeSubscriptionLink)
      (found : world.tables.findBySubscriptionId subscriptionId = some link)
      (present : world.tables.licenses link.licenseId ≠ none) :
      Needs world (.updateLinkError subscriptionId error) (.link link.licenseId)

/-- A value that was drawn, and that is never to be drawn twice, is in use. -/
inductive Collides (input : Input) (world : World) : Act → Prop
  | customer (id : String) (used : id ∈ world.tables.customers) : Collides input world (.insertCustomer id)
  | license (id : LicenseId) (keyHash keyPrefix : String) (data : NewLicense) (meters : MeterTable)
      (used : id ∈ world.tables.ids ∨ keyHash ∈ world.keyHashes) :
      Collides input world (.insertLicense id keyHash keyPrefix data meters)
  | key (id : LicenseId) (expected : Option Instant) (writes : List Write) (keyHash keyPrefix : String)
      (member : .rotateKey keyHash keyPrefix ∈ writes) (used : keyHash ∈ world.keyHashes) :
      Collides input world (.commit id expected writes)
  | session (id : LicenseId) (sessionRevision : Nat) (bindingHash : String) (maxSessions : Int)
      (used : input.draw.uuid 0 ∈ world.tokens.map Prod.fst) :
      Collides input world (.registerSession id sessionRevision bindingHash maxSessions)

theorem needs_asks (needs : act.Needs world lock) : act.Asks lock := by
  cases needs with
  | lock => exact .lock _
  | lockRow => exact .lockRow _
  | lockLink => exact .lockLink _ _
  | writtenRow id expected writes write present member locks => exact .writtenRow _ _ _ write member locks
  | sharedRow id expected writes write present member shares => exact .sharedRow _ _ _ write member shares
  | writtenLink id expected writes write present member locks => exact .writtenLink _ _ _ write member locks
  | deletedRow => exact .deletedRow _
  | deletedLink => exact .deletedLink _
  | cascadedRow => exact .cascadedRow _ _
  | cascadedLink => exact .cascadedLink _ _
  | failedLink => exact .failedLink _ _ _

theorem attempt_isSome {α : Type} {done : World × α} : (attempt input world done).isSome = true := by
  rw [attempt]
  split <;> rfl

theorem await_isSome {α : Type} {ready : Bool} {done : World × α} (can : ready = true) :
    (await input world ready done).isSome = true := by
  rw [await]
  split
  · rfl
  · simp [can]

theorem acquire_isSome {α : Type} {ready : Bool} {done : World × α} (can : ready = true) :
    (acquire input world ready done).isSome = true := by
  rw [acquire]
  split
  · rfl
  · simp [can]

theorem admits_free {id : LicenseId} {expected : Option Instant} {writes : List Write}
    (present : world.tables.licenses id ≠ none)
    (free : ∀ lock, (Act.commit id expected writes).Needs world lock → world.free call lock = true)
    (fresh : ¬Collides input world (.commit id expected writes)) : world.admits call id writes = true := by
  rw [World.admits, List.all_eq_true]
  intro write member
  have row : (!write.locksRow || world.free call (.row id)) = true := by
    cases locks : write.locksRow with
    | false => rfl
    | true => exact free _ (.writtenRow id expected writes write present member locks)
  have link : (!write.locksLink || world.free call (.link id)) = true := by
    cases locks : write.locksLink with
    | false => rfl
    | true => exact free _ (.writtenLink id expected writes write present member locks)
  rw [row, link]
  cases write with
  | rotateKey keyHash keyPrefix =>
      refine decide_eq_true fun used => fresh ?_
      exact .key id expected writes keyHash keyPrefix member used
  | _ => rfl

theorem exec_isSome (free : ∀ lock, act.Needs world lock → world.free call lock = true)
    (fresh : ¬Collides input world act) : (exec call act input world).isSome = true := by
  cases act with
  | lock lock => exact acquire_isSome (free lock (.lock lock))
  | lockRow id =>
      simp only [exec]
      split
      · exact attempt_isSome
      · next row present => exact acquire_isSome (free _ (.lockRow id (by rw [present]; rfl)))
  | lockLink id subscriptionId =>
      simp only [exec]
      split
      · exact attempt_isSome
      · next link present => exact acquire_isSome (free _ (.lockLink id subscriptionId (by rw [present]; rfl)))
  | commit id expected writes =>
      simp only [exec, runCommit]
      split
      · rfl
      · split
        · rfl
        · next data present =>
          rw [admits_free (by simp [present]) free fresh]
          simp only [Bool.not_true, Bool.false_eq_true, if_false]
          split
          · rfl
          · split <;> rfl
  | insertCustomer id =>
      exact await_isSome (decide_eq_true fun used => fresh (.customer id used))
  | insertLicense id keyHash keyPrefix data meters =>
      simp only [exec]
      split
      · rfl
      · split
        · rfl
        · refine await_isSome (decide_eq_true ⟨fun used => fresh ?_, fun used => fresh ?_⟩)
          · exact .license id keyHash keyPrefix data meters (.inl used)
          · exact .license id keyHash keyPrefix data meters (.inr used)
  | deleteLicense id =>
      exact await_isSome (by rw [free _ (.deletedRow id), free _ (.deletedLink id)]; rfl)
  | deleteCustomer customerId =>
      refine await_isSome (List.all_eq_true.mpr fun id known => ?_)
      cases owned : world.tables.ownedBy customerId id with
      | false => rfl
      | true =>
          rw [free _ (.cascadedRow customerId id known owned), free _ (.cascadedLink customerId id known owned)]; rfl
  | updateLinkError subscriptionId error =>
      simp only [exec]
      split
      · exact attempt_isSome
      · next link found =>
        split
        · exact attempt_isSome
        · next data present =>
          exact await_isSome (free _ (.failedLink subscriptionId error link found (by simp [present])))
  | registerSession id sessionRevision bindingHash maxSessions =>
      exact await_isSome (decide_eq_true fun used =>
        fresh (.session id sessionRevision bindingHash maxSessions used))
  | enqueue event =>
      simp only [exec]
      split <;> exact attempt_isSome
  | getSubscription subscriptionId =>
      simp only [exec]
      split
      · rfl
      · exact attempt_isSome
  | finish | refreshSession | removeSession =>
      simp only [exec]
      split <;> rfl
  | draw | licenseKey | licenseId | rollback => rfl
  | _ => exact attempt_isSome

end Waiting

section Holders

theorem ended_holds (ended : act.ends = true) {result : Except Failure act.Val}
    (ran : exec call act input world = some (next, result)) : next.locks lock ≠ some call := by
  have released : ∀ world : World, (world.release call).locks lock ≠ some call := fun world held => by
    simp only [World.release] at held
    split at held
    · cases held
    · next other => exact other held
  cases act with
  | commit id expected writes =>
      rcases runCommit_some ran with ⟨rfl, -⟩ | ⟨data, -, -, -, -, rfl, -⟩ <;> exact released _
  | finish =>
      simp only [exec] at ran
      split at ran <;> cases ran <;> exact released _
  | rollback =>
      cases ran
      exact released _
  | _ => cases ended

theorem take_gains {taken : Lock} (held : (world.take call taken).locks lock = some call) :
    world.locks lock = some call ∨ taken = lock := by
  simp only [World.take] at held
  by_cases same : lock = taken
  · exact .inr same.symm
  · rw [Function.update_of_ne same] at held
    exact .inl held

theorem exec_gains (advisory : ∀ lock, act = .lock lock → lock.advisory = true)
    {result : Except Failure act.Val} (ran : exec call act input world = some (next, result))
    (held : next.locks lock = some call) :
    world.locks lock = some call ∨ takes ⟨act, result⟩ = some lock := by
  cases act with
  | lock taken =>
      rcases acquire_some ran with ⟨rfl, -⟩ | ⟨-, rfl, rfl⟩
      · exact .inl held
      · refine (take_gains held).imp id ?_
        rintro rfl
        simp [takes, advisory taken rfl]
  | lockRow id =>
      simp only [exec] at ran
      split at ran
      · rcases attempt_next ran with rfl | rfl <;> exact .inl held
      · rcases acquire_some ran with ⟨rfl, -⟩ | ⟨-, rfl, rfl⟩
        · exact .inl held
        · refine (take_gains held).imp (fun before => before) ?_
          rintro rfl
          rfl
  | lockLink id subscriptionId =>
      simp only [exec] at ran
      split at ran
      · rcases attempt_next ran with rfl | rfl <;> exact .inl held
      · rcases acquire_some ran with ⟨rfl, -⟩ | ⟨-, rfl, rfl⟩
        · exact .inl held
        · refine (take_gains held).imp (fun before => before) ?_
          rintro rfl
          rfl
  | commit | finish | rollback => exact absurd held (ended_holds rfl ran)
  | _ =>
      cases exec_effect ran with
      | released act ended => cases ended
      | _ => exact .inl held

abbrev OrderlyRun (host : Host) : ServerView → ServerView → Prop :=
  AllowedRun (server host) fun _ => Orderly

theorem server_run_orderly (run : ServerRun host now state) :
    OrderlyRun host (.start (World.start now)) state.view :=
  (run_allowed (fun request => program_tidy request [] idle_nil) run).1

theorem orderly_holders (run : OrderlyRun host (.start (World.start now)) view)
    (held : view.world.locks lock = some call) : Holding (view.trace call) lock := by
  induction run generalizing call lock with
  | refl => cases held
  | @tail middle last _ step ih =>
      cases step with
      | start caller request unused idle => exact ih held
      | environment event => cases event <;> exact ih held
      | act caller request act input world result asked orderly ran =>
          by_cases same : call = caller
          · subst same
            rw [record_trace_self]
            cases ended : act.ends with
            | true => exact absurd held (ended_holds ended ran)
            | false => exact holding_append.mpr ⟨ended, (exec_gains orderly.advisory ran held).imp ih id⟩
          · rw [record_trace_other (Ne.symm same)]
            exact ih ((effect_locks (exec_effect ran) same).mp held)

end Holders

section Order

def locking (state : ServerState) : Locking Nat Lock where
  holder := state.view.world.locks
  needs call lock := ∃ act next, state.pool call = some (.act act next) ∧ act.Needs state.view.world lock

abbrev WaitsFor (state : ServerState) : Nat → Nat → Prop := (locking state).Waits

theorem sound_faithful (sound : Sound view) : Faithful (view.trace call) := by
  intro id row took
  obtain ⟨before, after, recalled⟩ := took_recall sound took
  obtain ⟨input, ran⟩ := recalled.ran
  obtain ⟨-, found⟩ := exec_lockRow ran
  obtain ⟨data, present, rfl⟩ := Option.map_eq_some_iff.mp found
  exact recalled.consistent.tables.rowId id data present

/-- What is left of a call keeps to the order, and a call that has ended holds nothing. -/
theorem server_run_tidy (run : ServerRun host now state) {prog : Server Response}
    (running : state.pool call = some prog) :
    prog.wp Orderly (state.view.trace call) fun _ after => Idle after := by
  obtain ⟨request, -, holds⟩ :=
    (run_allowed (fun request => program_tidy request [] idle_nil) run).2.2 call prog running
  exact holds

theorem locks_climb (run : ServerRun host now state) : (locking state).Climbs Lock.rank := by
  rintro call needed held ⟨act, next, running, needs⟩ holder
  have sound := server_run_sound run
  have orderly := (server_run_tidy run running).1
  have holding := orderly_holders (server_run_orderly run) holder
  refine (orderly.climbs (sound_faithful sound) needed (needs_asks needs)).imp (fun own => ?_) fun below => ?_
  · exact sound.locked call needed own
  · exact below held holding

theorem waiting_none {next : Except Failure act.Val → Server Response}
    (running : state.pool call = some (.act act next)) (free : ∀ other, ¬WaitsFor state call other)
    (fresh : ¬Collides input state.view.world act) : (exec call act input state.view.world).isSome = true := by
  refine exec_isSome (fun lock needs => free_iff.mpr fun other held => ?_) fresh
  by_contra distinct
  exact free other ⟨lock, ⟨act, next, running, needs⟩, held, distinct⟩

theorem lock_held (run : ServerRun host now state) (held : state.view.world.locks lock = some call) :
    Holding (state.view.trace call) lock ∧ ∃ act next, state.pool call = some (.act act next) := by
  have holding := orderly_holders (server_run_orderly run) held
  refine ⟨holding, ?_⟩
  cases running : state.pool call with
  | none =>
      obtain ⟨-, silent⟩ := (run_allowed (@program_meets host) run).2.1 call running
      rw [silent] at holding
      exact absurd holding (idle_nil lock)
  | some prog =>
      cases prog with
      | done result => exact absurd holding (server_run_tidy run running lock)
      | act act next => exact ⟨act, next, rfl⟩

theorem waits_lead (run : ServerRun host now state) {next : Except Failure act.Val → Server Response}
    (running : state.pool call = some (.act act next)) :
    ∃ last act next, Relation.ReflTransGen (WaitsFor state) call last ∧
      state.pool last = some (.act act next) ∧ ∀ other, ¬WaitsFor state last other := by
  obtain ⟨last, chain, free⟩ := waits_end (locks_climb run) call
  rcases Relation.ReflTransGen.cases_tail chain with rfl | ⟨waiter, -, lock, -, holder, -⟩
  · exact ⟨last, act, next, chain, running, free⟩
  · obtain ⟨-, act, next, running⟩ := lock_held run holder
    exact ⟨last, act, next, chain, running, free⟩

/-- No lock outlives its call, no calls wait for one another in a circle, a call that waits
for none can go on, but for a value that is in use, and the waits of each lead to such a call. -/
theorem locks_ordered (run : ServerRun host now state) :
    (∀ lock call, state.view.world.locks lock = some call →
      Holding (state.view.trace call) lock ∧ ∃ act next, state.pool call = some (.act act next)) ∧
    (∀ call, ¬Relation.TransGen (WaitsFor state) call call) ∧
    (∀ call act next, state.pool call = some (.act act next) → (∀ other, ¬WaitsFor state call other) →
      ∀ input, ¬Collides input state.view.world act → (exec call act input state.view.world).isSome = true) ∧
    ∀ call act next, state.pool call = some (.act act next) →
      ∃ last act next, Relation.ReflTransGen (WaitsFor state) call last ∧
        state.pool last = some (.act act next) ∧ ∀ other, ¬WaitsFor state last other :=
  ⟨fun _ _ held => lock_held run held, waits_acyclic (locks_climb run),
    fun _ _ _ running free _ fresh => waiting_none running free fresh, fun _ _ _ running => waits_lead run running⟩

/-- A rotation that waits for the row which an activation has locked. -/
def waitingSample : List (Choice Input Move Request) :=
  subscriptionSample ++ sampleCall 2 (.activate "key 102" "laptop" "10.0.0.1") 2 6 ++
    sampleCall 3 (.rotateLicenseKey sampleId) 3 2

def waiting (state : ServerState) : Bool :=
  match state.pool 3 with
  | some (.act (.lockRow id) _) =>
      state.view.world.locks (.row id) = some 2 && (state.view.world.tables.row id).isSome
  | _ => false

theorem waiting_waits (holds : waiting state = true) :
    WaitsFor state 3 2 ∧ ∃ act next, state.pool 3 = some (.act act next) := by
  unfold waiting at holds
  split at holds
  · next id next running =>
    obtain ⟨held, present⟩ := (Bool.and_eq_true _ _).mp holds
    exact ⟨⟨.row id, ⟨.lockRow id, next, running, .lockRow id present⟩, of_decide_eq_true held, by decide⟩,
      .lockRow id, next, running⟩
  · cases holds

theorem locks_ordered_sample : ∃ state, ServerRun sampleHost 0 state ∧ WaitsFor state 3 2 ∧
    ∃ last act next, Relation.ReflTransGen (WaitsFor state) 3 last ∧
      state.pool last = some (.act act next) ∧ ∀ other, ¬WaitsFor state last other := by
  obtain ⟨state, run, holds⟩ := @sampled_run waitingSample waiting (by decide +kernel)
  obtain ⟨waits, act, next, running⟩ := waiting_waits holds
  exact ⟨state, run, waits, (locks_ordered run).2.2.2 3 act next running⟩

end Order

end Keyzori
