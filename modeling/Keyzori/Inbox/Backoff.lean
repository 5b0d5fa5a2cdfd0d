import Mathlib.Logic.Relation
import Keyzori.Inbox.Leases

/-! The webhook inbox on a clock. `processDue` reads the clock once, before its
claim; its events are then reconciled one after another, each for as long as it
takes, and every time it writes is counted from that first reading. -/

namespace Keyzori.Inbox

structure FailedAttempt where
  eventId : String
  attempt : Nat
  failedAt : Instant

structure TimedInbox where
  inbox : InboxState
  clock : Instant
  failed : List FailedAttempt

/-- In `unmarked` the processing fails and its `markFailed` throws as well; the
other ends of a batch before its time are the `abort` of `InboxStep`. -/
inductive InboxMove
  | wait (duration : Nat)
  | take (step : InboxStep)
  | unmarked (worker : Nat)

def readBy (clock : Instant) : InboxStep → Bool
  | .claimDue _ _ now _ => decide (now ≤ clock)
  | _ => true

def failing (clock : Instant) : Worker → List FailedAttempt
  | .processing _ (event :: _) => [⟨event.eventId, event.attempts, clock⟩]
  | _ => []

def failures (state : TimedInbox) : InboxStep → List FailedAttempt
  | .markFailed worker _ => failing state.clock (state.inbox.workers worker)
  | _ => []

def move (host : Host) (state : TimedInbox) : InboxMove → Option TimedInbox
  | .wait duration => some { state with clock := state.clock + duration }
  | .take step =>
      if readBy state.clock step then (apply host state.inbox step).map fun inbox =>
        { state with
          inbox
          failed := state.failed ++ failures state step }
      else none
  | .unmarked worker => (apply host state.inbox (.abort worker)).map fun inbox =>
      { state with
        inbox
        failed := state.failed ++ failing state.clock (state.inbox.workers worker) }

def timedStart (clock : Instant) : TimedInbox := ⟨start, clock, []⟩

abbrev TimedRun (host : Host) (allowed : TimedInbox → InboxMove → Prop) : TimedInbox → TimedInbox → Prop :=
  Relation.ReflTransGen fun first last => ∃ made, allowed first made ∧ move host first made = some last

def Claimable (state : InboxState) (eventId : String) (reading : Instant) : Prop :=
  ∃ event ∈ state.tables.events, event.eventId = eventId ∧ event.status ≠ .processed ∧
    event.nextAttemptAt ≤ reading

def backoffEnd (host : Host) (attempt : FailedAttempt) : Instant :=
  attempt.failedAt + StripeWebhookService.retryDelay host attempt.attempt

/-- No failed event can be claimed before its delay, counted from the failure,
is over. -/
def BacksOff (host : Host) (state : TimedInbox) : Prop :=
  ∀ attempt ∈ state.failed, ∀ reading < backoffEnd host attempt,
    ¬Claimable state.inbox attempt.eventId reading

/-- A failure is marked while the clock shows what `processDue` read; where the
mark is lost, the lease outlasts the delay. -/
def Punctual (host : Host) (state : TimedInbox) : InboxMove → Prop
  | .take (.markFailed worker _) => ∀ now event events,
      state.inbox.workers worker = .processing now (event :: events) → state.clock ≤ now
  | .unmarked worker => ∀ now event events,
      state.inbox.workers worker = .processing now (event :: events) →
        state.clock + StripeWebhookService.retryDelay host event.attempts ≤ now + 60000
  | _ => True

/-- A time an event should not be claimed before: the end of a worker's lease,
or of the delay after a failure. -/
inductive Floor (host : Host) (state : TimedInbox) : Option Nat → String → Instant → Prop
  | lease {worker : Nat} {now : Instant} {eventId : String}
      (leases : Leases state.inbox worker now eventId) :
      Floor host state (some worker) eventId (now + 60000)
  | failure {attempt : FailedAttempt} (failed : attempt ∈ state.failed) :
      Floor host state none attempt.eventId (backoffEnd host attempt)

abbrev eventIds (state : InboxState) : List String :=
  state.tables.events.map StripeWebhookEvent.eventId

/-- Whoever leases an event was in time for all earlier floors, or his lease has
lapsed. -/
structure Backed (host : Host) (state : TimedInbox) : Prop where
  distinct : (eventIds state.inbox).Nodup
  read : ∀ worker now events, state.inbox.workers worker = .processing now events →
    now ≤ state.clock ∧ (events.map StripeWebhookEvent.eventId).Nodup ∧ events ≠ []
  known : ∀ owner eventId time, Floor host state owner eventId time → eventId ∈ eventIds state.inbox
  floor : ∀ event ∈ state.inbox.tables.events, ∀ owner time,
    Floor host state owner event.eventId time → event.status = .processed ∨ time ≤ event.nextAttemptAt
  ahead : ∀ worker now eventId, Leases state.inbox worker now eventId → ∀ owner time,
    owner ≠ some worker → Floor host state owner eventId time → time ≤ now ∨ now + 60000 ≤ state.clock

theorem backed_start (host : Host) (clock : Instant) : Backed host (timedStart clock) := by
  have none : ∀ owner eventId time, ¬Floor host (timedStart clock) owner eventId time := by
    rintro owner eventId time (⟨events, busy, -⟩ | failed)
    · cases busy
    · cases failed
  refine ⟨.nil, fun worker now events busy => (by cases busy), ?_, ?_, ?_⟩
  · exact fun owner eventId time set => absurd set (none owner eventId time)
  · exact fun event member => by cases member
  · exact fun worker now eventId leases owner time _ set => absurd set (none owner eventId time)

theorem Backed.backsOff {host : Host} {state : TimedInbox} (backed : Backed host state) :
    BacksOff host state := by
  rintro attempt failed reading early ⟨event, member, same, status, due⟩
  have set : Floor host state none attempt.eventId (backoffEnd host attempt) := .failure failed
  rw [← same] at set
  have floor := (backed.floor event member none _ set).resolve_left status
  exact absurd floor (not_le.mpr (lt_of_le_of_lt due early))

def settled (state : TimedInbox) (worker : Nat) (left : Worker) (tables : Tables)
    (added : List FailedAttempt) : TimedInbox where
  inbox :=
    { state.inbox with
      tables
      workers := Function.update state.inbox.workers worker left }
  clock := state.clock
  failed := state.failed ++ added

section Marks

variable {host : Host} {state : TimedInbox} {worker : Nat} {now : Instant}
  {event : StripeWebhookEvent} {events : List StripeWebhookEvent} {left : Worker} {tables : Tables}
  {added : List FailedAttempt}

theorem settled_leases (backed : Backed host state)
    (busy : state.inbox.workers worker = .processing now (event :: events))
    (rest : left = .idle ∨ left = popped now events) {other : Nat} {reading : Instant} {eventId : String}
    (leases : Leases (settled state worker left tables added).inbox other reading eventId) :
    Leases state.inbox other reading eventId ∧ (other = worker → eventId ≠ event.eventId) := by
  rcases rest with rfl | rfl
  · obtain ⟨batch, running, member⟩ := leases
    have differs : other ≠ worker := by
      rintro rfl
      simp [settled] at running
    simp only [settled, Function.update_of_ne differs] at running
    exact ⟨⟨batch, running, member⟩, fun same => absurd same differs⟩
  · have nodup := (backed.read worker now _ busy).2.1
    rw [List.map_cons, List.nodup_cons] at nodup
    obtain ⟨before, mine⟩ := popped_leases busy leases
    refine ⟨before, fun same equal => ?_⟩
    exact nodup.1 (equal ▸ mine same)

theorem settled_floor (backed : Backed host state)
    (busy : state.inbox.workers worker = .processing now (event :: events))
    (rest : left = .idle ∨ left = popped now events) {owner : Option Nat} {eventId : String}
    {time : Instant} (set : Floor host (settled state worker left tables added) owner eventId time) :
    (Floor host state owner eventId time ∧ (owner = some worker → eventId ≠ event.eventId)) ∨
      (owner = none ∧ ∃ attempt ∈ added, attempt.eventId = eventId ∧ time = backoffEnd host attempt) := by
  cases set with
  | lease leases =>
      obtain ⟨before, other⟩ := settled_leases backed busy rest leases
      exact .inl ⟨.lease before, fun same => other (Option.some.inj same)⟩
  | failure failed =>
      rcases List.mem_append.mp failed with old | new
      · exact .inl ⟨.failure old, fun owned => by cases owned⟩
      · exact .inr ⟨rfl, _, new, rfl, rfl⟩

theorem Backed.past (backed : Backed host state)
    (busy : state.inbox.workers worker = .processing now (event :: events))
    (early : state.clock ≤ now) {owner : Option Nat} {time : Instant} (other : owner ≠ some worker)
    (set : Floor host state owner event.eventId time) : time ≤ now := by
  have leases : Leases state.inbox worker now event.eventId := ⟨_, busy, .head _⟩
  rcases backed.ahead worker now _ leases owner time other set with past | lapsed
  · exact past
  · exact absurd (lapsed.trans early) (not_le.mpr (Int.lt_add_of_pos_right _ (by decide)))

theorem settled_backed (backed : Backed host state)
    (busy : state.inbox.workers worker = .processing now (event :: events))
    (rest : left = .idle ∨ left = popped now events)
    (ids : tables.events.map StripeWebhookEvent.eventId = eventIds state.inbox)
    (new : ∀ attempt ∈ added, attempt.eventId = event.eventId ∧
      (state.clock ≤ now ∨ backoffEnd host attempt ≤ now + 60000))
    (floor : ∀ stored ∈ tables.events, ∀ owner time,
      Floor host (settled state worker left tables added) owner stored.eventId time →
        stored.status = .processed ∨ time ≤ stored.nextAttemptAt) :
    Backed host (settled state worker left tables added) := by
  have mine : Leases state.inbox worker now event.eventId := ⟨_, busy, .head _⟩
  have same : eventIds (settled state worker left tables added).inbox = eventIds state.inbox := ids
  refine ⟨same.symm ▸ backed.distinct, ?_, ?_, floor, ?_⟩
  · intro other reading batch running
    by_cases same : other = worker
    · subst same
      simp only [settled, Function.update_self] at running
      obtain ⟨read, nodup, -⟩ := backed.read other now _ busy
      rw [List.map_cons, List.nodup_cons] at nodup
      rcases rest with rfl | rfl
      · cases running
      · cases events with
        | nil => cases running
        | cons first events =>
            cases running
            exact ⟨read, nodup.2, List.cons_ne_nil _ _⟩
    · simp only [settled, Function.update_of_ne same] at running
      exact backed.read other reading batch running
  · intro owner eventId time set
    rw [same]
    rcases settled_floor backed busy rest set with ⟨before, -⟩ | ⟨-, attempt, member, rfl, -⟩
    · exact backed.known owner eventId time before
    · rw [(new attempt member).1]
      exact backed.known _ _ _ (.lease mine)
  · intro other reading eventId leases owner time differs set
    obtain ⟨before, apart⟩ := settled_leases backed busy rest leases
    rcases settled_floor backed busy rest set with ⟨old, -⟩ | ⟨-, attempt, member, rfl, rfl⟩
    · exact backed.ahead other reading eventId before owner time differs old
    · obtain ⟨same, inTime⟩ := new attempt member
      rw [same] at before apart
      have foreign : some worker ≠ some other := fun equal => apart (Option.some.inj equal).symm rfl
      -- The one who leases it too has claimed it after this lease had lapsed.
      rcases backed.ahead other reading _ before _ _ foreign (.lease mine) with later | lapsed
      · rcases inTime with early | short
        · obtain ⟨batch, running, -⟩ := before
          have read := (backed.read other reading batch running).1
          have lapsed := (later.trans read).trans early
          exact absurd lapsed (not_le.mpr (Int.lt_add_of_pos_right _ (by decide)))
        · exact .inl (short.trans later)
      · exact .inr lapsed

theorem updated_floor {set : StripeWebhookEvent → StripeWebhookEvent}
    (backed : Backed host state)
    (busy : state.inbox.workers worker = .processing now (event :: events))
    (rest : left = .idle ∨ left = popped now events)
    (new : ∀ attempt ∈ added, attempt.eventId = event.eventId)
    (keeps : ∀ stored, (set stored).eventId = stored.eventId)
    (later : ∀ stored, (set stored).status = .processed ∨ ∀ owner time,
      Floor host (settled state worker left (updateEvent event.eventId set state.inbox.tables) added)
        owner event.eventId time → time ≤ (set stored).nextAttemptAt) :
    ∀ stored ∈ (updateEvent event.eventId set state.inbox.tables).events, ∀ owner time,
      Floor host (settled state worker left (updateEvent event.eventId set state.inbox.tables) added)
        owner stored.eventId time → stored.status = .processed ∨ time ≤ stored.nextAttemptAt := by
  intro marked member owner time floor
  obtain ⟨stored, known, rfl⟩ := updateEvent_member member
  by_cases same : stored.eventId = event.eventId
  · simp only [same, if_true] at floor ⊢
    rw [keeps, same] at floor
    exact (later stored).imp_right fun past => past owner time floor
  · simp only [same, if_false] at floor ⊢
    rcases settled_floor backed busy rest floor with ⟨before, -⟩ | ⟨-, attempt, listed, equal, -⟩
    · exact backed.floor stored known owner time before
    · exact absurd (equal.symm.trans (new attempt listed)) same

end Marks

section Moves

variable {host : Host} {state next : TimedInbox} {worker : Nat}

theorem wait_backed (backed : Backed host state) (duration : Nat) :
    Backed host { state with clock := state.clock + duration } := by
  have floors : ∀ owner eventId time,
      Floor host { state with clock := state.clock + duration } owner eventId time →
        Floor host state owner eventId time := by
    rintro owner eventId time (leases | failed)
    · exact .lease leases
    · exact .failure failed
  have grown : state.clock ≤ state.clock + duration :=
    Int.le_add_of_nonneg_right (Int.natCast_nonneg duration)
  refine ⟨backed.distinct, ?_, ?_, ?_, ?_⟩
  · intro worker now events busy
    obtain ⟨read, nodup⟩ := backed.read worker now events busy
    exact ⟨read.trans grown, nodup⟩
  · exact fun owner eventId time set => backed.known owner eventId time (floors _ _ _ set)
  · exact fun event member owner time set => backed.floor event member owner time (floors _ _ _ set)
  · intro worker now eventId leases owner time other set
    rcases backed.ahead worker now eventId leases owner time other (floors _ _ _ set) with past | lapsed
    · exact .inl past
    · exact .inr (lapsed.trans grown)

theorem markProcessed_backed (backed : Backed host state)
    (moved : move host state (.take (.markProcessed worker)) = some next) : Backed host next := by
  simp only [move, readBy, apply, if_true, failures, Option.map_eq_some_iff] at moved
  obtain ⟨inbox, applied, rfl⟩ := moved
  split at applied
  · next now event events busy =>
    cases applied
    refine settled_backed backed busy (.inr rfl) (updateEvent_ids _ _ _ fun _ => rfl)
      (fun attempt none => by cases none) ?_
    exact updated_floor backed busy (.inr rfl) (fun attempt none => by cases none) (fun _ => rfl)
      fun _ => .inl rfl
  · cases applied

theorem markFailed_backed (backed : Backed host state) {error : String}
    (punctual : Punctual host state (.take (.markFailed worker error)))
    (moved : move host state (.take (.markFailed worker error)) = some next) : Backed host next := by
  simp only [move, readBy, apply, if_true, failures, Option.map_eq_some_iff] at moved
  obtain ⟨inbox, applied, rfl⟩ := moved
  split at applied
  · next now event events busy =>
    cases applied
    have early := punctual now event events busy
    simp only [busy, failing]
    refine settled_backed backed busy (.inr rfl) (updateEvent_ids _ _ _ fun _ => rfl) ?_ ?_
    · intro attempt single
      rw [List.mem_singleton.mp single]
      exact ⟨rfl, .inl early⟩
    · refine updated_floor backed busy (.inr rfl) ?_ (fun _ => rfl) fun _ => .inr fun owner time set => ?_
      · exact fun attempt single => List.mem_singleton.mp single ▸ rfl
      · rcases settled_floor backed busy (.inr rfl) set with ⟨before, foreign⟩ | ⟨-, attempt, single, -, rfl⟩
        · have other : owner ≠ some worker := fun owned => foreign owned rfl
          have past := backed.past busy early other before
          exact past.trans (Int.le_add_of_nonneg_right (Int.natCast_nonneg _))
        · rw [List.mem_singleton.mp single]
          exact Int.add_le_add_right early _
  · cases applied

theorem ended_backed (backed : Backed host state) {inbox : InboxState} {added : List FailedAttempt}
    (applied : apply host state.inbox (.abort worker) = some inbox)
    (new : ∀ now event events, state.inbox.workers worker = .processing now (event :: events) →
      ∀ attempt ∈ added, attempt.eventId = event.eventId ∧ backoffEnd host attempt ≤ now + 60000) :
    Backed host { state with
      inbox
      failed := state.failed ++ added } := by
  simp only [apply] at applied
  split at applied
  · cases applied
  · next now batch busy =>
    cases applied
    obtain ⟨event, events, rfl⟩ := List.exists_cons_of_ne_nil (backed.read worker now _ busy).2.2
    have inTime := new now event events busy
    refine settled_backed backed busy (.inl rfl) rfl
      (fun attempt member => (inTime attempt member).imp_right .inr) ?_
    intro stored member owner time set
    rcases settled_floor backed busy (.inl rfl) set with
      ⟨before, -⟩ | ⟨-, attempt, listed, same, rfl⟩
    · exact backed.floor stored member owner time before
    · obtain ⟨equal, short⟩ := inTime attempt listed
      have mine : Leases state.inbox worker now stored.eventId :=
        ⟨_, busy, same ▸ equal ▸ List.mem_cons_self ..⟩
      exact (backed.floor stored member _ _ (.lease mine)).imp_right short.trans

theorem unmarked_backed (backed : Backed host state) (punctual : Punctual host state (.unmarked worker))
    (moved : move host state (.unmarked worker) = some next) : Backed host next := by
  simp only [move, Option.map_eq_some_iff] at moved
  obtain ⟨inbox, applied, rfl⟩ := moved
  refine ended_backed backed applied fun now event events busy attempt member => ?_
  rw [busy] at member
  rw [List.mem_singleton.mp member]
  exact ⟨rfl, punctual now event events busy⟩

theorem enqueue_backed (backed : Backed host state) {new : NewStripeWebhookEvent} {now : Instant}
    (moved : move host state (.take (.enqueue new now)) = some next) : Backed host next := by
  simp only [move, readBy, apply, if_true, failures, List.append_nil, Option.map_eq_some_iff] at moved
  obtain ⟨inbox, applied, rfl⟩ := moved
  split at applied
  · cases applied
    exact backed
  · next absent =>
    cases applied
    have fresh : new.eventId ∉ eventIds state.inbox := by
      simpa [eventIds] using absent
    have floors : ∀ owner eventId time, Floor host { state with
        inbox := { state.inbox with
          tables := { state.inbox.tables with
            events := state.inbox.tables.events ++ [newWebhookEvent new now] } } } owner eventId time →
        Floor host state owner eventId time := by
      rintro owner eventId time (leases | failed)
      · exact .lease leases
      · exact .failure failed
    refine ⟨?_, backed.read, ?_, ?_, ?_⟩
    · simp only [eventIds, List.map_append, List.nodup_append]
      refine ⟨backed.distinct, List.nodup_singleton _, ?_⟩
      rintro eventId member other single rfl
      rw [List.mem_singleton.mp single] at member
      exact fresh member
    · intro owner eventId time set
      have listed := backed.known owner eventId time (floors _ _ _ set)
      simp only [eventIds, List.map_append, List.mem_append]
      exact .inl listed
    · intro stored member owner time set
      have before := floors _ _ _ set
      rcases List.mem_append.mp member with old | single
      · exact backed.floor stored old owner time before
      · rw [List.mem_singleton.mp single] at before
        exact absurd (backed.known owner _ time before) fresh
    · exact fun worker reading eventId leases owner time other set =>
        backed.ahead worker reading eventId leases owner time other (floors _ _ _ set)

def claimedInbox (inbox : InboxState) (worker : Nat) (now : Instant) (due : List StripeWebhookEvent) :
    InboxState where
  tables := claimAll now due inbox.tables
  workers := Function.update inbox.workers worker (claimedBatch now due)
  claims eventId :=
    if eventId ∈ due.map StripeWebhookEvent.eventId then some (worker, now) else inbox.claims eventId

theorem claim_backed (backed : Backed host state) {limit : Nat} {now : Instant} {skipped : List String}
    (moved : move host state (.take (.claimDue worker limit now skipped)) = some next) :
    Backed host next := by
  simp only [move, failures, List.append_nil] at moved
  split at moved
  case isFalse => cases moved
  next timely =>
  have read : now ≤ state.clock := of_decide_eq_true timely
  obtain ⟨inbox, applied, rfl⟩ := Option.map_eq_some_iff.mp moved
  simp only [apply] at applied
  split at applied
  case h_1 => cases applied
  cases applied
  have listed := fun eventId => @due_listed now state.inbox.tables.events skipped limit eventId
  have nodup := dueEvents_nodup skipped limit now backed.distinct
  generalize dueEvents state.inbox.tables.events skipped limit now = due at listed nodup
  have ids : eventIds (claimedInbox state.inbox worker now due) = eventIds state.inbox :=
    claimAll_ids now due state.inbox.tables
  have passed : ∀ eventId ∈ due.map StripeWebhookEvent.eventId, ∀ owner time,
      Floor host state owner eventId time → time ≤ now := by
    intro eventId member owner time set
    obtain ⟨stored, known, rfl, status, attempt⟩ := listed eventId member
    exact ((backed.floor stored known owner time set).resolve_left status).trans attempt
  change Backed host { state with inbox := claimedInbox state.inbox worker now due }
  have floors : ∀ owner eventId time,
      Floor host { state with inbox := claimedInbox state.inbox worker now due } owner eventId time →
      Floor host state owner eventId time ∨ (owner = some worker ∧ time = now + 60000 ∧
        eventId ∈ due.map StripeWebhookEvent.eventId) := by
    rintro owner eventId time (leases | failed)
    · rcases claimed_leases leases with ⟨-, before⟩ | ⟨rfl, rfl, fresh⟩
      · exact .inl (.lease before)
      · exact .inr ⟨rfl, rfl, fresh⟩
    · exact .inl (.failure failed)
  refine ⟨ids.symm ▸ backed.distinct, ?_, ?_, ?_, ?_⟩
  · intro other reading batch running
    by_cases same : other = worker
    · subst same
      simp only [claimedInbox, Function.update_self] at running
      obtain ⟨rfl, batchIds⟩ := claimedBatch_ids running
      refine ⟨read, batchIds ▸ nodup, ?_⟩
      rintro rfl
      cases due <;> cases running
    · simp only [claimedInbox, Function.update_of_ne same] at running
      exact backed.read other reading batch running
  · intro owner eventId time set
    refine ids.symm ▸ ?_
    rcases floors owner eventId time set with before | ⟨-, -, fresh⟩
    · exact backed.known owner eventId time before
    · obtain ⟨stored, known, rfl, -⟩ := listed eventId fresh
      exact List.mem_map_of_mem known
  · intro stored member owner time set
    rcases claimAll_member member with ⟨fresh, -, lease⟩ | ⟨other, known⟩
    · refine .inr (lease ▸ ?_)
      rcases floors owner _ time set with before | ⟨-, rfl, -⟩
      · exact (passed _ fresh owner time before).trans (Int.le_add_of_nonneg_right (by decide))
      · exact le_rfl
    · rcases floors owner _ time set with before | ⟨-, -, fresh⟩
      · exact backed.floor stored known owner time before
      · exact absurd fresh other
  · intro other reading eventId leases owner time foreign set
    rcases claimed_leases leases with ⟨-, before⟩ | ⟨rfl, rfl, fresh⟩
    · rcases floors owner eventId time set with old | ⟨-, -, fresh⟩
      · exact backed.ahead other reading eventId before owner time foreign old
      · exact .inr ((passed eventId fresh _ _ (.lease before)).trans read)
    · rcases floors owner eventId time set with old | ⟨mine, -⟩
      · exact .inl (passed eventId fresh owner time old)
      · exact absurd mine foreign

theorem move_backed (backed : Backed host state) {made : InboxMove} (punctual : Punctual host state made)
    (moved : move host state made = some next) : Backed host next := by
  cases made with
  | wait duration =>
      cases moved
      exact wait_backed backed duration
  | unmarked worker => exact unmarked_backed backed punctual moved
  | take step =>
      cases step with
      | enqueue new now => exact enqueue_backed backed moved
      | claimDue worker limit now skipped => exact claim_backed backed moved
      | markProcessed worker => exact markProcessed_backed backed moved
      | markFailed worker error => exact markFailed_backed backed punctual moved
      | abort worker =>
          simp only [move, readBy, if_true, failures, Option.map_eq_some_iff] at moved
          obtain ⟨inbox, applied, rfl⟩ := moved
          exact ended_backed backed applied fun now event events busy attempt none => by cases none

end Moves

theorem run_backed {host : Host} {first last : TimedInbox} (run : TimedRun host (Punctual host) first last)
    (backed : Backed host first) : Backed host last := by
  induction run with
  | refl => exact backed
  | tail run made ih =>
      obtain ⟨made, punctual, moved⟩ := made
      exact move_backed ih punctual moved

theorem claim_claimable {host : Host} {state next : InboxState} {worker limit : Nat} {reading : Instant}
    {skipped : List String} {eventId : String}
    (applied : apply host state (.claimDue worker limit reading skipped) = some next)
    (leases : Leases next worker reading eventId) : Claimable state eventId reading := by
  simp only [apply] at applied
  split at applied
  · cases applied
  · cases applied
    rcases claimed_leases leases with ⟨other, -⟩ | ⟨-, -, fresh⟩
    · exact absurd rfl other
    · exact due_listed fresh

def Listed (state : InboxState) : Prop :=
  ∀ worker now eventId, Leases state worker now eventId → eventId ∈ eventIds state

theorem apply_listed {host : Host} {state next : InboxState} {step : InboxStep} (listed : Listed state)
    (applied : apply host state step = some next) : Listed next := by
  intro other reading eventId leases
  cases step with
  | enqueue new now =>
      simp only [apply] at applied
      split at applied <;> cases applied
      · exact listed other reading eventId leases
      · simp only [eventIds, List.map_append, List.mem_append]
        exact .inl (listed other reading eventId leases)
  | claimDue worker limit now skipped =>
      simp only [apply] at applied
      split at applied
      · cases applied
      · cases applied
        change eventId ∈ (claimAll now _ state.tables).events.map StripeWebhookEvent.eventId
        rw [claimAll_ids]
        rcases claimed_leases leases with ⟨-, before⟩ | ⟨-, -, fresh⟩
        · exact listed other reading eventId before
        · obtain ⟨stored, known, rfl, -⟩ := due_listed fresh
          exact List.mem_map_of_mem known
  | markProcessed worker | markFailed worker error =>
      simp only [apply] at applied
      split at applied
      · next now event events busy =>
        cases applied
        change eventId ∈ (updateEvent event.eventId _ state.tables).events.map
          StripeWebhookEvent.eventId
        rw [updateEvent_ids]
        · exact listed other reading eventId (popped_leases busy leases).1
        · exact fun _ => rfl
      · cases applied
  | abort worker =>
      simp only [apply] at applied
      split at applied
      · cases applied
      · cases applied
        obtain ⟨batch, running, member⟩ := leases
        by_cases same : other = worker
        · subst same
          simp at running
        · simp only [Function.update_of_ne same] at running
          exact listed other reading eventId ⟨batch, running, member⟩

theorem run_listed {host : Host} {allowed : TimedInbox → InboxMove → Prop} {first last : TimedInbox}
    (run : TimedRun host allowed first last) (listed : Listed first.inbox) : Listed last.inbox := by
  induction run with
  | refl => exact listed
  | tail run made ih =>
      obtain ⟨made, -, moved⟩ := made
      cases made with
      | wait duration =>
          cases moved
          exact ih
      | take step =>
          simp only [move] at moved
          split at moved
          · obtain ⟨inbox, applied, rfl⟩ := Option.map_eq_some_iff.mp moved
            exact apply_listed ih applied
          · cases moved
      | unmarked worker =>
          obtain ⟨inbox, applied, rfl⟩ := Option.map_eq_some_iff.mp moved
          exact apply_listed ih applied

theorem failed_claimable {host : Host} {state next : TimedInbox} {worker : Nat} {now : Instant}
    {event : StripeWebhookEvent} {events : List StripeWebhookEvent} {error : String}
    (listed : Listed state.inbox)
    (busy : state.inbox.workers worker = .processing now (event :: events))
    (moved : move host state (.take (.markFailed worker error)) = some next) (reading : Instant) :
    Claimable next.inbox event.eventId reading ↔ failedUntil host now event ≤ reading := by
  simp only [move, readBy, apply, busy, if_true, Option.map_some, Option.some.injEq] at moved
  subst moved
  constructor
  · rintro ⟨marked, member, same, -, due⟩
    obtain ⟨stored, known, rfl⟩ := updateEvent_member member
    by_cases equal : stored.eventId = event.eventId
    · simpa only [equal, if_true] using due
    · simp only [equal, if_false] at same
  · intro due
    obtain ⟨stored, known, same⟩ := List.mem_map.mp
      (listed worker now event.eventId ⟨_, busy, List.mem_cons_self ..⟩)
    refine ⟨_, List.mem_map_of_mem known, ?_⟩
    simp only [same, if_true]
    exact ⟨trivial, fun processed => (by cases processed), due⟩

/-- While failures are marked at the reading their batch was claimed with, no
event is claimed before its delay after the failure is over. A mark keeps that
delay exactly if no time has passed since the reading. -/
theorem backoff_from_failure (host : Host) (clock : Instant) :
    (∀ reached, TimedRun host (Punctual host) (timedStart clock) reached →
        BacksOff host reached ∧ ∀ attempt ∈ reached.failed, ∀ worker limit reading skipped next,
          reading < backoffEnd host attempt →
            apply host reached.inbox (.claimDue worker limit reading skipped) = some next →
              ¬Leases next worker reading attempt.eventId) ∧
      ∀ reached, TimedRun host (fun _ _ => True) (timedStart clock) reached →
        ∀ worker now event events error next,
          reached.inbox.workers worker = .processing now (event :: events) →
            move host reached (.take (.markFailed worker error)) = some next →
              ((∀ reading < backoffEnd host ⟨event.eventId, event.attempts, reached.clock⟩,
                  ¬Claimable next.inbox event.eventId reading) ↔ reached.clock ≤ now) := by
  refine ⟨fun reached run => ?_, fun reached run worker now event events error next busy moved => ?_⟩
  · have backs := (run_backed run (backed_start host clock)).backsOff
    refine ⟨backs, fun attempt failed worker limit reading skipped next early applied leases => ?_⟩
    exact backs attempt failed reading early (claim_claimable applied leases)
  · have listed := run_listed run fun worker now eventId leases => by
      obtain ⟨events, busy, -⟩ := leases
      cases busy
    simp only [failed_claimable listed busy moved]
    constructor
    · intro backs
      by_contra late
      refine backs (failedUntil host now event) ?_ le_rfl
      exact Int.add_lt_add_right (not_le.mp late) _
    · intro early reading before due
      have kept : backoffEnd host ⟨event.eventId, event.attempts, reached.clock⟩ ≤
          failedUntil host now event := Int.add_le_add_right early _
      exact absurd (kept.trans due) (not_le.mpr before)

def playMoves (host : Host) : List InboxMove → TimedInbox → Option TimedInbox
  | [], state => some state
  | made :: moves, state => (move host state made).bind (playMoves host moves)

theorem playMoves_run {host : Host} {allowed : TimedInbox → InboxMove → Prop} (moves : List InboxMove)
    {first middle last : TimedInbox} (run : TimedRun host allowed first middle)
    (free : ∀ made ∈ moves, ∀ state, allowed state made)
    (played : playMoves host moves middle = some last) : TimedRun host allowed first last := by
  induction moves generalizing middle with
  | nil =>
      cases played
      exact run
  | cons made moves ih =>
      obtain ⟨between, moved, rest⟩ := Option.bind_eq_some_iff.mp played
      rw [List.forall_mem_cons] at free
      exact ih (.tail run ⟨made, free.1 middle, moved⟩) free.2 rest

def batched : List InboxMove :=
  [.take (.enqueue ⟨"evt_1", "invoice.paid", none, .null⟩ 0), .take (.claimDue 0 25 0 [])]

def sampleTimed (moves : List InboxMove) : TimedInbox :=
  (playMoves sampleHost moves (timedStart 0)).getD (timedStart 0)

/-- Stripe times out after ten seconds, and the event is claimed again at once. -/
theorem backoff_from_claim :
    ∃ reached next, TimedRun sampleHost (fun _ _ => True) (timedStart 0) reached ∧
      ⟨"evt_1", 1, 10000⟩ ∈ reached.failed ∧ 10000 < backoffEnd sampleHost ⟨"evt_1", 1, 10000⟩ ∧
      apply sampleHost reached.inbox (.claimDue 0 25 10000 []) = some next ∧
      Leases next 0 10000 "evt_1" := by
  refine ⟨sampleTimed (batched ++ [.wait 10000, .take (.markFailed 0 "timeout")]), _, ?_, ?_, ?_,
    rfl, ?_⟩
  · exact playMoves_run (batched ++ [.wait 10000, .take (.markFailed 0 "timeout")]) .refl (fun _ _ _ => trivial) rfl
  · exact .head _
  · decide
  · exact ⟨_, rfl, .head _⟩

theorem backoff_from_failure_sample :
    TimedRun sampleHost (Punctual sampleHost) (timedStart 0)
        (sampleTimed (batched ++ [.take (.markFailed 0 "timeout")])) ∧
      ¬Claimable (sampleTimed (batched ++ [.take (.markFailed 0 "timeout")])).inbox "evt_1" 999 := by
  have claim : TimedRun sampleHost (Punctual sampleHost) (timedStart 0) (sampleTimed batched) := by
    refine playMoves_run batched .refl (fun made member state => ?_) rfl
    simp only [batched, List.mem_cons, List.not_mem_nil, or_false] at member
    rcases member with rfl | rfl <;> exact trivial
  have run : TimedRun sampleHost (Punctual sampleHost) (timedStart 0)
      (sampleTimed (batched ++ [.take (.markFailed 0 "timeout")])) := by
    refine .tail claim ⟨.take (.markFailed 0 "timeout"), ?_, rfl⟩
    intro now event events busy
    cases busy
    exact le_rfl
  have backs := ((backoff_from_failure sampleHost 0).1 _ run).1
  exact ⟨run, backs ⟨"evt_1", 1, 0⟩ (.head _) 999 (by decide)⟩

end Keyzori.Inbox
