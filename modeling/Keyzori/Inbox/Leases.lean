import Keyzori.Server.StripeServices

/-! The webhook inbox under any number of workers. A worker is one caller of
`processDue`; it claims a batch under a lease and marks the events one by one,
by their ids alone. Clock readings are whatever the workers read, so that a
worker may stall for as long as it likes. -/

namespace Keyzori.Inbox

/-- What a `processDue` still has to mark, and the reading it started with. -/
inductive Worker
  | idle
  | processing (now : Instant) (events : List StripeWebhookEvent)

/-- `claims` tells which worker claimed an event last, and with which reading. -/
structure InboxState where
  tables : Tables
  workers : Nat → Worker
  claims : String → Option (Nat × Instant)

/-- `abort` is any failure that ends `processDue` before its batch is done: a
mark or an activity that throws. A `markProcessed` that throws goes on as a
failed event, like a reconciliation that throws. -/
inductive InboxStep
  | enqueue (event : NewStripeWebhookEvent) (now : Instant)
  | claimDue (worker limit : Nat) (now : Instant) (skipped : List String)
  | markProcessed (worker : Nat)
  | markFailed (worker : Nat) (error : String)
  | abort (worker : Nat)

def failedUntil (host : Host) (now : Instant) (event : StripeWebhookEvent) : Instant :=
  now + StripeWebhookService.retryDelay host event.attempts

def claimedBatch (now : Instant) (due : List StripeWebhookEvent) : Worker :=
  match due with
  | [] => .idle
  | event :: events => .processing now ((event :: events).map (claimed now))

def popped (now : Instant) (events : List StripeWebhookEvent) : Worker :=
  match events with
  | [] => .idle
  | event :: events => .processing now (event :: events)

def apply (host : Host) (state : InboxState) : InboxStep → Option InboxState
  | .enqueue event now =>
      if state.tables.events.any fun stored => stored.eventId = event.eventId then some state
      else some { state with tables := { state.tables with
        events := state.tables.events ++ [newWebhookEvent event now] } }
  | .claimDue worker limit now skipped => match state.workers worker with
      | .processing _ _ => none
      | .idle =>
          let due := dueEvents state.tables.events skipped limit now
          some
            { tables := due.foldl (fun tables event => updateEvent event.eventId (claimed now) tables)
                state.tables
              workers := Function.update state.workers worker (claimedBatch now due)
              claims := fun eventId =>
                if eventId ∈ due.map StripeWebhookEvent.eventId then some (worker, now)
                else state.claims eventId }
  | .markProcessed worker => match state.workers worker with
      | .processing now (event :: events) => some { state with
          tables := updateEvent event.eventId (fun event => { event with
            status := .processed
            processedAt := some now
            lastError := none }) state.tables
          workers := Function.update state.workers worker (popped now events) }
      | _ => none
  | .markFailed worker error => match state.workers worker with
      | .processing now (event :: events) => some { state with
          tables := updateEvent event.eventId (fun stored => { stored with
            status := .failed
            lastError := some error
            nextAttemptAt := failedUntil host now event }) state.tables
          workers := Function.update state.workers worker (popped now events) }
      | _ => none
  | .abort worker => match state.workers worker with
      | .idle => none
      | .processing _ _ => some { state with
          workers := Function.update state.workers worker .idle }

def start : InboxState := ⟨⟨[], [], fun _ => none, []⟩, fun _ => .idle, fun _ => none⟩

def marking : InboxStep → InboxState → Option (Nat × Instant × StripeWebhookEvent)
  | .markProcessed worker, state | .markFailed worker _, state => match state.workers worker with
      | .processing now (event :: _) => some (worker, now, event)
      | _ => none
  | _, _ => none

/-- No other worker has claimed the event since the one that marks it did. -/
def Unsurpassed (state : InboxState) (step : InboxStep) : Prop :=
  ∀ worker now event, marking step state = some (worker, now, event) →
    state.claims event.eventId = some (worker, now)

def Leases (state : InboxState) (worker : Nat) (now : Instant) (eventId : String) : Prop :=
  ∃ events, state.workers worker = .processing now events ∧
    eventId ∈ events.map StripeWebhookEvent.eventId

inductive Run (host : Host) (allowed : InboxState → InboxStep → Prop) :
    InboxState → InboxState → Prop
  | refl (state : InboxState) : Run host allowed state state
  | step {first middle last : InboxState} (step : InboxStep) (run : Run host allowed first middle)
      (permitted : allowed middle step) (applied : apply host middle step = some last) :
      Run host allowed first last

section Tables

variable {state next : InboxState} {host : Host} {now : Instant}

theorem updateEvent_member {eventId : String} {set : StripeWebhookEvent → StripeWebhookEvent}
    {tables : Tables} {event : StripeWebhookEvent} (member : event ∈ (updateEvent eventId set tables).events) :
    ∃ stored ∈ tables.events, event = if stored.eventId = eventId then set stored else stored := by
  obtain ⟨stored, known, rfl⟩ := List.mem_map.mp member
  exact ⟨stored, known, rfl⟩

def claimAll (now : Instant) (due : List StripeWebhookEvent) (tables : Tables) : Tables :=
  due.foldl (fun tables event => updateEvent event.eventId (claimed now) tables) tables

theorem claimAll_ids (now : Instant) (due : List StripeWebhookEvent) (tables : Tables) :
    (claimAll now due tables).events.map StripeWebhookEvent.eventId =
      tables.events.map StripeWebhookEvent.eventId := by
  induction due generalizing tables with
  | nil => rfl
  | cons event due ih => exact (ih _).trans (updateEvent_ids _ _ _ fun _ => rfl)

theorem claimAll_member {due : List StripeWebhookEvent} {tables : Tables} {event : StripeWebhookEvent}
    (member : event ∈ (claimAll now due tables).events) :
    (event.eventId ∈ due.map StripeWebhookEvent.eventId ∧ event.status = .processing ∧
        event.nextAttemptAt = now + 60000) ∨
      (event.eventId ∉ due.map StripeWebhookEvent.eventId ∧ event ∈ tables.events) := by
  induction due generalizing tables with
  | nil => exact .inr ⟨List.not_mem_nil, member⟩
  | cons first due ih =>
      rcases ih member with
        ⟨known, status, lease⟩ | ⟨fresh, before⟩
      · exact .inl ⟨List.mem_cons_of_mem _ known, status, lease⟩
      · obtain ⟨stored, listed, rfl⟩ := updateEvent_member before
        by_cases same : stored.eventId = first.eventId
        · simp only [same, if_true] at fresh ⊢
          refine .inl ⟨?_, rfl, rfl⟩
          exact List.mem_cons.mpr (.inl same)
        · simp only [same, if_false] at fresh ⊢
          refine .inr ⟨?_, listed⟩
          rw [List.map_cons, List.mem_cons, not_or]
          exact ⟨same, fresh⟩

theorem dueEvents_member {events : List StripeWebhookEvent} {skipped : List String} {limit : Nat}
    {event : StripeWebhookEvent} (member : event ∈ dueEvents events skipped limit now) :
    event ∈ events ∧ event.status ≠ .processed ∧ event.nextAttemptAt ≤ now := by
  have sorted := List.mem_of_mem_take member
  rw [List.mem_insertionSort, List.mem_filter] at sorted
  simp only [Bool.and_eq_true, decide_eq_true_eq] at sorted
  exact ⟨sorted.1, sorted.2.1.1, sorted.2.1.2⟩

theorem dueEvents_nodup {events : List StripeWebhookEvent} (skipped : List String) (limit : Nat)
    (now : Instant)
    (distinct : (events.map StripeWebhookEvent.eventId).Nodup) :
    ((dueEvents events skipped limit now).map StripeWebhookEvent.eventId).Nodup := by
  refine ((List.take_sublist _ _).map _).nodup ?_
  rw [((List.perm_insertionSort _ _).map _).nodup_iff]
  exact (List.filter_sublist.map _).nodup distinct

end Tables

structure LeasesSound (state : InboxState) : Prop where
  distinct : (state.tables.events.map StripeWebhookEvent.eventId).Nodup
  known : ∀ eventId, state.claims eventId ≠ none →
    eventId ∈ state.tables.events.map StripeWebhookEvent.eventId
  batch : ∀ worker now events, state.workers worker = .processing now events →
    (events.map StripeWebhookEvent.eventId).Nodup
  claimed : ∀ worker now eventId, Leases state worker now eventId → ∃ holder since,
    state.claims eventId = some (holder, since) ∧
      (holder = worker ∧ since = now ∨ now + 60000 ≤ since)
  later : ∀ event ∈ state.tables.events, ∀ holder since,
    state.claims event.eventId = some (holder, since) →
      event.status = .processed ∨ since ≤ event.nextAttemptAt
  held : ∀ event ∈ state.tables.events, ∀ holder since,
    state.claims event.eventId = some (holder, since) → Leases state holder since event.eventId →
      event.status = .processing ∧ event.nextAttemptAt = since + 60000

section Steps

variable {host : Host} {state next : InboxState} {worker : Nat} {now : Instant}
  {events : List StripeWebhookEvent} {event : StripeWebhookEvent}

theorem popped_leases {other : Nat} {reading : Instant} {eventId : String}
    (busy : state.workers worker = .processing now (event :: events)) {tables : Tables}
    (leases : Leases { state with
      tables
      workers := Function.update state.workers worker (popped now events) } other reading eventId) :
    Leases state other reading eventId ∧
      (other = worker → eventId ∈ events.map StripeWebhookEvent.eventId) := by
  obtain ⟨batch, running, member⟩ := leases
  by_cases same : other = worker
  · subst same
    simp only [Function.update_self] at running
    cases events with
    | nil => cases running
    | cons first rest =>
        cases running
        exact ⟨⟨_, busy, List.mem_cons_of_mem _ member⟩, fun _ => member⟩
  · simp only [Function.update_of_ne same] at running
    exact ⟨⟨batch, running, member⟩, fun here => absurd here same⟩

theorem mark_sound (sound : LeasesSound state) {set : StripeWebhookEvent → StripeWebhookEvent}
    (busy : state.workers worker = .processing now (event :: events))
    (last : state.claims event.eventId = some (worker, now))
    (keeps : ∀ stored, (set stored).eventId = stored.eventId)
    (later : ∀ stored, (set stored).status = .processed ∨ now ≤ (set stored).nextAttemptAt) :
    LeasesSound { state with
      tables := updateEvent event.eventId set state.tables
      workers := Function.update state.workers worker (popped now events) } := by
  have nodup := sound.batch worker now _ busy
  rw [List.map_cons, List.nodup_cons] at nodup
  have ids := updateEvent_ids event.eventId _ state.tables keeps
  refine ⟨ids ▸ sound.distinct, fun eventId claimed => ids ▸ sound.known eventId claimed, ?_, ?_, ?_, ?_⟩
  · intro other reading batch running
    by_cases same : other = worker
    · subst same
      simp only [Function.update_self] at running
      cases events with
      | nil => cases running
      | cons first rest =>
          cases running
          exact nodup.2
    · simp only [Function.update_of_ne same] at running
      exact sound.batch other reading batch running
  · intro other reading eventId leases
    exact sound.claimed other reading eventId (popped_leases busy leases).1
  · intro marked member holder since claimed
    obtain ⟨stored, known, rfl⟩ := updateEvent_member member
    by_cases same : stored.eventId = event.eventId
    · simp only [same, if_true] at claimed ⊢
      rw [keeps, same, last] at claimed
      cases claimed
      exact later stored
    · simp only [same, if_false] at claimed ⊢
      exact sound.later stored known holder since claimed
  · intro marked member holder since claimed leases
    obtain ⟨before, mine⟩ := popped_leases busy leases
    obtain ⟨stored, known, rfl⟩ := updateEvent_member member
    by_cases same : stored.eventId = event.eventId
    · simp only [same, if_true] at claimed mine ⊢
      rw [keeps, same] at claimed mine
      rw [last] at claimed
      cases claimed
      exact absurd (mine rfl) nodup.1
    · simp only [same, if_false] at claimed before ⊢
      exact sound.held stored known holder since claimed before

theorem due_lapsed (sound : LeasesSound state) (member : event ∈ state.tables.events)
    (open' : event.status ≠ .processed) (due : event.nextAttemptAt ≤ now) {reading : Instant}
    (leases : Leases state worker reading event.eventId) : reading + 60000 ≤ now := by
  obtain ⟨holder, since, claimed, mine | lapsed⟩ := sound.claimed worker reading _ leases
  · obtain ⟨rfl, rfl⟩ := mine
    have lease := (sound.held event member holder since claimed leases).2
    exact lease ▸ due
  · have later := (sound.later event member holder since claimed).resolve_left open'
    exact lapsed.trans (later.trans due)

theorem claimedBatch_ids {due batch : List StripeWebhookEvent} {reading : Instant}
    (running : claimedBatch now due = .processing reading batch) :
    reading = now ∧ batch.map StripeWebhookEvent.eventId = due.map StripeWebhookEvent.eventId := by
  cases due with
  | nil => cases running
  | cons first due =>
      cases running
      refine ⟨rfl, ?_⟩
      rw [List.map_map]
      rfl

theorem claimed_leases {due : List StripeWebhookEvent} {tables : Tables}
    {claims : String → Option (Nat × Instant)} {other : Nat} {reading : Instant} {eventId : String}
    (leases : Leases
      { tables
        workers := Function.update state.workers worker (claimedBatch now due)
        claims } other reading eventId) :
    (other ≠ worker ∧ Leases state other reading eventId) ∨
      (other = worker ∧ reading = now ∧ eventId ∈ due.map StripeWebhookEvent.eventId) := by
  obtain ⟨batch, running, member⟩ := leases
  by_cases same : other = worker
  · subst same
    simp only [Function.update_self] at running
    obtain ⟨rfl, batchIds⟩ := claimedBatch_ids running
    exact .inr ⟨rfl, rfl, batchIds ▸ member⟩
  · simp only [Function.update_of_ne same] at running
    exact .inl ⟨same, batch, running, member⟩

theorem due_listed {events : List StripeWebhookEvent} {skipped : List String} {limit : Nat} {eventId : String}
    (member : eventId ∈ (dueEvents events skipped limit now).map StripeWebhookEvent.eventId) :
    ∃ stored ∈ events, stored.eventId = eventId ∧ stored.status ≠ .processed ∧
      stored.nextAttemptAt ≤ now := by
  obtain ⟨stored, due, rfl⟩ := List.mem_map.mp member
  obtain ⟨known, status, attempt⟩ := dueEvents_member due
  exact ⟨stored, known, rfl, status, attempt⟩

theorem claim_sound (sound : LeasesSound state) (idle : state.workers worker = .idle)
    {limit : Nat} {skipped : List String}
    (applied : apply host state (.claimDue worker limit now skipped) = some next) : LeasesSound next := by
  simp only [apply, idle, Option.some.injEq] at applied
  subst applied
  have listed : ∀ eventId ∈ (dueEvents state.tables.events skipped limit now).map
      StripeWebhookEvent.eventId, ∃ stored ∈ state.tables.events, stored.eventId = eventId ∧
        stored.status ≠ .processed ∧ stored.nextAttemptAt ≤ now := fun eventId => due_listed
  have distinct := dueEvents_nodup skipped limit now sound.distinct
  generalize dueEvents state.tables.events skipped limit now = due at listed distinct
  have ids := claimAll_ids now due state.tables
  refine ⟨ids ▸ sound.distinct, ?_, ?_, ?_, ?_, ?_⟩
  · intro eventId claimed
    refine ids ▸ ?_
    by_cases fresh : eventId ∈ due.map StripeWebhookEvent.eventId
    · obtain ⟨stored, known, rfl, -⟩ := listed eventId fresh
      exact List.mem_map_of_mem known
    · simp only [fresh, if_false] at claimed
      exact sound.known eventId claimed
  · intro other reading batch running
    by_cases same : other = worker
    · subst same
      simp only [Function.update_self] at running
      exact (claimedBatch_ids running).2 ▸ distinct
    · simp only [Function.update_of_ne same] at running
      exact sound.batch other reading batch running
  · intro other reading eventId leases
    by_cases fresh : eventId ∈ due.map StripeWebhookEvent.eventId
    · simp only [fresh, if_true]
      refine ⟨worker, now, rfl, ?_⟩
      rcases claimed_leases leases with ⟨-, old⟩ | ⟨rfl, rfl, -⟩
      · obtain ⟨stored, known, rfl, status, attempt⟩ := listed eventId fresh
        exact .inr (due_lapsed sound known status attempt old)
      · exact .inl ⟨rfl, rfl⟩
    · simp only [fresh, if_false]
      rcases claimed_leases leases with ⟨-, old⟩ | ⟨-, -, member⟩
      · exact sound.claimed other reading eventId old
      · exact absurd member fresh
  · intro stored member holder since claimed
    rcases claimAll_member member with ⟨fresh, -, lease⟩ | ⟨other, known⟩
    · simp only [fresh, if_true, Option.some.injEq, Prod.mk.injEq] at claimed
      refine .inr ?_
      rw [lease, ← claimed.2]
      exact Int.le_add_of_nonneg_right (by decide)
    · simp only [other, if_false] at claimed
      exact sound.later stored known holder since claimed
  · intro stored member holder since claimed leases
    rcases claimAll_member member with ⟨fresh, status, lease⟩ | ⟨other, known⟩
    · simp only [fresh, if_true, Option.some.injEq, Prod.mk.injEq] at claimed
      exact ⟨status, claimed.2 ▸ lease⟩
    · simp only [other, if_false] at claimed
      rcases claimed_leases leases with ⟨-, old⟩ | ⟨-, -, fresh⟩
      · exact sound.held stored known holder since claimed old
      · exact absurd fresh other

theorem enqueue_sound (sound : LeasesSound state) {new : NewStripeWebhookEvent}
    (applied : apply host state (.enqueue new now) = some next) : LeasesSound next := by
  simp only [apply] at applied
  split at applied
  · cases applied
    exact sound
  · next absent =>
    cases applied
    have fresh : ∀ stored ∈ state.tables.events, stored.eventId ≠ new.eventId := by
      simpa using absent
    have unclaimed : state.claims new.eventId = none := by
      by_contra claimed
      obtain ⟨stored, known, same⟩ := List.mem_map.mp (sound.known new.eventId claimed)
      exact fresh stored known same
    refine ⟨?_, ?_, sound.batch, sound.claimed, ?_, ?_⟩
    · rw [List.map_append, List.nodup_append]
      refine ⟨sound.distinct, List.nodup_singleton _, ?_⟩
      rintro eventId member other single rfl
      obtain ⟨stored, known, rfl⟩ := List.mem_map.mp member
      exact fresh stored known (List.mem_singleton.mp single)
    · intro eventId claimed
      rw [List.map_append]
      exact List.mem_append_left _ (sound.known eventId claimed)
    · intro stored member holder since claimed
      rcases List.mem_append.mp member with old | added
      · exact sound.later stored old holder since claimed
      · rw [List.mem_singleton.mp added] at claimed
        exact absurd (unclaimed.symm.trans claimed) (by simp)
    · intro stored member holder since claimed
      rcases List.mem_append.mp member with old | added
      · exact sound.held stored old holder since claimed
      · rw [List.mem_singleton.mp added] at claimed
        exact absurd (unclaimed.symm.trans claimed) (by simp)

theorem abort_sound (sound : LeasesSound state)
    (applied : apply host state (.abort worker) = some next) : LeasesSound next := by
  simp only [apply] at applied
  split at applied
  · cases applied
  · cases applied
    have before : ∀ other reading eventId, Leases
        { state with workers := Function.update state.workers worker .idle } other reading eventId →
          Leases state other reading eventId := by
      rintro other reading eventId ⟨batch, running, member⟩
      by_cases same : other = worker
      · subst same
        simp at running
      · exact ⟨batch, by simpa [Function.update_of_ne same] using running, member⟩
    refine ⟨sound.distinct, sound.known, ?_, ?_, sound.later, ?_⟩
    · intro other reading batch running
      by_cases same : other = worker
      · subst same
        simp at running
      · exact sound.batch other reading batch (by simpa [Function.update_of_ne same] using running)
    · exact fun other reading eventId leases => sound.claimed other reading eventId (before _ _ _ leases)
    · exact fun stored member holder since claimed leases =>
        sound.held stored member holder since claimed (before _ _ _ leases)

theorem mark_applied {step : InboxStep} {taken : Nat × Instant × StripeWebhookEvent}
    (marks : marking step state = some taken) (applied : apply host state step = some next) :
    ∃ events set, state.workers taken.1 = .processing taken.2.1 (taken.2.2 :: events) ∧
      next = { state with
        tables := updateEvent taken.2.2.eventId set state.tables
        workers := Function.update state.workers taken.1 (popped taken.2.1 events) } ∧
      (∀ stored, (set stored).eventId = stored.eventId) ∧
      ∀ stored, (set stored).status = .processed ∨ taken.2.1 ≤ (set stored).nextAttemptAt := by
  cases step with
  | enqueue | claimDue | abort => cases marks
  | markProcessed worker =>
      simp only [marking] at marks
      split at marks
      · next now event events busy =>
        cases marks
        simp only [apply, busy, Option.some.injEq] at applied
        exact ⟨events, _, busy, applied.symm, fun _ => rfl, fun _ => .inl rfl⟩
      · cases marks
  | markFailed worker error =>
      simp only [marking] at marks
      split at marks
      · next now event events busy =>
        cases marks
        simp only [apply, busy, Option.some.injEq] at applied
        refine ⟨events, _, busy, applied.symm, fun _ => rfl, fun _ => .inr ?_⟩
        exact Int.le_add_of_nonneg_right (Int.natCast_nonneg _)
      · cases marks

theorem step_sound {step : InboxStep} (sound : LeasesSound state)
    (unsurpassed : Unsurpassed state step) (applied : apply host state step = some next) :
    LeasesSound next := by
  cases marks : marking step state with
  | some taken =>
      obtain ⟨events, set, busy, rfl, keeps, later⟩ := mark_applied marks applied
      exact mark_sound sound busy (unsurpassed _ _ _ marks) keeps later
  | none =>
      cases step with
      | enqueue new now => exact enqueue_sound sound applied
      | claimDue worker limit now skipped =>
          have idle : state.workers worker = .idle := by
            cases running : state.workers worker with
            | idle => rfl
            | processing reading batch => simp [apply, running] at applied
          exact claim_sound sound idle applied
      | abort worker => exact abort_sound sound applied
      | markProcessed worker =>
          simp only [marking, apply] at marks applied
          split at applied
          · next running => simp [running] at marks
          · cases applied
      | markFailed worker error =>
          simp only [marking, apply] at marks applied
          split at applied
          · next running => simp [running] at marks
          · cases applied

end Steps

def play (host : Host) : List InboxStep → InboxState → Option InboxState
  | [], state => some state
  | step :: steps, state => (apply host state step).bind (play host steps)

theorem play_run {host : Host} {steps : List InboxStep} {first middle last : InboxState}
    (run : Run host (fun _ _ => True) first middle) (played : play host steps middle = some last) :
    Run host (fun _ _ => True) first last := by
  induction steps generalizing middle with
  | nil =>
      cases played
      exact run
  | cons step steps ih =>
      obtain ⟨between, applied, rest⟩ := Option.bind_eq_some_iff.mp played
      exact ih (.step step run trivial applied) rest

def sampleHost : Host where
  hashLicenseKey := id
  hashBinding binding := binding.deviceId
  hashUsageEventId := id
  normalizeIpAddress := some
  stripeRepo := true
  baseDelayMs := 1000
  maxDelayMs := 300000

def sampleState (steps : List InboxStep) : InboxState := (play sampleHost steps start).getD start

theorem sample_run {steps : List InboxStep} (possible : (play sampleHost steps start).isSome) :
    Run sampleHost (fun _ _ => True) start (sampleState steps) := by
  obtain ⟨state, played⟩ := Option.isSome_iff_exists.mp possible
  rw [sampleState, played]
  exact play_run (.refl start) played

end Keyzori.Inbox
