import Keyzori.Activity.Events
import Keyzori.Library.Counters
import Mathlib.Data.List.Induction

namespace Keyzori

inductive ActivityScope
  | global
  | customer
  | license
  deriving DecidableEq, Repr

structure TotalKey where
  scope : ActivityScope
  scopeId : String
  type : ActivityEventType
  deriving DecidableEq, Repr

structure BucketKey extends TotalKey where
  minute : Instant
  deriving DecidableEq, Repr

structure ActivityTables where
  events : List ActivityEvent
  totals : Counters.Table TotalKey
  minuteBuckets : Counters.Table BucketKey

def idScope (scope : ActivityScope) : Option String → List (ActivityScope × String)
  | some scopeId => if scopeId = "" then [] else [(scope, scopeId)]
  | none => []

def scopesForEvent (event : ActivityEvent) : List (ActivityScope × String) :=
  [(.global, "")] ++ idScope .customer event.customerId ++ idScope .license event.licenseId

/-- The start of the minute, as `setUTCSeconds(0, 0)` sets it. -/
def minuteOf (instant : Instant) : Instant := instant - instant % 60000

def totalKeys (event : ActivityEvent) : List TotalKey :=
  (scopesForEvent event).map fun scope => ⟨scope.1, scope.2, event.type⟩

def bucketKeys (event : ActivityEvent) : List BucketKey :=
  (totalKeys event).map fun key => ⟨key, minuteOf event.createdAt⟩

/-- The transaction of `record`. A detail row whose id is taken already undoes it. -/
def ActivityTables.record (tables : ActivityTables) (id : String) (now : Instant) (input : NewActivityEvent) :
    Option (ActivityEvent × ActivityTables) :=
  let event := input.recorded id now
  if event.type ≠ .licenseHeartbeat ∧ id ∈ tables.events.map ActivityEvent.id then none
  else some (event, {
    events := if event.type = .licenseHeartbeat then tables.events else tables.events ++ [event]
    totals := tables.totals.incrementAll (totalKeys event)
    minuteBuckets := tables.minuteBuckets.incrementAll (bucketKeys event) })

def ActivityTables.pruneBefore (tables : ActivityTables) (before : Instant) : Nat × ActivityTables :=
  let pruned : ActivityTables := { tables with
    events := tables.events.filter fun event => before ≤ event.createdAt
    minuteBuckets := tables.minuteBuckets.discard fun key => key.minute < before }
  (tables.events.length - pruned.events.length +
    (tables.minuteBuckets.rows.length - pruned.minuteBuckets.rows.length), pruned)

def ActivityTables.pruneExpiredActivity (tables : ActivityTables) (retentionDays : Number) (now : Instant) :
    Except String (Nat × ActivityTables) :=
  match retentionDays with
  | .integer days =>
      if days < 1 then .error "Activity retention days must be a positive integer."
      else .ok (tables.pruneBefore (now - days * 24 * 60 * 60 * 1000))
  | .other => .error "Activity retention days must be a positive integer."

def ActivityEvent.inScope (event : ActivityEvent) (scopeId : String) : ActivityScope → Prop
  | .global => scopeId = ""
  | .customer => scopeId ≠ "" ∧ event.customerId = some scopeId
  | .license => scopeId ≠ "" ∧ event.licenseId = some scopeId

instance (event : ActivityEvent) (scopeId : String) (scope : ActivityScope) :
    Decidable (event.inScope scopeId scope) :=
  match scope with
  | .global => inferInstanceAs (Decidable (scopeId = ""))
  | .customer => inferInstanceAs (Decidable (scopeId ≠ "" ∧ event.customerId = some scopeId))
  | .license => inferInstanceAs (Decidable (scopeId ≠ "" ∧ event.licenseId = some scopeId))

theorem mem_idScope {scope found : ActivityScope} {id : Option String} {scopeId : String} :
    (found, scopeId) ∈ idScope scope id ↔ found = scope ∧ scopeId ≠ "" ∧ id = some scopeId := by
  cases id with
  | none => simp [idScope]
  | some value =>
      by_cases empty : value = ""
      · subst empty
        simp only [idScope, if_true, List.not_mem_nil, Option.some.injEq, false_iff]
        rintro ⟨-, filled, same⟩
        exact filled same.symm
      · simp only [idScope, if_neg empty, List.mem_singleton, Prod.mk.injEq, Option.some.injEq]
        constructor
        · rintro ⟨rfl, rfl⟩
          exact ⟨rfl, empty, rfl⟩
        · rintro ⟨rfl, -, rfl⟩
          exact ⟨rfl, rfl⟩

theorem mem_scopesForEvent {event : ActivityEvent} {scope : ActivityScope} {scopeId : String} :
    (scope, scopeId) ∈ scopesForEvent event ↔ event.inScope scopeId scope := by
  simp only [scopesForEvent, List.mem_append, List.mem_singleton, mem_idScope, Prod.mk.injEq]
  cases scope <;> simp [ActivityEvent.inScope]

theorem scopesForEvent_nodup (event : ActivityEvent) : (scopesForEvent event).Nodup := by
  have single : ∀ (scope : ActivityScope) (id : Option String), (idScope scope id).Nodup := by
    intro scope id
    cases id with
    | none => exact List.nodup_nil
    | some value =>
        rw [idScope]
        split
        · exact List.nodup_nil
        · exact List.nodup_singleton _
  rw [scopesForEvent, List.nodup_append', List.nodup_append']
  refine ⟨⟨List.nodup_singleton _, single _ _, ?_⟩, single _ _, ?_⟩
  · rintro ⟨scope, scopeId⟩ first second
    obtain ⟨rfl, -⟩ := mem_idScope.mp second
    cases List.mem_singleton.mp first
  · rintro ⟨scope, scopeId⟩ first second
    obtain ⟨rfl, -⟩ := mem_idScope.mp second
    rcases List.mem_append.mp first with first | first
    · cases List.mem_singleton.mp first
    · cases (mem_idScope.mp first).1

theorem mem_totalKeys {event : ActivityEvent} {key : TotalKey} :
    key ∈ totalKeys event ↔ event.type = key.type ∧ event.inScope key.scopeId key.scope := by
  rw [totalKeys, List.mem_map, ← mem_scopesForEvent]
  constructor
  · rintro ⟨scope, member, rfl⟩
    exact ⟨rfl, member⟩
  · rintro ⟨same, member⟩
    exact ⟨_, member, by rw [same]⟩

theorem mem_bucketKeys {event : ActivityEvent} {key : BucketKey} :
    key ∈ bucketKeys event ↔ minuteOf event.createdAt = key.minute ∧ event.type = key.type ∧
      event.inScope key.scopeId key.scope := by
  rw [bucketKeys, List.mem_map, ← mem_totalKeys]
  constructor
  · rintro ⟨total, member, rfl⟩
    exact ⟨rfl, member⟩
  · rintro ⟨same, member⟩
    exact ⟨_, member, by rw [same]⟩

theorem totalKeys_nodup (event : ActivityEvent) : (totalKeys event).Nodup := by
  refine (scopesForEvent_nodup event).map fun one other same => ?_
  rw [TotalKey.mk.injEq] at same
  exact Prod.ext same.1 same.2.1

theorem bucketKeys_nodup (event : ActivityEvent) : (bucketKeys event).Nodup :=
  (totalKeys_nodup event).map fun _ _ same => (BucketKey.mk.injEq .. ▸ same).1

/-- The tables beside the events that were ever recorded, and those that no cutoff has
passed since they were. -/
structure ActivityHistory where
  tables : ActivityTables
  recorded : List ActivityEvent
  live : List ActivityEvent

inductive ActivityStep
  | record (id : String) (now : Instant) (input : NewActivityEvent)
  | pruneBefore (before : Instant)

def ActivityHistory.step (history : ActivityHistory) : ActivityStep → ActivityHistory
  | .record id now input =>
      match history.tables.record id now input with
      | some (event, tables) => ⟨tables, history.recorded ++ [event], history.live ++ [event]⟩
      | none => history
  | .pruneBefore before =>
      { history with
        tables := (history.tables.pruneBefore before).2
        live := history.live.filter fun event => before ≤ event.createdAt }

def activityRun (steps : List ActivityStep) : ActivityHistory :=
  steps.foldl ActivityHistory.step ⟨⟨[], .empty, .empty⟩, [], []⟩

/-- Totals count what was ever recorded, and buckets what no cutoff has passed; so they
count at least the details that are still there. -/
structure CountsAgree (history : ActivityHistory) : Prop where
  totals : ∀ scope scopeId type, history.tables.totals.count ⟨scope, scopeId, type⟩ =
    history.recorded.countP fun event => event.type = type ∧ event.inScope scopeId scope
  buckets : ∀ minute scope scopeId type,
    history.tables.minuteBuckets.count ⟨⟨scope, scopeId, type⟩, minute⟩ =
      history.live.countP fun event =>
        minuteOf event.createdAt = minute ∧ event.type = type ∧ event.inScope scopeId scope
  retained : ∀ minute scope scopeId type,
    (history.tables.events.countP fun event =>
      minuteOf event.createdAt = minute ∧ event.type = type ∧ event.inScope scopeId scope) ≤
      history.tables.minuteBuckets.count ⟨⟨scope, scopeId, type⟩, minute⟩

/-- No event that is not passed lies in a minute that began before the cutoff. -/
def MinuteWhole (live : List ActivityEvent) (before : Instant) : Prop :=
  ∀ event ∈ live, minuteOf event.createdAt < before → event.createdAt < before

instance (live : List ActivityEvent) (before : Instant) : Decidable (MinuteWhole live before) :=
  inferInstanceAs (Decidable (∀ event ∈ live, minuteOf event.createdAt < before → event.createdAt < before))

structure DetailsKept (history : ActivityHistory) : Prop where
  totals : Counters.Counts totalKeys history.tables.totals history.recorded
  events : history.tables.events = history.live.filter fun event => event.type ≠ .licenseHeartbeat

def Bucketed (history : ActivityHistory) : Prop :=
  Counters.Counts bucketKeys history.tables.minuteBuckets history.live

variable {history : ActivityHistory}

theorem record_cases (id : String) (now : Instant) (input : NewActivityEvent) :
    history.step (.record id now input) = history ∨
      ∃ event, history.step (.record id now input) =
        ⟨⟨if event.type = .licenseHeartbeat then history.tables.events else history.tables.events ++ [event],
          history.tables.totals.incrementAll (totalKeys event),
          history.tables.minuteBuckets.incrementAll (bucketKeys event)⟩,
          history.recorded ++ [event], history.live ++ [event]⟩ := by
  by_cases taken : (input.recorded id now).type ≠ .licenseHeartbeat ∧
      id ∈ history.tables.events.map ActivityEvent.id
  · left
    simp [ActivityHistory.step, ActivityTables.record, taken]
  · right
    refine ⟨input.recorded id now, ?_⟩
    simp only [ActivityHistory.step, ActivityTables.record, if_neg taken]

theorem detailsKept_step (kept : DetailsKept history) (step : ActivityStep) : DetailsKept (history.step step) := by
  cases step with
  | record id now input =>
      rcases @record_cases history id now input with same | ⟨event, after⟩
      · rw [same]
        exact kept
      · rw [after]
        refine ⟨Counters.counts_record kept.totals event (totalKeys_nodup event), ?_⟩
        by_cases heartbeat : event.type = .licenseHeartbeat <;>
          simp [heartbeat, kept.events, List.filter_append]
  | pruneBefore before =>
      refine ⟨kept.totals, ?_⟩
      simp only [ActivityHistory.step, ActivityTables.pruneBefore, kept.events, List.filter_filter,
        Bool.and_comm]

theorem countsAgree_iff (kept : DetailsKept history) : CountsAgree history ↔ Bucketed history := by
  constructor
  · intro agree key
    rw [agree.buckets key.minute key.scope key.scopeId key.type]
    exact List.countP_congr fun event _ => by simp [mem_bucketKeys]
  · intro bucketed
    have counted : ∀ minute scope scopeId type,
        history.tables.minuteBuckets.count ⟨⟨scope, scopeId, type⟩, minute⟩ =
          history.live.countP fun event =>
            minuteOf event.createdAt = minute ∧ event.type = type ∧ event.inScope scopeId scope := by
      intro minute scope scopeId type
      rw [bucketed]
      exact List.countP_congr fun event _ => by simp [mem_bucketKeys]
    refine ⟨fun scope scopeId type => ?_, counted, fun minute scope scopeId type => ?_⟩
    · rw [kept.totals]
      exact List.countP_congr fun event _ => by simp [mem_totalKeys]
    · rw [counted, kept.events]
      exact List.filter_sublist.countP_le

theorem minuteOf_le (instant : Instant) : minuteOf instant ≤ instant := by
  have part : 0 ≤ (instant : Int) % 60000 := Int.emod_nonneg _ (by decide)
  exact Int.sub_le_self _ part

theorem bucketed_prune (bucketed : Bucketed history) (before : Instant) :
    Bucketed (history.step (.pruneBefore before)) ↔ MinuteWhole history.live before := by
  refine (Counters.counts_discard bucketed _ _).trans ?_
  constructor
  · intro all event member early
    have global : (⟨⟨.global, "", event.type⟩, minuteOf event.createdAt⟩ : BucketKey) ∈ bucketKeys event :=
      mem_bucketKeys.mpr ⟨rfl, rfl, rfl⟩
    have dropped := all event member _ global
    simpa [early] using dropped
  · intro whole event member key keyed
    obtain ⟨same, -, -⟩ := mem_bucketKeys.mp keyed
    rw [← same]
    by_cases early : minuteOf event.createdAt < before
    · simp [early, whole event member early]
    · have late : before ≤ event.createdAt :=
        Int.le_trans (Int.not_lt.mp early) (minuteOf_le event.createdAt)
      simp [early, late]

theorem bucketed_record (bucketed : Bucketed history) (id : String) (now : Instant) (input : NewActivityEvent) :
    Bucketed (history.step (.record id now input)) := by
  rcases @record_cases history id now input with same | ⟨event, after⟩
  · rw [same]
    exact bucketed
  · rw [after]
    exact Counters.counts_record bucketed event (bucketKeys_nodup event)

theorem activityRun_append (steps : List ActivityStep) (step : ActivityStep) :
    activityRun (steps ++ [step]) = (activityRun steps).step step := by
  rw [activityRun, List.foldl_append]
  rfl

theorem detailsKept_run (steps : List ActivityStep) : DetailsKept (activityRun steps) := by
  induction steps using List.reverseRecOn with
  | nil => exact ⟨Counters.counts_empty, rfl⟩
  | append_singleton steps step kept =>
      rw [activityRun_append]
      exact detailsKept_step kept step

theorem bucketed_run {steps : List ActivityStep}
    (whole : ∀ reached before, reached ++ [.pruneBefore before] <+: steps →
      MinuteWhole (activityRun reached).live before) : Bucketed (activityRun steps) := by
  induction steps using List.reverseRecOn with
  | nil => exact Counters.counts_empty
  | append_singleton steps step bucketed =>
      have earlier := bucketed fun reached before part =>
        whole reached before (part.trans (List.prefix_append steps [step]))
      rw [activityRun_append]
      cases step with
      | record id now input => exact bucketed_record earlier id now input
      | pruneBefore before =>
          exact (bucketed_prune earlier before).mpr (whole steps before (List.prefix_refl _))

/-- Totals, buckets and details agree in every state of a run just when no prune of it cuts
a minute apart that still has events. -/
theorem activity_counted (steps : List ActivityStep) :
    (∀ reached, reached <+: steps → CountsAgree (activityRun reached)) ↔
      ∀ reached before, reached ++ [.pruneBefore before] <+: steps →
        MinuteWhole (activityRun reached).live before := by
  constructor
  · intro agree reached before part
    have earlier := (countsAgree_iff (detailsKept_run reached)).mp
      (agree reached ((List.prefix_append reached _).trans part))
    have later := (countsAgree_iff (detailsKept_run _)).mp (agree _ part)
    rw [activityRun_append] at later
    exact (bucketed_prune earlier before).mp later
  · intro whole reached part
    refine (countsAgree_iff (detailsKept_run reached)).mpr (bucketed_run ?_)
    exact fun earlier before inside => whole earlier before (inside.trans part)

theorem minuteWhole_boundary {before : Instant} (boundary : before % 60000 = 0) (live : List ActivityEvent) :
    MinuteWhole live before := by
  have whole : ∀ instant cutoff : Int, cutoff % 60000 = 0 → instant - instant % 60000 < cutoff →
      instant < cutoff := by omega
  exact fun event _ early => whole event.createdAt before boundary early

/-- The retention of the service cuts no minute apart when it runs at the start of one. -/
theorem pruneExpiredActivity_whole {tables : ActivityTables} {retentionDays : Number} {now : Instant}
    {result : Nat × ActivityTables} (start : now % 60000 = 0)
    (pruned : tables.pruneExpiredActivity retentionDays now = .ok result) :
    ∃ before, result = tables.pruneBefore before ∧ ∀ live, MinuteWhole live before := by
  cases retentionDays with
  | other => cases pruned
  | integer days =>
      rw [ActivityTables.pruneExpiredActivity] at pruned
      split at pruned
      · cases pruned
      · have boundary : ∀ instant : Int, instant % 60000 = 0 →
            (instant - days * 24 * 60 * 60 * 1000) % 60000 = 0 := by omega
        exact ⟨_, (Except.ok.inj pruned).symm, minuteWhole_boundary (boundary now start)⟩

/-- A use late in a minute, and a prune whose cutoff lies earlier in that minute: the
detail row stays, and its count goes. -/
def cutMinute : List ActivityStep := [
  .record "event" 90000 { type := .usageConsumed, source := .client, licenseId := some "license" },
  .pruneBefore 75000]

theorem cutoff_drops_counts :
    ¬ ∀ reached, reached <+: cutMinute → CountsAgree (activityRun reached) := by
  intro agree
  have counted := (agree cutMinute (List.prefix_refl _)).retained 60000 .license "license" .usageConsumed
  revert counted
  decide

end Keyzori
