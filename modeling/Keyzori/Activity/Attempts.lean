import Keyzori.Domain.Entities
import Mathlib.Algebra.Ring.Int.Defs
import Mathlib.Data.List.Induction
import Mathlib.Data.List.Nodup

/-! The summary of access attempts. Counts are numbers of any kind with an addition and a
maximum, so that the rounding of large sums is the one of the numbers themselves. -/

namespace Keyzori

structure AttemptEvent where
  ip : Option String
  deviceId : Option String
  details : Json
  createdAt : Instant

inductive AttemptField
  | ip
  | deviceId

def AttemptField.read (row : AttemptEvent) : AttemptField → Option String
  | ip => row.ip
  | deviceId => row.deviceId

structure AccessAttemptIdentifier (Count : Type) where
  value : String
  attemptCount : Count
  firstAttemptedAt : Instant
  lastAttemptedAt : Instant

/-- The number that a text of JSON is, if it is an integer, and the instant that
`new Date` reads, if it is one. -/
structure DetailReaders (Count : Type) where
  integer : String → Option Count
  date : String → Option Instant

section Summary

variable {Count : Type} [Add Count] [Max Count] [One Count] (readers : DetailReaders Count)

def attemptCount (row : AttemptEvent) : Count :=
  match row.details.field "attemptCount" with
  | some (.number text) =>
      match readers.integer text with
      | some storedCount => max 1 storedCount
      | none => 1
  | _ => 1

def firstAttempt (row : AttemptEvent) : Instant :=
  match row.details.field "firstAttemptedAt" with
  | some (.string storedFirstAttempt) => (readers.date storedFirstAttempt).getD row.createdAt
  | _ => row.createdAt

def extendAttempt (row : AttemptEvent) (existing : AccessAttemptIdentifier Count) :
    AccessAttemptIdentifier Count :=
  { existing with
    attemptCount := existing.attemptCount + attemptCount readers row
    lastAttemptedAt := row.createdAt
    firstAttemptedAt := if firstAttempt readers row < existing.firstAttemptedAt then firstAttempt readers row
      else existing.firstAttemptedAt }

def newAttempt (row : AttemptEvent) (value : String) : AccessAttemptIdentifier Count :=
  ⟨value, attemptCount readers row, firstAttempt readers row, row.createdAt⟩

/-- One turn of the loop over the rows. The map keeps the order of insertion. -/
def addAttempt (field : AttemptField) (summaries : List (AccessAttemptIdentifier Count)) (row : AttemptEvent) :
    List (AccessAttemptIdentifier Count) :=
  match field.read row with
  | none => summaries
  | some value =>
      if value = "" then summaries
      else if summaries.any fun existing => existing.value = value then
        summaries.map fun existing => if existing.value = value then extendAttempt readers row existing else existing
      else summaries ++ [newAttempt readers row value]

def summarizeAttempts (rows : List AttemptEvent) (field : AttemptField) : List (AccessAttemptIdentifier Count) :=
  (rows.foldl (addAttempt readers field) []).mergeSort fun left right =>
    right.lastAttemptedAt ≤ left.lastAttemptedAt

end Summary

section Groups

variable {Count : Type} [Add Count] [Max Count] [One Count] (readers : DetailReaders Count)

def attemptGroup (rows : List AttemptEvent) (field : AttemptField) (value : String) : List AttemptEvent :=
  rows.filter fun row => field.read row = some value

def addedUp : List Count → Option Count
  | [] => none
  | first :: rest => some (rest.foldl (· + ·) first)

structure Summarizes (group : List AttemptEvent) (summary : AccessAttemptIdentifier Count) : Prop where
  counted : addedUp (group.map (attemptCount readers)) = some summary.attemptCount
  first : summary.firstAttemptedAt ∈ group.map (firstAttempt readers) ∧
    ∀ instant ∈ group.map (firstAttempt readers), summary.firstAttemptedAt ≤ instant
  last : (group.map AttemptEvent.createdAt).getLast? = some summary.lastAttemptedAt

variable {readers} {rows group : List AttemptEvent} {row : AttemptEvent} {field : AttemptField}
  {summary : AccessAttemptIdentifier Count} {summaries : List (AccessAttemptIdentifier Count)} {value : String}

omit [Max Count] [One Count] in
theorem addedUp_append {counts : List Count} {sum : Count} (added : addedUp counts = some sum) (count : Count) :
    addedUp (counts ++ [count]) = some (sum + count) := by
  cases counts with
  | nil => cases added
  | cons first rest =>
      obtain rfl := Option.some.inj added
      rw [List.cons_append, addedUp, List.foldl_append]
      rfl

theorem summarizes_extend (summarized : Summarizes readers group summary) (row : AttemptEvent) :
    Summarizes readers (group ++ [row]) (extendAttempt readers row summary) := by
  obtain ⟨counted, ⟨member, least⟩, last⟩ := summarized
  refine ⟨?_, ?_, ?_⟩
  · rw [List.map_append]
    exact addedUp_append counted _
  · simp only [List.map_append, List.map_singleton, List.mem_append, List.mem_singleton, extendAttempt]
    split
    · next earlier =>
      refine ⟨.inr rfl, ?_⟩
      rintro instant (old | rfl)
      · exact Int.le_trans (Int.le_of_lt earlier) (least instant old)
      · exact Int.le_refl _
    · next later =>
      refine ⟨.inl member, ?_⟩
      rintro instant (old | rfl)
      · exact least instant old
      · exact Int.not_lt.mp later
  · rw [List.map_append, List.map_singleton, List.getLast?_concat]
    rfl

theorem summarizes_new (row : AttemptEvent) (value : String) :
    Summarizes readers [row] (newAttempt readers row value) := by
  refine ⟨rfl, ⟨.head _, fun instant member => ?_⟩, rfl⟩
  rw [List.mem_singleton.mp member]
  exact Int.le_refl _

variable (readers) in
/-- The map after some rows: one entry for each value, each with its rows. -/
structure Grouped (rows : List AttemptEvent) (field : AttemptField)
    (summaries : List (AccessAttemptIdentifier Count)) : Prop where
  distinct : (summaries.map AccessAttemptIdentifier.value).Nodup
  values : ∀ value, value ∈ summaries.map AccessAttemptIdentifier.value ↔
    value ≠ "" ∧ attemptGroup rows field value ≠ []
  summarized : ∀ summary ∈ summaries, Summarizes readers (attemptGroup rows field summary.value) summary

theorem attemptGroup_append (value : String) : attemptGroup (rows ++ [row]) field value =
    attemptGroup rows field value ++ if field.read row = some value then [row] else [] := by
  rw [attemptGroup, List.filter_append]
  by_cases same : field.read row = some value <;> simp [same, attemptGroup]

theorem grouped_skip (grouped : Grouped readers rows field summaries)
    (absent : ∀ value, value ≠ "" → field.read row ≠ some value) :
    Grouped readers (rows ++ [row]) field summaries := by
  have same : ∀ value, value ≠ "" → attemptGroup (rows ++ [row]) field value = attemptGroup rows field value := by
    intro value filled
    rw [attemptGroup_append, if_neg (absent value filled), List.append_nil]
  refine ⟨grouped.distinct, fun value => ?_, fun summary member => ?_⟩
  · rw [grouped.values value]
    exact and_congr_right fun filled => by rw [same value filled]
  · have listed := (grouped.values summary.value).mp (List.mem_map.mpr ⟨summary, member, rfl⟩)
    rw [same summary.value listed.1]
    exact grouped.summarized summary member

theorem grouped_extend (grouped : Grouped readers rows field summaries) (read : field.read row = some value)
    (present : value ∈ summaries.map AccessAttemptIdentifier.value) :
    Grouped readers (rows ++ [row]) field (summaries.map fun existing =>
      if existing.value = value then extendAttempt readers row existing else existing) := by
  have values : (summaries.map fun existing =>
      if existing.value = value then extendAttempt readers row existing else existing).map
        AccessAttemptIdentifier.value = summaries.map AccessAttemptIdentifier.value := by
    rw [List.map_map]
    refine List.map_congr_left fun existing _ => ?_
    simp only [Function.comp]
    split <;> rfl
  refine ⟨values ▸ grouped.distinct, fun other => ?_, fun summary member => ?_⟩
  · rw [values, grouped.values other, attemptGroup_append]
    by_cases same : other = value
    · subst same
      have listed := (grouped.values other).mp present
      exact iff_of_true listed ⟨listed.1, by simp [read]⟩
    · have absent : field.read row ≠ some other := by
        rw [read]
        exact fun equal => same (Option.some.inj equal).symm
      rw [if_neg absent, List.append_nil]
  · obtain ⟨existing, listed, rfl⟩ := List.mem_map.mp member
    have old := grouped.summarized existing listed
    by_cases same : existing.value = value
    · rw [if_pos same]
      have kept : (extendAttempt readers row existing).value = value := same
      rw [kept, attemptGroup_append, if_pos read, ← same]
      exact summarizes_extend old row
    · have absent : field.read row ≠ some existing.value := by
        rw [read]
        exact fun equal => same (Option.some.inj equal).symm
      rw [if_neg same, attemptGroup_append, if_neg absent, List.append_nil]
      exact old

theorem grouped_new (grouped : Grouped readers rows field summaries) (read : field.read row = some value)
    (filled : value ≠ "") (missing : value ∉ summaries.map AccessAttemptIdentifier.value) :
    Grouped readers (rows ++ [row]) field (summaries ++ [newAttempt readers row value]) := by
  have empty : attemptGroup rows field value = [] := by
    by_contra some
    exact missing ((grouped.values value).mpr ⟨filled, some⟩)
  refine ⟨?_, fun other => ?_, fun summary member => ?_⟩
  · rw [List.map_append, List.map_singleton]
    exact List.nodup_append.mpr ⟨grouped.distinct, List.nodup_singleton _, fun one first two second same =>
      by
        have equal : one = value := same.trans (List.mem_singleton.mp second)
        exact missing (equal ▸ first)⟩
  · rw [List.map_append, List.mem_append, grouped.values other, attemptGroup_append]
    by_cases same : other = value
    · subst same
      exact iff_of_true (.inr (.head _)) ⟨filled, by simp [read]⟩
    · have absent : field.read row ≠ some other := by
        rw [read]
        exact fun equal => same (Option.some.inj equal).symm
      simp [absent, newAttempt, same]
  · rcases List.mem_append.mp member with listed | last
    · have other : summary.value ≠ value := fun same => missing (same ▸ List.mem_map.mpr ⟨summary, listed, rfl⟩)
      have absent : field.read row ≠ some summary.value := by
        rw [read]
        exact fun equal => other (Option.some.inj equal).symm
      rw [attemptGroup_append, if_neg absent, List.append_nil]
      exact grouped.summarized summary listed
    · rw [List.mem_singleton.mp last]
      have kept : (newAttempt readers row value).value = value := rfl
      rw [kept, attemptGroup_append, empty, if_pos read, List.nil_append]
      exact summarizes_new row value

theorem grouped_step (grouped : Grouped readers rows field summaries) (row : AttemptEvent) :
    Grouped readers (rows ++ [row]) field (addAttempt readers field summaries row) := by
  unfold addAttempt
  cases read : field.read row with
  | none => exact grouped_skip grouped fun value _ => by rw [read]; exact nofun
  | some value =>
      simp only
      by_cases filled : value = ""
      · rw [if_pos filled]
        refine grouped_skip grouped fun other some => ?_
        rw [read, filled]
        exact fun same => some (Option.some.inj same).symm
      · rw [if_neg filled]
        by_cases present : value ∈ summaries.map AccessAttemptIdentifier.value
        · rw [if_pos (by simpa using present)]
          exact grouped_extend grouped read present
        · rw [if_neg (by simpa using present)]
          exact grouped_new grouped read filled present

variable (readers) in
theorem grouped_all (rows : List AttemptEvent) (field : AttemptField) :
    Grouped readers rows field (rows.foldl (addAttempt readers field) []) := by
  induction rows using List.reverseRecOn with
  | nil => exact ⟨List.nodup_nil, fun value => by simp [attemptGroup], fun _ member => by cases member⟩
  | append_singleton rows row ih =>
      rw [List.foldl_append]
      exact grouped_step ih row

theorem group_latest (sorted : rows.Pairwise fun earlier later => earlier.createdAt ≤ later.createdAt)
    {latest : Instant} (last : ((attemptGroup rows field value).map AttemptEvent.createdAt).getLast? = some latest) :
    latest ∈ (attemptGroup rows field value).map AttemptEvent.createdAt ∧
      ∀ instant ∈ (attemptGroup rows field value).map AttemptEvent.createdAt, instant ≤ latest := by
  refine ⟨List.mem_of_getLast? last, ?_⟩
  have times : ((attemptGroup rows field value).map AttemptEvent.createdAt).Pairwise (· ≤ ·) :=
    List.pairwise_map.mpr (sorted.sublist List.filter_sublist)
  obtain ⟨before, same⟩ := List.getLast?_eq_some_iff.mp last
  rw [same] at times ⊢
  intro instant member
  rcases List.mem_append.mp member with early | here
  · exact (List.pairwise_append.mp times).2.2 instant early latest (.head _)
  · exact Int.le_of_eq (List.mem_singleton.mp here)

/-- The summary is the grouping by value: one entry for each that is not empty, with the
sum of the counts, the least first attempt and the latest row, the latest entry first. -/
theorem attempts_grouped (readers : DetailReaders Count) (rows : List AttemptEvent) (field : AttemptField)
    (sorted : rows.Pairwise fun earlier later => earlier.createdAt ≤ later.createdAt) :
    ((summarizeAttempts readers rows field).map AccessAttemptIdentifier.value).Nodup ∧
      (∀ value, value ∈ (summarizeAttempts readers rows field).map AccessAttemptIdentifier.value ↔
        value ≠ "" ∧ ∃ row ∈ rows, field.read row = some value) ∧
      (∀ summary ∈ summarizeAttempts readers rows field,
        let group := rows.filter fun row => field.read row = some summary.value
        addedUp (group.map (attemptCount readers)) = some summary.attemptCount ∧
          (summary.firstAttemptedAt ∈ group.map (firstAttempt readers) ∧
            ∀ instant ∈ group.map (firstAttempt readers), summary.firstAttemptedAt ≤ instant) ∧
          summary.lastAttemptedAt ∈ group.map AttemptEvent.createdAt ∧
            ∀ instant ∈ group.map AttemptEvent.createdAt, instant ≤ summary.lastAttemptedAt) ∧
      (summarizeAttempts readers rows field).Pairwise fun earlier later =>
        later.lastAttemptedAt ≤ earlier.lastAttemptedAt := by
  have grouped := grouped_all readers rows field
  have order : (summarizeAttempts readers rows field).Perm (rows.foldl (addAttempt readers field) []) :=
    List.mergeSort_perm _ _
  refine ⟨(order.map _).nodup_iff.mpr grouped.distinct, fun value => ?_, fun summary member => ?_, ?_⟩
  · rw [(order.map AccessAttemptIdentifier.value).mem_iff, grouped.values value]
    refine and_congr_right fun _ => ?_
    simp [attemptGroup, List.filter_eq_nil_iff]
  · obtain ⟨counted, first, last⟩ := grouped.summarized summary (order.mem_iff.mp member)
    obtain ⟨listed, latest⟩ := group_latest sorted last
    exact ⟨counted, first, listed, latest⟩
  · have ordered := @List.pairwise_mergeSort _ (fun left right : AccessAttemptIdentifier Count =>
      decide (right.lastAttemptedAt ≤ left.lastAttemptedAt))
      (fun one two three first second => decide_eq_true
        (Int.le_trans (of_decide_eq_true second) (of_decide_eq_true first)))
      (fun one two => by
        rw [Bool.or_eq_true, decide_eq_true_eq, decide_eq_true_eq]
        exact Int.le_total two.lastAttemptedAt one.lastAttemptedAt)
      (rows.foldl (addAttempt readers field) [])
    exact ordered.imp of_decide_eq_true

def attemptSample : List AttemptEvent := [
  ⟨some "192.0.2.1", none, .object [("attemptCount", .number "3"), ("firstAttemptedAt", .string "a day before")], 100⟩,
  ⟨some "192.0.2.2", some "", .object [], 200⟩,
  ⟨some "192.0.2.1", some "pc", .object [("attemptCount", .string "7")], 300⟩]

def sampleReaders : DetailReaders Int where
  integer text := text.toInt?
  date text := if text = "a day before" then some 20 else none

theorem attempts_grouped_sample :
    ((summarizeAttempts sampleReaders attemptSample .ip).map AccessAttemptIdentifier.value).Nodup ∧
      (∀ value, value ∈ (summarizeAttempts sampleReaders attemptSample .ip).map AccessAttemptIdentifier.value ↔
        value ≠ "" ∧ ∃ row ∈ attemptSample, AttemptField.ip.read row = some value) ∧
      (∀ summary ∈ summarizeAttempts sampleReaders attemptSample .ip,
        let group := attemptSample.filter fun row => AttemptField.ip.read row = some summary.value
        addedUp (group.map (attemptCount sampleReaders)) = some summary.attemptCount ∧
          (summary.firstAttemptedAt ∈ group.map (firstAttempt sampleReaders) ∧
            ∀ instant ∈ group.map (firstAttempt sampleReaders), summary.firstAttemptedAt ≤ instant) ∧
          summary.lastAttemptedAt ∈ group.map AttemptEvent.createdAt ∧
            ∀ instant ∈ group.map AttemptEvent.createdAt, instant ≤ summary.lastAttemptedAt) ∧
      (summarizeAttempts sampleReaders attemptSample .ip).Pairwise fun earlier later =>
        later.lastAttemptedAt ≤ earlier.lastAttemptedAt :=
  attempts_grouped sampleReaders attemptSample .ip (by decide)

end Groups

end Keyzori
