import Mathlib.Data.List.Nodup

namespace Counters

structure Table (κ : Type) where
  rows : List (κ × Nat)
  distinct : (rows.map Prod.fst).Nodup

variable {κ ε : Type} [DecidableEq κ]

def Table.empty : Table κ := ⟨[], List.nodup_nil⟩

/-- What the table says of a key; a missing row stands for zero. -/
def Table.count (table : Table κ) (key : κ) : Nat :=
  ((table.rows.find? fun row => row.1 = key).map Prod.snd).getD 0

def bump (key : κ) (row : κ × Nat) : κ × Nat := if row.1 = key then (row.1, row.2 + 1) else row

theorem bump_key (key : κ) (row : κ × Nat) : (bump key row).1 = row.1 := by
  unfold bump
  split <;> rfl

theorem keys_bump (key : κ) (rows : List (κ × Nat)) : (rows.map (bump key)).map Prod.fst = rows.map Prod.fst := by
  rw [List.map_map]
  exact List.map_congr_left fun row _ => bump_key key row

def Table.increment (table : Table κ) (key : κ) : Table κ :=
  if present : key ∈ table.rows.map Prod.fst then
    ⟨table.rows.map (bump key), by rw [keys_bump]; exact table.distinct⟩
  else
    ⟨table.rows ++ [(key, 1)], by
      rw [List.map_append]
      exact table.distinct.append (List.nodup_singleton key) (by simpa using present)⟩

def Table.discard (table : Table κ) (dropped : κ → Bool) : Table κ :=
  ⟨table.rows.filter fun row => !dropped row.1, table.distinct.sublist (List.filter_sublist.map _)⟩

def Table.incrementAll (table : Table κ) (keys : List κ) : Table κ := keys.foldl Table.increment table

@[simp] theorem count_empty (key : κ) : (Table.empty : Table κ).count key = 0 := rfl

theorem find_bump (key other : κ) (rows : List (κ × Nat)) :
    (rows.map (bump key)).find? (fun row => row.1 = other) =
      (rows.find? fun row => row.1 = other).map (bump key) := by
  have same : (fun row : κ × Nat => decide (row.1 = other)) ∘ bump key = fun row => decide (row.1 = other) := by
    funext row
    simp [bump_key]
  rw [List.find?_map, same]

theorem find_absent {key : κ} {rows : List (κ × Nat)} (absent : key ∉ rows.map Prod.fst) :
    rows.find? (fun row => row.1 = key) = none := by
  refine List.find?_eq_none.mpr fun row member same => absent ?_
  exact List.mem_map.mpr ⟨row, member, of_decide_eq_true same⟩

theorem find_present {key : κ} {rows : List (κ × Nat)} (present : key ∈ rows.map Prod.fst) :
    ∃ count, rows.find? (fun row => row.1 = key) = some (key, count) := by
  obtain ⟨row, member, same⟩ := List.mem_map.mp present
  cases found : rows.find? fun row => row.1 = key with
  | none => exact absurd (decide_eq_true same) (List.find?_eq_none.mp found row member)
  | some first =>
      have keyed := List.find?_some found
      rw [decide_eq_true_eq] at keyed
      exact ⟨first.2, by rw [← keyed]⟩

@[simp] theorem count_increment (table : Table κ) (key other : κ) :
    (table.increment key).count other = table.count other + if other = key then 1 else 0 := by
  unfold Table.increment
  split
  next present =>
    obtain ⟨count, found⟩ := find_present present
    simp only [Table.count, find_bump]
    by_cases same : other = key
    · subst same
      simp [found, bump]
    · cases row : table.rows.find? fun row => row.1 = other with
      | none => simp [same]
      | some first =>
          have keyed := List.find?_some row
          rw [decide_eq_true_eq] at keyed
          simp [bump, keyed, same]
  next absent =>
    simp only [Table.count, List.find?_append]
    by_cases same : other = key
    · subst same
      simp [find_absent absent]
    · have apart : ¬ key = other := fun equal => same equal.symm
      cases table.rows.find? fun row => row.1 = other <;> simp [same, apart]

@[simp] theorem count_discard (table : Table κ) (dropped : κ → Bool) (key : κ) :
    (table.discard dropped).count key = if dropped key then 0 else table.count key := by
  simp only [Table.count, Table.discard, List.find?_filter]
  by_cases drop : dropped key
  · have none : table.rows.find? (fun row => !dropped row.1 && decide (row.1 = key)) = none := by
      refine List.find?_eq_none.mpr fun row _ found => ?_
      obtain ⟨kept, same⟩ : dropped row.1 = false ∧ row.1 = key := by simpa using found
      rw [same, drop] at kept
      cases kept
    simp [none, drop]
  · have same : (fun row : κ × Nat => !dropped row.1 && decide (row.1 = key)) =
        fun row => decide (row.1 = key) := by
      funext row
      by_cases equal : row.1 = key
      · simp [equal, drop]
      · simp [equal]
    simp [same, drop]

theorem count_incrementAll (table : Table κ) (keys : List κ) (key : κ) :
    (table.incrementAll keys).count key = table.count key + keys.count key := by
  induction keys generalizing table with
  | nil => rfl
  | cons first rest counted =>
      have step := counted (table.increment first)
      rw [count_increment] at step
      change ((table.increment first).incrementAll rest).count key = _
      rw [step, List.count_cons]
      by_cases same : key = first
      · simp [same, Nat.add_assoc, Nat.add_comm]
      · have apart : ¬ first = key := fun equal => same equal.symm
        simp [same, apart]

/-- The table counts each of these events once under each of its keys, and nothing else. -/
def Counts (keys : ε → List κ) (table : Table κ) (events : List ε) : Prop :=
  ∀ key, table.count key = events.countP fun event => key ∈ keys event

variable {keys : ε → List κ} {table : Table κ} {events : List ε}

theorem counts_empty : Counts keys Table.empty [] := fun _ => rfl

theorem counts_record (counts : Counts keys table events) (event : ε) (distinct : (keys event).Nodup) :
    Counts keys (table.incrementAll (keys event)) (events ++ [event]) := by
  intro key
  rw [count_incrementAll, counts key, List.countP_append, List.countP_singleton]
  by_cases member : key ∈ keys event
  · simp [member, List.count_eq_one_of_mem distinct member]
  · simp [member, List.count_eq_zero_of_not_mem member]

/-- Where counters and events are dropped together, the table keeps counting just when no
event is kept under a dropped key and none is dropped from a kept one. -/
theorem counts_discard (counts : Counts keys table events) (dropped : κ → Bool) (kept : ε → Bool) :
    Counts keys (table.discard dropped) (events.filter kept) ↔
      ∀ event ∈ events, ∀ key ∈ keys event, kept event = !dropped key := by
  have single : ∀ key, (table.discard dropped).count key =
      (events.filter kept).countP (fun event => key ∈ keys event) ↔
        ∀ event ∈ events, key ∈ keys event → kept event = !dropped key := by
    intro key
    rw [count_discard, counts key, List.countP_filter]
    cases drop : dropped key with
    | true =>
        simp only [if_true, Bool.not_true]
        rw [eq_comm, List.countP_eq_zero]
        simp
    | false =>
        have swapped : (events.countP fun event => decide (key ∈ keys event) && kept event) =
            (events.filter fun event => key ∈ keys event).countP kept := by
          simp only [List.countP_filter, Bool.and_comm]
        simp only [Bool.false_eq_true, if_false, Bool.not_false]
        rw [swapped, List.countP_eq_length_filter, eq_comm, List.countP_eq_length]
        simp
  constructor
  · intro counted event member key keyed
    exact (single key).mp (counted key) event member keyed
  · intro all key
    exact (single key).mpr fun event member keyed => all event member key keyed

end Counters
