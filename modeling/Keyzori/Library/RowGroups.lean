import Mathlib.Data.List.Dedup
import Mathlib.Data.List.MinMax

namespace RowGroups

variable {α κ ω : Type} [DecidableEq κ] [LinearOrder ω]

/-- The place of a row in its group, from one on. -/
def rank (key : α → κ) (order : α → ω) (rows : List α) (row : α) : Nat :=
  1 + rows.countP fun other => key other = key row ∧ order other < order row

def leaders (key : α → κ) (order : α → ω) (rows : List α) : List α :=
  rows.filter fun row => rank key order rows row = 1

def groups (key : α → κ) (rows : List α) : List (κ × List α) :=
  (rows.map key).dedup.map fun found => (found, rows.filter fun row => key row = found)

variable {key : α → κ} {order : α → ω} {rows : List α} {row : α}

theorem mem_leaders : row ∈ leaders key order rows ↔
    row ∈ rows ∧ ∀ other ∈ rows, key other = key row → order row ≤ order other := by
  simp [leaders, rank, List.countP_eq_zero]

theorem leaders_member (leader : row ∈ leaders key order rows) : row ∈ rows :=
  (mem_leaders.mp leader).1

theorem leaders_sublist : (leaders key order rows).Sublist rows := List.filter_sublist

/-- A group has one first row if no two rows are at one place of the order. -/
theorem leaders_distinct (distinct : (rows.map order).Nodup) : ((leaders key order rows).map key).Nodup := by
  refine List.Nodup.map_on ?_ (distinct.of_map.sublist leaders_sublist)
  intro one first other second same
  obtain ⟨member, least⟩ := mem_leaders.mp first
  obtain ⟨listed, smallest⟩ := mem_leaders.mp second
  exact List.inj_on_of_nodup_map distinct member listed
    (le_antisymm (least other listed same.symm) (smallest one member same))

theorem leaders_cover (member : row ∈ rows) : ∃ leader ∈ leaders key order rows, key leader = key row := by
  let group := rows.filter fun other => key other = key row
  have listed : row ∈ group := by simp [group, member]
  obtain ⟨leader, least⟩ : ∃ leader, leader ∈ group.argmin order := by
    cases found : group.argmin order with
    | none =>
        rw [List.argmin_eq_none.mp found] at listed
        cases listed
    | some leader => exact ⟨leader, rfl⟩
  have inside := List.mem_filter.mp (List.argmin_mem least)
  have same : key leader = key row := of_decide_eq_true inside.2
  refine ⟨leader, mem_leaders.mpr ⟨inside.1, fun other listed equal => ?_⟩, same⟩
  exact List.le_of_mem_argmin (List.mem_filter.mpr ⟨listed, decide_eq_true (equal.trans same)⟩) least

theorem rank_pos : 0 < rank key order rows row := Nat.lt_of_lt_of_le Nat.one_pos (Nat.le_add_right 1 _)

theorem leaders_deleted {ι : Type} [DecidableEq ι] {id : α → ι} (distinct : (rows.map id).Nodup) :
    (rows.filter fun row => id row ∉ (rows.filter fun other => rank key order rows other > 1).map id) =
      leaders key order rows := by
  refine List.filter_congr fun row member => ?_
  rw [decide_eq_decide, List.mem_map]
  have positive : 0 < rank key order rows row := rank_pos
  constructor
  · intro kept
    by_contra other
    exact kept ⟨row, List.mem_filter.mpr ⟨member, decide_eq_true (by omega)⟩, rfl⟩
  · rintro first ⟨other, listed, same⟩
    obtain ⟨listed, later⟩ := List.mem_filter.mp listed
    rw [List.inj_on_of_nodup_map distinct listed member same] at later
    exact absurd (of_decide_eq_true later) (by omega)

theorem leaders_keys {found : κ} : found ∈ (leaders key order rows).map key ↔ found ∈ rows.map key := by
  simp only [List.mem_map]
  constructor
  · rintro ⟨leader, first, rfl⟩
    exact ⟨leader, leaders_member first, rfl⟩
  · rintro ⟨row, member, rfl⟩
    exact leaders_cover member

theorem groups_keys : (groups key rows).map Prod.fst = (rows.map key).dedup := by
  simp [groups, Function.comp_def]

theorem mem_groups {found : κ} {members : List α} : (found, members) ∈ groups key rows ↔
    found ∈ rows.map key ∧ members = rows.filter fun row => key row = found := by
  simp only [groups, List.mem_map, List.mem_dedup, Prod.mk.injEq]
  constructor
  · rintro ⟨_, member, rfl, rfl⟩
    exact ⟨member, rfl⟩
  · rintro ⟨member, rfl⟩
    exact ⟨found, member, rfl, rfl⟩

theorem mem_groups_map {β : Type} {result : κ × List α → β} {found : β} :
    found ∈ (groups key rows).map result ↔ ∃ shared, (rows.filter fun row => key row = shared) ≠ [] ∧
      result (shared, rows.filter fun row => key row = shared) = found := by
  simp only [List.mem_map, Prod.exists, mem_groups]
  constructor
  · rintro ⟨shared, _, ⟨⟨row, member, same⟩, rfl⟩, rfl⟩
    exact ⟨shared, List.ne_nil_of_mem (List.mem_filter.mpr ⟨member, decide_eq_true same⟩), rfl⟩
  · rintro ⟨shared, some, rfl⟩
    obtain ⟨row, listed⟩ := List.exists_mem_of_ne_nil _ some
    obtain ⟨member, same⟩ := List.mem_filter.mp listed
    exact ⟨shared, _, ⟨⟨row, member, of_decide_eq_true same⟩, rfl⟩, rfl⟩

section Joins

variable {β : Type} {id : β → κ} {others : List β} {other : β}

def join (key : α → κ) (id : β → κ) (rows : List α) (others : List β) : List (α × β) :=
  rows.flatMap fun row => (others.filter fun other => id other = key row).map fun other => (row, other)

theorem mem_join : (row, other) ∈ join key id rows others ↔
    row ∈ rows ∧ other ∈ others ∧ id other = key row := by
  simp only [join, List.mem_flatMap, List.mem_map, List.mem_filter, decide_eq_true_eq, Prod.mk.injEq]
  constructor
  · rintro ⟨_, member, _, ⟨listed, same⟩, rfl, rfl⟩
    exact ⟨member, listed, same⟩
  · rintro ⟨member, listed, same⟩
    exact ⟨row, member, other, ⟨listed, same⟩, rfl, rfl⟩

theorem filter_id (distinct : (others.map id).Nodup) (member : other ∈ others) :
    (others.filter fun found => id found = id other) = [other] := by
  have single : ∀ found, found ∈ others.filter (fun found => id found = id other) ↔ found = other := by
    intro found
    rw [List.mem_filter, decide_eq_true_eq]
    constructor
    · rintro ⟨listed, same⟩
      exact List.inj_on_of_nodup_map distinct listed member same
    · rintro rfl
      exact ⟨member, rfl⟩
  exact List.perm_singleton.mp ((List.perm_ext_iff_of_nodup (distinct.of_map.filter _)
    (List.nodup_singleton other)).mpr fun found => (single found).trans List.mem_singleton.symm)

theorem join_fst (distinct : (others.map id).Nodup) (named : ∀ row ∈ rows, key row ∈ others.map id) :
    (join key id rows others).map Prod.fst = rows := by
  induction rows with
  | nil => rfl
  | cons row rows ih =>
      obtain ⟨other, member, same⟩ := List.mem_map.mp (named row (.head _))
      have found : (others.filter fun other => id other = key row) = [other] := by
        rw [← same]
        exact filter_id distinct member
      have rest := ih fun later member => named later (.tail _ member)
      rw [join, List.flatMap_cons, found, List.map_append]
      exact congrArg (row :: ·) rest

theorem join_filter_fst (distinct : (others.map id).Nodup) (named : ∀ row ∈ rows, key row ∈ others.map id)
    (keep : α → β → Bool) :
    ((join key id rows others).filter fun pair => keep pair.1 pair.2).map Prod.fst =
      rows.filter fun row => others.any fun other => id other = key row && keep row other := by
  have same : ∀ pair ∈ join key id rows others, keep pair.1 pair.2 =
      others.any fun other => id other = key pair.1 && keep pair.1 other := by
    intro pair member
    obtain ⟨-, listed, found⟩ := mem_join.mp member
    have only : (others.filter fun other => id other = key pair.1) = [pair.2] := by
      rw [← found]
      exact filter_id distinct listed
    rw [← List.any_filter, only, List.any_cons, List.any_nil, Bool.or_false]
  have joined := @join_fst _ _ _ key rows _ id others distinct named
  calc
    _ = (((join key id rows others).map Prod.fst).filter fun row =>
        others.any fun other => id other = key row && keep row other) := by
      rw [List.filter_congr same, List.filter_map]
      rfl
    _ = _ := by rw [joined]

theorem mapM_ok {ε : Type} {query : α → Except ε β} {result : α → β}
    (each : ∀ row ∈ rows, query row = .ok (result row)) : rows.mapM query = .ok (rows.map result) := by
  induction rows with
  | nil => rfl
  | cons row rows ih =>
      rw [List.mapM_cons, each row (.head _), ih fun later member => each later (.tail _ member)]
      rfl

end Joins

end RowGroups
