import Keyzori.Server.System
import Mathlib.Data.List.Induction

namespace Keyzori

open Interleaving

abbrev ServerDeed := Deed Act Act.Val Failure

abbrev ServerTrace := Trace Act Act.Val Failure

def Act.ends : Act → Bool
  | commit _ _ _ | finish | rollback => true
  | _ => false

def Act.quiet : Act → Bool
  | draw | licenseKey | licenseId | capture _ | query _ | findLicense _ => true
  | _ => false

def Lock.advisory : Lock → Bool
  | registration _ | stripe _ | meter _ => true
  | row _ | link _ => false

def takes : ServerDeed → Option Lock
  | ⟨.lock lock, .ok _⟩ => if lock.advisory then some lock else none
  | ⟨.lockRow id, .ok (some _)⟩ => some (.row id)
  | ⟨.lockLink id _, .ok (some _)⟩ => some (.link id)
  | _ => none

/-- The deeds of the transaction that the trace leaves open. -/
def current (trace : ServerTrace) : ServerTrace :=
  trace.foldl (fun deeds deed => if deed.act.ends then [] else deeds ++ [deed]) []

section Facts

variable (trace : ServerTrace)

def Took (act : Act) (value : act.Val) : Prop := ⟨act, .ok value⟩ ∈ trace

def Within (act : Act) (value : act.Val) : Prop := ⟨act, .ok value⟩ ∈ current trace

def Holding (lock : Lock) : Prop := ∃ deed ∈ current trace, takes deed = some lock

def Under (lock : Lock) (act : Act) (value : act.Val) : Prop :=
  ∃ before after, current trace = before ++ after ∧
    (∃ deed ∈ before, takes deed = some lock) ∧ ⟨act, .ok value⟩ ∈ after

def Uncommitted : Prop := ∀ id expected writes rows, ¬Took trace (.commit id expected writes) rows

/-- No transaction with locks is open. -/
def Idle : Prop := ∀ lock, ¬Holding trace lock

def InOrder (first second : ServerDeed) : Prop :=
  ∃ before after, trace = before ++ first :: after ∧ second ∈ after

end Facts

section Append

variable {trace : ServerTrace} {deed : ServerDeed} {act : Act} {value : act.Val} {lock : Lock}

theorem idle_nil : Idle [] := by
  rintro lock ⟨deed, member, -⟩
  cases member

theorem current_append : current (trace ++ [deed]) =
    if deed.act.ends then [] else current trace ++ [deed] := by
  simp [current, List.foldl_append]

theorem took_append : Took (trace ++ [deed]) act value ↔
    Took trace act value ∨ deed = ⟨act, .ok value⟩ := by
  simp [Took, eq_comm]

theorem within_append : Within (trace ++ [deed]) act value ↔
    deed.act.ends = false ∧ (Within trace act value ∨ deed = ⟨act, .ok value⟩) := by
  rw [Within, current_append]
  cases ended : deed.act.ends <;> simp [Within, eq_comm]

theorem holding_append : Holding (trace ++ [deed]) lock ↔
    deed.act.ends = false ∧ (Holding trace lock ∨ takes deed = some lock) := by
  rw [Holding, current_append]
  cases ended : deed.act.ends
  · simp only [Bool.false_eq_true, if_false, List.mem_append, List.mem_singleton, true_and]
    constructor
    · rintro ⟨other, old | rfl, taken⟩
      · exact .inl ⟨other, old, taken⟩
      · exact .inr taken
    · rintro (⟨other, old, taken⟩ | taken)
      · exact ⟨other, .inl old, taken⟩
      · exact ⟨deed, .inr rfl, taken⟩
  · simp

theorem under_append : Under (trace ++ [deed]) lock act value ↔
    deed.act.ends = false ∧
      (Under trace lock act value ∨ Holding trace lock ∧ deed = ⟨act, .ok value⟩) := by
  rw [Under, current_append]
  cases ended : deed.act.ends
  · simp only [Bool.false_eq_true, if_false, true_and]
    constructor
    · rintro ⟨before, after, shape, ⟨taker, early, taken⟩, late⟩
      rcases List.eq_nil_or_concat after with rfl | ⟨others, last, rfl⟩
      · cases late
      · rw [List.concat_eq_append, ← List.append_assoc] at shape
        rw [List.concat_eq_append] at late
        obtain ⟨same, single⟩ := List.append_inj' shape rfl
        obtain rfl := List.singleton_inj.mp single
        rcases List.mem_append.mp late with old | new
        · exact .inl ⟨before, others, same, ⟨taker, early, taken⟩, old⟩
        · refine .inr ⟨⟨taker, ?_, taken⟩, (List.mem_singleton.mp new).symm⟩
          rw [same]
          exact List.mem_append_left _ early
    · rintro (⟨before, after, shape, held, late⟩ | ⟨held, rfl⟩)
      · exact ⟨before, after ++ [deed], by rw [shape, List.append_assoc], held,
          List.mem_append_left _ late⟩
      · exact ⟨current trace, [_], rfl, held, .head _⟩
  · simp

theorem inOrder_append {first second : ServerDeed} : InOrder (trace ++ [deed]) first second ↔
    InOrder trace first second ∨ first ∈ trace ∧ deed = second := by
  constructor
  · rintro ⟨before, after, shape, late⟩
    rcases List.eq_nil_or_concat after with rfl | ⟨others, last, rfl⟩
    · cases late
    · rw [List.concat_eq_append, ← List.cons_append, ← List.append_assoc] at shape
      rw [List.concat_eq_append] at late
      obtain ⟨same, single⟩ := List.append_inj' shape rfl
      obtain rfl := List.singleton_inj.mp single
      rcases List.mem_append.mp late with old | new
      · exact .inl ⟨before, others, same, old⟩
      · exact .inr ⟨by rw [same]; simp, (List.mem_singleton.mp new).symm⟩
  · rintro (⟨before, after, shape, late⟩ | ⟨early, rfl⟩)
    · exact ⟨before, after ++ [deed], by rw [shape]; simp, List.mem_append_left _ late⟩
    · obtain ⟨before, after, shape⟩ := List.append_of_mem early
      exact ⟨before, after ++ [deed], by rw [shape]; simp, by simp⟩

theorem inOrder_prefix {first second : ServerDeed} {longer : ServerTrace}
    (ordered : InOrder trace first second) (grown : trace <+: longer) : InOrder longer first second := by
  obtain ⟨before, after, rfl, late⟩ := ordered
  obtain ⟨others, rfl⟩ := grown
  exact ⟨before, after ++ others, by simp, List.mem_append_left _ late⟩

theorem idle_append (idle : Idle trace) (free : takes deed = none) : Idle (trace ++ [deed]) := by
  intro lock held
  rcases (holding_append.mp held).2 with old | taken
  · exact idle lock old
  · rw [free] at taken
    cases taken

theorem idle_ends (ended : deed.act.ends = true) : Idle (trace ++ [deed]) := by
  intro lock held
  rw [(holding_append.mp held).1] at ended
  cases ended

theorem quiet_ends (quiet : act.quiet = true) : act.ends = false := by
  cases act <;> first | rfl | cases quiet

theorem quiet_takes (quiet : deed.act.quiet = true) : takes deed = none := by
  obtain ⟨act, result⟩ := deed
  cases act <;> first | rfl | cases quiet

theorem current_subset (trace : ServerTrace) : current trace ⊆ trace := by
  induction trace using List.reverseRecOn with
  | nil => exact List.Subset.refl _
  | append_singleton trace deed ih =>
      rw [current_append]
      split
      · exact List.nil_subset _
      · exact List.append_subset.mpr ⟨fun _ member => List.mem_append_left _ (ih member), List.subset_append_right _ _⟩

theorem within_took (within : Within trace act value) : Took trace act value :=
  current_subset trace within

theorem within_holding {id : LicenseId} {row : StoredLicense}
    (within : Within trace (.lockRow id) (some row)) : Holding trace (.row id) := ⟨_, within, rfl⟩

theorem under_holding (under : Under trace lock act value) : Holding trace lock := by
  obtain ⟨before, after, shape, ⟨taker, member, taken⟩, -⟩ := under
  exact ⟨taker, shape ▸ List.mem_append_left _ member, taken⟩

theorem under_within (under : Under trace lock act value) : Within trace act value := by
  obtain ⟨before, after, shape, -, member⟩ := under
  rw [Within, shape]
  exact List.mem_append_right _ member

end Append

/-- The second trace continues the first by acts of one kind. -/
def Along (kind : Act → Bool) (trace after : ServerTrace) : Prop :=
  ∃ deeds, (∀ deed ∈ deeds, kind deed.act = true) ∧ after = trace ++ deeds

abbrev Quietly : ServerTrace → ServerTrace → Prop := Along Act.quiet

section Along

variable {kind : Act → Bool} {trace after later : ServerTrace} {act : Act} {value : act.Val}

theorem along_refl : Along kind trace trace := ⟨[], by simp, by simp⟩

theorem along_step (along : Along kind trace after) {next : Act} (of : kind next = true)
    (result : Except Failure next.Val) : Along kind trace (after ++ [⟨next, result⟩]) := by
  obtain ⟨deeds, kinds, rfl⟩ := along
  refine ⟨deeds ++ [⟨next, result⟩], fun deed member => ?_, List.append_assoc _ _ _⟩
  rcases List.mem_append.mp member with old | new
  · exact kinds deed old
  · rw [List.mem_singleton.mp new]
    exact of

theorem along_trans (first : Along kind trace after) (second : Along kind after later) :
    Along kind trace later := by
  obtain ⟨deeds, kinds, rfl⟩ := first
  obtain ⟨others, otherKinds, rfl⟩ := second
  refine ⟨deeds ++ others, fun deed member => ?_, List.append_assoc _ _ _⟩
  exact (List.mem_append.mp member).elim (kinds deed) (otherKinds deed)

theorem along_mono {wide : Act → Bool} (along : Along kind trace after)
    (implies : ∀ act, kind act = true → wide act = true) : Along wide trace after := by
  obtain ⟨deeds, kinds, rfl⟩ := along
  exact ⟨deeds, fun deed member => implies _ (kinds deed member), rfl⟩

theorem along_grown (along : Along kind trace after) : trace <+: after := by
  obtain ⟨deeds, -, rfl⟩ := along
  exact List.prefix_append _ _

theorem took_along (along : Along kind trace after) (took : Took trace act value) :
    Took after act value := by
  obtain ⟨deeds, -, rfl⟩ := along
  exact List.mem_append_left _ took

theorem along_took (along : Along kind trace after) (other : kind act = false)
    (took : Took after act value) : Took trace act value := by
  obtain ⟨deeds, kinds, rfl⟩ := along
  rcases List.mem_append.mp took with old | new
  · exact old
  · rw [kinds _ new] at other
    cases other

end Along

abbrev Onward : ServerTrace → ServerTrace → Prop := Along fun act => !act.ends

theorem quietly_onward {trace after : ServerTrace} (quietly : Quietly trace after) :
    Onward trace after :=
  along_mono quietly fun _ quiet => by rw [quiet_ends quiet]; rfl

section Onward

variable {trace after : ServerTrace} {act : Act} {value : act.Val} {lock : Lock}

theorem onward_current (onward : Onward trace after) :
    ∃ deeds, after = trace ++ deeds ∧ current after = current trace ++ deeds := by
  obtain ⟨deeds, kinds, rfl⟩ := onward
  refine ⟨deeds, rfl, ?_⟩
  induction deeds using List.reverseRecOn with
  | nil => simp
  | append_singleton deeds deed ih =>
      have continues := kinds deed (List.mem_append_right _ (.head _))
      rw [Bool.not_eq_true'] at continues
      rw [← List.append_assoc, current_append, continues,
        ih fun other member => kinds other (List.mem_append_left _ member)]
      simp

theorem within_onward (onward : Onward trace after) (within : Within trace act value) :
    Within after act value := by
  obtain ⟨deeds, -, shape⟩ := onward_current onward
  rw [Within, shape]
  exact List.mem_append_left _ within

theorem holding_onward (onward : Onward trace after) (held : Holding trace lock) :
    Holding after lock := by
  obtain ⟨deed, member, taken⟩ := held
  obtain ⟨deeds, -, shape⟩ := onward_current onward
  exact ⟨deed, shape ▸ List.mem_append_left _ member, taken⟩

theorem under_onward (onward : Onward trace after) (under : Under trace lock act value) :
    Under after lock act value := by
  obtain ⟨before, others, shape, held, late⟩ := under
  obtain ⟨deeds, -, longer⟩ := onward_current onward
  refine ⟨before, others ++ deeds, ?_, held, List.mem_append_left _ late⟩
  rw [longer, shape, List.append_assoc]

theorem within_quietly (quietly : Quietly trace after) (within : Within trace act value) :
    Within after act value := within_onward (quietly_onward quietly) within

theorem holding_quietly (quietly : Quietly trace after) (held : Holding trace lock) :
    Holding after lock := holding_onward (quietly_onward quietly) held

theorem under_quietly (quietly : Quietly trace after) (under : Under trace lock act value) :
    Under after lock act value := under_onward (quietly_onward quietly) under

theorem idle_quietly (quietly : Quietly trace after) (idle : Idle trace) : Idle after := by
  rintro lock ⟨deed, member, taken⟩
  obtain ⟨deeds, longer, shape⟩ := onward_current (quietly_onward quietly)
  obtain ⟨others, kinds, same⟩ := quietly
  rw [longer, List.append_cancel_left_eq] at same
  rw [shape] at member
  rcases List.mem_append.mp member with old | new
  · exact idle lock ⟨deed, old, taken⟩
  · rw [quiet_takes (kinds deed (same ▸ new))] at taken
    cases taken

end Onward

end Keyzori
