import Mathlib.Logic.Relation
import Mathlib.Order.WellFounded

/-! Calls that hold locks and need more. Where every call needs only locks that rank
above all it holds, the calls that wait for one another form no cycle, and if no rank
has endless ranks above it, every wait leads to a call that does not wait. -/

namespace LockOrder

/-- Who holds each lock, and the locks each call needs to go on. -/
structure Locking (Call Lock : Type*) where
  holder : Lock → Option Call
  needs : Call → Lock → Prop

variable {Call Lock Rank : Type*}

namespace Locking

variable (locking : Locking Call Lock)

def Waits (call other : Call) : Prop :=
  ∃ lock, locking.needs call lock ∧ locking.holder lock = some other ∧ other ≠ call

/-- What a call needs ranks above what it holds, unless it holds it already. -/
def Climbs [LT Rank] (rank : Lock → Rank) : Prop :=
  ∀ call needed held, locking.needs call needed → locking.holder held = some call →
    locking.holder needed = some call ∨ rank held < rank needed

end Locking

variable {locking : Locking Call Lock} {rank : Lock → Rank} {call other : Call} {lock : Lock}

section Climbing

variable [Preorder Rank]

theorem waits_climbs (climbs : locking.Climbs rank) (held : locking.holder lock = some call)
    (waits : locking.Waits call other) :
    ∃ needed, locking.holder needed = some other ∧ rank lock < rank needed := by
  obtain ⟨needed, needs, holder, distinct⟩ := waits
  refine ⟨needed, holder, (climbs call needed lock needs held).resolve_left fun own => ?_⟩
  exact distinct (Option.some.inj (holder.symm.trans own))

theorem chain_climbs (climbs : locking.Climbs rank) (chain : Relation.TransGen locking.Waits call other) :
    ∃ needed held, locking.needs call needed ∧ locking.holder needed ≠ some call ∧
      locking.holder held = some other ∧ rank needed ≤ rank held := by
  induction chain with
  | single waits =>
      obtain ⟨lock, needs, holder, distinct⟩ := waits
      refine ⟨lock, lock, needs, fun own => ?_, holder, le_rfl⟩
      exact distinct (Option.some.inj (holder.symm.trans own))
  | tail _ waits ih =>
      obtain ⟨needed, held, needs, foreign, holder, below⟩ := ih
      obtain ⟨next, holder, above⟩ := waits_climbs climbs holder waits
      exact ⟨needed, next, needs, foreign, holder, below.trans above.le⟩

/-- No calls wait for one another in a circle. -/
theorem waits_acyclic (climbs : locking.Climbs rank) (call : Call) :
    ¬Relation.TransGen locking.Waits call call := by
  intro cycle
  obtain ⟨needed, held, needs, foreign, holder, below⟩ := chain_climbs climbs cycle
  have above := (climbs call needed held needs holder).resolve_left foreign
  exact absurd (lt_of_lt_of_le above below) (lt_irrefl _)

theorem holder_ends [WellFoundedGT Rank] (climbs : locking.Climbs rank) (lock : Lock) :
    ∀ call, locking.holder lock = some call →
      ∃ last, Relation.ReflTransGen locking.Waits call last ∧ ∀ other, ¬locking.Waits last other := by
  induction lock using (InvImage.wf rank (wellFounded_gt (α := Rank))).induction with
  | _ lock ih =>
    intro call held
    by_cases waiting : ∃ other, locking.Waits call other
    · obtain ⟨other, waits⟩ := waiting
      obtain ⟨needed, holder, above⟩ := waits_climbs climbs held waits
      obtain ⟨last, chain, free⟩ := ih needed above other holder
      exact ⟨last, chain.head waits, free⟩
    · exact ⟨call, .refl, fun other waits => waiting ⟨other, waits⟩⟩

theorem waits_end [WellFoundedGT Rank] (climbs : locking.Climbs rank) (call : Call) :
    ∃ last, Relation.ReflTransGen locking.Waits call last ∧ ∀ other, ¬locking.Waits last other := by
  by_cases waiting : ∃ other, locking.Waits call other
  · obtain ⟨other, waits⟩ := waiting
    have waited := waits
    obtain ⟨lock, -, holder, -⟩ := waited
    obtain ⟨last, chain, free⟩ := holder_ends climbs lock other holder
    exact ⟨last, chain.head waits, free⟩
  · exact ⟨call, .refl, fun other waits => waiting ⟨other, waits⟩⟩

end Climbing

end LockOrder
