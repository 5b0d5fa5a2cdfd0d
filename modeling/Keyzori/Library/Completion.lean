import Keyzori.Library.Interleaving
import Mathlib.Logic.Hydra

/-! Runs that can be brought to an end. A program is a well-founded tree, so the calls of a
state end, whatever the order of their acts, if in every state before the end one of them
can go on. A call that runs alone is judged by a precondition on the world: nothing it
needs is ever missing, and whatever it draws, its end meets a postcondition. -/

namespace Interleaving

open Relation

variable {Act : Type 1} {Val : Act → Type} {ε World Input Env Request Res : Type}

inductive Lessens : Option (Prog Act Val ε Res) → Option (Prog Act Val ε Res) → Prop
  | act (act : Act) (next : Except ε (Val act) → Prog Act Val ε Res) (result : Except ε (Val act)) :
      Lessens (some (next result)) (some (.act act next))

theorem lessens_wellFounded : WellFounded (@Lessens Act Val ε Res) := by
  refine ⟨fun rest => ?_⟩
  cases rest with
  | none => exact ⟨none, fun _ less => by cases less⟩
  | some prog =>
      induction prog with
      | done result => exact ⟨_, fun _ less => by cases less⟩
      | act act next ih =>
          refine ⟨_, fun _ less => ?_⟩
          cases less with
          | act act next result => exact ih result

variable (system : System Act Val ε World Input Env Request Res) (fair : Nat → World → Act → Input → Prop)

/-- An act of a call on an input that is fair to it. -/
inductive Acts : State Act Val ε World Request Res → State Act Val ε World Request Res → Prop
  | act (state : State Act Val ε World Request Res) (call : Nat) (act : Act)
      (next : Except ε (Val act) → Prog Act Val ε Res) (input : Input) (world : World)
      (result : Except ε (Val act)) (running : state.pool call = some (.act act next))
      (ran : system.exec call act input state.view.world = some (world, result))
      (fairly : fair call state.view.world act input) :
      Acts state ⟨state.view.record call act result world,
        Function.update state.pool call (some (next result))⟩

def State.Ended (state : State Act Val ε World Request Res) : Prop :=
  ∀ call act next, state.pool call ≠ some (.act act next)

def State.left (calls : Finset Nat) (state : State Act Val ε World Request Res) :
    Multiset (Option (Prog Act Val ε Res)) := calls.val.map state.pool

variable {system fair} {state next : State Act Val ε World Request Res} {calls : Finset Nat}

theorem acts_step (acts : Acts system fair state next) : Step system state next := by
  cases acts with
  | act call act next input world result running ran fairly =>
      exact .act state call act next input world result running ran

theorem acts_run {world : World} (run : Run system world state)
    (acts : ReflTransGen (Acts system fair) state next) : Run system world next := by
  induction acts with
  | refl => exact run
  | tail _ acts ih => exact .step ih (acts_step acts)

theorem left_update {call : Nat} (member : call ∈ calls) (pool : Nat → Option (Prog Act Val ε Res))
    (rest : Option (Prog Act Val ε Res)) :
    calls.val.map (Function.update pool call rest) = {rest} + (calls.val.erase call).map pool := by
  rw [← Multiset.cons_erase (Finset.mem_val.mpr member), Multiset.map_cons, Function.update_self,
    Multiset.erase_cons_head, Multiset.singleton_add]
  refine congrArg (rest ::ₘ ·) (Multiset.map_congr rfl fun other listed => ?_)
  refine Function.update_of_ne ?_ _ _
  rintro rfl
  exact (calls.nodup.mem_erase_iff.mp listed).1 rfl

theorem acts_lessen (started : ∀ call, state.pool call ≠ none → call ∈ calls)
    (acts : Acts system fair state next) : CutExpand Lessens (next.left calls) (state.left calls) := by
  cases acts with
  | act call act next input world result running ran fairly =>
      have member : call ∈ calls := started call (by simp [running])
      have before := left_update member state.pool (state.pool call)
      rw [Function.update_eq_self, running] at before
      rw [State.left, State.left, left_update member, before]
      exact cutExpand_single_add (.act act next result) _

theorem started_update {call : Nat} {pool : Nat → Option (Prog Act Val ε Res)}
    (started : ∀ call, pool call ≠ none → call ∈ calls) (rest : Option (Prog Act Val ε Res)) {other : Nat}
    (running : Function.update pool call rest other ≠ none) : other ∈ insert call calls := by
  by_cases same : other = call
  · exact same ▸ Finset.mem_insert_self _ _
  · rw [Function.update_of_ne same] at running
    exact Finset.mem_insert_of_mem (started other running)

theorem acts_started (started : ∀ call, state.pool call ≠ none → call ∈ calls)
    (acts : Acts system fair state next) : ∀ call, next.pool call ≠ none → call ∈ calls := by
  cases acts with
  | act caller act next input world result running ran fairly =>
      intro call remaining
      have listed := started_update started _ remaining
      rwa [Finset.insert_eq_of_mem (started caller (by simp [running]))] at listed

theorem run_started {world : World} (run : Run system world state) :
    ∃ calls : Finset Nat, ∀ call, state.pool call ≠ none → call ∈ calls := by
  induction run with
  | start => exact ⟨∅, fun call running => absurd rfl running⟩
  | step _ step ih =>
      obtain ⟨calls, started⟩ := ih
      cases step with
      | start call request unused => exact ⟨insert call calls, fun _ => started_update started _⟩
      | act call act next input world result running ran =>
          exact ⟨insert call calls, fun _ => started_update started _⟩
      | environment event => exact ⟨calls, started⟩

/-- Where some call can always go on, all of them can be brought to an end. -/
theorem acts_end {inv : State Act Val ε World Request Res → Prop}
    (kept : ∀ state next, inv state → Acts system fair state next → inv next)
    (progress : ∀ state, inv state → ¬state.Ended → ∃ next, Acts system fair state next)
    (started : ∀ call, state.pool call ≠ none → call ∈ calls) (holds : inv state) :
    ∃ last, ReflTransGen (Acts system fair) state last ∧ last.Ended := by
  generalize same : state.left calls = weight
  induction weight using lessens_wellFounded.cutExpand.induction generalizing state with
  | _ weight ih =>
    subst same
    by_cases ended : state.Ended
    · exact ⟨state, .refl, ended⟩
    · obtain ⟨next, acts⟩ := progress state holds ended
      obtain ⟨last, chain, done⟩ := ih _ (acts_lessen started acts) (acts_started started acts)
        (kept state next holds acts) rfl
      exact ⟨last, chain.head acts, done⟩

section Alone

variable {α β : Type} (exec : Nat → (act : Act) → Input → World → Option (World × Except ε (Val act)))
  (sane : Input → Prop) (call : Nat)

/-- Alone the call can always go on, and however it ends it meets the postcondition. -/
def Prog.alone : Prog Act Val ε α → World → (Except ε α → World → Prop) → Prop
  | .done result, world, post => post result world
  | .act first next, world, post =>
      (∃ input, sane input ∧ (exec call first input world).isSome = true) ∧
        ∀ input after result, sane input → exec call first input world = some (after, result) →
          (next result).alone after post

variable {exec sane call} {world : World}

theorem alone_mono {prog : Prog Act Val ε α} {post weak : Except ε α → World → Prop}
    (holds : prog.alone exec sane call world post) (implies : ∀ result after, post result after → weak result after) :
    prog.alone exec sane call world weak := by
  induction prog generalizing world with
  | done result => exact implies result world holds
  | act first next ih =>
      exact ⟨holds.1, fun input after result fit ran => ih result (holds.2 input after result fit ran)⟩

theorem alone_bind {prog : Prog Act Val ε α} {rest : α → Prog Act Val ε β}
    {post : Except ε β → World → Prop} (middle : Except ε α → World → Prop)
    (first : prog.alone exec sane call world middle)
    (returned : ∀ value after, middle (.ok value) after → (rest value).alone exec sane call after post)
    (thrown : ∀ error after, middle (.error error) after → post (.error error) after) :
    (prog >>= rest).alone exec sane call world post := by
  change (prog.bind rest).alone exec sane call world post
  induction prog generalizing world with
  | done result =>
      cases result with
      | ok value => exact returned value world first
      | error error => exact thrown error world first
  | act act next ih =>
      exact ⟨first.1, fun input after result fit ran => ih result (first.2 input after result fit ran)⟩

theorem alone_tryCatch {prog : Prog Act Val ε α} {handler : ε → Prog Act Val ε α}
    {post : Except ε α → World → Prop} (middle : Except ε α → World → Prop)
    (first : prog.alone exec sane call world middle)
    (returned : ∀ value after, middle (.ok value) after → post (.ok value) after)
    (caught : ∀ error after, middle (.error error) after → (handler error).alone exec sane call after post) :
    (tryCatch prog handler).alone exec sane call world post := by
  change (prog.tryCatch handler).alone exec sane call world post
  induction prog generalizing world with
  | done result =>
      cases result with
      | ok value => exact returned value world first
      | error error => exact caught error world first
  | act act next ih =>
      exact ⟨first.1, fun input after result fit ran => ih result (first.2 input after result fit ran)⟩

theorem alone_call {act : Act} {rest : Val act → Prog Act Val ε β} {post : Except ε β → World → Prop}
    (can : ∃ input, sane input ∧ (exec call act input world).isSome = true)
    (goes : ∀ input after value, sane input → exec call act input world = some (after, .ok value) →
      (rest value).alone exec sane call after post)
    (fails : ∀ input after error, sane input → exec call act input world = some (after, .error error) →
      post (.error error) after) :
    (Prog.call act >>= rest).alone exec sane call world post := by
  refine ⟨can, fun input after result fit ran => ?_⟩
  cases result with
  | ok value => exact goes input after value fit ran
  | error error => exact fails input after error fit ran

variable {system : System Act Val ε World Input Env Request Res} {state next : State Act Val ε World Request Res}
  {post : Except ε Res → World → Prop}

abbrev Turns (system : System Act Val ε World Input Env Request Res) (sane : Input → Prop) (call : Nat) :
    State Act Val ε World Request Res → State Act Val ε World Request Res → Prop :=
  Acts system fun caller _ _ input => caller = call ∧ sane input

theorem alone_turns {prog : Prog Act Val ε Res} (running : state.pool call = some prog)
    (holds : prog.alone system.exec sane call state.view.world post)
    (turns : ReflTransGen (Turns system sane call) state next) :
    ∃ rest, next.pool call = some rest ∧ rest.alone system.exec sane call next.view.world post := by
  induction turns with
  | refl => exact ⟨prog, running, holds⟩
  | tail _ turn ih =>
      obtain ⟨rest, left, holds⟩ := ih
      cases turn with
      | act caller act next input world result going ran fairly =>
          obtain ⟨rfl, fit⟩ := fairly
          cases left.symm.trans going
          exact ⟨_, Function.update_self _ _ _, holds.2 input world result fit ran⟩

/-- A call that runs alone can come to its end. -/
theorem alone_ends {prog : Prog Act Val ε Res} (running : state.pool call = some prog)
    (holds : prog.alone system.exec sane call state.view.world post) :
    ∃ last result, ReflTransGen (Turns system sane call) state last ∧
      last.pool call = some (.done result) ∧ post result last.view.world := by
  induction prog generalizing state with
  | done result => exact ⟨state, result, .refl, running, holds⟩
  | act act next ih =>
      obtain ⟨⟨input, fit, can⟩, after⟩ := holds
      obtain ⟨⟨world, result⟩, ran⟩ := Option.isSome_iff_exists.mp can
      obtain ⟨last, final, chain, ended⟩ := @ih result
        ⟨state.view.record call act result world, Function.update state.pool call (some (next result))⟩
        (Function.update_self _ _ _) (after input world result fit ran)
      exact ⟨last, final, chain.head (.act state call act next input world result running ran ⟨rfl, fit⟩), ended⟩

end Alone

end Interleaving
