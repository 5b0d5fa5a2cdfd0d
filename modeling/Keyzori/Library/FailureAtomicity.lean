import Keyzori.Library.Completion

/-! Programs that run to their end with no other call between their acts, and what a failure
leaves of them: nothing, or all that a success could have left. Seen is a part of the world. -/

namespace Interleaving

open Relation

variable {Act : Type 1} {Val : Act → Type} {ε World Input Env Request Res Seen α β : Type}
  {exec : Nat → (act : Act) → Input → World → Option (World × Except ε (Val act))} {call : Nat}
  {world after middle : World} {events later : List (Event Act Val ε World)} {seen : World → Seen}

namespace Prog

/-- The acts with which a program may get from a world to its end, its result and the world then. -/
def Ends (exec : Nat → (act : Act) → Input → World → Option (World × Except ε (Val act))) (call : Nat) :
    Prog Act Val ε α → World → List (Event Act Val ε World) → Except ε α → World → Prop
  | .done last, world, events, result, after => events = [] ∧ result = last ∧ after = world
  | .act first next, world, events, result, after => ∃ input middle answer rest,
      exec call first input world = some (middle, answer) ∧
        events = ⟨call, first, answer, world, middle⟩ :: rest ∧ (next answer).Ends exec call middle rest result after

def Spares (exec : Nat → (act : Act) → Input → World → Option (World × Except ε (Val act))) (call : Nat)
    (seen : World → Seen) (prog : Prog Act Val ε α) (world : World) : Prop :=
  ∀ events result after, prog.Ends exec call world events result after →
    ∀ event ∈ events, seen event.after = seen event.before

/-- Whatever happens nothing is seen to change, and the program can succeed. -/
structure Completes (exec : Nat → (act : Act) → Input → World → Option (World × Except ε (Val act))) (call : Nat)
    (seen : World → Seen) (prog : Prog Act Val ε α) (world : World) : Prop where
  spares : prog.Spares exec call seen world
  succeeds : ∃ events value after, prog.Ends exec call world events (.ok value) after

/-- A failure is seen to change nothing, or what a success from the same world changes. -/
def Settles (exec : Nat → (act : Act) → Input → World → Option (World × Except ε (Val act))) (call : Nat)
    (seen : World → Seen) (prog : Prog Act Val ε α) (world : World) : Prop :=
  ∀ events error after, prog.Ends exec call world events (.error error) after →
    seen after = seen world ∨ ∃ others value other,
      prog.Ends exec call world others (.ok value) other ∧ seen other = seen after

end Prog

section Ends

variable {prog : Prog Act Val ε α} {rest : α → Prog Act Val ε β} {handler : ε → Prog Act Val ε α}

theorem ends_bind {value : α} {result : Except ε β} (first : prog.Ends exec call world events (.ok value) middle)
    (second : (rest value).Ends exec call middle later result after) :
    (prog >>= rest).Ends exec call world (events ++ later) result after := by
  change (prog.bind rest).Ends exec call world (events ++ later) result after
  induction prog generalizing world events with
  | done last =>
      obtain ⟨rfl, rfl, rfl⟩ := first
      exact second
  | act act next ih =>
      obtain ⟨input, reached, answer, others, ran, rfl, ended⟩ := first
      exact ⟨input, reached, answer, others ++ later, ran, rfl, ih answer ended⟩

theorem bind_ends {result : Except ε β} (ends : (prog >>= rest).Ends exec call world events result after) :
    (∃ early later value middle, events = early ++ later ∧ prog.Ends exec call world early (.ok value) middle ∧
      (rest value).Ends exec call middle later result after) ∨
    ∃ error, result = .error error ∧ prog.Ends exec call world events (.error error) after := by
  change (prog.bind rest).Ends exec call world events result after at ends
  induction prog generalizing world events with
  | done last =>
      cases last with
      | ok value => exact .inl ⟨[], events, value, world, rfl, ⟨rfl, rfl, rfl⟩, ends⟩
      | error error =>
          obtain ⟨rfl, rfl, rfl⟩ := ends
          exact .inr ⟨error, rfl, rfl, rfl, rfl⟩
  | act act next ih =>
      obtain ⟨input, reached, answer, others, ran, rfl, ended⟩ := ends
      rcases ih answer ended with ⟨early, later, value, middle, rfl, first, second⟩ | ⟨error, same, first⟩
      · exact .inl ⟨_ :: early, later, value, middle, rfl, ⟨input, reached, answer, early, ran, rfl, first⟩, second⟩
      · exact .inr ⟨error, same, input, reached, answer, others, ran, rfl, first⟩

theorem bind_ended {value : β} (ends : (prog >>= rest).Ends exec call world events (.ok value) after) :
    ∃ early later first middle, events = early ++ later ∧ prog.Ends exec call world early (.ok first) middle ∧
      (rest first).Ends exec call middle later (.ok value) after := by
  rcases bind_ends ends with found | ⟨error, same, -⟩
  · exact found
  · cases same

theorem ends_tryCatch {value : α} (first : prog.Ends exec call world events (.ok value) after) :
    (tryCatch prog handler).Ends exec call world events (.ok value) after := by
  change (prog.tryCatch handler).Ends exec call world events (.ok value) after
  induction prog generalizing world events with
  | done last =>
      obtain ⟨rfl, rfl, rfl⟩ := first
      exact ⟨rfl, rfl, rfl⟩
  | act act next ih =>
      obtain ⟨input, reached, answer, others, ran, rfl, ended⟩ := first
      exact ⟨input, reached, answer, others, ran, rfl, ih answer ended⟩

theorem tryCatch_ends {result : Except ε α}
    (ends : (tryCatch prog handler).Ends exec call world events result after) :
    (∃ value, result = .ok value ∧ prog.Ends exec call world events (.ok value) after) ∨
    ∃ early later error middle, events = early ++ later ∧ prog.Ends exec call world early (.error error) middle ∧
      (handler error).Ends exec call middle later result after := by
  change (prog.tryCatch handler).Ends exec call world events result after at ends
  induction prog generalizing world events with
  | done last =>
      cases last with
      | ok value =>
          obtain ⟨rfl, rfl, rfl⟩ := ends
          exact .inl ⟨value, rfl, rfl, rfl, rfl⟩
      | error error => exact .inr ⟨[], events, error, world, rfl, ⟨rfl, rfl, rfl⟩, ends⟩
  | act act next ih =>
      obtain ⟨input, reached, answer, others, ran, rfl, ended⟩ := ends
      rcases ih answer ended with ⟨value, same, first⟩ | ⟨early, later, error, middle, rfl, first, second⟩
      · exact .inl ⟨value, same, input, reached, answer, others, ran, rfl, first⟩
      · refine .inr ⟨_ :: early, later, error, middle, rfl, ?_, second⟩
        exact ⟨input, reached, answer, early, ran, rfl, first⟩

theorem ends_only {kind : Act → Prop} {result : Except ε α} (only : prog.Only kind)
    (ends : prog.Ends exec call world events result after) : ∀ event ∈ events, event.call = call ∧ kind event.act ∧
      ∃ input, exec event.call event.act input event.before = some (event.after, event.result) := by
  induction prog generalizing world events with
  | done last =>
      obtain ⟨rfl, -⟩ := ends
      exact fun event member => by cases member
  | act act next ih =>
      obtain ⟨input, reached, answer, others, ran, rfl, ended⟩ := ends
      intro event member
      rcases List.mem_cons.mp member with rfl | member
      · exact ⟨rfl, only.1, input, ran⟩
      · exact ih answer (only.2 answer) ended event member

theorem ends_kept {result : Except ε α} (ends : prog.Ends exec call world events result after)
    (kept : ∀ event ∈ events, seen event.after = seen event.before) : seen after = seen world := by
  induction prog generalizing world events with
  | done last =>
      obtain ⟨-, -, rfl⟩ := ends
      rfl
  | act act next ih =>
      obtain ⟨input, reached, answer, others, ran, rfl, ended⟩ := ends
      exact (ih answer ended fun event member => kept event (.tail _ member)).trans (kept _ (.head _))

/-- What is seen changes with one event only. -/
theorem ends_around {event : Event Act Val ε World} {early late : List (Event Act Val ε World)} {result : Except ε α}
    (ends : prog.Ends exec call world (early ++ event :: late) result after)
    (before : ∀ other ∈ early, seen other.after = seen other.before)
    (behind : ∀ other ∈ late, seen other.after = seen other.before) :
    seen event.before = seen world ∧ seen after = seen event.after := by
  induction prog generalizing world early with
  | done last => simp [Prog.Ends] at ends
  | act act next ih =>
      obtain ⟨input, reached, answer, others, ran, shape, ended⟩ := ends
      cases early with
      | nil =>
          obtain ⟨rfl, rfl⟩ := List.cons.inj shape
          exact ⟨rfl, ends_kept ended behind⟩
      | cons head early =>
          obtain ⟨rfl, rfl⟩ := List.cons.inj shape
          obtain ⟨began, finished⟩ := ih answer ended fun other member => before other (.tail _ member)
          exact ⟨began.trans (before _ (.head _)), finished⟩

end Ends

section Settles

variable {prog : Prog Act Val ε α} {rest : α → Prog Act Val ε β}

theorem spares_kept {result : Except ε α} (spares : prog.Spares exec call seen world)
    (ends : prog.Ends exec call world events result after) : seen after = seen world :=
  ends_kept ends (spares _ _ _ ends)

theorem spares_bind (first : prog.Spares exec call seen world)
    (second : ∀ events value after, prog.Ends exec call world events (.ok value) after →
      (rest value).Spares exec call seen after) : (prog >>= rest).Spares exec call seen world := by
  intro events result after ends
  rcases bind_ends ends with ⟨early, later, value, middle, rfl, ended, ends⟩ | ⟨error, -, ended⟩
  · exact List.forall_mem_append.mpr ⟨first _ _ _ ended, second _ _ _ ended _ _ _ ends⟩
  · exact first _ _ _ ended

theorem completes_bind (first : prog.Completes exec call seen world)
    (second : ∀ events value after, prog.Ends exec call world events (.ok value) after →
      (rest value).Completes exec call seen after) : (prog >>= rest).Completes exec call seen world := by
  refine ⟨spares_bind first.spares fun events value after ends => (second events value after ends).spares, ?_⟩
  obtain ⟨early, value, middle, ends⟩ := first.succeeds
  obtain ⟨later, last, after, ended⟩ := (second early value middle ends).succeeds
  exact ⟨early ++ later, last, after, ends_bind ends ended⟩

theorem settles_spared (spares : prog.Spares exec call seen world) : prog.Settles exec call seen world :=
  fun _ _ _ ends => .inl (spares_kept spares ends)

/-- Once a program has changed something, what is left of it must be able to succeed and
change nothing more. -/
theorem settles_bind (first : prog.Settles exec call seen world)
    (second : ∀ events value after, prog.Ends exec call world events (.ok value) after →
      (rest value).Completes exec call seen after ∨
        seen after = seen world ∧ (rest value).Settles exec call seen after) :
    (prog >>= rest).Settles exec call seen world := by
  intro events error after ends
  rcases bind_ends ends with ⟨early, later, value, middle, rfl, began, ended⟩ | ⟨failed, same, began⟩
  · rcases second early value middle began with completes | ⟨kept, settles⟩
    · obtain ⟨others, last, other, succeeds⟩ := completes.succeeds
      refine .inr ⟨early ++ others, last, other, ends_bind began succeeds, ?_⟩
      rw [spares_kept completes.spares succeeds, spares_kept completes.spares ended]
    · rcases settles later error after ended with unchanged | ⟨others, last, other, succeeds, same⟩
      · exact .inl (unchanged.trans kept)
      · exact .inr ⟨early ++ others, last, other, ends_bind began succeeds, same⟩
  · cases same
    rcases first events error after began with unchanged | ⟨early, value, middle, succeeds, same⟩
    · exact .inl unchanged
    · rcases second early value middle succeeds with completes | ⟨kept, -⟩
      · obtain ⟨others, last, other, ended⟩ := completes.succeeds
        refine .inr ⟨early ++ others, last, other, ends_bind succeeds ended, ?_⟩
        rw [spares_kept completes.spares ended, same]
      · exact .inl (same.symm.trans kept)

theorem settles_before (spares : prog.Spares exec call seen world)
    (second : ∀ events value after, prog.Ends exec call world events (.ok value) after →
      seen after = seen world → (rest value).Settles exec call seen after) :
    (prog >>= rest).Settles exec call seen world :=
  settles_bind (settles_spared spares) fun events value after ends =>
    .inr ⟨spares_kept spares ends, second events value after ends (spares_kept spares ends)⟩

end Settles

section Turns

variable {system : System Act Val ε World Input Env Request Res} {state last : State Act Val ε World Request Res}
  {prog : Prog Act Val ε Res} {result : Except ε Res}

theorem ends_turns (running : state.pool call = some prog)
    (ends : prog.Ends system.exec call state.view.world events result after) :
    ∃ last, ReflTransGen (Turns system (fun _ => True) call) state last ∧
      last.pool call = some (.done result) ∧ last.view.world = after ∧
      last.view.history = state.view.history ++ events := by
  induction prog generalizing state events with
  | done ended =>
      obtain ⟨rfl, rfl, rfl⟩ := ends
      exact ⟨state, .refl, running, rfl, (List.append_nil _).symm⟩
  | act act next ih =>
      obtain ⟨input, reached, answer, others, ran, rfl, ended⟩ := ends
      obtain ⟨last, turns, done, world, history⟩ := @ih answer others
        ⟨state.view.record call act answer reached, Function.update state.pool call (some (next answer))⟩
        (Function.update_self _ _ _) ended
      refine ⟨last, turns.head (.act state call act next input reached answer running ran ⟨rfl, trivial⟩), done,
        world, ?_⟩
      rw [history]
      exact List.append_assoc _ _ _

theorem turns_ends (turns : ReflTransGen (Turns system (fun _ => True) call) state last)
    (running : state.pool call = some prog) (ended : last.pool call = some (.done result)) :
    ∃ events, prog.Ends system.exec call state.view.world events result last.view.world ∧
      last.view.history = state.view.history ++ events := by
  induction turns using ReflTransGen.head_induction_on generalizing prog with
  | refl =>
      cases running.symm.trans ended
      exact ⟨[], ⟨rfl, rfl, rfl⟩, (List.append_nil _).symm⟩
  | head turn _ ih =>
      cases turn with
      | act caller act next input world answer going ran fairly =>
          obtain ⟨rfl, -⟩ := fairly
          cases running.symm.trans going
          obtain ⟨events, ends, history⟩ := ih (Function.update_self _ _ _)
          refine ⟨_ :: events, ⟨input, world, answer, events, ran, rfl, ends⟩, ?_⟩
          rw [history]
          exact List.append_assoc _ _ _

theorem play_turns {inputs : List Input} (played : play system (inputs.map (.act call)) state = some last) :
    ReflTransGen (Turns system (fun _ => True) call) state last := by
  induction inputs generalizing state with
  | nil =>
      cases played
      exact .refl
  | cons input inputs ih =>
      simp only [List.map_cons, play, choose] at played
      split at played
      · next middle chosen =>
        split at chosen
        · next act next running =>
          split at chosen
          · next reached answer ran =>
            cases chosen
            exact (ih played).head (.act state call act next input reached answer running ran ⟨rfl, trivial⟩)
          · cases chosen
        · cases chosen
      · cases played

end Turns

end Interleaving
