import Keyzori.Library.Completion
import Keyzori.Server.LockOrder

/-! From every state the server can reach, its calls can be brought to an end, and without
a failure but where a value that was drawn is in use already. What a deletion cascades to
can make others wait for it that it waits for, so deletions are kept for when no
transaction is open. -/

namespace Keyzori

open Interleaving Relation

variable {host : Host} {state : ServerState} {call : Nat} {now : Instant} {act : Act} {input : Input}
  {world : World}

/-- An act fails only when whatever it draws is in use, and nothing is deleted while a lock is held. -/
structure Fair (call : Nat) (world : World) (act : Act) (input : Input) : Prop where
  failing : input.fault.isSome → ∀ other, Collides other world act
  alone : act.deletes = true → ∀ lock, world.locks lock = none

theorem await_refused {α : Type} {ready : Bool} {done : World × α} {message : String}
    (refused : input.fault = some (.refused message)) : (await input world ready done).isSome = true := by
  simp [await, refused]

theorem collides_fails {message : String} (collides : Collides input world act)
    (refused : input.fault = some (.refused message)) : (exec call act input world).isSome = true := by
  cases collides with
  | customer id used => exact await_refused refused
  | session id sessionRevision bindingHash maxSessions used => exact await_refused refused
  | license id keyHash keyPrefix data meters used =>
      simp only [exec]
      split
      · rfl
      · split
        · rfl
        · exact await_refused refused
  | key id expected writes keyHash keyPrefix member used => simp [exec, runCommit, refused]

theorem collides_faultless (collides : Collides { input with fault := none } world act) :
    Collides input world act := by
  cases collides with
  | customer id used => exact .customer id used
  | session id sessionRevision bindingHash maxSessions used => exact .session _ _ _ _ used
  | license id keyHash keyPrefix data meters used => exact .license _ _ _ _ _ used
  | key id expected writes keyHash keyPrefix member used => exact .key _ _ _ _ _ member used

theorem fair_input (free : ∀ lock, act.Needs world lock → world.free call lock = true)
    (alone : act.deletes = true → ∀ lock, world.locks lock = none) :
    ∃ input, Fair call world act input ∧ (exec call act input world).isSome = true := by
  by_cases collides : ∀ other, Collides other world act
  · exact ⟨⟨some (.refused "in use"), ⟨0, fun _ => ""⟩, "", sampleId, []⟩, ⟨fun _ => collides, alone⟩,
      collides_fails (collides _) rfl⟩
  · obtain ⟨other, fresh⟩ := not_forall.mp collides
    refine ⟨{ other with fault := none }, ⟨fun fault => (by cases fault), alone⟩, exec_isSome free fun used => ?_⟩
    exact fresh (collides_faultless used)

theorem deleting_unlocked (run : ServerRun host now state) {next : Except Failure act.Val → Server Response}
    (running : state.pool call = some (.act act next)) (deletes : act.deletes = true) (lock : Lock) :
    state.view.world.locks lock ≠ some call := fun held =>
  (server_run_tidy run running).1.deletes deletes lock (lock_held run held).1

/-- A call that waits for none can go on, if it deletes nothing or no lock is held. -/
theorem fair_acts {next : Except Failure act.Val → Server Response}
    (running : state.pool call = some (.act act next)) (free : ∀ other, ¬WaitsFor state call other)
    (alone : act.deletes = true → ∀ lock, state.view.world.locks lock = none) :
    ∃ next, Acts (server host) Fair state next := by
  have unlocked : ∀ lock, act.Needs state.view.world lock → state.view.world.free call lock = true := by
    intro lock needs
    refine free_iff.mpr fun holder held => ?_
    by_contra distinct
    exact free holder ⟨lock, ⟨act, next, running, needs⟩, held, distinct⟩
  obtain ⟨input, fair, can⟩ := fair_input unlocked alone
  obtain ⟨⟨world, result⟩, ran⟩ := Option.isSome_iff_exists.mp can
  exact ⟨_, .act state call act next input world result running ran fair⟩

theorem fair_progress (run : ServerRun host now state) (running : ¬state.Ended) :
    ∃ next, Acts (server host) Fair state next := by
  by_cases others : ∃ call act next, state.pool call = some (.act act next) ∧ act.deletes = false
  · obtain ⟨call, act, next, running, keeps⟩ := others
    obtain ⟨last, act, next, chain, ending, free⟩ := waits_lead run running
    refine fair_acts ending free fun deletes => ?_
    rcases Relation.ReflTransGen.cases_tail chain with rfl | ⟨waiter, -, lock, -, holder, -⟩
    · cases running.symm.trans ending
      cases keeps.symm.trans deletes
    · exact absurd holder (deleting_unlocked run ending deletes lock)
  · -- Only deletions are left, which hold nothing.
    simp only [State.Ended, not_forall, not_not] at running
    obtain ⟨call, act, next, running⟩ := running
    have unlocked : ∀ lock, state.view.world.locks lock = none := by
      intro lock
      by_contra held
      obtain ⟨holder, held⟩ := Option.ne_none_iff_exists'.mp held
      obtain ⟨-, act, next, holding⟩ := lock_held run held
      refine deleting_unlocked run holding ?_ lock held
      exact eq_true_of_ne_false fun keeps => others ⟨holder, act, next, holding, keeps⟩
    refine fair_acts running (fun other waits => ?_) fun _ => unlocked
    obtain ⟨lock, -, held, -⟩ := waits
    cases (unlocked lock).symm.trans held

/-- Whatever has happened so far, without another request, and without a failure but for
values in use, all calls can end, and then no lock is held. -/
theorem calls_end (run : ServerRun host now state) : ∃ last, ReflTransGen (Acts (server host) Fair) state last ∧
    ServerRun host now last ∧ last.Ended ∧ ∀ lock, last.view.world.locks lock = none := by
  obtain ⟨calls, started⟩ := run_started run
  obtain ⟨last, chain, ended⟩ := acts_end (fun _ _ run acts => acts_run run (.single acts))
    (fun _ run running => fair_progress run running) started run
  refine ⟨last, chain, acts_run run chain, ended, fun lock => ?_⟩
  by_contra held
  obtain ⟨holder, held⟩ := Option.ne_none_iff_exists'.mp held
  obtain ⟨-, act, next, running⟩ := lock_held (acts_run run chain) held
  exact ended holder act next running

theorem calls_end_sample : ∃ state last, ServerRun sampleHost 0 state ∧ WaitsFor state 3 2 ∧
    ReflTransGen (Acts (server sampleHost) Fair) state last ∧ last.Ended := by
  obtain ⟨state, run, holds⟩ := @sampled_run waitingSample waiting (by decide +kernel)
  obtain ⟨last, chain, -, ended, -⟩ := calls_end run
  exact ⟨state, last, run, (waiting_waits holds).1, chain, ended⟩

end Keyzori
