import Mathlib.Data.List.Induction
import Mathlib.Logic.Function.Basic
import Mathlib.Logic.Relation

/-! Calls that run programs of atomic acts on one world, interleaved at every
act. A program is judged by its own trace alone, which no other call can change:
each act it takes is allowed after the acts it took before, and the trace it ends
with meets a postcondition. The main result turns a run of programs into a run of
allowed acts; what other calls do in between is then a matter of invariants and
of relations that every allowed act keeps. -/

namespace Interleaving

/-- What a call still has to do: its result, or an act and how it goes on. -/
inductive Prog (Act : Type 1) (Val : Act → Type) (ε α : Type) : Type 1
  | done (result : Except ε α)
  | act (act : Act) (next : Except ε (Val act) → Prog Act Val ε α)

namespace Prog

variable {Act : Type 1} {Val : Act → Type} {ε α β : Type}

def bind : Prog Act Val ε α → (α → Prog Act Val ε β) → Prog Act Val ε β
  | done (.ok value), rest => rest value
  | done (.error error), _ => done (.error error)
  | act first next, rest => act first fun result => (next result).bind rest

def tryCatch : Prog Act Val ε α → (ε → Prog Act Val ε α) → Prog Act Val ε α
  | done (.ok value), _ => done (.ok value)
  | done (.error error), handler => handler error
  | act first next, handler => act first fun result => (next result).tryCatch handler

instance : Monad (Prog Act Val ε) where
  pure value := done (.ok value)
  bind := bind

instance : MonadExcept ε (Prog Act Val ε) where
  throw error := done (.error error)
  tryCatch := tryCatch

def call (first : Act) : Prog Act Val ε (Val first) := act first done

def ofExcept (result : Except ε α) : Prog Act Val ε α := done result

end Prog

structure Event (Act : Type 1) (Val : Act → Type) (ε World : Type) : Type 1 where
  call : Nat
  act : Act
  result : Except ε (Val act)
  before : World
  after : World

structure View (Act : Type 1) (Val : Act → Type) (ε World Request : Type) : Type 1 where
  world : World
  requests : Nat → Option Request
  history : List (Event Act Val ε World)

/-- Acts may be impossible in a world, such as taking a lock another call
holds. The input is what an act draws from outside, a fault among others. -/
structure System (Act : Type 1) (Val : Act → Type) (ε World Input Env Request Res : Type) :
    Type 1 where
  exec : Nat → (act : Act) → Input → World → Option (World × Except ε (Val act))
  environment : Env → World → World
  program : Request → Prog Act Val ε Res

section Semantics

variable {Act : Type 1} {Val : Act → Type} {ε World Input Env Request Res : Type}

structure State (Act : Type 1) (Val : Act → Type) (ε World Request Res : Type) : Type 1 where
  view : View Act Val ε World Request
  pool : Nat → Option (Prog Act Val ε Res)

def View.record (view : View Act Val ε World Request) (call : Nat) (act : Act)
    (result : Except ε (Val act)) (world : World) : View Act Val ε World Request :=
  ⟨world, view.requests, view.history ++ [⟨call, act, result, view.world, world⟩]⟩

def View.ask (view : View Act Val ε World Request) (call : Nat) (request : Request) :
    View Act Val ε World Request :=
  { view with requests := Function.update view.requests call (some request) }

variable (system : System Act Val ε World Input Env Request Res)

inductive Step : State Act Val ε World Request Res → State Act Val ε World Request Res → Prop
  | start (state : State Act Val ε World Request Res) (call : Nat) (request : Request)
      (unused : state.pool call = none) :
      Step state ⟨state.view.ask call request,
        Function.update state.pool call (some (system.program request))⟩
  | act (state : State Act Val ε World Request Res) (call : Nat) (act : Act)
      (next : Except ε (Val act) → Prog Act Val ε Res) (input : Input) (world : World)
      (result : Except ε (Val act)) (running : state.pool call = some (.act act next))
      (ran : system.exec call act input state.view.world = some (world, result)) :
      Step state ⟨state.view.record call act result world,
        Function.update state.pool call (some (next result))⟩
  | environment (state : State Act Val ε World Request Res) (event : Env) :
      Step state { state with
        view := { state.view with world := system.environment event state.view.world } }

def State.start (world : World) : State Act Val ε World Request Res :=
  ⟨⟨world, fun _ => none, []⟩, fun _ => none⟩

inductive Run (world : World) : State Act Val ε World Request Res → Prop
  | start : Run world (.start world)
  | step {state next : State Act Val ε World Request Res} :
      Run world state → Step system state next → Run world next

inductive Choice (Input Env Request : Type)
  | start (call : Nat) (request : Request)
  | act (call : Nat) (input : Input)
  | environment (event : Env)

def choose (state : State Act Val ε World Request Res) :
    Choice Input Env Request → Option (State Act Val ε World Request Res)
  | .start call request => match state.pool call with
    | none => some ⟨state.view.ask call request,
        Function.update state.pool call (some (system.program request))⟩
    | some _ => none
  | .act call input => match state.pool call with
    | some (.act act next) => match system.exec call act input state.view.world with
      | some (world, result) => some ⟨state.view.record call act result world,
          Function.update state.pool call (some (next result))⟩
      | none => none
    | _ => none
  | .environment event => some { state with
      view := { state.view with world := system.environment event state.view.world } }

def play : List (Choice Input Env Request) → State Act Val ε World Request Res →
    Option (State Act Val ε World Request Res)
  | [], state => some state
  | choice :: choices, state => match choose system state choice with
    | some next => play choices next
    | none => none

variable {system} in
theorem choose_step {state next : State Act Val ε World Request Res}
    {choice : Choice Input Env Request} (chosen : choose system state choice = some next) :
    Step system state next := by
  cases choice with
  | start call request =>
      simp only [choose] at chosen
      split at chosen
      · next unused =>
        cases chosen
        exact .start state call request unused
      · cases chosen
  | act call input =>
      simp only [choose] at chosen
      split at chosen
      · next act rest running =>
        split at chosen
        · next world result ran =>
          cases chosen
          exact .act state call act rest input world result running ran
        · cases chosen
      · cases chosen
  | environment event =>
      cases chosen
      exact .environment state event

variable {system} in
theorem play_run {world : World} {choices : List (Choice Input Env Request)}
    {state next : State Act Val ε World Request Res} (run : Run system world state)
    (played : play system choices state = some next) : Run system world next := by
  induction choices generalizing state with
  | nil =>
      cases played
      exact run
  | cons choice choices ih =>
      simp only [play] at played
      split at played
      · next middle chosen => exact ih (run.step (choose_step chosen)) played
      · cases played

variable {system} in
theorem play_requests {choices : List (Choice Input Env Request)}
    {state next : State Act Val ε World Request Res} (played : play system choices state = some next)
    {call : Nat} {request : Request} (asked : next.view.requests call = some request) :
    state.view.requests call = some request ∨ .start call request ∈ choices := by
  induction choices generalizing state with
  | nil =>
      cases played
      exact .inl asked
  | cons choice choices ih =>
      simp only [play] at played
      split at played
      · next middle chosen =>
        refine (ih played).elim (fun before => ?_) fun started => .inr (.tail _ started)
        cases choice with
        | start other first =>
            simp only [choose] at chosen
            split at chosen
            · cases chosen
              by_cases same : call = other
              · subst same
                simp only [View.ask, Function.update_self, Option.some.injEq] at before
                exact .inr (before ▸ .head _)
              · simp only [View.ask, Function.update_of_ne same] at before
                exact .inl before
            · cases chosen
        | act other input =>
            simp only [choose] at chosen
            split at chosen
            · split at chosen <;> cases chosen
              exact .inl before
            · cases chosen
        | environment event =>
            cases chosen
            exact .inl before
      · cases played

structure Deed (Act : Type 1) (Val : Act → Type) (ε : Type) : Type 1 where
  act : Act
  result : Except ε (Val act)

abbrev Trace (Act : Type 1) (Val : Act → Type) (ε : Type) := List (Deed Act Val ε)

def Event.deed (event : Event Act Val ε World) : Deed Act Val ε := ⟨event.act, event.result⟩

def View.events (view : View Act Val ε World Request) (call : Nat) : List (Event Act Val ε World) :=
  view.history.filter fun event => event.call = call

def View.trace (view : View Act Val ε World Request) (call : Nat) : Trace Act Val ε :=
  (view.events call).map Event.deed

variable (allowed : Request → Trace Act Val ε → Act → Prop)

/-- A new call, one act that the call's own trace allows, or a move of the environment. -/
inductive Allowed : View Act Val ε World Request → View Act Val ε World Request → Prop
  | start (view : View Act Val ε World Request) (call : Nat) (request : Request)
      (unused : view.requests call = none) (idle : view.trace call = []) :
      Allowed view (view.ask call request)
  | act (view : View Act Val ε World Request) (call : Nat) (request : Request) (act : Act)
      (input : Input) (world : World) (result : Except ε (Val act))
      (asked : view.requests call = some request) (held : allowed request (view.trace call) act)
      (ran : system.exec call act input view.world = some (world, result)) :
      Allowed view (view.record call act result world)
  | environment (view : View Act Val ε World Request) (event : Env) :
      Allowed view { view with world := system.environment event view.world }

def View.start (world : World) : View Act Val ε World Request := ⟨world, fun _ => none, []⟩

abbrev AllowedRun : View Act Val ε World Request → View Act Val ε World Request → Prop :=
  Relation.ReflTransGen (Allowed system allowed)

end Semantics

section Events

variable {Act : Type 1} {Val : Act → Type} {ε World Request : Type}
  {view : View Act Val ε World Request} {call other : Nat} {act : Act} {result : Except ε (Val act)}
  {world : World}

@[simp] theorem record_events_self : (view.record call act result world).events call =
    view.events call ++ [⟨call, act, result, view.world, world⟩] := by
  simp [View.record, View.events]

@[simp] theorem record_events_other (distinct : call ≠ other) :
    (view.record call act result world).events other = view.events other := by
  simp [View.record, View.events, distinct]

@[simp] theorem record_trace_self :
    (view.record call act result world).trace call = view.trace call ++ [⟨act, result⟩] := by
  simp [View.trace, Event.deed]

@[simp] theorem record_trace_other (distinct : call ≠ other) :
    (view.record call act result world).trace other = view.trace other := by
  simp [View.trace, distinct]

@[simp] theorem ask_trace {request : Request} : (view.ask call request).trace other = view.trace other := rfl

theorem ask_requests_self {request : Request} : (view.ask call request).requests call = some request :=
  Function.update_self _ _ _

theorem ask_requests_other {request : Request} (distinct : other ≠ call) :
    (view.ask call request).requests other = view.requests other :=
  Function.update_of_ne distinct _ _

end Events

namespace Prog

variable {Act : Type 1} {Val : Act → Type} {ε α β : Type}

/-- After the trace, every act of the program is allowed and its end meets the postcondition. -/
def wp (allowed : Trace Act Val ε → Act → Prop) : Prog Act Val ε α → Trace Act Val ε →
    (Except ε α → Trace Act Val ε → Prop) → Prop
  | .done result, trace, post => post result trace
  | .act first next, trace, post => allowed trace first ∧
      ∀ result, (next result).wp allowed (trace ++ [⟨first, result⟩]) post

variable {allowed : Trace Act Val ε → Act → Prop} {trace : Trace Act Val ε}

theorem wp_mono {prog : Prog Act Val ε α} {post weak : Except ε α → Trace Act Val ε → Prop}
    (holds : prog.wp allowed trace post) (implies : ∀ result trace, post result trace → weak result trace) :
    prog.wp allowed trace weak := by
  induction prog generalizing trace with
  | done result => exact implies result trace holds
  | act act next ih => exact ⟨holds.1, fun result => ih result (holds.2 result)⟩

theorem wp_grows {prog : Prog Act Val ε α} {post : Except ε α → Trace Act Val ε → Prop}
    (holds : prog.wp allowed trace post) :
    prog.wp allowed trace fun result after => post result after ∧ trace <+: after := by
  induction prog generalizing trace with
  | done result => exact ⟨holds, List.prefix_refl trace⟩
  | act act next ih =>
      refine ⟨holds.1, fun result => wp_mono (ih result (holds.2 result)) ?_⟩
      exact fun _ after grown => ⟨grown.1, (List.prefix_append _ _).trans grown.2⟩

/-- A program that may take any act at least only adds to its trace. -/
theorem wp_any {prog : Prog Act Val ε α} {post : Except ε α → Trace Act Val ε → Prop}
    (holds : ∀ result deeds, post result (trace ++ deeds)) : prog.wp (fun _ _ => True) trace post := by
  induction prog generalizing trace with
  | done result =>
      have ended := holds result []
      rwa [List.append_nil] at ended
  | act act next ih =>
      refine ⟨trivial, fun result => ih result fun ended deeds => ?_⟩
      simpa using holds ended (⟨act, result⟩ :: deeds)

@[simp] theorem wp_pure {value : α} {post : Except ε α → Trace Act Val ε → Prop} :
    (pure value : Prog Act Val ε α).wp allowed trace post ↔ post (.ok value) trace := Iff.rfl

@[simp] theorem wp_throw {error : ε} {post : Except ε α → Trace Act Val ε → Prop} :
    (throw error : Prog Act Val ε α).wp allowed trace post ↔ post (.error error) trace := Iff.rfl

@[simp] theorem wp_ofExcept {result : Except ε α} {post : Except ε α → Trace Act Val ε → Prop} :
    (ofExcept result : Prog Act Val ε α).wp allowed trace post ↔ post result trace := Iff.rfl

theorem wp_bind {prog : Prog Act Val ε α} {rest : α → Prog Act Val ε β}
    {post : Except ε β → Trace Act Val ε → Prop} (middle : Except ε α → Trace Act Val ε → Prop)
    (first : prog.wp allowed trace middle)
    (returned : ∀ value trace, middle (.ok value) trace → (rest value).wp allowed trace post)
    (thrown : ∀ error trace, middle (.error error) trace → post (.error error) trace) :
    (prog >>= rest).wp allowed trace post := by
  change (prog.bind rest).wp allowed trace post
  induction prog generalizing trace with
  | done result =>
      cases result with
      | ok value => exact returned value trace first
      | error error => exact thrown error trace first
  | act act next ih => exact ⟨first.1, fun result => ih result (first.2 result)⟩

theorem wp_tryCatch {prog : Prog Act Val ε α} {handler : ε → Prog Act Val ε α}
    {post : Except ε α → Trace Act Val ε → Prop} (middle : Except ε α → Trace Act Val ε → Prop)
    (first : prog.wp allowed trace middle)
    (returned : ∀ value trace, middle (.ok value) trace → post (.ok value) trace)
    (caught : ∀ error trace, middle (.error error) trace → (handler error).wp allowed trace post) :
    (tryCatch prog handler).wp allowed trace post := by
  induction prog generalizing trace with
  | done result =>
      cases result with
      | ok value => exact returned value trace first
      | error error => exact caught error trace first
  | act act next ih => exact ⟨first.1, fun result => ih result (first.2 result)⟩

def Only (kind : Act → Prop) : Prog Act Val ε α → Prop
  | done _ => True
  | act first next => kind first ∧ ∀ result, (next result).Only kind

section Only

variable {kind : Act → Prop}

theorem only_pure {value : α} : (pure value : Prog Act Val ε α).Only kind := trivial

theorem only_bind {prog : Prog Act Val ε α} {rest : α → Prog Act Val ε β}
    (first : prog.Only kind) (second : ∀ value, (rest value).Only kind) :
    (prog >>= rest).Only kind := by
  change (prog.bind rest).Only kind
  induction prog with
  | done result =>
      cases result with
      | ok value => exact second value
      | error error => trivial
  | act act next ih => exact ⟨first.1, fun result => ih result (first.2 result)⟩

theorem only_tryCatch {prog : Prog Act Val ε α} {handler : ε → Prog Act Val ε α}
    (first : prog.Only kind) (second : ∀ error, (handler error).Only kind) :
    (tryCatch prog handler).Only kind := by
  induction prog with
  | done result =>
      cases result with
      | ok value => trivial
      | error error => exact second error
  | act act next ih => exact ⟨first.1, fun result => ih result (first.2 result)⟩

theorem only_call {act : Act} (holds : kind act) :
    (call act : Prog Act Val ε (Val act)).Only kind :=
  ⟨holds, fun _ => trivial⟩

theorem only_mono {wide : Act → Prop} {prog : Prog Act Val ε α} (only : prog.Only kind)
    (implies : ∀ act, kind act → wide act) : prog.Only wide := by
  induction prog with
  | done result => trivial
  | act act next ih => exact ⟨implies act only.1, fun result => ih result (only.2 result)⟩

theorem only_any (prog : Prog Act Val ε α) : prog.Only fun _ => True := by
  induction prog with
  | done result => trivial
  | act act next ih => exact ⟨trivial, ih⟩

def Returns (post : α → Prop) : Prog Act Val ε α → Prop
  | done (.ok value) => post value
  | done (.error _) => True
  | act _ next => ∀ result, (next result).Returns post

theorem returns_bind {prog : Prog Act Val ε α} {rest : α → Prog Act Val ε β} {post : β → Prop}
    (middle : α → Prop) (first : prog.Returns middle)
    (second : ∀ value, middle value → (rest value).Returns post) : (prog >>= rest).Returns post := by
  change (prog.bind rest).Returns post
  induction prog with
  | done result =>
      cases result with
      | ok value => exact second value first
      | error error => trivial
  | act act next ih => exact fun result => ih result (first result)

theorem returns_tryCatch {prog : Prog Act Val ε α} {handler : ε → Prog Act Val ε α} {post : α → Prop}
    (first : prog.Returns post) (second : ∀ error, (handler error).Returns post) :
    (tryCatch prog handler).Returns post := by
  induction prog with
  | done result =>
      cases result with
      | ok value => exact first
      | error error => exact second error
  | act act next ih => exact fun result => ih result (first result)

theorem returns_any (prog : Prog Act Val ε α) : prog.Returns fun _ => True := by
  induction prog with
  | done result => cases result <;> trivial
  | act act next ih => exact ih

theorem wp_returned {prog : Prog Act Val ε α} {property : α → Prop}
    {post : Except ε α → Trace Act Val ε → Prop} (returns : prog.Returns property)
    (holds : prog.wp allowed trace post) : prog.wp allowed trace fun result after =>
      post result after ∧ ∀ value, result = .ok value → property value := by
  induction prog generalizing trace with
  | done result =>
      refine ⟨holds, fun value same => ?_⟩
      subst same
      exact returns
  | act act next ih => exact ⟨holds.1, fun result => ih result (returns result) (holds.2 result)⟩

theorem only_returned {prog : Prog Act Val ε α} {rest : α → Prog Act Val ε β} (middle : α → Prop)
    (returns : prog.Returns middle) (first : prog.Only kind)
    (second : ∀ value, middle value → (rest value).Only kind) : (prog >>= rest).Only kind := by
  change (prog.bind rest).Only kind
  induction prog with
  | done result =>
      cases result with
      | ok value => exact second value returns
      | error error => trivial
  | act act next ih => exact ⟨first.1, fun result => ih result (returns result) (first.2 result)⟩

/-- If acts of the kind are always allowed, all that is left to know of such a
program is that its deeds are of the kind. -/
theorem wp_only {prog : Prog Act Val ε α} {post : Except ε α → Trace Act Val ε → Prop}
    (only : prog.Only kind) (free : ∀ trace act, kind act → allowed trace act)
    (holds : ∀ result deeds, (∀ deed ∈ deeds, kind deed.act) → post result (trace ++ deeds)) :
    prog.wp allowed trace post := by
  induction prog generalizing trace with
  | done result =>
      have ended := holds result [] (by simp)
      rwa [List.append_nil] at ended
  | act act next ih =>
      refine ⟨free trace act only.1, fun result => ih result (only.2 result) ?_⟩
      intro result deeds kinds
      rw [List.append_assoc]
      refine holds result _ fun deed member => ?_
      rcases List.mem_cons.mp member with rfl | other
      · exact only.1
      · exact kinds deed other

theorem wp_beyond {prog : Prog Act Val ε α} (only : prog.Only kind)
    (free : ∀ deeds act, kind act → allowed (trace ++ deeds) act) :
    prog.wp allowed trace fun _ _ => True := by
  induction prog generalizing trace with
  | done result => trivial
  | act act next ih =>
      refine ⟨?_, fun result => ih result (only.2 result) fun deeds other holds => ?_⟩
      · have first := free [] act only.1
        rwa [List.append_nil] at first
      · rw [List.append_assoc]
        exact free _ other holds

theorem wp_restrict {prog : Prog Act Val ε α} {post : Except ε α → Trace Act Val ε → Prop}
    (holds : prog.wp allowed trace post) (only : prog.Only kind) :
    prog.wp allowed trace fun result after => post result after ∧
      ∃ deeds, (∀ deed ∈ deeds, kind deed.act) ∧ after = trace ++ deeds := by
  induction prog generalizing trace with
  | done result => exact ⟨holds, [], by simp, by simp⟩
  | act act next ih =>
      refine ⟨holds.1, fun result => wp_mono (ih result (holds.2 result) (only.2 result)) ?_⟩
      rintro _ _ ⟨ended, deeds, kinds, rfl⟩
      refine ⟨ended, ⟨act, result⟩ :: deeds, fun deed member => ?_, by simp⟩
      rcases List.mem_cons.mp member with rfl | other
      · exact only.1
      · exact kinds deed other

end Only

end Prog

section Soundness

variable {Act : Type 1} {Val : Act → Type} {ε World Input Env Request Res : Type}
  {system : System Act Val ε World Input Env Request Res}
  {allowed : Request → Trace Act Val ε → Act → Prop}
  {post : Request → Except ε Res → Trace Act Val ε → Prop}

/-- Every run of programs that are allowed from the empty trace is a run of
allowed acts, and what is left of each call is allowed after its trace. -/
theorem run_allowed {world : World} {state : State Act Val ε World Request Res}
    (programs : ∀ request, (system.program request).wp (allowed request) [] (post request))
    (run : Run system world state) :
    AllowedRun system allowed (.start world) state.view ∧
      (∀ call, state.pool call = none →
        state.view.requests call = none ∧ state.view.trace call = []) ∧
      ∀ call prog, state.pool call = some prog → ∃ request,
        state.view.requests call = some request ∧
          prog.wp (allowed request) (state.view.trace call) (post request) := by
  induction run with
  | start =>
      refine ⟨.refl, fun call _ => ⟨rfl, rfl⟩, ?_⟩
      intro call prog running
      cases running
  | @step state next _ step ih =>
      obtain ⟨before, idle, ready⟩ := ih
      cases step with
      | start call request free =>
          obtain ⟨unused, silent⟩ := idle call free
          refine ⟨before.tail (.start state.view call request unused silent), ?_, ?_⟩
          · intro other none
            by_cases same : other = call
            · simp [same] at none
            · have resting := idle other (by simpa [same] using none)
              exact ⟨(ask_requests_other same).trans resting.1, resting.2⟩
          · intro other prog running
            by_cases same : other = call
            · subst same
              simp only [Function.update_self, Option.some.injEq] at running
              subst running
              refine ⟨request, ask_requests_self, ?_⟩
              rw [ask_trace, silent]
              exact programs request
            · simp only [Function.update_of_ne same] at running
              obtain ⟨asked, requested, holds⟩ := ready other prog running
              exact ⟨asked, (ask_requests_other same).trans requested, holds⟩
      | act call act rest input world result running ran =>
          obtain ⟨request, asked, held, after⟩ := ready call _ running
          refine ⟨before.tail (.act state.view call request act input world result asked held ran), ?_, ?_⟩
          · intro other none
            by_cases same : other = call
            · simp [same] at none
            · have resting := idle other (by simpa [same] using none)
              exact ⟨resting.1, by rw [record_trace_other (Ne.symm same)]; exact resting.2⟩
          · intro other prog running
            by_cases same : other = call
            · subst same
              simp only [Function.update_self, Option.some.injEq] at running
              subst running
              refine ⟨request, asked, ?_⟩
              rw [record_trace_self]
              exact after result
            · simp only [Function.update_of_ne same] at running
              obtain ⟨otherRequest, requested, holds⟩ := ready other prog running
              refine ⟨otherRequest, requested, ?_⟩
              rwa [record_trace_other (Ne.symm same)]
      | environment event =>
          exact ⟨before.tail (.environment state.view event), idle, ready⟩

theorem allowed_invariant {inv : View Act Val ε World Request → Prop}
    {first last : View Act Val ε World Request}
    (kept : ∀ view next, inv view → Allowed system allowed view next → inv next)
    (run : AllowedRun system allowed first last) (initial : inv first) : inv last := by
  induction run with
  | refl => exact initial
  | tail _ step ih => exact kept _ _ ih step

theorem allowed_requests {first last : View Act Val ε World Request}
    (run : AllowedRun system allowed first last) {call : Nat} {request : Request}
    (asked : first.requests call = some request) : last.requests call = some request := by
  have kept : ∀ view next : View Act Val ε World Request, view.requests call = some request →
      Allowed system allowed view next → next.requests call = some request := by
    intro view next asked step
    cases step with
    | start other request' unused idle =>
        by_cases same : call = other
        · rw [← same, asked] at unused
          cases unused
        · exact (ask_requests_other same).trans asked
    | act other request' act input world result asked' held ran => exact asked
    | environment event => exact asked
  exact allowed_invariant kept run asked

theorem allowed_event {start view : View Act Val ε World Request}
    (run : AllowedRun system allowed start view) {before after : List (Event Act Val ε World)}
    {event : Event Act Val ε World} (empty : start.history = [])
    (history : view.history = before ++ event :: after) :
    ∃ earlier request input, AllowedRun system allowed start earlier ∧ earlier.history = before ∧
      earlier.world = event.before ∧ earlier.requests event.call = some request ∧
      allowed request (earlier.trace event.call) event.act ∧
      system.exec event.call event.act input event.before = some (event.after, event.result) ∧
      AllowedRun system allowed (earlier.record event.call event.act event.result event.after) view := by
  induction run generalizing after with
  | refl => simp [empty] at history
  | @tail middle next sofar step ih =>
      cases step with
      | start call request unused idle =>
          obtain ⟨earlier, request', input, run, same, world, asked, held, ran, rest⟩ := ih history
          exact ⟨earlier, request', input, run, same, world, asked, held, ran,
            rest.tail (.start middle call request unused idle)⟩
      | environment move =>
          obtain ⟨earlier, request', input, run, same, world, asked, held, ran, rest⟩ := ih history
          exact ⟨earlier, request', input, run, same, world, asked, held, ran,
            rest.tail (.environment middle move)⟩
      | act call request act input world result asked held ran =>
          rcases List.eq_nil_or_concat after with rfl | ⟨others, last, rfl⟩
          · obtain ⟨same, rfl⟩ := List.append_inj' history rfl |>.imp id List.singleton_inj.mp
            exact ⟨middle, request, input, sofar, same, rfl, asked, held, ran, .refl⟩
          · have shape : middle.history ++ [⟨call, act, result, middle.world, world⟩] =
                (before ++ event :: others) ++ [last] := by simpa [View.record] using history
            obtain ⟨same, -⟩ := List.append_inj' shape rfl
            obtain ⟨earlier, request', input', run, same, world', asked', held', ran', rest⟩ := ih same
            exact ⟨earlier, request', input', run, same, world', asked', held', ran',
              rest.tail (.act middle call request act input world result asked held ran)⟩

theorem run_event {world : World} {state : State Act Val ε World Request Res}
    (programs : ∀ request, (system.program request).wp (allowed request) [] (post request))
    (run : Run system world state) {before after : List (Event Act Val ε World)}
    {event : Event Act Val ε World} (history : state.view.history = before ++ event :: after) :
    ∃ request, state.view.requests event.call = some request ∧
      allowed request ((before.filter fun other => other.call = event.call).map Event.deed)
        event.act := by
  obtain ⟨earlier, request, input, -, same, -, asked, held, -, rest⟩ :=
    allowed_event (run_allowed programs run).1 rfl history
  refine ⟨request, allowed_requests rest asked, ?_⟩
  rw [← same]
  exact held

theorem allowed_latest {property : World → Prop} {start view : View Act Val ε World Request}
    (still : ∀ event world, property (system.environment event world) ↔ property world)
    (run : AllowedRun system allowed start view) (empty : start.history = [])
    {before : List (Event Act Val ε World)} {event : Event Act Val ε World}
    (history : view.history = before ++ [event]) : property event.after ↔ property view.world := by
  induction run with
  | refl => simp [empty] at history
  | tail sofar step ih =>
      cases step with
      | start call request unused idle => exact ih history
      | environment move => exact (ih history).trans (still move _).symm
      | act call request act input world result asked held ran =>
          obtain ⟨-, single⟩ := List.append_inj' history rfl
          cases List.singleton_inj.mp single
          rfl

theorem allowed_next {property : World → Prop} {start view : View Act Val ε World Request}
    (still : ∀ event world, property (system.environment event world) ↔ property world)
    (run : AllowedRun system allowed start view) (empty : start.history = [])
    {before after : List (Event Act Val ε World)} {first second : Event Act Val ε World}
    (history : view.history = before ++ first :: second :: after) :
    property first.after ↔ property second.before := by
  have shape : view.history = (before ++ [first]) ++ second :: after := by simp [history]
  obtain ⟨earlier, request, input, sofar, same, world, -⟩ := allowed_event run empty shape
  exact world ▸ allowed_latest still sofar empty same

/-- What holds at the start and is kept by every act holds at the end. It may depend on
the acts so far. -/
theorem allowed_along {property : List (Event Act Val ε World) → World → Prop}
    {start view : View Act Val ε World Request}
    (still : ∀ events move world, property events (system.environment move world) ↔ property events world)
    (run : AllowedRun system allowed start view) (empty : start.history = [])
    (initial : property [] start.world)
    (kept : ∀ before event after, view.history = before ++ event :: after →
      property before event.before → property (before ++ [event]) event.after) :
    property view.history view.world := by
  induction run with
  | refl =>
      rw [empty]
      exact initial
  | @tail middle next sofar step ih =>
      cases step with
      | start call request unused idle => exact ih kept
      | environment move => exact (still _ move _).mpr (ih kept)
      | act call request act input world result asked held ran =>
          refine kept _ _ [] rfl (ih fun before event after shape => kept before event
            (after ++ [⟨call, act, result, middle.world, world⟩]) ?_)
          simp [View.record, shape]

theorem allowed_always {property : World → Prop} {start view : View Act Val ε World Request}
    (still : ∀ event world, property (system.environment event world) ↔ property world)
    (run : AllowedRun system allowed start view) (empty : start.history = [])
    (initial : property start.world)
    (kept : ∀ event ∈ view.history, property event.before → property event.after) :
    property view.world ∧ ∀ event ∈ view.history, property event.before := by
  induction run with
  | refl =>
      refine ⟨initial, fun event member => ?_⟩
      rw [empty] at member
      cases member
  | tail sofar step ih =>
      cases step with
      | start call request unused idle => exact ih kept
      | environment move =>
          obtain ⟨holds, before⟩ := ih kept
          exact ⟨(still move _).mpr holds, before⟩
      | act call request act input world result asked held ran =>
          obtain ⟨holds, before⟩ := ih fun event member => kept event (List.mem_append_left _ member)
          refine ⟨kept _ (List.mem_append_right _ (.head _)) holds, fun event member => ?_⟩
          rcases List.mem_append.mp member with old | new
          · exact before event old
          · exact List.mem_singleton.mp new ▸ holds

/-- What held after one act and not before a later one was broken by an act between
them, after which it did not hold again. -/
theorem allowed_breaks {property : World → Prop} {start view : View Act Val ε World Request}
    (still : ∀ event world, property (system.environment event world) ↔ property world)
    (run : AllowedRun system allowed start view) (empty : start.history = [])
    {early between late : List (Event Act Val ε World)} {first last : Event Act Val ε World}
    (history : view.history = early ++ first :: (between ++ last :: late))
    (holds : property first.after) (broken : ¬property last.before) :
    ∃ before change after, between = before ++ change :: after ∧ property change.before ∧
      ¬property change.after ∧ ∀ event ∈ after, ¬property event.before ∧ ¬property event.after := by
  induction between using List.reverseRecOn generalizing last late with
  | nil => exact absurd ((allowed_next still run empty history).mp holds) broken
  | append_singleton between event ih =>
      have shape : view.history = (early ++ first :: between) ++ event :: last :: late := by
        simp [history]
      have lost : ¬property event.after := fun kept =>
        broken ((allowed_next still run empty shape).mp kept)
      by_cases held : property event.before
      · exact ⟨between, event, [], rfl, held, lost, by simp⟩
      · obtain ⟨before, change, after, rfl, first, second, others⟩ :=
          @ih (last :: late) event (by simp [history]) held
        refine ⟨before, change, after ++ [event], by simp, first, second, fun other member => ?_⟩
        rcases List.mem_append.mp member with old | new
        · exact others other old
        · exact List.mem_singleton.mp new ▸ ⟨held, lost⟩

theorem allowed_keeps {property : World → Prop} {start view : View Act Val ε World Request}
    (still : ∀ event world, property (system.environment event world) ↔ property world)
    (run : AllowedRun system allowed start view) (empty : start.history = [])
    {early between late : List (Event Act Val ε World)} {first last : Event Act Val ε World}
    (history : view.history = early ++ first :: (between ++ last :: late))
    (holds : property first.after)
    (kept : ∀ event ∈ between, property event.before → property event.after) :
    property last.before := by
  by_contra broken
  obtain ⟨before, change, after, rfl, held, lost, -⟩ :=
    allowed_breaks still run empty history holds broken
  exact lost (kept change (by simp) held)

theorem allowed_lasts {property : World → Prop} {start view : View Act Val ε World Request}
    (still : ∀ event world, property (system.environment event world) ↔ property world)
    (run : AllowedRun system allowed start view) (empty : start.history = [])
    {before after : List (Event Act Val ε World)} {first : Event Act Val ε World}
    (history : view.history = before ++ first :: after) (holds : property first.after)
    (kept : ∀ event ∈ after, property event.before → property event.after) :
    property view.world := by
  rcases List.eq_nil_or_concat after with rfl | ⟨between, last, rfl⟩
  · exact (allowed_latest still run empty history).mp holds
  · have early : view.history = before ++ first :: (between ++ last :: []) := by simpa using history
    have found : property last.before :=
      allowed_keeps still run empty early holds fun event member => kept event (by simp [member])
    have late : view.history = (before ++ first :: between) ++ [last] := by simpa using history
    exact (allowed_latest still run empty late).mp (kept last (by simp) found)

end Soundness

end Interleaving
