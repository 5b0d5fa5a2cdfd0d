import Mathlib.Logic.Function.Basic

/-! Transactions that take one exclusive lock first and then run statement by
statement. Any number of them may be open at once on different keys, statements
of different transactions interleave freely, and every open transaction may be
rolled back before its commit. The main result reads an interleaved run as a
serial one: each transaction takes effect at its commit, whole or not at all. -/

namespace LockedTransactions

/-- A transaction body over the region its lock protects. A statement writes
the transaction's own view and hands the view it started from to the rest. -/
inductive Script (ρ ε α : Type) : Type
  | commit (result : α)
  | rollback (error : ε)
  | statement (write : ρ → ρ) (next : ρ → Script ρ ε α)

namespace Script

variable {ρ ε α β : Type}

def bind : Script ρ ε α → (α → Script ρ ε β) → Script ρ ε β
  | commit result, continuation => continuation result
  | rollback error, _ => rollback error
  | statement write next, continuation =>
      statement write (fun view => (next view).bind continuation)

instance : Monad (Script ρ ε) where
  pure := commit
  bind := bind

def query (read : ρ → α) : Script ρ ε α :=
  statement id (fun view => commit (read view))

/-- A statement that may violate a constraint, which rolls the body back. -/
def execute (write : ρ → Except ε (ρ × α)) : Script ρ ε α :=
  statement (fun view => match write view with
    | .ok (written, _) => written
    | .error _ => view)
  (fun view => match write view with
    | .ok (_, rows) => commit rows
    | .error error => rollback error)

def run : Script ρ ε α → ρ → Except ε (ρ × α)
  | commit result, view => .ok (view, result)
  | rollback error, _ => .error error
  | statement write next, view => (next view).run (write view)

/-- Every view the body passes through from here on satisfies the property. -/
def Keeps (property : ρ → Prop) : Script ρ ε α → ρ → Prop
  | commit _, view => property view
  | rollback _, view => property view
  | statement write next, view =>
      property view ∧ (next view).Keeps property (write view)

@[simp] theorem run_pure (result : α) (view : ρ) :
    (pure result : Script ρ ε α).run view = .ok (view, result) := rfl

@[simp] theorem run_rollback (error : ε) (view : ρ) :
    (rollback error : Script ρ ε α).run view = .error error := rfl

@[simp] theorem run_query (read : ρ → α) (view : ρ) :
    (query read : Script ρ ε α).run view = .ok (view, read view) := rfl

@[simp] theorem run_execute (write : ρ → Except ε (ρ × α)) (view : ρ) :
    (execute write).run view = write view := by
  simp only [execute, run]
  cases write view with
  | ok written => rfl
  | error error => rfl

@[simp] theorem run_bind (body : Script ρ ε α) (continuation : α → Script ρ ε β) (view : ρ) :
    (body >>= continuation).run view = match body.run view with
      | .ok (middle, result) => (continuation result).run middle
      | .error error => .error error := by
  change (body.bind continuation).run view = _
  induction body generalizing view with
  | commit result => rfl
  | rollback error => rfl
  | statement write next ih => exact ih view (write view)

theorem run_bind_ok {body : Script ρ ε α} {continuation : α → Script ρ ε β} {view written : ρ}
    {result : β} (ran : (body >>= continuation).run view = .ok (written, result)) :
    ∃ middle value, body.run view = .ok (middle, value) ∧
      (continuation value).run middle = .ok (written, result) := by
  rw [run_bind] at ran
  split at ran
  · next middle value outcome => exact ⟨middle, value, outcome, ran⟩
  · cases ran

@[simp] theorem keeps_pure (property : ρ → Prop) (result : α) (view : ρ) :
    (pure result : Script ρ ε α).Keeps property view ↔ property view := Iff.rfl

@[simp] theorem keeps_rollback (property : ρ → Prop) (error : ε) (view : ρ) :
    (rollback error : Script ρ ε α).Keeps property view ↔ property view := Iff.rfl

@[simp] theorem keeps_query (property : ρ → Prop) (read : ρ → α) (view : ρ) :
    (query read : Script ρ ε α).Keeps property view ↔ property view := by
  simp [query, Keeps]

theorem keeps_execute (property : ρ → Prop) (write : ρ → Except ε (ρ × α)) (view : ρ)
    (before : property view)
    (after : ∀ written rows, write view = .ok (written, rows) → property written) :
    (execute write).Keeps property view := by
  refine ⟨before, ?_⟩
  dsimp only
  split
  · next written rows outcome => exact after written rows outcome
  · exact before

theorem keeps_bind (property : ρ → Prop) (body : Script ρ ε α)
    (continuation : α → Script ρ ε β) (view : ρ) (first : body.Keeps property view)
    (second : ∀ middle result, body.run view = .ok (middle, result) →
      (continuation result).Keeps property middle) :
    (body >>= continuation).Keeps property view := by
  change (body.bind continuation).Keeps property view
  induction body generalizing view with
  | commit result => exact second view result rfl
  | rollback error => exact first
  | statement write next ih =>
      exact ⟨first.1, ih view (write view) first.2 second⟩

theorem keeps_start (property : ρ → Prop) (body : Script ρ ε α) (view : ρ)
    (kept : body.Keeps property view) : property view := by
  cases body with
  | commit result => exact kept
  | rollback error => exact kept
  | statement write next => exact kept.1

theorem keeps_run (property : ρ → Prop) (body : Script ρ ε α) (view written : ρ) (result : α)
    (kept : body.Keeps property view) (ran : body.run view = .ok (written, result)) :
    property written := by
  induction body generalizing view with
  | commit value =>
      simp only [run, Except.ok.injEq, Prod.mk.injEq] at ran
      exact ran.1 ▸ kept
  | rollback error => cases ran
  | statement write next ih => exact ih view (write view) kept.2 ran

end Script

structure Service (κ ι ρ ε α : Type) where
  key : ι → κ
  body : ι → Script ρ ε α

inductive Outcome (ε α : Type) : Type
  | committed (result : α)
  | rolledBack (error : ε)

structure Opened (ι ρ ε α : Type) where
  request : ι
  view : ρ
  rest : Script ρ ε α

structure State (κ ι ρ ε α : Type) where
  committed : κ → ρ
  opened : κ → Option (Opened ι ρ ε α)

section Interleaving

variable {κ ι ρ ε α : Type} [DecidableEq κ] (service : Service κ ι ρ ε α)

/-- The lock of a key is held exactly while a transaction is open on it. The
list carries the transaction that ended in the step, if one did. -/
inductive Step : State κ ι ρ ε α → List (ι × Outcome ε α) → State κ ι ρ ε α → Prop
  | start (state : State κ ι ρ ε α) (request : ι)
      (free : state.opened (service.key request) = none) :
      Step state [] { state with
        opened := Function.update state.opened (service.key request)
          (some ⟨request, state.committed (service.key request), service.body request⟩) }
  | statement (state : State κ ι ρ ε α) (key : κ) (request : ι) (view : ρ)
      (write : ρ → ρ) (next : ρ → Script ρ ε α)
      (running : state.opened key = some ⟨request, view, .statement write next⟩) :
      Step state [] { state with
        opened := Function.update state.opened key (some ⟨request, write view, next view⟩) }
  | commit (state : State κ ι ρ ε α) (key : κ) (request : ι) (view : ρ) (result : α)
      (running : state.opened key = some ⟨request, view, .commit result⟩) :
      Step state [(request, .committed result)]
        ⟨Function.update state.committed key view, Function.update state.opened key none⟩
  | rollback (state : State κ ι ρ ε α) (key : κ) (request : ι) (view : ρ) (error : ε)
      (running : state.opened key = some ⟨request, view, .rollback error⟩) :
      Step state [(request, .rolledBack error)]
        { state with opened := Function.update state.opened key none }
  -- A statement fails or the connection is lost: nothing of the transaction stays.
  | abort (state : State κ ι ρ ε α) (key : κ) :
      Step state [] { state with opened := Function.update state.opened key none }

inductive Run (start : State κ ι ρ ε α) : List (ι × Outcome ε α) → State κ ι ρ ε α → Prop
  | refl : Run start [] start
  | step {trace ended : List (ι × Outcome ε α)} {middle final : State κ ι ρ ε α} :
      Run start trace middle → Step service middle ended final →
      Run start (trace ++ ended) final

inductive Effect : (κ → ρ) → ι × Outcome ε α → (κ → ρ) → Prop
  | committed (regions : κ → ρ) (request : ι) (written : ρ) (result : α)
      (ran : (service.body request).run (regions (service.key request)) = .ok (written, result)) :
      Effect regions (request, .committed result)
        (Function.update regions (service.key request) written)
  | rolledBack (regions : κ → ρ) (request : ι) (error : ε)
      (ran : (service.body request).run (regions (service.key request)) = .error error) :
      Effect regions (request, .rolledBack error) regions

inductive Serial (start : κ → ρ) : List (ι × Outcome ε α) → (κ → ρ) → Prop
  | refl : Serial start [] start
  | step {trace : List (ι × Outcome ε α)} {ended : ι × Outcome ε α} {middle final : κ → ρ} :
      Serial start trace middle → Effect service middle ended final →
      Serial start (trace ++ [ended]) final

/-- What is left of an open transaction, run on its view, is the whole body
run on the committed region: its lock has kept that region as it was. -/
def Synchronised (state : State κ ι ρ ε α) : Prop :=
  ∀ key opened, state.opened key = some opened →
    service.key opened.request = key ∧
    opened.rest.run opened.view =
      (service.body opened.request).run (state.committed key)

variable {service}

theorem opened_update {opened : κ → Option (Opened ι ρ ε α)} {key other : κ}
    {value : Option (Opened ι ρ ε α)} {found : Opened ι ρ ε α}
    (present : Function.update opened key value other = some found) :
    (other = key ∧ value = some found) ∨ (other ≠ key ∧ opened other = some found) := by
  by_cases same : other = key
  · subst other
    rw [Function.update_self] at present
    exact .inl ⟨rfl, present⟩
  · rw [Function.update_of_ne same] at present
    exact .inr ⟨same, present⟩

theorem synchronised_step {state next : State κ ι ρ ε α} {ended : List (ι × Outcome ε α)}
    (synchronised : Synchronised service state) (step : Step service state ended next) :
    Synchronised service next := by
  intro other opened present
  cases step with
  | start request free =>
      rcases opened_update present with ⟨rfl, this⟩ | ⟨_, present⟩
      · cases this
        exact ⟨rfl, rfl⟩
      · exact synchronised other opened present
  | statement key request view write rest running =>
      rcases opened_update present with ⟨rfl, this⟩ | ⟨_, present⟩
      · cases this
        have locked := synchronised other _ running
        exact locked
      · exact synchronised other opened present
  | commit key request view result running =>
      rcases opened_update present with ⟨_, this⟩ | ⟨distinct, present⟩
      · cases this
      · simp only [Function.update_of_ne distinct]
        exact synchronised other opened present
  | rollback key request view error running =>
      rcases opened_update present with ⟨_, this⟩ | ⟨_, present⟩
      · cases this
      · exact synchronised other opened present
  | abort key =>
      rcases opened_update present with ⟨_, this⟩ | ⟨_, present⟩
      · cases this
      · exact synchronised other opened present

theorem step_effect {state next : State κ ι ρ ε α} {ended : List (ι × Outcome ε α)}
    (synchronised : Synchronised service state) (step : Step service state ended next) :
    (ended = [] ∧ next.committed = state.committed) ∨
      ∃ transaction, ended = [transaction] ∧
        Effect service state.committed transaction next.committed := by
  cases step with
  | start request free => exact .inl ⟨rfl, rfl⟩
  | statement key request view write rest running => exact .inl ⟨rfl, rfl⟩
  | commit key request view result running =>
      obtain ⟨locked, ran⟩ := synchronised key _ running
      simp only at locked
      subst key
      exact .inr ⟨_, rfl, .committed _ request view result ran.symm⟩
  | rollback key request view error running =>
      obtain ⟨locked, ran⟩ := synchronised key _ running
      simp only at locked
      subst key
      exact .inr ⟨_, rfl, .rolledBack _ request error ran.symm⟩
  | abort key => exact .inl ⟨rfl, rfl⟩

/-- Every interleaving of locked transactions is a serial run of the
transactions that ended, in the order in which they ended. -/
theorem run_serial {start final : State κ ι ρ ε α} {trace : List (ι × Outcome ε α)}
    (quiet : ∀ key, start.opened key = none) (run : Run service start trace final) :
    Serial service start.committed trace final.committed ∧ Synchronised service final := by
  induction run with
  | refl =>
      refine ⟨.refl, ?_⟩
      intro key opened running
      simp [quiet key] at running
  | step _ step ih =>
      obtain ⟨serial, synchronised⟩ := ih
      refine ⟨?_, synchronised_step synchronised step⟩
      rcases step_effect synchronised step with ⟨rfl, unchanged⟩ | ⟨ended, rfl, effect⟩
      · simpa [unchanged] using serial
      · exact .step serial effect

theorem Run.trans {start middle final : State κ ι ρ ε α} {first second : List (ι × Outcome ε α)}
    (left : Run service start first middle) (right : Run service middle second final) :
    Run service start (first ++ second) final := by
  induction right with
  | refl => simpa using left
  | step _ step ih => simpa using Run.step ih step

theorem run_opened {key : κ} {request : ι} {view : ρ} {rest : Script ρ ε α}
    {state : State κ ι ρ ε α} (running : state.opened key = some ⟨request, view, rest⟩) :
    match rest.run view with
    | .ok (written, result) => Run service state [(request, .committed result)]
        ⟨Function.update state.committed key written, Function.update state.opened key none⟩
    | .error error => Run service state [(request, .rolledBack error)]
        { state with opened := Function.update state.opened key none } := by
  induction rest generalizing view state with
  | commit result => exact .step .refl (.commit state key request view result running)
  | rollback error => exact .step .refl (.rollback state key request view error running)
  | statement write next ih =>
      have first : Run service state [] _ :=
        .step .refl (.statement state key request view write next running)
      have later := @ih view (write view) { state with
        opened := Function.update state.opened key (some ⟨request, write view, next view⟩) }
        (Function.update_self ..)
      simp only [Function.update_idem] at later
      simp only [Script.run]
      split at later
      · exact first.trans later
      · exact first.trans later

theorem run_request {state : State κ ι ρ ε α} {request : ι}
    (free : state.opened (service.key request) = none) :
    match (service.body request).run (state.committed (service.key request)) with
    | .ok (written, result) => Run service state [(request, .committed result)]
        { state with committed := Function.update state.committed (service.key request) written }
    | .error error => Run service state [(request, .rolledBack error)] state := by
  have started : Run service state [] _ := .step .refl (.start state request free)
  have ended := @run_opened κ ι ρ ε α _ service (service.key request) request
    (state.committed (service.key request)) (service.body request) { state with
      opened := Function.update state.opened (service.key request)
        (some ⟨request, state.committed (service.key request), service.body request⟩) }
    (Function.update_self ..)
  have closed : Function.update state.opened (service.key request) none = state.opened := by
    rw [← free, Function.update_eq_self]
  simp only [Function.update_idem, closed] at ended
  split at ended
  · exact started.trans ended
  · exact started.trans ended

theorem serial_run {start final : κ → ρ} {trace : List (ι × Outcome ε α)}
    (serial : Serial service start trace final) :
    Run service ⟨start, fun _ => none⟩ trace ⟨final, fun _ => none⟩ := by
  induction serial with
  | refl => exact .refl
  | @step trace ended middle final _ effect ih =>
      refine ih.trans ?_
      cases effect with
      | committed request written result ran =>
          have whole := @run_request κ ι ρ ε α _ service ⟨middle, fun _ => none⟩ request rfl
          simpa only [ran] using whole
      | rolledBack request error ran =>
          have whole := @run_request κ ι ρ ε α _ service ⟨middle, fun _ => none⟩ request rfl
          simpa only [ran] using whole

theorem Serial.split {start final : κ → ρ} {first second : List (ι × Outcome ε α)}
    (serial : Serial service start (first ++ second) final) :
    ∃ middle, Serial service start first middle ∧ Serial service middle second final := by
  generalize whole : first ++ second = trace at serial
  induction serial generalizing second with
  | refl =>
      obtain ⟨rfl, rfl⟩ := List.append_eq_nil_iff.mp whole
      exact ⟨start, .refl, .refl⟩
  | @step trace ended middle final before effect ih =>
      rcases List.eq_nil_or_concat second with rfl | ⟨initial, last, rfl⟩
      · rw [List.append_nil] at whole
        subst whole
        exact ⟨final, .step before effect, .refl⟩
      · rw [List.concat_eq_append, ← List.append_assoc] at whole
        obtain ⟨rfl, equal⟩ := List.append_inj' whole rfl
        cases List.cons.inj equal |>.1
        obtain ⟨cut, left, right⟩ := ih rfl
        exact ⟨cut, left, by simpa using Serial.step right effect⟩

/-- A property of single regions that every body keeps holds of every region
of a serial run. -/
theorem Serial.invariant {start final : κ → ρ} {trace : List (ι × Outcome ε α)}
    (property : κ → ρ → Prop) (initially : ∀ key, property key (start key))
    (kept : ∀ request region written result,
      property (service.key request) region →
      (service.body request).run region = .ok (written, result) →
      property (service.key request) written)
    (serial : Serial service start trace final) : ∀ key, property key (final key) := by
  induction serial with
  | refl => exact initially
  | step _ effect ih =>
      cases effect with
      | committed request written result ran =>
          intro key
          by_cases same : key = service.key request
          · subst key
            rw [Function.update_self]
            exact kept request _ written result (ih _) ran
          · rw [Function.update_of_ne same]
            exact ih key
      | rolledBack request error ran => exact ih

/-- The same for the views of the transactions still open, where every body
keeps the property at each of its statements. -/
theorem run_views {start final : State κ ι ρ ε α} {trace : List (ι × Outcome ε α)}
    (property : κ → ρ → Prop) (quiet : ∀ key, start.opened key = none)
    (initially : ∀ key, property key (start.committed key))
    (kept : ∀ request region, property (service.key request) region →
      (service.body request).Keeps (property (service.key request)) region)
    (run : Run service start trace final) :
    ∀ key opened, final.opened key = some opened →
      opened.rest.Keeps (property key) opened.view := by
  induction run with
  | refl =>
      intro key opened running
      simp [quiet key] at running
  | @step trace ended middle final before step ih =>
      have held : ∀ key, property key (middle.committed key) :=
        (run_serial quiet before).1.invariant property initially
          (fun request region written result holds ran =>
            Script.keeps_run _ _ _ _ _ (kept request region holds) ran)
      intro key opened present
      cases step with
      | start request free =>
          rcases opened_update present with ⟨rfl, this⟩ | ⟨_, present⟩
          · cases this
            exact kept request _ (held _)
          · exact ih key opened present
      | statement other request view write rest running =>
          rcases opened_update present with ⟨rfl, this⟩ | ⟨_, present⟩
          · cases this
            exact (ih key _ running).2
          · exact ih key opened present
      | commit other request view result running =>
          rcases opened_update present with ⟨_, this⟩ | ⟨_, present⟩
          · cases this
          · exact ih key opened present
      | rollback other request view error running =>
          rcases opened_update present with ⟨_, this⟩ | ⟨_, present⟩
          · cases this
          · exact ih key opened present
      | abort other =>
          rcases opened_update present with ⟨_, this⟩ | ⟨_, present⟩
          · cases this
          · exact ih key opened present

end Interleaving

end LockedTransactions
