import Keyzori.Library.Completion
import Keyzori.Server.Shelter

namespace Keyzori

open Interleaving

variable {α β : Type} {call : Nat} {clock : Instant → Prop} {used : List String} {world : World}
  {id : LicenseId} {data : LicenseData} {locks : Lock → Option Nat}

def Tables.rowKeys (tables : Tables) : List String :=
  tables.allLicenses.flatMap fun data => data.deviceKeys ++ data.entryKeys

theorem unused_keys {tables : Tables} {key : String} (fresh : key ∉ tables.rowKeys) :
    tables.uses LicenseData.deviceKeys key = false ∧ tables.uses LicenseData.entryKeys key = false := by
  have apart : ∀ data ∈ tables.allLicenses, key ∉ data.deviceKeys ∧ key ∉ data.entryKeys := by
    intro data listed
    refine ⟨fun member => fresh ?_, fun member => fresh ?_⟩
    · exact List.mem_flatMap.mpr ⟨data, listed, List.mem_append_left _ member⟩
    · exact List.mem_flatMap.mpr ⟨data, listed, List.mem_append_right _ member⟩
  constructor
  · exact List.any_eq_false.mpr fun data listed => by simpa using (apart data listed).1
  · exact List.any_eq_false.mpr fun data listed => by simpa using (apart data listed).2

/-- Nothing fails, the clock shows one of its times, no key in use is drawn, and no row is locked by another. -/
structure Sane (clock : Instant → Prop) (used : List String) (input : Input) : Prop where
  faultless : input.fault = none
  time : clock input.draw.now
  fresh : ∀ index, input.draw.uuid index ∉ used
  unskipped : input.skipped = []

def World.under (world : World) (locks : Lock → Option Nat) : World := { world with locks }

def Unlocked (call : Nat) (locks : Lock → Option Nat) : Prop := ∀ lock holder, locks lock = some holder → holder = call

abbrev Alone (call : Nat) (clock : Instant → Prop) (used : List String) (prog : Server α) (world : World)
    (post : Except Failure α → World → Prop) : Prop :=
  ∀ locks, Unlocked call locks → prog.alone exec (Sane clock used) call (world.under locks)
    fun result after => ∃ next locks, post result next ∧ Unlocked call locks ∧ after = next.under locks

section Locks

theorem unlocked_free (unlocked : Unlocked call locks) (lock : Lock) :
    (world.under locks).free call lock = true := free_iff.mpr (unlocked lock)

theorem unlocked_take (unlocked : Unlocked call locks) (lock : Lock) :
    Unlocked call (Function.update locks lock (some call)) := by
  intro other holder held
  by_cases same : other = lock
  · subst same
    rw [Function.update_self] at held
    exact (Option.some.inj held).symm
  · rw [Function.update_of_ne same] at held
    exact unlocked other holder held

theorem unlocked_release (unlocked : Unlocked call locks) :
    Unlocked call fun lock => if locks lock = some call then none else locks lock := by
  intro lock holder held
  dsimp only at held
  split at held
  · cases held
  · exact unlocked lock holder held

end Locks

section Rules

variable {post : Except Failure β → World → Prop}

theorem alone_pure {value : β} (ends : post (.ok value) world) :
    Alone call clock used (pure value : Server β) world post :=
  fun locks unlocked => ⟨world, locks, ends, unlocked, rfl⟩

theorem alone_throw {error : Failure} (ends : post (.error error) world) :
    Alone call clock used (throw error : Server β) world post :=
  fun locks unlocked => ⟨world, locks, ends, unlocked, rfl⟩

theorem alone_except {result : Except Failure α} {rest : α → Server β}
    (returned : ∀ value, result = .ok value → Alone call clock used (rest value) world post)
    (thrown : ∀ error, result = .error error → post (.error error) world) :
    Alone call clock used (ofExcept result >>= rest) world post := by
  cases result with
  | ok value => exact returned value rfl
  | error error => exact alone_throw (thrown error rfl)

theorem alone_then {prog : Server α} {rest : α → Server β} (middle : Except Failure α → World → Prop)
    (first : Alone call clock used prog world middle)
    (returned : ∀ value next, middle (.ok value) next → Alone call clock used (rest value) next post)
    (thrown : ∀ error next, middle (.error error) next → post (.error error) next) :
    Alone call clock used (prog >>= rest) world post := by
  intro locks unlocked
  refine alone_bind _ (first locks unlocked) ?_ ?_
  · rintro value _ ⟨next, locks, holds, unlocked, rfl⟩
    exact returned value next holds locks unlocked
  · rintro error _ ⟨next, locks, holds, unlocked, rfl⟩
    exact ⟨next, locks, thrown error next holds, unlocked, rfl⟩

theorem alone_known {prog : Server α} {rest : α → Server β} {value : α} {next : World}
    (first : Alone call clock used prog world fun result after => result = .ok value ∧ after = next)
    (then_ : Alone call clock used (rest value) next post) : Alone call clock used (prog >>= rest) world post := by
  refine alone_then _ first ?_ ?_
  · rintro _ _ ⟨⟨⟩, rfl⟩
    exact then_
  · rintro _ _ ⟨⟨⟩, -⟩

theorem alone_caught {prog : Server β} {handler : Failure → Server β} (middle : Except Failure β → World → Prop)
    (first : Alone call clock used prog world middle)
    (returned : ∀ value next, middle (.ok value) next → post (.ok value) next)
    (caught : ∀ error next, middle (.error error) next → Alone call clock used (handler error) next post) :
    Alone call clock used (tryCatch prog handler) world post := by
  intro locks unlocked
  refine alone_tryCatch _ (first locks unlocked) ?_ ?_
  · rintro value _ ⟨next, locks, holds, unlocked, rfl⟩
    exact ⟨next, locks, returned value next holds, unlocked, rfl⟩
  · rintro error _ ⟨next, locks, holds, unlocked, rfl⟩
    exact caught error next holds locks unlocked

theorem alone_covered {prog : Server β} {handler : Failure → Server β} (first : Alone call clock used prog world post)
    (returns : ∀ error next, ¬post (.error error) next) : Alone call clock used (tryCatch prog handler) world post :=
  alone_caught post first (fun _ _ holds => holds) fun error next holds => absurd holds (returns error next)

theorem alone_weaken {prog : Server β} {strong : Except Failure β → World → Prop}
    (holds : Alone call clock used prog world strong)
    (implies : ∀ result next, strong result next → post result next) :
    Alone call clock used prog world post := fun locks unlocked =>
  alone_mono (holds locks unlocked) fun _ _ ⟨next, locks, holds, unlocked, same⟩ =>
    ⟨next, locks, implies _ next holds, unlocked, same⟩

end Rules

section Acts

variable {post : Except Failure β → World → Prop} {input : Input} {after : World}

theorem sane_input (ticking : ∃ now, clock now) (used taken : List String) :
    ∃ input, Sane clock used input ∧ input.draw.uuid 0 ∉ taken := by
  obtain ⟨now, time⟩ := ticking
  obtain ⟨token, fresh⟩ := Infinite.exists_notMem_finset (used ++ taken).toFinset
  simp only [List.mem_toFinset, List.mem_append, not_or] at fresh
  exact ⟨⟨none, ⟨now, fun _ => token⟩, "", sampleId, []⟩, ⟨rfl, time, fun _ => fresh.1, rfl⟩, fresh.2⟩

theorem sane_await {ready : Bool} {done : World × α} {result : Except Failure α} (sane : Sane clock used input)
    (ran : await input world ready done = some (after, result)) :
    ready = true ∧ after = done.1 ∧ result = .ok done.2 := by
  simp only [await, sane.faultless] at ran
  split at ran
  · next holds =>
    cases ran
    exact ⟨holds, rfl, rfl⟩
  · cases ran

theorem alone_perform {act : Act} {value : act.Val} {next : World}
    {unlock : (Lock → Option Nat) → Lock → Option Nat} (ticking : ∃ now, clock now)
    (runs : ∀ locks input, Unlocked call locks → Sane clock used input →
      exec call act input (world.under locks) = some (next.under (unlock locks), .ok value))
    (kept : ∀ locks, Unlocked call locks → Unlocked call (unlock locks)) :
    Alone call clock used (perform act) world fun result after => result = .ok value ∧ after = next := by
  refine fun locks unlocked => ⟨?_, fun input after result sane ran => ?_⟩
  · obtain ⟨input, sane, -⟩ := sane_input ticking used []
    exact ⟨input, sane, by rw [runs locks input unlocked sane]; rfl⟩
  · rw [runs locks input unlocked sane] at ran
    cases ran
    exact ⟨next, _, ⟨rfl, rfl⟩, kept locks unlocked, rfl⟩

theorem alone_goes {act : Act} {rest : act.Val → Server β} {value : act.Val} {next : World}
    {unlock : (Lock → Option Nat) → Lock → Option Nat} (ticking : ∃ now, clock now)
    (runs : ∀ locks input, Unlocked call locks → Sane clock used input →
      exec call act input (world.under locks) = some (next.under (unlock locks), .ok value))
    (kept : ∀ locks, Unlocked call locks → Unlocked call (unlock locks))
    (then_ : Alone call clock used (rest value) next post) : Alone call clock used (perform act >>= rest) world post :=
  alone_known (alone_perform ticking runs kept) then_

theorem alone_draw {rest : Draw → Server β} (ticking : ∃ now, clock now)
    (then_ : ∀ drawn : Draw, clock drawn.now → (∀ index, drawn.uuid index ∉ used) →
      Alone call clock used (rest drawn) world post) :
    Alone call clock used (draw >>= rest) world post := by
  intro locks unlocked
  refine alone_call ?_ (fun input after outcome sane ran => ?_) fun input after error sane ran => ?_
  · obtain ⟨input, sane, -⟩ := sane_input ticking used []
    exact ⟨input, sane, rfl⟩
  · cases ran
    exact then_ _ sane.time sane.fresh _ unlocked
  · cases ran

theorem alone_read {read : Tables → α} (ticking : ∃ now, clock now) : Alone call clock used (query read) world
    fun result next => result = .ok (read world.tables) ∧ next = world :=
  @alone_perform _ _ _ _ (.query read) _ _ (fun locks => locks) ticking
    (fun locks input _ sane => by simp only [exec, attempt, sane.faultless]; rfl) fun _ unlocked => unlocked

theorem alone_query {read : Tables → α} {rest : α → Server β} (ticking : ∃ now, clock now)
    (then_ : Alone call clock used (rest (read world.tables)) world post) :
    Alone call clock used (query read >>= rest) world post := alone_known (alone_read ticking) then_

theorem alone_findLicense {rest : Option License → Server β} (ticking : ∃ now, clock now)
    (then_ : Alone call clock used (rest (world.tables.license id)) world post) :
    Alone call clock used (LicenseRepository.findById id >>= rest) world post :=
  @alone_goes _ _ _ _ _ _ (.findLicense id) _ _ _ (fun locks => locks) ticking
    (fun locks input _ sane => by simp only [exec, attempt, sane.faultless]; rfl) (fun _ unlocked => unlocked) then_

theorem alone_findByKeyHash {keyHash : String} {rest : Option License → Server β} (ticking : ∃ now, clock now)
    (then_ : Alone call clock used (rest (world.tables.findByKeyHash keyHash)) world post) :
    Alone call clock used (perform (.findByKeyHash keyHash) >>= rest) world post :=
  @alone_goes _ _ _ _ _ _ (.findByKeyHash keyHash) _ _ _ id ticking
    (fun locks input _ sane => by simp only [exec, attempt, sane.faultless]; rfl) (fun _ unlocked => unlocked) then_

theorem alone_lock {lock : Lock} {rest : Unit → Server β} (ticking : ∃ now, clock now)
    (then_ : Alone call clock used (rest ()) world post) :
    Alone call clock used (Keyzori.lock lock >>= rest) world post :=
  @alone_goes _ _ _ _ _ _ (.lock lock) _ _ _ (fun locks => Function.update locks lock (some call)) ticking
    (fun locks input unlocked sane => by
      simp only [exec, acquire, sane.faultless, unlocked_free unlocked, if_true]; rfl)
    (fun _ unlocked => unlocked_take unlocked lock) then_

theorem alone_rollback {rest : Unit → Server β} (ticking : ∃ now, clock now)
    (then_ : Alone call clock used (rest ()) world post) :
    Alone call clock used (perform .rollback >>= rest) world post :=
  @alone_goes _ _ _ _ _ _ .rollback _ _ _ _ ticking (fun _ _ _ _ => rfl) (fun _ unlocked => unlocked_release unlocked)
    then_

theorem alone_lockRow {rest : Option StoredLicense → Server β} (ticking : ∃ now, clock now)
    (present : world.tables.licenses id = some data)
    (then_ : Alone call clock used (rest (some data.row)) world post) :
    Alone call clock used (Keyzori.lockRow id >>= rest) world post := by
  have there : world.tables.row id = some data.row := by simp [Tables.row, present]
  refine @alone_goes _ _ _ _ _ _ (.lockRow id) _ _ _ (fun locks => Function.update locks (.row id) (some call)) ticking
    (fun locks input unlocked sane => ?_) (fun _ unlocked => unlocked_take unlocked _) then_
  have there : (world.under locks).tables.row id = some data.row := there
  simp only [exec, there, acquire, sane.faultless, unlocked_free unlocked, if_true]
  rfl

theorem alone_commit {writes : List Write} {rest : Option Written → Server β} (ticking : ∃ now, clock now)
    (present : world.tables.licenses id = some data)
    (fresh : ∀ keyHash keyPrefix, .rotateKey keyHash keyPrefix ∈ writes → keyHash ∉ world.keyHashes)
    (lawful : writes.findSome? (world.tables.violation id) = none)
    (then_ : ∀ now, clock now → Alone call clock used (rest (some ⟨data, applyWrites now writes data⟩))
      (world.write id data now writes) post) :
    Alone call clock used (commit id none writes >>= rest) world post := by
  intro locks unlocked
  have admitted : (world.under locks).admits call id writes = true := by
    refine List.all_eq_true.mpr fun write member => ?_
    rw [unlocked_free unlocked, unlocked_free unlocked, Bool.or_true, Bool.or_true]
    cases write <;> first | rfl | exact decide_eq_true (fresh _ _ member)
  have runs : ∀ input, Sane clock used input → exec call (.commit id none writes) input (world.under locks) =
      some (((world.under locks).write id data input.draw.now writes).release call,
        .ok (some ⟨data, applyWrites input.draw.now writes data⟩)) := by
    intro input sane
    have there : (world.under locks).tables.licenses id = some data := present
    have passes : writes.findSome? ((world.under locks).tables.violation id) = none := lawful
    simp [exec, runCommit, sane.faultless, there, admitted, passes]
  refine alone_call ?_ (fun input after outcome sane ran => ?_) fun input after error sane ran => ?_
  · obtain ⟨input, sane, -⟩ := sane_input ticking used []
    exact ⟨input, sane, by rw [runs input sane]; rfl⟩
  · rw [runs input sane] at ran
    cases ran
    exact then_ _ sane.time _ (unlocked_release unlocked)
  · rw [runs input sane] at ran
    cases ran

theorem alone_registerSession {revision : Nat} {bindingHash : String} {maximum : Int}
    {rest : SessionRegistrationResult → Server β} (ticking : ∃ now, clock now)
    (then_ : ∀ token, token ∉ world.tokens.map Prod.fst →
      Alone call clock used
        (rest (registerSession world.sessions id revision bindingHash sessionTtlSeconds maximum token).2)
        { world with
          sessions := (registerSession world.sessions id revision bindingHash sessionTtlSeconds maximum token).1
          tokens := (token, ⟨id, revision, bindingHash⟩) :: world.tokens } post) :
    Alone call clock used (perform (.registerSession id revision bindingHash maximum) >>= rest) world post := by
  intro locks unlocked
  refine alone_call ?_ (fun input after outcome sane ran => ?_) fun input after error sane ran => ?_
  · obtain ⟨input, sane, fresh⟩ := sane_input ticking used (world.tokens.map Prod.fst)
    refine ⟨input, sane, ?_⟩
    have unused : input.draw.uuid 0 ∉ (world.under locks).tokens.map Prod.fst := fresh
    simp only [exec, await, sane.faultless, decide_eq_true unused, if_true]
    rfl
  · obtain ⟨ready, rfl, same⟩ := sane_await sane ran
    cases same
    exact then_ _ (of_decide_eq_true ready) locks unlocked
  · obtain ⟨-, -, same⟩ := sane_await sane ran
    cases same

theorem alone_refreshSession {token bindingHash : String} {found : Option ResolvedSession} {store : SessionStore}
    {rest : Option ResolvedSession → Server β} (ticking : ∃ now, clock now)
    (ran : refreshSession world.sessions token bindingHash sessionTtlSeconds = (store, .ok found))
    (then_ : Alone call clock used (rest found) { world with sessions := store } post) :
    Alone call clock used (perform (.refreshSession token bindingHash) >>= rest) world post := by
  refine @alone_goes _ _ _ _ _ _ (.refreshSession token bindingHash) _ _ _ (fun locks => locks) ticking
    (fun locks input _ sane => ?_) (fun _ unlocked => unlocked) then_
  have ran : refreshSession (world.under locks).sessions token bindingHash sessionTtlSeconds =
      (store, .ok found) := ran
  simp only [exec, sane.faultless, ran]
  rfl

theorem alone_removeSession {token bindingHash : String} {found : Option ResolvedSession} {store : SessionStore}
    {rest : Option ResolvedSession → Server β} (ticking : ∃ now, clock now)
    (ran : removeSession world.sessions token bindingHash = (store, .ok found))
    (then_ : Alone call clock used (rest found) { world with sessions := store } post) :
    Alone call clock used (perform (.removeSession token bindingHash) >>= rest) world post := by
  refine @alone_goes _ _ _ _ _ _ (.removeSession token bindingHash) _ _ _ (fun locks => locks) ticking
    (fun locks input _ sane => ?_) (fun _ unlocked => unlocked) then_
  have ran : removeSession (world.under locks).sessions token bindingHash = (store, .ok found) := ran
  simp only [exec, sane.faultless, ran]
  rfl

theorem capture_alone {type : String} (ticking : ∃ now, clock now) :
    Alone call clock used (capture type) world fun result next => result = .ok () ∧ next = world := by
  refine alone_covered ?_ ?_
  · exact @alone_perform _ _ _ _ (.capture type) _ _ (fun locks => locks) ticking
      (fun locks input _ sane => by simp only [exec, attempt, sane.faultless]; rfl) fun _ unlocked => unlocked
  · rintro error next ⟨⟨⟩, -⟩

theorem alone_capture {type : String} {rest : Unit → Server β} (ticking : ∃ now, clock now)
    (then_ : Alone call clock used (rest ()) world post) : Alone call clock used (capture type >>= rest) world post :=
  alone_known (capture_alone ticking) then_

theorem alone_orRollback {body : Server α} {rest : α → Server β} (ticking : ∃ now, clock now)
    (middle : Except Failure α → World → Prop) (inside : Alone call clock used body world middle)
    (returned : ∀ value next, middle (.ok value) next → Alone call clock used (rest value) next post)
    (thrown : ∀ error next, middle (.error error) next → post (.error error) next) :
    Alone call clock used (orRollback body >>= rest) world post := by
  refine alone_then middle ?_ returned thrown
  refine alone_caught middle inside (fun _ _ holds => holds) fun error next holds => ?_
  exact alone_rollback ticking (alone_throw holds)

end Acts

end Keyzori
