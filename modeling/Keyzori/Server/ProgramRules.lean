import Keyzori.Server.Warrants

namespace Keyzori

open Interleaving

variable {host : Host} {request : Request} {α β : Type}

abbrev Meets (host : Host) (request : Request) (prog : Server α) (trace : ServerTrace)
    (post : Except Failure α → ServerTrace → Prop) : Prop :=
  prog.wp (warrant host request) trace post

section Rules

variable {trace : ServerTrace} {post : Except Failure β → ServerTrace → Prop}

theorem meets_bind {prog : Server α} {rest : α → Server β}
    (middle : Except Failure α → ServerTrace → Prop)
    (first : Meets host request prog trace middle)
    (returned : ∀ value trace, middle (.ok value) trace → Meets host request (rest value) trace post)
    (thrown : ∀ error trace, middle (.error error) trace → post (.error error) trace) :
    Meets host request (prog >>= rest) trace post :=
  Prog.wp_bind middle first returned thrown

theorem meets_act {act : Act} {rest : act.Val → Server β} (held : warrant host request trace act)
    (returned : ∀ value, Meets host request (rest value) (trace ++ [⟨act, .ok value⟩]) post)
    (thrown : ∀ error, post (.error error) (trace ++ [⟨act, .error error⟩])) :
    Meets host request (perform act >>= rest) trace post := by
  refine ⟨held, fun result => ?_⟩
  cases result with
  | ok value => exact returned value
  | error error => exact thrown error

theorem meets_last {act : Act} {post : Except Failure act.Val → ServerTrace → Prop}
    (held : warrant host request trace act)
    (ended : ∀ result, post result (trace ++ [⟨act, result⟩])) :
    Meets host request (perform act) trace post := ⟨held, ended⟩

theorem meets_execute {writes : List Write} {rest : List Write → Server β}
    (returned : Meets host request (rest writes) (trace ++ [⟨.query fun _ => (), .ok ()⟩]) post)
    (thrown : ∀ error, post (.error error) (trace ++ [⟨.query fun _ => (), .error error⟩])) :
    Meets host request (execute writes >>= rest) trace post := by
  refine ⟨True.intro, fun result => ?_⟩
  cases result with
  | ok value => exact returned
  | error error => exact thrown error

theorem meets_except {result : Except Failure α} {rest : α → Server β}
    (returned : ∀ value, result = .ok value → Meets host request (rest value) trace post)
    (thrown : ∀ error, result = .error error → post (.error error) trace) :
    Meets host request (ofExcept result >>= rest) trace post := by
  cases result with
  | ok value => exact returned value rfl
  | error error => exact thrown error rfl

theorem meets_domain {result : Except DomainError α} {rest : α → Server β}
    (returned : ∀ value, result = .ok value → Meets host request (rest value) trace post)
    (thrown : ∀ error, result = .error error → post (.error (.domain error)) trace) :
    Meets host request (ofDomain result >>= rest) trace post := by
  cases result with
  | ok value => exact returned value rfl
  | error error => exact thrown error rfl

theorem meets_firstOrThrow {row : Option α} {action : String} {rest : α → Server β}
    (returned : ∀ value, row = some value → Meets host request (rest value) trace post)
    (thrown : ∀ error, post (.error error) trace) :
    Meets host request (firstOrThrow row action >>= rest) trace post := by
  cases row with
  | some value => exact returned value rfl
  | none => exact thrown _

abbrev Quiet (prog : Server α) : Prop := prog.Only fun act => act.quiet = true

theorem quiet_warrant {act : Act} (quiet : act.quiet = true) (trace : ServerTrace) :
    warrant host request trace act := by
  cases act <;> first | exact True.intro | cases quiet

theorem meets_quiet {prog : Server α} {rest : α → Server β} (quiet : Quiet prog)
    (returned : ∀ value after, Quietly trace after → Meets host request (rest value) after post)
    (thrown : ∀ error after, Quietly trace after → post (.error error) after) :
    Meets host request (prog >>= rest) trace post := by
  refine meets_bind (fun _ after => Quietly trace after) ?_ returned thrown
  refine Prog.wp_only quiet (fun trace act quiet => quiet_warrant quiet trace) ?_
  exact fun _ deeds kinds => ⟨deeds, kinds, rfl⟩

/-- A quiet act inside a transaction, whose result stands under every lock held. -/
theorem meets_look {act : Act} {rest : act.Val → Server β} (quiet : act.quiet = true)
    (returned : ∀ value after, Quietly trace after → Took after act value →
      (∀ lock, Holding trace lock → Under after lock act value) →
        Meets host request (rest value) after post)
    (thrown : ∀ error after, Quietly trace after → post (.error error) after) :
    Meets host request (perform act >>= rest) trace post := by
  refine meets_act (quiet_warrant quiet trace) (fun value => ?_) (fun error => ?_)
  · refine returned value _ (along_step along_refl quiet _) (took_append.mpr (.inr rfl)) fun lock held => ?_
    exact under_append.mpr ⟨quiet_ends quiet, .inr ⟨held, rfl⟩⟩
  · exact thrown error _ (along_step along_refl quiet _)

theorem meets_capture {type : String} {rest : Unit → Server β}
    (returned : ∀ outcome, Meets host request (rest ()) (trace ++ [⟨.capture type, outcome⟩]) post) :
    Meets host request (capture type >>= rest) trace post := by
  refine meets_bind (fun result after => result = .ok () ∧
    ∃ outcome, after = trace ++ [⟨.capture type, outcome⟩]) ?_ ?_ ?_
  · refine Prog.wp_tryCatch (fun _ after => ∃ outcome, after = trace ++ [⟨.capture type, outcome⟩])
      ?_ (fun _ _ captured => ⟨rfl, captured⟩) (fun _ _ captured => ⟨rfl, captured⟩)
    exact meets_last True.intro fun outcome => ⟨outcome, rfl⟩
  · rintro _ _ ⟨-, outcome, rfl⟩
    exact returned outcome
  · rintro error _ ⟨thrown, -⟩
    cases thrown

theorem meets_free {prog : Server α} {kind : Act → Prop} (only : prog.Only kind)
    (free : ∀ trace act, kind act → warrant host request trace act) :
    Meets host request prog trace fun _ _ => True :=
  Prog.wp_only only free fun _ _ _ => trivial

theorem meets_orRollback {body : Server β} (middle : Except Failure β → ServerTrace → Prop)
    (inside : Meets host request body trace middle)
    (returned : ∀ value trace, middle (.ok value) trace → post (.ok value) trace)
    (thrown : ∀ error other trace result, middle (.error error) trace →
      post (.error other) (trace ++ [⟨.rollback, result⟩])) :
    Meets host request (orRollback body) trace post := by
  refine Prog.wp_tryCatch middle inside returned fun error after failed => ?_
  refine meets_act True.intro (fun _ => ?_) (fun other => ?_)
  · exact thrown error error after _ failed
  · exact thrown error other after _ failed

end Rules

section Quiet

theorem quiet_act {act : Act} {rest : act.Val → Server β} (quiet : act.quiet = true)
    (second : ∀ value, Quiet (rest value)) : Quiet (perform act >>= rest) :=
  Prog.only_bind (Prog.only_call quiet) second

theorem quiet_except {result : Except Failure α} {rest : α → Server β}
    (second : ∀ value, Quiet (rest value)) : Quiet (ofExcept result >>= rest) :=
  Prog.only_bind trivial second

theorem quiet_domain (result : Except DomainError α) : Quiet (ofDomain result) := by
  cases result <;> trivial

theorem quiet_capture (type : String) : Quiet (capture type) :=
  Prog.only_tryCatch (Prog.only_call rfl) fun _ => trivial

theorem quiet_query (read : Tables → α) : Quiet (query read) := Prog.only_call rfl

theorem quiet_withAllowlists (license : License) : Quiet (LicenseRepository.withAllowlists license) :=
  quiet_act rfl fun _ => quiet_act rfl fun _ => trivial

theorem quiet_managed (license : License) : Quiet (managed license) :=
  quiet_act rfl fun _ => trivial

theorem quiet_reload (id : LicenseId) (message : String) : Quiet (LicenseRepository.reload id message) :=
  quiet_act rfl fun found => by cases found <;> trivial

theorem quiet_requireCustomer (id : String) : Quiet (AdminService.requireCustomer id) :=
  quiet_act rfl fun found => by cases found <;> trivial

theorem quiet_execute (writes : List Write) : Quiet (execute writes) :=
  Prog.only_bind (quiet_query _) fun _ => trivial

theorem quiet_firstOrThrow {row : Option α} {action : String} : Quiet (firstOrThrow row action) := by
  cases row <;> trivial

theorem insertNewMeters_quiet (id : LicenseId) (meters : List NewLicenseMeter) :
    Quiet (LicenseRepository.insertNewMeters id meters) := by
  rw [LicenseRepository.insertNewMeters]
  split
  · trivial
  · exact quiet_act rfl fun _ => quiet_act rfl fun _ => quiet_except fun _ => trivial

theorem requireActiveMeter_quiet (id : LicenseId) (data : LicenseUpdate) (inserted : List Write) :
    Quiet (LicenseRepository.requireActiveMeter id data inserted) := by
  rw [LicenseRepository.requireActiveMeter]
  split
  · refine quiet_act rfl fun region => ?_
    dsimp only
    split <;> trivial
  · trivial

theorem statements_quiet (id : LicenseId) (script : Draw → MeterScript α) :
    Quiet (MeterRepository.statements id script) :=
  quiet_act rfl fun _ => quiet_act rfl fun _ => quiet_except fun _ => trivial

theorem meteredDraft_quiet (id : LicenseId) (targetType : LicenseType) (currentMeters : List LicenseMeter)
    (newMeters : List NewLicenseMeter) (active : TypeConfig) :
    Quiet (AdminService.meteredDraft id targetType currentMeters newMeters active) := by
  rw [AdminService.meteredDraft]
  split
  · refine quiet_act rfl fun meters => Prog.only_bind (quiet_domain _) fun _ => ?_
    dsimp only
    split <;> trivial
  · trivial

theorem observedLink_quiet (id : LicenseId) (targetType : LicenseType) (data : UpdateLicenseInput) :
    Quiet (AdminService.observedLink host id targetType data) := by
  rw [AdminService.observedLink]
  split
  · exact quiet_act rfl fun link => quiet_domain _
  · trivial

end Quiet

section Initial

variable {trace longer : ServerTrace} {id : LicenseId} {current : License}

theorem initial_grows (initial : Initial request trace id current) (grown : trace <+: longer) :
    Initial request longer id current := by
  obtain ⟨before, after, rfl, first⟩ := initial
  obtain ⟨others, rfl⟩ := grown
  exact ⟨before, after ++ others, by simp, first⟩

theorem initial_along {kind : Act → Bool} (along : Along kind trace longer)
    (initial : Initial request trace id current) : Initial request longer id current := by
  obtain ⟨deeds, -, rfl⟩ := along
  exact initial_grows initial (List.prefix_append _ _)

theorem initial_took (initial : Initial request trace id current) :
    Took trace (.findLicense id) (some current) := by
  obtain ⟨before, after, rfl, -⟩ := initial
  exact List.mem_append_right _ (.head _)

theorem initial_read (first : (∃ expiresAt, request = .renewSubscription id expiresAt) ∨ trace = []) :
    Initial request (trace ++ [⟨.findLicense id, .ok (some current)⟩]) id current :=
  ⟨trace, [], rfl, first⟩

end Initial

section Repositories

variable {trace : ServerTrace}

theorem meets_requireLicense {id : LicenseId} {rest : License → Server β}
    {post : Except Failure β → ServerTrace → Prop}
    (returned : ∀ license, Meets host request (rest license)
      (trace ++ [⟨.findLicense id, .ok (some license)⟩]) post)
    (thrown : ∀ error result, post (.error error) (trace ++ [⟨.findLicense id, result⟩])) :
    Meets host request (AdminService.requireLicense id >>= rest) trace post := by
  refine meets_bind (fun result after => match result with
    | .ok license => after = trace ++ [⟨.findLicense id, .ok (some license)⟩]
    | .error _ => ∃ result, after = trace ++ [⟨.findLicense id, result⟩]) ?_ ?_ ?_
  · refine meets_act True.intro (fun found => ?_) (fun error => ⟨_, rfl⟩)
    cases found with
    | none => exact ⟨_, rfl⟩
    | some license => rfl
  · rintro license _ rfl
    exact returned license
  · rintro error _ ⟨result, rfl⟩
    exact thrown error result

theorem meets_cleanup {id : LicenseId} {revision : Option Nat}
    {rest : AdminService.Cleanup → Server β} {post : Except Failure β → ServerTrace → Prop}
    (held : warrant host request trace (.removeAllSessions id revision))
    (returned : ∀ cleanup result, Meets host request (rest cleanup)
      (trace ++ [⟨.removeAllSessions id revision, result⟩]) post) :
    Meets host request (AdminService.removeSessionsBestEffort id revision >>= rest) trace post := by
  refine meets_bind (fun result after => (∃ cleanup, result = .ok cleanup) ∧
    ∃ result, after = trace ++ [⟨.removeAllSessions id revision, result⟩]) ?_ ?_ ?_
  · refine Prog.wp_tryCatch (fun result after =>
      ∃ result, after = trace ++ [⟨.removeAllSessions id revision, result⟩]) ?_ ?_ ?_
    · exact meets_act held (fun _ => ⟨_, rfl⟩) (fun _ => ⟨_, rfl⟩)
    · exact fun cleanup after shape => ⟨⟨cleanup, rfl⟩, shape⟩
    · exact fun _ after shape => ⟨⟨_, rfl⟩, shape⟩
  · rintro cleanup _ ⟨-, result, rfl⟩
    exact returned cleanup result
  · rintro error _ ⟨⟨cleanup, thrown⟩, -⟩
    cases thrown

theorem meets_end {prog : Server β} (quiet : Quiet prog) :
    Meets host request prog trace fun _ _ => True :=
  meets_free quiet fun _ _ kind => quiet_warrant kind _

end Repositories

end Keyzori
