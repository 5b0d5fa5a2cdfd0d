import Keyzori.Library.FailureAtomicity
import Keyzori.Server.Atomicity

/-! What is left of an operator call that throws. An act fails without effect, or its answer is
lost and the same act could have succeeded with the same effect; and once licenses have changed,
the rest of the call can always succeed without another change. -/

namespace Keyzori

open Interleaving

variable {α β : Type} {host : Host} {call : Nat} {id : LicenseId} {world next : World}
  {events : List ServerEvent} {act : Act} {prog : Server α} {rest : α → Server β}

abbrev World.licenses (world : World) : LicenseId → Option LicenseData := world.tables.licenses

abbrev Unbroken (call : Nat) (prog : Server α) : Prop := ∀ world, prog.Settles exec call World.licenses world

abbrev Completing (call : Nat) (prog : Server α) (world : World) : Prop :=
  prog.Completes exec call World.licenses world

section Acts

variable {input : Input} {error : Failure}

theorem attempt_answered {done : World × α} (ran : attempt input world done = some (next, .error error)) :
    next = world ∨ attempt { input with fault := none } world done = some (next, .ok done.2) := by
  unfold attempt at ran
  split at ran
  · cases ran
    exact .inl rfl
  · obtain ⟨rfl, -⟩ := Prod.mk.inj (Option.some.inj ran)
    exact .inr rfl

theorem attempt_ok {done : World × α} {value : α} (ran : attempt input world done = some (next, .ok value)) :
    next = done.1 ∧ value = done.2 := by
  rcases attempt_some ran with ⟨-, error, failed⟩ | ⟨same, answered⟩
  · cases failed
  · exact ⟨same, Except.ok.inj answered⟩

theorem await_answered {ready : Bool} {done : World × α}
    (ran : await input world ready done = some (next, .error error)) :
    next = world ∨ await { input with fault := none } world ready done = some (next, .ok done.2) := by
  unfold await at ran
  split at ran
  · cases ran
    exact .inl rfl
  · split at ran
    · next able =>
      obtain ⟨rfl, -⟩ := Prod.mk.inj (Option.some.inj ran)
      exact .inr (by rw [able]; rfl)
    · cases ran

theorem commit_answered {expected : Option Instant} {writes : List Write}
    (ran : runCommit call id expected writes input world = some (next, .error error)) :
    next = world.release call ∨ ∃ written,
      runCommit call id expected writes { input with fault := none } world = some (next, .ok written) := by
  rcases runCommit_some ran with ⟨same, -⟩ | ⟨data, present, admitted, version, lawful, same, -⟩
  · exact .inl same
  · refine .inr ⟨some ⟨data, applyWrites input.draw.now writes data⟩, ?_⟩
    have current : (expected.any fun version => !decide (data.row.updatedAt = version)) = false := by
      cases expected with
      | none => rfl
      | some stamp => simp [version stamp rfl]
    simp [runCommit, present, admitted, current, lawful, same, answer]

theorem exec_answered (ran : exec call act input world = some (next, .error error)) :
    next.licenses = world.licenses ∨
      ∃ value, exec call act { input with fault := none } world = some (next, .ok value) := by
  by_cases calm : act.mutates = false
  · exact .inl (not_not.mp (@calm_unaltered ⟨call, act, .error error, world, next⟩ ⟨input, ran⟩ calm))
  · cases act with
    | commit id expected writes => exact (commit_answered ran).imp (fun same => by rw [same]; rfl) fun done => done
    | insertLicense id keyHash keyPrefix data meters =>
        simp only [exec] at ran ⊢
        split at ran
        · cases ran
          exact .inl rfl
        · split at ran
          · cases ran
            exact .inl rfl
          · next customer _ constraint =>
            rw [if_neg customer]
            exact (await_answered ran).imp (congrArg World.licenses) fun done => ⟨_, done⟩
    | deleteLicense id => exact (await_answered ran).imp (congrArg World.licenses) fun done => ⟨_, done⟩
    | deleteCustomer customerId => exact (await_answered ran).imp (congrArg World.licenses) fun done => ⟨_, done⟩
    | updateLinkError subscriptionId error =>
        simp only [exec] at ran ⊢
        split at ran
        · exact (attempt_answered ran).imp (congrArg World.licenses) fun done => ⟨_, done⟩
        · split at ran
          · exact (attempt_answered ran).imp (congrArg World.licenses) fun done => ⟨_, done⟩
          · exact (await_answered ran).imp (congrArg World.licenses) fun done => ⟨_, done⟩
    | _ => exact absurd rfl calm

theorem perform_ends {result : Except Failure act.Val}
    (ends : (perform act).Ends exec call world events result next) :
    events = [⟨call, act, result, world, next⟩] ∧ ∃ input, exec call act input world = some (next, result) := by
  obtain ⟨input, middle, answer, rest, ran, rfl, rfl, rfl, rfl⟩ := ends
  exact ⟨rfl, input, ran⟩

theorem ends_perform {value : act.Val} (ran : exec call act input world = some (next, .ok value)) :
    (perform act).Ends exec call world [⟨call, act, .ok value, world, next⟩] (.ok value) next :=
  ⟨input, next, .ok value, [], ran, rfl, rfl, rfl, rfl⟩

theorem unbroken_perform (act : Act) : Unbroken call (perform act) := by
  intro world events error next ends
  obtain ⟨rfl, input, ran⟩ := perform_ends ends
  exact (exec_answered ran).imp_right fun ⟨value, done⟩ => ⟨_, value, next, ends_perform done, rfl⟩

end Acts

section Rules

theorem calm_spares (calm : Calm prog) : prog.Spares exec call World.licenses world := by
  intro events result next ends event member
  obtain ⟨-, calm, ran⟩ := ends_only calm ends event member
  exact not_not.mp (calm_unaltered ran calm)

theorem calm_kept {result : Except Failure α} (calm : Calm prog)
    (ends : prog.Ends exec call world events result next) : next.licenses = world.licenses :=
  spares_kept (calm_spares calm) ends

theorem unbroken_calm (calm : Calm prog) : Unbroken call prog := fun _ => settles_spared (calm_spares calm)

theorem unbroken_before (calm : Calm prog) (second : ∀ value, Unbroken call (rest value)) :
    Unbroken call (prog >>= rest) := fun _ =>
  settles_before (calm_spares calm) fun _ value next _ _ => second value next

theorem unbroken_act {rest : act.Val → Server β} (calm : act.mutates = false)
    (second : ∀ value, Unbroken call (rest value)) : Unbroken call (perform act >>= rest) :=
  unbroken_before (Prog.only_call calm) second

theorem unbroken_then (first : Unbroken call prog) (second : ∀ value next, Completing call (rest value) next) :
    Unbroken call (prog >>= rest) := fun world =>
  settles_bind (first world) fun _ value next _ => .inl (second value next)

theorem unbroken_decides {rest : act.Val → Server β} (second : ∀ value next, Completing call (rest value) next) :
    Unbroken call (perform act >>= rest) := unbroken_then (unbroken_perform act) second

theorem commit_ends {expected : Option Instant} {writes : List Write} {written : Option Written}
    (ends : (commit id expected writes).Ends exec call world events (.ok written) next) :
    (written = none ∧ next.licenses = world.licenses) ∨ (∃ rows, written = some rows) ∧ next.licenses id ≠ none := by
  obtain ⟨-, input, ran⟩ := perform_ends ends
  rcases runCommit_some ran with ⟨same, ⟨error, failed⟩ | missed⟩ | ⟨data, -, -, -, -, same, landed | ⟨error, failed⟩⟩
  · cases failed
  · cases missed
    exact .inl ⟨rfl, by rw [same]; rfl⟩
  · cases landed
    refine .inr ⟨⟨_, rfl⟩, ?_⟩
    rw [same]
    change Function.update world.tables.licenses id (some _) id ≠ none
    simp
  · cases failed

theorem unbroken_commit {expected : Option Instant} {writes : List Write} {rest : Option Written → Server β}
    (second : ∀ rows next, next.licenses id ≠ none → Completing call (rest (some rows)) next)
    (missed : Calm (rest none)) : Unbroken call (commit id expected writes >>= rest) := by
  refine fun world => settles_bind (unbroken_perform _ world) fun events written next ends => ?_
  rcases commit_ends ends with ⟨rfl, kept⟩ | ⟨⟨rows, rfl⟩, present⟩
  · exact .inr ⟨kept, unbroken_calm missed next⟩
  · exact .inl (second rows next present)

theorem unbroken_license {rest : License → Server β} (second : ∀ license, Unbroken call (rest license)) :
    Unbroken call (AdminService.requireLicense id >>= rest) := unbroken_before calm_requireLicense second

theorem unbroken_domain {result : Except DomainError α} {rest : α → Server β}
    (second : ∀ value, Unbroken call (rest value)) : Unbroken call (ofDomain result >>= rest) :=
  unbroken_before calm_domain second

theorem completing_pure {value : α} : Completing call (pure value : Server α) world :=
  ⟨calm_spares trivial, [], value, world, rfl, rfl, rfl⟩

theorem completing_bind (first : Completing call prog world)
    (second : ∀ value next, Completing call (rest value) next) :
    Completing call (prog >>= rest) world := completes_bind first fun _ value next _ => second value next

theorem completing_act {value : act.Val} {input : Input} (calm : act.mutates = false)
    (ran : exec call act input world = some (next, .ok value)) : Completing call (perform act) world :=
  ⟨calm_spares (Prog.only_call calm), _, value, next, ends_perform ran⟩

theorem completing_caught {handler : Failure → Server α} (calm : Calm prog) (covered : ∀ error, Calm (handler error))
    (first : Completing call prog world) : Completing call (tryCatch prog handler) world := by
  obtain ⟨events, value, next, ends⟩ := first.succeeds
  exact ⟨calm_spares (Prog.only_tryCatch calm covered), events, value, next, ends_tryCatch ends⟩

theorem completing_captured (type : String) : Completing call (perform (.capture type)) world :=
  @completing_act call world world (.capture type) () (sampleInput 0 0) rfl rfl

theorem completing_capture (type : String) : Completing call (capture type) world :=
  completing_caught (Prog.only_call rfl) (fun _ => trivial) (completing_captured type)

theorem completing_managed (license : License) : Completing call (managed license) world :=
  completing_bind (@completing_act call world world .draw _ (sampleInput 0 0) rfl rfl) fun _ _ => completing_pure

theorem completing_cleanup (revision : Option Nat) :
    Completing call (AdminService.removeSessionsBestEffort id revision) world := by
  refine completing_caught (calm_act rfl fun _ => trivial) (fun _ => trivial) ?_
  refine completing_bind ?_ fun _ _ => completing_pure
  exact @completing_act call world _ (.removeAllSessions id revision) _ (sampleInput 0 0) rfl rfl

theorem completing_removeEach (ids : List LicenseId) :
    Completing call (AdminService.removeEachBestEffort ids) world := by
  induction ids generalizing world with
  | nil => exact completing_pure
  | cons id ids ih => exact completing_bind (completing_cleanup none) fun _ _ => ih

theorem completing_reload {message : String} (present : world.licenses id ≠ none) :
    Completing call (LicenseRepository.reload id message) world := by
  obtain ⟨data, there⟩ := Option.ne_none_iff_exists'.mp present
  refine completes_bind (@completing_act call world world (.findLicense id) _ (sampleInput 0 0) rfl rfl) ?_
  intro events found next ends
  obtain ⟨-, input, ran⟩ := perform_ends ends
  obtain ⟨-, stays⟩ := attempt_ok ran
  change found = world.tables.license id at stays
  rw [stays, Tables.license, show world.tables.licenses id = some data from there]
  exact completing_pure

end Rules

section Licenses

theorem createCustomer_unbroken (customerId : String) : Unbroken call (AdminService.createCustomer customerId) :=
  unbroken_calm (calm_act rfl fun _ => quiet_calm (quiet_capture _))

theorem deleteCustomer_unbroken (customerId : String) : Unbroken call (AdminService.deleteCustomer customerId) := by
  refine unbroken_before (quiet_calm (quiet_requireCustomer _)) fun _ => unbroken_act rfl fun licenses => ?_
  refine unbroken_decides fun _ _ => completing_bind (completing_removeEach licenses) fun _ _ => ?_
  exact completing_capture _

theorem create_unbroken (licenseKey : String) (data : NewLicense) :
    Unbroken call (LicenseRepository.create host licenseKey data) := by
  refine unbroken_act rfl fun id => unbroken_act rfl fun drawn => unbroken_before trivial fun table => ?_
  exact unbroken_decides fun stored _ => completing_pure

theorem createLicense_unbroken (data : CreateLicenseInput) :
    Unbroken call (AdminService.createLicense host data) := by
  refine unbroken_before (quiet_calm (quiet_requireCustomer _)) fun _ => unbroken_domain fun limits => ?_
  refine unbroken_domain fun meters => unbroken_act rfl fun now => unbroken_domain fun config => ?_
  refine unbroken_act rfl fun licenseKey => unbroken_then (create_unbroken _ _) fun license _ => ?_
  exact completing_bind (completing_capture _) fun _ _ => completing_pure

theorem updateTransaction_unbroken (data : LicenseUpdate) (options : LicenseUpdateOptions) :
    Unbroken call (LicenseRepository.updateTransaction id data options) := by
  obtain ⟨body, calm, parts⟩ := @updateTransaction_parts id data options
  rw [parts]
  exact unbroken_before calm fun writes => unbroken_commit (fun _ _ _ => completing_pure) trivial

theorem updateStatement_unbroken (data : LicenseUpdate) (options : LicenseUpdateOptions) :
    Unbroken call (LicenseRepository.updateStatement id data options) :=
  unbroken_commit (fun _ _ _ => completing_pure) (by cases options.expectedUpdatedAt <;> trivial)

/-- What succeeds has left all licenses alone, or this one is there after it. -/
def Provides (call : Nat) (id : LicenseId) (prog : Server α) : Prop :=
  ∀ world events value next, prog.Ends exec call world events (.ok value) next →
    next.licenses = world.licenses ∨ next.licenses id ≠ none

theorem commit_provides {expected : Option Instant} {writes : List Write} {rest : Option Written → Server β}
    (calm : ∀ written, Calm (rest written)) : Provides call id (commit id expected writes >>= rest) := by
  intro world events value next ends
  obtain ⟨early, later, written, middle, -, committed, ended⟩ := bind_ended ends
  rw [calm_kept (calm written) ended]
  exact (commit_ends committed).imp And.right And.right

theorem provides_before (calm : Calm prog) (second : ∀ value, Provides call id (rest value)) :
    Provides call id (prog >>= rest) := by
  intro world events value next ends
  obtain ⟨early, later, first, middle, -, began, ended⟩ := bind_ended ends
  rw [← calm_kept calm began]
  exact second first middle later value next ended

theorem update_provides (data : LicenseUpdate) (options : LicenseUpdateOptions) :
    Provides call id (if data.type.isSome ∨ options.newMeters ≠ []
      then LicenseRepository.updateTransaction id data options
      else LicenseRepository.updateStatement id data options) := by
  split
  · obtain ⟨body, calm, parts⟩ := @updateTransaction_parts id data options
    rw [parts]
    exact provides_before calm fun writes => commit_provides fun _ => trivial
  · exact commit_provides fun written => by
      cases written with
      | some rows => trivial
      | none => cases options.expectedUpdatedAt <;> trivial

theorem update_unbroken (data : LicenseUpdate) (options : LicenseUpdateOptions) :
    Unbroken call (LicenseRepository.update id data options) := by
  refine fun world => settles_bind ?_ fun events _ next ends => ?_
  · split
    · exact updateTransaction_unbroken data options world
    · exact updateStatement_unbroken data options world
  · rcases update_provides data options world events _ next ends with kept | present
    · exact .inr ⟨kept, unbroken_calm (quiet_calm (quiet_reload _ _)) next⟩
    · exact .inl (completing_reload present)

theorem query_ends {read : Tables → α} {value : α}
    (ends : (query read).Ends exec call world events (.ok value) next) :
    next = world ∧ value = read world.tables := by
  obtain ⟨-, input, ran⟩ := perform_ends ends
  exact attempt_ok ran

theorem except_ends {result answer : Except Failure α}
    (ends : (ofExcept result).Ends exec call world events answer next) : next = world ∧ answer = result :=
  ⟨ends.2.2, ends.2.1⟩

theorem findLicense_ends {found : Option License}
    (ends : (LicenseRepository.findById id).Ends exec call world events (.ok found) next) : next = world := by
  obtain ⟨-, input, ran⟩ := perform_ends ends
  exact (attempt_ok ran).1

theorem execute_ends {writes executed : List Write}
    (ends : (execute writes).Ends exec call world events (.ok executed) next) : executed = writes := by
  obtain ⟨input, middle, answer, rest, -, -, ended⟩ := ends
  cases answer with
  | ok _ => exact Except.ok.inj ended.2.1
  | error error => cases ended.2.1

theorem except_bind_ended {result : Except Failure α} {value : β}
    (ends : (ofExcept result >>= rest).Ends exec call world events (.ok value) next) :
    ∃ first, result = .ok first ∧ (rest first).Ends exec call world events (.ok value) next := by
  cases result with
  | ok first => exact ⟨first, rfl, ends⟩
  | error error => cases ends.2.1

theorem observedLink_ends {targetType : LicenseType} {data : UpdateLicenseInput} {link : StripeSubscriptionLink}
    (ends : (AdminService.observedLink host id targetType data).Ends exec call world events (.ok (some link)) next) :
    world.tables.link id = some link ∧ data.unlinkStripe = some true ∧ targetType ≠ .subscription := by
  unfold AdminService.observedLink at ends
  split at ends
  · next looks =>
    obtain ⟨early, later, found, middle, -, looked, checked⟩ := bind_ended ends
    obtain ⟨rfl, rfl⟩ := query_ends looked
    obtain ⟨-, checked⟩ := except_ends checked
    generalize middle.tables.link id = found at checked
    unfold AdminService.checkStripeLink at checked
    split at checked
    · cases checked
    · split at checked
      · cases checked
      · next renews confirmed =>
        cases checked
        have unlinked : data.unlinkStripe = some true := by simpa using confirmed
        refine ⟨rfl, unlinked, fun same => renews ⟨rfl, same, ?_⟩⟩
        exact looks.2.resolve_left fun other => other same
  · cases ends.2.1

theorem link_kept (kept : next.licenses = world.licenses) : next.tables.link id = world.tables.link id :=
  congrArg (fun licenses : LicenseId → Option LicenseData => (licenses id).bind LicenseData.link) kept

theorem write_unlinks {now : Instant} {data : LicenseData} {update : LicenseUpdate} (inserted : List Write) :
    (applyWrites now (inserted ++ [.deleteLink, .updateLicense update]) data).link = none := by
  rw [applyWrites_append]
  rfl

theorem calm_bind_ended {value : β} (calm : Calm prog)
    (ends : (prog >>= rest).Ends exec call world events (.ok value) next) : ∃ early later first middle,
      prog.Ends exec call world early (.ok first) middle ∧ middle.licenses = world.licenses ∧
        (rest first).Ends exec call middle later (.ok value) next := by
  obtain ⟨early, later, first, middle, -, began, ended⟩ := bind_ended ends
  exact ⟨early, later, first, middle, began, calm_kept calm began, ended⟩

theorem orRollback_ends {value : α} (ends : (orRollback prog).Ends exec call world events (.ok value) next) :
    prog.Ends exec call world events (.ok value) next := by
  rcases tryCatch_ends ends with ⟨_, ⟨⟩, ended⟩ | ⟨early, later, error, middle, -, -, handled⟩
  · exact ended
  · obtain ⟨-, later, -, last, -, -, thrown⟩ := bind_ended handled
    cases thrown.2.1

theorem release_free {lock : Lock} (free : world.free call lock = true) :
    (world.release call).free call lock = true := by
  refine free_iff.mpr fun holder held => free_iff.mp free holder ?_
  simp only [World.release] at held
  split at held
  · cases held
  · exact held

theorem updateBody_drops {data : LicenseUpdate} {options : LicenseUpdateOptions} {writes : List Write}
    (other : data.type ≠ some .subscription) (confirmed : options.confirmStripeUnlink = true)
    (linked : (world.tables.link id).isSome = true)
    (ends : (do
      LicenseRepository.lockMeters id data options
      let locked ← firstOrThrow (← lockRow id) "locking a license for update"
      ofExcept (LicenseRepository.checkVersion locked options)
      let inserted ← LicenseRepository.insertNewMeters id options.newMeters
      LicenseRepository.requireActiveMeter id data inserted
      let link ← query (fun tables => tables.link id)
      let statements ← ofExcept (LicenseRepository.updateStatements data options link)
      execute (inserted ++ statements)).Ends exec call world events (.ok writes) next) :
    next.licenses = world.licenses ∧ ∃ inserted, writes = inserted ++ [.deleteLink, .updateLicense data] := by
  have locks : Calm (lockRow id) := Prog.only_call rfl
  obtain ⟨_, _, _, first, -, same₁, ends⟩ := calm_bind_ended (lockMeters_calm data options) ends
  obtain ⟨_, _, row, second, -, same₂, ends⟩ := calm_bind_ended locks ends
  obtain ⟨_, _, locked, third, -, same₃, ends⟩ := calm_bind_ended (quiet_calm quiet_firstOrThrow) ends
  obtain ⟨_, -, ends⟩ := except_bind_ended ends
  obtain ⟨_, _, inserted, fourth, -, same₄, ends⟩ := calm_bind_ended (quiet_calm (insertNewMeters_quiet _ _)) ends
  obtain ⟨_, _, _, fifth, -, same₅, ends⟩ := calm_bind_ended (quiet_calm (requireActiveMeter_quiet _ _ _)) ends
  obtain ⟨_, _, link, _, read, same₆, ends⟩ := calm_bind_ended (quiet_calm (quiet_query _)) ends
  obtain ⟨statements, chosen, ends⟩ := except_bind_ended ends
  have unchanged := same₅.trans (same₄.trans (same₃.trans (same₂.trans same₁)))
  have kept := (calm_kept (quiet_calm (quiet_execute _)) ends).trans (same₆.trans unchanged)
  obtain rfl := execute_ends ends
  obtain ⟨-, rfl⟩ := query_ends read
  have chosen : LicenseRepository.updateStatements data options (world.tables.link id) = .ok statements := by
    rw [← link_kept unchanged]
    exact chosen
  refine ⟨kept, inserted, congrArg (inserted ++ ·) ?_⟩
  simpa [LicenseRepository.updateStatements, other, linked, confirmed] using chosen.symm

/-- The transaction that deletes the link has to lock it, and unlocks it again. -/
theorem updateTransaction_drops {data : LicenseUpdate} {options : LicenseUpdateOptions}
    (other : data.type ≠ some .subscription) (confirmed : options.confirmStripeUnlink = true)
    (linked : (world.tables.link id).isSome = true)
    (ends : (LicenseRepository.updateTransaction id data options).Ends exec call world events (.ok ()) next) :
    next.tables.link id = none ∧ next.free call (.link id) = true := by
  obtain ⟨early, later, writes, middle, -, began, ended⟩ := bind_ended ends
  obtain ⟨kept, inserted, rfl⟩ := updateBody_drops other confirmed linked (orRollback_ends began)
  obtain ⟨early, later, written, last, -, committed, ended⟩ := bind_ended ended
  obtain ⟨-, -, rfl⟩ := ended
  obtain ⟨-, input, ran⟩ := perform_ends committed
  rcases runCommit_some ran with ⟨-, ⟨error, failed⟩ | missed⟩ | ⟨stored, present, admitted, -, -, rfl, -⟩
  · cases failed
  · cases missed
    rw [← link_kept kept, Tables.link, exec_commit_missed ran] at linked
    cases linked
  · constructor
    · change (Function.update middle.tables.licenses id (some _) id).bind LicenseData.link = none
      rw [Function.update_self]
      exact write_unlinks inserted
    · have free := List.all_eq_true.mp admitted .deleteLink (by simp)
      have held : middle.free call (.link id) = true := by simpa [Write.locksRow, Write.locksLink] using free
      exact @release_free call (middle.write id stored input.draw.now _) _ held

theorem update_drops {data : LicenseUpdate} {options : LicenseUpdateOptions} {updated : License}
    (typed : data.type.isSome = true) (other : data.type ≠ some .subscription)
    (confirmed : options.confirmStripeUnlink = true) (linked : (world.tables.link id).isSome = true)
    (ends : (LicenseRepository.update id data options).Ends exec call world events (.ok updated) next) :
    next.tables.link id = none ∧ next.free call (.link id) = true := by
  obtain ⟨early, later, _, middle, -, began, ended⟩ := bind_ended ends
  rw [if_pos (.inl typed)] at began
  have dropped := updateTransaction_drops other confirmed linked began
  obtain ⟨_, _, found, last, -, looked, ended⟩ := bind_ended ended
  obtain rfl : last = middle := findLicense_ends looked
  cases found with
  | none => cases ended.2.1
  | some license =>
      obtain rfl : next = last := ended.2.2
      exact dropped

theorem completing_dropObservedLink {link : StripeSubscriptionLink} (absent : world.tables.link id = none)
    (free : world.free call (.link id) = true) :
    Completing call (AdminService.dropObservedLink id (some link)) world := by
  have commits : Completing call (commit id none [.deleteLink]) world := by
    constructor
    · intro events result next ends event member
      obtain ⟨rfl, input, ran⟩ := perform_ends ends
      cases List.mem_singleton.mp member
      by_contra alters
      exact deleteLink_linked ⟨input, ran⟩ rfl alters absent
    · cases found : world.tables.licenses id with
      | none =>
          have ran : exec call (.commit id none [.deleteLink]) (sampleInput 0 0) world =
              some (world.release call, .ok none) := by simp [exec, runCommit, found, sampleInput]
          exact ⟨_, _, _, ends_perform ran⟩
      | some data =>
          have admitted : world.admits call id [.deleteLink] = true := by
            simp [World.admits, Write.locksRow, Write.locksLink, free]
          have ran : exec call (.commit id none [.deleteLink]) (sampleInput 0 0) world =
              some ((world.write id data 0 [.deleteLink]).release call,
                .ok (some ⟨data, applyWrites 0 [.deleteLink] data⟩)) := by
            simp [exec, runCommit, found, admitted, sampleInput, Tables.violation]
          exact ⟨_, _, _, ends_perform ran⟩
  refine completing_bind (completing_bind commits fun _ _ => completing_pure) fun _ _ => completing_capture _

theorem updateLicense_unbroken (data : UpdateLicenseInput) :
    Unbroken call (AdminService.updateLicense host id data) := by
  refine unbroken_domain fun _ => unbroken_license fun current => unbroken_domain fun limits => ?_
  refine unbroken_before (quiet_calm (checkCustomer_quiet _)) fun _ => unbroken_domain fun _ => ?_
  refine unbroken_domain fun newMeters => unbroken_domain fun _ => unbroken_before (calm_listMeters false) fun _ => ?_
  refine unbroken_act rfl fun now => unbroken_domain fun config => ?_
  refine unbroken_before (quiet_calm (meteredDraft_quiet _ _ _ _ _)) fun active => ?_
  intro world
  refine settles_before (calm_spares (quiet_calm (observedLink_quiet _ _ _))) ?_
  intro events stripeLink middle observed kept
  refine settles_bind (update_unbroken _ _ middle) fun events updated next ends => .inl ?_
  refine completing_bind ?_ fun _ _ => completing_bind (completing_capture _) fun _ _ => completing_managed _
  cases stripeLink with
  | none => exact completing_pure
  | some link =>
      obtain ⟨linked, confirmed, other⟩ := observedLink_ends observed
      obtain ⟨absent, free⟩ := update_drops (by simp [AdminService.licenseUpdate])
        (by simpa [AdminService.licenseUpdate] using other) (by simp [AdminService.updateOptions, confirmed])
        (by rw [link_kept kept, linked]; rfl) ends
      exact completing_dropObservedLink absent free

theorem renewSubscription_unbroken (expiresAt : DateText) :
    Unbroken call (AdminService.renewSubscription host id expiresAt) := by
  refine unbroken_license fun current => ?_
  split
  · exact unbroken_calm trivial
  · exact updateLicense_unbroken _

theorem deleteLicense_unbroken : Unbroken call (AdminService.deleteLicense id) := by
  refine unbroken_license fun _ => unbroken_decides fun _ _ => completing_bind (completing_cleanup none) fun _ _ => ?_
  exact completing_capture _

theorem invalidation_unbroken {writes : List Write} {action message : String} : Unbroken call (do
    let _ ← firstOrThrow (← commit id none writes) action
    LicenseRepository.reload id message) :=
  unbroken_commit (fun _ _ present => completing_reload present) trivial

theorem revokeLicense_unbroken (text : String) : Unbroken call (AdminService.revokeLicense id text) := by
  refine unbroken_license fun license => unbroken_domain fun reason => unbroken_act rfl fun now => ?_
  refine unbroken_then invalidation_unbroken fun updated _ => completing_bind (completing_cleanup _) fun _ _ => ?_
  exact completing_bind (completing_capture _) fun _ _ => completing_managed _

theorem restoreLicense_unbroken : Unbroken call (AdminService.restoreLicense id) := by
  refine unbroken_license fun license => unbroken_then (update_unbroken _ _) fun updated _ => ?_
  exact completing_bind (completing_capture _) fun _ _ => completing_managed _

theorem rotateKey_unbroken (licenseKey : String) (expectedUpdatedAt : Instant) :
    Unbroken call (LicenseRepository.rotateKey host id licenseKey expectedUpdatedAt) := by
  obtain ⟨body, calm, parts⟩ := @rotateKey_parts host id licenseKey expectedUpdatedAt
  rw [parts]
  exact unbroken_before calm fun _ => unbroken_commit (fun _ _ _ => completing_pure) trivial

theorem rotateLicenseKey_unbroken : Unbroken call (AdminService.rotateLicenseKey host id) := by
  refine unbroken_license fun current => unbroken_act rfl fun licenseKey => ?_
  refine unbroken_then (rotateKey_unbroken _ _) fun rotated _ => completing_bind (completing_cleanup _) fun _ _ => ?_
  exact completing_bind (completing_capture _) fun _ _ => completing_pure

theorem terminateLicenseSessions_unbroken : Unbroken call (AdminService.terminateLicenseSessions id) := by
  refine unbroken_license fun license => unbroken_then invalidation_unbroken fun updated _ => ?_
  refine completing_bind (completing_cleanup _) fun cleanup _ => ?_
  exact completing_bind (completing_capture _) fun _ _ => completing_pure

theorem unlinkLicense_unbroken : Unbroken call (StripeSubscriptionService.unlinkLicense id) := by
  refine unbroken_act rfl fun _ => unbroken_act rfl fun link => ?_
  cases link with
  | none => exact unbroken_calm trivial
  | some link =>
      refine unbroken_then (unbroken_commit (fun _ _ _ => completing_pure) trivial) fun deleted _ => ?_
      refine completing_bind ?_ fun _ _ => completing_pure
      cases deleted with
      | true => exact completing_captured _
      | false => exact completing_pure

end Licenses

section Registrations

theorem addAllowed_unbroken (write : Write) (constraint : String) :
    Unbroken call (AccessRepository.addAllowed id write constraint) :=
  unbroken_commit (fun _ _ _ => completing_pure) trivial

theorem allowLicenseIp_unbroken (value : String) : Unbroken call (AdminService.allowLicenseIp host id value) := by
  refine unbroken_license fun _ => unbroken_before (quiet_calm (normalizedIp_quiet _)) fun ip => ?_
  refine unbroken_before (quiet_calm getAccessRecords_quiet) fun before => ?_
  refine unbroken_then (addAllowed_unbroken _ _) fun _ _ => completing_bind (completing_capture _) fun _ _ => ?_
  exact completing_pure

theorem allowLicenseDevice_unbroken (value : String) : Unbroken call (AdminService.allowLicenseDevice id value) := by
  refine unbroken_license fun _ => unbroken_domain fun device => ?_
  refine unbroken_before (quiet_calm getAccessRecords_quiet) fun before => ?_
  refine unbroken_then (addAllowed_unbroken _ _) fun _ _ => completing_bind (completing_capture _) fun _ _ => ?_
  exact completing_pure

theorem disallow_unbroken {write : Write} {listed : LicenseData → Bool} : Unbroken call (do
    let removed ← AccessRepository.removeAllowed id write listed
    (if removed then capture "license.updated" else pure ())
    return removed) := by
  refine unbroken_then (unbroken_commit (fun _ _ _ => completing_pure) trivial) fun removed _ => ?_
  refine completing_bind ?_ fun _ _ => completing_pure
  cases removed with
  | true => exact completing_capture _
  | false => exact completing_pure

theorem removeLicenseAllowedIp_unbroken (value : String) :
    Unbroken call (AdminService.removeLicenseAllowedIp host id value) := by
  refine unbroken_license fun _ => unbroken_before (quiet_calm (normalizedIp_quiet _)) fun ip => ?_
  exact disallow_unbroken

theorem removeLicenseAllowedDevice_unbroken (value : String) :
    Unbroken call (AdminService.removeLicenseAllowedDevice id value) :=
  unbroken_license fun _ => unbroken_domain fun _ => disallow_unbroken

theorem removalTransaction_unbroken (filter : DeviceFilter) (always : Bool) :
    Unbroken call (AdminService.removalTransaction id filter always) := by
  obtain ⟨body, calm, parts⟩ := @removalTransaction_parts id filter always
  rw [parts]
  refine unbroken_before calm ?_
  rintro ⟨result, writes⟩
  exact unbroken_commit (fun _ _ _ => completing_pure) trivial

theorem cleanUpRemoval_unbroken (filter : DeviceFilter) (always : Bool) :
    Unbroken call (AdminService.cleanUpRemoval id filter always) := by
  refine unbroken_then (removalTransaction_unbroken filter always) ?_
  rintro ⟨count, sessionRevision⟩ next
  dsimp only
  split
  · refine completing_bind (completing_cleanup _) fun _ _ => ?_
    exact completing_bind (completing_capture _) fun _ _ => completing_pure
  · exact completing_pure

theorem removeRegisteredIp_unbroken (value : String) :
    Unbroken call (AdminService.removeRegisteredIp host id value) :=
  unbroken_license fun _ => unbroken_before (quiet_calm (normalizedIp_quiet _)) fun _ => cleanUpRemoval_unbroken _ _

theorem removeRegisteredDevice_unbroken (value : String) :
    Unbroken call (AdminService.removeRegisteredDevice id value) :=
  unbroken_license fun _ => unbroken_domain fun _ => cleanUpRemoval_unbroken _ _

theorem resetRegisteredDevices_unbroken : Unbroken call (AdminService.resetRegisteredDevices id) :=
  unbroken_license fun _ => cleanUpRemoval_unbroken _ _

end Registrations

section Meters

variable {body : Server (α × List Write)}

theorem statements_ends {script : Draw → MeterScript α} {value : α} {writes : List Write}
    (ends : (MeterRepository.statements id script).Ends exec call world events (.ok (value, writes)) next) :
    ∃ now written, (script now).run (world.tables.meters id) = .ok (written, value) ∧
      writes = (written.map Write.meters).toList := by
  obtain ⟨_, _, now, middle, -, drawn, scripted⟩ := bind_ended ends
  obtain ⟨-, input, ran⟩ := perform_ends drawn
  cases ran
  obtain ⟨_, _, region, last, -, read, ended⟩ := bind_ended scripted
  obtain ⟨written, chosen, returned⟩ := except_bind_ended ended
  cases returned.2.1
  rw [(query_ends read).2] at chosen
  exact ⟨_, written.1, chosen, rfl⟩

/-- A transaction of the meters ends with its commit, or fails before it. -/
theorem transaction_ends {result : Except Failure α} (calm : Calm body)
    (ends : (MeterRepository.transaction id body).Ends exec call world events result next) :
    ((∃ error, result = .error error) ∧ ∀ event ∈ events, ¬Alters event) ∨
    ∃ early start inner value writes middle answer input,
      events = early ++ [⟨call, .commit id none writes, answer, middle, next⟩] ∧
      (∀ event ∈ early, ¬Alters event) ∧ start.licenses = world.licenses ∧ middle.licenses = world.licenses ∧
      body.Ends exec call start inner (.ok (value, writes)) middle ∧
      exec call (.commit id none writes) input middle = some (next, answer) ∧
      result = answer.map fun _ => value := by
  have quiet : Calm (lock (.meter id) >>= fun _ => body) := calm_act rfl fun _ => calm
  have silent : ∀ {β : Type} {prog : Server β} {world next : World} {events : List ServerEvent}
      {result : Except Failure β}, Calm prog → prog.Ends exec call world events result next →
        ∀ event ∈ events, ¬Alters event := fun calm ends event member =>
    not_not.mpr (calm_spares calm _ _ _ ends event member)
  rcases bind_ends ends with ⟨early, later, ⟨value, writes⟩, middle, rfl, began, ended⟩ | ⟨error, same, began⟩
  · have inside := orRollback_ends began
    obtain ⟨_, inner, _, start, -, taken, read⟩ := bind_ended inside
    have locks : Calm (lock (.meter id)) := Prog.only_call rfl
    have opened := calm_kept locks taken
    have reached := calm_kept quiet inside
    have committed : (commit id none writes >>= fun _ => (pure value : Server α)).Ends exec call middle later
      result next := ended
    rcases bind_ends committed with ⟨first, second, written, last, rfl, commits, returned⟩ | ⟨error, same, commits⟩
    · obtain ⟨rfl, rfl, rfl⟩ := returned
      obtain ⟨rfl, input, ran⟩ := perform_ends commits
      exact .inr ⟨early, start, inner, value, writes, middle, _, input, by simp, silent (calm_orRollback quiet) began,
        opened, reached, read, ran, rfl⟩
    · subst same
      obtain ⟨rfl, input, ran⟩ := perform_ends commits
      exact .inr ⟨early, start, inner, value, writes, middle, _, input, rfl, silent (calm_orRollback quiet) began,
        opened, reached, read, ran, rfl⟩
  · exact .inl ⟨⟨error, same⟩, silent (calm_orRollback quiet) began⟩

theorem transaction_ended {value : α} (calm : Calm body)
    (ends : (MeterRepository.transaction id body).Ends exec call world events (.ok value) next) :
    ∃ early start inner writes middle written input,
      events = early ++ [⟨call, .commit id none writes, .ok written, middle, next⟩] ∧
      start.licenses = world.licenses ∧ middle.licenses = world.licenses ∧
      body.Ends exec call start inner (.ok (value, writes)) middle ∧
      exec call (.commit id none writes) input middle = some (next, .ok written) := by
  rcases transaction_ends calm ends with ⟨⟨_, ⟨⟩⟩, -⟩ |
    ⟨early, start, inner, answer, writes, middle, outcome, input, same, -, opened, reached, read, ran, returned⟩
  cases outcome with
  | error error => cases returned
  | ok written =>
      obtain rfl : value = answer := Except.ok.inj returned
      exact ⟨early, start, inner, writes, middle, written, input, same, opened, reached, read, ran⟩

theorem rewrite_kept {result : Except Failure (Option Written)} {input : Input}
    (ran : exec call (.commit id none ((world.tables.meters id).map Write.meters).toList) input world =
      some (next, result)) : next.licenses = world.licenses := by
  rcases runCommit_some ran with ⟨rfl, -⟩ | ⟨data, present, -, -, -, rfl, -⟩
  · rfl
  · refine write_unaltered present ?_
    rw [Tables.meters, present]
    rfl

theorem meters_kept (kept : next.licenses = world.licenses) : next.tables.meters id = world.tables.meters id :=
  congrArg (fun licenses : LicenseId → Option LicenseData => (licenses id).map LicenseData.meters) kept

theorem transaction_unbroken {rest : α → Server β} (calm : Calm body)
    (answered : ∀ start inner value writes middle,
      body.Ends exec call start inner (.ok (value, writes)) middle → (∀ next, Completing call (rest value) next) ∨
        Calm (rest value) ∧ writes = ((start.tables.meters id).map Write.meters).toList) :
    Unbroken call (MeterRepository.transaction id body >>= rest) := by
  have first : Unbroken call (MeterRepository.transaction id body) := by
    refine unbroken_before (calm_orRollback (calm_act rfl fun _ => calm)) ?_
    rintro ⟨value, writes⟩
    exact unbroken_then (unbroken_perform _) fun _ _ => completing_pure
  refine fun world => settles_bind (first world) fun events value next ends => ?_
  obtain ⟨_, start, inner, writes, middle, written, input, -, opened, reached, read, ran⟩ := transaction_ended calm ends
  refine (answered start inner value writes middle read).imp (fun completes => completes next) ?_
  rintro ⟨quiet, rfl⟩
  rw [meters_kept opened, ← meters_kept reached] at ran
  exact ⟨(rewrite_kept ran).trans reached, unbroken_calm quiet next⟩

theorem adjustMeter_unbroken (name : String) (delta : Int) (text : String) (kind : MeterLedgerKind) :
    Unbroken call (AdminService.adjustMeter id name delta text kind) := by
  refine unbroken_license fun _ => unbroken_domain fun reason => unbroken_domain fun name => ?_
  refine transaction_unbroken (statements_calm _) fun start inner result writes middle ends => ?_
  obtain ⟨now, written, ran, rfl⟩ := statements_ends ends
  cases result with
  | adjusted meter entry =>
      refine .inl fun next => completing_bind completing_pure fun _ _ => ?_
      exact completing_bind (completing_capture _) fun _ _ => completing_pure
  | notFound | archived | outOfRange =>
      rcases adjustMeter_refused ran with ⟨_, _, ⟨⟩⟩ | rfl
      exact .inr ⟨trivial, rfl⟩

theorem topUpLicenseMeter_unbroken (name : String) (units : Number) (text : String) :
    Unbroken call (AdminService.topUpLicenseMeter id name units text) :=
  unbroken_domain fun _ => adjustMeter_unbroken _ _ _ _

theorem adjustLicenseMeter_unbroken (name : String) (delta : Number) (text : String) :
    Unbroken call (AdminService.adjustLicenseMeter id name delta text) :=
  unbroken_domain fun _ => adjustMeter_unbroken _ _ _ _

theorem updateMeterDraft_unbroken : Unbroken call (AdminService.updateMeterDraft id) := by
  refine unbroken_act rfl fun meters => unbroken_then ?_ fun _ _ => completing_pure
  refine unbroken_before (calm_orRollback (calm_act rfl fun row => quiet_calm quiet_firstOrThrow)) fun _ => ?_
  exact unbroken_commit (fun _ _ present => completing_reload present) (quiet_calm (quiet_reload _ _))

end Meters

theorem unbroken_map {answer : α → β} (first : Unbroken call prog) : Unbroken call (answer <$> prog) :=
  unbroken_then first fun _ _ => completing_pure

theorem program_unbroken {request : Request} (operator : request.operator = true) (other : request.meters = none) :
    Unbroken call (program host request) := by
  cases request with
  | activate _ _ _ | heartbeat _ _ _ | consume _ _ _ _ | deactivate _ _ _ | linkLicense _ _
  | syncLicense _ | receive _ | processDue _ => cases operator
  | createLicenseMeter _ _ | archiveLicenseMeter _ _ _ => cases other
  | createCustomer id => exact unbroken_map (createCustomer_unbroken id)
  | deleteCustomer id => exact unbroken_map (deleteCustomer_unbroken id)
  | createLicense data => exact unbroken_map (createLicense_unbroken data)
  | updateLicense id data => exact unbroken_map (updateLicense_unbroken data)
  | renewSubscription id expiresAt => exact unbroken_map (renewSubscription_unbroken expiresAt)
  | deleteLicense id => exact unbroken_map deleteLicense_unbroken
  | revokeLicense id reason => exact unbroken_map (revokeLicense_unbroken reason)
  | restoreLicense id => exact unbroken_map restoreLicense_unbroken
  | rotateLicenseKey id => exact unbroken_map rotateLicenseKey_unbroken
  | allowLicenseIp id value => exact unbroken_map (allowLicenseIp_unbroken value)
  | removeLicenseAllowedIp id value => exact unbroken_map (removeLicenseAllowedIp_unbroken value)
  | allowLicenseDevice id value => exact unbroken_map (allowLicenseDevice_unbroken value)
  | removeLicenseAllowedDevice id value => exact unbroken_map (removeLicenseAllowedDevice_unbroken value)
  | removeRegisteredIp id value => exact unbroken_map (removeRegisteredIp_unbroken value)
  | removeRegisteredDevice id value => exact unbroken_map (removeRegisteredDevice_unbroken value)
  | resetRegisteredDevices id => exact unbroken_map resetRegisteredDevices_unbroken
  | terminateLicenseSessions id => exact unbroken_map terminateLicenseSessions_unbroken
  | topUpLicenseMeter id name units reason => exact unbroken_map (topUpLicenseMeter_unbroken name units reason)
  | adjustLicenseMeter id name delta reason => exact unbroken_map (adjustLicenseMeter_unbroken name delta reason)
  | unlinkLicense id => exact unbroken_map unlinkLicense_unbroken

end Keyzori
