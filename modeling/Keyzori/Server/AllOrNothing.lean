import Keyzori.Server.FailedCalls
import Keyzori.Server.MeterDrafts
import Keyzori.Server.RuntimeCalls

/-! Operator calls that throw. All but two leave the licenses as they were, or as a success
leaves them. A call that creates or archives a meter commits it first and writes the draft in
another transaction, and is half done when a statement fails between the two. -/

namespace Keyzori

open Interleaving Relation

variable {α β : Type} {host : Host} {now : Instant} {request : Request} {state last : ServerState}
  {call : Nat} {id : LicenseId} {world next : World} {events : List ServerEvent} {prog : Server α}
  {rest : α → Server β}

/-- A call that is made in a state and comes to its end there, whatever fails. -/
structure Called (host : Host) (call : Nat) (request : Request) (state last : ServerState)
    (result : Except Failure Response) : Prop where
  unused : state.pool call = none
  turns : ReflTransGen (Turns (server host) (fun _ => True) call) (asked host call request state) last
  ended : last.pool call = some (.done result)

/-- The licenses are as they were before the call, or as a successful call leaves them. -/
def AllOrNothing (host : Host) (call : Nat) (request : Request) (state last : ServerState) : Prop :=
  last.view.world.licenses = state.view.world.licenses ∨ ∃ other response,
    Called host call request state other (.ok response) ∧ other.view.world.licenses = last.view.world.licenses

def MetersWritten (event : ServerEvent) (id : LicenseId) : Prop :=
  (∃ table, event.act = .commit id none [.meters table]) ∧ Alters event

def DraftWritten (event : ServerEvent) (id : LicenseId) : Prop :=
  (∃ names, event.act = .commit id none [.meterDraft names]) ∧ Alters event

def Fails (events : List ServerEvent) : Prop := ∃ event ∈ events, ∃ error, event.result = .error error

/-- From the commit of the meters on a statement failed, and the draft was not written. -/
def Severed (id : LicenseId) (events : List ServerEvent) : Prop :=
  ∃ early change late, events = early ++ change :: late ∧ MetersWritten change id ∧
    Fails (change :: late) ∧ ∀ event ∈ late, ¬DraftWritten event id

def Interrupted (request : Request) (state last : ServerState) : Prop :=
  ∃ id events, request.meters = some id ∧ last.view.history = state.view.history ++ events ∧ Severed id events

section Drafts

/-- The row was written anew. -/
def Restamped (id : LicenseId) (world next : World) : Prop :=
  ∃ old new, world.licenses id = some old ∧ next.licenses id = some new ∧ old.row.updatedAt < new.row.updatedAt

theorem restamped_changed (restamped : Restamped id world next) : next.licenses ≠ world.licenses := by
  obtain ⟨old, new, before, after, later⟩ := restamped
  intro same
  rw [same, before] at after
  cases after
  exact absurd later (lt_irrefl _)

theorem restamped_congr {first second : World} (before : first.licenses = world.licenses)
    (after : next.licenses = second.licenses) (restamped : Restamped id first second) : Restamped id world next := by
  rwa [Restamped, ← before, after]

theorem unaltered_calm {result : Except Failure α} (calm : Calm prog)
    (ends : prog.Ends exec call world events result next) : ∀ event ∈ events, ¬Alters event :=
  fun event member => not_not.mpr (calm_spares calm _ _ _ ends event member)

theorem lockRow_ends {row : Option StoredLicense} (ends : (lockRow id).Ends exec call world events (.ok row) next) :
    row = world.tables.row id := by
  obtain ⟨-, input, ran⟩ := perform_ends ends
  simp only [exec] at ran
  split at ran
  · next absent => exact (attempt_ok ran).2.trans absent.symm
  · next stored present =>
    rcases acquire_some ran with ⟨-, error, failed⟩ | ⟨-, -, answered⟩
    · cases failed
    · exact (Except.ok.inj answered).trans present.symm

theorem draft_commits {names : List String} {result : Except Failure (Option Written)} {input : Input}
    (present : world.licenses id ≠ none)
    (ran : exec call (.commit id none [.meterDraft names]) input world = some (next, result)) :
    Restamped id world next ∨ (∃ error, result = .error error) ∧ next.licenses = world.licenses := by
  rcases runCommit_some ran with ⟨same, ⟨error, failed⟩ | missed⟩ | ⟨data, there, -, -, -, same, -⟩
  · exact .inr ⟨⟨error, failed⟩, by rw [same]; rfl⟩
  · subst missed
    exact absurd (exec_commit_missed ran) present
  · refine .inl ⟨data, applyWrites input.draw.now [.meterDraft names] data, there, ?_, ?_⟩
    · rw [same]
      exact Function.update_self _ _ _
    · exact applyWrites_stamp ⟨_, .head _, rfl⟩

theorem fails_append {early late : List ServerEvent} (fails : Fails early ∨ Fails late) : Fails (early ++ late) := by
  rcases fails with ⟨event, member, failed⟩ | ⟨event, member, failed⟩
  · exact ⟨event, List.mem_append_left _ member, failed⟩
  · exact ⟨event, List.mem_append_right _ member, failed⟩

theorem perform_fails {act : Act} {error : Failure}
    (ends : (perform act).Ends exec call world events (.error error) next) : Fails events := by
  obtain ⟨rfl, -⟩ := perform_ends ends
  exact ⟨_, .head _, error, rfl⟩

theorem row_absent (absent : world.tables.row id = none) : world.licenses id = none :=
  Option.map_eq_none_iff.mp absent

theorem lockDraft_ends {action : String} {result : Except Failure StoredLicense}
    (ends : (orRollback (lockRow id >>= fun row => firstOrThrow row action)).Ends exec call world events
      result next) :
    world.licenses id ≠ none ∧ (∃ row, result = .ok row) ∨
      (world.licenses id = none ∨ Fails events) ∧ ∃ error, result = .error error := by
  rcases tryCatch_ends ends with ⟨row, rfl, began⟩ | ⟨early, later, error, middle, rfl, began, handled⟩
  · refine .inl ⟨fun absent => ?_, row, rfl⟩
    obtain ⟨_, _, found, last, -, locked, ended⟩ := bind_ended began
    rw [lockRow_ends locked, Tables.row, show world.tables.licenses id = none from absent] at ended
    cases ended.2.1
  · have failed : ∃ error, result = .error error := by
      rcases bind_ends handled with ⟨_, _, _, _, -, -, thrown⟩ | ⟨other, same, -⟩
      · exact ⟨error, thrown.2.1⟩
      · exact ⟨other, same⟩
    refine .inr ⟨?_, failed⟩
    rcases bind_ends began with ⟨_, _, found, last, -, locked, ended⟩ | ⟨_, ⟨⟩, locked⟩
    · refine .inl (row_absent ?_)
      rw [← lockRow_ends locked]
      cases found with
      | none => rfl
      | some row => cases ended.2.1
    · exact .inr (fails_append (.inl (perform_fails locked)))

/-- Unless the draft is written, it fails before any change, and because a statement failed. -/
def Drafts (id : LicenseId) (world : World) (events : List ServerEvent) (result : Except Failure α) (next : World) :
    Prop :=
  Restamped id world next ∨
    (∃ error, result = .error error) ∧ (∀ event ∈ events, ¬Alters event) ∧ (world.licenses id = none ∨ Fails events)

theorem writeDraft_ends {names : List String} {result : Except Failure License}
    (ends : (LicenseRepository.updateMeterDraft id names).Ends exec call world events result next) :
    Drafts id world events result next := by
  have locks : Calm (orRollback (lockRow id >>= fun row => firstOrThrow row "locking meter draft")) :=
    calm_orRollback (calm_act rfl fun row => quiet_calm quiet_firstOrThrow)
  have reloads : Calm (LicenseRepository.reload id "Updated license could not be reloaded.") :=
    quiet_calm (quiet_reload id _)
  rcases bind_ends ends with ⟨early, later, row, first, rfl, locked, written⟩ | ⟨error, rfl, locked⟩
  · have same := calm_kept locks locked
    rcases lockDraft_ends locked with ⟨present, -⟩ | ⟨-, _, ⟨⟩⟩
    rw [← same] at present
    rcases bind_ends written with ⟨_, _, rows, second, -, committed, reloaded⟩ | ⟨error, rfl, committed⟩
    · obtain ⟨-, input, ran⟩ := perform_ends committed
      rcases draft_commits present ran with restamped | ⟨⟨_, ⟨⟩⟩, -⟩
      exact .inl (restamped_congr same (calm_kept reloads reloaded) restamped)
    · obtain ⟨rfl, input, ran⟩ := perform_ends committed
      rcases draft_commits present ran with restamped | ⟨-, kept⟩
      · exact .inl (restamped_congr same rfl restamped)
      · refine .inr ⟨⟨error, rfl⟩, ?_, .inr (fails_append (.inr (perform_fails committed)))⟩
        refine List.forall_mem_append.mpr ⟨unaltered_calm locks locked, fun event member => ?_⟩
        cases List.mem_singleton.mp member
        exact not_not.mpr kept
  · rcases lockDraft_ends locked with ⟨-, _, ⟨⟩⟩ | ⟨failed, -⟩
    exact .inr ⟨⟨error, rfl⟩, unaltered_calm locks locked, failed⟩

theorem updateMeterDraft_ends {result : Except Failure Unit}
    (ends : (AdminService.updateMeterDraft id).Ends exec call world events result next) :
    Drafts id world events result next := by
  have lists : Calm (MeterRepository.listMeters id false) := calm_listMeters false
  rcases bind_ends ends with ⟨early, later, meters, first, rfl, listed, drafts⟩ | ⟨error, rfl, listed⟩
  · have same := calm_kept lists listed
    have written : ∃ answer : Except Failure License, Drafts id first later answer next ∧
        ∀ error, answer = .error error → result = .error error := by
      rcases bind_ends drafts with ⟨_, _, license, last, rfl, drafted, returned⟩ | ⟨error, rfl, drafted⟩
      · obtain ⟨rfl, -, rfl⟩ := returned
        exact ⟨_, by rw [List.append_nil]; exact writeDraft_ends drafted, fun _ failed => by cases failed⟩
      · exact ⟨_, writeDraft_ends drafted, fun _ failed => by cases failed; rfl⟩
    obtain ⟨answer, restamped | ⟨⟨error, failed⟩, unaltered, reason⟩, passed⟩ := written
    · exact .inl (restamped_congr same rfl restamped)
    · refine .inr ⟨⟨error, passed error failed⟩, ?_, ?_⟩
      · exact List.forall_mem_append.mpr ⟨unaltered_calm lists listed, unaltered⟩
      · exact reason.imp (fun absent => by rw [← same, absent]) fun fails => fails_append (.inr fails)
  · exact .inr ⟨⟨error, rfl⟩, unaltered_calm lists listed, .inr (perform_fails listed)⟩

end Drafts

section Meters

/-- A failure has changed nothing, or what a success changes, or it has severed the draft from
the meters. -/
def Mends (call : Nat) (id : LicenseId) (prog : Server α) : Prop :=
  ∀ world events error next, prog.Ends exec call world events (.error error) next →
    (next.licenses = world.licenses ∨ ∃ others value other,
      prog.Ends exec call world others (.ok value) other ∧ other.licenses = next.licenses) ∨ Severed id events

def Restamps (call : Nat) (id : LicenseId) (prog : Server α) : Prop :=
  ∀ world events value next, prog.Ends exec call world events (.ok value) next → Restamped id world next

theorem severed_append {early late : List ServerEvent} (severed : Severed id late) : Severed id (early ++ late) := by
  obtain ⟨before, change, after, rfl, written, failed, undrafted⟩ := severed
  exact ⟨early ++ before, change, after, by simp, written, failed, undrafted⟩

theorem mends_before (calm : Calm prog) (second : ∀ value, Mends call id (rest value)) :
    Mends call id (prog >>= rest) := by
  intro world events error next ends
  rcases bind_ends ends with ⟨early, later, value, middle, rfl, began, ended⟩ | ⟨error, -, began⟩
  · have same := calm_kept calm began
    rcases second value middle later error next ended with (kept | ⟨others, last, other, done, left⟩) | severed
    · exact .inl (.inl (kept.trans same))
    · exact .inl (.inr ⟨early ++ others, last, other, ends_bind began done, left⟩)
    · exact .inr (severed_append severed)
  · exact .inl (.inl (calm_kept calm began))

theorem restamps_before (calm : Calm prog) (second : ∀ value, Restamps call id (rest value)) :
    Restamps call id (prog >>= rest) := by
  intro world events value next ends
  obtain ⟨early, later, first, middle, -, began, ended⟩ := bind_ended ends
  exact restamped_congr (calm_kept calm began) rfl (second first middle later value next ended)

/-- How a call goes on after the transaction of its meters: it writes the draft, or it refuses. -/
inductive GoesOn (call : Nat) (id : LicenseId) (kept : Prop) : Server β → Prop
  | drafts (tail : Server β) (completes : ∀ next, Completing call tail next) :
      GoesOn call id kept (AdminService.updateMeterDraft id >>= fun _ => tail)
  | refuses (error : Failure) (unchanged : kept) : GoesOn call id kept (throw error)

variable {body : Server (α × List Write)}

/-- The transaction of the meters, and how the call goes on after it. -/
abbrev Hands (call : Nat) (id : LicenseId) (body : Server (α × List Write)) (rest : α → Server β) : Prop :=
  ∀ start inner value writes middle, body.Ends exec call start inner (.ok (value, writes)) middle →
    ∃ written, writes = (written.map Write.meters).toList ∧
      GoesOn call id (written = start.tables.meters id) (rest value)

theorem commit_meters {table : Option MeterTable} {result : Except Failure (Option Written)} {input : Input}
    (ran : exec call (.commit id none (table.map Write.meters).toList) input world = some (next, result)) :
    next.licenses = world.licenses ∨ (∃ written, table = some written) ∧ ∃ old new, world.licenses id = some old ∧
      next.licenses id = some new ∧ new.row = old.row := by
  rcases runCommit_some ran with ⟨rfl, -⟩ | ⟨data, present, -, -, -, rfl, -⟩
  · exact .inl rfl
  · cases table with
    | none => exact .inl (write_unaltered present rfl)
    | some table =>
        refine .inr ⟨⟨table, rfl⟩, data, _, present, Function.update_self _ _ _, rfl⟩

theorem settles_drafts {tail : Server β} {error : Failure} (completes : ∀ next, Completing call tail next)
    (ends : (AdminService.updateMeterDraft id >>= fun _ => tail).Ends exec call world events (.error error) next) :
    (next.licenses = world.licenses ∧ (∀ event ∈ events, ¬Alters event) ∧
      (world.licenses id = none ∨ Fails events)) ∨ ∃ others value other,
      (AdminService.updateMeterDraft id >>= fun _ => tail).Ends exec call world others (.ok value) other ∧
        other.licenses = next.licenses := by
  rcases bind_ends ends with ⟨early, later, _, middle, rfl, drafted, tailed⟩ | ⟨failed, -, drafted⟩
  · obtain ⟨others, value, other, done⟩ := (completes middle).succeeds
    refine .inr ⟨early ++ others, value, other, ends_bind drafted done, ?_⟩
    rw [spares_kept (completes middle).spares done, spares_kept (completes middle).spares tailed]
  · rcases updateMeterDraft_ends drafted with restamped | ⟨-, unaltered, reason⟩
    · rcases updateMeterDraft_unbroken world events failed next drafted with kept | ⟨early, _, middle, done, same⟩
      · exact absurd kept (restamped_changed restamped)
      · obtain ⟨others, value, other, tailed⟩ := (completes middle).succeeds
        refine .inr ⟨early ++ others, value, other, ends_bind done tailed, ?_⟩
        rw [spares_kept (completes middle).spares tailed, same]
    · have kept : next.licenses = world.licenses :=
        ends_kept drafted fun event member => not_not.mp (unaltered event member)
      exact .inl ⟨kept, unaltered, reason⟩

theorem mends_transaction (calm : Calm body) (hands : Hands call id body rest) :
    Mends call id (MeterRepository.transaction id body >>= rest) := by
  intro world events error next ends
  rcases bind_ends ends with ⟨early, later, value, middle, rfl, began, ended⟩ | ⟨failed, -, began⟩
  · obtain ⟨before, start, inner, writes, reached, written, input, rfl, opened, same, read, ran⟩ :=
      transaction_ended calm began
    obtain ⟨table, rfl, goes⟩ := hands start inner value writes reached read
    generalize shape : rest value = continuation at ended goes
    cases goes with
    | refuses refusal unchanged =>
        obtain ⟨-, -, rfl⟩ := ended
        rw [unchanged, meters_kept opened, ← meters_kept same] at ran
        exact .inl (.inl ((rewrite_kept ran).trans same))
    | drafts tail completes =>
        rcases settles_drafts completes ended with ⟨kept, unaltered, reason⟩ | ⟨others, last, other, done, left⟩
        · rcases commit_meters ran with unchanged | ⟨⟨stored, rfl⟩, old, new, -, present, -⟩
          · exact .inl (.inl (kept.trans (unchanged.trans same)))
          · by_cases alters : middle.licenses = reached.licenses
            · exact .inl (.inl (kept.trans (alters.trans same)))
            · refine .inr ⟨before, _, later, List.append_assoc _ _ _, ⟨⟨stored, rfl⟩, alters⟩, ?_, ?_⟩
              · rcases reason with absent | ⟨event, member, fails⟩
                · cases absent.symm.trans present
                · exact ⟨event, .tail _ member, fails⟩
              · exact fun event member drafted => unaltered event member drafted.2
        · exact .inl (.inr ⟨_, last, other, ends_bind began (shape ▸ done), left⟩)
  · rcases transaction_ends calm began with ⟨-, unaltered⟩ |
      ⟨before, start, inner, answer, writes, reached, outcome, input, rfl, -, opened, same, read, ran, returned⟩
    · exact .inl (.inl (ends_kept began fun event member => not_not.mp (unaltered event member)))
    · obtain ⟨table, rfl, -⟩ := hands start inner answer writes reached read
      rcases commit_meters ran with unchanged | ⟨⟨stored, rfl⟩, -⟩
      · exact .inl (.inl (unchanged.trans same))
      · by_cases alters : next.licenses = reached.licenses
        · exact .inl (.inl (alters.trans same))
        · cases outcome with
          | ok written => cases returned
          | error other =>
              refine .inr ⟨before, _, [], rfl, ⟨⟨stored, rfl⟩, alters⟩, ⟨_, .head _, other, rfl⟩, ?_⟩
              exact fun event member => by cases member

theorem restamps_transaction (calm : Calm body) (hands : Hands call id body rest) :
    Restamps call id (MeterRepository.transaction id body >>= rest) := by
  intro world events value next ends
  obtain ⟨early, later, first, middle, -, began, ended⟩ := bind_ended ends
  obtain ⟨before, start, inner, writes, reached, written, input, rfl, opened, same, read, ran⟩ :=
    transaction_ended calm began
  obtain ⟨table, rfl, goes⟩ := hands start inner first writes reached read
  generalize rest first = continuation at ended goes
  cases goes with
  | refuses refusal unchanged => cases ended.2.1
  | drafts tail completes =>
      obtain ⟨_, _, _, drafted, -, draft, tailed⟩ := bind_ended ended
      have kept := spares_kept (completes drafted).spares tailed
      rcases updateMeterDraft_ends draft with ⟨old, new, present, later, newer⟩ | ⟨⟨_, ⟨⟩⟩, -⟩
      rw [Restamped, kept]
      rcases commit_meters ran with unchanged | ⟨-, first, second, there, after, row⟩
      · exact ⟨old, new, by rw [← same, ← unchanged, present], later, newer⟩
      · cases after.symm.trans present
        exact ⟨first, new, by rw [← same, there], later, row ▸ newer⟩

theorem mends_map {answer : α → β} (mends : Mends call id prog) : Mends call id (answer <$> prog) := by
  intro world events error next ends
  have ends : (prog >>= fun value => pure (answer value)).Ends exec call world events (.error error) next := ends
  rcases bind_ends ends with ⟨_, _, _, _, -, -, returned⟩ | ⟨failed, -, began⟩
  · cases returned.2.1
  · refine (mends world events failed next began).imp_left fun whole => whole.imp_right ?_
    rintro ⟨others, value, other, done, same⟩
    exact ⟨others ++ [], answer value, other, ends_bind done ⟨rfl, rfl, rfl⟩, same⟩

theorem restamps_map {answer : α → β} (restamps : Restamps call id prog) : Restamps call id (answer <$> prog) := by
  intro world events value next ends
  have ends : (prog >>= fun value => pure (answer value)).Ends exec call world events (.ok value) next := ends
  obtain ⟨early, _, first, middle, -, began, -, -, rfl⟩ := bind_ended ends
  exact restamps world early first next began

theorem refuses_restamps {error : Failure} : Restamps call id (throw error : Server α) :=
  fun _ _ _ _ ends => by cases ends.2.1

theorem refuses_mends {error : Failure} : Mends call id (throw error : Server α) :=
  fun _ _ _ _ ends => .inl (.inl (congrArg World.licenses ends.2.2))

theorem create_hands {name reason : String} {balance : Int} :
    Hands call id (MeterRepository.statements id (createMeter id name balance reason)) fun meter => do
      AdminService.updateMeterDraft id
      capture "meter.created"
      return meter := by
  intro start inner meter writes middle ends
  obtain ⟨now, written, -, rfl⟩ := statements_ends ends
  exact ⟨written, rfl, .drafts _ fun _ => completing_bind (completing_capture _) fun _ _ => completing_pure⟩

theorem archive_hands {name reason : String} :
    Hands call id (do
      let license ← lockRow id
      MeterRepository.statements id (archiveMeter id name reason (license.map fun row => row.type)))
      fun (found : Option LicenseMeter) => (match found with
        | none => throw (.domain (notFoundError "Meter" .meterNotFound))
        | some meter =>
            if meter.archivedAt.isNone then
              throw (.domain (conflictError "A metered license must keep at least one active meter"))
            else do
              AdminService.updateMeterDraft id
              capture "meter.archived"
              return meter : Server LicenseMeter) := by
  intro start inner found writes middle ends
  obtain ⟨_, _, license, locked, -, taken, stated⟩ := bind_ended ends
  have locks : Calm (lockRow id) := Prog.only_call rfl
  obtain ⟨now, written, ran, rfl⟩ := statements_ends stated
  rw [meters_kept (calm_kept locks taken)] at ran
  refine ⟨written, rfl, ?_⟩
  cases found with
  | none => exact .refuses _ ((archiveMeter_refused ran).resolve_left fun ⟨_, same, _⟩ => by cases same)
  | some meter =>
      dsimp only
      split
      · next active =>
        refine .refuses _ ((archiveMeter_refused ran).resolve_left ?_)
        rintro ⟨_, ⟨⟩, archived⟩
        cases active.symm.trans archived
      · exact .drafts _ fun _ => completing_bind (completing_capture _) fun _ _ => completing_pure

structure Mended (call : Nat) (id : LicenseId) (prog : Server α) : Prop where
  mends : Mends call id prog
  restamps : Restamps call id prog

theorem mended_refuses {error : Failure} : Mended call id (throw error : Server α) :=
  ⟨refuses_mends, refuses_restamps⟩

theorem mended_before (calm : Calm prog) (second : ∀ value, Mended call id (rest value)) :
    Mended call id (prog >>= rest) :=
  ⟨mends_before calm fun value => (second value).mends, restamps_before calm fun value => (second value).restamps⟩

theorem mended_map {answer : α → β} (mended : Mended call id prog) : Mended call id (answer <$> prog) :=
  ⟨mends_map mended.mends, restamps_map mended.restamps⟩

theorem mended_transaction (calm : Calm body) (hands : Hands call id body rest) :
    Mended call id (MeterRepository.transaction id body >>= rest) :=
  ⟨mends_transaction calm hands, restamps_transaction calm hands⟩

theorem program_mended (meters : request.meters = some id) : Mended call id (program host request) := by
  cases request with
  | createLicenseMeter owner data =>
      cases meters
      refine mended_map (mended_before calm_requireLicense fun _ => mended_before calm_domain fun inputs => ?_)
      cases inputs with
      | nil => exact mended_refuses
      | cons input _ => exact mended_transaction (statements_calm _) create_hands
  | archiveLicenseMeter owner name reason =>
      cases meters
      refine mended_map (mended_before calm_requireLicense fun _ => mended_before calm_domain fun _ => ?_)
      refine mended_before calm_domain fun _ => mended_transaction ?_ archive_hands
      exact calm_act rfl fun _ => statements_calm _
  | _ => cases meters

end Meters

section Calls

variable {result : Except Failure Response}

theorem called_run (run : ServerRun host now state) (called : Called host call request state last result) :
    ServerRun host now last := acts_run (asked_run run called.unused) called.turns

theorem turns_requests {sane : Input → Prop} (turns : ReflTransGen (Turns (server host) sane call) state last) :
    last.view.requests = state.view.requests := by
  induction turns with
  | refl => rfl
  | tail _ turn ih =>
      cases turn with
      | act caller act rest input world result going ran fairly => exact ih

theorem called_asked (called : Called host call request state last result) :
    last.view.requests call = some request := by
  rw [turns_requests called.turns]
  exact ask_requests_self

theorem called_ends (called : Called host call request state last result) :
    ∃ events, (program host request).Ends exec call state.view.world events result last.view.world ∧
      last.view.history = state.view.history ++ events := turns_ends called.turns asked_pool called.ended

theorem ends_called (unused : state.pool call = none)
    (ends : (program host request).Ends exec call state.view.world events result world) :
    ∃ last, Called host call request state last result ∧ last.view.world = world := by
  obtain ⟨last, turns, ended, same, -⟩ := @ends_turns _ _ _ _ _ _ _ _ _ _ _ (server host)
    (asked host call request state) _ _ asked_pool ends
  exact ⟨last, ⟨unused, turns, ended⟩, same⟩

/-- What is left has the new meters and the row that it had before the call. -/
theorem severed_leaves (run : ServerRun host now last) (asks : last.view.requests call = some request)
    (operator : request.operator = true) (meters : request.meters = some id)
    (history : last.view.history = state.view.history ++ events)
    (ends : (program host request).Ends exec call state.view.world events result last.view.world)
    (severed : Severed id events) : ∃ old new, state.view.world.licenses id = some old ∧
      last.view.world.licenses id = some new ∧ new.row = old.row ∧
      last.view.world.licenses ≠ state.view.world.licenses := by
  obtain ⟨early, change, late, rfl, ⟨⟨table, act⟩, alters⟩, -, undrafted⟩ := severed
  have took := ends_only (Prog.only_any _) ends
  have mutates : ∀ event ∈ early ++ change :: late, Alters event → event.act.mutates = true := by
    intro event member alters
    by_contra calm
    exact calm_unaltered (took event member).2.2 (eq_false_of_ne_true calm) alters
  have before : ∀ event ∈ early, event.after.licenses = event.before.licenses := by
    intro event member
    by_contra changes
    obtain ⟨first, between, rfl⟩ := List.append_of_mem member
    have shape : last.view.history = (state.view.history ++ first) ++ event :: (between ++ change :: late) := by
      rw [history]
      simp
    have follows := operator_follows run asks operator shape (took event (by simp)).1 (took change (by simp)).1
      (mutates event (by simp) changes) (mutates change (by simp) alters)
    rw [act] at follows
    cases follows
  have behind : ∀ event ∈ late, event.after.licenses = event.before.licenses := by
    intro event member
    by_contra changes
    refine undrafted event member ⟨?_, changes⟩
    obtain ⟨between, final, rfl⟩ := List.append_of_mem member
    have shape : last.view.history = (state.view.history ++ early) ++ change :: (between ++ event :: final) := by
      rw [history]
      simp
    have follows := operator_follows run asks operator shape (took change (by simp)).1 (took event (by simp)).1
      (mutates change (by simp) alters) (mutates event (by simp) changes)
    generalize event.act = taken at follows
    cases follows with
    | dropped owner data edits => cases request <;> cases meters <;> cases edits
    | drafted owner names drafts =>
        cases drafts.symm.trans meters
        exact ⟨names, rfl⟩
  obtain ⟨began, finished⟩ := @ends_around _ _ _ _ _ _ _ _ _ _ _ World.licenses _ _ _ _ _ ends before behind
  obtain ⟨-, -, input, ran⟩ := took change (by simp)
  obtain ⟨caller, taken, answer, source, target⟩ := change
  obtain rfl : taken = .commit id none [.meters table] := act
  rcases @commit_meters caller id source target (some table) answer input ran with
    kept | ⟨-, old, new, there, after, row⟩
  · exact absurd kept alters
  · refine ⟨old, new, by rw [← began, there], by rw [finished, after], row, fun same => alters ?_⟩
    exact finished.symm.trans (same.trans began.symm)

theorem interrupted_breaks (run : ServerRun host now state) (operator : request.operator = true) {error : Failure}
    (failed : Called host call request state last (.error error)) (interrupted : Interrupted request state last) :
    ¬AllOrNothing host call request state last := by
  intro whole
  obtain ⟨id, events, meters, grown, severed⟩ := interrupted
  obtain ⟨_, ends, history⟩ := called_ends failed
  obtain rfl := List.append_cancel_left (history.symm.trans grown)
  obtain ⟨old, new, before, after, row, changed⟩ :=
    severed_leaves (called_run run failed) (called_asked failed) operator meters history ends severed
  rcases whole with same | ⟨other, response, succeeded, same⟩
  · exact changed same
  · obtain ⟨_, done, -⟩ := called_ends succeeded
    obtain ⟨first, second, there, reached, newer⟩ := (program_mended meters).restamps _ _ _ _ done
    cases there.symm.trans before
    rw [same, after] at reached
    cases reached
    exact absurd (row ▸ newer) (lt_irrefl _)

/-- An operator call that throws has done all that it does or nothing, and nothing if it refuses,
unless it was interrupted between the meters and the draft. -/
theorem all_or_nothing (run : ServerRun host now state) (operator : request.operator = true) {error : Failure}
    (failed : Called host call request state last (.error error)) :
    (AllOrNothing host call request state last ∧
      ∀ refusal, error = .domain refusal → last.view.world.licenses = state.view.world.licenses) ↔
    ¬Interrupted request state last := by
  refine ⟨fun whole interrupted => interrupted_breaks run operator failed interrupted whole.1, ?_⟩
  intro smooth
  obtain ⟨events, ends, history⟩ := called_ends failed
  refine ⟨?_, fun refusal same => ?_⟩
  · have settled : last.view.world.licenses = state.view.world.licenses ∨ ∃ others response other,
        (program host request).Ends exec call state.view.world others (.ok response) other ∧
          other.licenses = last.view.world.licenses := by
      cases meters : request.meters with
      | none => exact program_unbroken operator meters _ _ _ _ ends
      | some id =>
          refine ((program_mended meters).mends _ _ _ _ ends).resolve_right fun severed => ?_
          exact smooth ⟨id, events, meters, history, severed⟩
    refine settled.imp_right ?_
    rintro ⟨others, response, other, done, same⟩
    obtain ⟨final, called, reached⟩ := ends_called failed.unused done
    exact ⟨final, response, called, by rw [reached, same]⟩
  · subst same
    refine ends_kept ends fun event member => not_not.mp ?_
    exact refused_unaltered (called_run run failed) (called_asked failed) operator failed.ended
      (by rw [history]; exact List.mem_append_right _ member) (ends_only (Prog.only_any _) ends event member).1

end Calls

section Samples

theorem sampled_call {choices : List (Choice Input Move Request)} {inputs : List Input}
    {property : ServerState → ServerState → Failure → Bool}
    (played : (sampleState choices).any (fun state => (state.pool call).isNone &&
      (play (server sampleHost) (inputs.map (.act call)) (asked sampleHost call request state)).any fun last =>
        match last.pool call with
        | some (.done (.error error)) => property state last error
        | _ => false) = true) :
    ∃ state last error, ServerRun sampleHost 0 state ∧ Called sampleHost call request state last (.error error) ∧
      property state last error = true := by
  obtain ⟨state, run, holds⟩ := sampled_run played
  obtain ⟨unused, holds⟩ := (Bool.and_eq_true _ _).mp holds
  obtain ⟨last, made, holds⟩ := (Option.any_eq_true _ _).mp holds
  split at holds
  · next error ended =>
    exact ⟨state, last, error, run, ⟨Option.isNone_iff_eq_none.mp unused, play_turns made, ended⟩, holds⟩
  · cases holds

def revisionOf (state : ServerState) : Option Nat :=
  (state.view.world.licenses sampleId).map fun data => data.row.sessionRevision

/-- The answer of a commit is lost, and the call throws with its work done. -/
theorem all_or_nothing_sample : ∃ state last error, ServerRun sampleHost 0 state ∧
    Called sampleHost 2 (.terminateLicenseSessions sampleId) state last (.error error) ∧
    last.view.world.licenses ≠ state.view.world.licenses ∧
    AllOrNothing sampleHost 2 (.terminateLicenseSessions sampleId) state last := by
  obtain ⟨state, last, error, run, called, holds⟩ := @sampled_call (.terminateLicenseSessions sampleId) 2
    subscriptionSample [sampleInput 2 200, { sampleInput 2 201 with fault := some .lost }]
    (fun state last _ => revisionOf state ≠ revisionOf last) (by decide +kernel)
  refine ⟨state, last, error, run, called, fun same => of_decide_eq_true holds ?_, ?_⟩
  · rw [revisionOf, revisionOf, same]
  · refine ((all_or_nothing run rfl called).mpr ?_).1
    rintro ⟨id, events, meters, -⟩
    cases meters

def changesMeters (event : ServerEvent) : Bool :=
  match event.act with
  | .commit id none [.meters _] => id = sampleId &&
      decide (event.after.tables.meters sampleId ≠ event.before.tables.meters sampleId)
  | _ => false

theorem changes_written {event : ServerEvent} (holds : changesMeters event = true) :
    MetersWritten event sampleId := by
  unfold changesMeters at holds
  split at holds
  · next id table act =>
    obtain ⟨own, other⟩ := (Bool.and_eq_true _ _).mp holds
    obtain rfl := of_decide_eq_true own
    exact ⟨⟨table, act⟩, fun same => of_decide_eq_true other (meters_kept same)⟩
  · cases holds

def isError (event : ServerEvent) : Bool :=
  match event.result with
  | .error _ => true
  | .ok _ => false

/-- The events of the call after the change of the meters. -/
def halfWay (state last : ServerState) : Bool :=
  let events := last.view.history.drop state.view.history.length
  let rest := eventsAfter changesMeters events
  events.any changesMeters && rest.any isError && rest.all fun event => !event.act.mutates

/-- A meter is created, and then the row of its license cannot be locked for the draft. -/
theorem half_created : ∃ state last error, ServerRun sampleHost 0 state ∧
    Called sampleHost 3 (.createLicenseMeter sampleId ⟨"extra", .integer 1, "more"⟩) state last (.error error) ∧
    ¬AllOrNothing sampleHost 3 (.createLicenseMeter sampleId ⟨"extra", .integer 1, "more"⟩) state last := by
  obtain ⟨state, last, error, run, called, holds⟩ := @sampled_call
    (.createLicenseMeter sampleId ⟨"extra", .integer 1, "more"⟩) 3 meteredSample
    ((List.range 6).map (fun index => sampleInput 3 (300 + index)) ++
      [{ sampleInput 3 306 with fault := some (.refused "Connection closed") }, sampleInput 3 307])
    (fun state last _ => halfWay state last) (by decide +kernel)
  refine ⟨state, last, error, run, called, interrupted_breaks run rfl called ?_⟩
  obtain ⟨events, ends, history⟩ := called_ends called
  have own : last.view.history.drop state.view.history.length = events := by rw [history, List.drop_left]
  simp only [halfWay, own, Bool.and_eq_true] at holds
  obtain ⟨⟨changed, failed⟩, calm⟩ := holds
  obtain ⟨change, shape, changes⟩ := first_event changed
  refine ⟨sampleId, events, rfl, history, _, change, _, shape, changes_written changes, ?_, ?_⟩
  · obtain ⟨event, member, fails⟩ := List.any_eq_true.mp failed
    refine ⟨event, .tail _ member, ?_⟩
    unfold isError at fails
    split at fails
    · next error failed => exact ⟨error, failed⟩
    · cases fails
  · rintro event member ⟨⟨names, act⟩, -⟩
    have quiet := List.all_eq_true.mp calm event member
    rw [act] at quiet
    cases quiet

end Samples

end Keyzori
