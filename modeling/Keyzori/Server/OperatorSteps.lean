import Keyzori.Meters.Transactions
import Keyzori.Server.Programs

/-! The decisive step of an operator call. Before it the call only reads and takes locks,
and may refuse; it changes licenses in one statement or one commit; and after it nothing
refuses any more. -/

namespace Keyzori

open Interleaving

variable {host : Host} {request : Request} {α β : Type} {trace : ServerTrace} {id : LicenseId}

def Act.mutates : Act → Bool
  | .commit _ _ _ | .insertLicense _ _ _ _ _ | .deleteLicense _ | .deleteCustomer _
  | .updateLinkError _ _ => true
  | _ => false

/-- What an operator call may still do after its decisive step: an update drops the link
it saw, and a change of the meters rewrites the draft. -/
inductive Follows (request : Request) : Act → Prop
  | dropped (id : LicenseId) (data : UpdateLicenseInput) (asked : request.edits = some (id, data)) :
      Follows request (.commit id none [.deleteLink])
  | drafted (id : LicenseId) (names : List String) (asked : request.meters = some id) :
      Follows request (.commit id none [.meterDraft names])

def Pristine (trace : ServerTrace) : Prop := ∀ deed ∈ trace, deed.act.mutates = false

/-- A call changes licenses once, but for what may follow. -/
def Singular (request : Request) (trace : ServerTrace) (act : Act) : Prop :=
  act.mutates = true → Pristine trace ∨ Follows request act

/-- Acts fail with what the databases report, never with an answer of the service. -/
def Genuine (trace : ServerTrace) : Prop := ∀ deed ∈ trace, ∀ error, deed.result ≠ .error (.domain error)

/-- A deed that has changed nothing: it found no license, or it wrote back the meters that
its call had read under their lock. -/
inductive Void (before : ServerTrace) : ServerDeed → Prop
  | missed (id : LicenseId) (expected : Option Instant) (writes : List Write) :
      Void before ⟨.commit id expected writes, .ok none⟩
  | rewrote (id : LicenseId) (region : MeterRegion) (written : Option Written)
      (read : Under before (.meter id) (.query fun tables => tables.meters id) region) :
      Void before ⟨.commit id none (region.map Write.meters).toList, .ok written⟩

def Spared (trace : ServerTrace) : Prop := ∀ before deed after, trace = before ++ deed :: after →
  deed.act.mutates = true → Void before deed

section Traces

variable {deed : ServerDeed}

theorem pristine_nil : Pristine [] := fun _ member => by cases member

theorem pristine_append (pristine : Pristine trace) {deeds : ServerTrace}
    (calm : ∀ deed ∈ deeds, deed.act.mutates = false) : Pristine (trace ++ deeds) := fun deed member =>
  (List.mem_append.mp member).elim (pristine deed) (calm deed)

theorem pristine_spared (pristine : Pristine trace) : Spared trace := by
  rintro before deed after rfl mutates
  rw [pristine deed (by simp)] at mutates
  cases mutates

theorem spared_append (spared : Spared trace) {deeds : ServerTrace}
    (calm : ∀ deed ∈ deeds, deed.act.mutates = false) : Spared (trace ++ deeds) := by
  intro before deed after shape mutates
  rcases List.append_eq_append_iff.mp shape with ⟨between, rfl, rest⟩ | ⟨between, same, rest⟩
  · rw [calm deed (by simp [rest])] at mutates
    cases mutates
  · cases between with
    | nil =>
        rw [List.nil_append] at rest
        rw [calm deed (rest ▸ .head _)] at mutates
        cases mutates
    | cons head tail =>
        obtain ⟨rfl, -⟩ := List.cons.inj rest
        exact spared before deed tail same mutates

theorem spared_void (pristine : Pristine trace) (idle : Void trace deed) : Spared (trace ++ [deed]) := by
  intro before other after shape mutates
  rcases List.append_eq_append_iff.mp shape with ⟨between, rfl, rest⟩ | ⟨between, same, rest⟩
  · cases between with
    | nil =>
        obtain ⟨rfl, -⟩ := List.cons.inj rest
        rwa [List.append_nil]
    | cons head tail => simp at rest
  · cases between with
    | nil =>
        obtain ⟨rfl, -⟩ := List.cons.inj rest
        rw [List.append_nil] at same
        exact same ▸ idle
    | cons head tail =>
        obtain ⟨rfl, -⟩ := List.cons.inj rest
        rw [pristine other (by simp [same])] at mutates
        cases mutates

theorem genuine_earlier {longer : ServerTrace} (grown : trace <+: longer) (genuine : Genuine longer) :
    Genuine trace := fun deed member => genuine deed (grown.subset member)

theorem genuine_last {act : Act} {error : DomainError}
    (genuine : Genuine (trace ++ [⟨act, .error (.domain error)⟩])) : False :=
  genuine ⟨act, .error (.domain error)⟩ (by simp) error rfl

end Traces

section Rules

abbrev Calm (prog : Server α) : Prop := prog.Only fun act => act.mutates = false

/-- A program that never refuses, whatever it has to follow. -/
abbrev Blunt (request : Request) (prog : Server α) : Prop := ∀ trace,
  prog.wp (Singular request) trace fun result after => Genuine after → ∀ error, result ≠ .error (.domain error)

/-- A program that refuses only before its decisive step. -/
abbrev Atomic (request : Request) (prog : Server α) : Prop := ∀ trace, Pristine trace →
  prog.wp (Singular request) trace fun result after =>
    Genuine after → ∀ error, result = .error (.domain error) → Spared after

theorem calm_singular {act : Act} (calm : act.mutates = false) : Singular request trace act := fun mutates => by
  rw [calm] at mutates
  cases mutates

theorem quiet_calm {prog : Server α} (quiet : Quiet prog) : Calm prog :=
  Prog.only_mono quiet fun act quiet => by cases act <;> first | rfl | cases quiet

theorem calm_act {act : Act} {rest : act.Val → Server β} (calm : act.mutates = false)
    (second : ∀ value, Calm (rest value)) : Calm (perform act >>= rest) :=
  Prog.only_bind (Prog.only_call calm) second

theorem calm_orRollback {body : Server α} (calm : Calm body) : Calm (orRollback body) :=
  Prog.only_tryCatch calm fun _ => calm_act rfl fun _ => trivial

theorem blunt_pure {value : α} : Blunt request (pure value : Server α) := fun _ _ _ same => by cases same

theorem blunt_internal {message : String} : Blunt request (throw (.internal message) : Server α) :=
  fun _ _ _ same => by cases same

theorem blunt_bind {prog : Server α} {rest : α → Server β} (first : Blunt request prog)
    (second : ∀ value, Blunt request (rest value)) : Blunt request (prog >>= rest) := fun trace =>
  Prog.wp_bind _ (first trace) (fun value after _ => second value after)
    fun error after holds genuine domain same => holds genuine domain (by cases same; rfl)

theorem blunt_act {act : Act} {rest : act.Val → Server β} (calm : act.mutates = false)
    (second : ∀ value, Blunt request (rest value)) : Blunt request (perform act >>= rest) := by
  refine fun trace => ⟨calm_singular calm, fun result => ?_⟩
  cases result with
  | error error =>
      rintro genuine domain ⟨⟩
      exact genuine_last genuine
  | ok value => exact second value _

theorem blunt_call {act : Act} (calm : act.mutates = false) : Blunt request (perform act) := by
  refine fun trace => ⟨calm_singular calm, fun result genuine domain same => ?_⟩
  subst same
  exact genuine_last genuine

theorem blunt_follows {expected : Option Instant} {writes : List Write} {rest : Option Written → Server β}
    (follows : Follows request (.commit id expected writes)) (second : ∀ rows, Blunt request (rest rows)) :
    Blunt request (commit id expected writes >>= rest) := by
  refine fun trace => ⟨fun _ => .inr follows, fun result => ?_⟩
  cases result with
  | error error =>
      rintro genuine domain ⟨⟩
      exact genuine_last genuine
  | ok rows => exact second rows _

theorem blunt_orRollback {body : Server α} (inside : Blunt request body) : Blunt request (orRollback body) := by
  intro trace
  refine Prog.wp_tryCatch _ (inside trace) (fun value after holds => holds) fun error during holds => ?_
  refine ⟨calm_singular rfl, fun result => ?_⟩
  cases result with
  | error other =>
      rintro genuine domain ⟨⟩
      exact genuine_last genuine
  | ok _ =>
      rintro genuine domain ⟨⟩
      exact holds (genuine_earlier (List.prefix_append _ _) genuine) domain rfl

theorem blunt_tryCatch {prog : Server α} {handler : Failure → Server α} (calm : Calm prog)
    (second : ∀ error, Blunt request (handler error)) : Blunt request (tryCatch prog handler) := by
  intro trace
  have first : prog.wp (Singular request) trace fun _ _ => True :=
    Prog.wp_only calm (fun _ _ calm => calm_singular calm) fun _ _ _ => trivial
  refine Prog.wp_tryCatch _ first (fun value after _ _ error same => ?_) fun error after _ => second error after
  cases same

theorem blunt_capture (type : String) : Blunt request (capture type) :=
  blunt_tryCatch (Prog.only_call rfl) fun _ => blunt_pure

theorem blunt_reload (id : LicenseId) (message : String) : Blunt request (LicenseRepository.reload id message) :=
  blunt_act rfl fun found => by
    cases found with
    | none => exact blunt_internal
    | some license => exact blunt_pure

theorem atomic_calm {prog : Server α} (calm : Calm prog) : Atomic request prog := fun _ pristine =>
  Prog.wp_only calm (fun _ _ calm => calm_singular calm) fun _ _ kinds _ _ _ =>
    pristine_spared (pristine_append pristine kinds)

theorem atomic_done {result : Except Failure α} : Atomic request (ofExcept result) := atomic_calm trivial

theorem atomic_before {prog : Server α} {rest : α → Server β} (calm : Calm prog)
    (second : ∀ value, Atomic request (rest value)) : Atomic request (prog >>= rest) := by
  intro trace pristine
  have first : prog.wp (Singular request) trace fun _ after => Pristine after :=
    Prog.wp_only calm (fun _ _ calm => calm_singular calm) fun _ _ kinds => pristine_append pristine kinds
  exact Prog.wp_bind _ first (fun value after => second value after)
    fun _ _ pristine _ _ _ => pristine_spared pristine

theorem atomic_act {act : Act} {rest : act.Val → Server β} (calm : act.mutates = false)
    (second : ∀ value, Atomic request (rest value)) : Atomic request (perform act >>= rest) :=
  atomic_before (Prog.only_call calm) second

theorem atomic_after {prog : Server α} {rest : α → Server β} (first : Atomic request prog)
    (second : ∀ value, Blunt request (rest value)) : Atomic request (prog >>= rest) := fun trace pristine =>
  Prog.wp_bind _ (first trace pristine)
    (fun value after _ => Prog.wp_mono (second value after) fun _ _ blunt genuine error same =>
      absurd same (blunt genuine error))
    fun error after holds genuine domain same => holds genuine domain (by cases same; rfl)

theorem atomic_decides {act : Act} {rest : act.Val → Server β} (second : ∀ value, Blunt request (rest value)) :
    Atomic request (perform act >>= rest) := by
  refine fun trace pristine => ⟨fun _ => .inl pristine, fun result => ?_⟩
  cases result with
  | error error =>
      rintro genuine domain ⟨⟩
      exact (genuine_last genuine).elim
  | ok value =>
      exact Prog.wp_mono (second value _) fun _ _ blunt genuine error same => absurd same (blunt genuine error)

theorem atomic_commit {expected : Option Instant} {writes : List Write} {rest : Option Written → Server β}
    (second : ∀ written, Blunt request (rest (some written))) (missed : Calm (rest none)) :
    Atomic request (commit id expected writes >>= rest) := by
  refine fun trace pristine => ⟨fun _ => .inl pristine, fun result => ?_⟩
  rcases result with error | none | written
  · rintro genuine domain ⟨⟩
    exact (genuine_last genuine).elim
  · refine Prog.wp_only missed (fun _ _ calm => calm_singular calm) fun _ deeds kinds _ _ _ => ?_
    exact spared_append (spared_void pristine (.missed id expected writes)) kinds
  · exact Prog.wp_mono (second written _) fun _ _ blunt genuine error same => absurd same (blunt genuine error)

end Rules

section Meters

variable {region written : MeterRegion}

open LockedTransactions MeterRegion

theorem updateMeters_missed {chosen : LicenseMeter → Bool} {set : LicenseMeter → LicenseMeter}
    {rows : List LicenseMeter} (ran : updateMeters chosen set region = .ok (written, rows))
    (none : rows.head? = none) : written = region := by
  have empty : rows = [] := List.head?_eq_none_iff.mp none
  obtain ⟨rfl, picked⟩ := Prod.mk.inj (Except.ok.inj ran)
  rw [empty, List.map_eq_nil_iff, List.filter_eq_nil_iff] at picked
  have same := updateMeters_none set fun stored member => by simpa using picked stored member
  exact (Prod.mk.inj (Except.ok.inj (ran.symm.trans same))).1

theorem guarded_missed {chosen : LicenseMeter → Bool} {set : LicenseMeter → LicenseMeter}
    {row : LicenseMeter → UsageLedgerEntry} {answer : LicenseMeter → UsageLedgerEntry → α}
    {otherwise : MeterScript α} {result : α}
    (ran : (Script.execute (updateMeters chosen set) >>= fun rows =>
      match rows.head? with
      | none => otherwise
      | some updated => Script.execute (insertLedgerEntry (row updated)) >>= fun entry =>
          (pure (answer updated entry) : MeterScript α)).run region = .ok (written, result)) :
    (∃ meter entry, result = answer (set meter) entry) ∨ otherwise.run region = .ok (written, result) := by
  obtain ⟨middle, rows, updated, rest⟩ := Script.run_bind_ok ran
  rw [Script.run_execute] at updated
  cases head : rows.head? with
  | none =>
      rw [head] at rest
      rw [updateMeters_missed updated head] at rest
      exact .inr rest
  | some meter =>
      rw [head] at rest
      obtain ⟨final, entry, -, ended⟩ := Script.run_bind_ok rest
      cases ended
      obtain ⟨-, rfl⟩ := Prod.mk.inj (Except.ok.inj updated)
      obtain ⟨stored, -, rfl⟩ := List.mem_map.mp (List.mem_of_head? head)
      exact .inl ⟨stored, entry, rfl⟩

theorem adjustMeter_refused {name reason : String} {delta : Int} {kind : MeterLedgerKind} {now : Draw}
    {result : MeterAdjustmentResult}
    (ran : (adjustMeter id name delta reason kind now).run region = .ok (written, result)) :
    (∃ meter entry, result = .adjusted meter entry) ∨ written = region := by
  obtain ⟨middle, found, looked, rest⟩ := Script.run_bind_ok ran
  cases looked
  cases found : meterNamed name region with
  | none =>
      rw [found] at rest
      cases rest
      exact .inr rfl
  | some meter =>
      rw [found] at rest
      dsimp only at rest
      split at rest
      · cases rest
        exact .inr rfl
      · rcases guarded_missed rest with ⟨stored, entry, posted⟩ | rest
        · exact .inl ⟨_, entry, posted⟩
        · cases rest
          exact .inr rfl

theorem archiveMeter_refused {name reason : String} {type : Option LicenseType} {now : Draw}
    {result : Option LicenseMeter}
    (ran : (archiveMeter id name reason type now).run region = .ok (written, result)) :
    (∃ meter, result = some meter ∧ meter.archivedAt.isNone = false) ∨ written = region := by
  cases type with
  | none =>
      cases ran
      exact .inr rfl
  | some type =>
      obtain ⟨middle, active, looked, rest⟩ := Script.run_bind_ok ran
      cases looked
      dsimp only at rest
      split at rest
      · cases rest
        exact .inr rfl
      · rcases guarded_missed rest with ⟨stored, entry, rfl⟩ | rest
        · exact .inl ⟨_, rfl, rfl⟩
        · cases rest
          exact .inr rfl

def Handed (id : LicenseId) (good : α → Prop) (result : Except Failure (α × List Write))
    (trace : ServerTrace) : Prop :=
  ∀ value writes, result = .ok (value, writes) → good value ∨ ∃ region,
    Under trace (.meter id) (.query fun tables => tables.meters id) region ∧
      writes = (region.map Write.meters).toList

theorem handed_error {good : α → Prop} (error : Failure) : Handed id good (.error error) trace :=
  fun _ _ same => by cases same

theorem statements_handed {good : α → Prop} {script : Draw → MeterScript α}
    (held : Holding trace (.meter id))
    (refused : ∀ now region written result, (script now).run region = .ok (written, result) →
      good result ∨ written = region) :
    (MeterRepository.statements id script).wp (Singular request) trace (Handed id good) := by
  refine ⟨calm_singular rfl, fun result => ?_⟩
  cases result with
  | error error => exact handed_error error
  | ok now =>
      refine ⟨calm_singular rfl, fun result => ?_⟩
      cases result with
      | error error => exact handed_error error
      | ok region =>
          have held : Holding (trace ++ [⟨.draw, .ok now⟩]) (.meter id) :=
            holding_append.mpr ⟨rfl, .inl held⟩
          change (ofExcept ((script now).run region) >>= fun written => pure
            (written.2, (written.1.map Write.meters).toList)).wp (Singular request) _ (Handed id good)
          refine Prog.wp_bind (fun result after => result = (script now).run region ∧
              Under after (.meter id) (.query fun tables => tables.meters id) region)
            ⟨rfl, under_append.mpr ⟨rfl, .inr ⟨held, rfl⟩⟩⟩ (fun value after ran => ?_)
            fun error _ _ => handed_error error
          rintro _ _ ⟨⟩
          exact (refused now region _ _ ran.1.symm).imp_right fun same => ⟨region, ran.2, by rw [same]⟩

theorem statements_calm (script : Draw → MeterScript α) : Calm (MeterRepository.statements id script) :=
  calm_act rfl fun _ => calm_act rfl fun _ => Prog.only_bind trivial fun _ => trivial

def Answered (good : α → Prop) : Except Failure α → ServerTrace → Prop
  | .ok value, after => good value ∨ Spared after
  | .error error, after => ∀ domain, error = .domain domain → Spared after

theorem atomic_transaction {good : α → Prop} {body : Server (α × List Write)} {rest : α → Server β}
    (handed : ∀ trace, Holding trace (.meter id) → body.wp (Singular request) trace (Handed id good))
    (calm : Calm body) (answered : ∀ value, good value → Blunt request (rest value))
    (refused : ∀ value, ¬good value → Calm (rest value)) :
    Atomic request (MeterRepository.transaction id body >>= rest) := by
  intro trace pristine
  have inside : (lock (.meter id) >>= fun _ => body).wp (Singular request) trace fun result after =>
      Handed id good result after ∧ Pristine after := by
    have first : (lock (.meter id) >>= fun _ => body).wp (Singular request) trace (Handed id good) := by
      refine ⟨calm_singular rfl, fun result => ?_⟩
      cases result with
      | error error => exact handed_error error
      | ok _ => exact handed _ (holding_append.mpr ⟨rfl, .inr rfl⟩)
    have quiet : Calm (lock (.meter id) >>= fun _ => body) := calm_act rfl fun _ => calm
    refine Prog.wp_mono (Prog.wp_restrict first quiet) ?_
    rintro result _ ⟨handed, deeds, kinds, rfl⟩
    exact ⟨handed, pristine_append pristine kinds⟩
  have rolled : (orRollback (lock (.meter id) >>= fun _ => body)).wp (Singular request) trace
      fun result after => Handed id good result after ∧ Pristine after := by
    refine Prog.wp_tryCatch _ inside (fun value after holds => holds) fun error during holds => ?_
    refine ⟨calm_singular rfl, fun result => ?_⟩
    have ended : Pristine (during ++ [⟨.rollback, result⟩]) :=
      pristine_append holds.2 fun deed member => by cases List.mem_singleton.mp member; rfl
    cases result <;> exact ⟨handed_error _, ended⟩
  refine Prog.wp_bind (fun result after => Genuine after → Answered good result after) ?_ ?_ ?_
  · refine Prog.wp_bind _ rolled ?_ fun error after holds _ _ _ => pristine_spared holds.2
    rintro ⟨value, writes⟩ after ⟨handed, pristine⟩
    refine ⟨fun _ => .inl pristine, fun result => ?_⟩
    rcases result with error | rows
    · rintro genuine domain rfl
      exact (genuine_last genuine).elim
    · intro genuine
      refine (handed value writes rfl).imp_right ?_
      rintro ⟨region, read, rfl⟩
      exact spared_void pristine (.rewrote id region rows read)
  · intro value after holds
    by_cases answer : good value
    · exact Prog.wp_mono (answered value answer after) fun _ _ blunt genuine error same =>
        absurd same (blunt genuine error)
    · refine Prog.wp_only (refused value answer) (fun _ _ calm => calm_singular calm)
        fun _ deeds kinds genuine _ _ => ?_
      exact spared_append ((holds (genuine_earlier (List.prefix_append _ _) genuine)).resolve_left answer) kinds
  · rintro error after holds genuine domain ⟨⟩
    exact holds genuine domain rfl

end Meters

end Keyzori
