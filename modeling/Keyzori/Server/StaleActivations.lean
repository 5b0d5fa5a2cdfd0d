import Keyzori.Server.Fencing

namespace Keyzori

open ExpiringStore Interleaving

variable {host : Host} {request : Request} {view : ServerView} {call : Nat} {id : LicenseId}
  {now : Instant} {state : ServerState} {data old : LicenseData} {writes : List Write}
  {early late : List ServerEvent} {fence event : ServerEvent} {token : String} {session : Session}

variable {binding : SessionBinding} {license : License} {row : StoredLicense}

theorem filter_head {α : Type 1} {chosen : α → Bool} {items others rest : List α} {first item : α}
    (shape : (items ++ others).filter chosen = first :: rest) (member : item ∈ items)
    (holds : chosen item = true) : first ∈ items := by
  rw [List.filter_append] at shape
  cases listed : items.filter chosen with
  | nil =>
      rw [List.filter_eq_nil_iff] at listed
      exact absurd holds (listed item member)
  | cons head tail =>
      rw [listed] at shape
      obtain ⟨rfl, -⟩ := List.cons.inj shape
      exact List.mem_of_mem_filter (listed ▸ List.mem_cons_self)

theorem first_lookup (sound : Sound view) (lookup : LookedUp host request (view.trace call) binding license) :
    ∃ look rest data, view.events call = look :: rest ∧
      (∃ keyHash, look.deed = ⟨.findByKeyHash keyHash, .ok (some license)⟩) ∧
      look.before.tables.licenses license.id = some data ∧
        data.row.sessionRevision = license.sessionRevision := by
  obtain ⟨keyHash, rest, shape⟩ := lookup.first
  obtain ⟨look, later, events, deed, -⟩ := List.map_eq_cons_iff.mp shape
  have seen := recall_event sound (events ▸ List.mem_cons_self) deed
  obtain ⟨input, ran⟩ := seen.ran
  obtain ⟨same, found⟩ := exec_findByKeyHash ran
  obtain ⟨owner, data, present, -, rfl⟩ := findByKeyHash_some found.symm
  have own := seen.consistent.tables.rowId owner data present
  exact ⟨look, later, data, events, ⟨keyHash, deed⟩, own ▸ present, rfl⟩

/-- An activation that passes its check after a fence has begun after it. -/
theorem admitting_begins (sound : Sound view) (kept : RowsKept view)
    (history : view.history = early ++ fence :: late) (fences : Fences fence id)
    (admitting : Admitting host request (view.trace call) binding license row) (own : license.id = id) :
    ∀ event ∈ early, event.call ≠ call := by
  intro event member mine
  obtain ⟨look, rest, first, events, -, there, revision⟩ := first_lookup sound admitting.lookup
  rw [View.events, history] at events
  have begun := filter_head events member (by simpa using mine)
  have locked := admitting_row sound admitting
  obtain ⟨data, present⟩ := Option.isSome_iff_exists.mp (kept _ _
    (within_holding (locked.1.symm ▸ under_within admitting.policy)))
  have current := locked.2 data present
  rw [locked.1, own] at present
  rw [own] at there
  obtain ⟨old, before, moved⟩ := fences
  have recorded := sound.recorded fence (by simp [history])
  have newer := fenced_revision sound history before ⟨old, before, moved⟩ recorded.progress present
  have older := unfenced_revision sound history before begun there
  rw [revision, ← admitting.revision, ← current] at older
  omega

/-- The call's first act, before the fence, found the license by its key. -/
def LookedUpBefore (early : List ServerEvent) (call : Nat) (id : LicenseId) : Prop :=
  ∃ before lookup after keyHash license, early = before ++ lookup :: after ∧
    (∀ other ∈ before, other.call ≠ call) ∧ lookup.call = call ∧
    lookup.deed = ⟨.findByKeyHash keyHash, .ok (some license)⟩ ∧ license.id = id

theorem lookedUpBefore_license (sound : Sound view) {others : List ServerEvent}
    (history : view.history ++ others = early ++ late) (before : LookedUpBefore early call id)
    (lookup : LookedUp host request (view.trace call) binding license) : license.id = id := by
  obtain ⟨silent, first, after, keyHash, found, rfl, foreign, mine, deed, own⟩ := before
  obtain ⟨look, rest, data, events, ⟨otherHash, same⟩, -⟩ := first_lookup sound lookup
  have none : silent.filter (fun event => event.call = call) = [] :=
    List.filter_eq_nil_iff.mpr fun other member => by simpa using foreign other member
  have calls := congrArg (List.filter fun event => decide (event.call = call)) history
  rw [List.filter_append, ← View.events, events, List.append_assoc, List.filter_append, none, List.nil_append,
    List.cons_append, List.cons_append, List.filter_cons_of_pos (by simpa using mine)] at calls
  obtain ⟨rfl, -⟩ := List.cons.inj calls
  cases deed.symm.trans same
  exact own

theorem takes_registration {deed : ServerDeed} (taken : takes deed = some (.registration id)) :
    deed.act = .lock (.registration id) := by
  obtain ⟨act, result⟩ := deed
  cases act with
  | lock lock =>
      cases result with
      | error error => cases taken
      | ok value =>
          simp only [takes] at taken
          split at taken
          · cases taken
            rfl
          · cases taken
  | lockRow other =>
      cases result with
      | error error => cases taken
      | ok found => cases found <;> cases taken
  | lockLink other subscriptionId =>
      cases result with
      | error error => cases taken
      | ok found => cases found <;> cases taken
  | _ => cases taken

/-- An activation that looked its key up before a fence and has not locked the
registrations by then never passes its check. -/
theorem stale_admitting (sound : Sound view) (kept : RowsKept view) {others : List ServerEvent}
    (history : view.history ++ others = early ++ fence :: late) (fences : Fences fence id)
    (before : LookedUpBefore early call id)
    (unlocked : ∀ event ∈ early, event.call = call → event.act ≠ .lock (.registration id)) :
    ¬Admitting host request (view.trace call) binding license row := by
  intro admitting
  have own := lookedUpBefore_license sound history before admitting.lookup
  have inside : ¬view.history ⊆ early := by
    intro subset
    obtain ⟨deed, member, taken⟩ := under_holding admitting.policy
    obtain ⟨event, listed, mine, same⟩ := trace_event (current_subset _ member)
    refine unlocked event (subset listed) mine ?_
    rw [← own]
    exact (congrArg Deed.act same).trans (takes_registration taken)
  rcases List.append_eq_append_iff.mp history with ⟨between, rfl, -⟩ | ⟨between, shape, rest⟩
  · exact inside (List.subset_append_left _ _)
  · cases between with
    | nil => exact inside (by simp [shape])
    | cons head tail =>
        obtain ⟨rfl, -⟩ := List.cons.inj rest
        obtain ⟨silent, lookup, after, -, -, rfl, -, mine, -⟩ := before
        exact admitting_begins sound kept shape fences admitting own lookup (by simp) mine

theorem happened_history {last earlier : ServerView} {before after : List ServerEvent}
    (history : last.history = before ++ event :: after)
    (happened : Happened host now last before event earlier request) :
    earlier.history ++ event :: after = last.history := by rw [happened.history, history]

theorem stale_refused (run : ServerRun host now state)
    (history : state.view.history = early ++ fence :: late) (fences : Fences fence id)
    {licenseKey deviceId ip : String}
    (asked : state.view.requests call = some (.activate licenseKey deviceId ip))
    (before : LookedUpBefore early call id)
    (unlocked : ∀ event ∈ early, event.call = call → event.act ≠ .lock (.registration id)) :
    (∀ event ∈ state.view.history, event.call = call → ∀ token, ¬Reserves event token) ∧
      ∀ result, state.pool call = some (.done result) → (∃ error, result = .error error) ∧
        ∀ event ∈ state.view.history, event.call = call →
          event.after.tables.licenses = event.before.tables.licenses := by
  have never : ∀ {early event late} {earlier : ServerView} {request binding license row},
      state.view.history = early ++ event :: late →
      Happened host now state.view early event earlier request →
      ¬Admitting host request (earlier.trace call) binding license row := fun shape happened =>
    stale_admitting happened.sound (allowedRun_rowsKept happened.start)
      ((happened_history shape happened).trans history) fences before unlocked
  constructor
  · rintro event member rfl token ⟨owner, sessionRevision, bindingHash, maxSessions, deed⟩
    obtain ⟨first, rest, shape⟩ := List.append_of_mem member
    obtain ⟨earlier, request, happened⟩ := server_run_event run shape
    have held := happened.held
    rw [deed_act deed] at held
    obtain ⟨binding, license, row, admitting, -⟩ := held
    exact never shape happened admitting
  · intro result ended
    obtain ⟨other, same, reached⟩ := server_run_outcome run ended
    cases asked.symm.trans same
    cases result with
    | error error =>
        refine ⟨⟨error, rfl⟩, fun event member own => ?_⟩
        refine (failed_activation run asked ended member own).resolve_right ?_
        rintro ⟨⟨owner, expected, writes, written, landed⟩, -⟩
        obtain ⟨first, rest, shape⟩ := List.append_of_mem member
        obtain ⟨earlier, request, happened⟩ := server_run_event run shape
        cases asked.symm.trans (own ▸ happened.still)
        have held := happened.held
        rw [landed.act] at held
        rcases commits_activation held with ⟨-, admitted⟩ | ⟨binding, license, row, -, -, -, -, admitting, -⟩
        · refine admitted fun id expected writes rows took => ?_
          exact reached.1 id expected writes rows (own ▸ happened_took happened shape took)
        · exact never shape happened (own ▸ admitting)
    | ok response =>
        obtain ⟨session, rfl, deeds, after, binding, license, row, started, registered, rows, shape,
          admitting, -⟩ := reached
        obtain ⟨first, event, rest, earlier, request, split, own, deed, happened, sofar⟩ :=
          deed_happened (server_run_allowed run) shape
        have request : request = .activate licenseKey deviceId ip := by
          have still := happened.still
          rw [own] at still
          exact Option.some.inj (still.symm.trans asked)
        subst request
        exact absurd (sofar ▸ admitting) (never split happened)

theorem reservation_begins (run : ServerRun host now state)
    (history : state.view.history = early ++ fence :: late) (fences : Fences fence id)
    (member : event ∈ late) (admits : Admits event id token) : ∀ other ∈ early, other.call ≠ event.call := by
  obtain ⟨sessionRevision, bindingHash, maxSessions, deed⟩ := admits
  obtain ⟨between, rest, rfl⟩ := List.append_of_mem member
  have shape : state.view.history = (early ++ fence :: between) ++ event :: rest := by simp [history]
  obtain ⟨earlier, request, happened⟩ := server_run_event run shape
  have held := happened.held
  rw [deed_act deed] at held
  obtain ⟨binding, license, row, admitting, rfl, -⟩ := held
  exact admitting_begins happened.sound (allowedRun_rowsKept happened.start) happened.history fences
    admitting (admitting_row happened.sound admitting).1.symm

theorem rotated_owner {first second : World} (consistent : Consistent first) (progress : Progress first second)
    {owner : LicenseId} (before : first.tables.licenses owner = some old)
    (after : second.tables.licenses id = some data) (same : data.row.keyHash = old.row.keyHash) :
    owner = id := by
  have stored := consistent.tables.keyStored owner old before
  obtain ⟨kept, there, equal⟩ := progress.keys id data after (same ▸ stored)
  exact consistent.tables.keyUnique owner id old kept before there (by rw [equal, same])

theorem rotation_key {expected : Option Instant} {written : Written} {keyHash keyPrefix : String}
    (ran : ∃ input, exec event.call event.act input event.before = some (event.after, event.result))
    (consistent : Consistent event.before)
    (landed : Landed event id expected [.rotateKey keyHash keyPrefix] written) :
    (∀ data, event.after.tables.licenses id = some data →
        data.row.keyHash ≠ written.before.row.keyHash) ∧
      ∀ other, other ≠ id → event.after.tables.licenses other = event.before.tables.licenses other := by
  obtain ⟨stamp, made, after⟩ := landed.made
  obtain ⟨input, ran⟩ := ran
  have changed : event.after.tables.licenses id ≠ event.before.tables.licenses id := by
    rw [landed_later landed, landed.present, made]
    intro same
    have moved := @applyWrites_expels stamp written.before [.rotateKey keyHash keyPrefix] ⟨_, .head _, rfl⟩
    rw [Option.some.inj same] at moved
    exact lt_irrefl _ moved
  have unused : keyHash ∉ event.before.keyHashes := by
    have effect := exec_effect ran
    rw [landed.act] at effect
    clear after
    generalize event.after = next at effect changed
    cases effect with
    | committed _ _ _ data now present admitted =>
        exact admits_fresh admitted (List.mem_singleton_self keyHash)
    | _ => exact absurd rfl changed
  refine ⟨fun new later same => ?_, fun other distinct => ?_⟩
  · cases later.symm.trans (landed_later landed)
    rw [made] at same
    change keyHash = written.before.row.keyHash at same
    exact unused (same ▸ consistent.tables.keyStored id written.before landed.present)
  · rw [after]
    simp [World.release, World.write, World.setLicense, distinct]

/-- The license whose sessions an activation reserves had the key that it presented. -/
theorem reservation_lookup (run : ServerRun host now state)
    (history : state.view.history = early ++ event :: late) {licenseKey deviceId ip : String}
    (asked : state.view.requests event.call = some (.activate licenseKey deviceId ip))
    {sessionRevision : Nat} {bindingHash : String} {maxSessions : Int}
    (deed : event.deed =
      ⟨.registerSession id sessionRevision bindingHash maxSessions, .ok (.registered token)⟩) :
    ∃ look ∈ early, look.call = event.call ∧ look.act = .findByKeyHash (host.hashLicenseKey licenseKey) ∧
      ∃ data, look.before.tables.licenses id = some data ∧
        data.row.keyHash = host.hashLicenseKey licenseKey := by
  obtain ⟨earlier, request, happened⟩ := server_run_event run history
  cases asked.symm.trans happened.still
  have held := happened.held
  rw [deed_act deed] at held
  obtain ⟨binding, license, row, admitting, rfl, -⟩ := held
  obtain ⟨key, device, address, same, -, took⟩ := admitting.lookup.asked
  cases same
  obtain ⟨look, listed, mine, looked⟩ := trace_event took
  obtain ⟨ran, consistent, -, -⟩ := happened.sound.recorded look listed
  rw [happened.history] at listed
  obtain ⟨input, found⟩ := deed_ran looked ran
  obtain ⟨owner, data, present, hash, rfl⟩ := findByKeyHash_some (exec_findByKeyHash found).2.symm
  have home : row.id = owner :=
    (admitting_row happened.sound admitting).1.trans (consistent.tables.rowId owner data present)
  exact ⟨look, listed, mine, deed_act looked, data, home ▸ present, hash⟩

section Rotations

variable {expected : Option Instant} {written : Written} {keyHash keyPrefix : String}
  {sessionRevision : Nat} {bindingHash : String} {maxSessions : Int} {licenseKey deviceId ip : String}

theorem rotated_lookup (sound : Sound view) (history : view.history = early ++ fence :: late)
    (before : fence.before.tables.licenses id = some old) {look : ServerEvent} (member : look ∈ early)
    {owner : LicenseId} (present : look.before.tables.licenses owner = some data)
    (same : data.row.keyHash = old.row.keyHash) : owner = id := by
  obtain ⟨first, middle, rfl⟩ := List.append_of_mem member
  have progress : Progress look.after fence.before :=
    ordered_progress sound (by rw [history, List.append_assoc, List.cons_append]) (by simp)
  obtain ⟨⟨input, ran⟩, consistent, -, -⟩ := sound.recorded look (by simp [history])
  exact rotated_owner consistent ((effect_progress (exec_effect ran)).trans progress) present before same.symm

theorem rotated_refused (run : ServerRun host now state)
    (history : state.view.history = early ++ fence :: late)
    (landed : Landed fence id expected [.rotateKey keyHash keyPrefix] written)
    (member : event ∈ late) (reserves : Reserves event token)
    (asked : state.view.requests event.call = some (.activate licenseKey deviceId ip)) :
    host.hashLicenseKey licenseKey ≠ written.before.row.keyHash := by
  intro presented
  have sound := server_run_sound run
  obtain ⟨⟨input, ran⟩, consistent, -, -⟩ := sound.recorded fence (by simp [history])
  obtain ⟨renewed, others⟩ := rotation_key ⟨input, ran⟩ consistent landed
  have rotated := landed.present
  have fences : Fences fence id := commit_fences landed ⟨_, .head _, rfl⟩
  obtain ⟨owner, sessionRevision, bindingHash, maxSessions, reserved⟩ := reserves
  obtain ⟨between, rest, shape⟩ := List.append_of_mem member
  obtain ⟨look, listed, mine, act, data, present, hash⟩ :=
    reservation_lookup run (by rw [history, shape, ← List.cons_append, ← List.append_assoc]) asked reserved
  rw [presented] at hash
  rcases List.mem_append.mp listed with before | after
  · obtain rfl := rotated_lookup sound history rotated before present hash
    exact reservation_begins run history fences member ⟨_, _, _, reserved⟩ look before mine
  · rcases List.mem_cons.mp after with rfl | after
    · cases landed.act.symm.trans act
    · have progress := ordered_progress sound history (shape ▸ List.mem_append_left _ after)
      have stored := consistent.tables.keyStored id written.before rotated
      have effect := effect_progress (exec_effect ran)
      obtain ⟨kept, there, equal⟩ := progress.keys owner data present (hash ▸ effect.keyHashes _ stored)
      by_cases own : owner = id
      · subst own
        exact renewed kept there (equal.trans hash)
      · rw [others owner own] at there
        exact own (consistent.tables.keyUnique owner id kept written.before there rotated (equal.trans hash))

theorem rotated_fenced (run : ServerRun host now state)
    (history : state.view.history = early ++ fence :: late)
    (landed : Landed fence id expected [.rotateKey keyHash keyPrefix] written)
    (member : event ∈ state.view.history) (reserves : Reserves event token)
    (asked : state.view.requests event.call = some (.activate licenseKey deviceId ip))
    (presented : host.hashLicenseKey licenseKey = written.before.row.keyHash)
    (requested : state.view.requests call = some request) (presents : request.presented = some token)
    {response : Response} (ended : state.pool call = some (.done (.ok response))) {read : ServerEvent}
    (listed : read ∈ late) (mine : read.call = call) (other : LicenseId) : read.act ≠ .findLicense other := by
  have sound := server_run_sound run
  rw [history] at member
  rcases List.mem_append.mp member with before | after
  · obtain ⟨owner, sessionRevision, bindingHash, maxSessions, reserved⟩ := reserves
    obtain ⟨first, middle, rfl⟩ := List.append_of_mem before
    obtain ⟨look, there, -, -, data, present, hash⟩ := reservation_lookup run
      (by rw [history, List.append_assoc, List.cons_append]) asked reserved
    obtain rfl := rotated_lookup sound history landed.present (List.mem_append_left _ there) present
      (hash.trans presented)
    exact fenced_refused run history (commit_fences landed ⟨_, .head _, rfl⟩) before
      ⟨_, _, _, reserved⟩ requested presents ended listed mine other
  · rcases List.mem_cons.mp after with rfl | after
    · obtain ⟨owner, sessionRevision, bindingHash, maxSessions, reserved⟩ := reserves
      cases landed.act.symm.trans (deed_act reserved)
    · exact absurd presented (rotated_refused run history landed after reserves asked)

end Rotations

/-- An activation that looked its license up before a fence and locks the registrations
after it is refused and registers nothing, and a key that was rotated out obtains no
session that is accepted after the rotation. -/
theorem activations_fenced (run : ServerRun host now state) (history : state.view.history = early ++ fence :: late)
    (fences : Fences fence id) :
    (∀ call licenseKey deviceId ip, state.view.requests call = some (.activate licenseKey deviceId ip) →
      LookedUpBefore early call id →
      (∀ event ∈ early, event.call = call → event.act ≠ .lock (.registration id)) →
      (∀ event ∈ state.view.history, event.call = call → ∀ token, ¬Reserves event token) ∧
        ∀ result, state.pool call = some (.done result) → (∃ error, result = .error error) ∧
          ∀ event ∈ state.view.history, event.call = call →
            event.after.tables.licenses = event.before.tables.licenses) ∧
    ∀ expected keyHash keyPrefix written,
      Landed fence id expected [.rotateKey keyHash keyPrefix] written →
      ∀ event ∈ state.view.history, ∀ token, Reserves event token → ∀ licenseKey deviceId ip,
        state.view.requests event.call = some (.activate licenseKey deviceId ip) →
        host.hashLicenseKey licenseKey = written.before.row.keyHash →
        event ∉ late ∧ ∀ call request, state.view.requests call = some request →
          request.presented = some token → ∀ response, state.pool call = some (.done (.ok response)) →
            ∀ read ∈ late, read.call = call → ∀ other, read.act ≠ .findLicense other := by
  refine ⟨fun call licenseKey deviceId ip asked before unlocked =>
    stale_refused run history fences asked before unlocked, ?_⟩
  intro expected keyHash keyPrefix written landed event member token reserves licenseKey deviceId ip asked presented
  exact ⟨fun after => rotated_refused run history landed after reserves asked presented,
    fun call request requested presents response ended read listed mine other =>
      rotated_fenced run history landed member reserves asked presented requested presents ended listed mine other⟩

def reservedOld (state : ServerState) (event : ServerEvent) : Bool :=
  match state.view.requests 2, event with
  | some (.activate licenseKey _ _), ⟨2, .registerSession _ _ _ _, .ok (.registered _), _, _⟩ =>
      licenseKey = "key 102"
  | _, _ => false

theorem reservedOld_reserves {state : ServerState} {event : ServerEvent}
    (holds : reservedOld state event = true) : ∃ token, Reserves event token ∧ ∃ deviceId ip,
      state.view.requests event.call = some (.activate "key 102" deviceId ip) := by
  unfold reservedOld at holds
  split at holds
  · next licenseKey deviceId ip id sessionRevision bindingHash maxSessions token before after asked =>
    obtain rfl := of_decide_eq_true holds
    exact ⟨token, ⟨id, sessionRevision, bindingHash, maxSessions, rfl⟩, deviceId, ip, asked⟩
  · cases holds

/-- An activation that has looked its license up before a rotation, and is refused after it;
another one has reserved a session with the old key. -/
def overtakenActivation : List (Choice Input Move Request) :=
  subscriptionSample ++ sampleCall 2 (.activate "key 102" "laptop" "10.0.0.1") 2 22 ++
    sampleCall 4 (.activate "key 102" "phone" "10.0.0.1") 3 3 ++
      sampleCall 3 (.rotateLicenseKey sampleId) 4 5 ++ sampleActs 4 5 3 8

def activated (state : ServerState) : Bool :=
  match state.view.requests 4, state.pool 4 with
  | some (.activate _ _ _), some (.done _) => true
  | _, _ => false

theorem activated_ended {state : ServerState} (holds : activated state = true) :
    ∃ licenseKey deviceId ip result, state.view.requests 4 = some (.activate licenseKey deviceId ip) ∧
      state.pool 4 = some (.done result) := by
  unfold activated at holds
  split at holds
  · next licenseKey deviceId ip result asked ended => exact ⟨licenseKey, deviceId, ip, result, asked, ended⟩
  · cases holds

def lookedUp (event : ServerEvent) : Bool :=
  match event.deed with
  | ⟨.findByKeyHash _, .ok (some license)⟩ => license.id = sampleId
  | _ => false

theorem lookedUp_before {early : List ServerEvent}
    (holds : (early.find? fun event => event.call = 4).any lookedUp = true) :
    LookedUpBefore early 4 sampleId := by
  obtain ⟨lookup, first, found⟩ := (Option.any_eq_true _ _).mp holds
  obtain ⟨own, before, after, shape, others⟩ := List.find?_eq_some_iff_append.mp first
  unfold lookedUp at found
  split at found
  · next keyHash license deed =>
    exact ⟨before, lookup, after, keyHash, license, shape, fun other member => by simpa using others other member,
      of_decide_eq_true own, deed, of_decide_eq_true found⟩
  · cases found

def locks (event : ServerEvent) : Bool :=
  match event.act with
  | .lock (.registration id) => id = sampleId
  | _ => false

theorem overtaken_activation : ∃ state early fence late keyHash keyPrefix written licenseKey deviceId ip result,
    ServerRun sampleHost 0 state ∧ state.view.history = early ++ fence :: late ∧
      state.view.requests fence.call = some (.rotateLicenseKey sampleId) ∧
      Landed fence sampleId none [.rotateKey keyHash keyPrefix] written ∧
      state.view.requests 4 = some (.activate licenseKey deviceId ip) ∧ LookedUpBefore early 4 sampleId ∧
      (∀ event ∈ early, event.call = 4 → event.act ≠ .lock (.registration sampleId)) ∧
      state.pool 4 = some (.done result) ∧
      ∃ event ∈ state.view.history, ∃ token, Reserves event token ∧ ∃ licenseKey deviceId ip,
        state.view.requests event.call = some (.activate licenseKey deviceId ip) ∧
        sampleHost.hashLicenseKey licenseKey = written.before.row.keyHash := by
  obtain ⟨state, run, holds⟩ := @sampled_run overtakenActivation
    (fun state => state.view.history.any (rotated state) && state.view.history.any (reservedOld state) &&
      activated state &&
      ((eventsBefore (rotated state) state.view.history).find? fun event => event.call = 4).any lookedUp &&
      (eventsBefore (rotated state) state.view.history).all fun event => event.call = 4 → !locks event)
    (by decide +kernel)
  simp only [Bool.and_eq_true] at holds
  obtain ⟨⟨⟨⟨renewed, kept⟩, active⟩, looked⟩, unlocked⟩ := holds
  obtain ⟨fence, history, holds⟩ := first_event renewed
  obtain ⟨operator, keyHash, keyPrefix, written, key, deed⟩ := rotated_asked holds
  obtain ⟨event, listed, holds⟩ := List.any_eq_true.mp kept
  obtain ⟨token, reserves, deviceId, ip, presented⟩ := reservedOld_reserves holds
  obtain ⟨staleKey, staleDevice, staleIp, result, stale, ended⟩ := activated_ended active
  have landed := deed_landed deed ((server_run_sound run).recorded fence (by rw [history]; simp)).ran
  refine ⟨state, _, fence, _, keyHash, keyPrefix, written, staleKey, staleDevice, staleIp, result, run, history,
    operator, landed, stale, lookedUp_before looked, fun event member own act => ?_, ended, event, listed, token,
    reserves, "key 102", deviceId, ip, presented, key.symm⟩
  simpa [locks, act, own] using List.all_eq_true.mp unlocked event member

theorem activations_fenced_sample : ∃ state early fence late, ServerRun sampleHost 0 state ∧
    state.view.history = early ++ fence :: late ∧ Fences fence sampleId ∧ LookedUpBefore early 4 sampleId ∧
      (∃ error, state.pool 4 = some (.done (.error error))) ∧
      (∀ event ∈ state.view.history, event.call = 4 → ∀ token, ¬Reserves event token) ∧
      ∃ event ∈ state.view.history, (∃ token, Reserves event token) ∧ event ∉ late := by
  obtain ⟨state, early, fence, late, keyHash, keyPrefix, written, licenseKey, deviceId, ip, result, run, history,
    -, landed, stale, looked, unlocked, ended, event, listed, token, reserves, oldKey, oldDevice, oldIp, presented,
    key⟩ := overtaken_activation
  have fences : Fences fence sampleId := commit_fences landed ⟨_, .head _, rfl⟩
  obtain ⟨refused, outdated⟩ := activations_fenced run history fences
  obtain ⟨unreserved, failed⟩ := refused 4 licenseKey deviceId ip stale looked unlocked
  obtain ⟨⟨error, rfl⟩, -⟩ := failed result ended
  exact ⟨state, early, fence, late, run, history, fences, looked, ⟨error, ended⟩, unreserved, event, listed,
    ⟨token, reserves⟩, (outdated none keyHash keyPrefix written landed event listed token reserves
      oldKey oldDevice oldIp presented key).1⟩

end Keyzori
