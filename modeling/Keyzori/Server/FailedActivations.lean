import Keyzori.Server.TrialClock
import Keyzori.Sessions.Termination

/-! How an activation ends. The session is reserved inside the transaction that may
still fail, so a failure has to end it again; after the commit nothing can fail the
call any more. An answer that is lost leaves behind what the call has not heard of. -/

namespace Keyzori

open ExpiringStore Interleaving

variable {host : Host} {request : Request} {view : ServerView} {call : Nat} {id : LicenseId}
  {now : Instant} {state : ServerState} {licenseKey deviceId ip token : String} {session : Session}

section Sessions

def Reserves (event : ServerEvent) (token : String) : Prop :=
  ∃ id sessionRevision bindingHash maxSessions, event.deed =
    ⟨.registerSession id sessionRevision bindingHash maxSessions, .ok (.registered token)⟩

/-- An act that took a token into use, whatever its call has heard of it. -/
def Issues (event : ServerEvent) (token : String) : Prop :=
  token ∈ event.after.tokens.map Prod.fst ∧ token ∉ event.before.tokens.map Prod.fst

def Failed (event : ServerEvent) : Prop := ∃ error, event.result = .error error

theorem exec_registerSession {sessionRevision : Nat} {bindingHash : String} {maxSessions : Int}
    {input : Input} {before after : World}
    (ran : exec call (.registerSession id sessionRevision bindingHash maxSessions) input before =
      some (after, .ok (.registered token))) :
    after.tokens = (token, ⟨id, sessionRevision, bindingHash⟩) :: before.tokens := by
  rcases await_some ran with ⟨-, error, same⟩ | ⟨-, rfl, returned⟩
  · cases same
  · have drawn : input.draw.uuid 0 = token := by
      have result := Except.ok.inj returned
      simp only [registerSession] at result
      split at result <;> cases result
      rfl
    rw [drawn]

theorem exec_limitReached {sessionRevision : Nat} {bindingHash : String} {maxSessions : Int}
    {input : Input} {before after : World} (sound : SessionsSound before)
    (ran : exec call (.registerSession id sessionRevision bindingHash maxSessions) input before =
      some (after, .ok .limitReached)) (fresh : token ∉ before.tokens.map Prod.fst) :
    ¬Carries after.sessions token session := by
  rcases await_some ran with ⟨-, error, same⟩ | ⟨-, rfl, returned⟩
  · cases same
  · intro carried
    have result := Except.ok.inj returned
    rw [registerSession_carries, ← result, if_neg (by simp)] at carried
    exact fresh (List.mem_map_of_mem (sound.carried token session carried.1))

theorem issues_registers {event : ServerEvent} (issues : Issues event token)
    (ran : ∃ input, exec event.call event.act input event.before = some (event.after, event.result)) :
    ∃ id sessionRevision bindingHash maxSessions,
      event.act = .registerSession id sessionRevision bindingHash maxSessions := by
  obtain ⟨input, ran⟩ := ran
  obtain ⟨taken, fresh⟩ := issues
  have effect := exec_effect ran
  generalize event.after = next at effect taken
  generalize event.act = act at effect
  cases effect with
  | registered id sessionRevision bindingHash maxSessions => exact ⟨_, _, _, _, rfl⟩
  | _ => exact absurd taken fresh

theorem exec_removeSession {bindingHash : String} {resolved : Option ResolvedSession} {input : Input}
    {before after : World}
    (ran : exec call (.removeSession token bindingHash) input before = some (after, .ok resolved)) :
    after.sessions = (removeSession before.sessions token bindingHash).1 := by
  simp only [exec] at ran
  split at ran
  · cases ran
  · obtain ⟨rfl, -⟩ := Prod.mk.inj (Option.some.inj ran)
    rfl

theorem token_session {world : World} (sound : SessionsSound world) {drawn : Session}
    (issued : (token, drawn) ∈ world.tokens) (carried : Carries world.sessions token session) :
    session = drawn :=
  congrArg Prod.snd (List.inj_on_of_nodup_map sound.distinct (sound.carried token session carried) issued rfl)

/-- A session that was reserved and then removed is gone for good. -/
theorem removed_gone (sound : Sound view) {early between late : List ServerEvent}
    {reservation cleanup : ServerEvent} {sessionRevision : Nat} {bindingHash : String} {maxSessions : Int}
    {resolved : Option ResolvedSession}
    (history : view.history = early ++ reservation :: (between ++ cleanup :: late))
    (reserved : reservation.deed =
      ⟨.registerSession id sessionRevision bindingHash maxSessions, .ok (.registered token)⟩)
    (removed : cleanup.deed = ⟨.removeSession token bindingHash, .ok resolved⟩) :
    ¬Carries view.world.sessions token session := by
  intro carried
  obtain ⟨ran, -, -, -⟩ := sound.recorded reservation (by simp [history])
  obtain ⟨cleaned, before, -, rest⟩ := sound.recorded cleanup (by simp [history])
  obtain ⟨input, ran⟩ := deed_ran reserved ran
  obtain ⟨other, cleaned⟩ := deed_ran removed cleaned
  have progress : Progress reservation.after cleanup.before := by
    have sublist : [reservation, cleanup].Sublist view.history := by
      rw [history]
      exact ((List.singleton_sublist.mpr (by simp)).cons_cons _).trans (List.sublist_append_right _ _)
    simpa using sound.ordered.sublist sublist
  have issued := progress.tokens (token, ⟨id, sessionRevision, bindingHash⟩)
    (exec_registerSession ran ▸ List.mem_cons_self)
  have known : token ∈ cleanup.after.tokens.map Prod.fst :=
    List.mem_map.mpr ⟨_, effect_tokens (exec_effect cleaned) issued, rfl⟩
  have there := rest.sessions token known session carried
  rw [exec_removeSession cleaned, removeSession_carries] at there
  exact there.2 ⟨rfl, congrArg Session.binding (token_session before.sessions issued there.1)⟩

theorem registerSession_spares {world : World} (sound : SessionsSound world) {sessionRevision : Nat}
    {bindingHash : String} {maxSessions : Int} {drawn : String} (fresh : drawn ∉ world.tokens.map Prod.fst)
    (carried : Carries world.sessions token session)
    (current : session.licenseId = id → session.revision = sessionRevision) :
    Carries (registerSession world.sessions id sessionRevision bindingHash sessionTtlSeconds maxSessions
      drawn).1 token session := by
  rw [registerSession_carries]
  have other : token ≠ drawn := by
    rintro rfl
    exact fresh (List.mem_map.mpr ⟨_, sound.carried token session carried, rfl⟩)
  rw [if_neg fun same => other same.1]
  refine ⟨carried, ?_⟩
  rintro ⟨member, stale⟩
  exact stale (current (listed_home sound.kept carried member))

theorem activation_spares {last earlier : ServerView} {before after : List ServerEvent} {event : ServerEvent}
    (shape : last.history = before ++ event :: after)
    (happened : Happened host now last before event earlier (.activate licenseKey deviceId ip))
    (carried : Carries event.before.sessions token session)
    (foreign : ∀ other ∈ last.history, other.call = event.call → ¬Reserves other token)
    (current : ∀ data, event.before.tables.licenses session.licenseId = some data →
      session.revision = data.row.sessionRevision) : Carries event.after.sessions token session := by
  have held := happened.held
  have sound := happened.sound
  have world := happened.world
  have history := happened.history
  obtain ⟨input, ran⟩ := happened.ran
  obtain ⟨call, act, result, old, next⟩ := event
  obtain rfl : earlier.world = old := world
  have effect : Effect call earlier.world act next := exec_effect ran
  change Carries earlier.world.sessions token session at carried
  cases effect with
  | registered id sessionRevision bindingHash maxSessions drawn fresh =>
      obtain ⟨binding, license, row, admitting, rfl, rfl, -, -⟩ := held
      refine registerSession_spares sound.consistent.sessions fresh carried fun same => ?_
      have locked := admitting_row sound admitting
      obtain ⟨data, present⟩ := Option.isSome_iff_exists.mp (allowedRun_rowsKept happened.start _ _
        (within_holding (locked.1.symm ▸ under_within admitting.policy)))
      rw [current data (same ▸ present), locked.2 data present]
  | removed other bindingHash =>
      rw [removeSession_carries]
      refine ⟨carried, ?_⟩
      rintro ⟨rfl, -⟩
      cases held with
      | reserved id sessionRevision bindingHash maxSessions sessionToken asked registered =>
          obtain ⟨other, listed, own, deed⟩ := trace_event registered
          exact foreign other (by rw [shape, ← history]; exact List.mem_append_left _ listed) own
            ⟨id, sessionRevision, bindingHash, maxSessions, deed⟩
      | refused sessionToken bindingHash resolved asked => cases asked
      | deactivated sessionToken deviceId ip binding asked => cases asked
  | refreshed => cases held
  | removedAll id preserved =>
      cases preserved with
      | none => cases held <;> contradiction
      | some revision => cases held <;> contradiction
  | _ => exact carried

end Sessions

section Runs

theorem reserves_took {event : ServerEvent} (member : event ∈ view.history) (own : event.call = call)
    (reserves : Reserves event token) : ∃ id sessionRevision bindingHash maxSessions,
      Took (view.trace call) (.registerSession id sessionRevision bindingHash maxSessions)
        (.registered token) := by
  obtain ⟨id, sessionRevision, bindingHash, maxSessions, deed⟩ := reserves
  exact ⟨id, sessionRevision, bindingHash, maxSessions, List.mem_map.mpr
    ⟨event, List.mem_filter.mpr ⟨member, by simpa using own⟩, deed⟩⟩

theorem failed_cleanup (run : ServerRun host now state)
    (asked : state.view.requests call = some (.activate licenseKey deviceId ip)) {error : Failure}
    (ended : state.pool call = some (.done (.error error))) {event : ServerEvent}
    (member : event ∈ state.view.history) (own : event.call = call) (reserves : Reserves event token) :
    ∃ cleanup ∈ state.view.history, cleanup.call = call ∧
      (∃ bindingHash, cleanup.act = .removeSession token bindingHash) ∧
      ((∃ value, cleanup.result = .ok value) → ∀ session,
        ¬Carries state.view.world.sessions token session) := by
  obtain ⟨request, same, refused⟩ := server_run_outcome run ended
  cases asked.symm.trans same
  obtain ⟨id, sessionRevision, bindingHash, maxSessions, took⟩ := reserves_took member own reserves
  obtain ⟨result, ordered⟩ := refused.2 id sessionRevision bindingHash maxSessions token took
  obtain ⟨early, reservation, between, cleanup, late, history, -, reserved, mine, deed⟩ :=
    ordered_events ordered
  refine ⟨cleanup, by simp [history], mine, ⟨bindingHash, congrArg Deed.act deed⟩, ?_⟩
  intro works session
  obtain ⟨other, act, outcome, before, after⟩ := cleanup
  change ∃ value : act.Val, outcome = .ok value at works
  obtain ⟨value, rfl⟩ := works
  cases deed
  exact removed_gone (server_run_sound run) history reserved rfl

/-- What an activation that fails can leave under a token that it took into use. -/
theorem failed_leftover (run : ServerRun host now state)
    (asked : state.view.requests call = some (.activate licenseKey deviceId ip)) {error : Failure}
    (ended : state.pool call = some (.done (.error error))) {event : ServerEvent}
    (member : event ∈ state.view.history) (own : event.call = call) (issues : Issues event token)
    (carried : Carries state.view.world.sessions token session) :
    Failed event ∨ ∃ cleanup ∈ state.view.history, cleanup.call = call ∧
      (∃ bindingHash, cleanup.act = .removeSession token bindingHash) ∧ Failed cleanup := by
  have remembered := (server_run_sound run).recorded event member
  have there := remembered.progress.sessions token issues.1 session carried
  obtain ⟨id, sessionRevision, bindingHash, maxSessions, act⟩ := issues_registers issues remembered.ran
  obtain ⟨caller, taken, result, before, after⟩ := event
  obtain rfl : taken = _ := act
  obtain ⟨input, ran⟩ := remembered.ran
  rcases result with error | registered | -
  · exact .inl ⟨error, rfl⟩
  · refine .inr ?_
    have tokens : after.tokens = _ := exec_registerSession ran
    obtain rfl : token = registered := by
      have taken : token ∈ after.tokens.map Prod.fst := issues.1
      rw [tokens] at taken
      exact (List.mem_cons.mp taken).resolve_right issues.2
    obtain ⟨cleanup, listed, mine, removes, works⟩ := failed_cleanup run asked ended member own
      ⟨id, sessionRevision, bindingHash, maxSessions, rfl⟩
    refine ⟨cleanup, listed, mine, removes, ?_⟩
    by_contra answered
    cases result : cleanup.result with
    | error failure => exact answered ⟨failure, result⟩
    | ok value => exact works ⟨value, result⟩ session carried
  · exact absurd there (exec_limitReached remembered.before.sessions ran issues.2)

theorem committed_returns (run : ServerRun host now state)
    (asked : state.view.requests call = some (.activate licenseKey deviceId ip)) {event : ServerEvent}
    (member : event ∈ state.view.history) (own : event.call = call)
    (committed : ActivationCommit state.view event id) (heard : ¬Failed event)
    {result : Except Failure Response} (ended : state.pool call = some (.done result)) :
    ∃ session, result = .ok (.session session) ∧
      (∃ reservation ∈ state.view.history, reservation.call = call ∧
        Reserves reservation session.sessionToken) ∧
      ∀ reservation ∈ state.view.history, reservation.call = call → ∀ token,
        Reserves reservation token → token = session.sessionToken := by
  obtain ⟨request, same, reached⟩ := server_run_outcome run ended
  cases asked.symm.trans same
  obtain ⟨-, expected, writes, written, landed, -⟩ := committed
  cases result with
  | error error =>
      have listed : event.deed ∈ state.view.trace call :=
        List.mem_map_of_mem (List.mem_filter.mpr ⟨member, by simpa using own⟩)
      obtain ⟨caller, act, result, world, next⟩ := event
      obtain rfl : act = _ := landed.act
      cases result with
      | error failure => exact absurd ⟨failure, rfl⟩ heard
      | ok rows => exact absurd listed (reached.1 id expected writes rows)
  | ok response =>
      obtain ⟨session, rfl, before, after, binding, license, row, started, registered, rows, shape, -, -, -,
        only, reserved⟩ := reached
      refine ⟨session, rfl, ?_, fun reservation listed mine token reserves => ?_⟩
      · have took : Took (state.view.trace call) (.registerSession row.id row.sessionRevision
            (host.hashBinding binding) row.maxSessions) (.registered session.sessionToken) := by
          rw [shape]
          exact List.mem_append_left _ reserved
        obtain ⟨reservation, listed, mine, deed⟩ := trace_event took
        exact ⟨reservation, listed, mine, row.id, row.sessionRevision, _, row.maxSessions, deed⟩
      · obtain ⟨owner, revision, bindingHash, maxSessions, took⟩ := reserves_took listed mine reserves
        exact only owner revision bindingHash maxSessions token took

/-- An activation that fails has changed no license, but for a commit whose answer was lost,
and left no session, but for a registration whose answer was lost or a cleanup that failed;
no activation ends another session of a current revision; and one that has heard of its
commit can only return the token it reserved. -/
theorem activation_ends (run : ServerRun host now state) :
    ∀ call licenseKey deviceId ip, state.view.requests call = some (.activate licenseKey deviceId ip) →
      (∀ error, state.pool call = some (.done (.error error)) → ∀ event ∈ state.view.history,
        event.call = call →
          (event.after.tables.licenses = event.before.tables.licenses ∨ Unheard event) ∧
          ∀ token session, Issues event token → Carries state.view.world.sessions token session →
            Failed event ∨ ∃ cleanup ∈ state.view.history, cleanup.call = call ∧
              (∃ bindingHash, cleanup.act = .removeSession token bindingHash) ∧ Failed cleanup) ∧
      (∀ event ∈ state.view.history, event.call = call → ∀ token session,
        Carries event.before.sessions token session →
          (∀ other ∈ state.view.history, other.call = call → ¬Reserves other token) →
          (∀ data, event.before.tables.licenses session.licenseId = some data →
            session.revision = data.row.sessionRevision) →
          Carries event.after.sessions token session) ∧
      ∀ event ∈ state.view.history, event.call = call → ∀ id, ActivationCommit state.view event id →
        ¬Failed event → ∀ result, state.pool call = some (.done result) → ∃ session,
          result = .ok (.session session) ∧
            (∃ reservation ∈ state.view.history, reservation.call = call ∧
              Reserves reservation session.sessionToken) ∧
            ∀ reservation ∈ state.view.history, reservation.call = call → ∀ token,
              Reserves reservation token → token = session.sessionToken := by
  intro call licenseKey deviceId ip asked
  refine ⟨fun error ended event member own => ⟨failed_activation run asked ended member own,
    fun token session issues carried => failed_leftover run asked ended member own issues carried⟩, ?_, ?_⟩
  · rintro event member rfl token session carried foreign current
    obtain ⟨early, late, shape⟩ := List.append_of_mem member
    obtain ⟨earlier, request, happened⟩ := server_run_event run shape
    cases asked.symm.trans happened.still
    exact activation_spares shape happened carried foreign current
  · exact fun event member own id committed heard result ended =>
      committed_returns run asked member own committed heard ended

end Runs

section Samples

def brokenSample (acts faulty : Nat) (fault : Fault) : List (Choice Input Move Request) :=
  subscriptionSample ++ .start 2 (.activate "key 102" "laptop" "10.0.0.1") ::
    (List.range acts).map fun index => .act 2
      { sampleInput 2 (200 + index) with fault := if index = faulty then some fault else none }

def broken (state : ServerState) : Bool :=
  match state.view.requests 2, state.pool 2 with
  | some (.activate _ _ _), some (.done (.error _)) => true
  | _, _ => false

theorem broken_failed {state : ServerState} (holds : broken state = true) :
    ∃ licenseKey deviceId ip error, state.view.requests 2 = some (.activate licenseKey deviceId ip) ∧
      state.pool 2 = some (.done (.error error)) := by
  unfold broken at holds
  split at holds
  · next licenseKey deviceId ip error asked ended => exact ⟨licenseKey, deviceId, ip, error, asked, ended⟩
  · cases holds

def heard (event : ServerEvent) : Bool :=
  match event with
  | ⟨_, .registerSession _ _ _ _, .error _, _, _⟩ | ⟨_, .removeSession _ _, .error _, _, _⟩ => false
  | _ => true

theorem heard_registration {event : ServerEvent} (holds : heard event = true) {sessionRevision : Nat}
    {bindingHash : String} {maxSessions : Int}
    (act : event.act = .registerSession id sessionRevision bindingHash maxSessions) : ¬Failed event := by
  obtain ⟨call, taken, result, before, after⟩ := event
  obtain rfl : taken = _ := act
  rintro ⟨error, failed⟩
  obtain rfl : result = .error error := failed
  cases holds

theorem heard_cleanup {event : ServerEvent} (holds : heard event = true) {bindingHash : String}
    (act : event.act = .removeSession token bindingHash) : ¬Failed event := by
  obtain ⟨call, taken, result, before, after⟩ := event
  obtain rfl : taken = _ := act
  rintro ⟨error, failed⟩
  obtain rfl : result = .error error := failed
  cases holds

def leftover (state : ServerState) (event : ServerEvent) : Bool :=
  event.after.tokens.any fun entry => entry.1 ∉ event.before.tokens.map Prod.fst &&
    state.view.world.sessions.get entry.1 = some entry.2.value

theorem leftover_carries {state : ServerState} {event : ServerEvent} (holds : leftover state event = true) :
    ∃ token session, Issues event token ∧ Carries state.view.world.sessions token session := by
  obtain ⟨⟨token, session⟩, member, left⟩ := List.any_eq_true.mp holds
  obtain ⟨fresh, there⟩ := (Bool.and_eq_true _ _).mp left
  have carried : state.view.world.sessions.get token = some session.value := of_decide_eq_true there
  exact ⟨token, session, ⟨List.mem_map_of_mem member, of_decide_eq_true fresh⟩, carried⟩

/-- The commit is refused after a session was reserved, and the session is ended. -/
theorem activation_ends_sample : ∃ state, ServerRun sampleHost 0 state ∧
    (∃ event ∈ state.view.history, event.call = 2 ∧ ∃ token, Issues event token) ∧
    ∀ event ∈ state.view.history, event.call = 2 → ∀ token session, Issues event token →
      ¬Carries state.view.world.sessions token session := by
  obtain ⟨state, run, holds⟩ := @sampled_run (brokenSample 20 17 (.refused "commit"))
    (fun state => (broken state && state.view.history.all heard) && state.view.history.any fun event =>
      event.call = 2 && event.after.tokens.any fun entry => entry.1 ∉ event.before.tokens.map Prod.fst)
    (by decide +kernel)
  obtain ⟨both, holds⟩ := (Bool.and_eq_true _ _).mp holds
  obtain ⟨failed, scripts⟩ := (Bool.and_eq_true _ _).mp both
  obtain ⟨event, member, holds⟩ := List.any_eq_true.mp holds
  obtain ⟨own, holds⟩ := (Bool.and_eq_true _ _).mp holds
  obtain ⟨entry, taken, fresh⟩ := List.any_eq_true.mp holds
  refine ⟨state, run, ⟨event, member, of_decide_eq_true own, entry.1, List.mem_map_of_mem taken,
    of_decide_eq_true fresh⟩, fun event member own token session issues carried => ?_⟩
  obtain ⟨licenseKey, deviceId, ip, error, asked, ended⟩ := broken_failed failed
  rcases ((activation_ends run 2 licenseKey deviceId ip asked).1 error ended event member own).2 token session
    issues carried with lost | ⟨cleanup, listed, -, ⟨bindingHash, act⟩, lost⟩
  · obtain ⟨id, revision, bindingHash, maxSessions, act⟩ :=
      issues_registers issues ((server_run_sound run).recorded event member).ran
    exact heard_registration (List.all_eq_true.mp scripts event member) act lost
  · exact heard_cleanup (List.all_eq_true.mp scripts cleanup listed) act lost

def removes (event : ServerEvent) : Bool :=
  match event.act with
  | .removeSession _ _ => true
  | _ => false

/-- An activation that only misses the answer to its registration leaves the session, and
nothing cleans up; one that only misses the answer to its commit leaves the device. -/
theorem lost_answers_remain :
    (∃ state, ServerRun sampleHost 0 state ∧
      (∃ licenseKey deviceId ip error, state.view.requests 2 = some (.activate licenseKey deviceId ip) ∧
        state.pool 2 = some (.done (.error error))) ∧
      (∃ event ∈ state.view.history, event.call = 2 ∧ ∃ token session, Issues event token ∧
        Carries state.view.world.sessions token session) ∧
      ∀ event ∈ state.view.history, ∀ token bindingHash, event.act ≠ .removeSession token bindingHash) ∧
    ∃ state, ServerRun sampleHost 0 state ∧
      (∃ licenseKey deviceId ip error, state.view.requests 2 = some (.activate licenseKey deviceId ip) ∧
        state.pool 2 = some (.done (.error error))) ∧
      ∃ event ∈ state.view.history, event.call = 2 ∧
        event.after.tables.licenses ≠ event.before.tables.licenses := by
  constructor
  · obtain ⟨state, run, holds⟩ := @sampled_run (brokenSample 17 14 .lost)
      (fun state => (broken state && state.view.history.all fun event => !removes event) &&
        state.view.history.any fun event => event.call = 2 && leftover state event) (by decide +kernel)
    obtain ⟨both, holds⟩ := (Bool.and_eq_true _ _).mp holds
    obtain ⟨failed, uncleaned⟩ := (Bool.and_eq_true _ _).mp both
    obtain ⟨event, member, holds⟩ := List.any_eq_true.mp holds
    obtain ⟨own, left⟩ := (Bool.and_eq_true _ _).mp holds
    refine ⟨state, run, broken_failed failed, ⟨event, member, of_decide_eq_true own, leftover_carries left⟩, ?_⟩
    intro event member token bindingHash act
    have kept := List.all_eq_true.mp uncleaned event member
    rw [removes, act] at kept
    cases kept
  · obtain ⟨state, run, holds⟩ := @sampled_run (brokenSample 20 17 .lost)
      (fun state => broken state && state.view.history.any fun event => event.call = 2 &&
        decide (event.after.tables.licenses sampleId ≠ event.before.tables.licenses sampleId))
      (by decide +kernel)
    obtain ⟨failed, holds⟩ := (Bool.and_eq_true _ _).mp holds
    obtain ⟨event, member, holds⟩ := List.any_eq_true.mp holds
    obtain ⟨own, changed⟩ := (Bool.and_eq_true _ _).mp holds
    exact ⟨state, run, broken_failed failed, event, member, of_decide_eq_true own,
      fun same => of_decide_eq_true changed (congrFun same sampleId)⟩

end Samples

end Keyzori
