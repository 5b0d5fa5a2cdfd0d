import Keyzori.Sdk.LicenseClient
import Mathlib.Data.List.Induction
import Mathlib.Order.Basic

namespace Keyzori.Sdk

def stateOf (log : List Entry) : ClientState :=
  log.foldl (fun state entry => match entry with
    | .moved _ new => new
    | _ => state) .idle

def lastSession (log : List Entry) : Option String :=
  log.foldl (fun token entry => match entry with
    | .session sessionToken => some sessionToken
    | _ => token) none

def ClientState.rank : ClientState → Nat
  | .idle => 0
  | .activating => 1
  | .active => 2
  | .deactivating => 3
  | .deactivated => 4

def Request.isHeartbeat : Request → Bool
  | .heartbeat _ => true
  | _ => false

/-- `deactivate` has been called, by the application or after a fatal error. -/
def Deactivating (past : List Entry) : Prop := ∃ old, .moved old .deactivating ∈ past

structure Startable (past : List Entry) (id : Nat) : Prop where
  fresh : ∀ request, .sent id request ∉ past
  first : ∀ other token, .sent other (.deactivate token) ∉ past

/-- Moves go forward, but for the way back after a failed activation. Who is
deactivated has given the last session back. -/
structure Moves (past : List Entry) (old new : ClientState) : Prop where
  start : old = stateOf past
  order : old.rank < new.rank ∨
    (old = .activating ∧ new = .idle ∧ ∃ id, past.getLast? = some (.activationFailed id))
  released : new = .deactivated → ∀ token, lastSession past = some token →
    ∃ id, .sent id (.deactivate token) ∈ past

/-- What may come after what: the protocol of the client. -/
def Allowed (past : List Entry) : Entry → Prop
  | .sent id .activate => Startable past id ∧ ¬Deactivating past ∧
      (∀ token, .session token ∉ past) ∧
      ∀ other, .sent other .activate ∈ past → .settled other ∈ past
  | .sent id (.heartbeat _) => Startable past id ∧ ¬Deactivating past ∧
      ∀ other token, .sent other (.heartbeat token) ∈ past → .settled other ∈ past
  | .sent id (.usage _) => Startable past id ∧ ¬Deactivating past
  | .sent id (.deactivate token) => Startable past id ∧ Deactivating past ∧
      (∀ other request, .sent other request ∈ past → .settled other ∈ past) ∧
      lastSession past = some token
  | .settled id => .settled id ∉ past ∧ ∃ request, .sent id request ∈ past
  | .emitted .ready => .emitted .ready ∉ past
  | .activationFailed id => .sent id .activate ∈ past ∧ .settled id ∈ past
  | .moved old new => Moves past old new
  | _ => True

def Legal (log : List Entry) : Prop :=
  ∀ before entry after, log = before ++ entry :: after → Allowed before entry

def heartbeats (client : LicenseClient) : Nat :=
  client.timers.length + (client.pending.filter fun entry => entry.2.isHeartbeat).length

/-- What an await of `deactivateOnce` may still wait for. -/
def Phase (client : LicenseClient) : Prop :=
  match client.deactivation with
  | none => ¬Deactivating client.log ∧ ∀ id token, .sent id (.deactivate token) ∉ client.log
  | some (.activation request) => client.state = .deactivating ∧
      (∀ id token, .sent id (.deactivate token) ∉ client.log) ∧
      ∀ id, (id, .activate) ∈ client.pending → request = some id
  | some (.heartbeat request) => client.state = .deactivating ∧
      (∀ id token, .sent id (.deactivate token) ∉ client.log) ∧
      (∀ id, (id, .activate) ∉ client.pending) ∧
      ∀ id token, (id, .heartbeat token) ∈ client.pending → request = some id
  | some (.usage requests) => client.state = .deactivating ∧
      (∀ id token, .sent id (.deactivate token) ∉ client.log) ∧
      (∀ id, (id, .activate) ∉ client.pending) ∧
      (∀ id token, (id, .heartbeat token) ∉ client.pending) ∧
      ∀ id token, (id, .usage token) ∈ client.pending → id ∈ requests
  | some (.request id) => client.state = .deactivating ∧
      ∃ token, (∀ entry ∈ client.pending, entry = (id, .deactivate token)) ∧
        .sent id (.deactivate token) ∈ client.log ∧ lastSession client.log = some token
  | some .done => client.state = .deactivated ∧ client.pending = []

/-- The invariant of a client, which also holds whenever it emits. -/
structure Sound (client : LicenseClient) : Prop where
  legal : Legal client.log
  state : stateOf client.log = client.state
  flight : ∀ id request, (id, request) ∈ client.pending ↔
    .sent id request ∈ client.log ∧ .settled id ∉ client.log
  fresh : ∀ id request, .sent id request ∈ client.log → id < client.next
  idle : client.activation = none → client.state = .idle ∨ client.deactivation.isSome
  activating : ∀ id, (id, .activate) ∈ client.pending →
    client.activation = some id ∧ (client.state = .activating ∨ client.deactivation.isSome)
  result : client.state = .active → client.activationResult.isSome
  begun : client.state = .idle ∨ client.state = .activating → heartbeats client = 0 ∧
    (∀ token, .session token ∉ client.log) ∧ .emitted .ready ∉ client.log
  heartbeats : heartbeats client ≤ 1
  heartbeatRequest : ∀ id token, (id, .heartbeat token) ∈ client.pending →
    client.heartbeatRequest = some id
  usageRequests : ∀ id token, (id, .usage token) ∈ client.pending → id ∈ client.usageRequests
  called : client.deactivation.isSome ↔
    client.state = .deactivating ∨ client.state = .deactivated
  deactivating : client.deactivation.isSome → Deactivating client.log
  phase : Phase client
  token : client.state ≠ .deactivated → client.sessionToken = lastSession client.log

section Logs

variable {log : List Entry} {entry : Entry}

theorem legal_append (legal : Legal log) (allowed : Allowed log entry) : Legal (log ++ [entry]) := by
  intro before one after split
  rcases List.eq_nil_or_concat after with rfl | ⟨rest, last, rfl⟩
  · obtain ⟨rfl, same⟩ := List.append_inj' split rfl
    obtain rfl := List.singleton_inj.mp same
    exact allowed
  · have whole : log ++ [entry] = (before ++ one :: rest) ++ [last] := by simpa using split
    exact legal before one rest (List.append_inj' whole rfl).1

theorem stateOf_append : stateOf (log ++ [entry]) = match entry with
    | .moved _ new => new
    | _ => stateOf log := by
  rw [stateOf, List.foldl_append]
  rfl

theorem lastSession_append : lastSession (log ++ [entry]) = match entry with
    | .session token => some token
    | _ => lastSession log := by
  rw [lastSession, List.foldl_append]
  rfl

theorem lastSession_moved (old new : ClientState) :
    lastSession (log ++ [.moved old new]) = lastSession log := lastSession_append

theorem lastSession_session (token : String) : lastSession (log ++ [.session token]) = some token :=
  lastSession_append

def Entry.quiet : Entry → Bool
  | .emitted _ | .activationFailed _ => true
  | _ => false

theorem mem_quiet {other : Entry} (quiet : entry.quiet = true) (loud : other.quiet = false) :
    other ∈ log ++ [entry] ↔ other ∈ log := by
  rw [List.mem_append, List.mem_singleton]
  constructor
  · rintro (old | rfl)
    · exact old
    · rw [quiet] at loud
      cases loud
  · exact Or.inl

theorem deactivating_append : Deactivating (log ++ [entry]) ↔
    Deactivating log ∨ ∃ old, entry = .moved old .deactivating := by
  simp only [Deactivating, List.mem_append, List.mem_singleton, exists_or]
  grind

theorem not_deactivating_append (loud : ∀ old, entry ≠ .moved old .deactivating) :
    Deactivating (log ++ [entry]) ↔ Deactivating log := by
  rw [deactivating_append]
  constructor
  · rintro (old | ⟨old, rfl⟩)
    · exact old
    · exact absurd rfl (loud old)
  · exact Or.inl

end Logs

section Calls

variable {client : LicenseClient} {entry : Entry}

theorem sound_start : Sound {} := by
  refine ⟨?_, rfl, ?_, ?_, fun _ => .inl rfl, ?_, ?_, fun _ => ⟨rfl, ?_, ?_⟩, Nat.zero_le _, ?_, ?_, ?_,
    ?_, ⟨?_, ?_⟩, fun _ => rfl⟩ <;> simp [Legal, Deactivating]

theorem called_none (sound : Sound client) :
    client.deactivation = none ↔ client.state ≠ .deactivating ∧ client.state ≠ .deactivated := by
  rw [← not_or, ← sound.called, Option.not_isSome_iff_eq_none]

theorem phase_none (sound : Sound client) (open' : client.deactivation = none) :
    ¬Deactivating client.log ∧ ∀ id token, .sent id (.deactivate token) ∉ client.log := by
  have phase := sound.phase
  rwa [Phase, open'] at phase

theorem quiet_sound (sound : Sound client) (quiet : entry.quiet = true) (allowed : Allowed client.log entry)
    (ready : entry = .emitted .ready → client.state ≠ .idle ∧ client.state ≠ .activating) :
    Sound (client.record entry) := by
  have sent : ∀ id request, .sent id request ∈ client.log ++ [entry] ↔ .sent id request ∈ client.log :=
    fun id request => mem_quiet quiet rfl
  have settled : ∀ id, .settled id ∈ client.log ++ [entry] ↔ .settled id ∈ client.log :=
    fun id => mem_quiet quiet rfl
  have session : ∀ token, .session token ∈ client.log ++ [entry] ↔ .session token ∈ client.log :=
    fun token => mem_quiet quiet rfl
  have state : stateOf (client.log ++ [entry]) = stateOf client.log := by
    rw [stateOf_append]
    cases entry <;> first | rfl | cases quiet
  have last : lastSession (client.log ++ [entry]) = lastSession client.log := by
    rw [lastSession_append]
    cases entry <;> first | rfl | cases quiet
  have deactivating : Deactivating (client.log ++ [entry]) ↔ Deactivating client.log := by
    refine not_deactivating_append fun old same => ?_
    rw [same] at quiet
    cases quiet
  refine ⟨legal_append sound.legal allowed, state.trans sound.state, ?_, ?_, sound.idle, sound.activating,
    sound.result, ?_, sound.heartbeats, sound.heartbeatRequest, sound.usageRequests, sound.called,
    fun called => deactivating.mpr (sound.deactivating called), ?_, fun open' => (sound.token open').trans last.symm⟩
  · intro id request
    rw [LicenseClient.record, sent, settled]
    exact sound.flight id request
  · intro id request member
    exact sound.fresh id request ((sent id request).mp member)
  · intro early
    obtain ⟨beats, sessions, unready⟩ := sound.begun early
    refine ⟨beats, fun token member => sessions token ((session token).mp member), fun member => ?_⟩
    rcases List.mem_append.mp member with old | new
    · exact unready old
    · have other := ready (List.mem_singleton.mp new).symm
      rcases early with first | second
      · exact other.1 first
      · exact other.2 second
  · have phase := sound.phase
    simpa only [Phase, LicenseClient.record, sent, last, deactivating] using phase

theorem send_sound (sound : Sound client) {request : Request}
    (allowed : Allowed client.log (.sent client.next request)) (open' : client.deactivation = none)
    (activates : request = .activate → client.activation = some client.next ∧ client.state = .activating)
    (beats : request.isHeartbeat = true → heartbeats client = 0 ∧
      client.heartbeatRequest = some client.next ∧ client.state = .active)
    (uses : ∀ token, request = .usage token → client.next ∈ client.usageRequests)
    (stays : ∀ token, request ≠ .deactivate token) : Sound (client.send request) := by
  have unsettled : .settled client.next ∉ client.log := by
    intro member
    obtain ⟨before, after, split⟩ := List.append_of_mem member
    obtain ⟨-, sent, earlier⟩ := sound.legal before _ after split
    have listed : .sent client.next sent ∈ client.log := by
      rw [split]
      exact List.mem_append_left _ earlier
    exact absurd (sound.fresh _ _ listed) (Nat.lt_irrefl _)
  have unsent : ∀ other, .sent client.next other ∉ client.log := fun other member =>
    absurd (sound.fresh _ _ member) (Nat.lt_irrefl _)
  have phase := phase_none sound open'
  refine ⟨legal_append sound.legal allowed, ?_, ?_, ?_, sound.idle, ?_, sound.result, ?_, ?_, ?_, ?_,
    sound.called, ?_, ?_, ?_⟩
  · simp [LicenseClient.send, LicenseClient.record, stateOf_append, sound.state]
  · intro id other
    simp only [LicenseClient.send, LicenseClient.record, List.mem_append, List.mem_singleton,
      reduceCtorEq, or_false, Prod.mk.injEq, Entry.sent.injEq, sound.flight]
    grind
  · intro id other member
    simp only [LicenseClient.send, LicenseClient.record, List.mem_append, List.mem_singleton,
      Entry.sent.injEq] at member ⊢
    rcases member with old | ⟨rfl, -⟩
    · exact Nat.lt_succ_of_lt (sound.fresh id other old)
    · exact Nat.lt_succ_self _
  · intro id member
    rcases List.mem_append.mp member with old | new
    · exact sound.activating id old
    · simp only [List.mem_singleton, Prod.mk.injEq] at new
      obtain ⟨rfl, same⟩ := new
      exact ⟨(activates same.symm).1, .inl (activates same.symm).2⟩
  · intro early
    obtain ⟨none, sessions, unready⟩ := sound.begun early
    have calm : request.isHeartbeat = false := by
      by_contra beating
      have running := (beats (by simpa using beating)).2.2
      rcases early with first | second
      · exact absurd (running.symm.trans first) (by decide)
      · exact absurd (running.symm.trans second) (by decide)
    refine ⟨?_, ?_, ?_⟩
    · simpa [heartbeats, LicenseClient.send, LicenseClient.record, calm] using none
    · simpa [LicenseClient.send, LicenseClient.record] using sessions
    · simpa [LicenseClient.send, LicenseClient.record] using unready
  · by_cases beating : request.isHeartbeat = true
    · have none := (beats beating).1
      simp only [heartbeats, LicenseClient.send, LicenseClient.record, List.filter_append,
        List.length_append] at none ⊢
      simp [beating]
      omega
    · have bounded := sound.heartbeats
      simpa [heartbeats, LicenseClient.send, LicenseClient.record, beating] using bounded
  · intro id token member
    rcases List.mem_append.mp member with old | new
    · exact sound.heartbeatRequest id token old
    · simp only [List.mem_singleton, Prod.mk.injEq] at new
      obtain ⟨rfl, rfl⟩ := new
      exact (beats rfl).2.1
  · intro id token member
    rcases List.mem_append.mp member with old | new
    · exact sound.usageRequests id token old
    · simp only [List.mem_singleton, Prod.mk.injEq] at new
      obtain ⟨rfl, rfl⟩ := new
      exact uses token rfl
  · intro called
    simp [LicenseClient.send, LicenseClient.record, open'] at called
  · simp only [Phase, LicenseClient.send, LicenseClient.record, open']
    refine ⟨fun called => phase.1 ((not_deactivating_append (by simp)).mp called), fun id token member => ?_⟩
    rcases List.mem_append.mp member with old | new
    · exact phase.2 id token old
    · simp only [List.mem_singleton, Entry.sent.injEq] at new
      exact stays token new.2.symm
  · intro state
    simpa [LicenseClient.send, LicenseClient.record, lastSession_append] using sound.token state

theorem activate_sound (sound : Sound client) : Sound client.activate := by
  simp only [LicenseClient.activate]
  split
  · exact sound
  · next running =>
    split
    · exact sound
    · split
      · exact sound
      · next inactive unstarted =>
        have closed := (called_none sound).mpr (not_or.mp running)
        have first : client.activation = none := by simpa using unstarted
        have idle : client.state = .idle := (sound.idle first).resolve_right (by simp [closed])
        have phase := phase_none sound closed
        obtain ⟨none, sessions, unready⟩ := sound.begun (.inl idle)
        have empty : ∀ id, (id, .activate) ∉ client.pending := by
          intro id member
          rcases (sound.activating id member).2 with state | called
          · exact absurd (idle.symm.trans state) (by decide)
          · simp [closed] at called
        have moved : Sound { client.setState .activating with activation := some client.next } := by
          refine ⟨legal_append sound.legal ⟨sound.state.symm, .inl ?_, (fun wrong => by cases wrong)⟩, ?_, ?_,
            ?_, (fun wrong => by cases wrong), ?_, (fun wrong => by cases wrong), ?_, sound.heartbeats,
            sound.heartbeatRequest, sound.usageRequests, ?_, ?_, ?_, ?_⟩
          · simp [idle, ClientState.rank]
          · simp [LicenseClient.setState, LicenseClient.record, stateOf_append]
          · simpa [LicenseClient.setState, LicenseClient.record] using sound.flight
          · simpa [LicenseClient.setState, LicenseClient.record] using sound.fresh
          · exact fun id member => absurd member (empty id)
          · refine fun _ => ⟨none, ?_, ?_⟩
            · simpa [LicenseClient.setState, LicenseClient.record] using sessions
            · simpa [LicenseClient.setState, LicenseClient.record] using unready
          · simp [LicenseClient.setState, LicenseClient.record, closed]
          · simp [LicenseClient.setState, LicenseClient.record, closed]
          · simp only [Phase, LicenseClient.setState, LicenseClient.record, closed]
            refine ⟨fun called => phase.1 ((not_deactivating_append (by simp)).mp called), ?_⟩
            simpa using phase.2
          · intro _
            simpa [LicenseClient.setState, LicenseClient.record, lastSession_append] using
              sound.token (by simp [idle])
        refine send_sound moved ⟨⟨?_, ?_⟩, ?_, ?_, ?_⟩ closed (fun _ => ⟨rfl, rfl⟩) (by simp [Request.isHeartbeat])
          (by simp) (by simp)
        · intro request member
          exact absurd (moved.fresh _ _ member) (Nat.lt_irrefl _)
        · exact (phase_none moved closed).2
        · exact (phase_none moved closed).1
        · exact (moved.begun (.inr rfl)).2.1
        · intro other sent
          by_contra unsettled
          exact empty other ((moved.flight other .activate).mpr ⟨sent, unsettled⟩)

theorem consume_sound (sound : Sound client) (valid : Bool) : Sound (client.consume valid) := by
  simp only [LicenseClient.consume]
  split
  · exact sound
  · next sessionToken stored =>
    split
    · exact sound
    · next ready =>
      rw [not_or, not_not] at ready
      have closed : client.deactivation = none := (called_none sound).mpr (by simp [ready.1])
      have phase := phase_none sound closed
      have listed : Sound { client with usageRequests := client.usageRequests ++ [client.next] } := by
        obtain ⟨legal, state, flight, fresh, idle, activating, result, begun, beats, request, usage,
          called, deactivating, phase, token⟩ := sound
        exact ⟨legal, state, flight, fresh, idle, activating, result, begun, beats, request,
          fun id token member => List.mem_append_left _ (usage id token member), called, deactivating,
          phase, token⟩
      refine send_sound listed ⟨⟨?_, phase.2⟩, phase.1⟩ closed (by simp) (by simp [Request.isHeartbeat])
        (by simp) (by simp)
      intro request member
      exact absurd (sound.fresh _ _ member) (Nat.lt_irrefl _)

theorem clearHeartbeatTimer_sound (sound : Sound client) : Sound client.clearHeartbeatTimer := by
  simp only [LicenseClient.clearHeartbeatTimer]
  split
  · exact sound
  · next timer live =>
    have fewer : (client.timers.filter fun live => live ≠ timer).length ≤ client.timers.length :=
      List.length_filter_le _ _
    obtain ⟨legal, state, flight, fresh, idle, activating, result, begun, beats, request, usage,
      called, deactivating, phase, token⟩ := sound
    refine ⟨legal, state, flight, fresh, idle, activating, result, ?_, ?_, request, usage, called,
      deactivating, phase, token⟩
    · intro early
      obtain ⟨none, rest⟩ := begun early
      refine ⟨?_, rest⟩
      simp only [heartbeats] at none ⊢
      omega
    · simp only [heartbeats] at beats ⊢
      omega

theorem deactivate_sound (sound : Sound client) : Sound client.deactivate := by
  simp only [LicenseClient.deactivate]
  split
  · exact sound
  · next unasked =>
    have closed : client.deactivation = none := by simpa using unasked
    have states := (called_none sound).mp closed
    have phase := phase_none sound closed
    have moved : Sound { client.setState .deactivating with
        deactivation := some (.activation client.activation) } := by
      refine ⟨legal_append sound.legal ⟨sound.state.symm, .inl ?_, (fun wrong => by cases wrong)⟩, ?_, ?_, ?_,
        fun _ => .inr rfl, ?_, (fun wrong => by cases wrong), (by simp [LicenseClient.setState]),
        sound.heartbeats, sound.heartbeatRequest, sound.usageRequests, ?_, ?_, ?_, ?_⟩
      · cases form : client.state <;> simp_all [ClientState.rank]
      · simp [LicenseClient.setState, LicenseClient.record, stateOf_append]
      · simpa [LicenseClient.setState, LicenseClient.record] using sound.flight
      · simpa [LicenseClient.setState, LicenseClient.record] using sound.fresh
      · exact fun id member => ⟨(sound.activating id member).1, .inr rfl⟩
      · simp [LicenseClient.setState, LicenseClient.record]
      · exact fun _ => ⟨client.state, List.mem_append_right _ (.head _)⟩
      · refine ⟨rfl, ?_, fun id member => (sound.activating id member).1⟩
        simpa [LicenseClient.setState, LicenseClient.record] using phase.2
      · intro _
        simpa [LicenseClient.setState, LicenseClient.record, lastSession_append] using
          sound.token states.2
    have cleared := clearHeartbeatTimer_sound moved
    simp only [LicenseClient.clearHeartbeatTimer] at cleared ⊢
    cases timer : client.heartbeatTimer <;> simpa [LicenseClient.setState, LicenseClient.record, timer] using cleared

theorem call_sound (sound : Sound client) (call : Call) : Sound (client.call call) := by
  cases call with
  | activate => exact activate_sound sound
  | consume valid => exact consume_sound sound valid
  | deactivate => exact deactivate_sound sound

/-- What holds on from one client to another while requests are only sent. -/
structure Follows (client next : LicenseClient) : Prop where
  sound : Sound client → Sound next
  heartbeats : heartbeats next ≤ heartbeats client
  log : client.log ⊆ next.log
  activation : client.activation.isSome → next.activation = client.activation

theorem follows_refl (client : LicenseClient) : Follows client client :=
  ⟨id, Nat.le_refl _, List.Subset.refl _, fun _ => rfl⟩

theorem follows_trans {client middle next : LicenseClient} (first : Follows client middle)
    (second : Follows middle next) : Follows client next := by
  refine ⟨second.sound ∘ first.sound, Nat.le_trans second.heartbeats first.heartbeats,
    List.Subset.trans first.log second.log, fun begun => ?_⟩
  have same := first.activation begun
  exact (second.activation (same ▸ begun)).trans same

theorem call_heartbeats (client : LicenseClient) (call : Call) :
    heartbeats (client.call call) ≤ heartbeats client := by
  cases call with
  | activate =>
      simp only [LicenseClient.call, LicenseClient.activate]
      split
      · exact Nat.le_refl _
      · split
        · exact Nat.le_refl _
        · split
          · exact Nat.le_refl _
          · simp [heartbeats, LicenseClient.send, LicenseClient.setState, LicenseClient.record, Request.isHeartbeat]
  | consume valid =>
      simp only [LicenseClient.call, LicenseClient.consume]
      split
      · exact Nat.le_refl _
      · split
        · exact Nat.le_refl _
        · simp [heartbeats, LicenseClient.send, LicenseClient.record, Request.isHeartbeat]
  | deactivate =>
      simp only [LicenseClient.call, LicenseClient.deactivate]
      split
      · exact Nat.le_refl _
      · simp only [heartbeats, LicenseClient.clearHeartbeatTimer, LicenseClient.setState, LicenseClient.record]
        split
        · exact Nat.le_refl _
        · exact Nat.add_le_add_right (List.length_filter_le _ _) _

theorem call_follows (client : LicenseClient) (call : Call) : Follows client (client.call call) := by
  refine ⟨fun sound => call_sound sound call, call_heartbeats client call, ?_, ?_⟩
  · cases call with
    | activate =>
        simp only [LicenseClient.call, LicenseClient.activate]
        split_ifs <;> simp [LicenseClient.send, LicenseClient.setState, LicenseClient.record]
    | consume valid =>
        simp only [LicenseClient.call, LicenseClient.consume]
        split
        · exact List.Subset.refl _
        · split_ifs <;> simp [LicenseClient.send, LicenseClient.record]
    | deactivate =>
        simp only [LicenseClient.call, LicenseClient.deactivate, LicenseClient.clearHeartbeatTimer]
        split
        · exact List.Subset.refl _
        · split <;> simp [LicenseClient.setState, LicenseClient.record]
  · intro begun
    cases call with
    | activate =>
        simp only [LicenseClient.call, LicenseClient.activate, begun]
        split_ifs <;> trivial
    | consume valid =>
        simp only [LicenseClient.call, LicenseClient.consume]
        split
        · rfl
        · split_ifs <;> rfl
    | deactivate =>
        simp only [LicenseClient.call, LicenseClient.deactivate, LicenseClient.clearHeartbeatTimer]
        split
        · rfl
        · split <;> rfl

theorem calls_follow (client : LicenseClient) (calls : List Call) :
    Follows client (calls.foldl LicenseClient.call client) := by
  induction calls generalizing client with
  | nil => exact follows_refl client
  | cons call calls ih => exact follows_trans (call_follows client call) (ih (client.call call))

theorem emit_follows (client : LicenseClient) (react : LicenseEvent → List Call) {event : LicenseEvent}
    (plain : event ≠ .ready) : Follows client (client.emit react event) := by
  have recorded : Follows client (client.record (.emitted event)) := by
    refine ⟨fun sound => quiet_sound sound rfl ?_ fun same => absurd (Entry.emitted.inj same) plain,
      Nat.le_refl _, List.subset_append_left _ _, fun _ => rfl⟩
    cases event <;> first | exact absurd rfl plain | trivial
  exact follows_trans recorded (calls_follow _ (react event))

theorem rejectionEvent_plain (code : Option String) : LicenseClient.rejectionEvent code ≠ .ready := by
  unfold LicenseClient.rejectionEvent
  split_ifs <;> simp

theorem aside_follows (client : LicenseClient) (strikes retries : Nat) (used scheduled queued : Bool) :
    Follows client { client with
      failureStrikes := strikes
      throttleRetries := retries
      expiryProtectedThrottleRetryUsed := used
      fatalCleanupScheduled := scheduled
      fatalQueued := queued } := by
  refine ⟨fun sound => ?_, Nat.le_refl _, List.Subset.refl _, fun _ => rfl⟩
  obtain ⟨legal, state, flight, fresh, idle, activating, result, begun, beats, request, usage,
    called, deactivating, phase, token⟩ := sound
  exact ⟨legal, state, flight, fresh, idle, activating, result, begun, beats, request, usage,
    called, deactivating, phase, token⟩

theorem handleFatalError_follows (client : LicenseClient) : Follows client client.handleFatalError := by
  unfold LicenseClient.handleFatalError
  split
  · exact follows_refl client
  · exact aside_follows client _ _ _ _ _

end Calls

end Keyzori.Sdk
