import Keyzori.Meters.Archiving
import Keyzori.Server.AloneActivation

namespace Keyzori

open ExpiringStore Interleaving

variable {host : Host} {call : Nat} {clock : Instant → Prop} {used : List String} {world : World}
  {data : LicenseData} {binding : SessionBinding} {sessionToken : String}

def World.renew (world : World) (sessionToken bindingHash : String) : World :=
  { world with sessions := (refreshSession world.sessions sessionToken bindingHash sessionTtlSeconds).1 }

def World.drop (world : World) (sessionToken bindingHash : String) : World :=
  { world with sessions := (removeSession world.sessions sessionToken bindingHash).1 }

section Scripts

variable {ttl : Nat} {issued : List String} {store : SessionStore} {bindingHash : String} {session : Session}

theorem bound_carried (carried : Carries store sessionToken session) (bound : session.binding = bindingHash) :
    boundSession store sessionToken bindingHash =
      some ⟨session.licenseId.text, Nat.repr session.revision, session.binding⟩ :=
  boundSession_some.mpr ⟨_, carried, sessionFields_value session, bound⟩

theorem bound_session (kept : Kept ttl issued store) {fields : SessionFields}
    (bound : boundSession store sessionToken bindingHash = some fields) : ∃ session : Session,
      Carries store sessionToken session ∧ session.binding = bindingHash ∧
        fields = ⟨session.licenseId.text, Nat.repr session.revision, session.binding⟩ := by
  obtain ⟨value, present, cut, same⟩ := boundSession_some.mp bound
  obtain ⟨session, rfl⟩ := kept.sessions sessionToken value present
  rw [sessionFields_value] at cut
  cases cut
  exact ⟨session, present, same, rfl⟩

theorem resolved_session : resolvedSession ⟨session.licenseId.text, Nat.repr session.revision, session.binding⟩
    sessionToken = .ok ⟨session.licenseId.text, session.revision, sessionToken⟩ := by
  simp [resolvedSession]

theorem refreshed_carried (carried : Carries store sessionToken session) (bound : session.binding = bindingHash) :
    (refreshSession store sessionToken bindingHash ttl).2 =
      .ok (some ⟨session.licenseId.text, session.revision, sessionToken⟩) := by
  simp only [refreshSession, bound_carried carried bound, resolved_session]
  rfl

theorem removed_carried (carried : Carries store sessionToken session) (bound : session.binding = bindingHash) :
    (removeSession store sessionToken bindingHash).2 =
      .ok (some ⟨session.licenseId.text, session.revision, sessionToken⟩) := by
  simp only [removeSession, bound_carried carried bound, resolved_session]
  rfl

/-- A token that has no session of the binding changes nothing. -/
theorem unbound_kept (unbound : boundSession store sessionToken bindingHash = none) :
    refreshSession store sessionToken bindingHash ttl = (store, .ok none) ∧
      removeSession store sessionToken bindingHash = (store, .ok none) := by
  simp only [refreshSession, removeSession, unbound, and_self]

theorem sessionLicenseId_session : LicenseService.sessionLicenseId
    ⟨session.licenseId.text, session.revision, sessionToken⟩ = some session.licenseId :=
  dif_pos session.licenseId.plain

end Scripts

inductive SessionEnds (host : Host) (clock : Instant → Prop) (sessionToken : String) (binding : SessionBinding)
    (world : World) : Except Failure LicenseData → World → Prop
  | missing (unbound : boundSession world.sessions sessionToken (host.hashBinding binding) = none) :
      SessionEnds host clock sessionToken binding world (.error invalidSession) world
  | gone {session : Session} (carried : Carries world.sessions sessionToken session)
      (bound : session.binding = host.hashBinding binding)
      (absent : world.tables.licenses session.licenseId = none) :
      SessionEnds host clock sessionToken binding world (.error invalidSession)
        ((world.renew sessionToken (host.hashBinding binding)).drop sessionToken (host.hashBinding binding))
  | outdated {session : Session} {data : LicenseData} (carried : Carries world.sessions sessionToken session)
      (bound : session.binding = host.hashBinding binding)
      (present : world.tables.licenses session.licenseId = some data)
      (other : data.row.sessionRevision ≠ session.revision) :
      SessionEnds host clock sessionToken binding world (.error invalidSession)
        ((world.renew sessionToken (host.hashBinding binding)).drop sessionToken (host.hashBinding binding))
  | refused {session : Session} {data : LicenseData} {now : Instant} {error : Failure}
      (carried : Carries world.sessions sessionToken session) (bound : session.binding = host.hashBinding binding)
      (present : world.tables.licenses session.licenseId = some data)
      (current : data.row.sessionRevision = session.revision) (time : clock now)
      (refused : data.policy binding now = .error error) :
      SessionEnds host clock sessionToken binding world (.error error)
        ((world.renew sessionToken (host.hashBinding binding)).drop sessionToken (host.hashBinding binding))
  | passed {session : Session} {data : LicenseData} {now : Instant}
      (carried : Carries world.sessions sessionToken session) (bound : session.binding = host.hashBinding binding)
      (present : world.tables.licenses session.licenseId = some data)
      (current : data.row.sessionRevision = session.revision) (time : clock now)
      (passed : data.policy binding now = .ok ()) :
      SessionEnds host clock sessionToken binding world (.ok data)
        (world.renew sessionToken (host.hashBinding binding))

section Checks

variable {session : Session}

theorem removeSessionBestEffort_alone (ticking : ∃ now, clock now) {ttl : Nat} {issued : List String}
    (kept : Kept ttl issued world.sessions) :
    Alone call clock used (LicenseService.removeSessionBestEffort host sessionToken binding) world fun result next =>
      result = .ok () ∧ next = world.drop sessionToken (host.hashBinding binding) := by
  refine alone_covered ?_ ?_
  · cases unbound : boundSession world.sessions sessionToken (host.hashBinding binding) with
    | none =>
        have removed := (@unbound_kept sessionToken 0 _ _ unbound).2
        refine alone_removeSession ticking removed (alone_pure ⟨rfl, ?_⟩)
        rw [World.drop, removed]
    | some fields =>
        obtain ⟨session, carried, bound, -⟩ := bound_session kept unbound
        exact alone_removeSession ticking (Prod.ext rfl (removed_carried carried bound)) (alone_pure ⟨rfl, rfl⟩)
  · rintro _ _ ⟨⟨⟩, -⟩

theorem rejectSession_alone {error : Failure} {α : Type} (ticking : ∃ now, clock now) {ttl : Nat}
    {issued : List String} (kept : Kept ttl issued world.sessions) :
    Alone call clock used (do
      LicenseService.removeSessionBestEffort host sessionToken binding
      throw error : Server α) world fun result next =>
        result = .error error ∧ next = world.drop sessionToken (host.hashBinding binding) :=
  alone_known (removeSessionBestEffort_alone ticking kept) (alone_throw ⟨rfl, rfl⟩)

theorem checkPolicy_alone (ticking : ∃ now, clock now) :
    Alone call clock used (LicenseService.checkPolicy data.listed binding) world fun result next =>
      next = world ∧ ∃ now, clock now ∧ result = data.policy binding now := by
  refine alone_then _ (assertActive_alone ticking) ?_ ?_
  · rintro ⟨⟩ _ ⟨rfl, now, time, active⟩
    have policy : data.policy binding now = assertAllowed data.listed binding := policy_active active.symm
    rw [← policy]
    cases verdict : data.policy binding now with
    | ok value => exact alone_pure ⟨rfl, now, time, verdict.symm⟩
    | error error => exact alone_throw ⟨rfl, now, time, verdict.symm⟩
  · rintro error _ ⟨rfl, now, time, inactive⟩
    exact ⟨rfl, now, time, (policy_inactive inactive.symm).symm⟩

theorem findById_alone {id : LicenseId} (ticking : ∃ now, clock now) :
    Alone call clock used (LicenseRepository.findById id) world fun result next =>
      result = .ok (world.tables.license id) ∧ next = world := by
  exact @alone_perform _ _ _ _ (.findLicense id) _ _ (fun locks => locks) ticking
    (fun locks input _ sane => by simp only [exec, attempt, sane.faultless]; rfl) fun _ unlocked => unlocked

theorem findByIdWithAllowlists_alone {id : LicenseId} (ticking : ∃ now, clock now)
    (present : world.tables.licenses id = some data) (own : data.row.id = id) :
    Alone call clock used (LicenseRepository.findByIdWithAllowlists id) world fun result next =>
      result = .ok (some data.listed) ∧ next = world := by
  have found : world.tables.license id = some data.license := by simp [Tables.license, present, LicenseData.license]
  refine alone_known (findById_alone ticking) ?_
  rw [found]
  refine alone_known (withAllowlists_alone ticking ?_) (alone_pure ⟨rfl, rfl⟩)
  rwa [← own] at present

theorem policyOrReject_alone (ticking : ∃ now, clock now) {ttl : Nat} {issued : List String}
    (kept : Kept ttl issued world.sessions) :
    Alone call clock used (tryCatch (LicenseService.checkPolicy data.listed binding) fun error => do
      LicenseService.removeSessionBestEffort host sessionToken binding
      throw error) world fun result next => ∃ now, clock now ∧ result = data.policy binding now ∧
        next = match result with
          | .ok _ => world
          | .error _ => world.drop sessionToken (host.hashBinding binding) := by
  refine alone_caught _ (checkPolicy_alone ticking) ?_ ?_
  · rintro value _ ⟨rfl, now, time, passed⟩
    exact ⟨now, time, passed, rfl⟩
  · rintro error _ ⟨rfl, now, time, refused⟩
    refine alone_weaken (rejectSession_alone ticking kept) ?_
    rintro _ _ ⟨rfl, rfl⟩
    exact ⟨now, time, refused, rfl⟩

theorem checkSessionLicense_alone {session : Session} (ticking : ∃ now, clock now)
    (kept : Kept sessionTtlSeconds (world.tokens.map Prod.fst) world.sessions)
    (carried : Carries world.sessions sessionToken session) (bound : session.binding = host.hashBinding binding)
    (present : world.tables.licenses session.licenseId = some data) :
    Alone call clock used (LicenseService.checkSessionLicense host data.listed
        ⟨session.licenseId.text, session.revision, sessionToken⟩ binding)
      (world.renew sessionToken (host.hashBinding binding)) fun result next =>
        ∃ checked, SessionEnds host clock sessionToken binding world checked next ∧
          result = checked.map LicenseData.listed := by
  have renewed : Kept sessionTtlSeconds (world.tokens.map Prod.fst)
      (world.renew sessionToken (host.hashBinding binding)).sessions := refreshSession_kept kept
  rw [LicenseService.checkSessionLicense]
  by_cases current : data.row.sessionRevision = session.revision
  · have same : ¬data.listed.sessionRevision ≠ session.revision := not_not.mpr current
    rw [if_neg same]
    refine alone_then _ (policyOrReject_alone ticking renewed) ?_ ?_
    · rintro ⟨⟩ _ ⟨now, time, passed, rfl⟩
      exact alone_pure ⟨_, .passed carried bound present current time passed.symm, rfl⟩
    · rintro error _ ⟨now, time, refused, rfl⟩
      exact ⟨_, .refused carried bound present current time refused.symm, rfl⟩
  · have differs : data.listed.sessionRevision ≠ session.revision := current
    rw [if_pos differs]
    refine alone_weaken (rejectSession_alone ticking renewed) ?_
    rintro _ _ ⟨rfl, rfl⟩
    exact ⟨_, .outdated carried bound present current, rfl⟩

theorem resolveSession_alone (ticking : ∃ now, clock now) (tables : TablesSound world)
    (sessions : SessionsSound world) :
    Alone call clock used (LicenseService.resolveSession host sessionToken binding) world fun result next =>
      ∃ checked, SessionEnds host clock sessionToken binding world checked next ∧
        result = checked.map LicenseData.listed := by
  cases unbound : boundSession world.sessions sessionToken (host.hashBinding binding) with
  | none =>
      have refreshed := (@unbound_kept sessionToken sessionTtlSeconds _ _ unbound).1
      exact alone_refreshSession ticking refreshed (alone_throw ⟨_, .missing unbound, rfl⟩)
  | some fields =>
      obtain ⟨session, carried, bound, -⟩ := bound_session sessions.kept unbound
      refine alone_refreshSession ticking (Prod.ext rfl (refreshed_carried carried bound)) ?_
      dsimp only
      rw [LicenseService.requireActiveSessionLicense, sessionLicenseId_session]
      refine alone_known (findById_alone ticking) ?_
      cases present : world.tables.licenses session.licenseId with
      | none =>
          have found : world.tables.license session.licenseId = none := by simp [Tables.license, present]
          rw [found]
          refine alone_weaken (rejectSession_alone ticking (refreshSession_kept sessions.kept)) ?_
          rintro _ _ ⟨rfl, rfl⟩
          exact ⟨_, .gone carried bound present, rfl⟩
      | some data =>
          have own := tables.rowId _ _ present
          have found : world.tables.license session.licenseId = some data.license := by
            simp [Tables.license, present, LicenseData.license]
          rw [found]
          refine alone_known (findByIdWithAllowlists_alone ticking ?_ rfl) ?_
          · exact own ▸ present
          · exact checkSessionLicense_alone ticking sessions.kept carried bound present

end Checks

inductive HeartbeatEnds (host : Host) (clock : Instant → Prop) (sessionToken deviceId ip : String) (world : World) :
    Except Failure LicenseSessionResult → World → Prop
  | unbound {error : Failure} (invalid : sessionBinding ip deviceId = .error error) :
      HeartbeatEnds host clock sessionToken deviceId ip world (.error error) world
  | rejected {binding : SessionBinding} {error : Failure} {next : World}
      (bound : sessionBinding ip deviceId = .ok binding)
      (ends : SessionEnds host clock sessionToken binding world (.error error) next) :
      HeartbeatEnds host clock sessionToken deviceId ip world (.error error) next
  | beat {binding : SessionBinding} {data touched : LicenseData} {next : World}
      (bound : sessionBinding ip deviceId = .ok binding)
      (ends : SessionEnds host clock sessionToken binding world (.ok data) next) (seen : Seen data touched) :
      HeartbeatEnds host clock sessionToken deviceId ip world (.ok (sessionResult data.license sessionToken))
        (next.setLicense data.row.id touched)

inductive DeactivateEnds (host : Host) (sessionToken deviceId ip : String) (world : World) :
    Except Failure Unit → World → Prop
  | unbound {error : Failure} (invalid : sessionBinding ip deviceId = .error error) :
      DeactivateEnds host sessionToken deviceId ip world (.error error) world
  | ended {binding : SessionBinding} (bound : sessionBinding ip deviceId = .ok binding) :
      DeactivateEnds host sessionToken deviceId ip world (.ok ())
        (world.drop sessionToken (host.hashBinding binding))

inductive Used (host : Host) (clock : Instant → Prop) (request : UsageRequest) (data : LicenseData) :
    Except Failure ConsumeUsageResult → MeterTable → Prop
  | other (type : data.row.type ≠ .metered) : Used host clock request data
      (.error (.domain ⟨"Usage can only be consumed from metered licenses", 400, .invalidRequest⟩)) data.meters
  | failed {draw : Draw} {error : Failure} (type : data.row.type = .metered) (time : clock draw.now)
      (ran : (consumeMeter data.row.id request.meter request.units (host.hashUsageEventId request.eventId) draw).run
        (some data.meters) = .error error) : Used host clock request data (.error error) data.meters
  | consumed {draw : Draw} {written : MeterTable} {result : UsageConsumptionResult} (type : data.row.type = .metered)
      (time : clock draw.now)
      (ran : (consumeMeter data.row.id request.meter request.units (host.hashUsageEventId request.eventId) draw).run
        (some data.meters) = .ok (some written, result)) :
      Used host clock request data ((consumeResponse request result).mapError Failure.domain) written

inductive ConsumeEnds (host : Host) (clock : Instant → Prop) (sessionToken deviceId ip : String)
    (input : ConsumeUsageInput) (world : World) : Except Failure ConsumeUsageResult → World → Prop
  | unbound {error : Failure} (invalid : sessionBinding ip deviceId = .error error) :
      ConsumeEnds host clock sessionToken deviceId ip input world (.error error) world
  | invalid {binding : SessionBinding} {error : DomainError} (bound : sessionBinding ip deviceId = .ok binding)
      (invalid : validateUsageInput input = .error error) :
      ConsumeEnds host clock sessionToken deviceId ip input world (.error (.domain error)) world
  | rejected {binding : SessionBinding} {request : UsageRequest} {error : Failure} {next : World}
      (bound : sessionBinding ip deviceId = .ok binding) (valid : validateUsageInput input = .ok request)
      (ends : SessionEnds host clock sessionToken binding world (.error error) next) :
      ConsumeEnds host clock sessionToken deviceId ip input world (.error error) next
  | used {binding : SessionBinding} {request : UsageRequest} {data : LicenseData} {meters : MeterTable}
      {result : Except Failure ConsumeUsageResult} {next : World} (bound : sessionBinding ip deviceId = .ok binding)
      (valid : validateUsageInput input = .ok request)
      (ends : SessionEnds host clock sessionToken binding world (.ok data) next)
      (used : Used host clock request data result meters) :
      ConsumeEnds host clock sessionToken deviceId ip input world result
        (next.setLicense data.row.id { data with meters })

section Calls

variable {deviceId ip : String}

theorem sessionEnds_tables {next : World} {checked : Except Failure LicenseData}
    (ends : SessionEnds host clock sessionToken binding world checked next) : next.tables = world.tables := by
  cases ends <;> rfl

theorem sessionEnds_present {next : World} (tables : TablesSound world)
    (ends : SessionEnds host clock sessionToken binding world (.ok data) next) :
    next.tables.licenses data.row.id = some data := by
  cases ends with
  | passed carried bound present current time passed => exact tables.rowId _ _ present ▸ present

theorem heartbeat_alone (ticking : ∃ now, clock now) (tables : TablesSound world) (sessions : SessionsSound world) :
    Alone call clock used (LicenseService.heartbeat host sessionToken deviceId ip) world
      (HeartbeatEnds host clock sessionToken deviceId ip world) := by
  refine alone_except (fun binding bound => ?_) fun error invalid => .unbound invalid
  refine alone_then _ (resolveSession_alone ticking tables sessions) ?_ ?_
  · rintro license next ⟨checked, ends, passed⟩
    cases checked with
    | error error => cases passed
    | ok data =>
        cases passed
        refine alone_then _ (touchBestEffort_alone ticking (sessionEnds_present tables ends)) ?_ ?_
        · rintro _ _ ⟨⟨⟩, touched, seen, rfl⟩
          exact alone_capture ticking (alone_pure (.beat bound ends seen))
        · rintro _ _ ⟨⟨⟩, -⟩
  · rintro error next ⟨checked, ends, refused⟩
    cases checked with
    | error refusal =>
        cases refused
        exact .rejected bound ends
    | ok data => cases refused

theorem enrichDeactivation_alone {resolved : ResolvedSession} (ticking : ∃ now, clock now) :
    Alone call clock used (LicenseService.enrichDeactivation resolved) world fun result next =>
      result = .ok () ∧ next = world := by
  rw [LicenseService.enrichDeactivation]
  split
  · exact alone_pure ⟨rfl, rfl⟩
  · refine alone_covered (alone_known (findById_alone ticking) (alone_pure ⟨rfl, rfl⟩)) ?_
    rintro _ _ ⟨⟨⟩, -⟩

theorem deactivate_alone (ticking : ∃ now, clock now) (sessions : SessionsSound world) :
    Alone call clock used (LicenseService.deactivate host sessionToken deviceId ip) world
      (DeactivateEnds host sessionToken deviceId ip world) := by
  refine alone_except (fun binding bound => ?_) fun error invalid => .unbound invalid
  cases unbound : boundSession world.sessions sessionToken (host.hashBinding binding) with
  | none =>
      have removed := (@unbound_kept sessionToken 0 _ _ unbound).2
      refine alone_removeSession ticking removed (alone_pure ?_)
      have ended : DeactivateEnds host sessionToken deviceId ip world _ _ := .ended bound
      rwa [World.drop, removed] at ended
  | some fields =>
      obtain ⟨session, carried, same, -⟩ := bound_session sessions.kept unbound
      refine alone_removeSession ticking (Prod.ext rfl (removed_carried carried same)) ?_
      refine alone_known (enrichDeactivation_alone ticking) (alone_weaken (capture_alone ticking) ?_)
      rintro _ _ ⟨rfl, rfl⟩
      exact .ended bound

/-- A usage whose drawn key no row has breaks no constraint. -/
theorem usage_lawful {key : String} {meters : MeterTable} (present : world.tables.licenses data.row.id = some data)
    (same : SameRows key (some data.meters) (some meters)) (fresh : key ∉ world.tables.rowKeys) :
    world.tables.meterViolation data.row.id meters = none := by
  have region : world.tables.meters data.row.id = some data.meters := by rw [Tables.meters, present]; rfl
  have old : (meters.meters.any fun meter => decide (meter.id ∉ data.meters.meters.map LicenseMeter.id) &&
      world.tables.uses LicenseData.meterKeys meter.id) = false := by
    refine List.any_eq_false.mpr fun meter member => ?_
    have listed : meter.id ∈ data.meters.meters.map LicenseMeter.id := same.meters ▸ List.mem_map_of_mem member
    simp [listed]
  have new : (meters.ledger.any fun entry => decide (entry.id ∉ data.meters.ledger.map UsageLedgerEntry.id) &&
      world.tables.uses LicenseData.entryKeys entry.id) = false := by
    refine List.any_eq_false.mpr fun entry member => ?_
    rcases same.ledger entry member with listed | drawn
    · have known : entry.id ∈ data.meters.ledger.map UsageLedgerEntry.id := List.mem_map_of_mem listed
      simp [known]
    · simp [drawn, (unused_keys fresh).2]
  rw [Tables.meterViolation, region]
  exact (if_neg (ne_true_of_eq_false old)).trans (if_neg (ne_true_of_eq_false new))

theorem consumption_alone {request : UsageRequest} (ticking : ∃ now, clock now)
    (known : world.tables.rowKeys ⊆ used) (present : world.tables.licenses data.row.id = some data)
    (type : data.row.type = .metered) :
    Alone call clock used (MeterRepository.consume host data.row.id request) world fun result next =>
      ∃ meters answer, Used host clock request data answer meters ∧
        next = world.setLicense data.row.id { data with meters } ∧
        (result >>= fun used => (consumeResponse request used).mapError Failure.domain) = answer := by
  have region : world.tables.meters data.row.id = some data.meters := by rw [Tables.meters, present]; rfl
  refine alone_orRollback ticking (fun result next => next = world ∧ ∃ draw, draw.uuid 0 ∉ used ∧ clock draw.now ∧
    match (consumeMeter data.row.id request.meter request.units (host.hashUsageEventId request.eventId) draw).run
      (some data.meters) with
    | .error error => result = .error error
    | .ok (written, used) => result = .ok (used, (written.map Write.meters).toList)) ?_ ?_ ?_
  · refine alone_lock ticking (alone_draw ticking fun drawn time fresh => alone_query ticking ?_)
    rw [region]
    refine alone_except (fun written ran => ?_) fun error ran => ⟨rfl, drawn, fresh 0, time, ?_⟩
    · exact alone_pure ⟨rfl, drawn, fresh 0, time, by rw [ran]⟩
    · rw [ran]
  · rintro ⟨used, writes⟩ _ ⟨rfl, drawn, fresh, time, outcome⟩
    cases ran : (consumeMeter data.row.id request.meter request.units
        (host.hashUsageEventId request.eventId) drawn).run (some data.meters) with
    | error failure =>
        rw [ran] at outcome
        cases outcome
    | ok written =>
        obtain ⟨region, answer⟩ := written
        rw [ran] at outcome
        cases outcome
        obtain ⟨meters, rfl⟩ := Option.isSome_iff_exists.mp (consumeMeter_continues ran).present
        have lawful := usage_lawful present (consumeMeter_rows ran) fun used => fresh (known used)
        refine alone_commit ticking present (fun keyHash keyPrefix member => ?_) ?_ fun now stamp => ?_
        · cases List.mem_singleton.mp member
        · exact List.findSome?_eq_none_iff.mpr (List.forall_mem_singleton.mpr lawful)
        · exact alone_pure ⟨meters, _, .consumed type time ran, rfl, rfl⟩
  · rintro error _ ⟨rfl, drawn, -, time, outcome⟩
    cases ran : (consumeMeter data.row.id request.meter request.units
        (host.hashUsageEventId request.eventId) drawn).run (some data.meters) with
    | error failure =>
        rw [ran] at outcome
        cases outcome
        exact ⟨_, _, .failed type time ran, (setLicense_self present).symm, rfl⟩
    | ok written =>
        rw [ran] at outcome
        cases outcome

theorem consumeUnits_alone {request : UsageRequest} (ticking : ∃ now, clock now)
    (known : world.tables.rowKeys ⊆ used) (present : world.tables.licenses data.row.id = some data) :
    Alone call clock used (LicenseService.consumeUnits host data.license request) world fun result next =>
      ∃ meters, Used host clock request data result meters ∧
        next = world.setLicense data.row.id { data with meters } := by
  rw [LicenseService.consumeUnits]
  by_cases type : data.row.type = .metered
  · have same : ¬data.license.type ≠ .metered := not_not.mpr type
    rw [if_neg same]
    refine alone_then _ (consumption_alone ticking known present type) ?_ ?_
    · rintro used _ ⟨meters, answer, spent, rfl, rfl⟩
      refine alone_except (fun response given => ?_) fun error refused => ?_
      · have answered : Used host clock request data (.ok response) meters := given ▸ spent
        cases used with
        | consumed meter entry => exact alone_capture ticking (alone_pure ⟨meters, answered, rfl⟩)
        | _ => exact alone_pure ⟨meters, answered, rfl⟩
      · exact ⟨meters, refused ▸ spent, rfl⟩
    · rintro error _ ⟨meters, answer, spent, rfl, rfl⟩
      exact ⟨meters, spent, rfl⟩
  · have differs : data.license.type ≠ .metered := type
    rw [if_pos differs]
    exact alone_throw ⟨data.meters, .other type, (setLicense_self present).symm⟩

theorem consume_alone {input : ConsumeUsageInput} (ticking : ∃ now, clock now)
    (known : world.tables.rowKeys ⊆ used) (tables : TablesSound world) (sessions : SessionsSound world) :
    Alone call clock used (LicenseService.consume host sessionToken deviceId ip input) world
      (ConsumeEnds host clock sessionToken deviceId ip input world) := by
  refine alone_except (fun binding bound => ?_) fun error invalid => .unbound invalid
  refine alone_caught (ConsumeEnds host clock sessionToken deviceId ip input world) ?_ (fun _ _ holds => holds)
    fun error next holds => alone_capture ticking (alone_throw holds)
  cases valid : validateUsageInput input with
  | error error =>
      rw [LicenseService.validateAndConsume, valid]
      exact alone_throw (.invalid bound valid)
  | ok request =>
      rw [LicenseService.validateAndConsume, valid]
      change Alone call clock used (LicenseService.resolveSession host sessionToken binding >>= fun license =>
        LicenseService.consumeUnits host license.toLicense request) world _
      refine alone_then _ (resolveSession_alone ticking tables sessions) ?_ ?_
      · rintro license next ⟨checked, ends, passed⟩
        cases checked with
        | error error => cases passed
        | ok data =>
            cases passed
            have still : next.tables.rowKeys ⊆ used := sessionEnds_tables ends ▸ known
            refine alone_weaken (consumeUnits_alone ticking still (sessionEnds_present tables ends)) ?_
            rintro result _ ⟨meters, used, rfl⟩
            exact .used bound valid ends used
      · rintro error next ⟨checked, ends, refused⟩
        cases checked with
        | error refusal =>
            cases refused
            exact .rejected bound valid ends
        | ok data => cases refused

end Calls

end Keyzori
