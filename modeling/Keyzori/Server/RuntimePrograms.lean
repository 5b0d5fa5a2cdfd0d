import Keyzori.Server.ProgramRules

namespace Keyzori

open Interleaving

variable {host : Host} {request : Request} {trace after : ServerTrace} {α β : Type}

def Act.inert : Act → Bool
  | findByKeyHash _ | commit _ _ _ | registerSession _ _ _ _ => false
  | _ => true

theorem quiet_inert (act : Act) (quiet : act.quiet = true) : act.inert = true := by
  cases act <;> first | rfl | cases quiet

section Outcomes

variable (host request) in
/-- The end of an activation that commits, with the token it reserved. -/
def Admitted (trace : ServerTrace) (sessionToken : String) : Prop :=
  ∃ before after binding license row started registered rows,
    trace = before ++ ⟨.commit row.id none (started ++ registered), .ok rows⟩ :: after ∧
    Admitting host request before binding license row ∧ StartsTrial before row started ∧
    Registers before binding license row registered ∧
    (∀ id sessionRevision bindingHash maxSessions token,
      Took trace (.registerSession id sessionRevision bindingHash maxSessions) (.registered token) →
        token = sessionToken) ∧
    Took before (.registerSession row.id row.sessionRevision (host.hashBinding binding) row.maxSessions)
      (.registered sessionToken)

/-- The end of an activation that fails: it committed nothing, and tried to end
each session that it reserved. -/
def Refused (trace : ServerTrace) : Prop :=
  Uncommitted trace ∧ ∀ id sessionRevision bindingHash maxSessions token,
    Took trace (.registerSession id sessionRevision bindingHash maxSessions) (.registered token) →
      ∃ result, InOrder trace
        ⟨.registerSession id sessionRevision bindingHash maxSessions, .ok (.registered token)⟩
        ⟨.removeSession token bindingHash, result⟩

def Accepted (trace : ServerTrace) (sessionToken : String) : Prop :=
  ∃ before after resolved bindingHash id first license,
    Took before (.refreshSession sessionToken bindingHash) (some resolved) ∧
    LicenseService.sessionLicenseId resolved = some id ∧ Took before (.findLicense id) (some first) ∧
    trace = before ++ ⟨.findLicense first.id, .ok (some license)⟩ :: after ∧
    license.sessionRevision = resolved.sessionRevision ∧
    ∀ deed ∈ after, ∀ other, deed.act ≠ .findLicense other

end Outcomes

section Activation

variable {binding : SessionBinding} {license : License} {row : StoredLicense}
  {existing : Option RegisteredDevice} {sessionToken : String}

theorem lookedUp_along (along : Along Act.inert trace after)
    (lookup : LookedUp host request trace binding license) :
    LookedUp host request after binding license := by
  obtain ⟨⟨licenseKey, deviceId, ip, asked, bound, found⟩, once, keyHash, rest, shape⟩ := lookup
  refine ⟨⟨licenseKey, deviceId, ip, asked, bound, took_along along found⟩,
    fun keyHash other took => once keyHash other (along_took along rfl took), keyHash, ?_⟩
  obtain ⟨deeds, -, rfl⟩ := along
  exact ⟨rest ++ deeds, by rw [shape]; rfl⟩

def Fresh (trace : ServerTrace) : Prop :=
  Uncommitted trace ∧ ∀ id sessionRevision bindingHash maxSessions token,
    ¬Took trace (.registerSession id sessionRevision bindingHash maxSessions) (.registered token)

theorem fresh_along (along : Along Act.inert trace after) (fresh : Fresh trace) : Fresh after :=
  ⟨fun id expected writes rows took => fresh.1 id expected writes rows (along_took along rfl took),
    fun id sessionRevision bindingHash maxSessions token took =>
      fresh.2 id sessionRevision bindingHash maxSessions token (along_took along rfl took)⟩

theorem fresh_refused (fresh : Fresh trace) : Refused trace :=
  ⟨fresh.1, fun id sessionRevision bindingHash maxSessions token took =>
    absurd took (fresh.2 id sessionRevision bindingHash maxSessions token)⟩

theorem surveyed_onward (onward : Onward trace after)
    (surveyed : Surveyed trace binding license row existing) :
    Surveyed after binding license row existing := by
  cases surveyed with
  | known device found => exact .known device (under_onward onward found)
  | new usage current absent counts ip deviceId columns limits =>
      exact .new usage current (under_onward onward absent) (under_onward onward counts)
        (under_onward onward ip) (under_onward onward deviceId) columns limits

/-- What the registration transaction has established before it reserves a session. -/
structure Checked (host : Host) (request : Request) (trace : ServerTrace) (binding : SessionBinding)
    (license : License) (row : StoredLicense) (existing : Option RegisteredDevice) : Prop where
  admitting : Admitting host request trace binding license row
  surveyed : Surveyed trace binding license row existing

theorem getLicenseDeviceUsage_meets {id : LicenseId} (same : id = row.id)
    (held : Holding trace (.registration license.id)) :
    Meets host request (DeviceRepository.getLicenseDeviceUsage id binding) trace
      fun result after => Quietly trace after ∧ ∀ usage, result = .ok usage →
        Registered after license row (fun devices => (countDistinct (devices.map RegisteredDevice.ip),
          countDistinct (devices.map RegisteredDevice.deviceId)))
          (usage.uniqueIps, usage.uniqueDevices) ∧
        Registered after license row (fun devices => devices.any fun device =>
          device.ip = binding.ip) usage.ipRegistered ∧
        Registered after license row (fun devices => devices.any fun device =>
          device.deviceId = binding.deviceId) usage.deviceRegistered := by
  subst same
  refine meets_look rfl (fun counts first one _ counted => ?_)
    (fun _ _ quietly => ⟨quietly, fun _ same => by cases same⟩)
  refine meets_look rfl (fun ip second two _ ipRegistered => ?_)
    (fun _ _ quietly => ⟨along_trans one quietly, fun _ same => by cases same⟩)
  refine meets_look rfl (fun device third three _ deviceRegistered => ?_)
    (fun _ _ quietly => ⟨along_trans one (along_trans two quietly), fun _ same => by cases same⟩)
  refine ⟨along_trans one (along_trans two three), fun usage same => ?_⟩
  cases same
  refine ⟨under_quietly (along_trans two three) (counted _ held),
    under_quietly three (ipRegistered _ (holding_quietly one held)), ?_⟩
  exact deviceRegistered _ (holding_quietly (along_trans one two) held)

theorem checkRegistration_meets {current : License}
    (held : Holding trace (.registration license.id))
    (columns : current.toLicenseColumns = row.toLicenseColumns)
    (found : Registered trace license row (fun devices => devices.find? fun device =>
      device.ip = binding.ip && device.deviceId = binding.deviceId) existing) :
    Meets host request (LicenseService.checkRegistration current binding existing) trace
      fun result after => Quietly trace after ∧
        (result = .ok () → Surveyed after binding license row existing) := by
  cases existing with
  | some device => exact ⟨along_refl, fun _ => .known device found⟩
  | none =>
      refine meets_bind _ (getLicenseDeviceUsage_meets (congrArg LicenseColumns.id columns) held) ?_
        (fun _ _ holds => ⟨holds.1, fun same => by cases same⟩)
      rintro usage after ⟨quietly, read⟩
      obtain ⟨counts, ip, device⟩ := read usage rfl
      refine ⟨quietly, fun limits => ?_⟩
      exact .new usage current (under_quietly quietly found) counts ip device columns limits

theorem withAllowlists_meets {found : License} :
    Meets host request (LicenseRepository.withAllowlists found) trace fun result after =>
      Quietly trace after ∧ ∀ policy, result = .ok policy → policy.toLicense = found := by
  refine meets_look rfl (fun allowedIps first one _ _ => ?_)
    (fun _ _ quietly => ⟨quietly, fun _ same => by cases same⟩)
  refine meets_look rfl (fun allowedDevices second two _ _ => ?_)
    (fun _ _ quietly => ⟨along_trans one quietly, fun _ same => by cases same⟩)
  refine ⟨along_trans one two, fun policy same => ?_⟩
  cases same
  rfl

theorem findLicenseAdmissionPolicy_meets (held : Holding trace (.registration license.id)) :
    Meets host request (DeviceRepository.findLicenseAdmissionPolicy license.id) trace
      fun result after => Along Act.inert trace after ∧ ∀ policy, result = .ok (some policy) →
        Holding after (.registration license.id) ∧ ∃ row,
          policy.toLicenseColumns = row.toLicenseColumns ∧
            Under after (.registration license.id) (.lockRow license.id) (some row) := by
  refine meets_act True.intro (fun row => ?_)
    (fun _ => ⟨along_step along_refl rfl _, fun _ same => by cases same⟩)
  cases row with
  | none =>
      refine ⟨along_step along_refl rfl _, fun _ same => ?_⟩
      cases same
  | some row =>
      have under : Under (trace ++ [⟨.lockRow license.id, .ok (some row)⟩]) (.registration license.id)
          (.lockRow license.id) (some row) := under_append.mpr ⟨rfl, .inr ⟨held, rfl⟩⟩
      have holds : Holding (trace ++ [⟨.lockRow license.id, .ok (some row)⟩])
          (.registration license.id) := holding_append.mpr ⟨rfl, .inl held⟩
      have step : Along Act.inert trace (trace ++ [⟨.lockRow license.id, .ok (some row)⟩]) :=
        along_step along_refl rfl _
      refine meets_look rfl (fun billingRevokedAt first one _ _ => ?_)
        (fun _ _ quietly => ⟨along_trans step (along_mono quietly quiet_inert), fun _ same => by cases same⟩)
      refine meets_bind _ withAllowlists_meets ?_ (fun _ _ ended =>
        ⟨along_trans step (along_mono (along_trans one ended.1) quiet_inert), fun _ same => by cases same⟩)
      rintro policy second ⟨two, same⟩
      refine ⟨along_trans step (along_mono (along_trans one two) quiet_inert), fun other returned => ?_⟩
      cases returned
      refine ⟨holding_quietly (along_trans one two) holds, row, ?_, under_quietly (along_trans one two) under⟩
      rw [same policy rfl]
      rfl

theorem unchangedSince_ok {policy : Option LicenseWithAllowlists} {current : LicenseWithAllowlists}
    (unchanged : LicenseService.unchangedSince license policy = .ok current) :
    policy = some current ∧ current.sessionRevision = license.sessionRevision := by
  cases policy with
  | none => cases unchanged
  | some policy =>
      simp only [LicenseService.unchangedSince] at unchanged
      split at unchanged
      · cases unchanged
      · next same =>
        cases unchanged
        exact ⟨rfl, not_not.mp same⟩

theorem admissionPolicy_meets (lookup : LookedUp host request trace binding license) :
    Meets host request (LicenseService.admissionPolicy license binding) trace fun result after =>
      Along Act.inert trace after ∧ ∀ current existing, result = .ok (current, existing) → ∃ row,
        current.toLicenseColumns = row.toLicenseColumns ∧
          Checked host request after binding license row existing := by
  have failed : ∀ {error : Failure} {after : ServerTrace}, Along Act.inert trace after →
      Along Act.inert trace after ∧ ∀ current existing,
        (Except.error error : Except Failure (LicenseWithAllowlists × Option RegisteredDevice)) =
          .ok (current, existing) → ∃ row, current.toLicenseColumns = row.toLicenseColumns ∧
            Checked host request after binding license row existing :=
    fun along => ⟨along, fun _ _ same => by cases same⟩
  refine meets_act True.intro (fun _ => ?_) (fun _ => failed (along_step along_refl rfl _))
  have begun : Along Act.inert trace (trace ++ [⟨.lock (.registration license.id), .ok ()⟩]) :=
    along_step along_refl rfl _
  refine meets_bind _ (findLicenseAdmissionPolicy_meets (holding_append.mpr ⟨rfl, .inr rfl⟩)) ?_
    (fun _ _ ended => failed (along_trans begun ended.1))
  rintro policy locked ⟨along, read⟩
  have sofar := along_trans begun along
  refine meets_except (fun current unchanged => ?_) (fun _ _ => failed sofar)
  obtain ⟨rfl, revision⟩ := unchangedSince_ok unchanged
  obtain ⟨held, row, columns, policy⟩ := read current rfl
  have admitting : Admitting host request locked binding license row :=
    ⟨lookedUp_along sofar lookup, policy, (congrArg LicenseColumns.sessionRevision columns).symm.trans revision⟩
  have id : current.id = row.id := congrArg LicenseColumns.id columns
  have quiet : Quiet (assertActive current.toLicense) :=
    quiet_act rfl fun now => by
      cases statusError (deriveLicenseStatus current.toLicense now.now) <;> trivial
  refine meets_quiet quiet (fun _ active one => ?_)
    (fun _ _ quietly => failed (along_trans sofar (along_mono quietly quiet_inert)))
  refine meets_except (fun _ _ => ?_) (fun _ _ => failed (along_trans sofar (along_mono one quiet_inert)))
  refine meets_look rfl (fun existing found two _ seen => ?_)
    (fun _ _ quietly => failed (along_trans sofar (along_mono (along_trans one quietly) quiet_inert)))
  have registered := seen _ (holding_quietly one held)
  rw [id] at registered
  refine meets_bind _ (checkRegistration_meets (holding_quietly (along_trans one two) held) columns registered)
    ?_ (fun _ _ ended => failed (along_trans sofar
      (along_mono (along_trans one (along_trans two ended.1)) quiet_inert)))
  rintro _ checked ⟨three, surveyed⟩
  have whole := along_trans one (along_trans two three)
  refine ⟨along_trans sofar (along_mono whole quiet_inert), fun other device same => ?_⟩
  cases same
  refine ⟨row, columns, ⟨?_, under_quietly whole policy, admitting.revision⟩, surveyed rfl⟩
  exact lookedUp_along (along_mono whole quiet_inert) admitting.lookup

structure Reserved (host : Host) (request : Request) (trace : ServerTrace) (binding : SessionBinding)
    (license : License) (row : StoredLicense) (existing : Option RegisteredDevice)
    (sessionToken : String) : Prop where
  checked : Checked host request trace binding license row existing
  uncommitted : Uncommitted trace
  reserved : Took trace (.registerSession row.id row.sessionRevision (host.hashBinding binding)
    row.maxSessions) (.registered sessionToken)
  only : ∀ id sessionRevision bindingHash maxSessions token,
    Took trace (.registerSession id sessionRevision bindingHash maxSessions) (.registered token) →
      token = sessionToken ∧ bindingHash = host.hashBinding binding ∧ id = row.id ∧
        sessionRevision = row.sessionRevision ∧ maxSessions = row.maxSessions

theorem checked_onward (onward : Onward trace after) (along : Along Act.inert trace after)
    (checked : Checked host request trace binding license row existing) :
    Checked host request after binding license row existing :=
  ⟨⟨lookedUp_along along checked.admitting.lookup, under_onward onward checked.admitting.policy,
    checked.admitting.revision⟩, surveyed_onward onward checked.surveyed⟩

theorem reserved_onward (onward : Onward trace after) (along : Along Act.inert trace after)
    (reserved : Reserved host request trace binding license row existing sessionToken) :
    Reserved host request after binding license row existing sessionToken :=
  ⟨checked_onward onward along reserved.checked,
    fun id expected writes rows took => reserved.uncommitted id expected writes rows (along_took along rfl took),
    took_along along reserved.reserved,
    fun id sessionRevision bindingHash maxSessions token took =>
      reserved.only id sessionRevision bindingHash maxSessions token (along_took along rfl took)⟩

theorem reserveSession_meets {current : License} (fresh : Fresh trace)
    (columns : current.toLicenseColumns = row.toLicenseColumns)
    (checked : Checked host request trace binding license row existing) :
    Meets host request (LicenseService.reserveSession host current binding) trace fun result after =>
      match result with
      | .ok token => Reserved host request after binding license row existing token
      | .error _ => Fresh after := by
  have same : current.id = row.id ∧ current.sessionRevision = row.sessionRevision ∧
      current.maxSessions = row.maxSessions :=
    ⟨congrArg LicenseColumns.id columns, congrArg LicenseColumns.sessionRevision columns,
      congrArg LicenseColumns.maxSessions columns⟩
  obtain ⟨id, revision, maxSessions⟩ := same
  rw [LicenseService.reserveSession, id, revision, maxSessions]
  -- A reservation that gave no token is as good as none.
  have missed : ∀ result : Except Failure SessionRegistrationResult,
      (∀ token, result ≠ .ok (.registered token)) → Fresh (trace ++ [⟨.registerSession row.id
        row.sessionRevision (host.hashBinding binding) row.maxSessions, result⟩]) := by
    intro result none
    refine ⟨fun id expected writes rows took => ?_, fun id sessionRevision bindingHash max token took => ?_⟩
    · rcases took_append.mp took with old | new
      · exact fresh.1 id expected writes rows old
      · cases new
    · rcases took_append.mp took with old | new
      · exact fresh.2 id sessionRevision bindingHash max token old
      · cases new
        exact none token rfl
  refine meets_act ⟨binding, license, row, checked.admitting, rfl, rfl, rfl, rfl⟩ (fun result => ?_)
    (fun _ => missed _ fun _ same => by cases same)
  cases result with
  | limitReached => exact missed _ fun _ same => by cases same
  | registered token =>
      have along : LookedUp host request (trace ++ [⟨.registerSession row.id row.sessionRevision
          (host.hashBinding binding) row.maxSessions, .ok (.registered token)⟩]) binding license := by
        obtain ⟨⟨licenseKey, deviceId, ip, asked, bound, found⟩, once, hash, rest, shape⟩ :=
          checked.admitting.lookup
        refine ⟨⟨licenseKey, deviceId, ip, asked, bound, took_append.mpr (.inl found)⟩, ?_, hash,
          rest ++ [_], by rw [shape]; rfl⟩
        intro keyHash other took
        rcases took_append.mp took with old | new
        · exact once keyHash other old
        · cases new
      have onward : Onward trace (trace ++ [⟨.registerSession row.id row.sessionRevision
          (host.hashBinding binding) row.maxSessions, .ok (.registered token)⟩]) :=
        along_step along_refl rfl _
      refine ⟨⟨⟨along, under_onward onward checked.admitting.policy, checked.admitting.revision⟩,
        surveyed_onward onward checked.surveyed⟩, ?_, took_append.mpr (.inr rfl), ?_⟩
      · intro id expected writes rows took
        rcases took_append.mp took with old | new
        · exact fresh.1 id expected writes rows old
        · cases new
      · intro id sessionRevision bindingHash max other took
        rcases took_append.mp took with old | new
        · exact absurd old (fresh.2 id sessionRevision bindingHash max other)
        · cases new
          exact ⟨rfl, rfl, rfl, rfl, rfl⟩

theorem startTrial_meets {current : LicenseWithAllowlists}
    (columns : current.toLicenseColumns = row.toLicenseColumns) :
    Meets host request (LicenseService.startTrial current) trace fun result after =>
      Onward trace after ∧ Along Act.inert trace after ∧ ∀ admitted writes, result = .ok (admitted, writes) →
        admitted.id = row.id ∧ StartsTrial after row writes := by
  have type : current.type = row.type := congrArg LicenseColumns.type columns
  have started : current.trialStartedAt = row.trialStartedAt :=
    congrArg LicenseColumns.trialStartedAt columns
  have id : current.id = row.id := congrArg LicenseColumns.id columns
  rw [LicenseService.startTrial, type, started, id]
  split
  · next unset =>
    refine meets_look rfl (fun now first quietly drawn _ => ?_) (fun _ _ quietly =>
      ⟨quietly_onward quietly, along_mono quietly quiet_inert, fun _ _ same => by cases same⟩)
    have onward := quietly_onward quietly
    have inert := along_mono quietly quiet_inert
    refine meets_bind (fun result after => (Onward trace after ∧ Along Act.inert trace after) ∧
      Took after .draw now ∧ ∀ startedAt writes, result = .ok (some startedAt, writes) →
        writes = [.startTrial now.now]) ?_ ?_
      (fun _ _ ended => ⟨ended.1.1, ended.1.2, fun _ _ same => by cases same⟩)
    · refine meets_act True.intro (fun found => ?_) (fun _ => ⟨⟨along_step onward rfl _,
        along_step inert rfl _⟩, took_append.mpr (.inl drawn), fun _ _ same => by cases same⟩)
      cases found with
      | none => exact ⟨⟨along_step onward rfl _, along_step inert rfl _⟩, took_append.mpr (.inl drawn),
          fun _ _ same => by cases same⟩
      | some found =>
          dsimp only
          split
          · refine ⟨⟨along_step onward rfl _, along_step inert rfl _⟩, took_append.mpr (.inl drawn), ?_⟩
            intro startedAt writes same
            cases same
            rfl
          · exact ⟨⟨along_step onward rfl _, along_step inert rfl _⟩, took_append.mpr (.inl drawn),
              fun _ _ same => by cases same⟩
    · rintro ⟨startedAt, writes⟩ after ⟨⟨onward, inert⟩, drawn, exact⟩
      cases startedAt with
      | none => exact ⟨onward, inert, fun _ _ same => by cases same⟩
      | some startedAt =>
          refine ⟨onward, inert, fun admitted others same => ?_⟩
          cases same
          refine ⟨rfl, ?_⟩
          rw [exact startedAt writes rfl]
          exact .first now unset.1 unset.2 drawn
  · next running =>
    refine ⟨along_refl, along_refl, fun admitted writes same => ?_⟩
    cases same
    exact ⟨id, .running running⟩

theorem startsTrial_along {kind : Act → Bool} {started : List Write} (along : Along kind trace after)
    (starts : StartsTrial trace row started) : StartsTrial after row started := by
  cases starts with
  | running other => exact .running other
  | first now type unset drawn => exact .first now type unset (took_along along drawn)

theorem admissionWrites_meets {current : LicenseWithAllowlists}
    (columns : current.toLicenseColumns = row.toLicenseColumns)
    (reserved : Reserved host request trace binding license row existing sessionToken) :
    Meets host request (LicenseService.admissionWrites current binding existing) trace
      fun result after => Along Act.inert trace after ∧ ∀ admitted writes, result = .ok (admitted, writes) →
        Reserved host request after binding license row existing sessionToken ∧ admitted.id = row.id ∧
          ∃ started registered, writes = started ++ registered ∧ StartsTrial after row started ∧
            Registers after binding license row registered := by
  have id : current.id = row.id := congrArg LicenseColumns.id columns
  refine meets_bind _ (startTrial_meets columns) ?_
    (fun _ _ ended => ⟨ended.2.1, fun _ _ same => by cases same⟩)
  rintro ⟨admitted, started⟩ first ⟨onward, inert, starts⟩
  obtain ⟨same, starts⟩ := starts admitted started rfl
  have still := reserved_onward onward inert reserved
  rw [id]
  cases existing with
  | some device =>
      refine ⟨inert, fun other writes returned => ?_⟩
      cases returned
      exact ⟨still, same, started, [], rfl, starts, .known device still.checked.surveyed⟩
  | none =>
      refine meets_bind (fun result after => Quietly first after ∧ ∀ writes, result = .ok writes → ∃ now : Draw,
        writes = [.insertDevice ⟨now.uuid 0, row.id, binding.ip, binding.deviceId, now.now, now.now⟩])
        ?_ ?_ (fun _ _ ended => ⟨along_trans inert (along_mono ended.1 quiet_inert),
          fun _ _ same => by cases same⟩)
      · refine meets_look rfl (fun now second quietly _ _ => ?_)
          (fun _ _ quietly => ⟨quietly, fun _ same => by cases same⟩)
        refine meets_look rfl (fun _ third calm _ _ => ?_)
          (fun _ _ calm => ⟨along_trans quietly calm, fun _ same => by cases same⟩)
        refine ⟨along_trans quietly calm, fun writes returned => ?_⟩
        cases returned
        exact ⟨now, rfl⟩
      · rintro registered second ⟨quietly, made⟩
        obtain ⟨now, rfl⟩ := made registered rfl
        have later := reserved_onward (quietly_onward quietly) (along_mono quietly quiet_inert) still
        refine ⟨along_trans inert (along_mono quietly quiet_inert), fun other writes returned => ?_⟩
        cases returned
        exact ⟨later, same, started, _, rfl, startsTrial_along quietly starts,
          .new now later.checked.surveyed⟩

/-- The first acts after the commit of an admission, and those of a heartbeat
after its checks: no reservation and no read of the license. -/
def Act.aside : Act → Bool
  | registerSession _ _ _ _ | findLicense _ => false
  | _ => true

theorem activates_session (asked : request.activates = true) : request.usesSession = true := by
  cases request <;> first | rfl | cases asked

theorem touchBestEffort_meets {id : LicenseId} (asked : request.usesSession = true)
    (admitted : request.activates = true → ¬Uncommitted trace) :
    Meets host request (LicenseService.touchBestEffort id binding) trace fun result after =>
      result = .ok () ∧ Along Act.aside trace after := by
  refine Prog.wp_tryCatch (fun result after => (∀ value, result = .ok value → value = ()) ∧
    Along Act.aside trace after) ?_ (fun _ _ holds => ⟨rfl, holds.2⟩) (fun _ _ holds => ⟨rfl, holds.2⟩)
  have still : ∀ deeds, request.activates = true → ¬Uncommitted (trace ++ deeds) := fun deeds activates none =>
    admitted activates fun id expected writes rows took =>
      none id expected writes rows (List.mem_append_left deeds took)
  refine meets_act True.intro (fun found => ?_) (fun _ => ⟨fun _ _ => rfl, along_step along_refl rfl _⟩)
  have start : Along Act.aside trace trace := along_refl
  have read := @along_step _ _ _ start (.query fun tables =>
    (tables.devices id).find? fun device => device.ip = binding.ip && device.deviceId = binding.deviceId)
    rfl
  cases found with
  | none => exact ⟨fun _ _ => rfl, read _⟩
  | some device =>
      refine meets_act True.intro (fun now => ?_) (fun _ => ⟨fun _ _ => rfl, along_step (read _) rfl _⟩)
      refine meets_act (.touched id device.id now.now asked ?_) (fun _ => ?_)
        (fun _ => ⟨fun _ _ => rfl, along_step (along_step (read _) rfl _) rfl _⟩)
      · simpa using still [_, _]
      · exact ⟨fun _ _ => rfl, along_step (along_step (read _) rfl _) rfl _⟩

theorem admitted_along (along : Along Act.aside trace after)
    (admitted : Admitted host request trace sessionToken) : Admitted host request after sessionToken := by
  obtain ⟨before, middle, binding, license, row, started, registered, rows, shape, admitting, starts,
    registers, only, reserved⟩ := admitted
  have took : ∀ {act : Act} {value : act.Val}, act.aside = false → Took after act value →
      Took trace act value := fun other => along_took along other
  obtain ⟨deeds, -, rfl⟩ := along
  refine ⟨before, middle ++ deeds, binding, license, row, started, registered, rows, ?_, admitting,
    starts, registers, ?_, reserved⟩
  · rw [shape]
    simp
  · exact fun id sessionRevision bindingHash maxSessions token issued =>
      only id sessionRevision bindingHash maxSessions token (took rfl issued)

theorem refused_along (along : Quietly trace after) (refused : Refused trace) : Refused after := by
  have inert := along_mono along quiet_inert
  refine ⟨fun id expected writes rows took => refused.1 id expected writes rows (along_took inert rfl took), ?_⟩
  intro id sessionRevision bindingHash maxSessions token took
  obtain ⟨result, ordered⟩ := refused.2 id sessionRevision bindingHash maxSessions token
    (along_took inert rfl took)
  obtain ⟨deeds, -, rfl⟩ := along
  exact ⟨result, inOrder_prefix ordered (List.prefix_append _ _)⟩

theorem reserved_refused {result : Except Failure (Option ResolvedSession)} (uncommitted : Uncommitted trace)
    (only : ∀ id sessionRevision bindingHash maxSessions token,
      Took trace (.registerSession id sessionRevision bindingHash maxSessions) (.registered token) →
        token = sessionToken ∧ bindingHash = host.hashBinding binding) :
    Refused (trace ++ [⟨.removeSession sessionToken (host.hashBinding binding), result⟩]) := by
  refine ⟨fun id expected writes rows took => ?_, fun id sessionRevision bindingHash max token took => ?_⟩
  · rcases took_append.mp took with old | new
    · exact uncommitted id expected writes rows old
    · cases new
  · rcases took_append.mp took with old | new
    · obtain ⟨rfl, rfl⟩ := only id sessionRevision bindingHash max token old
      exact ⟨result, inOrder_append.mpr (.inr ⟨old, rfl⟩)⟩
    · cases new

theorem commitAdmission_meets {current : LicenseWithAllowlists}
    (columns : current.toLicenseColumns = row.toLicenseColumns)
    (reserved : Reserved host request trace binding license row existing sessionToken) :
    Meets host request (LicenseService.commitAdmission current binding existing) trace
      fun result after => match result with
        | .ok _ => Admitted host request after sessionToken
        | .error _ => Uncommitted after ∧ ∀ id sessionRevision bindingHash maxSessions token,
            Took after (.registerSession id sessionRevision bindingHash maxSessions) (.registered token) →
              token = sessionToken ∧ bindingHash = host.hashBinding binding := by
  have id : current.id = row.id := congrArg LicenseColumns.id columns
  have failed : ∀ after, Along Act.inert trace after → Uncommitted after ∧
      ∀ id sessionRevision bindingHash maxSessions token,
        Took after (.registerSession id sessionRevision bindingHash maxSessions) (.registered token) →
          token = sessionToken ∧ bindingHash = host.hashBinding binding := by
    refine fun after along => ⟨fun id expected writes rows took => ?_, fun id rev hash max token took => ?_⟩
    · exact reserved.uncommitted id expected writes rows (along_took along rfl took)
    · obtain ⟨same, hash, -⟩ := reserved.only id rev hash max token (along_took along rfl took)
      exact ⟨same, hash⟩
  refine meets_bind (fun result after => Along Act.inert trace after ∧
    ∀ admitted writes, result = .ok (admitted, writes) →
      Reserved host request after binding license row existing sessionToken ∧ admitted.id = row.id ∧
        ∃ started registered, writes = started ++ registered ∧ StartsTrial after row started ∧
          Registers after binding license row registered) ?_ ?_ (fun _ after ended => failed after ended.1)
  · refine meets_orRollback _ (admissionWrites_meets columns reserved) (fun _ _ holds => holds) ?_
    exact fun _ _ _ _ ended => ⟨along_step ended.1 rfl _, fun _ _ same => by cases same⟩
  · rintro ⟨admitted, writes⟩ before ⟨along, ready⟩
    obtain ⟨still, same, started, registered, rfl, starts, registers⟩ := ready admitted writes rfl
    rw [id]
    refine meets_act (.admitted binding license row started registered still.checked.admitting starts
      registers) (fun rows => ?_) (fun error => ?_)
    · refine ⟨before, [], binding, license, row, started, registered, rows, rfl, still.checked.admitting,
        starts, registers, fun id rev hash max token took => ?_, still.reserved⟩
      rcases took_append.mp took with old | new
      · exact (still.only id rev hash max token old).1
      · cases new
    · obtain ⟨uncommitted, only⟩ := failed before along
      refine ⟨fun id expected writes rows took => ?_, fun id rev hash max token took => ?_⟩
      · rcases took_append.mp took with old | new
        · exact uncommitted id expected writes rows old
        · cases new
      · rcases took_append.mp took with old | new
        · exact only id rev hash max token old
        · cases new

def ActivationEnds (host : Host) (request : Request) (token : α → String) (result : Except Failure α)
    (after : ServerTrace) : Prop :=
  match result with
  | .ok value => Admitted host request after (token value)
  | .error _ => Refused after

theorem removeSessionBestEffort_meets
    (held : warrant host request trace (.removeSession sessionToken (host.hashBinding binding)))
    {rest : Unit → Server β} {post : Except Failure β → ServerTrace → Prop}
    (returned : ∀ result, Meets host request (rest ())
      (trace ++ [⟨.removeSession sessionToken (host.hashBinding binding), result⟩]) post) :
    Meets host request (LicenseService.removeSessionBestEffort host sessionToken binding >>= rest) trace post := by
  refine meets_bind (fun result after => result = .ok () ∧ ∃ result,
    after = trace ++ [⟨.removeSession sessionToken (host.hashBinding binding), result⟩]) ?_ ?_ ?_
  · refine Prog.wp_tryCatch (fun result after => ∃ result,
      after = trace ++ [⟨.removeSession sessionToken (host.hashBinding binding), result⟩]) ?_
      (fun _ _ removed => ⟨rfl, removed⟩) (fun _ _ removed => ⟨rfl, removed⟩)
    exact meets_act held (fun _ => ⟨_, rfl⟩) (fun _ => ⟨_, rfl⟩)
  · rintro _ _ ⟨-, result, rfl⟩
    exact returned result
  · rintro error _ ⟨thrown, -⟩
    cases thrown

theorem admitActivation_meets (asked : request.activates = true) (fresh : Fresh trace)
    (lookup : LookedUp host request trace binding license) :
    Meets host request (LicenseService.admitActivation host license binding) trace
      (ActivationEnds host request Prod.snd) := by
  refine meets_bind (fun result after => Along Act.inert trace after ∧ ∀ current existing,
    result = .ok (current, existing) → ∃ row, current.toLicenseColumns = row.toLicenseColumns ∧
      Checked host request after binding license row existing) ?_ ?_
    (fun _ _ ended => fresh_refused (fresh_along ended.1 fresh))
  · refine meets_orRollback _ (admissionPolicy_meets lookup) (fun _ _ holds => holds) ?_
    exact fun _ _ _ _ ended => ⟨along_step ended.1 rfl _, fun _ _ same => by cases same⟩
  rintro ⟨current, existing⟩ first ⟨along, ready⟩
  obtain ⟨row, columns, checked⟩ := ready current existing rfl
  refine meets_bind (fun result after => match result with
    | .ok token => Reserved host request after binding license row existing token
    | .error _ => Fresh after) ?_ ?_ (fun _ _ ended => fresh_refused ended)
  · refine meets_orRollback _ (reserveSession_meets (fresh_along along fresh) columns checked)
      (fun _ _ holds => holds) ?_
    exact fun _ _ _ _ ended => fresh_along (along_step along_refl rfl _) ended
  intro sessionToken second reserved
  refine meets_bind (fun result after => match result with
    | .ok _ => Admitted host request after sessionToken
    | .error _ => Refused after) ?_ ?_ (fun _ _ ended => ended)
  · refine Prog.wp_tryCatch _ (Prog.wp_grows (commitAdmission_meets columns reserved))
      (fun _ _ holds => holds.1) ?_
    rintro error third ⟨⟨uncommitted, only⟩, grown⟩
    refine removeSessionBestEffort_meets ?_ (fun result => reserved_refused uncommitted only)
    exact .reserved row.id row.sessionRevision _ row.maxSessions sessionToken asked
      (grown.subset reserved.reserved)
  · intro admitted third committed
    have done : ¬Uncommitted third := by
      obtain ⟨before, after, binding, license, row, started, registered, rows, rfl, -⟩ := committed
      exact fun uncommitted => uncommitted row.id none (started ++ registered) rows (by simp [Took])
    refine meets_bind _ (touchBestEffort_meets (activates_session asked) fun _ => done) ?_ ?_
    · rintro _ fourth ⟨-, aside⟩
      exact admitted_along aside committed
    · rintro error _ ⟨thrown, -⟩
      cases thrown

theorem findByLicenseKeyWithAllowlists_meets {licenseKey : String} :
    Meets host request (LicenseRepository.findByLicenseKeyWithAllowlists host licenseKey) [] fun result after =>
      ∃ outcome, Quietly [⟨.findByKeyHash (host.hashLicenseKey licenseKey), outcome⟩] after ∧
        ∀ found, result = .ok (some found) → outcome = .ok (some found.toLicense) := by
  refine meets_act True.intro (fun found => ?_) (fun error => ⟨_, along_refl, fun _ same => by cases same⟩)
  cases found with
  | none =>
      refine ⟨_, along_refl, fun _ same => ?_⟩
      cases same
  | some license =>
      refine meets_bind _ withAllowlists_meets ?_
        (fun _ _ ended => ⟨.ok (some license), ended.1, fun _ same => by cases same⟩)
      rintro policy after ⟨quietly, same⟩
      refine ⟨.ok (some license), quietly, fun found returned => ?_⟩
      cases returned
      rw [same policy rfl]

theorem lookUpAndAdmit_meets {licenseKey deviceId ip : String}
    (asked : request = .activate licenseKey deviceId ip)
    (bound : sessionBinding ip deviceId = .ok binding) :
    Meets host request (LicenseService.lookUpAndAdmit host licenseKey binding) []
      (ActivationEnds host request LicenseSessionResult.sessionToken) := by
  have fresh : ∀ (outcome : Except Failure (Option License)) (after : ServerTrace),
      Quietly [⟨.findByKeyHash (host.hashLicenseKey licenseKey), outcome⟩] after → Fresh after := by
    intro outcome after quietly
    refine fresh_along (along_mono quietly quiet_inert) ⟨fun id expected writes rows took => ?_, ?_⟩
    · cases List.mem_singleton.mp took
    · intro id sessionRevision bindingHash maxSessions token took
      cases List.mem_singleton.mp took
  refine meets_bind _ findByLicenseKeyWithAllowlists_meets ?_ ?_
  · rintro found first ⟨outcome, quietly, looked⟩
    refine meets_capture fun captured => ?_
    have longer : Quietly [⟨.findByKeyHash (host.hashLicenseKey licenseKey), outcome⟩]
        (first ++ [⟨.capture "license.activation_attempted", captured⟩]) := along_step quietly rfl _
    cases found with
    | none => exact fresh_refused (fresh _ _ longer)
    | some found =>
        obtain rfl := looked found rfl
        have lookup : LookedUp host request (first ++ [⟨.capture "license.activation_attempted", captured⟩])
            binding found.toLicense := by
          refine lookedUp_along (along_mono longer quiet_inert)
            ⟨⟨licenseKey, deviceId, ip, asked, bound, List.mem_singleton.mpr rfl⟩, ?_, _, [], rfl⟩
          intro keyHash other took
          cases List.mem_singleton.mp took
          rfl
        refine meets_bind _ (admitActivation_meets (by rw [asked]; rfl) (fresh _ _ longer) lookup) ?_
          (fun _ _ refused => refused)
        rintro ⟨admitted, sessionToken⟩ second committed
        refine meets_capture fun _ => ?_
        exact admitted_along (along_step along_refl rfl _) committed
  · rintro error after ⟨outcome, quietly, -⟩
    exact fresh_refused (fresh _ _ quietly)

theorem activate_meets {licenseKey deviceId ip : String}
    (asked : request = .activate licenseKey deviceId ip) :
    Meets host request (LicenseService.activate host licenseKey deviceId ip) []
      (ActivationEnds host request LicenseSessionResult.sessionToken) := by
  refine meets_except (fun binding bound => ?_) (fun _ _ => ?_)
  · refine Prog.wp_tryCatch _ (lookUpAndAdmit_meets asked bound) (fun _ _ holds => holds) ?_
    intro error after refused
    refine meets_capture fun _ => ?_
    exact refused_along (along_step along_refl rfl _) refused
  · refine fresh_refused ⟨fun id expected writes rows took => ?_, ?_⟩
    · cases took
    · intro id sessionRevision bindingHash maxSessions token took
      cases took

end Activation

end Keyzori
