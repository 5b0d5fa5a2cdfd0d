import Keyzori.Server.Alone

namespace Keyzori

open ExpiringStore Interleaving

variable {host : Host} {call : Nat} {clock : Instant → Prop} {used : List String} {world : World} {id : LicenseId}
  {data : LicenseData} {binding : SessionBinding}

namespace LicenseData

variable (data : LicenseData) (binding : SessionBinding)

def listed : LicenseWithAllowlists := ⟨data.license, data.allowedIps, data.allowedDevices⟩

def registered : Bool :=
  data.devices.any fun device => device.ip = binding.ip && device.deviceId = binding.deviceId

def usage : LicenseDeviceUsage :=
  { uniqueIps := countDistinct (data.devices.map RegisteredDevice.ip)
    uniqueDevices := countDistinct (data.devices.map RegisteredDevice.deviceId)
    ipRegistered := data.devices.any fun device => device.ip = binding.ip
    deviceRegistered := data.devices.any fun device => device.deviceId = binding.deviceId }

def policy (now : Instant) : Except Failure Unit := do
  statusError (deriveLicenseStatus data.license now)
  assertAllowed data.listed binding

def admits (now : Instant) : Except Failure Unit := do
  data.policy binding now
  (if data.registered binding then .ok () else LicenseService.checkLimits data.license (data.usage binding))

def startsTrial : Prop := data.row.type = .trial ∧ data.row.trialStartedAt = none

instance : Decidable data.startsTrial := inferInstanceAs (Decidable (_ ∧ _))

end LicenseData

section Policy

variable {now : Instant} {error : Failure}

theorem policy_inactive (inactive : statusError (deriveLicenseStatus data.license now) = .error error) :
    data.policy binding now = .error error := by
  rw [LicenseData.policy, inactive]
  rfl

theorem policy_active (active : statusError (deriveLicenseStatus data.license now) = .ok ()) :
    data.policy binding now = assertAllowed data.listed binding := by
  rw [LicenseData.policy, active]
  rfl

theorem admits_refused (refused : data.policy binding now = .error error) :
    data.admits binding now = .error error := by
  rw [LicenseData.admits, refused]
  rfl

theorem admits_passed (passed : data.policy binding now = .ok ()) :
    data.admits binding now = if data.registered binding then .ok ()
      else LicenseService.checkLimits data.license (data.usage binding) := by
  rw [LicenseData.admits, passed]
  rfl

theorem registered_found : (data.devices.find? fun device =>
    device.ip = binding.ip && device.deviceId = binding.deviceId).isSome = data.registered binding := by
  rw [List.isSome_find?]
  rfl

end Policy

section Reads

variable {α : Type} {post : Except Failure α → World → Prop}

theorem withAllowlists_alone {license : License} (ticking : ∃ now, clock now)
    (present : world.tables.licenses license.id = some data) :
    Alone call clock used (LicenseRepository.withAllowlists license) world fun result next =>
      result = .ok ⟨license, data.allowedIps, data.allowedDevices⟩ ∧ next = world := by
  refine alone_query ticking (alone_query ticking (alone_pure ⟨?_, rfl⟩))
  simp [Tables.allowedIps, Tables.allowedDevices, present]

theorem findByLicenseKeyWithAllowlists_alone {licenseKey : String} (ticking : ∃ now, clock now)
    (sound : TablesSound world) :
    Alone call clock used (LicenseRepository.findByLicenseKeyWithAllowlists host licenseKey) world fun result next =>
      next = world ∧
        ((world.tables.findByKeyHash (host.hashLicenseKey licenseKey) = none ∧ result = .ok none) ∨
          ∃ data, world.tables.licenses data.row.id = some data ∧
            data.row.keyHash = host.hashLicenseKey licenseKey ∧ result = .ok (some data.listed)) := by
  refine alone_findByKeyHash ticking ?_
  cases found : world.tables.findByKeyHash (host.hashLicenseKey licenseKey) with
  | none => exact alone_pure ⟨rfl, .inl ⟨rfl, rfl⟩⟩
  | some license =>
      obtain ⟨id, data, present, key, rfl⟩ := findByKeyHash_some found
      obtain rfl := sound.rowId id data present
      exact alone_known (withAllowlists_alone ticking present) (alone_pure ⟨rfl, .inr ⟨data, present, key, rfl⟩⟩)

theorem findLicenseAdmissionPolicy_alone (ticking : ∃ now, clock now)
    (present : world.tables.licenses id = some data) (own : data.row.id = id) :
    Alone call clock used (DeviceRepository.findLicenseAdmissionPolicy id) world fun result next =>
      result = .ok (some data.listed) ∧ next = world := by
  refine alone_lockRow ticking present (alone_query ticking ?_)
  have linked : ((world.tables.link id).bind StripeSubscriptionLink.billingRevokedAt) =
      data.link.bind StripeSubscriptionLink.billingRevokedAt := by simp [Tables.link, present]
  rw [linked]
  have there : world.tables.licenses data.license.id = some data := by
    rw [← own] at present
    exact present
  exact alone_known (withAllowlists_alone ticking there) (alone_pure ⟨rfl, rfl⟩)

theorem findRegisteredDevice_alone (ticking : ∃ now, clock now) (present : world.tables.licenses id = some data) :
    Alone call clock used (DeviceRepository.findRegisteredDevice id binding) world fun result next =>
      result = .ok (data.devices.find? fun device => device.ip = binding.ip && device.deviceId = binding.deviceId) ∧
        next = world := by
  have known : world.tables.devices id = data.devices := by simp [Tables.devices, present]
  exact known ▸ alone_read ticking

theorem getLicenseDeviceUsage_alone (ticking : ∃ now, clock now) (present : world.tables.licenses id = some data) :
    Alone call clock used (DeviceRepository.getLicenseDeviceUsage id binding) world fun result next =>
      result = .ok (data.usage binding) ∧ next = world := by
  refine alone_query ticking (alone_query ticking (alone_query ticking (alone_pure ⟨?_, rfl⟩)))
  simp [Tables.devices, present, LicenseData.usage]

theorem assertActive_alone {license : License} (ticking : ∃ now, clock now) :
    Alone call clock used (assertActive license) world fun result next =>
      next = world ∧ ∃ now, clock now ∧ result = statusError (deriveLicenseStatus license now) :=
  alone_draw ticking fun drawn time _ => by
    cases verdict : statusError (deriveLicenseStatus license drawn.now) with
    | ok value => exact alone_pure ⟨rfl, drawn.now, time, verdict.symm⟩
    | error error => exact alone_throw ⟨rfl, drawn.now, time, verdict.symm⟩

theorem checkRegistration_alone {existing : Option RegisteredDevice} (ticking : ∃ now, clock now)
    (present : world.tables.licenses id = some data) (own : data.row.id = id) :
    Alone call clock used (LicenseService.checkRegistration data.license binding existing) world fun result next =>
      next = world ∧ result = if existing.isSome then .ok ()
        else LicenseService.checkLimits data.license (data.usage binding) := by
  cases existing with
  | some device => exact alone_pure ⟨rfl, rfl⟩
  | none =>
      refine alone_known (getLicenseDeviceUsage_alone ticking (own ▸ present)) ?_
      cases verdict : LicenseService.checkLimits data.license (data.usage binding) with
      | ok value => exact alone_pure ⟨rfl, by simp⟩
      | error error => exact alone_throw ⟨rfl, by simp⟩

theorem admissionPolicy_alone {license : License} (ticking : ∃ now, clock now)
    (present : world.tables.licenses license.id = some data) (own : data.row.id = license.id)
    (unchanged : data.row.sessionRevision = license.sessionRevision) :
    Alone call clock used (LicenseService.admissionPolicy license binding) world fun result next =>
      next = world ∧ ∃ now, clock now ∧ match data.admits binding now with
        | .ok () => ∃ existing, result = .ok (data.listed, existing) ∧ existing.isSome = data.registered binding
        | .error error => result = .error error := by
  refine alone_lock ticking (alone_known (findLicenseAdmissionPolicy_alone ticking present own) ?_)
  have same : LicenseService.unchangedSince license (some data.listed) = .ok data.listed :=
    if_neg (not_not.mpr unchanged)
  rw [same]
  refine alone_except (fun current listed => ?_) fun error other => (by cases other)
  obtain rfl := Except.ok.inj listed
  refine alone_then _ (assertActive_alone ticking) ?_ ?_
  · rintro ⟨⟩ _ ⟨rfl, now, time, active⟩
    have policy : data.policy binding now = assertAllowed data.listed binding := policy_active active.symm
    refine alone_except (fun _ allowed => ?_) fun error barred => ?_
    · refine alone_known (findRegisteredDevice_alone ticking (own ▸ present)) ?_
      refine alone_then _ (checkRegistration_alone ticking present own) ?_ ?_
      · rintro ⟨⟩ _ ⟨rfl, room⟩
        refine alone_pure ⟨rfl, now, time, ?_⟩
        rw [registered_found] at room
        rw [admits_passed (policy.trans allowed), ← room]
        exact ⟨_, rfl, registered_found⟩
      · rintro error _ ⟨rfl, full⟩
        refine ⟨rfl, now, time, ?_⟩
        rw [registered_found] at full
        rw [admits_passed (policy.trans allowed), ← full]
    · refine ⟨rfl, now, time, ?_⟩
      rw [admits_refused (policy.trans barred)]
  · rintro error _ ⟨rfl, now, time, inactive⟩
    refine ⟨rfl, now, time, ?_⟩
    rw [admits_refused (policy_inactive inactive.symm)]

end Reads

inductive AdmissionWrites (clock : Instant → Prop) (used : List String) (data : LicenseData)
    (binding : SessionBinding) : List Write → Prop
  | writes (started registered : List Write)
      (starts : if data.startsTrial then ∃ now, clock now ∧ started = [.startTrial now] else started = [])
      (registers : if data.registered binding then registered = [] else ∃ uuid now, uuid ∉ used ∧ clock now ∧
        registered = [.insertDevice ⟨uuid, data.row.id, binding.ip, binding.deviceId, now, now⟩]) :
      AdmissionWrites clock used data binding (started ++ registered)

structure AdmissionResult (clock : Instant → Prop) (binding : SessionBinding) (data after : LicenseData) : Prop where
  row : if data.startsTrial then ∃ started, clock started ∧
      after.row = { data.row with trialStartedAt := some started, updatedAt := after.row.updatedAt }
    else after.row = data.row
  pairs : after.pairs = if data.registered binding then data.pairs else data.pairs ++ [(binding.ip, binding.deviceId)]
  link : after.link = data.link
  allowedIps : after.allowedIps = data.allowedIps
  allowedDevices : after.allowedDevices = data.allowedDevices
  meters : after.meters = data.meters

section Writes

theorem startTrialIfUnset_alone {startedAt : Instant} (ticking : ∃ now, clock now)
    (present : world.tables.licenses id = some data) (starts : data.startsTrial) :
    Alone call clock used (DeviceRepository.startTrialIfUnset id startedAt) world fun result next =>
      result = .ok (some startedAt, [.startTrial startedAt]) ∧ next = world := by
  refine alone_lockRow ticking present ?_
  have asked : data.row.type = .trial ∧ data.row.trialStartedAt = none := starts
  dsimp only
  rw [if_pos asked]
  exact alone_pure ⟨rfl, rfl⟩

theorem startTrial_alone (ticking : ∃ now, clock now) (present : world.tables.licenses id = some data)
    (own : data.row.id = id) : Alone call clock used (LicenseService.startTrial data.listed) world fun result next =>
      next = world ∧ ∃ admitted started, result = .ok (admitted, started) ∧ admitted.id = id ∧
        sessionResult admitted.toLicense = sessionResult data.license ∧
        if data.startsTrial then ∃ now, clock now ∧ started = [.startTrial now] else started = [] := by
  rw [LicenseService.startTrial]
  by_cases starts : data.startsTrial
  · have asked : data.listed.type = .trial ∧ data.listed.trialStartedAt = none := starts
    rw [if_pos asked]
    refine alone_draw ticking fun drawn time _ => ?_
    refine alone_known (startTrialIfUnset_alone ticking (own ▸ present) starts) (alone_pure ⟨rfl, ?_⟩)
    exact ⟨_, _, rfl, own, rfl, by rw [if_pos starts]; exact ⟨drawn.now, time, rfl⟩⟩
  · have other : ¬(data.listed.type = .trial ∧ data.listed.trialStartedAt = none) := starts
    rw [if_neg other]
    exact alone_pure ⟨rfl, _, _, rfl, own, rfl, by rw [if_neg starts]⟩

theorem registerUnlessExisting_alone {existing : Option RegisteredDevice} (ticking : ∃ now, clock now)
    (found : existing.isSome = data.registered binding) :
    Alone call clock used (LicenseService.registerUnlessExisting id binding existing) world fun result next =>
      next = world ∧ ∃ registered, result = .ok registered ∧
        if data.registered binding then registered = [] else ∃ uuid now, uuid ∉ used ∧ clock now ∧
          registered = [.insertDevice ⟨uuid, id, binding.ip, binding.deviceId, now, now⟩] := by
  cases existing with
  | some device =>
      rw [← found]
      exact alone_pure ⟨rfl, [], rfl, rfl⟩
  | none =>
      rw [← found]
      refine alone_draw ticking fun drawn time fresh => alone_query ticking (alone_pure ⟨rfl, _, rfl, ?_⟩)
      exact ⟨_, _, fresh 0, time, rfl⟩

theorem admissionWrites_alone {existing : Option RegisteredDevice} (ticking : ∃ now, clock now)
    (present : world.tables.licenses id = some data) (own : data.row.id = id)
    (found : existing.isSome = data.registered binding) :
    Alone call clock used (LicenseService.admissionWrites data.listed binding existing) world fun result next =>
      next = world ∧ ∃ admitted writes, result = .ok (admitted, writes) ∧ admitted.id = id ∧
        sessionResult admitted.toLicense = sessionResult data.license ∧
          AdmissionWrites clock used data binding writes := by
  refine alone_then _ (startTrial_alone ticking present own) ?_ ?_
  · rintro _ _ ⟨rfl, admitted, started, ⟨⟩, same, response, starts⟩
    refine alone_then _ (@registerUnlessExisting_alone _ _ _ _ data.row.id data binding existing ticking found) ?_ ?_
    · rintro inserted _ ⟨rfl, _, ⟨⟩, registers⟩
      exact alone_pure ⟨rfl, admitted, _, rfl, same, response, .writes started inserted starts registers⟩
    · rintro _ _ ⟨-, _, ⟨⟩, -⟩
  · rintro _ _ ⟨-, _, _, ⟨⟩, -⟩

theorem prepared_forms {writes : List Write} {write : Write}
    (prepared : AdmissionWrites clock used data binding writes)
    (member : write ∈ writes) :
    (∃ now, write = .startTrial now) ∨ ∃ device, device.id ∉ used ∧ write = .insertDevice device := by
  obtain ⟨started, inserted, starts, registers⟩ := prepared
  rcases List.mem_append.mp member with first | second
  · split at starts
    · obtain ⟨now, -, rfl⟩ := starts
      exact .inl ⟨now, List.mem_singleton.mp first⟩
    · subst starts
      cases first
  · split at registers
    · subst registers
      cases second
    · obtain ⟨uuid, now, fresh, -, rfl⟩ := registers
      exact .inr ⟨_, fresh, List.mem_singleton.mp second⟩

theorem prepared_keys {writes : List Write} (prepared : AdmissionWrites clock used data binding writes)
    {keyHash keyPrefix : String} : .rotateKey keyHash keyPrefix ∉ writes := by
  intro member
  rcases prepared_forms prepared member with ⟨_, ⟨⟩⟩ | ⟨_, -, ⟨⟩⟩

theorem prepared_lawful {writes : List Write} (prepared : AdmissionWrites clock used data binding writes)
    (known : world.tables.rowKeys ⊆ used) : writes.findSome? (world.tables.violation id) = none := by
  refine List.findSome?_eq_none_iff.mpr fun write member => ?_
  rcases prepared_forms prepared member with ⟨_, rfl⟩ | ⟨device, fresh, rfl⟩
  · rfl
  · simp [Tables.violation, (unused_keys fun used => fresh (known used)).1]

theorem apply_registration {now seen : Instant} {uuid : String} {owner : LicenseId}
    (absent : data.registered binding = false) :
    (Write.insertDevice ⟨uuid, owner, binding.ip, binding.deviceId, seen, seen⟩).apply now data =
      { data with devices := data.devices ++ [⟨uuid, owner, binding.ip, binding.deviceId, seen, seen⟩] } := by
  have appended : insertDevice ⟨uuid, owner, binding.ip, binding.deviceId, seen, seen⟩ data.devices =
      data.devices ++ [⟨uuid, owner, binding.ip, binding.deviceId, seen, seen⟩] := by
    rw [insertDevice]
    exact if_neg (by rw [LicenseData.registered] at absent; simp [absent])
  rw [← appended]
  rfl

theorem apply_started {started : List Write} {now : Instant}
    (starts : if data.startsTrial then ∃ now, clock now ∧ started = [.startTrial now] else started = []) :
    ∃ row, applyWrites now started data = { data with row } ∧
      if data.startsTrial then ∃ startedAt, clock startedAt ∧
        row = { data.row with trialStartedAt := some startedAt, updatedAt := row.updatedAt }
      else row = data.row := by
  by_cases asked : data.startsTrial
  · rw [if_pos asked] at starts
    obtain ⟨startedAt, time, rfl⟩ := starts
    refine ⟨_, rfl, ?_⟩
    rw [if_pos asked]
    exact ⟨startedAt, time, rfl⟩
  · rw [if_neg asked] at starts
    subst starts
    exact ⟨data.row, rfl, by rw [if_neg asked]⟩

theorem prepared_admission {writes : List Write} {now : Instant}
    (prepared : AdmissionWrites clock used data binding writes) :
    AdmissionResult clock binding data (applyWrites now writes data) := by
  obtain ⟨started, inserted, starts, registers⟩ := prepared
  obtain ⟨row, applied, starts⟩ := @apply_started _ _ _ now starts
  have parts : applyWrites now (started ++ inserted) data = applyWrites now inserted { data with row } := by
    rw [← applied, applyWrites, applyWrites, applyWrites, List.foldl_append]
  rw [parts]
  cases there : data.registered binding with
  | true =>
      rw [there] at registers
      obtain rfl : inserted = [] := registers
      exact ⟨starts, by rw [there]; rfl, rfl, rfl, rfl, rfl⟩
  | false =>
      rw [there] at registers
      obtain ⟨uuid, seen, -, -, rfl⟩ : ∃ uuid seen, uuid ∉ used ∧ clock seen ∧
        inserted = [.insertDevice ⟨uuid, data.row.id, binding.ip, binding.deviceId, seen, seen⟩] := registers
      have absent : ({ data with row } : LicenseData).registered binding = false := there
      have stored : applyWrites now [.insertDevice ⟨uuid, data.row.id, binding.ip, binding.deviceId, seen, seen⟩]
          { data with row } = _ := apply_registration absent
      rw [stored]
      refine ⟨starts, ?_, rfl, rfl, rfl, rfl⟩
      rw [there]
      exact List.map_append

theorem quietly_recorded {writes : List Write} {link : Option StripeSubscriptionLink}
    (forms : ∀ write ∈ writes, (∃ now, write = .startTrial now) ∨ ∃ device, write = .insertDevice device) :
    writes.flatMap storedKeys = [] ∧ ∀ stored, writes.foldl (recordSnapshot link) stored = stored := by
  induction writes with
  | nil => exact ⟨rfl, fun _ => rfl⟩
  | cons write writes ih =>
      have rest := ih fun other member => forms other (.tail _ member)
      rcases forms write (.head _) with ⟨_, rfl⟩ | ⟨_, rfl⟩ <;> exact ⟨rest.1, rest.2⟩

theorem prepared_written {writes : List Write} {now : Instant}
    (prepared : AdmissionWrites clock used data binding writes) :
    world.write id data now writes = world.setLicense id (applyWrites now writes data) := by
  have quiet := @quietly_recorded writes data.link fun write member =>
    (prepared_forms prepared member).imp_right fun ⟨device, _, same⟩ => ⟨device, same⟩
  rw [World.write, quiet.1, quiet.2]
  rfl

end Writes

def World.reserve (world : World) (token : String) (session : Session) (store : SessionStore) : World :=
  { world with sessions := store, tokens := (token, session) :: world.tokens }

section Admit

theorem commitAdmission_alone {existing : Option RegisteredDevice} (ticking : ∃ now, clock now)
    (known : world.tables.rowKeys ⊆ used) (present : world.tables.licenses id = some data)
    (own : data.row.id = id) (found : existing.isSome = data.registered binding) :
    Alone call clock used (LicenseService.commitAdmission data.listed binding existing) world fun result next =>
      ∃ admitted after, result = .ok admitted ∧ admitted.id = id ∧
        sessionResult admitted.toLicense = sessionResult data.license ∧
        AdmissionResult clock binding data after ∧ next = world.setLicense id after := by
  refine alone_orRollback ticking _ (admissionWrites_alone ticking present own found) ?_ ?_
  · rintro _ _ ⟨rfl, admitted, writes, ⟨⟩, same, response, prepared⟩
    subst own
    refine alone_commit ticking present (fun _ _ member => absurd member (prepared_keys prepared))
      (prepared_lawful prepared known) fun now time => ?_
    rw [prepared_written prepared]
    exact alone_pure ⟨admitted, _, rfl, same, response, prepared_admission prepared, rfl⟩
  · rintro _ _ ⟨-, _, _, ⟨⟩, -⟩

theorem reserveSession_alone (ticking : ∃ now, clock now) :
    Alone call clock used (LicenseService.reserveSession host data.license binding) world fun result next =>
      ∃ token store, token ∉ world.tokens.map Prod.fst ∧
        next = world.reserve token ⟨data.row.id, data.row.sessionRevision, host.hashBinding binding⟩ store ∧
        ((registerSession world.sessions data.row.id data.row.sessionRevision (host.hashBinding binding)
            sessionTtlSeconds data.row.maxSessions token = (store, .limitReached) ∧
          result = .error (.domain ⟨"Maximum concurrent sessions reached", 403, .concurrentSessionLimit⟩)) ∨
        (registerSession world.sessions data.row.id data.row.sessionRevision (host.hashBinding binding)
            sessionTtlSeconds data.row.maxSessions token = (store, .registered token) ∧ result = .ok token)) := by
  refine alone_registerSession ticking fun token fresh => ?_
  cases outcome : registerSession world.sessions data.license.id data.license.sessionRevision
    (host.hashBinding binding) sessionTtlSeconds data.license.maxSessions token with
  | mk store result =>
      cases result with
      | limitReached => exact alone_throw ⟨token, store, fresh, rfl, .inl ⟨outcome, rfl⟩⟩
      | registered drawn =>
          obtain rfl : drawn = token := by
            simp only [registerSession] at outcome
            split at outcome <;> cases outcome
            rfl
          exact alone_pure ⟨drawn, store, fresh, rfl, .inr ⟨outcome, rfl⟩⟩

/-- A touch moves the times of devices only. -/
structure Seen (data touched : LicenseData) : Prop where
  devices : touched = { data with devices := touched.devices }
  pairs : touched.pairs = data.pairs

theorem setLicense_self (present : world.tables.licenses id = some data) : world.setLicense id data = world := by
  have same : Function.update world.tables.licenses id (some data) = world.tables.licenses := by
    rw [← present, Function.update_eq_self]
  rw [World.setLicense, same]

theorem setLicense_twice {first second : LicenseData} :
    (world.setLicense id first).setLicense id second = world.setLicense id second := by
  simp only [World.setLicense, Function.update_idem]

theorem licenses_setLicense {other : LicenseId} (same : other = id) :
    (world.setLicense id data).tables.licenses other = some data := by
  rw [same]
  exact Function.update_self _ _ _

theorem touchBestEffort_alone (ticking : ∃ now, clock now) (present : world.tables.licenses id = some data) :
    Alone call clock used (LicenseService.touchBestEffort id binding) world fun result next =>
      result = .ok () ∧ ∃ touched, Seen data touched ∧ next = world.setLicense id touched := by
  refine alone_covered ?_ ?_
  · refine alone_known (findRegisteredDevice_alone ticking present) ?_
    split
    · exact alone_pure ⟨rfl, data, ⟨rfl, rfl⟩, (setLicense_self present).symm⟩
    · next device found =>
      refine alone_draw ticking fun drawn time _ => ?_
      refine alone_commit ticking present (fun keyHash keyPrefix member => ?_) rfl fun now time => ?_
      · cases List.mem_singleton.mp member
      · exact alone_pure ⟨rfl, applyWrites now [.touchDevice device.id drawn.now] data,
          ⟨rfl, pairs_touch device.id drawn.now data.devices⟩, rfl⟩
  · rintro _ _ ⟨⟨⟩, -⟩

theorem seen_admission {after touched : LicenseData} (admission : AdmissionResult clock binding data after)
    (seen : Seen after touched) : AdmissionResult clock binding data touched := by
  have same := seen.devices
  refine ⟨?_, seen.pairs.trans admission.pairs, ?_, ?_, ?_, ?_⟩
  · rw [same]
    exact admission.row
  · rw [same]
    exact admission.link
  · rw [same]
    exact admission.allowedIps
  · rw [same]
    exact admission.allowedDevices
  · rw [same]
    exact admission.meters

inductive Activated (host : Host) (clock : Instant → Prop) (binding : SessionBinding) (world : World)
    (data : LicenseData) : Except Failure String → World → Prop
  | refused {now : Instant} {error : Failure} (time : clock now) (refused : data.admits binding now = .error error) :
      Activated host clock binding world data (.error error) world
  | full {now : Instant} {token : String} {store : SessionStore} (time : clock now)
      (admits : data.admits binding now = .ok ()) (fresh : token ∉ world.tokens.map Prod.fst)
      (reserved : registerSession world.sessions data.row.id data.row.sessionRevision (host.hashBinding binding)
        sessionTtlSeconds data.row.maxSessions token = (store, .limitReached)) :
      Activated host clock binding world data
        (.error (.domain ⟨"Maximum concurrent sessions reached", 403, .concurrentSessionLimit⟩))
        (world.reserve token ⟨data.row.id, data.row.sessionRevision, host.hashBinding binding⟩ store)
  | admitted {now : Instant} {token : String} {store : SessionStore} {after : LicenseData} (time : clock now)
      (admits : data.admits binding now = .ok ()) (fresh : token ∉ world.tokens.map Prod.fst)
      (reserved : registerSession world.sessions data.row.id data.row.sessionRevision (host.hashBinding binding)
        sessionTtlSeconds data.row.maxSessions token = (store, .registered token))
      (admission : AdmissionResult clock binding data after) :
      Activated host clock binding world data (.ok token)
        ((world.reserve token ⟨data.row.id, data.row.sessionRevision, host.hashBinding binding⟩ store).setLicense
          data.row.id after)

theorem admitActivation_alone (ticking : ∃ now, clock now) (known : world.tables.rowKeys ⊆ used)
    (present : world.tables.licenses data.row.id = some data) :
    Alone call clock used (LicenseService.admitActivation host data.license binding) world fun result next =>
      ∃ token, Activated host clock binding world data token next ∧
        result.map (fun admitted => sessionResult admitted.1.toLicense admitted.2) =
          token.map (sessionResult data.license) := by
  refine alone_orRollback ticking _ (admissionPolicy_alone ticking present rfl rfl) ?_ ?_
  · rintro _ _ ⟨rfl, now, time, verdict⟩
    cases admits : data.admits binding now with
    | error error =>
        rw [admits] at verdict
        cases verdict
    | ok value =>
        rw [admits] at verdict
        obtain ⟨existing, ⟨⟩, found⟩ := verdict
        refine alone_orRollback ticking _ (reserveSession_alone ticking) ?_ ?_
        · rintro token _ ⟨_, store, fresh, rfl, ⟨-, ⟨⟩⟩ | ⟨reserved, ⟨⟩⟩⟩
          refine alone_then _ (alone_covered (commitAdmission_alone ticking known present rfl found) ?_) ?_ ?_
          · rintro _ _ ⟨_, _, ⟨⟩, -⟩
          · rintro admitted _ ⟨_, after, ⟨⟩, same, response, admission, rfl⟩
            refine alone_then _ (touchBestEffort_alone ticking (licenses_setLicense same)) ?_ ?_
            · rintro _ _ ⟨⟨⟩, touched, seen, rfl⟩
              rw [same, setLicense_twice]
              exact alone_pure ⟨.ok token, .admitted time admits fresh reserved (seen_admission admission seen),
                congrArg Except.ok (congrFun response token)⟩
            · rintro _ _ ⟨⟨⟩, -⟩
          · rintro _ _ ⟨_, _, ⟨⟩, -⟩
        · rintro _ _ ⟨token, store, fresh, rfl, ⟨full, ⟨⟩⟩ | ⟨-, ⟨⟩⟩⟩
          exact ⟨_, .full time admits fresh full, rfl⟩
  · rintro error _ ⟨rfl, now, time, verdict⟩
    cases admits : data.admits binding now with
    | error refusal =>
        rw [admits] at verdict
        cases verdict
        exact ⟨_, .refused time admits, rfl⟩
    | ok value =>
        rw [admits] at verdict
        obtain ⟨existing, ⟨⟩, -⟩ := verdict

inductive ActivateEnds (host : Host) (clock : Instant → Prop) (licenseKey deviceId ip : String) (world : World) :
    Except Failure LicenseSessionResult → World → Prop
  | unbound {error : Failure} (invalid : sessionBinding ip deviceId = .error error) :
      ActivateEnds host clock licenseKey deviceId ip world (.error error) world
  | unknown {binding : SessionBinding} (bound : sessionBinding ip deviceId = .ok binding)
      (missing : world.tables.findByKeyHash (host.hashLicenseKey licenseKey) = none) :
      ActivateEnds host clock licenseKey deviceId ip world
        (.error (.domain ⟨"Invalid license key", 403, .licenseInvalid⟩)) world
  | known {binding : SessionBinding} {data : LicenseData} {token : Except Failure String} {next : World}
      (bound : sessionBinding ip deviceId = .ok binding)
      (present : world.tables.licenses data.row.id = some data)
      (key : data.row.keyHash = host.hashLicenseKey licenseKey)
      (ends : Activated host clock binding world data token next) :
      ActivateEnds host clock licenseKey deviceId ip world (token.map (sessionResult data.license)) next

theorem lookUpAndAdmit_alone {licenseKey deviceId ip : String} (ticking : ∃ now, clock now)
    (known : world.tables.rowKeys ⊆ used) (sound : TablesSound world)
    (bound : sessionBinding ip deviceId = .ok binding) :
    Alone call clock used (LicenseService.lookUpAndAdmit host licenseKey binding) world
      (ActivateEnds host clock licenseKey deviceId ip world) := by
  refine alone_then _ (findByLicenseKeyWithAllowlists_alone ticking sound) ?_ ?_
  · rintro _ _ ⟨rfl, ⟨missing, ⟨⟩⟩ | ⟨data, present, key, ⟨⟩⟩⟩
    · exact alone_capture ticking (alone_throw (.unknown bound missing))
    · refine alone_capture ticking (alone_then _ (admitActivation_alone ticking known present) ?_ ?_)
      · rintro admitted next ⟨token, ends, response⟩
        refine alone_capture ticking (alone_pure ?_)
        have ended := ActivateEnds.known bound present key ends
        rwa [← response] at ended
      · rintro error next ⟨token, ends, response⟩
        have ended := ActivateEnds.known bound present key ends
        rwa [← response] at ended
  · rintro _ _ ⟨-, ⟨-, ⟨⟩⟩ | ⟨_, -, -, ⟨⟩⟩⟩

theorem activate_alone {licenseKey deviceId ip : String} (ticking : ∃ now, clock now)
    (known : world.tables.rowKeys ⊆ used) (sound : TablesSound world) :
    Alone call clock used (LicenseService.activate host licenseKey deviceId ip) world
      (ActivateEnds host clock licenseKey deviceId ip world) := by
  refine alone_except (fun binding bound => ?_) fun error invalid => .unbound invalid
  refine alone_caught _ (lookUpAndAdmit_alone ticking known sound bound) (fun _ _ holds => holds)
    fun error next holds => ?_
  exact alone_capture ticking (alone_throw holds)

end Admit

end Keyzori
