import Keyzori.Server.OperatorSteps

namespace Keyzori

open Interleaving

variable {host : Host} {request : Request} {α β : Type} {id : LicenseId}

/-- The calls of the operators, but for those that synchronize with Stripe. -/
def Request.operator : Request → Bool
  | .activate _ _ _ | .heartbeat _ _ _ | .consume _ _ _ _ | .deactivate _ _ _ | .linkLicense _ _
  | .syncLicense _ | .receive _ | .processDue _ => false
  | _ => true

section Parts

theorem calm_requireLicense : Calm (AdminService.requireLicense id) :=
  calm_act rfl fun found => by cases found <;> trivial

theorem calm_listMeters (archived : Bool) : Calm (MeterRepository.listMeters id archived) :=
  quiet_calm (quiet_query _)

theorem calm_domain {result : Except DomainError α} : Calm (ofDomain result) := quiet_calm (quiet_domain _)

theorem blunt_managed (license : License) : Blunt request (managed license) :=
  blunt_act rfl fun _ => blunt_pure

theorem blunt_cleanup (revision : Option Nat) :
    Blunt request (AdminService.removeSessionsBestEffort id revision) :=
  blunt_tryCatch (calm_act rfl fun _ => trivial) fun _ => blunt_pure

theorem blunt_removeEach (ids : List LicenseId) : Blunt request (AdminService.removeEachBestEffort ids) := by
  induction ids with
  | nil => exact blunt_pure
  | cons id ids ih => exact blunt_bind (blunt_cleanup none) fun _ => ih

theorem blunt_firstOrThrow {row : Option α} {action : String} : Blunt request (firstOrThrow row action) := by
  cases row with
  | none => exact blunt_internal
  | some row => exact blunt_pure

theorem atomic_license {rest : License → Server β} (after : ∀ license, Atomic request (rest license)) :
    Atomic request (AdminService.requireLicense id >>= rest) :=
  atomic_before calm_requireLicense after

theorem atomic_domain {result : Except DomainError α} {rest : α → Server β}
    (after : ∀ value, Atomic request (rest value)) : Atomic request (ofDomain result >>= rest) :=
  atomic_before calm_domain after

end Parts

section Licenses

theorem createCustomer_atomic (customerId : String) : Atomic request (AdminService.createCustomer customerId) :=
  atomic_calm (calm_act rfl fun _ => quiet_calm (quiet_capture _))

theorem deleteCustomer_atomic (customerId : String) : Atomic request (AdminService.deleteCustomer customerId) := by
  refine atomic_before (quiet_calm (quiet_requireCustomer _)) fun _ => atomic_act rfl fun licenses => ?_
  exact atomic_decides fun _ => blunt_bind (blunt_removeEach licenses) fun _ => blunt_capture _

theorem create_atomic (licenseKey : String) (data : NewLicense) :
    Atomic request (LicenseRepository.create host licenseKey data) := by
  refine atomic_act rfl fun id => atomic_act rfl fun drawn => atomic_before trivial fun table => ?_
  exact atomic_decides fun stored => blunt_pure

theorem createLicense_atomic (data : CreateLicenseInput) :
    Atomic request (AdminService.createLicense host data) := by
  refine atomic_before (quiet_calm (quiet_requireCustomer _)) fun _ => atomic_domain fun limits => ?_
  refine atomic_domain fun meters => atomic_act rfl fun now => atomic_domain fun config => ?_
  refine atomic_act rfl fun licenseKey => atomic_after (create_atomic _ _) fun license => ?_
  exact blunt_bind (blunt_capture _) fun _ => blunt_pure

theorem lockMeters_calm (data : LicenseUpdate) (options : LicenseUpdateOptions) :
    Calm (LicenseRepository.lockMeters id data options) := by
  rw [LicenseRepository.lockMeters]
  split
  · exact Prog.only_call rfl
  · trivial

theorem updateTransaction_parts (data : LicenseUpdate) (options : LicenseUpdateOptions) :
    ∃ body : Server (List Write), Calm body ∧ LicenseRepository.updateTransaction id data options =
      body >>= fun writes => commit id none writes >>= fun _ => pure () := by
  refine ⟨_, calm_orRollback ?_, rfl⟩
  refine Prog.only_bind (lockMeters_calm data options) fun _ => calm_act rfl fun row => ?_
  refine quiet_calm (Prog.only_bind quiet_firstOrThrow fun locked => quiet_except fun _ => ?_)
  refine Prog.only_bind (insertNewMeters_quiet _ _) fun inserted => ?_
  refine Prog.only_bind (requireActiveMeter_quiet _ _ _) fun _ => quiet_act rfl fun link => ?_
  exact quiet_except fun statements => quiet_execute _

theorem updateTransaction_atomic (data : LicenseUpdate) (options : LicenseUpdateOptions) :
    Atomic request (LicenseRepository.updateTransaction id data options) := by
  obtain ⟨body, calm, parts⟩ := @updateTransaction_parts id data options
  rw [parts]
  exact atomic_before calm fun writes => atomic_commit (fun _ => blunt_pure) trivial

theorem updateStatement_atomic (data : LicenseUpdate) (options : LicenseUpdateOptions) :
    Atomic request (LicenseRepository.updateStatement id data options) :=
  atomic_commit (fun _ => blunt_pure) (by cases options.expectedUpdatedAt <;> trivial)

theorem update_atomic (data : LicenseUpdate) (options : LicenseUpdateOptions) :
    Atomic request (LicenseRepository.update id data options) := by
  refine atomic_after ?_ fun _ => blunt_reload _ _
  split
  · exact updateTransaction_atomic data options
  · exact updateStatement_atomic data options

theorem updateLicense_atomic {data : UpdateLicenseInput} (asked : request.edits = some (id, data)) :
    Atomic request (AdminService.updateLicense host id data) := by
  refine atomic_domain fun _ => atomic_license fun current => atomic_domain fun limits => ?_
  refine atomic_before (quiet_calm (checkCustomer_quiet _)) fun _ => atomic_domain fun _ => ?_
  refine atomic_domain fun newMeters => atomic_domain fun _ => atomic_before (calm_listMeters false) fun _ => ?_
  refine atomic_act rfl fun now => atomic_domain fun config => ?_
  refine atomic_before (quiet_calm (meteredDraft_quiet _ _ _ _ _)) fun active => ?_
  refine atomic_before (quiet_calm (observedLink_quiet _ _ _)) fun stripeLink => ?_
  refine atomic_after (update_atomic _ _) fun updated => blunt_bind ?_ fun _ => ?_
  · cases stripeLink with
    | none => exact blunt_pure
    | some link =>
        refine blunt_bind ?_ fun _ => blunt_capture _
        exact blunt_follows (.dropped id data asked) fun rows => blunt_pure
  · exact blunt_bind (blunt_capture _) fun _ => blunt_managed _

theorem renewSubscription_atomic {expiresAt : DateText}
    (asked : request.edits = some (id, { expiresAt := some (some expiresAt) })) :
    Atomic request (AdminService.renewSubscription host id expiresAt) := by
  refine atomic_license fun current => ?_
  split
  · exact atomic_done
  · exact updateLicense_atomic asked

theorem deleteLicense_atomic : Atomic request (AdminService.deleteLicense id) := by
  refine atomic_license fun _ => atomic_decides fun _ => blunt_bind (blunt_cleanup none) fun _ => ?_
  exact blunt_capture _

theorem invalidation_atomic {writes : List Write} {action message : String} : Atomic request (do
    let _ ← firstOrThrow (← commit id none writes) action
    LicenseRepository.reload id message) :=
  atomic_commit (fun _ => blunt_bind blunt_firstOrThrow fun _ => blunt_reload _ _) trivial

theorem revokeLicense_atomic (text : String) : Atomic request (AdminService.revokeLicense id text) := by
  refine atomic_license fun license => atomic_domain fun reason => atomic_act rfl fun now => ?_
  refine atomic_after invalidation_atomic fun updated => blunt_bind (blunt_cleanup _) fun _ => ?_
  exact blunt_bind (blunt_capture _) fun _ => blunt_managed _

theorem restoreLicense_atomic : Atomic request (AdminService.restoreLicense id) := by
  refine atomic_license fun license => atomic_after (update_atomic _ _) fun updated => ?_
  exact blunt_bind (blunt_capture _) fun _ => blunt_managed _

theorem rotateKey_parts (licenseKey : String) (expectedUpdatedAt : Instant) :
    ∃ body : Server (Option Instant), Calm body ∧
      LicenseRepository.rotateKey host id licenseKey expectedUpdatedAt = body >>= fun billingRevokedAt => do
        let rows ← commit id none [.rotateKey (host.hashLicenseKey licenseKey) (licenseKeyPrefix licenseKey)]
        let stored ← firstOrThrow rows "rotating a license key"
        return ⟨toDomainLicense stored.after.row billingRevokedAt, licenseKey⟩ := by
  refine ⟨_, calm_orRollback (calm_act rfl fun row => ?_), rfl⟩
  cases row with
  | none => trivial
  | some row =>
      dsimp only
      split
      · trivial
      · exact quiet_calm (quiet_query _)

theorem rotateKey_atomic (licenseKey : String) (expectedUpdatedAt : Instant) :
    Atomic request (LicenseRepository.rotateKey host id licenseKey expectedUpdatedAt) := by
  obtain ⟨body, calm, parts⟩ := @rotateKey_parts host id licenseKey expectedUpdatedAt
  rw [parts]
  exact atomic_before calm fun _ => atomic_commit (fun _ => blunt_bind blunt_firstOrThrow fun _ => blunt_pure) trivial

theorem rotateLicenseKey_atomic : Atomic request (AdminService.rotateLicenseKey host id) := by
  refine atomic_license fun current => atomic_act rfl fun licenseKey => ?_
  refine atomic_after (rotateKey_atomic _ _) fun rotated => blunt_bind (blunt_cleanup _) fun _ => ?_
  exact blunt_bind (blunt_capture _) fun _ => blunt_pure

theorem terminateLicenseSessions_atomic : Atomic request (AdminService.terminateLicenseSessions id) := by
  refine atomic_license fun license => atomic_after invalidation_atomic fun updated => ?_
  exact blunt_bind (blunt_cleanup _) fun cleanup => blunt_bind (blunt_capture _) fun _ => blunt_pure

theorem unlinkLicense_atomic : Atomic request (StripeSubscriptionService.unlinkLicense id) := by
  refine atomic_act rfl fun _ => atomic_act rfl fun link => ?_
  cases link with
  | none => exact atomic_done
  | some link =>
      refine atomic_after (atomic_commit (fun written => blunt_pure) trivial) fun deleted => ?_
      refine blunt_bind ?_ fun _ => blunt_pure
      cases deleted with
      | true => exact blunt_call rfl
      | false => exact blunt_pure

end Licenses

section Registrations

theorem addAllowed_atomic (write : Write) (constraint : String) :
    Atomic request (AccessRepository.addAllowed id write constraint) :=
  atomic_commit (fun _ => blunt_pure) trivial

theorem allowLicenseIp_atomic (value : String) : Atomic request (AdminService.allowLicenseIp host id value) := by
  refine atomic_license fun _ => atomic_before (quiet_calm (normalizedIp_quiet _)) fun ip => ?_
  refine atomic_before (quiet_calm getAccessRecords_quiet) fun before => ?_
  refine atomic_after (addAllowed_atomic _ _) fun _ => blunt_bind (blunt_capture _) fun _ => ?_
  exact blunt_pure

theorem allowLicenseDevice_atomic (value : String) :
    Atomic request (AdminService.allowLicenseDevice id value) := by
  refine atomic_license fun _ => atomic_domain fun device => ?_
  refine atomic_before (quiet_calm getAccessRecords_quiet) fun before => ?_
  refine atomic_after (addAllowed_atomic _ _) fun _ => blunt_bind (blunt_capture _) fun _ => ?_
  exact blunt_pure

theorem disallow_atomic {write : Write} {listed : LicenseData → Bool} : Atomic request (do
    let removed ← AccessRepository.removeAllowed id write listed
    (if removed then capture "license.updated" else pure ())
    return removed) := by
  refine atomic_after (atomic_commit (fun _ => blunt_pure) trivial) fun removed => ?_
  refine blunt_bind ?_ fun _ => blunt_pure
  cases removed with
  | true => exact blunt_capture _
  | false => exact blunt_pure

theorem removeLicenseAllowedIp_atomic (value : String) :
    Atomic request (AdminService.removeLicenseAllowedIp host id value) := by
  refine atomic_license fun _ => atomic_before (quiet_calm (normalizedIp_quiet _)) fun ip => ?_
  exact disallow_atomic

theorem removeLicenseAllowedDevice_atomic (value : String) :
    Atomic request (AdminService.removeLicenseAllowedDevice id value) :=
  atomic_license fun _ => atomic_domain fun _ => disallow_atomic

theorem removalTransaction_parts (filter : DeviceFilter) (always : Bool) :
    ∃ body : Server ((Nat × Option Nat) × List Write), Calm body ∧
      AdminService.removalTransaction id filter always =
        body >>= fun (result, writes) => commit id none writes >>= fun _ => pure result := by
  refine ⟨_, calm_orRollback (calm_act rfl fun _ => ?_), rfl⟩
  have counted : Calm (DeviceRepository.removeRegistrations id filter) := calm_act rfl fun _ => trivial
  refine Prog.only_bind counted fun removal => Prog.only_bind ?_ fun _ => trivial
  rw [AdminService.incrementWhen]
  split
  · exact calm_act rfl fun row => by cases row <;> trivial
  · trivial

theorem removalTransaction_atomic (filter : DeviceFilter) (always : Bool) :
    Atomic request (AdminService.removalTransaction id filter always) := by
  obtain ⟨body, calm, parts⟩ := @removalTransaction_parts id filter always
  rw [parts]
  refine atomic_before calm ?_
  rintro ⟨result, writes⟩
  exact atomic_commit (fun _ => blunt_pure) trivial

theorem cleanUpRemoval_atomic (filter : DeviceFilter) (always : Bool) :
    Atomic request (AdminService.cleanUpRemoval id filter always) := by
  refine atomic_after (removalTransaction_atomic filter always) ?_
  rintro ⟨count, sessionRevision⟩
  dsimp only
  split
  · exact blunt_bind (blunt_cleanup _) fun _ => blunt_bind (blunt_capture _) fun _ => blunt_pure
  · exact blunt_pure

theorem removeRegisteredIp_atomic (value : String) :
    Atomic request (AdminService.removeRegisteredIp host id value) :=
  atomic_license fun _ => atomic_before (quiet_calm (normalizedIp_quiet _)) fun _ =>
    cleanUpRemoval_atomic _ _

theorem removeRegisteredDevice_atomic (value : String) :
    Atomic request (AdminService.removeRegisteredDevice id value) :=
  atomic_license fun _ => atomic_domain fun _ => cleanUpRemoval_atomic _ _

theorem resetRegisteredDevices_atomic : Atomic request (AdminService.resetRegisteredDevices id) :=
  atomic_license fun _ => cleanUpRemoval_atomic _ _

end Registrations

section Meters

theorem updateMeterDraft_blunt (asked : request.meters = some id) :
    Blunt request (AdminService.updateMeterDraft id) := by
  refine blunt_act rfl fun meters => blunt_bind ?_ fun _ => blunt_pure
  refine blunt_bind (blunt_orRollback (blunt_act rfl fun row => blunt_firstOrThrow)) fun _ => ?_
  exact blunt_follows (.drafted id _ asked) fun _ => blunt_reload _ _

theorem createLicenseMeter_atomic (asked : request.meters = some id) (data : CreateMeterInput) :
    Atomic request (AdminService.createLicenseMeter id data) := by
  refine atomic_license fun _ => atomic_domain fun inputs => ?_
  cases inputs with
  | nil => exact atomic_done
  | cons input rest =>
      refine atomic_transaction (fun trace held => statements_handed held fun _ _ _ _ _ => .inl trivial)
        (statements_calm _) (fun meter _ => ?_) fun _ refused => absurd trivial refused
      exact blunt_bind (updateMeterDraft_blunt asked) fun _ => blunt_bind (blunt_capture _) fun _ => blunt_pure

theorem archiveLicenseMeter_atomic (asked : request.meters = some id) (name text : String) :
    Atomic request (AdminService.archiveLicenseMeter id name text) := by
  refine atomic_license fun _ => atomic_domain fun name => atomic_domain fun reason => ?_
  refine @atomic_transaction request _ _ id
    (fun result => ∃ meter, result = some meter ∧ meter.archivedAt.isNone = false) _ _
    (fun trace held => ⟨calm_singular rfl, fun result => ?_⟩)
    (calm_act rfl fun _ => statements_calm _) ?_ ?_
  · cases result with
    | error error => exact handed_error error
    | ok row =>
        exact statements_handed (holding_append.mpr ⟨rfl, .inl held⟩) fun _ _ _ _ => archiveMeter_refused
  · rintro _ ⟨meter, rfl, archived⟩
    dsimp only
    rw [archived]
    exact blunt_bind (updateMeterDraft_blunt asked) fun _ => blunt_bind (blunt_capture _) fun _ => blunt_pure
  · intro found refused
    cases found with
    | none => trivial
    | some meter =>
        have active : meter.archivedAt.isNone = true := by
          by_contra archived
          exact refused ⟨meter, rfl, eq_false_of_ne_true archived⟩
        dsimp only
        rw [active]
        trivial

theorem adjustMeter_atomic (name : String) (delta : Int) (text : String) (kind : MeterLedgerKind) :
    Atomic request (AdminService.adjustMeter id name delta text kind) := by
  refine atomic_license fun _ => atomic_domain fun reason => atomic_domain fun name => ?_
  refine @atomic_transaction request _ _ id (fun result => ∃ meter entry, result = .adjusted meter entry) _ _
    (fun trace held => statements_handed held fun _ _ _ _ => adjustMeter_refused)
    (statements_calm _) ?_ ?_
  · rintro _ ⟨meter, entry, rfl⟩
    exact blunt_bind blunt_pure fun _ => blunt_bind (blunt_capture _) fun _ => blunt_pure
  · intro result refused
    cases result with
    | adjusted meter entry => exact absurd ⟨meter, entry, rfl⟩ refused
    | _ => trivial

theorem topUpLicenseMeter_atomic (name : String) (units : Number) (text : String) :
    Atomic request (AdminService.topUpLicenseMeter id name units text) :=
  atomic_domain fun _ => adjustMeter_atomic _ _ _ _

theorem adjustLicenseMeter_atomic (name : String) (delta : Number) (text : String) :
    Atomic request (AdminService.adjustLicenseMeter id name delta text) :=
  atomic_domain fun _ => adjustMeter_atomic _ _ _ _

end Meters

theorem atomic_map {prog : Server α} {answer : α → β} (first : Atomic request prog) :
    Atomic request (answer <$> prog) :=
  atomic_after first fun _ => blunt_pure

/-- Every operator call refuses before its decisive step. -/
theorem program_atomic (operator : request.operator = true) : Atomic request (program host request) := by
  cases request with
  | activate _ _ _ | heartbeat _ _ _ | consume _ _ _ _ | deactivate _ _ _ | linkLicense _ _
  | syncLicense _ | receive _ | processDue _ => cases operator
  | createCustomer id => exact atomic_map (createCustomer_atomic id)
  | deleteCustomer id => exact atomic_map (deleteCustomer_atomic id)
  | createLicense data => exact atomic_map (createLicense_atomic data)
  | updateLicense id data => exact atomic_map (updateLicense_atomic rfl)
  | renewSubscription id expiresAt => exact atomic_map (renewSubscription_atomic rfl)
  | deleteLicense id => exact atomic_map deleteLicense_atomic
  | revokeLicense id reason => exact atomic_map (revokeLicense_atomic reason)
  | restoreLicense id => exact atomic_map restoreLicense_atomic
  | rotateLicenseKey id => exact atomic_map rotateLicenseKey_atomic
  | allowLicenseIp id value => exact atomic_map (allowLicenseIp_atomic value)
  | removeLicenseAllowedIp id value => exact atomic_map (removeLicenseAllowedIp_atomic value)
  | allowLicenseDevice id value => exact atomic_map (allowLicenseDevice_atomic value)
  | removeLicenseAllowedDevice id value => exact atomic_map (removeLicenseAllowedDevice_atomic value)
  | removeRegisteredIp id value => exact atomic_map (removeRegisteredIp_atomic value)
  | removeRegisteredDevice id value => exact atomic_map (removeRegisteredDevice_atomic value)
  | resetRegisteredDevices id => exact atomic_map resetRegisteredDevices_atomic
  | terminateLicenseSessions id => exact atomic_map terminateLicenseSessions_atomic
  | createLicenseMeter id data => exact atomic_map (createLicenseMeter_atomic rfl data)
  | archiveLicenseMeter id name reason => exact atomic_map (archiveLicenseMeter_atomic rfl name reason)
  | topUpLicenseMeter id name units reason => exact atomic_map (topUpLicenseMeter_atomic name units reason)
  | adjustLicenseMeter id name delta reason =>
      exact atomic_map (adjustLicenseMeter_atomic name delta reason)
  | unlinkLicense id => exact atomic_map unlinkLicense_atomic

end Keyzori
