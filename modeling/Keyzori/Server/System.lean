import Keyzori.Server.StripeServices
import Mathlib.Data.List.TakeWhile

/-! Every call that changes a license, a session or the inbox, and the server
that runs any number of them. Calls that only read or that write customers' own
data are left out. -/

namespace Keyzori

open Interleaving

inductive Request
  | activate (licenseKey deviceId ip : String)
  | heartbeat (sessionToken deviceId ip : String)
  | consume (sessionToken deviceId ip : String) (input : ConsumeUsageInput)
  | deactivate (sessionToken deviceId ip : String)
  | createCustomer (id : String)
  | deleteCustomer (id : String)
  | createLicense (data : CreateLicenseInput)
  | updateLicense (id : LicenseId) (data : UpdateLicenseInput)
  | renewSubscription (id : LicenseId) (expiresAt : DateText)
  | deleteLicense (id : LicenseId)
  | revokeLicense (id : LicenseId) (reason : String)
  | restoreLicense (id : LicenseId)
  | rotateLicenseKey (id : LicenseId)
  | allowLicenseIp (id : LicenseId) (value : String)
  | removeLicenseAllowedIp (id : LicenseId) (value : String)
  | allowLicenseDevice (id : LicenseId) (value : String)
  | removeLicenseAllowedDevice (id : LicenseId) (value : String)
  | removeRegisteredIp (id : LicenseId) (value : String)
  | removeRegisteredDevice (id : LicenseId) (value : String)
  | resetRegisteredDevices (id : LicenseId)
  | terminateLicenseSessions (id : LicenseId)
  | createLicenseMeter (id : LicenseId) (data : CreateMeterInput)
  | archiveLicenseMeter (id : LicenseId) (name reason : String)
  | topUpLicenseMeter (id : LicenseId) (name : String) (units : Number) (reason : String)
  | adjustLicenseMeter (id : LicenseId) (name : String) (delta : Number) (reason : String)
  | linkLicense (id : LicenseId) (subscriptionId : String)
  | unlinkLicense (id : LicenseId)
  | syncLicense (id : LicenseId)
  | receive (event : Except Failure StripeEvent)
  | processDue (limit : Number)

inductive Response
  | session (result : LicenseSessionResult)
  | usage (result : ConsumeUsageResult)
  | license (license : ManagedLicense)
  | revealed (license : RevealedLicense)
  | meter (meter : LicenseMeter)
  | link (result : Option StripeLinkResult)
  | count (count : Nat)
  | flag (value : Bool)
  | receipt (receipt : StripeWebhookReceipt)
  | batch (result : StripeWebhookBatchResult)
  | done

variable (host : Host)

def program : Request → Server Response
  | .activate licenseKey deviceId ip =>
      .session <$> LicenseService.activate host licenseKey deviceId ip
  | .heartbeat sessionToken deviceId ip =>
      .session <$> LicenseService.heartbeat host sessionToken deviceId ip
  | .consume sessionToken deviceId ip input =>
      .usage <$> LicenseService.consume host sessionToken deviceId ip input
  | .deactivate sessionToken deviceId ip =>
      (fun _ => .done) <$> LicenseService.deactivate host sessionToken deviceId ip
  | .createCustomer id => (fun _ => .done) <$> AdminService.createCustomer id
  | .deleteCustomer id => (fun _ => .done) <$> AdminService.deleteCustomer id
  | .createLicense data => .revealed <$> AdminService.createLicense host data
  | .updateLicense id data => .license <$> AdminService.updateLicense host id data
  | .renewSubscription id expiresAt => .license <$> AdminService.renewSubscription host id expiresAt
  | .deleteLicense id => (fun _ => .done) <$> AdminService.deleteLicense id
  | .revokeLicense id reason => .license <$> AdminService.revokeLicense id reason
  | .restoreLicense id => .license <$> AdminService.restoreLicense id
  | .rotateLicenseKey id => .revealed <$> AdminService.rotateLicenseKey host id
  | .allowLicenseIp id value =>
      (fun change => .flag change.restrictionEnabled) <$> AdminService.allowLicenseIp host id value
  | .removeLicenseAllowedIp id value =>
      .flag <$> AdminService.removeLicenseAllowedIp host id value
  | .allowLicenseDevice id value =>
      (fun change => .flag change.restrictionEnabled) <$> AdminService.allowLicenseDevice id value
  | .removeLicenseAllowedDevice id value =>
      .flag <$> AdminService.removeLicenseAllowedDevice id value
  | .removeRegisteredIp id value => .count <$> AdminService.removeRegisteredIp host id value
  | .removeRegisteredDevice id value => .count <$> AdminService.removeRegisteredDevice id value
  | .resetRegisteredDevices id => .count <$> AdminService.resetRegisteredDevices id
  | .terminateLicenseSessions id => .count <$> AdminService.terminateLicenseSessions id
  | .createLicenseMeter id data => .meter <$> AdminService.createLicenseMeter id data
  | .archiveLicenseMeter id name reason => .meter <$> AdminService.archiveLicenseMeter id name reason
  | .topUpLicenseMeter id name units reason =>
      .meter <$> AdminService.topUpLicenseMeter id name units reason
  | .adjustLicenseMeter id name delta reason =>
      .meter <$> AdminService.adjustLicenseMeter id name delta reason
  | .linkLicense id subscriptionId =>
      (fun result => .link (some result)) <$> StripeSubscriptionService.linkLicense id subscriptionId
  | .unlinkLicense id => .flag <$> StripeSubscriptionService.unlinkLicense id
  | .syncLicense id => .link <$> StripeSubscriptionService.syncLicense id
  | .receive event => .receipt <$> StripeWebhookService.receive event
  | .processDue limit => .batch <$> StripeWebhookService.processDue host limit

def server : System Act Act.Val Failure World Input Move Request Response where
  exec := exec
  environment := move
  program := program host

abbrev ServerView := View Act Act.Val Failure World Request

abbrev ServerState := State Act Act.Val Failure World Request Response

/-- A run of the server from empty databases. -/
abbrev ServerRun (now : Instant) : ServerState → Prop := Run (server host) (World.start now)

section Samples

def sampleHost : Host :=
  { hashLicenseKey := id
    hashBinding := fun binding => binding.ip ++ " " ++ binding.deviceId
    hashUsageEventId := id
    normalizeIpAddress := some
    stripeRepo := true
    baseDelayMs := 1000
    maxDelayMs := 300000 }

def sampleId : LicenseId := ⟨"license", by decide +kernel⟩

def sampleInput (now : Instant) (count : Nat) : Input :=
  { fault := none
    draw := ⟨now, fun index => toString count ++ "-" ++ toString index⟩
    licenseKey := "key " ++ toString count
    licenseId := sampleId
    skipped := [] }

/-- A call that takes so many acts. -/
def sampleCall (call : Nat) (request : Request) (now : Instant) (acts : Nat) :
    List (Choice Input Move Request) :=
  .start call request ::
    (List.range acts).map fun index => .act call (sampleInput now (100 * call + index))

def sampleState (choices : List (Choice Input Move Request)) : Option ServerState :=
  play (server sampleHost) choices (.start (World.start 0))

def sampleActs (call : Nat) (now : Instant) (first count : Nat) : List (Choice Input Move Request) :=
  (List.range' first count).map fun index => .act call (sampleInput now (100 * call + index))

def eventsBefore (kind : ServerEvent → Bool) (events : List ServerEvent) : List ServerEvent :=
  events.takeWhile fun event => !kind event

def eventsAfter (kind : ServerEvent → Bool) (events : List ServerEvent) : List ServerEvent :=
  (events.dropWhile fun event => !kind event).tail

theorem first_event {kind : ServerEvent → Bool} {events : List ServerEvent} (holds : events.any kind = true) :
    ∃ event, events = eventsBefore kind events ++ event :: eventsAfter kind events ∧ kind event = true := by
  have whole := @List.takeWhile_append_dropWhile _ (fun event => !kind event) events
  cases rest : events.dropWhile fun event => !kind event with
  | nil =>
      obtain ⟨event, member, found⟩ := List.any_eq_true.mp holds
      have not := List.dropWhile_eq_nil_iff.mp rest event member
      simp [found] at not
  | cons event late =>
      have first := List.head?_dropWhile_not (fun event => !kind event) events
      refine ⟨event, ?_, ?_⟩
      · rw [eventsBefore, eventsAfter, rest, List.tail_cons, ← rest, whole]
      · simpa [rest] using first

def startedCalls (choices : List (Choice Input Move Request)) : List (Nat × Request) :=
  choices.filterMap fun choice => match choice with
    | .start call request => some (call, request)
    | _ => none

theorem sampled_calls {choices : List (Choice Input Move Request)} {property : ServerState → Bool}
    (played : (sampleState choices).any property = true) :
    ∃ state, ServerRun sampleHost 0 state ∧ property state = true ∧ ∀ call request,
      state.view.requests call = some request → (call, request) ∈ startedCalls choices := by
  obtain ⟨state, made, holds⟩ := (Option.any_eq_true _ _).mp played
  refine ⟨state, play_run .start made, holds, fun call request asked => ?_⟩
  rcases play_requests made asked with before | started
  · cases before
  · exact List.mem_filterMap.mpr ⟨_, started, rfl⟩

theorem sampled_run {choices : List (Choice Input Move Request)} {property : ServerState → Bool}
    (played : (sampleState choices).any property = true) :
    ∃ state, ServerRun sampleHost 0 state ∧ property state = true := by
  obtain ⟨state, run, holds, -⟩ := sampled_calls played
  exact ⟨state, run, holds⟩

def subscriptionSample : List (Choice Input Move Request) :=
  sampleCall 0 (.createCustomer "customer") 0 2 ++
    sampleCall 1 (.createLicense
      { customerId := "customer", type := .subscription, expiresAt := some (.date 100) }) 1 7

end Samples

end Keyzori
