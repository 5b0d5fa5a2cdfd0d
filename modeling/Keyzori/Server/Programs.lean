import Keyzori.Server.EditPrograms
import Keyzori.Server.SessionPrograms
import Keyzori.Server.StripePrograms

namespace Keyzori

open Interleaving

/-- A successful call has committed what it reports; an activation that fails has not. -/
def outcome (host : Host) (request : Request) : Except Failure Response → ServerTrace → Prop :=
  match request with
  | .activate _ _ _ => fun result trace => match result with
      | .ok response => ∃ session, response = .session session ∧
          Admitted host request trace session.sessionToken
      | .error _ => Refused trace
  | .heartbeat sessionToken _ _ | .consume sessionToken _ _ _ => fun result trace =>
      ∀ response, result = .ok response → Accepted trace sessionToken
  | .updateLicense id _ | .renewSubscription id _ => fun result trace =>
      ∀ response, result = .ok response → ∃ type, Committed id type trace
  | .createLicenseMeter id _ | .archiveLicenseMeter id _ _ => fun result trace =>
      ∀ response, result = .ok response → Redrafted id trace
  | .rotateLicenseKey id => fun result trace => ∀ response, result = .ok response →
      ∃ written keyHash keyPrefix,
        Took trace (.commit id none [.rotateKey keyHash keyPrefix]) (some written)
  | _ => fun _ _ => True

section Map

variable {host : Host} {request : Request} {trace : ServerTrace} {α β : Type}
  {prog : Server α} {respond : α → β}

theorem meets_map {post : Except Failure α → ServerTrace → Prop}
    {weak : Except Failure β → ServerTrace → Prop} (holds : Meets host request prog trace post)
    (implies : ∀ result after, post result after → weak (result.map respond) after) :
    Meets host request (respond <$> prog) trace weak :=
  meets_bind post holds (fun value after => implies (.ok value) after)
    (fun error after => implies (.error error) after)

theorem meets_mapped (holds : Meets host request prog trace fun _ _ => True) :
    Meets host request (respond <$> prog) trace fun _ _ => True :=
  meets_map holds fun _ _ _ => trivial

theorem meets_success {done : ServerTrace → Prop}
    (holds : Meets host request prog trace fun result after => (∃ value, result = .ok value) → done after) :
    Meets host request (respond <$> prog) trace
      fun result after => ∀ response, result = .ok response → done after := by
  refine meets_map holds fun result after implied response same => ?_
  cases result with
  | ok value => exact implied ⟨value, rfl⟩
  | error error => cases same

end Map

section Runs

variable {host : Host}

theorem program_meets (request : Request) :
    Meets host request (program host request) [] (outcome host request) := by
  rw [program.eq_def, outcome.eq_def]
  cases request with
  | activate licenseKey deviceId ip =>
      refine meets_map (activate_meets rfl) fun result after ended => ?_
      cases result with
      | ok session => exact ⟨session, rfl, ended⟩
      | error error => exact ended
  | heartbeat sessionToken deviceId ip =>
      exact meets_success (heartbeat_meets rfl rfl)
  | consume sessionToken deviceId ip input =>
      exact meets_success (consume_meets rfl)
  | deactivate sessionToken deviceId ip => exact meets_mapped (deactivate_meets rfl)
  | createCustomer id => exact meets_mapped (createCustomer_meets rfl)
  | deleteCustomer id => exact meets_mapped (deleteCustomer_meets idle_nil rfl)
  | createLicense data => exact meets_mapped (createLicense_meets idle_nil rfl)
  | updateLicense id data => exact meets_success (updateLicense_meets rfl (.inr rfl))
  | renewSubscription id expiresAt => exact meets_success (renewSubscription_meets rfl)
  | deleteLicense id => exact meets_mapped (deleteLicense_meets rfl idle_nil)
  | revokeLicense id reason => exact meets_mapped (revokeLicense_meets rfl)
  | restoreLicense id => exact meets_mapped (restoreLicense_meets rfl)
  | rotateLicenseKey id =>
      refine meets_success (Prog.wp_mono (rotateLicenseKey_meets rfl) ?_)
      rintro result after rotated ⟨license, rfl⟩
      exact rotated
  | allowLicenseIp id value => exact meets_mapped (allowLicenseIp_meets rfl)
  | removeLicenseAllowedIp id value => exact meets_mapped (removeLicenseAllowedIp_meets rfl)
  | allowLicenseDevice id value => exact meets_mapped (allowLicenseDevice_meets rfl)
  | removeLicenseAllowedDevice id value => exact meets_mapped (removeLicenseAllowedDevice_meets rfl)
  | removeRegisteredIp id value => exact meets_mapped (removeRegisteredIp_meets rfl)
  | removeRegisteredDevice id value => exact meets_mapped (removeRegisteredDevice_meets rfl)
  | resetRegisteredDevices id => exact meets_mapped (resetRegisteredDevices_meets rfl)
  | terminateLicenseSessions id => exact meets_mapped (terminateLicenseSessions_meets rfl)
  | createLicenseMeter id data => exact meets_success (createLicenseMeter_meets rfl)
  | archiveLicenseMeter id name reason => exact meets_success (archiveLicenseMeter_meets rfl)
  | topUpLicenseMeter id name units reason => exact meets_mapped (topUpLicenseMeter_meets rfl)
  | adjustLicenseMeter id name delta reason => exact meets_mapped (adjustLicenseMeter_meets rfl)
  | linkLicense id subscriptionId => exact meets_mapped (linkLicense_meets rfl)
  | unlinkLicense id => exact meets_mapped (unlinkLicense_meets rfl)
  | syncLicense id => exact meets_mapped (syncLicense_meets rfl)
  | receive event => exact meets_mapped (receive_meets rfl)
  | processDue limit => exact meets_mapped (processDue_meets rfl idle_nil)

abbrev ServerAllowed (host : Host) : ServerView → ServerView → Prop :=
  Allowed (server host) (warrant host)

abbrev ServerAllowedRun (host : Host) : ServerView → ServerView → Prop :=
  AllowedRun (server host) (warrant host)

theorem server_run_allowed {now : Instant} {state : ServerState} (run : ServerRun host now state) :
    ServerAllowedRun host (.start (World.start now)) state.view :=
  (run_allowed (@program_meets host) run).1

theorem server_run_outcome {now : Instant} {state : ServerState} (run : ServerRun host now state)
    {call : Nat} {result : Except Failure Response} (ended : state.pool call = some (.done result)) :
    ∃ request, state.view.requests call = some request ∧
      outcome host request result (state.view.trace call) :=
  (run_allowed (@program_meets host) run).2.2 call _ ended

end Runs

end Keyzori
