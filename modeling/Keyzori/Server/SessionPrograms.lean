import Keyzori.Server.AdminPrograms
import Keyzori.Server.RuntimePrograms

namespace Keyzori

open Interleaving

variable {host : Host} {request : Request} {trace after : ServerTrace} {α β : Type}
  {binding : SessionBinding} {sessionToken : String}

abbrev Aside (prog : Server α) : Prop := prog.Only fun act => act.aside = true

theorem meets_aside {prog : Server α} (holds : Meets host request prog trace fun _ _ => True)
    (aside : Aside prog) : Meets host request prog trace fun _ after => Along Act.aside trace after :=
  Prog.wp_mono (Prog.wp_restrict holds aside) fun _ _ ended => ended.2

section Aside

theorem aside_act {act : Act} {rest : act.Val → Server β} (aside : act.aside = true)
    (second : ∀ value, Aside (rest value)) : Aside (perform act >>= rest) :=
  Prog.only_bind (Prog.only_call aside) second

theorem aside_except {result : Except Failure α} {rest : α → Server β}
    (second : ∀ value, Aside (rest value)) : Aside (ofExcept result >>= rest) :=
  Prog.only_bind trivial second

theorem aside_withAllowlists (license : License) : Aside (LicenseRepository.withAllowlists license) :=
  aside_act rfl fun _ => aside_act rfl fun _ => trivial

theorem aside_orRollback {body : Server α} (inside : Aside body) : Aside (orRollback body) :=
  Prog.only_tryCatch inside fun _ => aside_act rfl fun _ => trivial

theorem aside_transaction {id : LicenseId} {script : Draw → MeterScript α} :
    Aside (MeterRepository.transaction id (MeterRepository.statements id script)) := by
  refine Prog.only_bind (aside_orRollback ?_) fun _ => aside_act rfl fun _ => trivial
  exact aside_act rfl fun _ => aside_act rfl fun _ => aside_act rfl fun _ =>
    aside_except fun _ => trivial

end Aside

section License

variable {resolved : ResolvedSession} {license : LicenseWithAllowlists}

theorem presents_other (asked : request.presents = true) : request.activates = false := by
  cases request <;> first | rfl | cases asked

def Refreshed (host : Host) (binding : SessionBinding) (trace : ServerTrace) (sessionToken : String)
    (resolved : ResolvedSession) : Prop :=
  Took trace (.refreshSession sessionToken (host.hashBinding binding)) (some resolved)

theorem rejectSession_meets {error : Failure} (asked : request.presents = true)
    (refreshed : Refreshed host binding trace sessionToken resolved) :
    Meets host request (LicenseService.rejectSession host resolved.token binding error) trace
      fun result _ => ∀ license, result ≠ .ok license := by
  refine removeSessionBestEffort_meets (.refused sessionToken _ resolved asked refreshed) fun _ => ?_
  intro license same
  cases same

theorem checkPolicy_quiet : Quiet (LicenseService.checkPolicy license binding) := by
  refine Prog.only_bind (quiet_act rfl fun now => ?_) fun _ => ?_
  · cases statusError (deriveLicenseStatus license.toLicense now.now) <;> trivial
  · cases assertAllowed license binding <;> trivial

theorem checkPolicy_aside : Aside (LicenseService.checkPolicy license binding) := by
  refine Prog.only_bind (aside_act rfl fun now => ?_) fun _ => ?_
  · cases statusError (deriveLicenseStatus license.toLicense now.now) <;> trivial
  · cases assertAllowed license binding <;> trivial

theorem checkSessionLicense_meets (asked : request.presents = true)
    (refreshed : Refreshed host binding trace sessionToken resolved) :
    Meets host request (LicenseService.checkSessionLicense host license resolved binding) trace
      fun result after => ∀ accepted, result = .ok accepted →
        Along Act.aside trace after ∧ license.sessionRevision = resolved.sessionRevision := by
  rw [LicenseService.checkSessionLicense]
  split
  · exact Prog.wp_mono (rejectSession_meets asked refreshed) fun _ _ rejected accepted same =>
      absurd same (rejected accepted)
  · next same =>
    refine meets_bind (fun result after => ∀ value, result = .ok value → Along Act.aside trace after) ?_
      (fun _ _ along _ _ => ⟨along _ rfl, not_not.mp same⟩) (fun _ _ _ _ same => by cases same)
    refine Prog.wp_tryCatch (fun _ after => Along Act.aside trace after)
      (meets_aside (meets_end checkPolicy_quiet) checkPolicy_aside) (fun _ _ along _ _ => along) ?_
    rintro error after ⟨deeds, -, rfl⟩
    refine removeSessionBestEffort_meets (.refused sessionToken _ resolved asked ?_) fun _ => ?_
    · exact List.mem_append_left _ refreshed
    · intro value same
      cases same

theorem requireActiveSessionLicense_meets (asked : request.presents = true)
    (refreshed : Refreshed host binding trace sessionToken resolved) :
    Meets host request (LicenseService.requireActiveSessionLicense host resolved binding) trace
      fun result after => ∀ license, result = .ok license → Accepted after sessionToken := by
  have refused : ∀ later, Refreshed host binding later sessionToken resolved →
      Meets host request (LicenseService.rejectSession host resolved.token binding invalidSession) later
        fun result after => ∀ license, result = .ok license → Accepted after sessionToken := fun _ still =>
    Prog.wp_mono (rejectSession_meets asked still) fun _ _ rejected license same => absurd same (rejected license)
  rw [LicenseService.requireActiveSessionLicense]
  cases plain : LicenseService.sessionLicenseId resolved with
  | none => exact refused trace refreshed
  | some id =>
      refine meets_act True.intro (fun found => ?_) (fun _ _ same => by cases same)
      have first : Refreshed host binding (trace ++ [⟨.findLicense id, .ok found⟩]) sessionToken resolved :=
        took_append.mpr (.inl refreshed)
      cases found with
      | none => exact refused _ first
      | some found =>
          have read : Took (trace ++ [⟨.findLicense id, .ok (some found)⟩]) (.findLicense id) (some found) :=
            took_append.mpr (.inr rfl)
          generalize trace ++ [⟨.findLicense id, .ok (some found)⟩] = trace at first read
          refine meets_bind (fun result after => Refreshed host binding after sessionToken resolved ∧
            ∀ license, result = .ok (some license) → Along Act.aside
              (trace ++ [⟨.findLicense found.id, .ok (some license.toLicense)⟩]) after) ?_ ?_
            (fun _ _ _ _ same => by cases same)
          · refine meets_act True.intro (fun again => ?_)
              (fun _ => ⟨took_append.mpr (.inl first), fun _ same => by cases same⟩)
            have second : Refreshed host binding (trace ++ [⟨.findLicense found.id, .ok again⟩])
                sessionToken resolved := took_append.mpr (.inl first)
            cases again with
            | none => exact ⟨second, fun _ same => by cases same⟩
            | some license =>
                refine meets_bind _ (Prog.wp_restrict withAllowlists_meets (aside_withAllowlists license)) ?_ ?_
                · rintro policy after ⟨⟨quietly, same⟩, along⟩
                  refine ⟨took_along quietly second, fun other returned => ?_⟩
                  cases returned
                  rw [same policy rfl]
                  exact along
                · rintro error after ⟨⟨quietly, -⟩, -⟩
                  exact ⟨took_along quietly second, fun _ same => by cases same⟩
          · rintro again after ⟨still, along⟩
            cases again with
            | none => exact refused after still
            | some license =>
                refine Prog.wp_mono (checkSessionLicense_meets asked still) fun result last checked accepted same => ?_
                obtain ⟨rest, revision⟩ := checked accepted same
                obtain ⟨deeds, kinds, rfl⟩ := along_trans (along license rfl) rest
                refine ⟨trace, deeds, resolved, _, id, found, license.toLicense, first, plain, read, ?_,
                  revision, fun deed member other same => ?_⟩
                · rw [List.append_assoc]
                  rfl
                · have aside := kinds deed member
                  rw [same] at aside
                  cases aside

theorem resolveSession_meets (asked : request.presents = true) :
    Meets host request (LicenseService.resolveSession host sessionToken binding) trace
      fun result after => ∀ license, result = .ok license → Accepted after sessionToken := by
  refine meets_act asked (fun refreshed => ?_) (fun _ _ same => by cases same)
  cases refreshed with
  | none => exact fun _ same => by cases same
  | some resolved => exact requireActiveSessionLicense_meets asked (took_append.mpr (.inr rfl))

theorem accepted_along (along : Along Act.aside trace after) (accepted : Accepted trace sessionToken) :
    Accepted after sessionToken := by
  obtain ⟨before, middle, resolved, hash, id, first, license, refreshed, plain, read, rfl, revision, last⟩ :=
    accepted
  obtain ⟨deeds, kinds, rfl⟩ := along
  refine ⟨before, middle ++ deeds, resolved, hash, id, first, license, refreshed, plain, read, by simp,
    revision, fun deed member other same => ?_⟩
  rcases List.mem_append.mp member with old | new
  · exact last deed old other same
  · have aside := kinds deed new
    rw [same] at aside
    cases aside

end License

section Calls

variable {deviceId ip : String}

theorem heartbeat_meets (asked : request.presents = true) (used : request.usesSession = true) :
    Meets host request (LicenseService.heartbeat host sessionToken deviceId ip) trace
      fun result after => (∃ session, result = .ok session) → Accepted after sessionToken := by
  have failed : ∀ error : Failure, ¬∃ session : LicenseSessionResult,
      (Except.error error : Except Failure LicenseSessionResult) = .ok session := by
    rintro error ⟨session, same⟩
    cases same
  refine meets_except (fun binding _ => ?_) (fun _ _ same => absurd same (failed _))
  refine meets_bind _ (resolveSession_meets asked) ?_ (fun _ _ _ same => absurd same (failed _))
  intro license first accepted
  have settled := accepted license rfl
  have other : request.activates = true → ¬Uncommitted first := fun activates => by
    cases request <;> cases asked <;> cases activates
  refine meets_bind _ (touchBestEffort_meets used other) ?_ (fun _ _ _ same => absurd same (failed _))
  rintro _ second ⟨-, touched⟩
  refine meets_capture fun captured _ => ?_
  exact accepted_along (along_step touched rfl captured) settled

theorem consumeUnits_meets {license : License} {input : UsageRequest}
    (asked : request.presents = true) (bounded : 1 ≤ input.units ∧ input.units ≤ maxLicenseLimit) :
    Meets host request (LicenseService.consumeUnits host license input) trace
      fun _ after => Along Act.aside trace after := by
  rw [LicenseService.consumeUnits]
  split
  · exact along_refl
  · refine meets_bind _ (meets_aside (transaction_meets fun locked _ held =>
      statements_meets (presents_other asked) held ?_) aside_transaction) ?_ (fun _ _ along => along)
    · intro after region table now result _ ran
      exact .consume _ _ _ now result asked ran bounded
    · rintro result after along
      refine meets_except (fun response _ => ?_) (fun _ _ => along)
      cases result with
      | consumed remaining duplicate =>
          exact meets_capture fun captured => along_step along rfl captured
      | _ => exact along

theorem consume_meets {input : ConsumeUsageInput} (asked : request.presents = true) :
    Meets host request (LicenseService.consume host sessionToken deviceId ip input) trace
      fun result after => (∃ usage, result = .ok usage) → Accepted after sessionToken := by
  have failed : ∀ error : Failure, ¬∃ usage : ConsumeUsageResult,
      (Except.error error : Except Failure ConsumeUsageResult) = .ok usage := by
    rintro error ⟨usage, same⟩
    cases same
  refine meets_except (fun binding _ => ?_) (fun _ _ same => absurd same (failed _))
  refine Prog.wp_tryCatch
    (fun result after => (∃ usage, result = .ok usage) → Accepted after sessionToken) ?_
    (fun _ _ accepted => accepted) (fun _ _ _ => meets_capture fun _ same => absurd same (failed _))
  refine meets_domain (fun units valid => ?_) (fun _ _ same => absurd same (failed _))
  refine meets_bind _ (resolveSession_meets asked) ?_ (fun _ _ _ same => absurd same (failed _))
  intro license first accepted
  refine Prog.wp_mono (consumeUnits_meets asked (validateUsageInput_ok valid).2.2.2) fun result after along _ => ?_
  exact accepted_along along (accepted license rfl)

theorem enrichDeactivation_quiet (resolved : ResolvedSession) :
    Quiet (LicenseService.enrichDeactivation resolved) := by
  rw [LicenseService.enrichDeactivation]
  cases LicenseService.sessionLicenseId resolved with
  | none => trivial
  | some id => exact Prog.only_tryCatch (quiet_act rfl fun _ => trivial) fun _ => trivial

theorem deactivate_meets (asked : request = .deactivate sessionToken deviceId ip) :
    Meets host request (LicenseService.deactivate host sessionToken deviceId ip) trace fun _ _ => True := by
  refine meets_except (fun binding bound => ?_) (fun _ _ => trivial)
  refine meets_act (.deactivated sessionToken deviceId ip binding asked bound) (fun removed => ?_)
    (fun _ => trivial)
  cases removed with
  | none => trivial
  | some resolved =>
      exact meets_end (Prog.only_bind (enrichDeactivation_quiet resolved) fun _ => quiet_capture _)

end Calls

end Keyzori
