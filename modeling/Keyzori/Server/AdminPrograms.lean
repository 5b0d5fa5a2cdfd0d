import Keyzori.Server.ProgramRules

namespace Keyzori

open Interleaving

variable {host : Host} {request : Request} {trace : ServerTrace} {α β : Type}

section Licenses

variable {id : LicenseId}

theorem deleteLicense_meets (asked : request = .deleteLicense id) (idle : Idle trace) :
    Meets host request (AdminService.deleteLicense id) trace fun _ _ => True := by
  refine meets_requireLicense (fun license => ?_) (fun _ _ => trivial)
  have calm := @idle_append trace ⟨.findLicense id, .ok (some license)⟩ idle rfl
  refine meets_act ⟨calm, asked⟩ (fun _ => ?_) (fun _ => trivial)
  refine meets_cleanup ?_ (fun _ _ => ?_)
  · exact .license (by simp [Took]) asked
  · exact meets_end (quiet_capture _)

theorem invalidating_meets {writes : List Write} {action message : String}
    (held : Commits host request trace id writes) :
    Meets host request (do
      let _ ← firstOrThrow (← commit id none writes) action
      LicenseRepository.reload id message) trace fun result after => match result with
        | .ok license => ∃ written, after = trace ++ [⟨.commit id none writes, .ok (some written)⟩] ++
            [⟨.findLicense id, .ok (some license)⟩]
        | .error _ => True := by
  refine meets_act held (fun row => ?_) (fun _ => trivial)
  refine meets_firstOrThrow (fun written found => ?_) (fun _ => trivial)
  subst found
  refine meets_act True.intro (fun found => ?_) (fun _ => trivial)
  cases found with
  | none => trivial
  | some license => exact ⟨written, rfl⟩

theorem reloaded_cleans {writes : List Write} {written : Written} {license : License}
    (asked : request.invalidates = some id) :
    Cleans request (trace ++ [⟨.commit id none writes, .ok (some written)⟩] ++
      [⟨.findLicense id, .ok (some license)⟩]) id license.sessionRevision := by
  refine .reloaded writes written license asked (inOrder_append.mpr (.inr ⟨?_, rfl⟩)) rfl
  exact List.mem_append_right _ (.head _)

theorem revokeLicense_meets {text : String} (asked : request = .revokeLicense id text) :
    Meets host request (AdminService.revokeLicense id text) trace fun _ _ => True := by
  refine meets_requireLicense (fun license => ?_) (fun _ _ => trivial)
  refine meets_domain (fun normalizedReason _ => ?_) (fun _ _ => trivial)
  refine meets_act True.intro (fun now => ?_) (fun _ => trivial)
  refine meets_bind _ (invalidating_meets (.revoked id _ normalizedReason text asked)) ?_
    (fun _ _ _ => trivial)
  rintro updated _ ⟨written, rfl⟩
  refine meets_cleanup (reloaded_cleans (by rw [asked]; rfl)) (fun _ _ => ?_)
  exact meets_end (Prog.only_bind (quiet_capture _) fun _ => quiet_managed _)

theorem terminateLicenseSessions_meets (asked : request = .terminateLicenseSessions id) :
    Meets host request (AdminService.terminateLicenseSessions id) trace fun _ _ => True := by
  refine meets_requireLicense (fun license => ?_) (fun _ _ => trivial)
  refine meets_bind _ (invalidating_meets (.terminated id asked)) ?_ (fun _ _ _ => trivial)
  rintro updated _ ⟨written, rfl⟩
  refine meets_cleanup (reloaded_cleans (by rw [asked]; rfl)) (fun _ _ => ?_)
  exact meets_end (Prog.only_bind (quiet_capture _) fun _ => trivial)

theorem restoreLicense_meets (asked : request = .restoreLicense id) :
    Meets host request (AdminService.restoreLicense id) trace fun _ _ => True := by
  refine meets_requireLicense (fun license => ?_) (fun _ _ => trivial)
  refine meets_bind (fun _ _ => True) ?_ ?_ (fun _ _ _ => trivial)
  · refine meets_bind (fun _ _ => True) ?_ ?_ (fun _ _ _ => trivial)
    · refine meets_act (.restored id asked) (fun rows => ?_) (fun _ => trivial)
      cases rows <;> trivial
    · exact fun _ _ _ => meets_end (quiet_reload _ _)
  · exact fun _ _ _ => meets_end (Prog.only_bind (quiet_capture _) fun _ => quiet_managed _)

theorem unchanged_append {current : License} {row : StoredLicense} {deed : ServerDeed}
    (unchanged : Unchanged request trace id current row) (continues : deed.act.ends = false) :
    Unchanged request (trace ++ [deed]) id current row :=
  ⟨initial_grows unchanged.read (List.prefix_append _ _),
    within_append.mpr ⟨continues, .inl unchanged.locked⟩, unchanged.version⟩

theorem unchanged_locked {current : License} {row : StoredLicense}
    (read : Initial request trace id current) (version : row.updatedAt = current.updatedAt) :
    Unchanged request (trace ++ [⟨.lockRow id, .ok (some row)⟩]) id current row :=
  ⟨initial_grows read (List.prefix_append _ _), within_append.mpr ⟨rfl, .inr rfl⟩, version⟩

theorem rotateKey_meets {current : License} {licenseKey : String}
    (asked : request = .rotateLicenseKey id) (read : Initial request trace id current) :
    Meets host request (LicenseRepository.rotateKey host id licenseKey current.updatedAt) trace
      fun result after => match result with
        | .ok rotated => ∃ keyHash keyPrefix written,
            Took after (.commit id none [.rotateKey keyHash keyPrefix]) (some written) ∧
              rotated.sessionRevision = written.after.row.sessionRevision
        | .error _ => True := by
  refine meets_bind (fun result after => match result with
    | .ok _ => ∃ row, Unchanged request after id current row
    | .error _ => True) ?_ ?_ (fun _ _ _ => trivial)
  · refine meets_orRollback (fun result after => match result with
      | .ok _ => ∃ row, Unchanged request after id current row
      | .error _ => True) ?_ (fun _ _ holds => holds) (fun _ _ _ _ _ => trivial)
    refine meets_act True.intro (fun found => ?_) (fun _ => trivial)
    cases found with
    | none => trivial
    | some row =>
        dsimp only
        split
        · trivial
        · next same =>
          refine meets_last True.intro fun result => ?_
          cases result with
          | error error => trivial
          | ok revoked =>
              exact ⟨row, unchanged_append (unchanged_locked read (not_not.mp same)) rfl⟩
  · rintro revoked after ⟨row, unchanged⟩
    refine meets_act (.rotated id current row _ _ asked unchanged) (fun rows => ?_) (fun _ => trivial)
    refine meets_firstOrThrow (fun written found => ?_) (fun _ => trivial)
    subst found
    exact ⟨_, _, written, took_append.mpr (.inr rfl), rfl⟩

theorem rotateLicenseKey_meets (asked : request = .rotateLicenseKey id) :
    Meets host request (AdminService.rotateLicenseKey host id) [] fun result after =>
      match result with
      | .ok _ => ∃ written keyHash keyPrefix,
          Took after (.commit id none [.rotateKey keyHash keyPrefix]) (some written)
      | .error _ => True := by
  refine meets_requireLicense (fun current => ?_) (fun _ _ => trivial)
  refine meets_act True.intro (fun licenseKey => ?_) (fun _ => trivial)
  have read : Initial request ([] ++ [⟨.findLicense id, .ok (some current)⟩] ++
      [⟨.licenseKey, .ok licenseKey⟩]) id current :=
    initial_grows (initial_read (.inr rfl)) (List.prefix_append _ _)
  refine meets_bind _ (rotateKey_meets asked read) ?_ (fun _ _ _ => trivial)
  rintro rotated after ⟨keyHash, keyPrefix, written, committed, revision⟩
  refine meets_cleanup (.rotated keyHash keyPrefix written asked committed revision) (fun _ _ => ?_)
  refine meets_quiet (quiet_capture _) (fun _ after quietly => ?_) (fun _ _ _ => trivial)
  exact ⟨written, keyHash, keyPrefix, took_along quietly (took_append.mpr (.inl committed))⟩

end Licenses

section Registrations

variable {id : LicenseId} {filter : DeviceFilter} {always : Bool}

theorem normalizedIp_quiet (value : String) : Quiet (AdminService.normalizedIp host value) := by
  rw [AdminService.normalizedIp]
  cases host.normalizeIpAddress value <;> trivial

/-- What a removal transaction hands to the cleanup. -/
def Invalidated (id : LicenseId) (writes : List Write) (trace : ServerTrace) : Option Nat → Prop
  | some revision => .incrementSessionRevision ∈ writes ∧ ∃ row, Within trace (.lockRow id) (some row) ∧
      revision = row.sessionRevision + 1
  | none => ∃ license, InOrder trace ⟨.findLicense id, .ok (some license)⟩ ⟨.lockRow id, .ok none⟩

theorem removalStatements_meets {license : License} (asked : request.removes = some (id, always))
    (read : Took trace (.findLicense id) (some license)) :
    Meets host request (AdminService.removalStatements id filter always) trace fun result after =>
      match result with
      | .ok ((count, revision), writes) => Commits host request after id writes ∧
          ((always || decide (count > 0)) = true → Invalidated id writes after revision)
      | .error _ => True := by
  refine meets_act True.intro (fun _ => ?_) (fun _ => trivial)
  refine meets_bind (fun result after => match result with
    | .ok (count, removal) => removal = [.deleteDevices filter] ∧
        Took after (.findLicense id) (some license) ∧ Under after (.registration id)
          (.query fun tables => ((tables.devices id).filter filter.selects).length) count
    | .error _ => True) ?_ ?_ (fun _ _ _ => trivial)
  · refine meets_act True.intro (fun count => ?_) (fun _ => trivial)
    refine ⟨rfl, ?_, under_append.mpr ⟨rfl, .inr ⟨?_, rfl⟩⟩⟩
    · exact took_append.mpr (.inl (took_append.mpr (.inl read)))
    · exact holding_append.mpr ⟨rfl, .inr rfl⟩
  · rintro ⟨count, removal⟩ after ⟨rfl, read, counted⟩
    by_cases increments : (always || decide (count > 0)) = true
    · simp only [AdminService.incrementWhen, increments, if_true]
      refine meets_bind (fun result after => match result with
        | .ok (revision, increment) => Increments after id always count increment ∧
            Under after (.registration id)
              (.query fun tables => ((tables.devices id).filter filter.selects).length) count ∧
            Invalidated id increment after revision
        | .error _ => True) ?_ ?_ (fun _ _ _ => trivial)
      · refine meets_act True.intro (fun found => ?_) (fun _ => trivial)
        have still := (@under_append after ⟨.lockRow id, .ok found⟩).mpr ⟨rfl, .inl counted⟩
        have locked : Within (after ++ [⟨.lockRow id, .ok found⟩]) (.lockRow id) found :=
          within_append.mpr ⟨rfl, .inr rfl⟩
        cases found with
        | none =>
            have found : InOrder (after ++ [⟨.lockRow id, .ok none⟩])
                ⟨.findLicense id, .ok (some license)⟩ ⟨.lockRow id, .ok none⟩ :=
              inOrder_append.mpr (.inr ⟨read, rfl⟩)
            exact ⟨.missing license locked found, still, license, found⟩
        | some row => exact ⟨.incremented row locked, still, .head _, row, locked, rfl⟩
      · rintro ⟨revision, increment⟩ after ⟨increments, counted, invalidated⟩
        refine ⟨.removed id filter always count increment asked counted increments, fun _ => ?_⟩
        cases revision with
        | none => exact invalidated
        | some revision => exact ⟨List.mem_cons_of_mem _ invalidated.1, invalidated.2⟩
    · have kept : (always || decide (count > 0)) = false := by simpa using increments
      simp only [AdminService.incrementWhen, kept, Bool.false_eq_true, if_false]
      exact ⟨.removed id filter always count [] asked counted (.kept kept), fun asked =>
        absurd (asked.symm.trans kept) (by simp)⟩

theorem cleanUpRemoval_meets {license : License} (asked : request.removes = some (id, always))
    (read : Took trace (.findLicense id) (some license)) :
    Meets host request (AdminService.cleanUpRemoval id filter always) trace fun _ _ => True := by
  refine meets_bind (fun result after => match result with
    | .ok (count, revision) => ∃ before result writes,
        after = before ++ [⟨.commit id none writes, .ok result⟩] ∧
          ((always || decide (count > 0)) = true → Invalidated id writes before revision)
    | .error _ => True) ?_ ?_ (fun _ _ _ => trivial)
  · refine meets_bind (fun result after => match result with
      | .ok ((count, revision), writes) => Commits host request after id writes ∧
          ((always || decide (count > 0)) = true → Invalidated id writes after revision)
      | .error _ => True) ?_ ?_ (fun _ _ _ => trivial)
    · exact meets_orRollback _ (removalStatements_meets asked read) (fun _ _ holds => holds)
        (fun _ _ _ _ _ => trivial)
    · rintro ⟨⟨count, revision⟩, writes⟩ after ⟨commits, invalidated⟩
      refine meets_act commits (fun written => ?_) (fun _ => trivial)
      exact ⟨after, written, writes, rfl, invalidated⟩
  · rintro ⟨count, revision⟩ after ⟨before, result, writes, rfl, invalidated⟩
    dsimp only
    split
    · next increments =>
      refine meets_cleanup ?_ (fun _ _ => meets_end (Prog.only_bind (quiet_capture _) fun _ => trivial))
      have own := invalidated increments
      cases revision with
      | none =>
          obtain ⟨license, found⟩ := own
          exact .missing license always asked (inOrder_append.mpr (.inl found))
      | some revision =>
          obtain ⟨incremented, row, locked, same⟩ := own
          exact .removed before [] row writes result always asked rfl incremented locked same
    · trivial

theorem removeRegisteredIp_meets {value : String} (asked : request = .removeRegisteredIp id value) :
    Meets host request (AdminService.removeRegisteredIp host id value) trace fun _ _ => True := by
  refine meets_requireLicense (fun license => ?_) (fun _ _ => trivial)
  refine meets_quiet (normalizedIp_quiet value) (fun ip _ quietly => ?_) (fun _ _ _ => trivial)
  exact cleanUpRemoval_meets (by rw [asked]; rfl) (took_along quietly (took_append.mpr (.inr rfl)))

theorem removeRegisteredDevice_meets {value : String}
    (asked : request = .removeRegisteredDevice id value) :
    Meets host request (AdminService.removeRegisteredDevice id value) trace fun _ _ => True := by
  refine meets_requireLicense (fun license => ?_) (fun _ _ => trivial)
  refine meets_domain (fun device _ => ?_) (fun _ _ => trivial)
  exact cleanUpRemoval_meets (by rw [asked]; rfl) (took_append.mpr (.inr rfl))

theorem resetRegisteredDevices_meets (asked : request = .resetRegisteredDevices id) :
    Meets host request (AdminService.resetRegisteredDevices id) trace fun _ _ => True := by
  refine meets_requireLicense (fun license => ?_) (fun _ _ => trivial)
  exact cleanUpRemoval_meets (by rw [asked]; rfl) (took_append.mpr (.inr rfl))

end Registrations

section Allowlists

variable {id : LicenseId} {write : Write}

theorem addAllowed_meets {constraint : String} {rest : Unit → Server β}
    (asked : request.allows = some id) (listed : write.allowlist = true)
    (quiet : ∀ value, Quiet (rest value)) :
    Meets host request (AccessRepository.addAllowed id write constraint >>= rest) trace
      fun _ _ => True := by
  refine meets_bind (fun _ _ => True) ?_ (fun value _ _ => meets_end (quiet value)) (fun _ _ _ => trivial)
  refine meets_act (.allowed id write listed asked) (fun rows => ?_) (fun _ => trivial)
  cases rows <;> trivial

theorem removeAllowed_meets {deleted : LicenseData → Bool} {rest : Bool → Server β}
    (asked : request.allows = some id) (listed : write.allowlist = true)
    (quiet : ∀ value, Quiet (rest value)) :
    Meets host request (AccessRepository.removeAllowed id write deleted >>= rest) trace
      fun _ _ => True := by
  refine meets_bind (fun _ _ => True) ?_ (fun value _ _ => meets_end (quiet value)) (fun _ _ _ => trivial)
  exact meets_act (.allowed id write listed asked) (fun rows => trivial) (fun _ => trivial)

theorem getAccessRecords_quiet : Quiet (AccessRepository.getAccessRecords id) :=
  quiet_act rfl fun _ => quiet_act rfl fun _ => trivial

theorem allowLicenseIp_meets {value : String} (asked : request = .allowLicenseIp id value) :
    Meets host request (AdminService.allowLicenseIp host id value) trace fun _ _ => True := by
  refine meets_requireLicense (fun license => ?_) (fun _ _ => trivial)
  refine meets_quiet (normalizedIp_quiet value) (fun ip _ _ => ?_) (fun _ _ _ => trivial)
  refine meets_quiet getAccessRecords_quiet (fun before _ _ => ?_) (fun _ _ _ => trivial)
  exact addAllowed_meets (by rw [asked]; rfl) rfl fun _ => Prog.only_bind (quiet_capture _) fun _ => trivial

theorem removeLicenseAllowedIp_meets {value : String}
    (asked : request = .removeLicenseAllowedIp id value) :
    Meets host request (AdminService.removeLicenseAllowedIp host id value) trace fun _ _ => True := by
  refine meets_requireLicense (fun license => ?_) (fun _ _ => trivial)
  refine meets_quiet (normalizedIp_quiet value) (fun ip _ _ => ?_) (fun _ _ _ => trivial)
  refine removeAllowed_meets (by rw [asked]; rfl) rfl fun removed => Prog.only_bind ?_ fun _ => trivial
  cases removed
  · trivial
  · exact quiet_capture _

theorem allowLicenseDevice_meets {value : String} (asked : request = .allowLicenseDevice id value) :
    Meets host request (AdminService.allowLicenseDevice id value) trace fun _ _ => True := by
  refine meets_requireLicense (fun license => ?_) (fun _ _ => trivial)
  refine meets_domain (fun device _ => ?_) (fun _ _ => trivial)
  refine meets_quiet getAccessRecords_quiet (fun before _ _ => ?_) (fun _ _ _ => trivial)
  exact addAllowed_meets (by rw [asked]; rfl) rfl fun _ => Prog.only_bind (quiet_capture _) fun _ => trivial

theorem removeLicenseAllowedDevice_meets {value : String}
    (asked : request = .removeLicenseAllowedDevice id value) :
    Meets host request (AdminService.removeLicenseAllowedDevice id value) trace fun _ _ => True := by
  refine meets_requireLicense (fun license => ?_) (fun _ _ => trivial)
  refine meets_domain (fun device _ => ?_) (fun _ _ => trivial)
  refine removeAllowed_meets (by rw [asked]; rfl) rfl fun removed => Prog.only_bind ?_ fun _ => trivial
  cases removed
  · trivial
  · exact quiet_capture _

end Allowlists

section Meters

variable {id : LicenseId}

def Staged (host : Host) (request : Request) (id : LicenseId)
    (result : Except Failure (α × List Write)) (trace : ServerTrace) : Prop :=
  ∀ value writes, result = .ok (value, writes) → Commits host request trace id writes

theorem prepared_error (error : Failure) :
    Staged host request id (.error error : Except Failure (α × List Write)) trace := by
  intro value writes returned
  cases returned

theorem adjusts_other (asked : request.adjusts = some id) : request.activates = false := by
  cases request <;> first | rfl | cases asked

theorem statements_meets {script : Draw → MeterScript α} (other : request.activates = false)
    (held : Holding trace (.meter id))
    (scripts : ∀ after region table now result, Quietly trace after →
      ((script now).run region) = .ok (some table, result) →
        MeterScripts request after id region table) :
    Meets host request (MeterRepository.statements id script) trace (Staged host request id) := by
  refine meets_act True.intro (fun now => ?_) (fun _ => prepared_error _)
  refine meets_act True.intro (fun region => ?_) (fun _ => prepared_error _)
  refine meets_except (fun written ran => ?_) (fun _ _ => prepared_error _)
  obtain ⟨table, result⟩ := written
  rintro _ _ returned
  cases returned
  cases table with
  | none => exact .nothing id other
  | some table =>
      refine .metered id region table ?_ (scripts _ region table now result ?_ ran)
      · exact under_append.mpr ⟨rfl, .inr ⟨holding_append.mpr ⟨rfl, .inl held⟩, rfl⟩⟩
      · exact along_step (along_step along_refl rfl _) rfl _

theorem transaction_meets {body : Server (α × List Write)}
    (statements : ∀ after, Onward trace after → Holding after (.meter id) →
      Meets host request body after (Staged host request id)) :
    Meets host request (MeterRepository.transaction id body) trace fun _ _ => True := by
  refine meets_bind (Staged host request id) ?_ ?_ (fun _ _ _ => trivial)
  · refine meets_orRollback _ ?_ (fun _ _ holds => holds) (fun _ _ _ _ _ => prepared_error _)
    refine meets_act True.intro (fun _ => ?_) (fun _ => prepared_error _)
    exact statements _ (along_step along_refl rfl _) (holding_append.mpr ⟨rfl, .inr rfl⟩)
  · rintro ⟨result, writes⟩ after commits
    exact meets_act (commits _ _ rfl) (fun _ => trivial) (fun _ => trivial)

def Redrafted (id : LicenseId) (trace : ServerTrace) : Prop :=
  ∃ meterNames written, Took trace (.commit id none [.meterDraft meterNames]) written

theorem redrafted_along {kind : Act → Bool} {after : ServerTrace} (along : Along kind trace after)
    (redrafted : Redrafted id trace) : Redrafted id after := by
  obtain ⟨meterNames, written, took⟩ := redrafted
  exact ⟨meterNames, written, took_along along took⟩

theorem updateMeterDraft_meets (asked : request.meters = some id) :
    Meets host request (AdminService.updateMeterDraft id) trace
      fun result after => result = .ok () → Redrafted id after := by
  refine meets_act True.intro (fun meters => ?_) (fun _ same => by cases same)
  have listed : Took (trace ++ [⟨.query (activeListed id), .ok meters⟩]) (.query (activeListed id)) meters :=
    took_append.mpr (.inr rfl)
  refine meets_bind (fun result after => (∃ license, result = .ok license) → Redrafted id after) ?_
    (fun license _ redrafted _ => redrafted ⟨license, rfl⟩) (fun _ _ _ same => by cases same)
  have failed : ∀ (error : Failure) (after : ServerTrace),
      (∃ license : License, (Except.error error : Except Failure License) = .ok license) →
        Redrafted id after := by
    rintro error after ⟨license, same⟩
    cases same
  refine meets_bind (fun result after => (∃ row, result = .ok row) →
    Took after (.query (activeListed id)) meters) ?_ (fun row after locked => ?_)
    (fun error after _ => failed error after)
  · refine meets_orRollback (fun _ after => Took after (.query (activeListed id)) meters) ?_
      (fun _ _ kept _ => kept) (fun _ _ _ _ _ same => by cases same.choose_spec)
    refine meets_act True.intro (fun found => ?_) (fun _ => took_append.mpr (.inl listed))
    cases found <;> exact took_append.mpr (.inl listed)
  · refine meets_act (.drafted id meters asked (locked ⟨row, rfl⟩)) (fun written => ?_)
      (fun error => failed error _)
    have redrafted : Redrafted id (after ++
        [⟨.commit id none [.meterDraft (sortNames (meters.map LicenseMeter.name))], .ok written⟩]) :=
      ⟨_, written, took_append.mpr (.inr rfl)⟩
    refine Prog.wp_only (quiet_reload _ _) (fun trace act quiet => quiet_warrant quiet trace) ?_
    exact fun _ deeds kinds _ => redrafted_along ⟨deeds, kinds, rfl⟩ redrafted

theorem redraft_meets {type : String} {meter : LicenseMeter} (asked : request.meters = some id) :
    Meets host request (do
      AdminService.updateMeterDraft id
      capture type
      return meter) trace fun result after => (∃ meter, result = .ok meter) → Redrafted id after := by
  refine meets_bind _ (updateMeterDraft_meets asked) ?_ (fun _ _ _ same => by cases same.choose_spec)
  rintro _ after redrafted
  refine meets_capture fun captured _ => ?_
  exact redrafted_along (@along_step Act.quiet _ _ along_refl _ rfl captured) (redrafted rfl)

theorem unended_onward {after : ServerTrace} (onward : Onward trace after)
    (fresh : ∀ deed ∈ trace, deed.act.ends = false) : ∀ deed ∈ after, deed.act.ends = false := by
  obtain ⟨deeds, kinds, rfl⟩ := onward
  intro deed member
  rcases List.mem_append.mp member with old | new
  · exact fresh deed old
  · simpa using kinds deed new

theorem createLicenseMeter_meets {data : CreateMeterInput} (asked : request = .createLicenseMeter id data) :
    Meets host request (AdminService.createLicenseMeter id data) []
      fun result after => (∃ meter, result = .ok meter) → Redrafted id after := by
  refine meets_requireLicense (fun license => ?_) (fun _ _ same => by cases same.choose_spec)
  refine meets_domain (fun meters valid => ?_) (fun _ _ same => by cases same.choose_spec)
  cases meters with
  | nil => exact fun same => by cases same.choose_spec
  | cons input others =>
      refine meets_bind (fun _ _ => True) ?_ (fun meter _ _ => ?_) (fun _ _ _ same => by cases same.choose_spec)
      · refine transaction_meets fun locked onward held => statements_meets (by rw [asked]; rfl) held ?_
        intro after region table now meter quietly ran
        refine .create data _ _ _ now meter asked ?_ ran (validateMeters_bounded valid input (.head _))
        refine unended_onward (along_trans onward (quietly_onward quietly)) fun deed member => ?_
        rw [List.mem_singleton.mp member]
        rfl
      · exact redraft_meets (by rw [asked]; rfl)

theorem archiveLicenseMeter_meets {name text : String}
    (asked : request = .archiveLicenseMeter id name text) :
    Meets host request (AdminService.archiveLicenseMeter id name text) []
      fun result after => (∃ meter, result = .ok meter) → Redrafted id after := by
  refine meets_requireLicense (fun license => ?_) (fun _ _ same => by cases same.choose_spec)
  refine meets_domain (fun meterName _ => ?_) (fun _ _ same => by cases same.choose_spec)
  refine meets_domain (fun normalizedReason _ => ?_) (fun _ _ same => by cases same.choose_spec)
  refine meets_bind (fun _ _ => True) ?_ (fun found after _ => ?_) (fun _ _ _ same => by cases same.choose_spec)
  · refine transaction_meets fun locked onward held => ?_
    refine meets_act True.intro (fun license => ?_) (fun _ => prepared_error _)
    refine statements_meets (by rw [asked]; rfl) (holding_append.mpr ⟨rfl, .inl held⟩) ?_
    intro after region table now meter quietly ran
    refine .archive name text _ _ license now meter asked ?_ ?_ ran
    · refine unended_onward (along_trans (along_step onward rfl _) (quietly_onward quietly))
        fun deed member => ?_
      rw [List.mem_singleton.mp member]
      rfl
    · exact within_quietly quietly (within_append.mpr ⟨rfl, .inr rfl⟩)
  · cases found with
    | none => exact fun same => by cases same.choose_spec
    | some meter =>
        dsimp only
        split
        · exact fun same => by cases same.choose_spec
        · exact redraft_meets (by rw [asked]; rfl)

theorem adjustMeter_meets {name text : String} {delta : Int} {kind : MeterLedgerKind}
    (asked : request.adjusts = some id) (posted : kind ≠ .create ∧ kind ≠ .consume)
    (bounded : -maxLicenseLimit ≤ delta ∧ delta ≤ maxLicenseLimit) :
    Meets host request (AdminService.adjustMeter id name delta text kind) trace fun _ _ => True := by
  refine meets_requireLicense (fun license => ?_) (fun _ _ => trivial)
  refine meets_domain (fun normalizedReason _ => ?_) (fun _ _ => trivial)
  refine meets_domain (fun name _ => ?_) (fun _ _ => trivial)
  refine meets_bind (fun _ _ => True) ?_ (fun result _ _ => ?_) (fun _ _ _ => trivial)
  · refine transaction_meets fun locked _ held => statements_meets (adjusts_other asked) held ?_
    intro after region table now result _ ran
    exact .adjust _ _ _ _ now result asked ran posted bounded
  · exact meets_end (Prog.only_bind (quiet_domain _) fun _ =>
      Prog.only_bind (quiet_capture _) fun _ => trivial)

theorem topUpLicenseMeter_meets {name text : String} {units : Number}
    (asked : request.adjusts = some id) :
    Meets host request (AdminService.topUpLicenseMeter id name units text) trace fun _ _ => True := by
  refine meets_domain (fun units valid => adjustMeter_meets asked (by decide) ?_) (fun _ _ => trivial)
  obtain ⟨-, positive, limit⟩ := validateInteger_bounds valid
  exact MeterRegion.bounded_delta ⟨by omega, limit⟩

theorem adjustLicenseMeter_meets {name text : String} {delta : Number}
    (asked : request.adjusts = some id) :
    Meets host request (AdminService.adjustLicenseMeter id name delta text) trace fun _ _ => True :=
  meets_domain (fun _ valid => adjustMeter_meets asked (by decide) (validateDelta_bounds valid)) (fun _ _ => trivial)

end Meters

section Customers

theorem createCustomer_meets {id : String} (asked : request = .createCustomer id) :
    Meets host request (AdminService.createCustomer id) trace fun _ _ => True :=
  meets_act asked (fun _ => meets_end (quiet_capture _)) (fun _ => trivial)

theorem removeEachBestEffort_meets {ids : List LicenseId}
    (deleted : ∀ trace' id, (∀ deed ∈ trace, deed ∈ trace') → id ∈ ids → Deletes request trace' id) :
    Meets host request (AdminService.removeEachBestEffort ids) trace fun _ _ => True := by
  induction ids generalizing trace with
  | nil => trivial
  | cons id ids ih =>
      refine meets_cleanup (deleted trace id (fun _ member => member) (.head _)) (fun _ _ => ih ?_)
      intro trace' other kept member
      refine deleted trace' other (fun deed old => kept deed ?_) (List.mem_cons_of_mem _ member)
      exact List.mem_append_left _ old

theorem deleteCustomer_meets {id : String} (idle : Idle trace)
    (asked : request = .deleteCustomer id) :
    Meets host request (AdminService.deleteCustomer id) trace fun _ _ => True := by
  refine meets_quiet (quiet_requireCustomer id) (fun _ _ quietly => ?_) (fun _ _ _ => trivial)
  refine meets_act True.intro (fun ids => ?_) (fun _ => trivial)
  refine meets_act ⟨idle_append (idle_quietly quietly idle) rfl, asked⟩ (fun _ => ?_) (fun _ => trivial)
  refine meets_bind (fun _ _ => True) (removeEachBestEffort_meets ?_) ?_ (fun _ _ _ => trivial)
  · intro trace' license kept member
    exact .customer id ids asked (kept _ (by simp)) member (kept _ (by simp))
  · exact fun _ _ _ => meets_end (quiet_capture _)

theorem createLicense_meets {data : CreateLicenseInput} (idle : Idle trace)
    (asked : request = .createLicense data) :
    Meets host request (AdminService.createLicense host data) trace fun _ _ => True := by
  refine meets_quiet (quiet_requireCustomer _) (fun _ _ quietly => ?_) (fun _ _ _ => trivial)
  have calm := idle_quietly quietly idle
  refine meets_domain (fun limits limited => ?_) (fun _ _ => trivial)
  refine meets_domain (fun meters valid => ?_) (fun _ _ => trivial)
  refine meets_act True.intro (fun now => ?_) (fun _ => trivial)
  refine meets_domain (fun config configured => ?_) (fun _ _ => trivial)
  refine meets_act True.intro (fun licenseKey => ?_) (fun _ => trivial)
  refine meets_bind (fun _ _ => True) ?_ (fun _ _ _ => ?_) (fun _ _ _ => trivial)
  · refine meets_act True.intro (fun id => ?_) (fun _ => trivial)
    refine meets_act True.intro (fun drawn => ?_) (fun _ => trivial)
    refine meets_except (fun table made => ?_) (fun _ _ => trivial)
    refine meets_act ⟨?_, ⟨data, limits, config, meters, now.now, asked, valid, configured, rfl⟩, ?_,
      ⟨data, limits, config, meters, limited, rfl⟩⟩ (fun _ => trivial) (fun _ => trivial)
    · exact idle_append (idle_append (idle_append (idle_append calm rfl) rfl) rfl) rfl
    · cases ran : (createLicenseMeters id meters drawn).run none with
      | error error =>
          simp only [AdminService.newLicense, ran] at made
          cases made
      | ok written =>
          simp only [AdminService.newLicense, ran] at made
          cases made
          exact ⟨drawn, written, ran, rfl⟩
  · exact meets_end (Prog.only_bind (quiet_capture _) fun _ => trivial)

end Customers

end Keyzori
