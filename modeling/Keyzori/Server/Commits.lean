import Keyzori.Server.Effects
import Keyzori.Server.Warrants

namespace Keyzori

open Interleaving

variable {host : Host} {request : Request} {trace : ServerTrace} {id : LicenseId}
  {writes : List Write}

section Edits

/-- The branches of an update on the link that it found. -/
inductive Statements (update : LicenseUpdate) (options : LicenseUpdateOptions) :
    Option StripeSubscriptionLink → List Write → Prop
  | plain : Statements update options none [.updateLicense update]
  | unlinks (link : StripeSubscriptionLink) (other : update.type ≠ some .subscription)
      (confirmed : options.confirmStripeUnlink = true) :
      Statements update options (some link) [.deleteLink, .updateLicense update]
  | linked (link : StripeSubscriptionLink) (type : update.type = some .subscription)
      (automatic : options.manualExpiresAtUpdate = false) :
      Statements update options (some link) [.updateLicense { update with
        expiresAt := none
        typeDrafts := update.typeDrafts.map fun drafts => match link.paidThrough with
          | some paidThrough => { drafts with subscription := some (some paidThrough) }
          | none => drafts }]

variable {update : LicenseUpdate} {options : LicenseUpdateOptions}
  {link : Option StripeSubscriptionLink} {statements inserted : List Write}

theorem updateStatements_cases
    (branch : LicenseRepository.updateStatements update options link = .ok statements) :
    Statements update options link statements := by
  simp only [LicenseRepository.updateStatements] at branch
  split at branch
  · next other =>
    split at branch
    · cases branch
    · next confirmed =>
      cases link with
      | none =>
          cases branch
          exact .plain
      | some link =>
          cases branch
          exact .unlinks link other (by simpa using confirmed)
  · next type =>
    cases link with
    | none =>
        cases branch
        exact .plain
    | some link =>
        dsimp only at branch
        split at branch
        · cases branch
        · next automatic =>
          cases branch
          exact .linked link (not_not.mp type) (Bool.eq_false_iff.mpr automatic)

theorem statements_shape (cases : Statements update options link statements) :
    ∃ final, statements = [.updateLicense final] ∨ statements = [.deleteLink, .updateLicense final] := by
  cases cases with
  | plain => exact ⟨_, .inl rfl⟩
  | unlinks => exact ⟨_, .inr rfl⟩
  | linked => exact ⟨_, .inl rfl⟩

theorem inserts_shape {newMeters : List NewLicenseMeter} (inserts : Inserts trace id newMeters inserted) :
    inserted = [] ∨ ∃ table, inserted = [.meters table] := by
  cases inserts with
  | nothing => exact .inl rfl
  | missing => exact .inl rfl
  | inserted region table => exact .inr ⟨table, rfl⟩

theorem edits_shape {data : UpdateLicenseInput} {current : License} {row : StoredLicense}
    (edits : Edits request trace id data current row update link inserted statements) :
    (inserted = [] ∨ ∃ table, inserted = [.meters table]) ∧ ∃ final,
      statements = [.updateLicense final] ∨ statements = [.deleteLink, .updateLicense final] := by
  obtain ⟨options, currentMeters, -, branch, inserts⟩ := edits.computed
  exact ⟨inserts_shape inserts, statements_shape (updateStatements_cases branch)⟩

@[grind →] theorem edits_member {data : UpdateLicenseInput} {current : License} {row : StoredLicense} {write : Write}
    (edits : Edits request trace id data current row update link inserted statements)
    (member : write ∈ inserted ++ statements) :
    (∃ table, write = .meters table) ∨ write = .deleteLink ∨ ∃ final, write = .updateLicense final := by
  obtain ⟨meters, final, shape⟩ := edits_shape edits
  rcases List.mem_append.mp member with new | last
  · rcases meters with rfl | ⟨table, rfl⟩
    · cases new
    · exact .inl ⟨table, List.mem_singleton.mp new⟩
  · rcases shape with rfl | rfl
    · exact .inr (.inr ⟨final, List.mem_singleton.mp last⟩)
    · rcases List.mem_cons.mp last with rfl | last
      · exact .inr (.inl rfl)
      · exact .inr (.inr ⟨final, List.mem_singleton.mp last⟩)

end Edits

section Members

@[grind →] theorem startsTrial_member {row : StoredLicense} {started : List Write} {write : Write}
    (starts : StartsTrial trace row started) (member : write ∈ started) :
    ∃ now, write = .startTrial now := by
  cases starts with
  | running => cases member
  | first now => exact ⟨now.now, List.mem_singleton.mp member⟩

@[grind →] theorem registers_member {binding : SessionBinding} {license : License} {row : StoredLicense}
    {registered : List Write} {write : Write} (registers : Registers trace binding license row registered)
    (member : write ∈ registered) : ∃ device, write = .insertDevice device := by
  cases registers with
  | known => cases member
  | new now => exact ⟨_, List.mem_singleton.mp member⟩

@[grind →] theorem increments_member {always : Bool} {count : Nat} {increment : List Write} {write : Write}
    (increments : Increments trace id always count increment) (member : write ∈ increment) :
    write = .incrementSessionRevision := by
  cases increments with
  | incremented => exact List.mem_singleton.mp member
  | _ => cases member

@[grind →] theorem expiry_member {paidThrough : Option Instant} {write : Write}
    (member : write ∈ (paidThrough.map Write.setExpiresAt).toList) :
    ∃ instant, paidThrough = some instant ∧ write = .setExpiresAt instant := by
  cases paidThrough with
  | none => cases member
  | some instant => exact ⟨instant, rfl, List.mem_singleton.mp member⟩

attribute [grind =] Write.allowlist

structure Links (host : Host) (request : Request) (trace : ServerTrace) (id : LicenseId)
    (link : StripeSubscriptionLink) (fetched : FetchedSnapshot) (writes : List Write) : Prop where
  asked : ∃ subscriptionId, request = .linkLicense id subscriptionId ∧
    Fetched trace subscriptionId fetched
  locked : ∃ row, Within trace (.lockRow id) (some row) ∧ row.type = .subscription
  exact : ∃ paidThrough now draw, fetched.snapshot.paidThrough = some paidThrough ∧
    link = (newLink id fetched.snapshot now).row draw ∧
      writes = [.insertLink link fetched, .setExpiresAt paidThrough]

theorem commits_insertLink (commits : Commits host request trace id writes)
    {link : StripeSubscriptionLink} {fetched : FetchedSnapshot}
    (member : .insertLink link fetched ∈ writes) : Links host request trace id link fetched writes := by
  cases commits with
  | linked id subscriptionId row fetched paidThrough now draw asked fetch locked type paid =>
      simp only [List.mem_cons, Write.insertLink.injEq, reduceCtorEq, List.not_mem_nil, or_false] at member
      obtain ⟨rfl, rfl⟩ := member
      exact ⟨⟨subscriptionId, asked, fetch⟩, ⟨row, locked, type⟩, paidThrough, now, draw, paid, rfl, rfl⟩
  | _ => grind

structure Updates (request : Request) (trace : ServerTrace) (id : LicenseId)
    (update : StripeSubscriptionLinkUpdate) (fetched : FetchedSnapshot) (writes : List Write)
    (subscriptionId : String) (existing locked : StripeSubscriptionLink) (row : StoredLicense) :
    Prop where
  reconciling : Reconciling request trace subscriptionId existing locked id (some row) fetched
  type : row.type = .subscription
  exact : ∃ now, update = linkUpdate existing fetched.snapshot now ∧
    writes = .updateLink update fetched :: (fetched.snapshot.paidThrough.map Write.setExpiresAt).toList

theorem commits_updateLink (commits : Commits host request trace id writes)
    {update : StripeSubscriptionLinkUpdate} {fetched : FetchedSnapshot}
    (member : .updateLink update fetched ∈ writes) : ∃ subscriptionId existing locked row,
      Updates request trace id update fetched writes subscriptionId existing locked row := by
  cases commits with
  | reconciled subscriptionId existing locked id row fetched now reconciling type =>
      rcases List.mem_cons.mp member with same | rest
      · cases same
        exact ⟨subscriptionId, existing, locked, row, reconciling, type, now, rfl, rfl⟩
      · simp at rest
  | _ => grind

theorem commits_insertDevice (commits : Commits host request trace id writes) {device : RegisteredDevice}
    (member : .insertDevice device ∈ writes) : ∃ binding license row, id = row.id ∧
      Admitting host request trace binding license row := by
  cases commits with
  | admitted binding license row started registered admitting starts registers =>
      exact ⟨binding, license, row, rfl, admitting⟩
  | _ => grind

theorem commits_deleteDevices (commits : Commits host request trace id writes) {filter : DeviceFilter}
    (member : .deleteDevices filter ∈ writes) : ∃ always count increment,
      request.removes = some (id, always) ∧ writes = .deleteDevices filter :: increment ∧
        Under trace (.registration id)
          (.query fun tables => ((tables.devices id).filter filter.selects).length) count ∧
        Increments trace id always count increment := by
  cases commits with
  | removed id filter always count increment asked counted increments =>
      rcases List.mem_cons.mp member with same | rest
      · cases same
        exact ⟨always, count, increment, asked, rfl, counted, increments⟩
      · cases increments_member increments rest
  | _ => grind

theorem commits_meters (commits : Commits host request trace id writes) {table : MeterTable}
    (member : .meters table ∈ writes) : ∃ region,
      Under trace (.meter id) (.query fun tables => tables.meters id) region ∧
        (MeterScripts request trace id region table ∨ ∃ newMeters now,
          (insertNewMeters id newMeters now).run region = .ok (some table, ())) := by
  cases commits with
  | metered id region table read scripts =>
      cases List.mem_singleton.mp member
      exact ⟨region, read, .inl scripts⟩
  | edited id data current row update link inserted statements edits =>
      obtain ⟨final, shape⟩ := (edits_shape edits).2
      obtain ⟨options, currentMeters, -, -, inserts⟩ := edits.computed
      rcases List.mem_append.mp member with new | last
      · cases inserts with
        | nothing => cases new
        | missing => cases new
        | inserted region table now read ran =>
            cases List.mem_singleton.mp new
            exact ⟨region, read, .inr ⟨options.newMeters, now, ran⟩⟩
      · rcases shape with rfl | rfl <;> simp at last
  | _ => grind

theorem commits_updateLicense (commits : Commits host request trace id writes) {final : LicenseUpdate}
    (member : .updateLicense final ∈ writes) :
    (request = .restoreLicense id ∧
        final = { manualRevokedAt := some none, manualRevocationReason := some none }) ∨
      ∃ data current row update link inserted statements options currentMeters,
        Edits request trace id data current row update link inserted statements ∧
          Computed trace id current data update options currentMeters ∧
          Statements update options link statements ∧ .updateLicense final ∈ statements ∧
          writes = inserted ++ statements := by
  cases commits with
  | restored id asked =>
      cases List.mem_singleton.mp member
      exact .inl ⟨asked, rfl⟩
  | edited id data current row update link inserted statements edits =>
      obtain ⟨options, currentMeters, computed, branch, inserts⟩ := edits.computed
      refine .inr ⟨data, current, row, update, link, inserted, statements, options, currentMeters, edits,
        computed, updateStatements_cases branch, ?_, rfl⟩
      rcases List.mem_append.mp member with new | last
      · rcases inserts_shape inserts with rfl | ⟨table, rfl⟩ <;> simp at new
      · exact last
  | _ => grind

theorem commits_revokes (commits : Commits host request trace id writes) {final : LicenseUpdate}
    (member : .updateWithSessionInvalidation final ∈ writes) : ∃ text stamp reason,
      request = .revokeLicense id text ∧ final =
        { manualRevokedAt := some (some stamp), manualRevocationReason := some (some reason) } := by
  cases commits with
  | revoked id stamp reason text asked =>
      cases List.mem_singleton.mp member
      exact ⟨text, stamp, reason, asked, rfl⟩
  | _ => grind

theorem commits_startTrial (commits : Commits host request trace id writes) {startedAt : Instant}
    (member : .startTrial startedAt ∈ writes) : ∃ binding license row now, id = row.id ∧
      Admitting host request trace binding license row ∧ row.type = .trial ∧
        row.trialStartedAt = none ∧ Took trace .draw now ∧ startedAt = now.now := by
  cases commits with
  | admitted binding license row started registered admitting starts registers =>
      rcases List.mem_append.mp member with first | second
      · cases starts with
        | running => cases first
        | first now type unset drawn =>
            cases List.mem_singleton.mp first
            exact ⟨binding, license, row, now, rfl, admitting, type, unset, drawn, rfl⟩
      · obtain ⟨device, same⟩ := registers_member registers second
        cases same
  | _ => grind

end Members

section Rows

variable {now : Instant} {data : LicenseData}

theorem filter_meters {inserted : List Write} (shape : inserted = [] ∨ ∃ table, inserted = [.meters table]) :
    inserted.filter Write.locksRow = [] := by
  rcases shape with rfl | ⟨table, rfl⟩ <;> rfl

theorem single_once (write : Write) : ([write].filter Write.locksRow).length ≤ 1 :=
  List.length_filter_le _ _

/-- No transaction writes the license row twice. -/
theorem commits_once (commits : Commits host request trace id writes) :
    (writes.filter Write.locksRow).length ≤ 1 := by
  cases commits with
  | admitted binding license row started registered admitting starts registers =>
      cases starts <;> cases registers <;> simp [Write.locksRow, List.filter_cons]
  | removed id filter always count increment asked counted increments =>
      cases increments <;> simp [Write.locksRow, List.filter_cons]
  | edited id data current row update link inserted statements edits =>
      obtain ⟨meters, final, shape⟩ := edits_shape edits
      rw [List.filter_append, filter_meters meters]
      rcases shape with rfl | rfl <;> simp [Write.locksRow, List.filter_cons]
  | reconciled subscriptionId existing locked id row fetched now reconciling type =>
      cases fetched.snapshot.paidThrough <;> simp [Write.locksRow, List.filter_cons]
  | linked => simp [Write.locksRow, List.filter_cons]
  | nothing => exact Nat.zero_le 1
  | _ => exact single_once _

theorem applyWrites_append (first second : List Write) :
    applyWrites now (first ++ second) data = applyWrites now second (applyWrites now first data) :=
  List.foldl_append

theorem unlocked_filter {others : List Write} (empty : (others.filter Write.locksRow).length = 0) :
    ∀ other ∈ others, other.locksRow = false := by
  intro other listed
  have none := List.filter_eq_nil_iff.mp (List.eq_nil_of_length_eq_zero empty) other listed
  exact Bool.eq_false_iff.mpr none

theorem once_row (once : (writes.filter Write.locksRow).length ≤ 1) :
    ((∀ write ∈ writes, write.locksRow = false) ∧ (applyWrites now writes data).row = data.row) ∨
      ∃ write ∈ writes, ∃ row, write.applyRow data.row = some row ∧
        (applyWrites now writes data).row = { row with updatedAt := nextLicenseUpdatedAt now data.row } := by
  by_cases unlocked : ∀ write ∈ writes, write.locksRow = false
  · exact .inl ⟨unlocked, applyWrites_row unlocked⟩
  · push Not at unlocked
    obtain ⟨write, member, locks⟩ := unlocked
    rw [Bool.ne_false_iff] at locks
    obtain ⟨before, after, rfl⟩ := List.append_of_mem member
    rw [List.filter_append, List.filter_cons_of_pos locks, List.length_append, List.length_cons] at once
    have early : ∀ other ∈ before, other.locksRow = false := unlocked_filter (by omega)
    have late : ∀ other ∈ after, other.locksRow = false := unlocked_filter (by omega)
    have kept : (applyWrites now before data).row = data.row := applyWrites_row early
    obtain ⟨row, written⟩ : ∃ row, write.applyRow data.row = some row := by
      cases write <;> first | exact ⟨_, rfl⟩ | cases locks
    refine .inr ⟨write, member, row, written, ?_⟩
    rw [applyWrites_append]
    change (applyWrites now after (write.apply now (applyWrites now before data))).row = _
    rw [applyWrites_row late]
    simp only [Write.apply, kept, written]

theorem once_part (once : (writes.filter Write.locksRow).length ≤ 1) {part : List Write}
    (early : part <+: writes) : (applyWrites now part data).row = data.row ∨
      (applyWrites now part data).row = (applyWrites now writes data).row := by
  obtain ⟨rest, rfl⟩ := early
  rw [List.filter_append, List.length_append] at once
  rcases Nat.eq_zero_or_pos (part.filter Write.locksRow).length with none | some
  · exact .inl (applyWrites_row (unlocked_filter none))
  · have late : ∀ write ∈ rest, write.locksRow = false := unlocked_filter (by omega)
    rw [applyWrites_append, applyWrites_row late]
    exact .inr rfl

end Rows

end Keyzori
