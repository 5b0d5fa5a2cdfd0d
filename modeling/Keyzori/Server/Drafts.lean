import Keyzori.Meters.ActiveNames
import Keyzori.Server.LicenseMeters
import Keyzori.Server.Shape
import Keyzori.Server.Versions

namespace Keyzori

open Interleaving MeterRegion

section Names

theorem codeUnits_valid (char : Char) : char.toNat < 0xD800 ∨ 0xDFFF < char.toNat ∧ char.toNat < 0x110000 :=
  char.valid

/-- UTF-16 tells texts apart, so that no two names sort alike. -/
theorem codeUnits_injective : Function.Injective codeUnits := by
  have chars : ∀ first second : List Char,
      (first.flatMap fun char => if char.toNat < 0x10000 then [char.toNat]
        else [0xD800 + (char.toNat - 0x10000) / 0x400, 0xDC00 + (char.toNat - 0x10000) % 0x400]) =
      (second.flatMap fun char => if char.toNat < 0x10000 then [char.toNat]
        else [0xD800 + (char.toNat - 0x10000) / 0x400, 0xDC00 + (char.toNat - 0x10000) % 0x400]) →
      first = second := by
    intro first
    induction first with
    | nil =>
        intro second same
        cases second with
        | nil => rfl
        | cons char second =>
            rw [List.flatMap_nil, List.flatMap_cons] at same
            split at same <;> cases same
    | cons char first ih =>
        intro second same
        cases second with
        | nil =>
            rw [List.flatMap_nil, List.flatMap_cons] at same
            split at same <;> cases same
        | cons other second =>
            have valid := codeUnits_valid char
            have otherValid := codeUnits_valid other
            rw [List.flatMap_cons, List.flatMap_cons] at same
            have heads : char.toNat = other.toNat := by
              split at same <;> split at same <;>
                simp only [List.cons_append, List.nil_append, List.cons.injEq] at same <;> omega
            obtain rfl : char = other := Char.toNat_inj.mp heads
            rw [ih second (List.append_cancel_left same)]
  intro first second same
  exact String.toList_inj.mp (chars _ _ same)

theorem sortNames_perm {first second : List String} (perm : first.Perm second) :
    sortNames first = sortNames second := by
  have total : Std.Total fun one two : String => codeUnits one ≤ codeUnits two :=
    ⟨fun one two => le_total (codeUnits one) (codeUnits two)⟩
  have trans : IsTrans String fun one two => codeUnits one ≤ codeUnits two :=
    ⟨fun _ _ _ before after => le_trans before after⟩
  have sorted : ∀ names, (sortNames names).Pairwise fun one two => codeUnits one ≤ codeUnits two :=
    List.pairwise_insertionSort _
  refine List.Perm.eq_of_pairwise (fun one two _ _ before after => ?_) (sorted first) (sorted second) ?_
  · exact codeUnits_injective (le_antisymm before after)
  · exact ((List.perm_insertionSort _ _).trans perm).trans (List.perm_insertionSort _ _).symm

theorem sortNames_sorted (names : List String) : sortNames (sortNames names) = sortNames names :=
  sortNames_perm (List.perm_insertionSort _ _)

theorem sortNames_mem {names : List String} {name : String} : name ∈ sortNames names ↔ name ∈ names :=
  (List.perm_insertionSort _ _).mem_iff

def sortedNames (region : MeterRegion) : List String := sortNames (activeNames region)

theorem activeListed_names (id : LicenseId) (tables : Tables) :
    (activeListed id tables).map LicenseMeter.name = sortedNames (tables.meters id) :=
  List.map_insertionSort _ _ _ _ fun _ _ _ _ => Iff.rfl

end Names

section Types

def draftOf (drafts : LicenseTypeDrafts) : LicenseType → LicenseTypeDrafts
  | .subscription => { subscription := drafts.subscription }
  | .trial => { trial := drafts.trial }
  | .metered => { metered := drafts.metered }
  | .lifetime => { lifetime := drafts.lifetime }

def settingsOf (row : LicenseColumns) (meterNames : List String) : LicenseType → LicenseTypeDrafts
  | .subscription => { subscription := some row.expiresAt }
  | .trial => { trial := some row.trialDurationMinutes }
  | .metered => { metered := some meterNames }
  | .lifetime => { lifetime := true }

variable {current : License} {data : UpdateLicenseInput} {target type : LicenseType} {changed : Bool}
  {drafts : LicenseTypeDrafts} {now : Instant} {config : TypeConfig} {meterNames : List String}
  {currentMeters : List LicenseMeter} {newMeters : List NewLicenseMeter}

theorem draftOf_metered {other : LicenseTypeDrafts} (same : draftOf drafts .metered = draftOf other .metered) :
    drafts.metered = other.metered :=
  (LicenseTypeDrafts.mk.inj same).2.2.1

theorem withCurrentDraft_own : draftOf (AdminService.withCurrentDraft current meterNames) current.type =
    settingsOf current.toLicenseColumns (sortNames meterNames) current.type := by
  unfold AdminService.withCurrentDraft
  cases current.type <;> rfl

theorem withCurrentDraft_other (other : type ≠ current.type) :
    draftOf (AdminService.withCurrentDraft current meterNames) type = draftOf current.typeDrafts type := by
  unfold AdminService.withCurrentDraft
  cases same : current.type <;> cases type <;> first | rfl | exact absurd same.symm other

theorem updateTypeConfig_drafts
    (made : AdminService.updateTypeConfig current data target changed drafts now = .ok config)
    (other : type ≠ target) : draftOf config.typeDrafts type = draftOf drafts type := by
  cases target with
  | subscription =>
      simp only [AdminService.updateTypeConfig] at made
      split at made
      · cases made
      · obtain ⟨expiresAt, -, rest⟩ := bind_ok.mp made
        cases expiresAt with
        | none => cases rest
        | some expiresAt =>
            cases rest
            cases type <;> first | rfl | exact absurd rfl other
  | trial =>
      simp only [AdminService.updateTypeConfig] at made
      split at made
      · cases made
      · obtain ⟨duration, -, rest⟩ := bind_ok.mp made
        cases rest
        cases type <;> first | rfl | exact absurd rfl other
  | lifetime =>
      cases made
      cases type <;> first | rfl | exact absurd rfl other
  | metered =>
      cases made
      cases type <;> first | rfl | exact absurd rfl other

theorem editedConfig_other (other : type ≠ target) :
    draftOf (editedConfig target currentMeters newMeters config).typeDrafts type =
      draftOf config.typeDrafts type := by
  unfold editedConfig
  split
  · next metered =>
    subst metered
    cases type <;> first | rfl | exact absurd rfl other
  · rfl

theorem createTypeConfig_drafts {input : CreateLicenseInput}
    (made : AdminService.createTypeConfig input newMeters now = .ok config) : config.typeDrafts.metered =
      if input.type = .metered then some (sortNames (newMeters.map NewLicenseMeter.name)) else none := by
  rcases AdminService.createTypeConfig_ok made with
    ⟨type, expiresAt, rfl⟩ | ⟨type, duration, -, -, rfl⟩ | ⟨type, rfl⟩ | ⟨type, rfl⟩
  · simp [type]
  · simp [type]
  · simp [type]
  · simp [type]

def linkedDrafts (target : LicenseType) (link : Option StripeSubscriptionLink)
    (drafts : LicenseTypeDrafts) : LicenseTypeDrafts :=
  match target, link.bind StripeSubscriptionLink.paidThrough with
  | .subscription, some paidThrough => { drafts with subscription := some (some paidThrough) }
  | _, _ => drafts

theorem linkedDrafts_other {link : Option StripeSubscriptionLink} (other : type ≠ target) :
    draftOf (linkedDrafts target link drafts) type = draftOf drafts type := by
  unfold linkedDrafts
  split
  · cases type <;> first | rfl | exact absurd rfl other
  · rfl

end Types

section Edits

variable {host : Host} {request : Request} {view : ServerView} {call : Nat} {id : LicenseId}
  {data : LicenseData} {stamp : Instant} {row : StoredLicense} {current : License}
  {input : UpdateLicenseInput} {update : LicenseUpdate} {link : Option StripeSubscriptionLink}
  {inserted statements : List Write} {trace : ServerTrace}

structure Redrawn (trace : ServerTrace) (id : LicenseId) (current : License) (input : UpdateLicenseInput)
    (target : LicenseType) (link : Option StripeSubscriptionLink) (inserted : List Write)
    (later : LicenseColumns) (currentMeters : List LicenseMeter) (newMeters : List NewLicenseMeter)
    (config : TypeConfig) (now : Draw) : Prop where
  drawn : Took trace .draw now
  made : AdminService.updateTypeConfig current input target (target ≠ current.type)
    (AdminService.withCurrentDraft current (currentMeters.map LicenseMeter.name)) now.now = .ok config
  listed : InOrder trace ⟨.findLicense id, .ok (some current)⟩
    ⟨.query (activeListed id), .ok currentMeters⟩
  inserts : Inserts trace id (newMeters.filter fun meter =>
    !currentMeters.any fun existing => existing.name = meter.name) inserted
  unmetered : target ≠ .metered → newMeters = []
  type : later.type = target
  duration : later.trialDurationMinutes = config.trialDurationMinutes
  expiry : link = none ∨ target ≠ .subscription → later.expiresAt = config.expiresAt
  drafts : later.typeDrafts = linkedDrafts target link
    (editedConfig target currentMeters newMeters config).typeDrafts

theorem statements_columns {options : LicenseUpdateOptions} {target : LicenseType} {drafts : LicenseTypeDrafts}
    (branch : Statements update options link statements) (type : update.type = some target)
    (drawn : update.typeDrafts = some drafts) :
    (applyWrites stamp statements data).row.type = target ∧
      (applyWrites stamp statements data).row.trialDurationMinutes =
        update.trialDurationMinutes.getD data.row.trialDurationMinutes ∧
      (link = none ∨ target ≠ .subscription → (applyWrites stamp statements data).row.expiresAt =
        update.expiresAt.getD data.row.expiresAt) ∧
      (applyWrites stamp statements data).row.typeDrafts = linkedDrafts target link drafts := by
  cases branch with
  | plain =>
      refine ⟨congrArg (Option.getD · _) type, rfl, fun _ => rfl, (congrArg (Option.getD · _) drawn).trans ?_⟩
      cases target <;> rfl
  | unlinks link other confirmed =>
      refine ⟨congrArg (Option.getD · _) type, rfl, fun _ => rfl, (congrArg (Option.getD · _) drawn).trans ?_⟩
      rw [type] at other
      cases target <;> first | rfl | exact absurd rfl other
  | linked link subscription automatic =>
      obtain rfl := Option.some.inj (type.symm.trans subscription)
      refine ⟨congrArg (Option.getD · _) type, rfl, fun free => ?_, ?_⟩
      · rcases free with absent | other
        · cases absent
        · exact absurd rfl other
      · change Option.getD (update.typeDrafts.map _) _ = _
        rw [drawn]
        unfold linkedDrafts
        cases paid : link.paidThrough <;> simp [paid]

theorem edits_redrawn
    (edits : Edits request trace id input current row update link inserted statements) :
    ∃ currentMeters newMeters config now, Redrawn trace id current input
      (input.type.getD current.type) link inserted
      (applyWrites stamp (inserted ++ statements) data).row.toLicenseColumns currentMeters newMeters
      config now := by
  obtain ⟨options, currentMeters, computed, branch, inserts⟩ := edits.computed
  obtain ⟨limits, config, newMeters, now, drawn, -, metered, made, rfl, rfl⟩ := computed.config
  obtain ⟨drafts, same⟩ := editedConfig_drafts (input.type.getD current.type) currentMeters newMeters config
  have unmetered : input.type.getD current.type ≠ .metered → newMeters = [] := by
    intro other
    by_contra some
    simp [AdminService.checkNewMeters, other, some] at metered
  obtain ⟨type, duration, expiry, later⟩ := @statements_columns (applyWrites stamp inserted data) stamp _ _
    statements _ _ _ (updateStatements_cases branch) rfl rfl
  rw [applyWrites_append]
  refine ⟨currentMeters, newMeters, config, now, drawn, made, computed.listed, inserts, unmetered, type,
    duration.trans ?_, fun free => (expiry free).trans ?_, later⟩
  · rw [same]
    rfl
  · rw [same]
    rfl

variable {target type : LicenseType} {later : LicenseColumns} {currentMeters : List LicenseMeter}
  {newMeters : List NewLicenseMeter} {config : TypeConfig} {now : Draw}

theorem redrawn_other
    (redrawn : Redrawn trace id current input target link inserted later currentMeters newMeters config now)
    (other : type ≠ target) : draftOf later.typeDrafts type =
      draftOf (AdminService.withCurrentDraft current (currentMeters.map LicenseMeter.name)) type := by
  rw [redrawn.drafts, linkedDrafts_other other, editedConfig_other other,
    updateTypeConfig_drafts redrawn.made other]

/-- The metered draft of an update: the names it listed and added, those it listed, or
the names of before. -/
theorem redrawn_metered
    (redrawn : Redrawn trace id current input target link inserted later currentMeters newMeters config now) :
    later.typeDrafts.metered =
      if target = .metered then some (sortNames (currentMeters.map LicenseMeter.name ++
        newMeters.map NewLicenseMeter.name).dedup)
      else if current.type = .metered then some (sortNames (currentMeters.map LicenseMeter.name))
      else current.typeDrafts.metered := by
  split
  · next metered =>
    subst metered
    rw [redrawn.drafts]
    rfl
  · next other =>
    rw [draftOf_metered (redrawn_other redrawn (Ne.symm other))]
    split
    · next type => rw [AdminService.withCurrentDraft, type]
    · next type => exact draftOf_metered (withCurrentDraft_other (Ne.symm type))

end Edits

section Listing

variable {host : Host} {request : Request} {view : ServerView} {call : Nat} {id : LicenseId}
  {data : LicenseData} {stamp now : Instant} {writes : List Write}

inductive Drafting (request : Request) (trace : ServerTrace) (id : LicenseId) (old new : LicenseData) :
    List Write → Prop
  | kept (writes : List Write) (other : ∀ meterNames, writes ≠ [.meterDraft meterNames])
      (drafts : new.row.typeDrafts = old.row.typeDrafts) (type : new.row.type = old.row.type)
      (names : activeNames (some new.meters) = activeNames (some old.meters)) :
      Drafting request trace id old new writes
  | changed (table : MeterTable) (asked : request.meters = some id)
      (first : ∀ deed ∈ trace, deed.act.ends = false) (row : new.row = old.row) :
      Drafting request trace id old new [.meters table]
  | drafted (meters : List LicenseMeter) (asked : request.meters = some id)
      (listed : Took trace (.query (activeListed id)) meters)
      (drafts : new.row.typeDrafts = { old.row.typeDrafts with
        metered := some (sortNames (meters.map LicenseMeter.name)) })
      (type : new.row.type = old.row.type) (same : new.meters = old.meters) :
      Drafting request trace id old new [.meterDraft (sortNames (meters.map LicenseMeter.name))]
  | edited (input : UpdateLicenseInput) (current : License) (row : StoredLicense) (update : LicenseUpdate)
      (link : Option StripeSubscriptionLink) (inserted statements : List Write)
      (edits : Edits request trace id input current row update link inserted statements) :
      Drafting request trace id old new (inserted ++ statements)

theorem commits_drafting (sound : Sound view) (commits : Commits host request (view.trace call) id writes)
    (present : view.world.tables.licenses id = some data) :
    Drafting request (view.trace call) id data (applyWrites stamp writes data) writes := by
  cases commits with
  | metered id region table read scripts =>
      obtain rfl := scripts_region sound read scripts present
      cases scripts with
      | create input name balance reason drawn meter asked first ran =>
          exact .changed table (by rw [asked]; rfl) first rfl
      | archive text reasonText name reason row drawn meter asked first locked ran =>
          exact .changed table (by rw [asked]; rfl) first rfl
      | adjust name delta reason kind drawn result asked ran =>
          exact .kept _ (by simp) rfl rfl (labels_names (adjustMeter_labels ran))
      | consume name units eventIdHash drawn result asked ran =>
          exact .kept _ (by simp) rfl rfl (labels_names (consumeMeter_labels ran))
  | edited id input current row update link inserted statements edits =>
      exact .edited input current row update link inserted statements edits
  | drafted id meters asked listed => exact .drafted meters asked listed rfl rfl rfl
  | admitted binding license row started registered admitting starts registers =>
      cases starts <;> cases registers <;> exact .kept _ (by simp) rfl rfl rfl
  | removed id filter always count increment asked counted increments =>
      cases increments <;> exact .kept _ (by simp) rfl rfl rfl
  | reconciled subscriptionId existing locked id row fetched drawn reconciling type =>
      cases paid : fetched.snapshot.paidThrough <;> exact .kept _ (by simp) rfl rfl rfl
  | allowed id write listed asked =>
      cases write <;> first | exact .kept _ (by simp) rfl rfl rfl | cases listed
  | _ => exact .kept _ (by simp) rfl rfl rfl

theorem move_meters (event : Move) (world : World) (id : LicenseId) :
    (move event world).tables.meters id = world.tables.meters id := by
  cases event <;> rfl

/-- A call for the meters of a license changed them, and no row was written since. -/
structure Renamed (host : Host) (now : Instant) (view : ServerView) (id : LicenseId) (row : StoredLicense)
    (before : List ServerEvent) (change : ServerEvent) (after : List ServerEvent) (earlier : ServerView)
    (request : Request) : Prop where
  happened : Happened host now view before change earlier request
  history : view.history = before ++ change :: after
  asked : request.meters = some id
  act : ∃ expected table, change.act = .commit id expected [.meters table]
  first : ∀ deed ∈ earlier.trace change.call, deed.act.ends = false
  changed : sortedNames (change.after.tables.meters id) ≠ sortedNames (change.before.tables.meters id)
  rows : ∀ event ∈ after, event.before.tables.row id = some row ∧ event.after.tables.row id = some row

/-- While an update runs, the active meters that it listed stay as they are, unless a
call for the meters changes them. -/
theorem listed_renamed {last : ServerView} (run : ServerAllowedRun host (.start (World.start now)) view)
    (further : ServerAllowedRun host (.start (World.start now)) last) {event : ServerEvent}
    {rest : List ServerEvent} (later : last.history = view.history ++ event :: rest)
    (world : event.before = view.world) {current : License} {row : StoredLicense}
    {meters : List LicenseMeter} (unchanged : Unchanged request (view.trace call) id current row)
    (present : view.world.tables.licenses id = some data)
    (listed : InOrder (view.trace call) ⟨.findLicense id, .ok (some current)⟩
      ⟨.query (activeListed id), .ok meters⟩) :
    meters.map LicenseMeter.name = sortedNames (some data.meters) ∨
      ∃ early list ahead change after earlier request', list.call = call ∧
        list.deed = ⟨.query (activeListed id), .ok meters⟩ ∧
        Renamed host now view id row (early ++ list :: ahead) change after earlier request' := by
  have sound := allowedRun_sound run (start_sound now)
  obtain ⟨early, read, between, list, late, history, own, deed, mine, query⟩ := ordered_events listed
  have rows := row_since sound unchanged present history own deed
  obtain ⟨input, ran⟩ := deed_ran query (sound.recorded list (by simp [history])).ran
  obtain ⟨same, found⟩ := exec_query ran
  by_cases steady : sortedNames (list.before.tables.meters id) = sortedNames (some data.meters)
  · exact .inl (by rw [found, activeListed_names, steady])
  · refine .inr ?_
    have shape : last.history = (early ++ read :: between) ++ list :: (late ++ event :: rest) := by
      simp [later, history]
    have broken : ¬sortedNames (event.before.tables.meters id) = sortedNames (list.before.tables.meters id) := by
      rw [world, Tables.meters, present]
      exact Ne.symm steady
    obtain ⟨ahead, change, after, rfl, held, lost, -⟩ := @allowed_breaks _ _ _ _ _ _ _ _ _ _
      (fun world : World =>
        sortedNames (world.tables.meters id) = sortedNames (list.before.tables.meters id)) _ _
      (fun move world => by simp only [server, move_meters]) further rfl _ _ _ _ _ shape (by rw [same])
      broken
    have shape : view.history = (early ++ read :: between ++ list :: ahead) ++ change :: after := by
      simp [history]
    obtain ⟨earlier, request', happened⟩ := allowedRun_event run shape
    have stayed := rows change (by simp)
    obtain ⟨old, there, sameOld⟩ := Option.map_eq_some_iff.mp stayed.1
    obtain ⟨new, later, sameNew⟩ := Option.map_eq_some_iff.mp stayed.2
    have changed : sortedNames (change.after.tables.meters id) ≠ sortedNames (change.before.tables.meters id) :=
      fun kept => lost (kept.trans held)
    have lost := changed
    rw [Tables.meters, later, Tables.meters, there] at lost
    have stamp : new.row.updatedAt = old.row.updatedAt := by rw [sameOld, sameNew]
    cases happened_changes happened there later with
    | kept => exact absurd rfl lost
    | relabelled => exact absurd rfl lost
    | committed expected writes time act commits =>
        have moved : (∃ write ∈ writes, write.locksRow = true) → False := fun locks =>
          absurd (stamp ▸ @applyWrites_stamp old writes time locks) (lt_irrefl _)
        cases commits_drafting happened.sound commits (happened.world ▸ there) with
        | kept writes other drafts type names => exact absurd (congrArg sortNames names) lost
        | drafted => exact (moved ⟨_, .head _, rfl⟩).elim
        | edited input current row update link inserted statements edits =>
            obtain ⟨-, final, shape | shape⟩ := edits_shape edits <;>
              exact (moved ⟨.updateLicense final, by simp [shape], rfl⟩).elim
        | changed table asked first =>
            exact ⟨_, list, ahead, change, after, earlier, request', mine, query, happened, shape, asked,
              ⟨expected, table, act⟩, first, changed, fun event member => rows event (by simp [member])⟩

end Listing

end Keyzori
