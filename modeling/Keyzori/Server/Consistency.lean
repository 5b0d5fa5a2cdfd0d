import Keyzori.Server.Effects

namespace Keyzori

open ExpiringStore Interleaving

/-- Rows and links have the keys of the tables, and key hashes are never reused. -/
structure TablesSound (world : World) : Prop where
  known : ∀ id, world.tables.licenses id ≠ none → id ∈ world.tables.ids
  rowId : ∀ id data, world.tables.licenses id = some data → data.row.id = id
  linkOwner : ∀ id link, world.tables.link id = some link → link.licenseId = id
  linkUnique : ∀ id other link otherLink, world.tables.link id = some link →
    world.tables.link other = some otherLink → link.subscriptionId = otherLink.subscriptionId →
      id = other
  keyStored : ∀ id data, world.tables.licenses id = some data → data.row.keyHash ∈ world.keyHashes
  keyUnique : ∀ id other data otherData, world.tables.licenses id = some data →
    world.tables.licenses other = some otherData → data.row.keyHash = otherData.row.keyHash →
      id = other

structure SessionsSound (world : World) : Prop where
  kept : Kept sessionTtlSeconds (world.tokens.map Prod.fst) world.sessions
  distinct : (world.tokens.map Prod.fst).Nodup
  carried : ∀ token session, Carries world.sessions token session → (token, session) ∈ world.tokens

/-- What is stored was fetched before, and newer snapshots later. -/
structure SnapshotsSound (world : World) : Prop where
  fetched : ∀ subscriptionId, ∀ stored ∈ world.stored subscriptionId,
    stored.fetched.fetchedAt < world.ticks

structure InboxSound (world : World) : Prop where
  distinct : (world.tables.events.map StripeWebhookEvent.eventId).Nodup
  received : ∀ event ∈ world.tables.events, world.received event.eventId < world.ticks

structure Consistent (world : World) : Prop where
  tables : TablesSound world
  sessions : SessionsSound world
  snapshots : SnapshotsSound world
  inbox : InboxSound world

theorem consistent_start (now : Instant) : Consistent (World.start now) := by
  have empty : ∀ index, (World.start now).sessions.smembers index = [] := fun _ => rfl
  refine ⟨⟨?_, ?_, ?_, ?_, ?_, ?_⟩, ⟨⟨⟨?_, ?_, ?_, ?_, ?_, ?_⟩, ?_⟩, .nil, ?_⟩, ⟨?_⟩, .nil, ?_⟩
  · exact fun id present => absurd rfl present
  · exact fun id data present => by cases present
  · exact fun id link present => by cases present
  · exact fun id other link otherLink present => by cases present
  · exact fun id data present => by cases present
  · exact fun id other data otherData present => by cases present
  · exact fun key value expiresAt present => by cases present
  · exact fun key value expiresAt index present => by cases present
  · exact fun key value expiresAt index deadline present => by cases present
  · exact fun key index value member => by simp [empty] at member
  · exact fun key present => absurd rfl present
  · exact fun key index member => by simp [empty] at member
  · exact fun token value present => by cases present
  · exact fun token session present => by cases present
  · exact fun subscriptionId stored member => by cases member
  · exact fun event member => by cases member

def Write.snapshot : Write → Option FetchedSnapshot
  | insertLink _ fetched | updateLink _ fetched => some fetched
  | _ => none

/-- What a call owes the tables when it commits. -/
structure Wellmade (world : World) (act : Act) : Prop where
  owner : ∀ id expected writes link fetched, act = .commit id expected writes →
    .insertLink link fetched ∈ writes → link.licenseId = id
  fetched : ∀ id expected writes write fetched, act = .commit id expected writes → write ∈ writes →
    write.snapshot = some fetched → fetched.fetchedAt < world.ticks

section Tables

variable {call : Nat} {id : LicenseId} {act : Act} {world next : World} {data : LicenseData}
  {writes : List Write} {now : Instant}

theorem effect_ids (effect : Effect call world act next) (member : id ∈ world.tables.ids) :
    id ∈ next.tables.ids := by
  cases effect with
  | inserted => exact List.mem_cons_of_mem _ member
  | claimed limit now due => rwa [(claim_tables due now world.tables).2]
  | _ => exact member

theorem effect_keyHashes (effect : Effect call world act next) {keyHash : String}
    (member : keyHash ∈ world.keyHashes) : keyHash ∈ next.keyHashes := by
  cases effect with
  | inserted => exact List.mem_cons_of_mem _ member
  | committed => exact List.mem_append_right _ member
  | _ => exact member

/-- Where the rows of a license after an act come from. -/
inductive Origin (call : Nat) (world next : World) (id : LicenseId) (data : LicenseData) : Act → Prop
  | same (act : Act) (before : world.tables.licenses id = some data) : Origin call world next id data act
  | committed (expected : Option Instant) (writes : List Write) (old : LicenseData) (now : Instant)
      (present : world.tables.licenses id = some old)
      (admitted : world.admits call id writes = true)
      (lawful : writes.findSome? (world.tables.violation id) = none)
      (written : data = applyWrites now writes old)
      (exact : next = (world.write id old now writes).release call) :
      Origin call world next id data (.commit id expected writes)
  | inserted (keyHash keyPrefix : String) (new : NewLicense) (meters : MeterTable) (now : Instant)
      (fresh : id ∉ world.tables.ids) (unused : keyHash ∉ world.keyHashes)
      (written : data = ⟨insertedRow id keyHash keyPrefix new now, none, [], [], [], meters⟩)
      (exact : next = world.inserted id keyHash keyPrefix new meters now)
      (lawful : world.tables.meterViolation id meters = none) :
      Origin call world next id data (.insertLicense id keyHash keyPrefix new meters)
  | linkError (subscriptionId error : String) (link : StripeSubscriptionLink) (old : LicenseData)
      (now : Instant) (found : world.tables.findBySubscriptionId subscriptionId = some link)
      (owner : link.licenseId = id) (present : world.tables.licenses id = some old)
      (free : world.free call (.link id) = true)
      (written : data = { old with
        link := some { link with lastError := some error, updatedAt := now } }) :
      Origin call world next id data (.updateLinkError subscriptionId error)

theorem effect_origin (effect : Effect call world act next)
    (present : next.tables.licenses id = some data) : Origin call world next id data act := by
  rcases effect_licenses effect id with same | touched
  · exact .same act (same ▸ present)
  · cases touched with
    | committed expected writes old now before admitted version lawful exact =>
        subst exact
        refine .committed expected writes old now before admitted lawful ?_ rfl
        exact Option.some.inj (present.symm.trans (Function.update_self _ _ _))
    | inserted keyHash keyPrefix new meters now fresh unused exact lawful =>
        subst exact
        refine .inserted keyHash keyPrefix new meters now fresh unused ?_ rfl lawful
        exact Option.some.inj (present.symm.trans (Function.update_self _ _ _))
    | deleted row link exact =>
        subst exact
        exact absurd (present.symm.trans (Function.update_self _ _ _)) (by simp)
    | cascaded customerId owned free exact =>
        subst exact
        simp [World.cascaded, owned] at present
    | linkError subscriptionId error link old now found owner before free exact =>
        subst exact
        refine .linkError subscriptionId error link old now found owner before free ?_
        exact Option.some.inj (present.symm.trans (Function.update_self _ _ _))

theorem effect_known (sound : TablesSound world) (effect : Effect call world act next)
    (present : next.tables.licenses id ≠ none) : id ∈ next.tables.ids := by
  obtain ⟨data, present⟩ := Option.ne_none_iff_exists'.mp present
  cases effect_origin effect present with
  | same _ before => exact effect_ids effect (sound.known id (by simp [before]))
  | committed expected writes old now before => exact effect_ids effect (sound.known id (by simp [before]))
  | linkError subscriptionId error link old now found owner before =>
      exact effect_ids effect (sound.known id (by simp [before]))
  | inserted keyHash keyPrefix new meters now fresh unused written exact =>
      rw [exact]
      exact .head _

theorem findBySubscriptionId_none (sound : TablesSound world) {subscriptionId : String}
    (absent : world.tables.findBySubscriptionId subscriptionId = none) {other : LicenseId}
    {link : StripeSubscriptionLink} (linked : world.tables.link other = some link) :
    link.subscriptionId ≠ subscriptionId := by
  obtain ⟨stored, present, owned⟩ := Option.bind_eq_some_iff.mp linked
  have listed : link ∈ world.tables.allLicenses.filterMap LicenseData.link :=
    List.mem_filterMap.mpr ⟨stored, List.mem_filterMap.mpr
      ⟨other, sound.known other (by simp [present]), present⟩, owned⟩
  simpa using List.find?_eq_none.mp absent link listed

theorem findBySubscriptionId_some (sound : TablesSound world) {subscriptionId : String}
    {link : StripeSubscriptionLink}
    (found : world.tables.findBySubscriptionId subscriptionId = some link) :
    world.tables.link link.licenseId = some link ∧ link.subscriptionId = subscriptionId := by
  have listed := List.mem_of_find?_eq_some found
  obtain ⟨stored, member, linked⟩ := List.mem_filterMap.mp listed
  obtain ⟨other, -, present⟩ := List.mem_filterMap.mp member
  have here : world.tables.link other = some link := by simp [Tables.link, present, linked]
  have owner := sound.linkOwner other link here
  exact ⟨owner ▸ here, by simpa using List.find?_some found⟩

theorem findByKeyHash_some {keyHash : String} {license : License}
    (found : world.tables.findByKeyHash keyHash = some license) :
    ∃ id data, world.tables.licenses id = some data ∧ data.row.keyHash = keyHash ∧
      license = toDomainLicense data.row (data.link.bind StripeSubscriptionLink.billingRevokedAt) := by
  obtain ⟨data, first, rfl⟩ := Option.map_eq_some_iff.mp found
  obtain ⟨id, -, present⟩ := List.mem_filterMap.mp (List.mem_of_find?_eq_some first)
  exact ⟨id, data, present, by simpa using List.find?_some first, rfl⟩

theorem applyWrites_linkOrigin {link : StripeSubscriptionLink}
    (linked : (applyWrites now writes data).link = some link) :
    (∃ old, data.link = some old ∧ old.subscriptionId = link.subscriptionId ∧
      old.licenseId = link.licenseId) ∨
    ∃ inserted fetched, .insertLink inserted fetched ∈ writes ∧
      inserted.subscriptionId = link.subscriptionId ∧ inserted.licenseId = link.licenseId := by
  induction writes generalizing data with
  | nil => exact .inl ⟨link, linked, rfl, rfl⟩
  | cons write writes ih =>
      rcases ih linked with ⟨old, before, subscription, owner⟩ | ⟨inserted, fetched, member, same⟩
      · cases write with
        | insertLink inserted fetched =>
            cases before
            exact .inr ⟨old, fetched, .head _, subscription, owner⟩
        | updateLink update fetched =>
            obtain ⟨earlier, present, rfl⟩ := Option.map_eq_some_iff.mp before
            exact .inl ⟨earlier, present, subscription, owner⟩
        | deleteLink => cases before
        | _ => exact .inl ⟨old, before, subscription, owner⟩
      · exact .inr ⟨inserted, fetched, List.mem_cons_of_mem _ member, same⟩

/-- A link after an act was there before, or its license has just been linked to
a subscription that no license was linked to. -/
theorem effect_link (sound : TablesSound world) (wellmade : Wellmade world act)
    (effect : Effect call world act next) {link : StripeSubscriptionLink}
    (linked : next.tables.link id = some link) :
    link.licenseId = id ∧
      ((∃ old, world.tables.link id = some old ∧ old.subscriptionId = link.subscriptionId) ∨
        (world.tables.findBySubscriptionId link.subscriptionId = none ∧
          ∃ expected writes inserted fetched, act = .commit id expected writes ∧
            .insertLink inserted fetched ∈ writes ∧
            inserted.subscriptionId = link.subscriptionId)) := by
  obtain ⟨data, present, owned⟩ := Option.bind_eq_some_iff.mp linked
  cases effect_origin effect present with
  | same _ before =>
      have here : world.tables.link id = some link := by simp [Tables.link, before, owned]
      exact ⟨sound.linkOwner id link here, .inl ⟨link, here, rfl⟩⟩
  | linkError subscriptionId error old oldData now found owner before free written =>
      obtain ⟨here, -⟩ := findBySubscriptionId_some sound found
      rw [written, Option.some.injEq] at owned
      rw [← owned]
      exact ⟨owner, .inl ⟨old, owner ▸ here, rfl⟩⟩
  | inserted keyHash keyPrefix new meters now fresh unused written exact =>
      rw [written] at owned
      cases owned
  | committed expected writes old now before admitted lawful written exact =>
      rw [written] at owned
      rcases applyWrites_linkOrigin owned with ⟨earlier, had, subscription, owner⟩ |
        ⟨inserted, fetched, member, subscription, owner⟩
      · have here : world.tables.link id = some earlier := by simp [Tables.link, before, had]
        exact ⟨owner ▸ sound.linkOwner id earlier here, .inl ⟨earlier, here, subscription⟩⟩
      · refine ⟨owner ▸ wellmade.owner id expected writes inserted fetched rfl member, .inr ⟨?_, ?_⟩⟩
        · have allowed := List.findSome?_eq_none_iff.mp lawful _ member
          simp only [Tables.violation] at allowed
          split at allowed
          · cases allowed
          · split at allowed
            · cases allowed
            · rw [← subscription]
              simpa using allowed
        · exact ⟨expected, writes, inserted, fetched, rfl, member, subscription⟩

theorem effect_linkUnique (sound : TablesSound world) (wellmade : Wellmade world act)
    (effect : Effect call world act next) {other : LicenseId}
    {link otherLink : StripeSubscriptionLink} (linked : next.tables.link id = some link)
    (otherLinked : next.tables.link other = some otherLink)
    (same : link.subscriptionId = otherLink.subscriptionId) : id = other := by
  obtain ⟨-, old⟩ := effect_link sound wellmade effect linked
  obtain ⟨-, otherOld⟩ := effect_link sound wellmade effect otherLinked
  rcases old with ⟨old, before, key⟩ | ⟨absent, expected, writes, -, -, target, -⟩
  · rcases otherOld with ⟨otherOld, otherBefore, otherKey⟩ | ⟨absent, -⟩
    · exact sound.linkUnique id other old otherOld before otherBefore (by rw [key, otherKey, same])
    · exact absurd (key.trans same) (findBySubscriptionId_none sound absent before)
  · rcases otherOld with ⟨otherOld, otherBefore, otherKey⟩ | ⟨-, otherExpected, otherWrites, -, -, otherTarget, -⟩
    · exact absurd (otherKey.trans same.symm) (findBySubscriptionId_none sound absent otherBefore)
    · exact (Act.commit.inj (target.symm.trans otherTarget)).1

theorem applyWrites_keyHash :
    (applyWrites now writes data).row.keyHash = data.row.keyHash ∨
      (applyWrites now writes data).row.keyHash ∈ writes.flatMap storedKeys := by
  induction writes generalizing data with
  | nil => exact .inl rfl
  | cons write writes ih =>
      rw [List.flatMap_cons, List.mem_append]
      rcases @ih (write.apply now data) with kept | stored
      · have first : (write.apply now data).row.keyHash = data.row.keyHash ∨
            (write.apply now data).row.keyHash ∈ storedKeys write := by
          cases write <;> simp [Write.apply, Write.applyRow, storedKeys, LicenseUpdate.apply]
        change (applyWrites now writes (write.apply now data)).row.keyHash = _ ∨ _
        rcases first with same | new
        · exact .inl (kept.trans same)
        · refine .inr (.inl ?_)
          change (applyWrites now writes (write.apply now data)).row.keyHash ∈ _
          rwa [kept]
      · exact .inr (.inr stored)

theorem admits_fresh (admitted : world.admits call id writes = true) {keyHash : String}
    (stored : keyHash ∈ writes.flatMap storedKeys) : keyHash ∉ world.keyHashes := by
  obtain ⟨write, member, stored⟩ := List.mem_flatMap.mp stored
  have allowed := List.all_eq_true.mp admitted write member
  cases write with
  | rotateKey hash keyPrefix =>
      obtain rfl : keyHash = hash := by simpa [storedKeys] using stored
      simp only [Bool.and_eq_true, decide_eq_true_eq] at allowed
      exact allowed.2
  | _ => cases stored

theorem effect_keyStored (sound : TablesSound world) (effect : Effect call world act next)
    (present : next.tables.licenses id = some data) : data.row.keyHash ∈ next.keyHashes := by
  cases effect_origin effect present with
  | same _ before => exact effect_keyHashes effect (sound.keyStored id data before)
  | linkError subscriptionId error link old now found owner before free written =>
      rw [written]
      exact effect_keyHashes effect (sound.keyStored id old before)
  | inserted keyHash keyPrefix new meters now fresh unused written exact =>
      rw [exact, written]
      exact .head _
  | committed expected writes old now before admitted lawful written exact =>
      rw [exact, written]
      rcases @applyWrites_keyHash old writes now with kept | stored
      · rw [kept]
        exact List.mem_append_right _ (sound.keyStored id old before)
      · exact List.mem_append_left _ stored

def Act.target : Act → Option LicenseId
  | commit id _ _ | insertLicense id _ _ _ _ => some id
  | _ => none

theorem effect_key (effect : Effect call world act next)
    (present : next.tables.licenses id = some data) :
    (∃ old, world.tables.licenses id = some old ∧ old.row.keyHash = data.row.keyHash) ∨
      (data.row.keyHash ∉ world.keyHashes ∧ act.target = some id) := by
  cases effect_origin effect present with
  | same _ before => exact .inl ⟨data, before, rfl⟩
  | linkError subscriptionId error link old now found owner before free written =>
      exact .inl ⟨old, before, by rw [written]⟩
  | inserted keyHash keyPrefix new meters now fresh unused written exact =>
      refine .inr ⟨?_, rfl⟩
      rw [written]
      exact unused
  | committed expected writes old now before admitted lawful written exact =>
      rw [written]
      rcases @applyWrites_keyHash old writes now with kept | stored
      · exact .inl ⟨old, before, kept.symm⟩
      · exact .inr ⟨admits_fresh admitted stored, rfl⟩

theorem effect_keyUnique (sound : TablesSound world) (effect : Effect call world act next)
    {other : LicenseId} {otherData : LicenseData} (present : next.tables.licenses id = some data)
    (otherPresent : next.tables.licenses other = some otherData)
    (same : data.row.keyHash = otherData.row.keyHash) : id = other := by
  rcases effect_key effect present with ⟨old, before, key⟩ | ⟨fresh, target⟩
  · rcases effect_key effect otherPresent with ⟨otherOld, otherBefore, otherKey⟩ | ⟨fresh, -⟩
    · exact sound.keyUnique id other old otherOld before otherBefore (by rw [key, otherKey, same])
    · refine absurd (sound.keyStored id old before) ?_
      rwa [key, same]
  · rcases effect_key effect otherPresent with ⟨otherOld, otherBefore, otherKey⟩ | ⟨-, otherTarget⟩
    · refine absurd (sound.keyStored other otherOld otherBefore) ?_
      rwa [otherKey, ← same]
    · exact Option.some.inj (target.symm.trans otherTarget)

theorem effect_rowId (sound : TablesSound world) (effect : Effect call world act next)
    (present : next.tables.licenses id = some data) : data.row.id = id := by
  cases effect_origin effect present with
  | same _ before => exact sound.rowId id data before
  | linkError subscriptionId error link old now found owner before free written =>
      rw [written]
      exact sound.rowId id old before
  | inserted keyHash keyPrefix new meters now fresh unused written exact => rw [written]; rfl
  | committed expected writes old now before admitted lawful written exact =>
      rw [written]
      exact applyWrites_row_le.id.trans (sound.rowId id old before)

theorem effect_tables (sound : TablesSound world) (wellmade : Wellmade world act)
    (effect : Effect call world act next) : TablesSound next where
  known _ := effect_known sound effect
  rowId _ _ := effect_rowId sound effect
  linkOwner _ _ linked := (effect_link sound wellmade effect linked).1
  linkUnique _ _ _ _ := effect_linkUnique sound wellmade effect
  keyStored _ _ := effect_keyStored sound effect
  keyUnique _ _ _ _ := effect_keyUnique sound effect

end Tables

section Stores

variable {call : Nat} {act : Act} {world next : World}

theorem effect_sessions (sound : SessionsSound world) (effect : Effect call world act next) :
    SessionsSound next := by
  obtain ⟨kept, distinct, carried⟩ := sound
  cases effect with
  | registered id sessionRevision bindingHash maxSessions token fresh =>
      refine ⟨registerSession_kept kept fresh, List.nodup_cons.mpr ⟨fresh, distinct⟩, ?_⟩
      intro other session present
      have origin := (registerSession_carries other session).mp present
      split at origin
      · next new =>
        rw [origin, new.1]
        exact .head _
      · exact List.mem_cons_of_mem _ (carried other session origin.1)
  | refreshed token bindingHash =>
      refine ⟨refreshSession_kept kept, distinct, fun other session present => ?_⟩
      exact carried other session ((refreshSession_carries other session).mp present)
  | removed token bindingHash =>
      refine ⟨removeSession_kept kept, distinct, fun other session present => ?_⟩
      exact carried other session ((removeSession_carries other session).mp present).1
  | removedAll id preserveFromRevision =>
      refine ⟨removeAllSessions_kept kept preserveFromRevision, distinct, fun other session present => ?_⟩
      exact carried other session ((removeAllSessions_carries preserveFromRevision other session).mp present).1
  | _ => exact ⟨kept, distinct, carried⟩

theorem effect_ticks (effect : Effect call world act next) : world.ticks ≤ next.ticks := by
  cases effect <;> first | exact le_rfl | exact Nat.le_succ _

theorem recordSnapshot_cases (link : Option StripeSubscriptionLink)
    (stored : String → List StoredSnapshot) (write : Write) (subscriptionId : String) :
    recordSnapshot link stored write subscriptionId = stored subscriptionId ∨
      ∃ snapshot, write.snapshot = some snapshot.fetched ∧
        recordSnapshot link stored write subscriptionId = snapshot :: stored subscriptionId := by
  cases write with
  | insertLink inserted fetched =>
      by_cases same : subscriptionId = inserted.subscriptionId
      · subst same
        exact .inr ⟨⟨fetched, _, true⟩, rfl, Function.update_self _ _ _⟩
      · exact .inl (Function.update_of_ne same _ _)
  | updateLink update fetched =>
      cases link with
      | none => exact .inl rfl
      | some link =>
          by_cases same : subscriptionId = link.subscriptionId
          · subst same
            exact .inr ⟨⟨fetched, _, false⟩, rfl, Function.update_self _ _ _⟩
          · exact .inl (Function.update_of_ne same _ _)
  | _ => exact .inl rfl

theorem recordSnapshots_grow (link : Option StripeSubscriptionLink) (writes : List Write)
    (stored : String → List StoredSnapshot) (subscriptionId : String) :
    ∃ newer, writes.foldl (recordSnapshot link) stored subscriptionId =
        newer ++ stored subscriptionId ∧
      ∀ snapshot ∈ newer, ∃ write ∈ writes, write.snapshot = some snapshot.fetched := by
  induction writes generalizing stored with
  | nil => exact ⟨[], rfl, by simp⟩
  | cons write writes ih =>
      obtain ⟨newer, shape, origin⟩ := ih (recordSnapshot link stored write)
      have later : ∀ snapshot ∈ newer, ∃ other ∈ write :: writes,
          other.snapshot = some snapshot.fetched := by
        intro snapshot member
        obtain ⟨other, made, same⟩ := origin snapshot member
        exact ⟨other, List.mem_cons_of_mem _ made, same⟩
      rcases recordSnapshot_cases link stored write subscriptionId with same | ⟨first, fetched, grown⟩
      · exact ⟨newer, by rw [List.foldl_cons, shape, same], later⟩
      · refine ⟨newer ++ [first], by rw [List.foldl_cons, shape, grown]; simp, fun snapshot member => ?_⟩
        rcases List.mem_append.mp member with old | new
        · exact later snapshot old
        · rw [List.mem_singleton.mp new]
          exact ⟨write, .head _, fetched⟩

theorem effect_stored (effect : Effect call world act next) (subscriptionId : String) :
    ∃ newer, next.stored subscriptionId = newer ++ world.stored subscriptionId ∧
      ∀ snapshot ∈ newer, ∃ id expected writes write, act = .commit id expected writes ∧
        write ∈ writes ∧ write.snapshot = some snapshot.fetched := by
  cases effect with
  | committed id expected writes data now =>
      obtain ⟨newer, shape, origin⟩ := recordSnapshots_grow data.link writes world.stored subscriptionId
      refine ⟨newer, shape, fun snapshot member => ?_⟩
      obtain ⟨write, made, same⟩ := origin snapshot member
      exact ⟨id, expected, writes, write, rfl, made, same⟩
  | _ => exact ⟨[], rfl, by simp⟩

theorem effect_snapshots (sound : SnapshotsSound world) (wellmade : Wellmade world act)
    (effect : Effect call world act next) : SnapshotsSound next := by
  refine ⟨fun subscriptionId snapshot member => ?_⟩
  obtain ⟨newer, shape, origin⟩ := effect_stored effect subscriptionId
  rw [shape] at member
  rcases List.mem_append.mp member with new | old
  · obtain ⟨id, expected, writes, write, act, made, same⟩ := origin snapshot new
    exact (wellmade.fetched id expected writes write _ act made same).trans_le (effect_ticks effect)
  · exact (sound.fetched subscriptionId snapshot old).trans_le (effect_ticks effect)

theorem claim_ids (due : List StripeWebhookEvent) (now : Instant) (tables : Tables) :
    (due.foldl (fun tables event => updateEvent event.eventId (claimed now) tables)
      tables).events.map StripeWebhookEvent.eventId =
        tables.events.map StripeWebhookEvent.eventId := by
  induction due generalizing tables with
  | nil => rfl
  | cons event due ih => exact (ih _).trans (updateEvent_ids _ _ _ fun _ => rfl)

theorem effect_eventIds (effect : Effect call world act next) :
    (next.tables.events.map StripeWebhookEvent.eventId =
        world.tables.events.map StripeWebhookEvent.eventId ∧ next.received = world.received ∧
          world.ticks ≤ next.ticks) ∨
      ∃ eventId, eventId ∉ world.tables.events.map StripeWebhookEvent.eventId ∧
        next.tables.events.map StripeWebhookEvent.eventId =
          world.tables.events.map StripeWebhookEvent.eventId ++ [eventId] ∧
        next.received = Function.update world.received eventId world.ticks ∧
        next.ticks = world.ticks + 1 := by
  cases effect with
  | enqueued event now fresh =>
      refine .inr ⟨event.eventId, ?_, by simp [newWebhookEvent], rfl, rfl⟩
      simpa using fresh
  | claimed limit now due => exact .inl ⟨claim_ids due now world.tables, rfl, le_rfl⟩
  | processed eventId processedAt => exact .inl ⟨updateEvent_ids _ _ _ fun _ => rfl, rfl, le_rfl⟩
  | failed eventId error nextAttemptAt =>
      exact .inl ⟨updateEvent_ids _ _ _ fun _ => rfl, rfl, le_rfl⟩
  | fetched subscriptionId => exact .inl ⟨rfl, rfl, Nat.le_succ _⟩
  | _ => exact .inl ⟨rfl, rfl, le_rfl⟩

theorem effect_inbox (sound : InboxSound world) (effect : Effect call world act next) :
    InboxSound next := by
  have received : ∀ eventId ∈ world.tables.events.map StripeWebhookEvent.eventId,
      world.received eventId < world.ticks := by
    intro eventId member
    obtain ⟨event, stored, rfl⟩ := List.mem_map.mp member
    exact sound.received event stored
  rcases effect_eventIds effect with ⟨ids, same, ticks⟩ | ⟨eventId, fresh, ids, new, ticks⟩
  · refine ⟨ids ▸ sound.distinct, fun event member => ?_⟩
    have old : event.eventId ∈ world.tables.events.map StripeWebhookEvent.eventId :=
      ids ▸ List.mem_map_of_mem member
    exact same ▸ (received _ old).trans_le ticks
  · refine ⟨?_, fun event member => ?_⟩
    · rw [ids, List.nodup_append]
      refine ⟨sound.distinct, List.nodup_singleton _, ?_⟩
      rintro first member second single rfl
      exact fresh (List.mem_singleton.mp single ▸ member)
    · have listed : event.eventId ∈ next.tables.events.map StripeWebhookEvent.eventId :=
        List.mem_map_of_mem member
      rw [new, ticks]
      rw [ids, List.mem_append, List.mem_singleton] at listed
      by_cases same : event.eventId = eventId
      · simp [same]
      · rw [Function.update_of_ne same]
        exact (received _ (listed.resolve_right same)).trans (Nat.lt_succ_self _)

theorem effect_consistent (sound : Consistent world) (wellmade : Wellmade world act)
    (effect : Effect call world act next) : Consistent next :=
  ⟨effect_tables sound.tables wellmade effect, effect_sessions sound.sessions effect,
    effect_snapshots sound.snapshots wellmade effect, effect_inbox sound.inbox effect⟩

theorem move_consistent (sound : Consistent world) (event : Move) : Consistent (move event world) := by
  obtain ⟨⟨known, rowId, linkOwner, linkUnique, keyStored, keyUnique⟩, ⟨kept, distinct, carried⟩,
    ⟨fetched⟩, ⟨ids, received⟩⟩ := sound
  cases event with
  | elapse elapsed =>
      refine ⟨⟨known, rowId, linkOwner, linkUnique, keyStored, keyUnique⟩,
        ⟨advance_kept kept elapsed, distinct, ?_⟩, ⟨fetched⟩, ⟨ids, received⟩⟩
      exact fun token session present => carried token session (advance_carries present)
  | subscription subscriptionId state =>
      exact ⟨⟨known, rowId, linkOwner, linkUnique, keyStored, keyUnique⟩, ⟨kept, distinct, carried⟩,
        ⟨fetched⟩, ⟨ids, received⟩⟩

end Stores

section Progress

structure Progress (old new : World) : Prop where
  ids : ∀ id ∈ old.tables.ids, id ∈ new.tables.ids
  rows : ∀ id data, id ∈ old.tables.ids → new.tables.licenses id = some data →
    ∃ before, old.tables.licenses id = some before ∧ RowLe before.row data.row
  keyHashes : ∀ keyHash ∈ old.keyHashes, keyHash ∈ new.keyHashes
  keys : ∀ id data, new.tables.licenses id = some data → data.row.keyHash ∈ old.keyHashes →
    ∃ before, old.tables.licenses id = some before ∧ before.row.keyHash = data.row.keyHash
  ticks : old.ticks ≤ new.ticks
  stored : ∀ subscriptionId, ∃ newer, new.stored subscriptionId = newer ++ old.stored subscriptionId
  tokens : ∀ entry ∈ old.tokens, entry ∈ new.tokens
  sessions : ∀ token ∈ old.tokens.map Prod.fst, ∀ session, Carries new.sessions token session →
    Carries old.sessions token session
  eventIds : ∀ eventId ∈ old.tables.events.map StripeWebhookEvent.eventId,
    eventId ∈ new.tables.events.map StripeWebhookEvent.eventId
  events : ∀ event ∈ new.tables.events,
    event.eventId ∈ old.tables.events.map StripeWebhookEvent.eventId →
      ∃ before ∈ old.tables.events, before.eventId = event.eventId ∧
        StripeWebhookService.eventSubscription before = StripeWebhookService.eventSubscription event
  received : ∀ eventId ∈ old.tables.events.map StripeWebhookEvent.eventId,
    new.received eventId = old.received eventId

variable {call : Nat} {act : Act} {world next : World}

theorem Progress.refl (world : World) : Progress world world where
  ids _ member := member
  rows _ data _ present := ⟨data, present, .refl _⟩
  keyHashes _ member := member
  keys _ data present _ := ⟨data, present, rfl⟩
  ticks := le_rfl
  stored _ := ⟨[], rfl⟩
  tokens _ member := member
  sessions _ _ _ carried := carried
  eventIds _ member := member
  events event member _ := ⟨event, member, rfl, rfl⟩
  received _ _ := rfl

theorem Progress.trans {first second third : World} (one : Progress first second)
    (other : Progress second third) : Progress first third where
  ids id member := other.ids id (one.ids id member)
  rows id data known present := by
    obtain ⟨middle, between, late⟩ := other.rows id data (one.ids id known) present
    obtain ⟨before, early, first⟩ := one.rows id middle known between
    exact ⟨before, early, first.trans late⟩
  keyHashes keyHash member := other.keyHashes keyHash (one.keyHashes keyHash member)
  keys id data present old := by
    obtain ⟨middle, between, same⟩ := other.keys id data present (one.keyHashes _ old)
    obtain ⟨before, early, first⟩ := one.keys id middle between (same ▸ old)
    exact ⟨before, early, first.trans same⟩
  ticks := one.ticks.trans other.ticks
  stored subscriptionId := by
    obtain ⟨newer, early⟩ := one.stored subscriptionId
    obtain ⟨newest, late⟩ := other.stored subscriptionId
    exact ⟨newest ++ newer, by rw [late, early, List.append_assoc]⟩
  tokens entry member := other.tokens entry (one.tokens entry member)
  sessions token member session carried := by
    have between : token ∈ second.tokens.map Prod.fst := by
      obtain ⟨entry, known, same⟩ := List.mem_map.mp member
      exact List.mem_map.mpr ⟨entry, one.tokens entry known, same⟩
    exact one.sessions token member session (other.sessions token between session carried)
  eventIds eventId member := other.eventIds eventId (one.eventIds eventId member)
  events event member old := by
    obtain ⟨middle, between, same, subscription⟩ := other.events event member (one.eventIds _ old)
    obtain ⟨before, early, first, origin⟩ := one.events middle between (same ▸ old)
    exact ⟨before, early, first.trans same, origin.trans subscription⟩
  received eventId member :=
    (other.received eventId (one.eventIds eventId member)).trans (one.received eventId member)

theorem effect_tokens (effect : Effect call world act next) {entry : String × Session}
    (member : entry ∈ world.tokens) : entry ∈ next.tokens := by
  cases effect with
  | registered => exact List.mem_cons_of_mem _ member
  | _ => exact member

theorem effect_carries (effect : Effect call world act next) {token : String} {session : Session}
    (carried : Carries next.sessions token session) :
    Carries world.sessions token session ∨ token ∉ world.tokens.map Prod.fst := by
  cases effect with
  | registered id sessionRevision bindingHash maxSessions fresh unused =>
      have origin := (registerSession_carries token session).mp carried
      split at origin
      · next new => exact .inr (new.1 ▸ unused)
      · exact .inl origin.1
  | refreshed other bindingHash => exact .inl ((refreshSession_carries token session).mp carried)
  | removed other bindingHash => exact .inl ((removeSession_carries token session).mp carried).1
  | removedAll id preserveFromRevision =>
      exact .inl ((removeAllSessions_carries preserveFromRevision token session).mp carried).1
  | _ => exact .inl carried

theorem updateEvent_origin {eventId : String} {set : StripeWebhookEvent → StripeWebhookEvent}
    {tables : Tables} {event : StripeWebhookEvent}
    (member : event ∈ (updateEvent eventId set tables).events)
    (keeps : ∀ event, (set event).eventId = event.eventId ∧
      StripeWebhookService.eventSubscription (set event) =
        StripeWebhookService.eventSubscription event) :
    ∃ stored ∈ tables.events, stored.eventId = event.eventId ∧
      StripeWebhookService.eventSubscription stored =
        StripeWebhookService.eventSubscription event := by
  obtain ⟨stored, known, rfl⟩ := List.mem_map.mp member
  refine ⟨stored, known, ?_⟩
  split
  · exact ⟨(keeps stored).1.symm, (keeps stored).2.symm⟩
  · exact ⟨rfl, rfl⟩

theorem claim_origin {due : List StripeWebhookEvent} {now : Instant} {tables : Tables}
    {event : StripeWebhookEvent}
    (member : event ∈ (due.foldl (fun tables event => updateEvent event.eventId (claimed now) tables)
      tables).events) :
    ∃ stored ∈ tables.events, stored.eventId = event.eventId ∧
      StripeWebhookService.eventSubscription stored =
        StripeWebhookService.eventSubscription event := by
  induction due generalizing tables with
  | nil => exact ⟨event, member, rfl, rfl⟩
  | cons first due ih =>
      obtain ⟨middle, known, same, subscription⟩ := ih member
      obtain ⟨stored, present, earlier, origin⟩ :=
        updateEvent_origin known fun _ => ⟨rfl, rfl⟩
      exact ⟨stored, present, earlier.trans same, origin.trans subscription⟩

theorem effect_events (effect : Effect call world act next)
    {event : StripeWebhookEvent} (member : event ∈ next.tables.events) :
    (∃ stored ∈ world.tables.events, stored.eventId = event.eventId ∧
      StripeWebhookService.eventSubscription stored =
        StripeWebhookService.eventSubscription event) ∨
      event.eventId ∉ world.tables.events.map StripeWebhookEvent.eventId := by
  cases effect with
  | enqueued new now fresh =>
      rcases List.mem_append.mp member with old | added
      · exact .inl ⟨event, old, rfl, rfl⟩
      · rw [List.mem_singleton.mp added]
        exact .inr (by simpa [newWebhookEvent] using fresh)
  | claimed limit now due => exact .inl (claim_origin member)
  | processed eventId processedAt => exact .inl (updateEvent_origin member fun _ => ⟨rfl, rfl⟩)
  | failed eventId error nextAttemptAt =>
      exact .inl (updateEvent_origin member fun _ => ⟨rfl, rfl⟩)
  | _ => exact .inl ⟨event, member, rfl, rfl⟩

theorem effect_progress (effect : Effect call world act next) : Progress world next where
  ids _ := effect_ids effect
  rows id data known present := by
    cases effect_origin effect present with
    | same _ before => exact ⟨data, before, .refl _⟩
    | committed expected writes old now before admitted lawful written exact =>
        exact ⟨old, before, written ▸ applyWrites_row_le⟩
    | inserted keyHash keyPrefix new meters now fresh unused written exact =>
        exact absurd known fresh
    | linkError subscriptionId error link old now found owner before free written =>
        exact ⟨old, before, written ▸ .refl _⟩
  keyHashes _ := effect_keyHashes effect
  keys id data present old := (effect_key effect present).resolve_right fun fresh => fresh.1 old
  ticks := effect_ticks effect
  stored subscriptionId := by
    obtain ⟨newer, shape, -⟩ := effect_stored effect subscriptionId
    exact ⟨newer, shape⟩
  tokens _ := effect_tokens effect
  sessions token known session carried :=
    (effect_carries effect carried).resolve_right fun fresh => fresh known
  eventIds eventId member := by
    rcases effect_eventIds effect with ⟨ids, -⟩ | ⟨other, -, ids, -⟩
    · exact ids ▸ member
    · exact ids ▸ List.mem_append_left _ member
  events event member old := (effect_events effect member).resolve_right fun fresh => fresh old
  received eventId member := by
    rcases effect_eventIds effect with ⟨-, same, -⟩ | ⟨other, fresh, -, grown, -⟩
    · exact congrFun same _
    · refine (congrFun grown _).trans (Function.update_of_ne ?_ _ _)
      rintro rfl
      exact fresh member

theorem move_progress (event : Move) (world : World) : Progress world (move event world) := by
  have same := Progress.refl world
  cases event with
  | elapse elapsed =>
      exact { same with sessions := fun token known session carried => advance_carries carried }
  | subscription subscriptionId state => exact { same with }

end Progress

end Keyzori
