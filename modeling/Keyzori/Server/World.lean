import Keyzori.Library.Interleaving
import Keyzori.Server.Tables
import Keyzori.Sessions.Scripts
import Mathlib.Data.List.Sort

/-! What the calls of the server share: PostgreSQL with its locks, Redis and
Stripe, and the acts a call takes on them. A statement sees what is committed.
The writes of a transaction show when it commits, and until then the locks it
took keep other calls out. Rows of customers, devices and meters are not locked: a call that
waits for them, or that fails in a deadlock with a deletion that cascades to them, is
late or refused here. Every act that leaves the process may fail: it has done nothing
then, and a failed commit rolls back, or it is done and its answer is lost. Texts hold
neither U+0000, which PostgreSQL refuses, nor half of a surrogate pair. -/

namespace Keyzori

open ExpiringStore Interleaving

/-- `pg_advisory_xact_lock` under its three keys, and the locks of `for update`. -/
inductive Lock
  | registration (id : LicenseId)
  | stripe (subscriptionId : String)
  | meter (id : LicenseId)
  | row (id : LicenseId)
  | link (id : LicenseId)
  deriving DecidableEq

/-- A snapshot that was stored in a link, and whether it created the link. -/
structure StoredSnapshot where
  fetched : FetchedSnapshot
  syncedAt : Instant
  linking : Bool
  deriving DecidableEq

/-- The last five fields are history variables that no call reads: the sessions
tokens were drawn for, the key hashes ever stored, the order of fetches and
receipts, and the snapshots stored for a subscription, newest first. -/
structure World where
  tables : Tables
  sessions : SessionStore
  stripe : String → Option StripeSubscriptionSnapshot
  locks : Lock → Option Nat
  tokens : List (String × Session)
  keyHashes : List String
  ticks : Nat
  received : String → Nat
  stored : String → List StoredSnapshot

structure NewLicense where
  customerId : String
  type : LicenseType
  maxIps : Int
  maxDevices : Int
  maxSessions : Int
  trialDurationMinutes : Int
  trialStartedAt : Option Instant
  metadata : String
  expiresAt : Option Instant
  typeDrafts : LicenseTypeDrafts
  meters : List NewLicenseMeter

structure NewStripeWebhookEvent where
  eventId : String
  type : String
  objectId : Option String
  payload : Json

/-- A `query` reads without a lock. A `commit` ends a transaction with the
writes it made, or is one statement on its own; `expected` is the version its
predicate asks for. A `finish` ends a transaction that wrote nothing. -/
inductive Act : Type 1
  | draw
  | licenseKey
  | licenseId
  | capture (type : String)
  | query {α : Type} (read : Tables → α)
  | findLicense (id : LicenseId)
  | findByKeyHash (keyHash : String)
  | lock (lock : Lock)
  | lockRow (id : LicenseId)
  | lockLink (id : LicenseId) (subscriptionId : String)
  | commit (id : LicenseId) (expected : Option Instant) (writes : List Write)
  | finish
  | rollback
  | insertCustomer (id : String)
  | insertLicense (id : LicenseId) (keyHash keyPrefix : String) (data : NewLicense)
      (meters : MeterTable)
  | deleteLicense (id : LicenseId)
  | deleteCustomer (customerId : String)
  | updateLinkError (subscriptionId error : String)
  | enqueue (event : NewStripeWebhookEvent)
  | claimDue (limit : Nat) (now : Instant)
  | markProcessed (eventId : String) (processedAt : Instant)
  | markFailed (eventId error : String) (nextAttemptAt : Instant)
  | getSubscription (subscriptionId : String)
  | registerSession (id : LicenseId) (sessionRevision : Nat) (bindingHash : String)
      (maxSessions : Int)
  | refreshSession (token bindingHash : String)
  | removeSession (token bindingHash : String)
  | removeAllSessions (id : LicenseId) (preserveFromRevision : Option Nat)

structure Written where
  before : LicenseData
  after : LicenseData

abbrev Act.Val : Act → Type
  | draw => Draw
  | licenseKey => String
  | licenseId => LicenseId
  | @query α _ => α
  | findLicense _ | findByKeyHash _ => Option License
  | lockRow _ => Option StoredLicense
  | lockLink _ _ => Option StripeSubscriptionLink
  | commit _ _ _ => Option Written
  | insertLicense _ _ _ _ _ => StoredLicense
  | updateLinkError _ _ => Bool
  | enqueue _ => StripeWebhookEvent × Bool
  | claimDue _ _ => List StripeWebhookEvent
  | getSubscription _ => FetchedSnapshot
  | registerSession _ _ _ _ => SessionRegistrationResult
  | refreshSession _ _ | removeSession _ _ => Option ResolvedSession
  | removeAllSessions _ _ => Nat
  | _ => Unit

/-- An act is refused, or its answer is lost after it took effect. -/
inductive Fault
  | refused (message : String)
  | lost
  deriving DecidableEq

/-- The error a call sees. That of a lost answer names no constraint. -/
def Fault.failure : Fault → Failure
  | refused message => .internal message
  | lost => .internal "Connection closed"

/-- What an act takes from outside: a failure, the clock, random values, and the
rows a `skip locked` passes over. -/
structure Input where
  fault : Option Fault
  draw : Draw
  licenseKey : String
  licenseId : LicenseId
  skipped : List String

def sessionTtlSeconds : Nat := 45

namespace World

def free (world : World) (call : Nat) (lock : Lock) : Bool := (world.locks lock).all (· = call)

def take (world : World) (call : Nat) (lock : Lock) : World :=
  { world with locks := Function.update world.locks lock (some call) }

def release (world : World) (call : Nat) : World :=
  { world with locks := fun lock => if world.locks lock = some call then none else world.locks lock }

def setLicense (world : World) (id : LicenseId) (data : LicenseData) : World :=
  { world with
    tables := { world.tables with
      licenses := Function.update world.tables.licenses id (some data) } }

def admits (world : World) (call : Nat) (id : LicenseId) (writes : List Write) : Bool :=
  writes.all fun write =>
    (!write.locksRow || world.free call (.row id)) &&
      (!write.locksLink || world.free call (.link id)) &&
      match write with
      | .rotateKey keyHash _ => keyHash ∉ world.keyHashes
      | _ => true

end World

def recordSnapshot (link : Option StripeSubscriptionLink) (stored : String → List StoredSnapshot) :
    Write → String → List StoredSnapshot
  | .insertLink inserted fetched =>
      Function.update stored inserted.subscriptionId
        (⟨fetched, inserted.lastSyncedAt.getD 0, true⟩ :: stored inserted.subscriptionId)
  | .updateLink data fetched => match link with
      | some link => Function.update stored link.subscriptionId
          (⟨fetched, data.lastSyncedAt, false⟩ :: stored link.subscriptionId)
      | none => stored
  | _ => stored

def storedKeys : Write → List String
  | .rotateKey keyHash _ => [keyHash]
  | _ => []

namespace World

def write (world : World) (id : LicenseId) (data : LicenseData) (now : Instant)
    (writes : List Write) : World :=
  { world.setLicense id (applyWrites now writes data) with
    keyHashes := writes.flatMap storedKeys ++ world.keyHashes
    stored := writes.foldl (recordSnapshot data.link) world.stored }

end World

def insertedRow (id : LicenseId) (keyHash keyPrefix : String) (data : NewLicense) (now : Instant) :
    StoredLicense :=
  { id, keyHash, keyPrefix
    customerId := data.customerId
    type := data.type
    maxIps := data.maxIps
    maxDevices := data.maxDevices
    maxSessions := data.maxSessions
    sessionRevision := 0
    trialDurationMinutes := data.trialDurationMinutes
    trialStartedAt := data.trialStartedAt
    metadata := data.metadata
    expiresAt := data.expiresAt
    typeDrafts := data.typeDrafts
    manualRevokedAt := none
    manualRevocationReason := none
    createdAt := now
    updatedAt := now }

def Tables.ownedBy (tables : Tables) (customerId : String) (id : LicenseId) : Bool :=
  (tables.licenses id).any fun data => data.row.customerId = customerId

def newWebhookEvent (data : NewStripeWebhookEvent) (now : Instant) : StripeWebhookEvent :=
  { eventId := data.eventId
    type := data.type
    objectId := data.objectId
    status := .pending
    attempts := 0
    nextAttemptAt := now
    payload := data.payload
    lastError := none
    receivedAt := now
    processedAt := none }

/-- The rows `claimDue` locks, as they were before. -/
def dueEvents (events : List StripeWebhookEvent) (skipped : List String) (limit : Nat)
    (now : Instant) : List StripeWebhookEvent :=
  ((events.filter fun event => event.status ≠ .processed && decide (event.nextAttemptAt ≤ now) &&
      decide (event.eventId ∉ skipped)).insertionSort
    fun first second => first.nextAttemptAt ≤ second.nextAttemptAt).take (min limit 100)

def claimed (now : Instant) (event : StripeWebhookEvent) : StripeWebhookEvent :=
  { event with
    status := .processing
    attempts := event.attempts + 1
    lastError := none
    nextAttemptAt := now + 60000 }

def updateEvent (eventId : String) (set : StripeWebhookEvent → StripeWebhookEvent)
    (tables : Tables) : Tables :=
  { tables with events := tables.events.map fun event =>
      if event.eventId = eventId then set event else event }

theorem updateEvent_ids (eventId : String) (set : StripeWebhookEvent → StripeWebhookEvent)
    (tables : Tables) (keeps : ∀ event, (set event).eventId = event.eventId) :
    (updateEvent eventId set tables).events.map StripeWebhookEvent.eventId =
      tables.events.map StripeWebhookEvent.eventId := by
  simp only [updateEvent, List.map_map]
  refine List.map_congr_left fun event _ => ?_
  simp only [Function.comp]
  split
  · exact keeps event
  · rfl

def answer {α : Type} (fault : Option Fault) (result : Except Failure α) : Except Failure α :=
  match fault with
  | some .lost => .error Fault.lost.failure
  | _ => result

def attempt {α : Type} (input : Input) (world : World) (done : World × α) :
    Option (World × Except Failure α) :=
  match input.fault with
  | some (.refused message) => some (world, .error (.internal message))
  | _ => some (done.1, answer input.fault (.ok done.2))

/-- An act that needs something of the world first; it can be refused while it waits. -/
def await {α : Type} (input : Input) (world : World) (ready : Bool) (done : World × α) :
    Option (World × Except Failure α) :=
  match input.fault with
  | some (.refused message) => some (world, .error (.internal message))
  | _ => if ready then some (done.1, answer input.fault (.ok done.2)) else none

/-- A lock of a transaction, which does not outlive its connection. -/
def acquire {α : Type} (input : Input) (world : World) (ready : Bool) (done : World × α) :
    Option (World × Except Failure α) :=
  match input.fault with
  | some fault => some (world, .error fault.failure)
  | none => if ready then some (done.1, .ok done.2) else none

/-- One `commit`, which always ends the transaction of the call. -/
def runCommit (call : Nat) (id : LicenseId) (expected : Option Instant) (writes : List Write)
    (input : Input) (world : World) : Option (World × Except Failure (Option Written)) :=
  match input.fault with
  | some (.refused message) => some (world.release call, .error (.internal message))
  | _ => match world.tables.licenses id with
    | none => some (world.release call, answer input.fault (.ok none))
    | some data =>
        if !world.admits call id writes then none
        else if expected.any fun version => data.row.updatedAt ≠ version then
          some (world.release call, answer input.fault (.ok none))
        else match writes.findSome? (world.tables.violation id) with
          | some constraint => some (world.release call, answer input.fault (.error (.internal constraint)))
          | none => some ((world.write id data input.draw.now writes).release call,
              answer input.fault (.ok (some ⟨data, applyWrites input.draw.now writes data⟩)))

def exec (call : Nat) : (act : Act) → Input → World → Option (World × Except Failure act.Val)
  | .draw, input, world => some (world, .ok input.draw)
  | .licenseKey, input, world => some (world, .ok input.licenseKey)
  | .licenseId, input, world => some (world, .ok input.licenseId)
  | .capture _, input, world => attempt input world (world, ())
  | .query read, input, world => attempt input world (world, read world.tables)
  | .findLicense id, input, world => attempt input world (world, world.tables.license id)
  | .findByKeyHash keyHash, input, world =>
      attempt input world (world, world.tables.findByKeyHash keyHash)
  | .lock lock, input, world => acquire input world (world.free call lock) (world.take call lock, ())
  | .lockRow id, input, world => match world.tables.row id with
      | none => attempt input world (world, none)
      | some row => acquire input world (world.free call (.row id)) (world.take call (.row id), some row)
  | .lockLink id subscriptionId, input, world =>
      match (world.tables.link id).filter fun link => link.subscriptionId = subscriptionId with
      | none => attempt input world (world, none)
      | some link =>
          acquire input world (world.free call (.link id)) (world.take call (.link id), some link)
  | .commit id expected writes, input, world => runCommit call id expected writes input world
  | .finish, input, world => match input.fault with
      | some fault => some (world.release call, .error fault.failure)
      | none => some (world.release call, .ok ())
  | .rollback, _, world => some (world.release call, .ok ())
  | .insertCustomer id, input, world =>
      await input world (decide (id ∉ world.tables.customers))
        ({ world with tables := { world.tables with customers := id :: world.tables.customers } }, ())
  | .insertLicense id keyHash keyPrefix data meters, input, world =>
      if data.customerId ∉ world.tables.customers then
        some (world, .error (.internal "licenses_customer_id_fkey"))
      else match world.tables.meterViolation id meters with
        | some constraint => some (world, .error (.internal constraint))
        | none =>
            -- A license's id and key are never drawn again.
            await input world (decide (id ∉ world.tables.ids ∧ keyHash ∉ world.keyHashes))
              ({ world.setLicense id
                   ⟨insertedRow id keyHash keyPrefix data input.draw.now, none, [], [], [], meters⟩ with
                 tables := { (world.setLicense id
                   ⟨insertedRow id keyHash keyPrefix data input.draw.now, none, [], [], [],
                     meters⟩).tables with ids := id :: world.tables.ids }
                 keyHashes := keyHash :: world.keyHashes },
               insertedRow id keyHash keyPrefix data input.draw.now)
  | .deleteLicense id, input, world =>
      await input world (world.free call (.row id) && world.free call (.link id))
        ({ world with tables := { world.tables with
             licenses := Function.update world.tables.licenses id none } }, ())
  | .deleteCustomer customerId, input, world =>
      await input world (world.tables.ids.all fun id => !world.tables.ownedBy customerId id ||
          world.free call (.row id) && world.free call (.link id))
        ({ world with tables := { world.tables with
             customers := world.tables.customers.filter fun stored => stored ≠ customerId
             licenses := fun id =>
               if world.tables.ownedBy customerId id then none else world.tables.licenses id } }, ())
  | .updateLinkError subscriptionId error, input, world =>
      match world.tables.findBySubscriptionId subscriptionId with
      | none => attempt input world (world, false)
      | some link => match world.tables.licenses link.licenseId with
        | none => attempt input world (world, false)
        | some data => await input world (world.free call (.link link.licenseId))
            (world.setLicense link.licenseId { data with
              link := some { link with lastError := some error, updatedAt := input.draw.now } },
             true)
  | .enqueue event, input, world =>
      match world.tables.events.find? fun stored => stored.eventId = event.eventId with
      | some stored => attempt input world (world, (stored, false))
      | none => attempt input world
          ({ world with
             tables := { world.tables with
               events := world.tables.events ++ [newWebhookEvent event input.draw.now] }
             ticks := world.ticks + 1
             received := Function.update world.received event.eventId world.ticks },
           (newWebhookEvent event input.draw.now, true))
  | .claimDue limit now, input, world =>
      let due := dueEvents world.tables.events input.skipped limit now
      attempt input world
        ({ world with
           tables := due.foldl (fun tables event => updateEvent event.eventId (claimed now) tables)
             world.tables },
         due.map (claimed now))
  | .markProcessed eventId processedAt, input, world =>
      attempt input world
        ({ world with
           tables := updateEvent eventId (fun event => { event with
             status := .processed
             processedAt := some processedAt
             lastError := none }) world.tables }, ())
  | .markFailed eventId error nextAttemptAt, input, world =>
      attempt input world
        ({ world with
           tables := updateEvent eventId (fun event => { event with
             status := .failed
             lastError := some error
             nextAttemptAt }) world.tables }, ())
  | .getSubscription subscriptionId, input, world =>
      match if subscriptionId = "" then none else world.stripe subscriptionId with
      | none => some (world, .error (.internal "resource_missing"))
      | some subscription => attempt input world
          ({ world with ticks := world.ticks + 1 },
           ⟨{ subscription with subscriptionId }, world.ticks⟩)
  | .registerSession id sessionRevision bindingHash maxSessions, input, world =>
      let token := input.draw.uuid 0
      let registration := registerSession world.sessions id sessionRevision bindingHash
        sessionTtlSeconds maxSessions token
      await input world (decide (token ∉ world.tokens.map Prod.fst))
        ({ world with
           sessions := registration.1
           tokens := (token, ⟨id, sessionRevision, bindingHash⟩) :: world.tokens },
         registration.2)
  | .refreshSession token bindingHash, input, world => match input.fault with
      | some (.refused message) => some (world, .error (.internal message))
      | _ =>
          let refreshed := refreshSession world.sessions token bindingHash sessionTtlSeconds
          some ({ world with sessions := refreshed.1 }, answer input.fault refreshed.2)
  | .removeSession token bindingHash, input, world => match input.fault with
      | some (.refused message) => some (world, .error (.internal message))
      | _ =>
          let removed := removeSession world.sessions token bindingHash
          some ({ world with sessions := removed.1 }, answer input.fault removed.2)
  | .removeAllSessions id preserveFromRevision, input, world =>
      let removed := removeAllSessions world.sessions id preserveFromRevision
      attempt input world ({ world with sessions := removed.1 }, removed.2)

/-- What happens outside the server: time passes, a subscription changes. -/
inductive Move
  | elapse (milliseconds : Nat)
  | subscription (subscriptionId : String) (state : Option StripeSubscriptionSnapshot)

def move : Move → World → World
  | .elapse elapsed, world => { world with sessions := world.sessions.advance elapsed }
  | .subscription subscriptionId state, world =>
      { world with stripe := Function.update world.stripe subscriptionId state }

def World.start (now : Instant) : World :=
  { tables := ⟨[], [], fun _ => none, []⟩
    sessions := ⟨now, fun _ => none, fun _ => .none⟩
    stripe := fun _ => none
    locks := fun _ => none
    tokens := []
    keyHashes := []
    ticks := 0
    received := fun _ => 0
    stored := fun _ => [] }

abbrev Server (α : Type) := Prog Act Act.Val Failure α


end Keyzori
