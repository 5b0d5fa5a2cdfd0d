import Keyzori.Server.AdminService

/-! Linking and reconciling Stripe subscriptions, and the webhook inbox. Here an
activity that cannot be recorded may fail the call. -/

namespace Keyzori

open Interleaving

def licenseAlreadyLinked : Failure :=
  .integration "License is already linked to a Stripe subscription." "LICENSE_ALREADY_LINKED" 409

def subscriptionAlreadyLinked : Failure :=
  .integration "Stripe subscription is already linked to another license."
    "SUBSCRIPTION_ALREADY_LINKED" 409

def licenseTypeInvalid : Failure :=
  .integration "Only subscription licenses can be linked to Stripe." "LICENSE_TYPE_INVALID" 422

def licenseNotFound : Failure := .integration "License not found." "LICENSE_NOT_FOUND" 404

def billingRevokedAt (snapshot : StripeSubscriptionSnapshot)
    (existing : Option StripeSubscriptionLink) (now : Instant) : Option Instant :=
  if snapshot.billingBlocked then
    some ((existing.bind StripeSubscriptionLink.billingRevokedAt).getD now)
  else none

structure StripeLinkResult where
  link : StripeSubscriptionLink
  license : License
  deriving DecidableEq

/-- What the locked part of `linkLicense` found or made. -/
inductive LinkOutcome
  | created (link : StripeSubscriptionLink)
  | reconcile

def newLink (licenseId : LicenseId) (snapshot : StripeSubscriptionSnapshot) (now : Instant) :
    NewStripeSubscriptionLink :=
  { licenseId
    subscriptionId := snapshot.subscriptionId
    stripeCustomerId := snapshot.stripeCustomerId
    status := snapshot.status
    paidThrough := snapshot.paidThrough
    cancelAtPeriodEnd := snapshot.cancelAtPeriodEnd
    priceId := snapshot.priceIds.head?
    billingRevokedAt := billingRevokedAt snapshot none now
    lastSyncedAt := now
    lastError := none }

def synchronizedAt (existing : StripeSubscriptionLink) (now : Instant) : Instant :=
  match existing.lastSyncedAt with
  | some last => if last > now then last else now
  | none => now

def linkUpdate (existing : StripeSubscriptionLink) (snapshot : StripeSubscriptionSnapshot)
    (now : Instant) : StripeSubscriptionLinkUpdate :=
  { stripeCustomerId := snapshot.stripeCustomerId
    status := snapshot.status
    paidThrough := snapshot.paidThrough
    cancelAtPeriodEnd := snapshot.cancelAtPeriodEnd
    priceId := snapshot.priceIds.head?
    billingRevokedAt := billingRevokedAt snapshot (some existing) (synchronizedAt existing now)
    lastSyncedAt := synchronizedAt existing now
    lastError := none }

namespace StripeSubscriptionService

def requireSubscriptionLicense (licenseId : LicenseId) : Server License := do
  match ← LicenseRepository.findById licenseId with
  | none => throw licenseNotFound
  | some license => if license.type ≠ .subscription then throw licenseTypeInvalid else return license

def requirePaidThrough (snapshot : StripeSubscriptionSnapshot) : Except Failure Unit :=
  if snapshot.paidThrough.isNone then .error (.integration
    "Stripe subscription has no paid-through period." "SUBSCRIPTION_PERIOD_MISSING" 422)
  else .ok ()

def getSubscription (subscriptionId : String) : Server FetchedSnapshot :=
  perform (.getSubscription subscriptionId)

def createLink (licenseId : LicenseId) (subscriptionId : String) (now : Instant) :
    Server (LinkOutcome × Option (LicenseId × List Write)) := do
  let fetched ← getSubscription subscriptionId
  ofExcept (requirePaidThrough fetched.snapshot)
  match ← StripeRepository.createForSubscriptionLicense (newLink licenseId fetched.snapshot now)
      fetched with
  | none => throw licenseTypeInvalid
  | some (link, writes) => return (.created link, some (licenseId, writes))

def linkOperation (licenseId : LicenseId) (subscriptionId : String) (now : Instant) :
    Server (LinkOutcome × Option (LicenseId × List Write)) := do
  let licenseLink ← StripeRepository.findByLicenseId licenseId
  let subscriptionLink ← StripeRepository.findBySubscriptionId subscriptionId
  match licenseLink, subscriptionLink with
  | some link, _ =>
      if link.subscriptionId = subscriptionId then return (.reconcile, none)
      else throw licenseAlreadyLinked
  | none, some _ => throw subscriptionAlreadyLinked
  | none, none => createLink licenseId subscriptionId now

def translateLinkError (licenseId : LicenseId) (subscriptionId : String) (error : Failure) :
    Server LinkOutcome := do
  let racedLicenseLink ← StripeRepository.findByLicenseId licenseId
  let racedSubscriptionLink ← StripeRepository.findBySubscriptionId subscriptionId
  match error with
  | .integration _ _ _ => throw error
  | _ =>
      if racedLicenseLink.isSome then throw licenseAlreadyLinked
      else if racedSubscriptionLink.isSome then throw subscriptionAlreadyLinked
      else throw error

def reconcileOperation (subscriptionId : String) (now : Instant) :
    Server (Option (StripeSubscriptionLink × LicenseId) × Option (LicenseId × List Write)) := do
  match ← StripeRepository.findBySubscriptionId subscriptionId with
  | none => return (none, none)
  | some existing =>
      let fetched ← getSubscription subscriptionId
      let (link, written) ← StripeRepository.reconcileForSubscriptionLicense subscriptionId
        (linkUpdate existing fetched.snapshot now) fetched
      return (link.map fun link => (link, existing.licenseId), written)

def reconcileSubscription (subscriptionId : String) (now : Instant) :
    Server (Option StripeLinkResult) := do
  match ← StripeRepository.withSubscriptionReconciliationLock subscriptionId
      (reconcileOperation subscriptionId now) with
  | none => return none
  | some (link, licenseId) =>
      match ← LicenseRepository.findById licenseId with
      | none => return none
      | some license =>
          if license.type ≠ .subscription then return none
          else do
            perform (.capture "stripe.synchronized")
            return some ⟨link, license⟩

def finishLink (licenseId : LicenseId) (subscriptionId : String) (now : Instant)
    (outcome : LinkOutcome) : Server StripeLinkResult :=
  match outcome with
  | .reconcile => do
      match ← reconcileSubscription subscriptionId now with
      | some reconciled => return reconciled
      | none => throw licenseAlreadyLinked
  | .created link => do
      match ← LicenseRepository.findById licenseId with
      | none => throw (.internal "Stripe-linked license could not be reloaded.")
      | some license =>
          if license.type ≠ .subscription then
            throw (.internal "Stripe-linked license could not be reloaded.")
          else do
            perform (.capture "stripe.linked")
            return ⟨link, license⟩

def linkLicense (licenseId : LicenseId) (subscriptionId : String) : Server StripeLinkResult := do
  let now ← draw
  let _ ← requireSubscriptionLicense licenseId
  let outcome ← tryCatch (StripeRepository.withSubscriptionReconciliationLock subscriptionId
    (linkOperation licenseId subscriptionId now.now))
    (translateLinkError licenseId subscriptionId)
  finishLink licenseId subscriptionId now.now outcome

def unlinkLicense (licenseId : LicenseId) : Server Bool := do
  let _ ← LicenseRepository.findById licenseId
  match ← StripeRepository.findByLicenseId licenseId with
  | none => return false
  | some _ =>
      let deleted ← StripeRepository.deleteByLicenseId licenseId
      (if deleted then perform (.capture "stripe.unlinked") else pure ())
      return deleted

def syncLicense (licenseId : LicenseId) : Server (Option StripeLinkResult) := do
  let now ← draw
  match ← StripeRepository.findByLicenseId licenseId with
  | none => return none
  | some link => reconcileSubscription link.subscriptionId now.now

def recordReconciliationFailure (subscriptionId error : String) : Server Unit := do
  match ← StripeRepository.findBySubscriptionId subscriptionId with
  | none => return ()
  | some _ => StripeRepository.updateLastError subscriptionId (String.ofList (error.toList.take 1000))

end StripeSubscriptionService

structure StripeEvent where
  id : String
  type : String
  payload : Json

structure StripeWebhookReceipt where
  eventId : String
  type : String
  subscriptionId : Option String
  inserted : Bool
  deriving DecidableEq, Repr

structure StripeWebhookBatchResult where
  claimed : Nat
  processed : Nat
  failed : Nat
  deriving DecidableEq, Repr

def errorMessage : Failure → String
  | .domain error => String.ofList (error.message.toList.take 1000)
  | .integration message _ _ => String.ofList (message.toList.take 1000)
  | .internal message => String.ofList (message.toList.take 1000)

namespace StripeWebhookService

variable (host : Host)

/-- `verifyWebhook` gives the event or throws. -/
def receive (verified : Except Failure StripeEvent) : Server StripeWebhookReceipt := do
  let event ← ofExcept verified
  let subscriptionId := subscriptionIdFromStripeEvent event.payload
  let result ← WebhookRepository.enqueue ⟨event.id, event.type, subscriptionId, event.payload⟩
  return ⟨event.id, event.type, subscriptionId, result.2⟩

def eventSubscription (event : StripeWebhookEvent) : Option String :=
  event.objectId.or (subscriptionIdFromStripeEvent event.payload)

def reconcileEvent (subscriptionId : Option String) (now : Instant) : Server Unit :=
  match subscriptionId with
  | none => pure ()
  | some subscriptionId =>
      if subscriptionId = "" then pure ()
      else do
        let _ ← StripeSubscriptionService.reconcileSubscription subscriptionId now
        return ()

def processEvent (event : StripeWebhookEvent) (now : Instant) : Server Bool := do
  reconcileEvent (eventSubscription event) now
  WebhookRepository.markProcessed event.eventId now
  return true

def retryDelay (attempts : Nat) : Nat := min host.maxDelayMs (host.baseDelayMs * 2 ^ min (attempts - 1) 30)

def recordFailure (subscriptionId : Option String) (message : String) : Server Unit :=
  match subscriptionId with
  | none => pure ()
  | some subscriptionId =>
      if subscriptionId = "" then pure ()
      else tryCatch (StripeSubscriptionService.recordReconciliationFailure subscriptionId message)
        fun _ => pure ()

def failEvent (event : StripeWebhookEvent) (now : Instant) (error : Failure) : Server Bool := do
  recordFailure (eventSubscription event) (errorMessage error)
  WebhookRepository.markFailed event.eventId (errorMessage error) (now + retryDelay host event.attempts)
  perform (.capture "stripe.webhook_failed")
  return false

def processOne (event : StripeWebhookEvent) (now : Instant) : Server Bool :=
  tryCatch (processEvent event now) (failEvent host event now)

def processAll (now : Instant) : List StripeWebhookEvent → Server (List Bool)
  | [] => pure []
  | event :: events => do
      let succeeded ← processOne host event now
      let others ← processAll now events
      return succeeded :: others

def processDue (limit : Number) : Server StripeWebhookBatchResult := do
  let now ← draw
  let claimed ← WebhookRepository.claimDue limit now.now
  let outcomes ← processAll host now.now claimed
  return ⟨claimed.length, outcomes.countP id, outcomes.countP (!·)⟩

end StripeWebhookService

end Keyzori
