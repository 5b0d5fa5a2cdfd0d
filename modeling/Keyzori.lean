import Keyzori.Meters.UsageEvents
import Keyzori.Sessions.Termination
import Keyzori.Sessions.Codec
import Keyzori.RateLimit.RetryAfter
import Keyzori.ClientIp.Hops
import Keyzori.Inbox.Backoff
import Keyzori.Server.Shape
import Keyzori.Server.LicenseMeters
import Keyzori.Server.Versions
import Keyzori.Server.LinkRemoval
import Keyzori.Server.MeterDrafts
import Keyzori.Server.TypeDrafts
import Keyzori.Server.Billing
import Keyzori.Server.DraftTexts
import Keyzori.Server.Freshness
import Keyzori.Server.Revocations
import Keyzori.Server.SessionFencing
import Keyzori.Server.Registrations
import Keyzori.Migration.Established
import Keyzori.Sdk.SessionBudget
import Keyzori.Sdk.WireAgreement
import Keyzori.ClientIp.Configured
import Keyzori.Activity.Attempts
import Keyzori.Activity.Buckets
import Keyzori.Activity.Capture
import Keyzori.Activity.PublicFeed
import Keyzori.Sdk.BoundedBody
import Keyzori.Server.AllOrNothing
import Keyzori.Server.Completion
import Keyzori.Server.RuntimeCalls
import Keyzori.Server.UsageAnswers
import Keyzori.Server.Schema
import Keyzori.RateLimit.GateRuns
import Keyzori.Server.AloneStripe
import Keyzori.Server.Drain
