import LogRelay.Duration
import LogRelay.Text.Report

/-!
# Failures of the chain client

The relay never hands these on to listeners: it notes them and tries again.
-/

namespace LogRelay

/-- Why a request to the chain client, or a subscription, failed. -/
inductive ClientError where
  /-- The connection failed. -/
  | transport (cause : String)
  /-- No answer came in time. -/
  | timeout (limit : Duration)
  /-- The client answered without a header. -/
  | missingHeader
  /-- A live subscription ended. -/
  | subscriptionDropped (cause : String)
deriving DecidableEq, Inhabited

namespace ClientError

/-- The message of a failure. -/
def message : ClientError → String
  | transport cause => "transport error: " ++ cause
  | timeout limit => "request timed out after " ++ limit.text
  | missingHeader => "chain client returned no latest block header"
  | subscriptionDropped cause => "subscription dropped: " ++ cause

/-- The failure as diagnostics show it. -/
def report : ClientError → String
  | transport cause => Text.reportCase "Transport" (Text.quoted cause)
  | timeout limit => Text.reportCase "Timeout" limit.text
  | missingHeader => "MissingHeader"
  | subscriptionDropped cause => Text.reportCase "SubscriptionDropped" (Text.quoted cause)

end ClientError

end LogRelay
