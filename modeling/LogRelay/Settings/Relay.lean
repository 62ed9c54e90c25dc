import LogRelay.Duration
import LogRelay.Json.Writer
import LogRelay.Relay.Backoff

/-!
# Settings of a relay

How far back a relay looks for logs, how long it waits for the chain client, how it
retries and how much it buffers.  Every setting has a default.
-/

namespace LogRelay

/-- How logs that were emitted before a subscription are fetched. -/
structure BackfillConfig where
  /-- How many blocks before the head fetching starts. -/
  depth : UInt64 := 10
  /-- How long a header and the logs after it may take together. -/
  requestTimeoutSecs : UInt64 := 30
deriving DecidableEq, Inhabited

/-- How the relay subscribes to logs. -/
structure SubscriptionConfig where
  /-- How long an attempt to subscribe may take. -/
  createTimeoutSecs : UInt64 := 15
  /-- The time between two looks at whether the addresses have changed. -/
  debounceMillis : UInt64 := 1000
deriving DecidableEq, Inhabited

/-- How much the relay buffers. -/
structure ChannelConfig where
  /-- The number of requests that may wait to be handled. -/
  commandBuffer : UInt64 := 128
  /-- The number of logs that each stage of the log stream may hold. -/
  logBuffer : UInt64 := 256
deriving DecidableEq, Inhabited

/-- The settings of a relay. -/
structure RelayConfig where
  backfill : BackfillConfig := {}
  subscription : SubscriptionConfig := {}
  retry : RetryConfig := {}
  channels : ChannelConfig := {}
deriving Inhabited

namespace RelayConfig

/-- How long a header and the logs after it may take together. -/
def requestTimeout (config : RelayConfig) : Duration :=
  .ofSeconds config.backfill.requestTimeoutSecs.toNat

/-- How long an attempt to subscribe may take. -/
def createTimeout (config : RelayConfig) : Duration :=
  .ofSeconds config.subscription.createTimeoutSecs.toNat

/-- The time between two looks at whether the addresses have changed. -/
def debounce (config : RelayConfig) : Duration :=
  .ofMillis config.subscription.debounceMillis.toNat

/-- The delay after the first failure. -/
def initialBackoff (config : RelayConfig) : Duration :=
  .ofMillis config.retry.initialMillis.toNat

/-- The greatest delay. -/
def maxBackoff (config : RelayConfig) : Duration :=
  .ofMillis config.retry.maxMillis.toNat

/-- The settings as a JSON text, with all members in their order. -/
def serialize (config : RelayConfig) : String :=
  Json.assemble
    [("backfill", Json.assemble
        [("depth", toString config.backfill.depth),
         ("request-timeout-secs", toString config.backfill.requestTimeoutSecs)]),
     ("subscription", Json.assemble
        [("create-timeout-secs", toString config.subscription.createTimeoutSecs),
         ("debounce-millis", toString config.subscription.debounceMillis)]),
     ("retry", Json.assemble
        [("initial-backoff-millis", toString config.retry.initialMillis),
         ("max-backoff-millis", toString config.retry.maxMillis),
         ("multiplier", Decimal.Layout.json.text config.retry.multiplier)]),
     ("channels", Json.assemble
        [("command-buffer", toString config.channels.commandBuffer),
         ("log-buffer", toString config.channels.logBuffer)])]

end RelayConfig

end LogRelay
