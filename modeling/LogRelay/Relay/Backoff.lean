import LogRelay.Decimal.Binary

/-!
# Waiting between attempts

After each failure of a request the relay waits, longer every time: the delay is
multiplied by a factor of at least one until it reaches a greatest delay.
-/

namespace LogRelay

/-- How delays grow. -/
structure RetryConfig where
  /-- The first delay in milliseconds. -/
  initialMillis : UInt64 := 1000
  /-- The greatest delay in milliseconds. -/
  maxMillis : UInt64 := 10000
  /-- The factor between two delays. -/
  multiplier : Float := 2.0
deriving Inhabited

namespace Backoff

/-- `base` to the power of `exponent` by repeated squaring, in binary floating point;
`result` holds the product so far. -/
def power : (fuel exponent : Nat) → (base result : Float) → Float
  | 0, _, _, result => result
  | fuel + 1, exponent, base, result =>
      let result := if exponent % 2 = 1 then result * base else result
      if exponent / 2 = 0 then result else power fuel (exponent / 2) (base * base) result

/-- The greatest exponent. -/
def greatestExponent : Nat := 2147483647

/-- The factor that is used: at least one, and one if the setting is no number. -/
def factor (multiplier : Float) : Float := if 1.0 < multiplier then multiplier else 1.0

/-- The smaller of the two; the cap if the other is no number. -/
def capped (value cap : Float) : Float := if value < cap then value else cap

/-- The delay in milliseconds after the given failure, counted from one. -/
def delayMillis (config : RetryConfig) (attempt : Nat) : Nat :=
  let exponent := min (attempt - 1) greatestExponent
  let grown := config.initialMillis.toFloat * power 32 exponent (factor config.multiplier) 1.0
  Decimal.saturate (capped grown config.maxMillis.toFloat)

end Backoff

end LogRelay
