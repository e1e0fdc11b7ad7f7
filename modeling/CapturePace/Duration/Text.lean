/-
# Durations in words

A duration is written in the largest unit of which it holds at least one,
with as many decimals as it needs: `1.000000001s`, `2ms`, `1.5µs`, `999ns`, and
`0ns` for none at all.

Key definitions: `TimeUnit`, `Duration.unit`, `Duration.text`.
-/
import CapturePace.Decimal
import CapturePace.Duration.Basic

namespace CapturePace

/-- The units that durations are written in. -/
inductive TimeUnit where
  | second
  | millisecond
  | microsecond
  | nanosecond
  deriving DecidableEq, Repr

namespace TimeUnit

/-- The decimals it takes to write a nanosecond in this unit. -/
def places : TimeUnit → Nat
  | .second => 9
  | .millisecond => 6
  | .microsecond => 3
  | .nanosecond => 0

/-- The sign of the unit. -/
def sign : TimeUnit → String
  | .second => "s"
  | .millisecond => "ms"
  | .microsecond => "µs"
  | .nanosecond => "ns"

end TimeUnit

namespace Duration

/-- The largest unit of which the duration holds at least one. -/
def unit (d : Duration) : TimeUnit :=
  if 0 < d.seconds then .second
  else if 1000000 ≤ d.nanos then .millisecond
  else if 1000 ≤ d.nanos then .microsecond
  else .nanosecond

/-- The duration in its largest unit. -/
def text (d : Duration) : String :=
  Decimal.shortText d.unit.places d.toNanos ++ d.unit.sign

end Duration
end CapturePace
