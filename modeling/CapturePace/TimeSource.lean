/-
# Sources of time

A time source gives one reading after another. Either it stands still until
it is moved by hand, or its readings are fixed in advance: the `i`-th reading
is the `i`-th member of a series, and the source counts the readings taken.
Nothing keeps a source from going back.

Key definitions: `TimeSource`, `TimeSource.read`, `TimeSource.ofReadings`,
`TimeSource.ticking`.
-/
import CapturePace.Duration.Basic

namespace CapturePace

/-- A source of time readings. -/
inductive TimeSource where
  /-- Shows `reading` until it is moved. -/
  | manual (reading : Duration)
  /-- Shows the members of a series, of which `taken` have been shown. -/
  | series (reading : Nat → Duration) (taken : Nat)

namespace TimeSource

/-- Takes a reading. -/
def read : TimeSource → Duration × TimeSource
  | .manual reading => (reading, .manual reading)
  | .series reading taken => (reading taken, .series reading (taken + 1))

/-- The number of readings taken so far, where they are counted. -/
def taken? : TimeSource → Option Nat
  | .manual _ => none
  | .series _ taken => some taken

/-- Shows the readings of a list one after the other, then the last one for
ever; zero if there is none. -/
def ofReadings (readings : List Duration) : TimeSource :=
  let table := readings.toArray
  let last := readings.getLastD .zero
  .series (fun i => table.getD i last) 0

/-- Starts at `start` and moves on by `tick` with every reading, up to the
longest duration. -/
def ticking (start tick : Duration) : TimeSource :=
  .series (fun i => .ofNanos (start.toNanos + i * tick.toNanos)) 0

end TimeSource
end CapturePace
