/-
# The stopwatch

A stopwatch adds up the lengths of its closed intervals. `start` opens an
interval and `stop` closes it, each with one reading of a time source; a
reading older than the start makes an empty interval. A call in the wrong
state is refused and takes no reading. `stop` is also refused when the sum
does not fit into a duration; then nothing changes but that the reading was
taken.

Key definitions: `Stopwatch`, `Stopwatch.start`, `Stopwatch.stop`, `Stopwatch.reset`.
-/
import CapturePace.Fault
import CapturePace.TimeSource

namespace CapturePace

/-- A stopwatch: the time of its closed intervals, and where the open one started. -/
structure Stopwatch where
  elapsed : Duration := .zero
  startedAt : Option Duration := none
  deriving DecidableEq, Repr

/-- Why a call of a stopwatch is not carried out. -/
inductive Refusal where
  /-- The call does not fit the state. -/
  | misuse (misuse : Misuse)
  /-- The accumulated time would not be a duration. -/
  | overflow
  deriving DecidableEq, Repr

namespace Stopwatch

/-- Whether an interval is open. -/
def isRunning (watch : Stopwatch) : Bool := watch.startedAt.isSome

/-- Opens an interval. -/
def start (watch : Stopwatch) (time : TimeSource) : Except Refusal Stopwatch × TimeSource :=
  match watch.startedAt with
  | some _ => (.error (.misuse .alreadyRunning), time)
  | none =>
    let (now, time) := time.read
    (.ok { watch with startedAt := some now }, time)

/-- Closes the open interval and adds its length to the elapsed time. -/
def stop (watch : Stopwatch) (time : TimeSource) : Except Refusal Stopwatch × TimeSource :=
  match watch.startedAt with
  | none => (.error (.misuse .notRunning), time)
  | some began =>
    let (now, time) := time.read
    match watch.elapsed.add? (now.monus began) with
    | some elapsed => (.ok ⟨elapsed, none⟩, time)
    | none => (.error .overflow, time)

/-- Drops the time of the closed intervals; an open one stays open. -/
def reset (watch : Stopwatch) : Stopwatch := { watch with elapsed := .zero }

end Stopwatch
end CapturePace
