/-
# Timed rounds over a capture

A capture in memory is walked several times, each time in the scope of a guard
on the same stopwatch (`timeRound`). A round that ends well is logged with what
the stopwatch then shows; the first one that does not is the last.

A walk depends on nothing but the capture and the window, so every round has
the same outcome: it is computed once.

Key definitions: `Settings`, `Timed`, `timeRound`, `Stopwatch.timeRounds`.
-/
import CapturePace.Guard
import CapturePace.Journal
import CapturePace.Pass

namespace CapturePace

/-- The settings of a timed capture. -/
structure Settings where
  /-- The capacity of the window, in bytes. -/
  capacity : Nat := 65536
  /-- The number of rounds; none counts as one. -/
  rounds : Nat := 1
  deriving DecidableEq, Repr

/-- What a refusal of the stopwatch makes of the whole. -/
def Refusal.verdict {α : Type} : Refusal → Verdict α
  | .misuse kind => .failed (.misused kind)
  | .overflow => .overflowed .duration

namespace Verdict

variable {α : Type}

/-- How an undertaking has gone for the scope that it is done in: a fault is
something to return, and only an overflow breaks off. -/
def course : Verdict α → Course Overflow (Except CaptureFault α)
  | .finished value => .returned (.ok value)
  | .failed fault => .returned (.error fault)
  | .overflowed overflow => .brokeOff overflow
  | .aborted => .aborted

/-- The verdict on an undertaking that has gone like this. -/
def ofCourse : Course Overflow (Except CaptureFault α) → Verdict α
  | .returned result => .ofExcept result
  | .brokeOff overflow => .overflowed overflow
  | .aborted => .aborted

@[simp] theorem ofCourse_course (verdict : Verdict α) : ofCourse verdict.course = verdict := by
  cases verdict <;> rfl

end Verdict

/-- A verdict, the stopwatch and the time source after it, and what was logged. -/
structure Timed (α : Type) where
  verdict : Verdict α
  watch : Stopwatch
  time : TimeSource
  journal : List LogRecord

/-- A walk with a given outcome in the scope of a guard. -/
def timeRound (outcome : Verdict Tally) (watch : Stopwatch) (time : TimeSource) :
    Verdict Tally × Stopwatch × TimeSource :=
  match Place.alone.guard (watch, time) with
  | (.error refusal, state) => (refusal.verdict, state)
  | (.ok guard, state) =>
    let (course, state) := guard.leave id outcome.course state
    (.ofCourse course, state)

/-- The round with `left` rounds to come after it, and those. `logged` holds
the records so far, the latest one first. -/
def timeRoundsFrom (outcome : Verdict Tally) (rounds left : Nat) (watch : Stopwatch)
    (time : TimeSource) (logged : List LogRecord) : Timed Tally :=
  match timeRound outcome watch time with
  | (.finished tally, watch, time) =>
    let logged := .round (rounds - left) rounds tally.blocks watch.elapsed :: logged
    match left with
    | 0 => ⟨.finished tally, watch, time, logged.reverse⟩
    | left + 1 => timeRoundsFrom outcome rounds left watch time logged
  | (verdict, watch, time) => ⟨verdict, watch, time, logged.reverse⟩

/-- Times the rounds over the capture `bs` on a stopwatch. -/
def Stopwatch.timeRounds (watch : Stopwatch) (time : TimeSource) (bs : List UInt8)
    (settings : Settings) : Timed Tally :=
  let rounds := max 1 settings.rounds
  timeRoundsFrom (tallyOf bs settings.capacity) rounds (rounds - 1) watch time []

end CapturePace
