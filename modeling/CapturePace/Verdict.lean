/-
# How an undertaking ends

Walking and timing captures ends in one of four ways: it is finished, it has
failed with a fault that is told to whoever asked, a quantity did not fit
where it had to go (`Overflow`), or that happened twice. An overflow is no fault
of the capture. It breaks off whatever was being done, and if there is another
one before that is over, the whole process is aborted.

Key definitions: `Overflow`, `Verdict`, `Verdict.ofExcept`.
-/
import CapturePace.Fault

namespace CapturePace

/-- A quantity that does not fit. -/
inductive Overflow where
  /-- A sum of durations is longer than any duration. -/
  | duration
  /-- A buffer would be longer than any buffer. -/
  | capacity
  deriving DecidableEq, Repr

/-- The wording of an overflow. -/
def Overflow.message : Overflow → String
  | .duration => "overflow when adding durations"
  | .capacity => "capacity overflow"

/-- How an undertaking has ended. -/
inductive Verdict (α : Type) where
  | finished (value : α)
  | failed (fault : CaptureFault)
  | overflowed (overflow : Overflow)
  /-- There is no process any more that could go on. -/
  | aborted
  deriving DecidableEq, Repr

namespace Verdict

variable {α : Type}

/-- The verdict on something that ends with a value or a fault. -/
def ofExcept : Except CaptureFault α → Verdict α
  | .ok value => .finished value
  | .error fault => .failed fault

/-- Whether the undertaking came to its end. -/
def isFinished : Verdict α → Bool
  | .finished _ => true
  | .failed _ => false
  | .overflowed _ => false
  | .aborted => false

@[simp] theorem ofExcept_eq_finished {result : Except CaptureFault α} {value : α} :
    ofExcept result = .finished value ↔ result = .ok value := by
  cases result <;> simp [ofExcept]

@[simp] theorem ofExcept_eq_failed {result : Except CaptureFault α} {fault : CaptureFault} :
    ofExcept result = .failed fault ↔ result = .error fault := by
  cases result <;> simp [ofExcept]

theorem isFinished_iff {verdict : Verdict α} : verdict.isFinished = true ↔ ∃ value, verdict = .finished value := by
  cases verdict <;> simp [isFinished]

end Verdict
end CapturePace
