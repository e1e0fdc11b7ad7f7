/-
# Guards

A guard holds an interval of a stopwatch open. It has the place of its
stopwatch (`Place`), which is taken out of it to close the interval. That is done
when the guard is dropped, whichever way its scope is left (`Guard.leave`), or
when it is asked for the time (`Guard.finish`), whose own guard is empty when
it is dropped: no interval is closed twice.

Where something breaks off, every scope on the way out is left, and what guards
it is dropped. A guard that breaks off on that way leaves no one to be told of
either, and the process is aborted (`Course.leaving`).

Key definitions: `Course`, `Place`, `Guard`, `Place.guard`, `Guard.drop`,
`Guard.leave`, `Guard.finish`.
-/
import CapturePace.Stopwatch
import CapturePace.Verdict

namespace CapturePace

/-- How something ends that may break off; `ε` is what is told of that. -/
inductive Course (ε α : Type) where
  | returned (value : α)
  | brokeOff (cause : ε)
  /-- It broke off while something was broken off already. Nothing comes after it. -/
  | aborted
  deriving DecidableEq, Repr

/-- What becomes of a course when its scope is left, by how dropping its guard
came off. -/
def Course.leaving {ε α : Type} : Course ε α → Except ε Unit → Course ε α
  | course, .ok () => course
  | .returned _, .error cause => .brokeOff cause
  | .brokeOff _, .error _ => .aborted
  | .aborted, .error _ => .aborted

/-- Where a stopwatch is kept, in a state that has its time source as well. -/
structure Place (σ : Type) where
  /-- The stopwatch that is there. -/
  watch : σ → Stopwatch
  /-- Calls it: what it became or why it refused, and the state after that. -/
  call : (Stopwatch → TimeSource → Except Refusal Stopwatch × TimeSource) → σ →
    Except Refusal Stopwatch × σ

/-- An open interval, with the place of its stopwatch until that is taken. -/
structure Guard (σ : Type) where
  place? : Option (Place σ)

namespace Place

variable {σ : Type}

/-- The place of a stopwatch that is alone with its time source. -/
def alone : Place (Stopwatch × TimeSource) where
  watch state := state.1
  call operation state :=
    match operation state.1 state.2 with
    | (.ok watch, time) => (.ok watch, watch, time)
    | (.error refusal, time) => (.error refusal, state.1, time)

/-- Opens an interval and guards it. -/
def guard (place : Place σ) (state : σ) : Except Refusal (Guard σ) × σ :=
  let (started, state) := place.call Stopwatch.start state
  (started.map fun _ => ⟨some place⟩, state)

/-- Closes the interval. That a stopwatch does not run would not be told; a sum
that is too long breaks off. -/
def close (place : Place σ) (state : σ) : Except Overflow Unit × σ :=
  match place.call Stopwatch.stop state with
  | (.ok _, state) => (.ok (), state)
  | (.error (.misuse _), state) => (.ok (), state)
  | (.error .overflow, state) => (.error .duration, state)

end Place

namespace Guard

variable {σ ε α : Type}

/-- Takes the place out: what was in the guard, and the guard that is left. -/
def take (guard : Guard σ) : Option (Place σ) × Guard σ := (guard.place?, ⟨none⟩)

/-- Drops the guard, which closes its interval if its place was not taken before. -/
def drop (guard : Guard σ) (state : σ) : Except Overflow Unit × σ :=
  match guard.take with
  | (some place, _) => place.close state
  | (none, _) => (.ok (), state)

/-- Leaves the scope of the guard, in which something has come to its end. -/
def leave (guard : Guard σ) (told : Overflow → ε) (course : Course ε α) (state : σ) : Course ε α × σ :=
  let (dropped, state) := guard.drop state
  (course.leaving (dropped.mapError told), state)

/-- Closes the interval now, and gives what the stopwatch then shows. The guard
is dropped behind that, like any other. -/
def finish (guard : Guard σ) (told : Overflow → ε) (state : σ) : Course ε Duration × σ :=
  match guard.take with
  | (some place, left) =>
    match place.close state with
    | (.ok (), state) => left.leave told (.returned (place.watch state).elapsed) state
    | (.error overflow, state) => left.leave told (.brokeOff (told overflow)) state
  | (none, left) => left.leave told (.returned .zero) state

end Guard

/-! ### One stop, whichever way the scope is left -/

section Closing

variable {σ ε α : Type} {place : Place σ} {state after : σ} {watch left : Stopwatch} {time later : TimeSource}
  {refusal : Refusal} {overflow : Overflow} {told : Overflow → ε} {course : Course ε α}
  {operation : Stopwatch → TimeSource → Except Refusal Stopwatch × TimeSource}

namespace Place

theorem call_alone_of_ok (done : operation watch time = (.ok left, later)) :
    alone.call operation (watch, time) = (.ok left, left, later) := by
  simp only [alone, done]

theorem call_alone_of_error (refused : operation watch time = (.error refusal, later)) :
    alone.call operation (watch, time) = (.error refusal, watch, later) := by
  simp only [alone, refused]

theorem guard_of_ok (started : place.call Stopwatch.start state = (.ok watch, after)) :
    place.guard state = (.ok ⟨some place⟩, after) := by
  rw [guard, started]
  rfl

theorem guard_of_error (refused : place.call Stopwatch.start state = (.error refusal, after)) :
    place.guard state = (.error refusal, after) := by
  rw [guard, refused]
  rfl

theorem close_of_ok (stopped : place.call Stopwatch.stop state = (.ok watch, after)) :
    place.close state = (.ok (), after) := by
  rw [close, stopped]

theorem close_of_overflow (refused : place.call Stopwatch.stop state = (.error .overflow, after)) :
    place.close state = (.error .duration, after) := by
  rw [close, refused]

theorem close_state (place : Place σ) (state : σ) :
    (place.close state).2 = (place.call Stopwatch.stop state).2 := by
  rw [close]
  rcases place.call Stopwatch.stop state with ⟨(_ | _) | _, _⟩ <;> rfl

end Place

namespace Guard

/-- What is empty closes nothing. -/
theorem leave_taken (told : Overflow → ε) (course : Course ε α) (state : σ) :
    (Guard.mk none).leave told course state = (course, state) := by
  cases course <;> rfl

theorem leave_of_ok (closed : place.close state = (.ok (), after)) :
    (Guard.mk (some place)).leave told course state = (course, after) := by
  simp only [leave, drop, take, closed]
  cases course <;> rfl

theorem leave_of_error (broke : place.close state = (.error overflow, after)) :
    (Guard.mk (some place)).leave told course state =
      (course.leaving (.error (told overflow)), after) := by
  simp only [leave, drop, take, broke]
  rfl

theorem finish_of_ok (closed : place.close state = (.ok (), after)) :
    (Guard.mk (some place)).finish told state = (.returned (place.watch after).elapsed, after) := by
  simp only [finish, take, closed, leave_taken]

theorem finish_of_error (broke : place.close state = (.error overflow, after)) :
    (Guard.mk (some place)).finish told state = (.brokeOff (told overflow), after) := by
  simp only [finish, take, broke, leave_taken]

/-- To leave the scope of a guard is one stop. -/
theorem leave_state (told : Overflow → ε) (course : Course ε α) (state : σ) :
    ((Guard.mk (some place)).leave told course state).2 = (place.call Stopwatch.stop state).2 :=
  place.close_state state

/-- To ask a guard for the time is one stop, though it is dropped as well. -/
theorem finish_state (told : Overflow → ε) (state : σ) :
    ((Guard.mk (some place)).finish told state).2 = (place.call Stopwatch.stop state).2 := by
  rw [← place.close_state]
  rcases closed : place.close state with ⟨_ | _, after⟩
  · rw [finish_of_error closed]
  · rw [finish_of_ok closed]

end Guard

end Closing

end CapturePace
