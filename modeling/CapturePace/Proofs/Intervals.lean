/-
# The elapsed time is the sum of the closed intervals

What was done with one stopwatch is told by a history: the readings at which
an interval began or ended, and the resets. It is kept without a look at the
stopwatch (`History.record`), and everything the stopwatch shows can be told
from it: whether it is running, how many readings it took, and the elapsed
time, which is the sum of the intervals that were closed after the last reset.
An interval that was open at the reset is counted whole when it is closed.

The invariant is `History.Tells`: the stopwatch is what the history tells. One
call keeps it (`run_call`), and so do calls in a row, on any readings, as long
as no sum on the way is longer than the longest duration.

Key definitions: `Call`, `History`, `History.total`, `History.Tells`, `played`.
Key theorems: `run_call`, `played_tells`, `elapsed_eq_total`.
-/
import CapturePace.Proofs.Calls

namespace CapturePace

/-! ### Calls and their history -/

/-- A call of a stopwatch. -/
inductive Call where
  | start
  | stop
  | reset
  deriving DecidableEq, Repr

namespace Call

/-- The call, of the only stopwatch of a session. -/
def action : Call → Action
  | .start => .start 0
  | .stop => .stop 0
  | .reset => .reset 0

/-- The answer to the call, by whether the stopwatch is running. -/
def answer {α : Type} (running : Bool) : Call → Answer α
  | .start => if running then .refused .alreadyRunning else .done
  | .stop => if running then .done else .refused .notRunning
  | .reset => .done

/-- The number of readings the call takes, by whether the stopwatch is running. -/
def takes (running : Bool) : Call → Nat
  | .start => if running then 0 else 1
  | .stop => if running then 1 else 0
  | .reset => 0

end Call

/-- A call that was carried out, with its reading if it took one. -/
inductive Event where
  | began (reading : Duration)
  | ended (reading : Duration)
  | cleared
  deriving DecidableEq, Repr

/-- What was done with a stopwatch, the latest event first. -/
abbrev History := List Event

namespace History

/-- Where the open interval began: the last start or stop that was carried out
is a start. Resets in between do not close the interval. -/
def opening? : History → Option Duration
  | [] => none
  | .began reading :: _ => some reading
  | .ended _ :: _ => none
  | .cleared :: past => opening? past

/-- The intervals closed since the last reset, with the readings at their two
ends. Where an interval began is looked up across resets. -/
def closed : History → List (Duration × Duration)
  | [] => []
  | .began _ :: past => closed past
  | .ended reading :: past => (opening? past).toList.map (·, reading) ++ closed past
  | .cleared :: _ => []

/-- The sum of the closed intervals, in nanoseconds; one that ends before it
began is empty. -/
def total (past : History) : Nat :=
  ((closed past).map fun (began, ended) => ended.toNanos - began.toNanos).sum

/-- The number of readings taken. -/
def taken : History → Nat
  | [] => 0
  | .began _ :: past => taken past + 1
  | .ended _ :: past => taken past + 1
  | .cleared :: past => taken past

/-- The history after one more call: a start counts only while no interval is
open, a stop only while one is. -/
def record (readings : Nat → Duration) (past : History) : Call → History
  | .start => if (opening? past).isSome then past else .began (readings (taken past)) :: past
  | .stop => if (opening? past).isSome then .ended (readings (taken past)) :: past else past
  | .reset => .cleared :: past

/-- The history of calls in a row. -/
def ofCalls (readings : Nat → Duration) (calls : List Call) : History :=
  calls.foldl (record readings) []

/-- The stopwatch is what the history tells. -/
structure Tells (past : History) (watch : Stopwatch) : Prop where
  started : watch.startedAt = opening? past
  elapsed : watch.elapsed.toNanos = total past

variable {readings : Nat → Duration} {past : History} {watch : Stopwatch}

theorem total_ended {began : Duration} (opening : opening? past = some began) (reading : Duration) :
    total (.ended reading :: past) = total past + (reading.toNanos - began.toNanos) := by
  simp [total, closed, opening, Nat.add_comm]

theorem Tells.isRunning_eq (tells : past.Tells watch) : watch.isRunning = (opening? past).isSome := by
  rw [Stopwatch.isRunning, tells.started]

theorem taken_record (call : Call) :
    (record readings past call).taken = past.taken + call.takes (opening? past).isSome := by
  cases call <;> cases h : opening? past <;> simp [record, Call.takes, taken, h]

theorem ofCalls_snoc (calls : List Call) (call : Call) :
    ofCalls readings (calls ++ [call]) = record readings (ofCalls readings calls) call := by
  rw [ofCalls, List.foldl_append]
  rfl

end History

/-! ### One call -/

section Call

variable {α : Type} {readings : Nat → Duration} {past : History} {watch after : Stopwatch}
  {time later : TimeSource} {refusal : Refusal}
  {operation : Stopwatch → TimeSource → Except Refusal Stopwatch × TimeSource}

theorem answerCall_of_ok (h : operation watch time = (.ok after, later)) :
    (Action.answerCall (Session.call ⟨time, [watch]⟩ 0 operation) :
      Answer α × Session × List LogRecord) = (.done, ⟨later, [after]⟩, []) := by
  have called : Session.call ⟨time, [watch]⟩ 0 operation = (.ok after, ⟨later, [after]⟩) :=
    Session.call_of_ok h
  rw [called, Action.answerCall]

theorem answerCall_of_error (h : operation watch time = (.error refusal, later)) :
    (Action.answerCall (Session.call ⟨time, [watch]⟩ 0 operation) :
      Answer α × Session × List LogRecord) = (refusal.answer, ⟨later, [watch]⟩, []) := by
  have called : Session.call ⟨time, [watch]⟩ 0 operation = (.error refusal, ⟨later, [watch]⟩) :=
    Session.call_of_error h
  rw [called, Action.answerCall]

/-- The action of a call does what the history says, on a stopwatch that is
what the history tells. -/
theorem run_action (tells : past.Tells watch) (call : Call)
    (fits : (past.record readings call).total ≤ Duration.longest.toNanos) :
    ∃ after, call.action.run ⟨.series readings past.taken, [watch]⟩ =
        ((call.answer watch.isRunning : Answer α),
          ⟨.series readings (past.taken + call.takes watch.isRunning), [after]⟩, []) ∧
      (past.record readings call).Tells after := by
  rw [tells.isRunning_eq]
  have started := tells.started
  cases call with
  | start =>
    cases opening : past.opening? with
    | none =>
      rw [opening] at started
      have ran := Stopwatch.start_of_stopped started (.series readings past.taken)
      refine ⟨_, answerCall_of_ok ran, ?_⟩
      simp only [History.record, opening, Option.isSome_none, Bool.false_eq_true, if_false]
      exact ⟨rfl, tells.elapsed⟩
    | some began =>
      rw [opening] at started
      have ran := Stopwatch.start_of_running started (.series readings past.taken)
      refine ⟨watch, answerCall_of_error ran, ?_⟩
      simpa only [History.record, opening, Option.isSome_some, if_true] using tells
  | stop =>
    cases opening : past.opening? with
    | none =>
      rw [opening] at started
      have ran := Stopwatch.stop_of_stopped started (.series readings past.taken)
      refine ⟨watch, answerCall_of_error ran, ?_⟩
      simpa only [History.record, opening, Option.isSome_none, Bool.false_eq_true, if_false] using tells
    | some began =>
      rw [opening] at started
      simp only [History.record, opening, Option.isSome_some, if_true] at fits ⊢
      rw [History.total_ended opening, ← tells.elapsed, ← Duration.toNanos_monus] at fits
      obtain ⟨sum, added, length⟩ := Duration.exists_add fits
      refine ⟨_, answerCall_of_ok (Stopwatch.stop_of_add started added), rfl, ?_⟩
      rw [History.total_ended opening, length, Duration.toNanos_monus, tells.elapsed]
  | reset => exact ⟨watch.reset, rfl, started, Duration.toNanos_zero⟩

/-- **One call keeps the invariant**, and its entry shows the answer and the
readings taken. -/
theorem run_call (tells : past.Tells watch) (call : Call)
    (fits : (past.record readings call).total ≤ Duration.longest.toNanos) :
    ∃ after, (Step.act call.action : Step α).run ⟨.series readings past.taken, [watch]⟩ [] =
        (⟨call.answer watch.isRunning, [some after],
            some (past.taken + call.takes watch.isRunning), none, []⟩,
          ⟨.series readings (past.taken + call.takes watch.isRunning), [after]⟩) ∧
      (past.record readings call).Tells after := by
  obtain ⟨after, ran, told⟩ := run_action (α := α) tells call fits
  have free : call.action.watch?.all
      (Session.isFree ⟨.series readings past.taken, [watch]⟩ []) = true := by
    cases call <;> rfl
  refine ⟨after, ?_, told⟩
  rw [Step.run_act free, ran]
  rfl

end Call

/-! ### Calls in a row -/

/-- The calls, on the only stopwatch of a session that shows these readings. -/
def played {α : Type} (readings : Nat → Duration) (calls : List Call) : List (Entry α) × Session :=
  Step.runAll ⟨.series readings 0, [{}]⟩ [] (calls.map fun call => .act call.action)

section Calls

variable {α : Type} {readings : Nat → Duration} {calls : List Call}

theorem played_snoc (calls : List Call) (call : Call) :
    (played readings (calls ++ [call]) : List (Entry α) × Session) =
      ((played readings calls).1 ++
          [((Step.act call.action : Step α).run (played (α := α) readings calls).2 []).1],
        ((Step.act call.action : Step α).run (played (α := α) readings calls).2 []).2) := by
  rw [played, List.map_append, Step.runAll_append]
  rfl

/-- No sum on the way is longer than the longest duration. -/
def Bounded (readings : Nat → Duration) (calls : List Call) : Prop :=
  ∀ earlier, earlier <+: calls →
    (History.ofCalls readings earlier).total ≤ Duration.longest.toNanos

instance : Decidable (Bounded readings calls) :=
  decidable_of_iff (∀ earlier ∈ calls.inits,
    (History.ofCalls readings earlier).total ≤ Duration.longest.toNanos)
    (by simp only [Bounded, List.mem_inits])

theorem Bounded.of_prefix {earlier : List Call} (bounded : Bounded readings calls)
    (front : earlier <+: calls) : Bounded readings earlier :=
  fun _ first => bounded _ (first.trans front)

/-- **After calls in a row, the stopwatch is what the history tells.** -/
theorem played_tells (bounded : Bounded readings calls) :
    ∃ watch, (played (α := α) readings calls).2 =
        ⟨.series readings (History.ofCalls readings calls).taken, [watch]⟩ ∧
      (History.ofCalls readings calls).Tells watch := by
  induction calls using List.reverseRecOn with
  | nil => exact ⟨{}, rfl, rfl, Duration.toNanos_zero⟩
  | append_singleton calls call ih =>
    obtain ⟨watch, session, tells⟩ := ih (bounded.of_prefix (List.prefix_append _ _))
    have fits := bounded _ List.prefix_rfl
    rw [History.ofCalls_snoc] at fits
    obtain ⟨after, ran, told⟩ := run_call (α := α) tells call fits
    refine ⟨after, ?_, ?_⟩
    · rw [played_snoc, session, ran, History.ofCalls_snoc, History.taken_record, tells.isRunning_eq]
    · rwa [History.ofCalls_snoc]

/-- **The elapsed time is the sum of the closed intervals.** Each call answers
and takes readings as the history before it tells whether the stopwatch is
running, and after all of them the stopwatch is running if the last call
carried out was a start, and shows the sum of the intervals closed since the
last reset. -/
theorem elapsed_eq_total (readings : Nat → Duration) (calls : List Call)
    (bounded : Bounded readings calls) :
    (∀ earlier call, earlier ++ [call] <+: calls → ∃ before after,
      (played (α := α) readings earlier).2 =
        ⟨.series readings (History.ofCalls readings earlier).taken, [before]⟩ ∧
      before.isRunning = (History.ofCalls readings earlier).opening?.isSome ∧
      played readings (earlier ++ [call]) =
        ((played readings earlier).1 ++ [(⟨call.answer before.isRunning, [some after],
            some ((History.ofCalls readings earlier).taken + call.takes before.isRunning), none, []⟩ : Entry α)],
          ⟨.series readings ((History.ofCalls readings earlier).taken + call.takes before.isRunning),
            [after]⟩)) ∧
    ∃ watch, (played (α := α) readings calls).2 =
        ⟨.series readings (History.ofCalls readings calls).taken, [watch]⟩ ∧
      watch.isRunning = (History.ofCalls readings calls).opening?.isSome ∧
      watch.elapsed.toNanos = (History.ofCalls readings calls).total := by
  constructor
  · intro earlier call front
    have before := bounded.of_prefix ((List.prefix_append _ _).trans front)
    obtain ⟨watch, session, tells⟩ := played_tells (α := α) before
    have fits := bounded _ front
    rw [History.ofCalls_snoc] at fits
    obtain ⟨after, ran, -⟩ := run_call (α := α) tells call fits
    refine ⟨watch, after, session, tells.isRunning_eq, ?_⟩
    rw [played_snoc, session, ran]
  · obtain ⟨watch, session, tells⟩ := played_tells (α := α) bounded
    exact ⟨watch, session, tells.isRunning_eq, tells.elapsed⟩

/-- Readings that go back on the way. -/
def goingBack (i : Nat) : Duration := .ofNanos ([10, 14, 30, 25, 40, 47].getD i 50)

/-- An interval of 4, one that is empty as time went back, and one that is
closed after a reset. -/
def restless : List Call := [.start, .start, .stop, .stop, .start, .stop, .start, .reset, .stop, .start]

theorem elapsed_restless : Bounded goingBack restless ∧ ∃ watch,
    (played (α := Unit) goingBack restless).2 = ⟨.series goingBack 7, [watch]⟩ ∧
      watch.isRunning = true ∧ watch.elapsed.toNanos = 7 := by
  have bounded : Bounded goingBack restless := by decide
  obtain ⟨-, watch, session, running, elapsed⟩ :=
    elapsed_eq_total (α := Unit) goingBack restless bounded
  have taken : (History.ofCalls goingBack restless).taken = 7 := by decide
  have opened : (History.ofCalls goingBack restless).opening?.isSome = true := by decide
  have total : (History.ofCalls goingBack restless).total = 7 := by decide
  rw [taken] at session
  rw [opened] at running
  rw [total] at elapsed
  exact ⟨bounded, watch, session, running, elapsed⟩

end Calls

end CapturePace
