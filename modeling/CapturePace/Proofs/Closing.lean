/-
# Closing an interval is exact, or changes nothing

An open interval is closed by a stop, at the end of a guarded scope, when a
guard is asked for the time, or when a timed function returns
(`Step.Closing`). All four come to one stop of a stopwatch that runs, with one
reading of the source. If there is a duration as long as the sum, the stopwatch
shows exactly that sum and has stopped. Otherwise the step breaks off, and of
the stopwatches nothing has changed, so the interval is still open where it
began, and a later stop can still close it: at the latest once the closed
intervals have been dropped, as no interval is too long by itself.

A source that is moved by hand keeps to the same: it shows the exact sum, or
what it showed before.

Key definitions: `Step.Closing`, `Session.ClosesExactly`.
Key theorems: `Session.call_stop_of_fits`, `Session.call_stop_of_long`,
`Step.run_closing`.
-/
import CapturePace.Proofs.Calls

namespace CapturePace

theorem TimeSource.taken?_read (time : TimeSource) : time.read.2.taken? = time.taken?.map (· + 1) := by
  cases time <;> rfl

/-- A sum that is too long is refused. -/
theorem Duration.add?_of_long {a b : Duration} (long : longest.toNanos < a.toNanos + b.toNanos) :
    a.add? b = none := by
  have limit : longest.toNanos + 1 = secondsLimit * nanosPerSecond := by decide
  exact add?_eq_none.2 (by omega)

variable {α : Type}

/-! ### The ways of closing an interval -/

/-- The steps that close the interval of a stopwatch: the session that the
closing meets, what the stopwatch then shows, where its interval began, and
what the step answers to the time it shows afterwards. -/
inductive Step.Closing (session : Session) (lent : List Nat) (number : Nat) :
    Step α → Session → Duration → Duration → (Duration → Answer α) → Prop
  /-- A stop of a stopwatch that runs. -/
  | stop {elapsed began : Duration} (running : session.watches[number]? = some ⟨elapsed, some began⟩) :
      Closing session lent number (.act (.stop number)) session elapsed began fun _ => .done
  /-- The end of a guarded scope. -/
  | dropped {elapsed : Duration} (stopped : session.watches[number]? = some ⟨elapsed, none⟩)
      (inner : List (Step α)) :
      Closing session lent number (.guarded number .dropped inner)
        (Step.runAll ⟨session.time.read.2, session.watches.set number ⟨elapsed, some session.time.read.1⟩⟩
          (number :: lent) inner).2 elapsed session.time.read.1 fun _ => .done
  /-- A guard that is asked for the time. -/
  | finished {elapsed : Duration} (stopped : session.watches[number]? = some ⟨elapsed, none⟩)
      (inner : List (Step α)) :
      Closing session lent number (.guarded number .finished inner)
        (Step.runAll ⟨session.time.read.2, session.watches.set number ⟨elapsed, some session.time.read.1⟩⟩
          (number :: lent) inner).2 elapsed session.time.read.1 fun shown => .elapsed shown
  /-- A timed function that returns. -/
  | returned {elapsed : Duration} (stopped : session.watches[number]? = some ⟨elapsed, none⟩)
      (value : α) (inner : List (Step α)) :
      Closing session lent number (.timed number (.value value) inner)
        (Step.runAll ⟨session.time.read.2, session.watches.set number ⟨elapsed, some session.time.read.1⟩⟩
          (number :: lent) inner).2 elapsed session.time.read.1 fun _ => .value value

/-- What a step leaves that closes an interval: after one reading, the
stopwatch shows the exact sum and has stopped, or, if the sum is too long, the
step has broken off and all stopwatches are as before. -/
structure Session.ClosesExactly (before : Session) (number : Nat) (elapsed began : Duration)
    (answer : Duration → Answer α) (left : Entry α × Session) : Prop where
  time : left.2.time = before.time.read.2
  readings : left.1.readings = before.time.taken?.map (· + 1)
  fits : elapsed.toNanos + (before.time.read.1.toNanos - began.toNanos) ≤ Duration.longest.toNanos →
    ∃ sum : Duration, sum.toNanos = elapsed.toNanos + (before.time.read.1.toNanos - began.toNanos) ∧
      sum.nanos < nanosPerSecond ∧ left.1.answer = answer sum ∧
      left.2.watches = before.watches.set number ⟨sum, none⟩
  long : Duration.longest.toNanos < elapsed.toNanos + (before.time.read.1.toNanos - began.toNanos) →
    left.1.answer = .brokeOff Overflow.duration.message ∧ left.2.watches = before.watches

/-! ### One stop -/

section Stop

variable {session before : Session} {lent : List Nat} {number : Nat} {elapsed began : Duration}

theorem Session.call_stop_of_fits (running : before.watches[number]? = some ⟨elapsed, some began⟩)
    (fits : elapsed.toNanos + (before.time.read.1.toNanos - began.toNanos) ≤ Duration.longest.toNanos) :
    ∃ sum : Duration, sum.toNanos = elapsed.toNanos + (before.time.read.1.toNanos - began.toNanos) ∧
      before.call number Stopwatch.stop =
        (.ok ⟨sum, none⟩, ⟨before.time.read.2, before.watches.set number ⟨sum, none⟩⟩) := by
  rw [← Duration.toNanos_monus] at fits
  obtain ⟨sum, added, total⟩ := Duration.exists_add fits
  rw [Duration.toNanos_monus] at total
  refine ⟨sum, total, call_of_ok ?_⟩
  rw [watch_eq running]
  exact Stopwatch.stop_of_add rfl added

theorem Session.call_stop_of_long (running : before.watches[number]? = some ⟨elapsed, some began⟩)
    (long : Duration.longest.toNanos < elapsed.toNanos + (before.time.read.1.toNanos - began.toNanos)) :
    before.call number Stopwatch.stop = (.error .overflow, ⟨before.time.read.2, before.watches⟩) := by
  rw [← Duration.toNanos_monus] at long
  refine call_of_error ?_
  rw [watch_eq running]
  exact Stopwatch.stop_of_overflow rfl (Duration.add?_of_long long)

/-- A step that ends with one stop of a running stopwatch closes its interval
exactly, however it words its answer. -/
theorem Session.closesExactly_of_call {answer : Duration → Answer α}
    (told : Except Refusal Stopwatch → Answer α)
    (running : before.watches[number]? = some ⟨elapsed, some began⟩)
    (closed : ∀ sum, told (.ok ⟨sum, none⟩) = answer sum)
    (broke : told (.error .overflow) = .brokeOff Overflow.duration.message)
    (inner : Option (List (Entry α))) :
    before.ClosesExactly number elapsed began answer
      ((before.call number Stopwatch.stop).2.entry lent (told (before.call number Stopwatch.stop).1) inner [],
        (before.call number Stopwatch.stop).2) := by
  rcases Nat.lt_or_ge Duration.longest.toNanos
    (elapsed.toNanos + (before.time.read.1.toNanos - began.toNanos)) with long | fits
  · rw [call_stop_of_long running long]
    refine ⟨rfl, before.time.taken?_read, fun fits => ?_, fun _ => ⟨broke, rfl⟩⟩
    exact absurd long (Nat.not_lt.2 fits)
  · obtain ⟨sum, total, called⟩ := call_stop_of_fits running fits
    rw [called]
    refine ⟨rfl, before.time.taken?_read, fun _ => ⟨sum, total, sum.nanos_lt, closed sum, rfl⟩, fun long => ?_⟩
    exact absurd long (Nat.not_lt.2 fits)

theorem Step.run_stop (free : session.isFree lent number = true) :
    (Step.act (.stop number) : Step α).run session lent =
      ((session.call number Stopwatch.stop).2.entry lent
          (Ending.dropped.answer (session.call number Stopwatch.stop).1) none [],
        (session.call number Stopwatch.stop).2) := by
  have about : (Action.stop number).watch?.all (session.isFree lent) = true := free
  rw [Step.run_act about, Action.run]
  rcases session.call number Stopwatch.stop with ⟨_ | _, _⟩ <;> rfl

theorem Session.stop_closesExactly (free : session.isFree lent number = true)
    (running : session.watches[number]? = some ⟨elapsed, some began⟩) :
    session.ClosesExactly number elapsed began (fun _ => .done)
      ((Step.act (.stop number) : Step α).run session lent) := by
  rw [Step.run_stop free]
  exact closesExactly_of_call Ending.dropped.answer running (fun _ => rfl) rfl none

end Stop

/-! ### All four ways -/

section Closing

variable {session before : Session} {lent : List Nat} {number : Nat} {elapsed began : Duration}
  {step : Step α} {answer : Duration → Answer α}

/-- An interval around steps is opened by the start, and what was started still
runs when it is closed. -/
theorem Step.around_closesExactly (free : session.isFree lent number = true)
    (stopped : session.watches[number]? = some ⟨elapsed, none⟩) (inner : List (Step α))
    {told : Except Refusal Stopwatch → Answer α} (closed : ∀ sum, told (.ok ⟨sum, none⟩) = answer sum)
    (broke : told (.error .overflow) = .brokeOff Overflow.duration.message) :
    let before := (Step.runAll ⟨session.time.read.2,
      session.watches.set number ⟨elapsed, some session.time.read.1⟩⟩ (number :: lent) inner).2
    before.watches[number]? = some ⟨elapsed, some session.time.read.1⟩ ∧
      before.ClosesExactly number elapsed session.time.read.1 answer
        (Step.around session lent number told inner) := by
  have called : session.call number Stopwatch.start =
      (.ok ⟨elapsed, some session.time.read.1⟩,
        ⟨session.time.read.2, session.watches.set number ⟨elapsed, some session.time.read.1⟩⟩) := by
    refine Session.call_of_ok ?_
    rw [Session.watch_eq stopped]
    exact Stopwatch.start_of_stopped rfl session.time
  have running := (Step.runAll_keeps_running free called inner).1
  rw [Step.around_of_opened free called]
  exact ⟨running, Session.closesExactly_of_call _ running closed broke _⟩

/-- **Whichever way an interval is closed, it is closed exactly.** -/
theorem Step.Closing.closesExactly (closing : step.Closing session lent number before elapsed began answer)
    (free : session.isFree lent number = true) :
    before.watches[number]? = some ⟨elapsed, some began⟩ ∧
      before.ClosesExactly number elapsed began answer (step.run session lent) := by
  cases closing with
  | stop running => exact ⟨running, Session.stop_closesExactly free running⟩
  | dropped stopped inner =>
    rw [Step.run_guarded]
    exact Step.around_closesExactly free stopped inner (fun _ => rfl) rfl
  | finished stopped inner =>
    rw [Step.run_guarded]
    exact Step.around_closesExactly free stopped inner (fun _ => rfl) rfl
  | returned stopped value inner =>
    rw [Step.run_timed]
    exact Step.around_closesExactly free stopped inner (fun _ => rfl) rfl

/-- **No interval is too long by itself**: once the closed ones are dropped, a
stop is carried out, and the stopwatch shows the open one alone. -/
theorem Session.stop_of_reset (free : session.isFree lent number = true)
    (running : session.watches[number]? = some ⟨elapsed, some began⟩) :
    ∃ sum : Duration, sum.toNanos = session.time.read.1.toNanos - began.toNanos ∧
      (Step.runAll (α := α) session lent [.act (.reset number), .act (.stop number)]).1.map (·.answer) =
        [.done, .done] ∧
      (Step.runAll (α := α) session lent [.act (.reset number), .act (.stop number)]).2.watches[number]? =
        some ⟨sum, none⟩ := by
  let dropped : Session := ⟨session.time, session.watches.set number ⟨.zero, some began⟩⟩
  have reset : (Step.act (.reset number) : Step α).run session lent =
      (dropped.entry lent .done none [], dropped) := by
    have about : (Action.reset number).watch?.all (session.isFree lent) = true := free
    rw [Step.run_act about, Action.run, watch_eq running]
    rfl
  obtain ⟨there, unlent⟩ := isFree_iff.1 free
  have runs : dropped.watches[number]? = some ⟨.zero, some began⟩ := List.getElem?_set_self there
  have free' : dropped.isFree lent number = true := isFree_iff.2 ⟨lt_of_watch runs, unlent⟩
  have short : Duration.zero.toNanos + (dropped.time.read.1.toNanos - began.toNanos) ≤
      Duration.longest.toNanos := by
    rw [Duration.toNanos_zero, Nat.zero_add]
    exact (Nat.sub_le _ _).trans (Duration.toNanos_le_longest _)
  obtain ⟨sum, total, -, done, left⟩ := (stop_closesExactly (α := α) free' runs).fits short
  rw [Duration.toNanos_zero, Nat.zero_add] at total
  refine ⟨sum, total, ?_, ?_⟩
  · simp only [reset, Step.runAll, List.map_cons, List.map_nil, done]
    rfl
  · simp only [reset, Step.runAll, left]
    exact List.getElem?_set_self (lt_of_watch runs)

end Closing

/-! ### Moving a source by hand -/

/-- What moving a source leaves: it shows the exact sum, or, if that is too
long, the step has broken off and nothing has changed. -/
structure Session.MovesExactly (watches : List Stopwatch) (now delta : Duration)
    (left : Entry α × Session) : Prop where
  fits : now.toNanos + delta.toNanos ≤ Duration.longest.toNanos →
    ∃ sum : Duration, sum.toNanos = now.toNanos + delta.toNanos ∧ left.1.answer = .reading sum ∧
      left.2 = ⟨.manual sum, watches⟩
  long : Duration.longest.toNanos < now.toNanos + delta.toNanos →
    left.1.answer = .brokeOff Overflow.duration.message ∧ left.2 = ⟨.manual now, watches⟩

theorem Step.advance_movesExactly (watches : List Stopwatch) (now delta : Duration) (lent : List Nat) :
    Session.MovesExactly watches now delta
      ((Step.act (.advance delta) : Step α).run ⟨.manual now, watches⟩ lent) := by
  rw [Step.run_act rfl]
  constructor
  · intro fits
    obtain ⟨sum, added, total⟩ := Duration.exists_add fits
    simp only [Action.run, added]
    exact ⟨sum, total, rfl, rfl⟩
  · intro long
    simp only [Action.run, Duration.add?_of_long long]
    exact ⟨rfl, trivial⟩

/-- **Closing an interval is exact, or changes nothing**, by a stop, a guard or
a timed function. The stopwatch runs until then. If closing it breaks off, it
still runs from where it began, whatever it showed: every later stop measures
from there, and is carried out when the sum fits, as it does once the closed
intervals are dropped. A source that is moved by hand shows the exact sum, or
what it showed. -/
theorem Step.run_closing {session before : Session} {lent : List Nat} {number : Nat}
    {elapsed began : Duration} {step : Step α} {answer : Duration → Answer α}
    (closing : step.Closing session lent number before elapsed began answer)
    (free : session.isFree lent number = true) :
    before.watches[number]? = some ⟨elapsed, some began⟩ ∧
    before.ClosesExactly number elapsed began answer (step.run session lent) ∧
    (Duration.longest.toNanos < elapsed.toNanos + (before.time.read.1.toNanos - began.toNanos) →
      ∀ later : Session, later.watches[number]? = (step.run session lent).2.watches[number]? →
        later.ClosesExactly number elapsed began (fun _ => .done)
          ((Step.act (.stop number) : Step α).run later lent) ∧
        ∃ sum : Duration, sum.toNanos = later.time.read.1.toNanos - began.toNanos ∧
          (Step.runAll (α := α) later lent [.act (.reset number), .act (.stop number)]).1.map (·.answer) =
            [.done, .done] ∧
          (Step.runAll (α := α) later lent [.act (.reset number), .act (.stop number)]).2.watches[number]? =
            some ⟨sum, none⟩) ∧
    ∀ (watches : List Stopwatch) (now delta : Duration), Session.MovesExactly watches now delta
      ((Step.act (.advance delta) : Step α).run ⟨.manual now, watches⟩ lent) := by
  obtain ⟨running, exactly⟩ := closing.closesExactly free
  refine ⟨running, exactly, fun long later kept => ?_,
    fun watches now delta => Step.advance_movesExactly watches now delta lent⟩
  rw [(exactly.long long).2, running] at kept
  have free' : later.isFree lent number = true :=
    Session.isFree_iff.2 ⟨Session.lt_of_watch kept, (Session.isFree_iff.1 free).2⟩
  exact ⟨Session.stop_closesExactly free' kept, Session.stop_of_reset free' kept⟩

/-- A stopwatch that shows five nanoseconds, an interval of the longest
duration, and a short one behind it. -/
def brimful : Session := ⟨.ofReadings [.zero, .longest, .ofNanos 3], [⟨.ofNanos 5, none⟩]⟩

/-- A guard on it that cannot be closed, with a step inside that may not touch the stopwatch. -/
def brimfulGuard : Step Nat := .guarded 0 .finished [.act (.reset 0)]

theorem run_closing_brimful :
    brimful.isFree [] 0 = true ∧
    (∃ before answer, brimfulGuard.Closing brimful [] 0 before (.ofNanos 5) .zero answer ∧
      before.time.read.1 = .longest) ∧
    (brimfulGuard.run brimful []).1.answer = .brokeOff Overflow.duration.message ∧
    (brimfulGuard.run brimful []).1.readings = some 2 ∧
    (brimfulGuard.run brimful []).2.watches = [⟨.ofNanos 5, some .zero⟩] ∧
    ((Step.act (.stop 0) : Step Nat).run (brimfulGuard.run brimful []).2 []).2.watches =
      [⟨.ofNanos 8, none⟩] ∧
    ∃ sum : Duration, sum.toNanos = 3 ∧
      (Step.runAll (α := Nat) (brimfulGuard.run brimful []).2 []
        [.act (.reset 0), .act (.stop 0)]).2.watches[0]? = some ⟨sum, none⟩ := by
  have free : brimful.isFree [] 0 = true := by decide
  have closing : brimfulGuard.Closing brimful [] 0 _ (.ofNanos 5) .zero _ :=
    .finished rfl [.act (.reset 0)]
  obtain ⟨running, exactly, later, -⟩ := Step.run_closing closing free
  have long : Duration.longest.toNanos <
      (Duration.ofNanos 5).toNanos + (Duration.longest.toNanos - Duration.zero.toNanos) := by decide
  obtain ⟨broke, kept⟩ := exactly.long long
  obtain ⟨stopped, sum, total, -, left⟩ := later long (brimfulGuard.run brimful []).2 rfl
  obtain ⟨shown, shows, -, -, closed⟩ := stopped.fits (by decide)
  refine ⟨free, ⟨_, _, closing, rfl⟩, broke, exactly.readings, kept, ?_, sum, total, left⟩
  rw [closed, kept, Duration.toNanos_inj.1 (shows.trans (by decide : _ = (Duration.ofNanos 8).toNanos))]
  rfl

end CapturePace
