/-
# The readings of a session

Which readings of its time source a session takes, in the order in which it
takes them: one for every start and stop that meets the stopwatch in the right
state, one for every read, and two for every round over a capture. Moving the
source takes none.

Where the source counts its readings, these are all of them: from the series
it shows, the ones from where it was to where it has come (`chains_shows`).

Key definitions: `Action.readings`, `Step.readings`, `Step.allReadings`,
`TimeSource.Shows`.
Key theorems: `timeRoundsFrom_induct`, `runAll_induct`, `chains_shows`.
-/
import CapturePace.Proofs.Calls

namespace CapturePace

/-! ### Rounds and actions -/

/-- The readings of the round with `left` rounds to come after it, and of those. -/
def roundReadings (outcome : Verdict Tally) (left : Nat) (watch : Stopwatch) (time : TimeSource) :
    List Duration :=
  if watch.isRunning then [] else
    [time.read.1, time.read.2.read.1] ++
      match timeRound outcome watch time with
      | (.finished _, watch, time) =>
        match left with
        | 0 => []
        | left + 1 => roundReadings outcome left watch time
      | _ => []

/-- The readings that an action takes. -/
def Action.readings (session : Session) : Action → List Duration
  | .advance _ => []
  | .set _ => []
  | .start number => if (session.watch number).isRunning then [] else [session.time.read.1]
  | .stop number => if (session.watch number).isRunning then [session.time.read.1] else []
  | .reset _ => []
  | .read _ => [session.time.read.1]
  | .copy _ => []
  | .capture number bytes settings =>
    roundReadings (tallyOf bytes settings.capacity) (max 1 settings.rounds - 1) (session.watch number)
      session.time

/-! ### Steps -/

/-- The readings of an interval around steps, from the readings of the steps
inside and the session after them. -/
def Session.readingsAround (session : Session) (lent : List Nat) (number : Nat)
    (inside : Session → List Duration × Session) : List Duration :=
  if session.isFree lent number then
    match session.call number Stopwatch.start with
    | (.error _, _) => []
    | (.ok _, opened) =>
      let (readings, last) := inside opened
      [session.time.read.1] ++ (readings ++ [last.time.read.1])
  else []

section Steps

variable {α : Type}

mutual

/-- The readings that a step takes, with those of the steps inside. -/
def Step.readings (session : Session) (lent : List Nat) : Step α → List Duration
  | .act action => if action.watch?.all (session.isFree lent) then action.readings session else []
  | .guarded number _ inner => session.readingsAround lent number fun opened =>
      (Step.allReadings opened (number :: lent) inner, (Step.runAll opened (number :: lent) inner).2)
  | .timed number _ inner => session.readingsAround lent number fun opened =>
      (Step.allReadings opened (number :: lent) inner, (Step.runAll opened (number :: lent) inner).2)

/-- The readings of steps in a row. -/
def Step.allReadings (session : Session) (lent : List Nat) : List (Step α) → List Duration
  | [] => []
  | step :: steps =>
    step.readings session lent ++ Step.allReadings (step.run session lent).2 lent steps

end

end Steps

/-! ### What holds of every reading on the way

A relation between what there is before and after, and the readings in
between, that can be chained holds of a whole run if it holds of its parts. -/

section Rounds

variable {R : Stopwatch → TimeSource → List Duration → Stopwatch → TimeSource → Prop}
  {outcome : Verdict Tally}

theorem stopped_of_finished {tally : Tally} {watch after : Stopwatch} {time later : TimeSource}
    (ended : timeRound outcome watch time = (.finished tally, after, later)) : watch.isRunning = false := by
  cases started : watch.startedAt with
  | none => exact Stopwatch.isRunning_eq_false.2 started
  | some began =>
    rw [timeRound_of_running started] at ended
    cases ended

theorem timeRoundsFrom_induct (refl : ∀ watch time, R watch time [] watch time)
    (trans : ∀ {watch time readings watch' time' readings' watch'' time''},
      R watch time readings watch' time' → R watch' time' readings' watch'' time'' →
      R watch time (readings ++ readings') watch'' time'')
    (round : ∀ watch time, watch.isRunning = false →
      R watch time [time.read.1, time.read.2.read.1] (timeRound outcome watch time).2.1
        (timeRound outcome watch time).2.2)
    (rounds left : Nat) (watch : Stopwatch) (time : TimeSource) (logged : List LogRecord) :
    R watch time (roundReadings outcome left watch time)
      (timeRoundsFrom outcome rounds left watch time logged).watch
      (timeRoundsFrom outcome rounds left watch time logged).time := by
  fun_induction timeRoundsFrom outcome rounds left watch time logged with
  | case1 watch time logged tally after later ended =>
    have stopped := stopped_of_finished ended
    have only := round watch time stopped
    rw [ended] at only
    rw [roundReadings, if_neg (by simp [stopped]), ended]
    exact only
  | case2 watch time logged tally after later ended left _ ih =>
    have stopped := stopped_of_finished ended
    have first := round watch time stopped
    rw [ended] at first
    rw [roundReadings, if_neg (by simp [stopped]), ended]
    exact trans first ih
  | case3 left watch time logged verdict after later unfinished ended =>
    cases started : watch.startedAt with
    | some began =>
      rw [timeRound_of_running started] at ended
      cases ended
      rw [roundReadings, if_pos (Stopwatch.isRunning_eq_true.2 ⟨began, started⟩)]
      exact refl watch time
    | none =>
      have stopped := Stopwatch.isRunning_eq_false.2 started
      have only := round watch time stopped
      rw [ended] at only
      rw [roundReadings, if_neg (by simp [stopped]), ended]
      cases verdict with
      | finished tally => exact (unfinished tally rfl).elim
      | failed fault => exact only
      | overflowed overflow => exact only
      | aborted => exact only

end Rounds

/-- A relation that can be chained and holds of every action. -/
structure Chains (α : Type) (R : Session → List Duration → Session → Prop) : Prop where
  refl : ∀ session, R session [] session
  trans : ∀ {session next last readings more}, R session readings next → R next more last →
    R session (readings ++ more) last
  act : ∀ (session : Session) (action : Action),
    R session (action.readings session) (action.run session (α := α)).2.1

section Runs

variable {α : Type} {R : Session → List Duration → Session → Prop}

namespace Chains

variable {session opened : Session} {number : Nat} {watch : Stopwatch} {refusal : Refusal}

theorem start (chains : Chains α R)
    (called : session.call number Stopwatch.start = (.ok watch, opened)) :
    R session [session.time.read.1] opened := by
  have start := chains.act session (.start number)
  rw [Action.run, Action.session_answerCall, Action.readings, called,
    if_neg (by simp [Session.stopped_of_start called])] at start
  exact start

theorem refused (chains : Chains α R)
    (called : session.call number Stopwatch.start = (.error refusal, opened)) : R session [] opened := by
  have start := chains.act session (.start number)
  rw [Action.run, Action.session_answerCall, Action.readings, called,
    if_pos (Session.running_of_refused called).1] at start
  exact start

theorem stop (chains : Chains α R) (there : session.watches[number]? = some watch)
    (running : watch.isRunning = true) :
    R session [session.time.read.1] (session.call number Stopwatch.stop).2 := by
  have stop := chains.act session (.stop number)
  rw [Action.run, Action.session_answerCall, Action.readings, Session.watch_eq there, if_pos running] at stop
  exact stop

theorem around (chains : Chains α R) {lent : List Nat} {answer : Except Refusal Stopwatch → Answer α}
    {inner : List (Step α)}
    (within : ∀ opened, R opened (Step.allReadings opened (number :: lent) inner)
      (Step.runAll opened (number :: lent) inner).2) :
    R session
      (session.readingsAround lent number fun opened =>
        (Step.allReadings opened (number :: lent) inner, (Step.runAll opened (number :: lent) inner).2))
      (Step.around session lent number answer inner).2 := by
  by_cases free : session.isFree lent number = true
  · rcases called : session.call number Stopwatch.start with ⟨refusal | running, opened⟩
    · rw [Step.around_of_refused free called, Session.readingsAround, if_pos free, called]
      exact chains.refused called
    · obtain ⟨kept, runs⟩ := Step.runAll_keeps_running free called inner
      rw [Step.around_of_opened free called, Session.readingsAround, if_pos free, called]
      exact chains.trans (chains.start called) (chains.trans (within opened) (chains.stop kept runs))
  · have taken : session.isFree lent number = false := by simpa using free
    rw [Step.around_of_unavailable taken, Session.readingsAround, if_neg free]
    exact chains.refl session

end Chains

mutual

theorem run_induct (chains : Chains α R) (session : Session) (lent : List Nat) :
    ∀ step : Step α, R session (step.readings session lent) (step.run session lent).2
  | .act action => by
    rw [Step.readings, Step.run]
    by_cases free : action.watch?.all (session.isFree lent) = true
    · rw [if_pos free, if_pos free]
      exact chains.act session action
    · rw [if_neg free, if_neg free]
      exact chains.refl session
  | .guarded number ending inner => by
    rw [Step.readings, Step.run_guarded]
    exact chains.around fun opened => runAll_induct chains opened (number :: lent) inner
  | .timed number result inner => by
    rw [Step.readings, Step.run_timed]
    exact chains.around fun opened => runAll_induct chains opened (number :: lent) inner

/-- **What can be chained and holds of every action holds of whole sessions.** -/
theorem runAll_induct (chains : Chains α R) (session : Session) (lent : List Nat) :
    ∀ steps : List (Step α),
      R session (Step.allReadings session lent steps) (Step.runAll session lent steps).2
  | [] => chains.refl session
  | step :: steps => by
    rw [Step.allReadings, Step.runAll_cons]
    exact chains.trans (run_induct chains session lent step) (runAll_induct chains _ lent steps)

end

end Runs

/-! ### Sources that count -/

namespace TimeSource

variable {time next later : TimeSource} {readings more : List Duration}

/-- A source that shows a series comes from one state to another by showing
these readings. Nothing is said of a source that is moved by hand. -/
def Shows (time : TimeSource) (readings : List Duration) (later : TimeSource) : Prop :=
  ∀ series taken, time = .series series taken →
    later = .series series (taken + readings.length) ∧
      readings = (List.range' taken readings.length).map series

theorem Shows.nil (time : TimeSource) : time.Shows [] time := by
  intro series taken counts
  exact ⟨counts, rfl⟩

theorem Shows.read (time : TimeSource) : time.Shows [time.read.1] time.read.2 := by
  rintro series taken rfl
  exact ⟨rfl, rfl⟩

theorem Shows.append (first : time.Shows readings next) (rest : next.Shows more later) :
    time.Shows (readings ++ more) later := by
  intro series taken counts
  obtain ⟨between, shown⟩ := first series taken counts
  obtain ⟨after, shown'⟩ := rest series _ between
  rw [List.length_append, ← Nat.add_assoc, ← List.range'_append_1, List.map_append, ← shown, ← shown']
  exact ⟨after, rfl⟩

theorem Shows.round {outcome : Verdict Tally} {watch : Stopwatch} (stopped : watch.isRunning = false) :
    time.Shows [time.read.1, time.read.2.read.1] (timeRound outcome watch time).2.2 := by
  have both := (Shows.read time).append (Shows.read time.read.2)
  rw [Stopwatch.isRunning_eq_false] at stopped
  cases added : watch.elapsed.add? (time.read.2.read.1.monus time.read.1) with
  | none =>
    rw [timeRound_of_overflow stopped added]
    exact both
  | some sum =>
    rw [timeRound_of_add stopped added]
    exact both

end TimeSource

open TimeSource (Shows)

theorem Stopwatch.shows_start (watch : Stopwatch) (time : TimeSource) :
    time.Shows (if watch.isRunning then [] else [time.read.1]) (watch.start time).2 := by
  cases started : watch.startedAt with
  | none =>
    rw [start_of_stopped started, isRunning, started]
    exact Shows.read time
  | some began =>
    rw [start_of_running started, isRunning, started]
    exact Shows.nil time

theorem Stopwatch.shows_stop (watch : Stopwatch) (time : TimeSource) :
    time.Shows (if watch.isRunning then [time.read.1] else []) (watch.stop time).2 := by
  cases started : watch.startedAt with
  | none =>
    rw [stop_of_stopped started, isRunning, started]
    exact Shows.nil time
  | some began =>
    rw [isRunning, started]
    cases added : watch.elapsed.add? (time.read.1.monus began) with
    | none =>
      rw [stop_of_overflow started added]
      exact Shows.read time
    | some sum =>
      rw [stop_of_add started added]
      exact Shows.read time

theorem Session.time_call (session : Session) (number : Nat)
    (operation : Stopwatch → TimeSource → Except Refusal Stopwatch × TimeSource) :
    (session.call number operation).2.time = (operation (session.watch number) session.time).2 := by
  rw [call]
  rcases operation (session.watch number) session.time with ⟨_ | _, _⟩ <;> rfl

/-- **The readings are all there are**, of every action and so of whole sessions. -/
theorem chains_shows {α : Type} :
    Chains α fun session readings last => session.time.Shows readings last.time where
  refl session := Shows.nil session.time
  trans := Shows.append
  act session action := by
    cases action with
    | advance delta =>
      rintro series taken counts
      rw [Action.run, counts]
      exact ⟨counts, rfl⟩
    | set reading =>
      rintro series taken counts
      rw [Action.run, counts]
      exact ⟨counts, rfl⟩
    | start number =>
      rw [Action.run, Action.session_answerCall, Session.time_call]
      exact Stopwatch.shows_start _ _
    | stop number =>
      rw [Action.run, Action.session_answerCall, Session.time_call]
      exact Stopwatch.shows_stop _ _
    | reset number => exact Shows.nil session.time
    | read number => exact Shows.read session.time
    | copy number => exact Shows.nil session.time
    | capture number bytes settings =>
      exact timeRoundsFrom_induct (R := fun _ time readings _ later => time.Shows readings later)
        (fun _ time => Shows.nil time) Shows.append (fun _ _ => Shows.round) _ _ _ _ _

end CapturePace
