/-
# Time that goes forward cannot overflow a stopwatch

A stopwatch refuses a sum that is too long for a duration. While the readings
of a session never decrease, there is no such sum: the closed intervals of a
stopwatch do not overlap, so they fit between the first reading of the session
and the latest one, and a reading is a duration.

The invariant is `Stopwatch.Within`: the closed intervals lie between the
first reading and the beginning of the open one. Every action keeps it for
every stopwatch, for copies of a running one as well (`chains_within`), and so
do whole sessions (`runAll_induct`).

Key definitions: `Rises`, `Stopwatch.Within`, `Answer.Fits`, `Step.Closes`, `span`.
Key theorems: `Stopwatch.Within.exists_add`, `chains_within`, `runAll_closes`,
`elapsed_le_span`.
-/
import CapturePace.Proofs.Readings

namespace CapturePace

/-! ### Readings that never decrease -/

/-- The readings never decrease, from one moment to a later one. -/
def Rises : Nat → List Duration → Nat → Prop
  | now, [], later => later = now
  | now, reading :: readings, later => now ≤ reading.toNanos ∧ Rises reading.toNanos readings later

section Rises

variable {first now later : Nat} {readings more : List Duration}

theorem Rises.le (rises : Rises now readings later) : now ≤ later := by
  induction readings generalizing now with
  | nil => exact rises.ge
  | cons reading readings ih => exact rises.1.trans (ih rises.2)

theorem rises_append :
    Rises now (readings ++ more) later ↔
      ∃ between, Rises now readings between ∧ Rises between more later := by
  induction readings generalizing now with
  | nil => exact ⟨fun rises => ⟨now, rfl, rises⟩, by rintro ⟨_, rfl, rises⟩; exact rises⟩
  | cons reading readings ih =>
    rw [List.cons_append, Rises, ih]
    constructor
    · rintro ⟨up, between, start, rest⟩
      exact ⟨between, ⟨up, start⟩, rest⟩
    · rintro ⟨between, ⟨up, start⟩, rest⟩
      exact ⟨up, between, start, rest⟩

theorem rises_single {reading : Duration} (rises : Rises now [reading] later) :
    now ≤ reading.toNanos ∧ later = reading.toNanos := rises

end Rises

/-! ### Stopwatches -/

namespace Stopwatch

variable {first now later : Nat} {watch : Stopwatch} {began reading : Duration}

/-- The closed intervals lie between the first reading and the beginning of
the open interval, or the latest reading if there is none. -/
structure Within (first now : Nat) (watch : Stopwatch) : Prop where
  elapsed : watch.elapsed.toNanos + first ≤ watch.startedAt.elim now Duration.toNanos
  started : ∀ began, watch.startedAt = some began → began.toNanos ≤ now

namespace Within

theorem bound (within : watch.Within first now) : watch.elapsed.toNanos + first ≤ now := by
  have room := within.elapsed
  cases started : watch.startedAt with
  | none =>
    rw [started] at room
    exact room
  | some began =>
    rw [started] at room
    exact room.trans (within.started began started)

theorem mono (within : watch.Within first now) (le : now ≤ later) : watch.Within first later := by
  refine ⟨?_, fun began started => (within.started began started).trans le⟩
  have room := within.elapsed
  cases started : watch.startedAt with
  | none =>
    rw [started] at room
    exact room.trans le
  | some began =>
    rw [started] at room
    exact room

theorem new (le : first ≤ now) : ({} : Stopwatch).Within first now := by
  refine ⟨?_, nofun⟩
  rw [Duration.toNanos_zero, Nat.zero_add]
  exact le

theorem reset (within : watch.Within first now) : watch.reset.Within first now := by
  refine ⟨?_, within.started⟩
  have room := within.elapsed
  have cleared : watch.reset.elapsed.toNanos = 0 := Duration.toNanos_zero
  rw [cleared, Nat.zero_add]
  exact (Nat.le_add_left _ _).trans room

/-- A start begins an interval behind all the closed ones. -/
theorem start (within : watch.Within first now) (up : now ≤ reading.toNanos) :
    Within first reading.toNanos { watch with startedAt := some reading } := by
  refine ⟨within.bound.trans up, ?_⟩
  rintro began ⟨⟩
  exact le_rfl

/-- **A sum that includes the open interval fits**: it is no longer than the
time from the first reading to this one. -/
theorem exists_add (within : watch.Within first now) (running : watch.startedAt = some began)
    (up : now ≤ reading.toNanos) :
    ∃ sum, watch.elapsed.add? (reading.monus began) = some sum ∧
      Within first reading.toNanos ⟨sum, none⟩ := by
  have room := within.elapsed
  rw [running, Option.elim_some] at room
  have start := within.started began running
  have long := reading.toNanos_le_longest
  have length := Duration.toNanos_monus reading began
  obtain ⟨sum, added, same⟩ :=
    Duration.exists_add (a := watch.elapsed) (b := reading.monus began) (by omega)
  refine ⟨sum, added, ?_, nofun⟩
  rw [Option.elim_none, same]
  omega

end Within

theorem within_start {time : TimeSource} {after : Stopwatch} (within : watch.Within first now)
    (rises : Rises now (if watch.isRunning then [] else [time.read.1]) later)
    (ran : (watch.start time).1 = .ok after) : after.Within first later := by
  cases started : watch.startedAt with
  | none =>
    rw [start_of_stopped started] at ran
    cases ran
    rw [isRunning, started] at rises
    obtain ⟨up, rfl⟩ := rises_single rises
    exact within.start up
  | some began =>
    rw [start_of_running started] at ran
    cases ran

theorem within_stop {time : TimeSource} {after : Stopwatch} (within : watch.Within first now)
    (rises : Rises now (if watch.isRunning then [time.read.1] else []) later)
    (ran : (watch.stop time).1 = .ok after) : after.Within first later := by
  cases started : watch.startedAt with
  | none =>
    rw [stop_of_stopped started] at ran
    cases ran
  | some began =>
    rw [isRunning, started] at rises
    obtain ⟨up, rfl⟩ := rises_single rises
    obtain ⟨sum, added, closed⟩ := within.exists_add started up
    rw [stop_of_add started added] at ran
    cases ran
    exact closed

end Stopwatch

/-! ### Rounds over a capture -/

section Round

variable {first now later : Nat} {outcome : Verdict Tally} {watch : Stopwatch} {time : TimeSource}

/-- A round on a stopwatch that is stopped is closed, and ends as the walk ends. -/
theorem timeRound_of_rises (outcome : Verdict Tally) (within : watch.Within first now)
    (stopped : watch.isRunning = false)
    (rises : Rises now [time.read.1, time.read.2.read.1] later) :
    (timeRound outcome watch time).1 = outcome ∧ (timeRound outcome watch time).2.1.Within first later := by
  obtain ⟨up, onward, rfl⟩ := rises
  rw [Stopwatch.isRunning_eq_false] at stopped
  obtain ⟨sum, added, closed⟩ := (within.start up).exists_add rfl onward
  rw [timeRound_of_add stopped added]
  exact ⟨rfl, closed⟩

theorem within_timeRounds (rounds left : Nat) (logged : List LogRecord) (within : watch.Within first now)
    (rises : Rises now (roundReadings outcome left watch time) later) :
    (timeRoundsFrom outcome rounds left watch time logged).watch.Within first later := by
  refine timeRoundsFrom_induct (R := fun watch _ readings after _ => ∀ now later,
    Rises now readings later → watch.Within first now → after.Within first later) ?_ ?_ ?_
    rounds left watch time logged now later rises within
  · rintro watch _ now later rfl within
    exact within
  · intro watch time readings after time' more last time'' start rest now later rises within
    obtain ⟨between, rises, onward⟩ := rises_append.1 rises
    exact rest _ _ onward (start _ _ rises within)
  · intro watch time stopped now later rises within
    exact (timeRound_of_rises outcome within stopped rises).2

/-- If time goes forward, rounds end as the walk does, or are refused. -/
theorem verdict_of_rises (rounds left : Nat) (logged : List LogRecord) (within : watch.Within first now)
    (rises : Rises now (roundReadings outcome left watch time) later) :
    (timeRoundsFrom outcome rounds left watch time logged).verdict = outcome ∨
      (timeRoundsFrom outcome rounds left watch time logged).verdict = .failed (.misused .alreadyRunning) := by
  fun_induction timeRoundsFrom outcome rounds left watch time logged generalizing now with
  | case1 watch time logged tally after next ended =>
    have stopped := stopped_of_finished ended
    rw [roundReadings, if_neg (by simp [stopped])] at rises
    obtain ⟨between, start, -⟩ := rises_append.1 rises
    have same := (timeRound_of_rises outcome within stopped start).1
    rw [ended] at same
    exact .inl same
  | case2 watch time logged tally after next ended left =>
    rename_i ih
    have stopped := stopped_of_finished ended
    rw [roundReadings, if_neg (by simp [stopped]), ended] at rises
    obtain ⟨between, start, rest⟩ := rises_append.1 rises
    have closed := (timeRound_of_rises outcome within stopped start).2
    rw [ended] at closed
    exact ih closed rest
  | case3 left watch time logged verdict after next unfinished ended =>
    cases started : watch.startedAt with
    | some began =>
      rw [timeRound_of_running started] at ended
      cases ended
      exact .inr rfl
    | none =>
      have stopped := Stopwatch.isRunning_eq_false.2 started
      rw [roundReadings, if_neg (by simp [stopped])] at rises
      obtain ⟨between, start, -⟩ := rises_append.1 rises
      have same := (timeRound_of_rises outcome within stopped start).1
      rw [ended] at same
      exact .inl same

end Round

/-! ### Sessions -/

/-- Every stopwatch of the session keeps to the time since the first reading. -/
structure Session.Within (first now : Nat) (session : Session) : Prop where
  started : first ≤ now
  watches : ∀ watch ∈ session.watches, watch.Within first now

section Sessions

variable {first now later : Nat} {session : Session}

namespace Session.Within

theorem watch (within : session.Within first now) (number : Nat) :
    (session.watch number).Within first now := by
  cases there : session.watches[number]? with
  | none =>
    rw [Session.watch, List.getD_eq_getElem?_getD, there]
    exact .new within.started
  | some watch =>
    rw [Session.watch_eq there]
    exact within.watches watch (List.mem_of_getElem? there)

theorem mono (within : session.Within first now) (le : now ≤ later) : session.Within first later :=
  ⟨within.started.trans le, fun watch there => (within.watches watch there).mono le⟩

theorem set {after : Stopwatch} (within : session.Within first now) (kept : after.Within first now)
    (number : Nat) (time : TimeSource) :
    Session.Within first now ⟨time, session.watches.set number after⟩ := by
  refine ⟨within.started, fun watch there => ?_⟩
  rcases List.mem_or_eq_of_mem_set there with there | rfl
  · exact within.watches watch there
  · exact kept

theorem call {operation : Stopwatch → TimeSource → Except Refusal Stopwatch × TimeSource} {number : Nat}
    (within : session.Within first now) (le : now ≤ later)
    (kept : ∀ after, (operation (session.watch number) session.time).1 = .ok after →
      after.Within first later) :
    (session.call number operation).2.Within first later := by
  rw [Session.call]
  rcases called : operation (session.watch number) session.time with ⟨refusal | after, time⟩
  · exact ⟨within.started.trans le, (within.mono le).watches⟩
  · rw [called] at kept
    exact (within.mono le).set (kept after rfl) number time

end Session.Within

/-- **Every action keeps every stopwatch to the time since the first reading.** -/
theorem chains_within (α : Type) (first : Nat) :
    Chains α fun session readings last => ∀ now later, Rises now readings later →
      session.Within first now → last.Within first later where
  refl session := by
    rintro now _ rfl within
    exact within
  trans := by
    intro session next last readings more start rest now later rises within
    obtain ⟨between, rises, onward⟩ := rises_append.1 rises
    exact rest _ _ onward (start _ _ rises within)
  act session action := by
    intro now later rises within
    have le := rises.le
    cases action with
    | advance delta =>
      have same := within.mono le
      rw [Action.run]
      split
      · split
        · exact ⟨same.started, same.watches⟩
        · exact same
      · exact same
    | set reading =>
      have same := within.mono le
      rw [Action.run]
      split
      · exact ⟨same.started, same.watches⟩
      · exact same
    | start number =>
      rw [Action.run, Action.session_answerCall]
      exact within.call le fun after ran => Stopwatch.within_start (within.watch number) rises ran
    | stop number =>
      rw [Action.run, Action.session_answerCall]
      exact within.call le fun after ran => Stopwatch.within_stop (within.watch number) rises ran
    | reset number => exact (within.mono le).set ((within.watch number).reset.mono le) number _
    | read number =>
      have same := within.mono le
      exact ⟨same.started, same.watches⟩
    | copy number =>
      have same := within.mono le
      refine ⟨same.started, fun watch there => ?_⟩
      rcases List.mem_append.1 there with there | there
      · exact same.watches watch there
      · rw [List.mem_singleton.1 there]
        exact same.watch number
    | capture number bytes settings =>
      exact (within.mono le).set (within_timeRounds _ _ _ (within.watch number) rises) number _

end Sessions

/-! ### Measurements that are closed -/

section Closes

variable {α : Type} {first now later : Nat} {session : Session} {lent : List Nat} {number : Nat}

/-- The answer tells of no sum that was too long. -/
def Answer.Fits : Answer α → Prop
  | .brokeOff message => message ≠ Overflow.duration.message
  | .aborted => False
  | _ => True

/-- The entry of an interval around steps: if it was opened, it was closed,
and the answer is the one for a closed interval. -/
def Entry.Closes (number : Nat) (answer : Except Refusal Stopwatch → Answer α)
    (inside : List (Entry α) → Prop) (entry : Entry α) : Prop :=
  match entry.inner with
  | none => entry.answer.Fits
  | some entries =>
    (∃ watch, entry.watches[number]? = some (some watch) ∧ watch.isRunning = false ∧
      entry.answer = answer (.ok watch)) ∧ inside entries

/-- No stopwatch that the entry shows has more than this time. -/
def Entry.AtMost (bound : Nat) (entry : Entry α) : Prop :=
  ∀ watch, some watch ∈ entry.watches → watch.elapsed.toNanos ≤ bound

mutual

/-- Neither the step nor a step inside overflowed a stopwatch. To move the
time source forward is no measurement. -/
def Step.Closes (bound : Nat) : Step α → Entry α → Prop
  | .act action, entry =>
    (∀ delta, action ≠ .advance delta) → entry.answer.Fits
  | .guarded number ending inner, entry => entry.Closes number ending.answer (Step.CloseAll bound inner)
  | .timed number result inner, entry => entry.Closes number result.answer (Step.CloseAll bound inner)

/-- The same of steps in a row, each with its entry, and no entry shows a
stopwatch with more time than the bound. -/
def Step.CloseAll (bound : Nat) : List (Step α) → List (Entry α) → Prop
  | [], entries => entries = []
  | step :: steps, entries =>
    ∃ entry rest, entries = entry :: rest ∧ entry.AtMost bound ∧ step.Closes bound entry ∧
      Step.CloseAll bound steps rest

end

/-- A walk adds up no durations. -/
theorem tallyOf_fits (bytes : List UInt8) (capacity : Nat) :
    ((tallyOf bytes capacity).answer : Answer α).Fits := by
  rw [tallyOf, ByteSource.tally]
  split
  · cases ByteSource.pass ⟨bytes, []⟩ capacity <;> exact trivial
  · exact (by decide : Overflow.capacity.message ≠ Overflow.duration.message)

theorem Session.Within.stop {watch : Stopwatch} (within : session.Within first now)
    (there : session.watches[number]? = some watch) (running : watch.isRunning = true)
    (up : now ≤ session.time.read.1.toNanos) :
    ∃ closed, session.call number Stopwatch.stop =
        (.ok closed, ⟨session.time.read.2, session.watches.set number closed⟩) ∧
      closed.isRunning = false := by
  obtain ⟨began, started⟩ := Stopwatch.isRunning_eq_true.1 running
  rw [← watch_eq there] at started
  obtain ⟨sum, added, -⟩ := (within.watch number).exists_add started up
  exact ⟨_, call_of_ok (Stopwatch.stop_of_add started added), rfl⟩

theorem Action.fits_answer {action : Action} (within : session.Within first now)
    (rises : Rises now (action.readings session) later) (still : ∀ delta, action ≠ .advance delta) :
    (action.run session (α := α)).1.Fits := by
  cases action with
  | advance delta => exact (still delta rfl).elim
  | set reading =>
    rw [run]
    split <;> exact trivial
  | start number =>
    rw [run]
    cases started : (session.watch number).startedAt with
    | none =>
      rw [Session.call_of_ok (Stopwatch.start_of_stopped started _)]
      exact trivial
    | some began =>
      rw [Session.call_of_error (Stopwatch.start_of_running started _)]
      exact trivial
  | stop number =>
    rw [run]
    cases started : (session.watch number).startedAt with
    | none =>
      rw [Session.call_of_error (Stopwatch.stop_of_stopped started _)]
      exact trivial
    | some began =>
      rw [readings, Stopwatch.isRunning, started] at rises
      obtain ⟨sum, added, -⟩ := (within.watch number).exists_add started (rises_single rises).1
      rw [Session.call_of_ok (Stopwatch.stop_of_add started added)]
      exact trivial
  | reset number => exact trivial
  | read number => exact trivial
  | copy number => exact trivial
  | capture number bytes settings =>
    have walked : ((tallyOf bytes settings.capacity).answer : Answer α).Fits := tallyOf_fits _ _
    rw [run]
    rcases verdict_of_rises _ _ [] (within.watch number) rises with same | refused
    · rwa [Stopwatch.timeRounds, same]
    · rw [Stopwatch.timeRounds, refused]
      exact trivial

theorem Step.atMost_run {bound : Nat} {step : Step α} (within : (step.run session lent).2.Within first now)
    (enough : now ≤ first + bound) : (step.run session lent).1.AtMost bound := by
  intro watch shown
  rw [Step.watches_run] at shown
  have room := (within.watches watch (Session.mem_of_visible shown)).bound
  omega

variable {bound : Nat}

theorem around_closes {answer : Except Refusal Stopwatch → Answer α} {inner : List (Step α)}
    (within : session.Within first now) (enough : later ≤ first + bound)
    (rises : Rises now (session.readingsAround lent number fun opened =>
      (Step.allReadings opened (number :: lent) inner, (Step.runAll opened (number :: lent) inner).2)) later)
    (inside : ∀ opened now later, opened.Within first now → later ≤ first + bound →
      Rises now (Step.allReadings opened (number :: lent) inner) later →
      Step.CloseAll bound inner (Step.runAll opened (number :: lent) inner).1) :
    (Step.around session lent number answer inner).1.Closes number answer (Step.CloseAll bound inner) := by
  by_cases free : session.isFree lent number = true
  · rcases called : session.call number Stopwatch.start with ⟨refusal | running, opened⟩
    · obtain ⟨-, rfl⟩ := Session.running_of_refused called
      rw [Step.around_of_refused free called]
      exact trivial
    · rw [Session.readingsAround, if_pos free, called] at rises
      obtain ⟨began, start, rest⟩ := rises_append.1 rises
      obtain ⟨ended, between, stop⟩ := rises_append.1 rest
      obtain ⟨kept, runs⟩ := Step.runAll_keeps_running free called inner
      have chains := chains_within α first
      have within' := chains.start called now began start within
      have within'' := runAll_induct chains opened (number :: lent) inner began ended between within'
      obtain ⟨closed, stopped, still⟩ := within''.stop kept runs (rises_single stop).1
      rw [Step.around_of_opened free called, stopped]
      have shown := List.getElem?_set_self (a := closed) (Session.lt_of_watch kept)
      exact ⟨⟨closed, Session.visible_of_watch (Session.isFree_iff.1 free).2 shown, still, rfl⟩,
        inside opened began ended within' (stop.le.trans enough) between⟩
  · have taken : session.isFree lent number = false := by simpa using free
    rw [Step.around_of_unavailable taken]
    exact trivial

mutual

theorem run_closes (session : Session) (lent : List Nat) (now later : Nat)
    (within : session.Within first now) (enough : later ≤ first + bound) :
    ∀ step : Step α, Rises now (step.readings session lent) later →
      step.Closes bound (step.run session lent).1
  | .act action, rises => by
    intro still
    rw [Step.readings] at rises
    rw [Step.run]
    by_cases free : action.watch?.all (session.isFree lent) = true
    · rw [if_pos free] at rises ⊢
      exact Action.fits_answer within rises still
    · rw [if_neg free]
      exact trivial
  | .guarded number ending inner, rises => by
    rw [Step.readings] at rises
    rw [Step.run_guarded, Step.Closes]
    exact around_closes within enough rises fun opened now later within enough rises =>
      runAll_closes opened (number :: lent) now later within enough inner rises
  | .timed number result inner, rises => by
    rw [Step.readings] at rises
    rw [Step.run_timed, Step.Closes]
    exact around_closes within enough rises fun opened now later within enough rises =>
      runAll_closes opened (number :: lent) now later within enough inner rises

theorem runAll_closes (session : Session) (lent : List Nat) (now later : Nat)
    (within : session.Within first now) (enough : later ≤ first + bound) :
    ∀ steps : List (Step α), Rises now (Step.allReadings session lent steps) later →
      Step.CloseAll bound steps (Step.runAll session lent steps).1
  | [], _ => rfl
  | step :: steps, rises => by
    rw [Step.allReadings] at rises
    obtain ⟨between, start, rest⟩ := rises_append.1 rises
    have enough' := rest.le.trans enough
    have kept := run_induct (chains_within α first) session lent step now between start within
    exact ⟨_, _, rfl, Step.atMost_run kept enough',
      run_closes session lent now between within enough' step start,
      runAll_closes _ lent between later kept enough steps rest⟩

end

end Closes

/-! ### Sessions from the beginning -/

/-- The time from the first reading to the latest one. -/
def span (readings : List Duration) : Nat :=
  (readings.getLastD .zero).toNanos - (readings.headD .zero).toNanos

theorem rises_of_isChain {reading : Duration} {readings : List Duration}
    (forward : (reading :: readings).IsChain fun a b => a.toNanos ≤ b.toNanos) :
    Rises reading.toNanos readings ((reading :: readings).getLastD .zero).toNanos := by
  induction readings generalizing reading with
  | nil => rfl
  | cons next readings ih =>
    rw [List.isChain_cons_cons] at forward
    exact ⟨forward.1, ih forward.2⟩

/-- **While time goes forward, no measurement overflows.** The readings are all
that a session takes. If they never decrease, no stopwatch of it ever shows more
than the time from the first reading to the latest one, and every interval that
is opened is closed. -/
theorem elapsed_le_span {α : Type} (time : TimeSource) (steps : List (Step α))
    (forward : (Step.allReadings ⟨time, [{}]⟩ [] steps).IsChain fun a b => a.toNanos ≤ b.toNanos) :
    time.Shows (Step.allReadings ⟨time, [{}]⟩ [] steps) (Step.runAll ⟨time, [{}]⟩ [] steps).2.time ∧
    (∀ watch ∈ (Step.runAll ⟨time, [{}]⟩ [] steps).2.watches,
      watch.elapsed.toNanos ≤ span (Step.allReadings ⟨time, [{}]⟩ [] steps)) ∧
    Step.CloseAll (span (Step.allReadings ⟨time, [{}]⟩ [] steps)) steps
      (Step.runAll ⟨time, [{}]⟩ [] steps).1 := by
  obtain ⟨first, later, rises, enough⟩ : ∃ first later,
      Rises first (Step.allReadings ⟨time, [{}]⟩ [] steps) later ∧
        later ≤ first + span (Step.allReadings ⟨time, [{}]⟩ [] steps) := by
    cases readings : Step.allReadings ⟨time, [{}]⟩ [] steps with
    | nil => exact ⟨0, 0, rfl, Nat.zero_le _⟩
    | cons reading rest =>
      rw [readings] at forward
      refine ⟨reading.toNanos, _, ⟨le_rfl, rises_of_isChain forward⟩, ?_⟩
      rw [span, List.headD_cons]
      omega
  have within : Session.Within first first ⟨time, [{}]⟩ := by
    refine ⟨le_rfl, fun watch there => ?_⟩
    rw [List.mem_singleton.1 there]
    exact .new le_rfl
  have after := runAll_induct (chains_within α first) _ [] steps first later rises within
  refine ⟨runAll_induct chains_shows ⟨time, [{}]⟩ [] steps, fun watch there => ?_,
    runAll_closes _ [] first later within enough steps rises⟩
  have room := (after.watches watch there).bound
  omega

/-- A stopwatch is copied while it runs, and both copies are used in each
other's intervals. -/
def twins : List (Step Nat) :=
  [.act (.start 0), .act (.copy 0), .act (.stop 0),
    .guarded 0 .finished [.act (.reset 1), .act (.stop 1), .timed 1 (.value 1) []], .act (.capture 1 [] {})]

theorem elapsed_twins :
    (Step.allReadings ⟨.ticking .zero (.ofNanos 5), [{}]⟩ [] twins).IsChain
      (fun a b => a.toNanos ≤ b.toNanos) ∧
    (TimeSource.ticking .zero (.ofNanos 5)).Shows
      (Step.allReadings ⟨.ticking .zero (.ofNanos 5), [{}]⟩ [] twins)
      (Step.runAll ⟨.ticking .zero (.ofNanos 5), [{}]⟩ [] twins).2.time ∧
    (∀ watch ∈ (Step.runAll ⟨.ticking .zero (.ofNanos 5), [{}]⟩ [] twins).2.watches,
      watch.elapsed.toNanos ≤ span (Step.allReadings ⟨.ticking .zero (.ofNanos 5), [{}]⟩ [] twins)) ∧
    Step.CloseAll (span (Step.allReadings ⟨.ticking .zero (.ofNanos 5), [{}]⟩ [] twins)) twins
      (Step.runAll ⟨.ticking .zero (.ofNanos 5), [{}]⟩ [] twins).1 := by
  have forward : (Step.allReadings ⟨.ticking .zero (.ofNanos 5), [{}]⟩ [] twins).IsChain
      (fun a b => a.toNanos ≤ b.toNanos) := by decide
  exact ⟨forward, elapsed_le_span (.ticking .zero (.ofNanos 5)) twins forward⟩

end CapturePace
