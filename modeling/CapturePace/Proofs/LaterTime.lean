/-
# Only differences of readings matter

Let two sources of time show the same series, but the second one with every
reading later by the same duration. A session then goes the same way over
both: its steps answer and log the same, take as many readings, and leave
stopwatches that show the same and run or stand alike. Only what a step that
reads the source answers is later, by exactly that duration
(`session_later`). Nothing is asked of the readings, which may go back, and
sums that are too long are too long in both.

The two sessions are compared in lock step. What they have in common at every
moment is `Session.Later`: an open interval began later by the duration, and
that is all there is to tell them apart. One action keeps this
(`Action.run_later`), and so do steps at any depth.

Key definitions: `TimeSource.Later`, `Stopwatch.Later`, `Session.Later`,
`Action.Answers`, `Entry.Alike`, `Step.Alike`.
Key theorems: `Duration.monus_later`, `timeRoundsFrom_later`, `Action.run_later`,
`runAll_later`, `session_later`.
-/
import CapturePace.Proofs.TimedRounds

namespace CapturePace

/-- A difference is the same when both of its ends are later by the same duration. -/
theorem Duration.monus_later {delta began ended began' ended' : Duration}
    (first : began.add? delta = some began') (last : ended.add? delta = some ended') :
    ended'.monus began' = ended.monus began := by
  rw [← toNanos_inj, toNanos_monus, toNanos_monus, toNanos_add? first, toNanos_add? last]
  exact Nat.add_sub_add_right _ _ _

/-! ### Sources and stopwatches -/

/-- The two sources show the same series, the second one with every reading
later by `delta`, and as many readings have been taken of both. -/
inductive TimeSource.Later (delta : Duration) : TimeSource → TimeSource → Prop
  | series {readings readings' : Nat → Duration}
      (later : ∀ i, (readings i).add? delta = some (readings' i)) (taken : Nat) :
      Later delta (.series readings taken) (.series readings' taken)

/-- The two stopwatches show the same, and both are stopped, or the open
interval of the second one began later by `delta`. -/
inductive Stopwatch.Later (delta : Duration) : Stopwatch → Stopwatch → Prop
  | stopped (elapsed : Duration) : Later delta ⟨elapsed, none⟩ ⟨elapsed, none⟩
  | running (elapsed : Duration) {began began' : Duration} (later : began.add? delta = some began') :
      Later delta ⟨elapsed, some began⟩ ⟨elapsed, some began'⟩

/-- Two calls are carried out alike, or refused alike. -/
inductive Stopwatch.Called (delta : Duration) : Except Refusal Stopwatch → Except Refusal Stopwatch → Prop
  | ok {watch watch' : Stopwatch} (watches : watch.Later delta watch') : Called delta (.ok watch) (.ok watch')
  | error (refusal : Refusal) : Called delta (.error refusal) (.error refusal)

section Calls

variable {delta : Duration} {time time' : TimeSource} {watch watch' : Stopwatch} {outcome : Verdict Tally}

theorem TimeSource.Later.read (times : time.Later delta time') :
    time.read.1.add? delta = some time'.read.1 ∧ time.read.2.Later delta time'.read.2 := by
  cases times with
  | series later taken => exact ⟨later taken, .series later (taken + 1)⟩

theorem TimeSource.Later.taken?_eq (times : time.Later delta time') : time.taken? = time'.taken? := by
  cases times with
  | series later taken => rfl

namespace Stopwatch.Later

theorem elapsed_eq (watches : watch.Later delta watch') : watch.elapsed = watch'.elapsed := by
  cases watches <;> rfl

theorem start (watches : watch.Later delta watch') (times : time.Later delta time') :
    Called delta (watch.start time).1 (watch'.start time').1 ∧
      (watch.start time).2.Later delta (watch'.start time').2 := by
  cases watches with
  | stopped elapsed =>
    rw [start_of_stopped rfl, start_of_stopped rfl]
    exact ⟨.ok (.running elapsed times.read.1), times.read.2⟩
  | running elapsed later =>
    rw [start_of_running rfl, start_of_running rfl]
    exact ⟨.error _, times⟩

theorem stop (watches : watch.Later delta watch') (times : time.Later delta time') :
    Called delta (watch.stop time).1 (watch'.stop time').1 ∧
      (watch.stop time).2.Later delta (watch'.stop time').2 := by
  cases watches with
  | stopped elapsed =>
    rw [stop_of_stopped rfl, stop_of_stopped rfl]
    exact ⟨.error _, times⟩
  | @running elapsed began began' later =>
    obtain ⟨reading, rest⟩ := times.read
    have same := Duration.monus_later later reading
    cases added : elapsed.add? (time.read.1.monus began) with
    | none =>
      rw [stop_of_overflow rfl added, stop_of_overflow rfl (by rwa [same])]
      exact ⟨.error _, rest⟩
    | some sum =>
      rw [stop_of_add rfl added, stop_of_add rfl (by rwa [same])]
      exact ⟨.ok (.stopped sum), rest⟩

theorem reset (watches : watch.Later delta watch') : watch.reset.Later delta watch'.reset := by
  cases watches with
  | stopped elapsed => exact .stopped .zero
  | running elapsed later => exact .running .zero later

end Stopwatch.Later

/-! ### Rounds over a capture -/

/-- What timed rounds come to is the same, but for when an interval began that
they leave open. -/
structure Timed.Later (delta : Duration) (timed timed' : Timed Tally) : Prop where
  verdict : timed.verdict = timed'.verdict
  watch : timed.watch.Later delta timed'.watch
  time : timed.time.Later delta timed'.time
  journal : timed.journal = timed'.journal

/-- One round goes the same way. -/
theorem exists_timeRound_later (outcome : Verdict Tally) (watches : watch.Later delta watch')
    (times : time.Later delta time') :
    ∃ verdict after next after' next',
      timeRound outcome watch time = (verdict, after, next) ∧
        timeRound outcome watch' time' = (verdict, after', next') ∧
        after.Later delta after' ∧ next.Later delta next' := by
  cases watches with
  | stopped elapsed =>
    obtain ⟨began, rest⟩ := times.read
    obtain ⟨ended, rest⟩ := rest.read
    have same := Duration.monus_later began ended
    cases added : elapsed.add? (time.read.2.read.1.monus time.read.1) with
    | none =>
      exact ⟨_, _, _, _, _, timeRound_of_overflow rfl added, timeRound_of_overflow rfl (by rwa [same]),
        .running elapsed began, rest⟩
    | some sum =>
      exact ⟨_, _, _, _, _, timeRound_of_add rfl added, timeRound_of_add rfl (by rwa [same]),
        .stopped sum, rest⟩
  | running elapsed later =>
    exact ⟨_, _, _, _, _, timeRound_of_running rfl, timeRound_of_running rfl,
      .running elapsed later, times⟩

/-- **Rounds in a row** go the same way. -/
theorem timeRoundsFrom_later (outcome : Verdict Tally) (rounds left : Nat) (logged : List LogRecord)
    (watches : watch.Later delta watch') (times : time.Later delta time') :
    (timeRoundsFrom outcome rounds left watch time logged).Later delta
      (timeRoundsFrom outcome rounds left watch' time' logged) := by
  induction left generalizing watch watch' time time' logged with
  | zero =>
    obtain ⟨verdict, after, next, after', next', ended, ended', kept, onward⟩ :=
      exists_timeRound_later outcome watches times
    cases verdict with
    | finished tally =>
      rw [timeRoundsFrom_zero ended, timeRoundsFrom_zero ended', kept.elapsed_eq]
      exact ⟨rfl, kept, onward, rfl⟩
    | _ =>
      rw [timeRoundsFrom_of_unfinished ended rfl, timeRoundsFrom_of_unfinished ended' rfl]
      exact ⟨rfl, kept, onward, rfl⟩
  | succ left ih =>
    obtain ⟨verdict, after, next, after', next', ended, ended', kept, onward⟩ :=
      exists_timeRound_later outcome watches times
    cases verdict with
    | finished tally =>
      rw [timeRoundsFrom_succ ended, timeRoundsFrom_succ ended', kept.elapsed_eq]
      exact ih _ kept onward
    | _ =>
      rw [timeRoundsFrom_of_unfinished ended rfl, timeRoundsFrom_of_unfinished ended' rfl]
      exact ⟨rfl, kept, onward, rfl⟩

end Calls

/-! ### Sessions -/

/-- The sessions are the same, but for the source of time and the beginnings
of open intervals, which are later by `delta`. -/
structure Session.Later (delta : Duration) (session session' : Session) : Prop where
  time : session.time.Later delta session'.time
  watches : List.Forall₂ (Stopwatch.Later delta) session.watches session'.watches

section Sessions

variable {delta : Duration} {session session' : Session} {number : Nat}

theorem forall₂_set {β γ : Type} {R : β → γ → Prop} {xs : List β} {ys : List γ} {x : β} {y : γ}
    (all : List.Forall₂ R xs ys) (new : R x y) (number : Nat) :
    List.Forall₂ R (xs.set number x) (ys.set number y) := by
  induction all generalizing number with
  | nil => exact .nil
  | cons first rest ih =>
    cases number with
    | zero => exact .cons new rest
    | succ number => exact .cons first (ih number)

namespace Session.Later

/-- Neither source can be moved by hand. -/
theorem exists_series (sessions : session.Later delta session') :
    ∃ readings readings' taken, session.time = .series readings taken ∧
      session'.time = .series readings' taken := by
  obtain ⟨time, watches⟩ := session
  obtain ⟨time', watches'⟩ := session'
  obtain ⟨times, -⟩ := sessions
  cases times with
  | series later taken => exact ⟨_, _, taken, rfl, rfl⟩

theorem watch (sessions : session.Later delta session') (number : Nat) :
    (session.watch number).Later delta (session'.watch number) := by
  obtain ⟨time, watches⟩ := session
  obtain ⟨time', watches'⟩ := session'
  have all : List.Forall₂ (Stopwatch.Later delta) watches watches' := sessions.watches
  show (watches.getD number {}).Later delta (watches'.getD number {})
  clear sessions
  induction all generalizing number with
  | nil => exact .stopped .zero
  | cons first rest ih =>
    cases number with
    | zero => exact first
    | succ number => exact ih number

theorem isFree_eq (sessions : session.Later delta session') (lent : List Nat) (number : Nat) :
    session.isFree lent number = session'.isFree lent number := by
  rw [isFree, isFree, sessions.watches.length_eq]

theorem set {watch watch' : Stopwatch} {time time' : TimeSource} (sessions : session.Later delta session')
    (times : time.Later delta time') (watches : watch.Later delta watch') (number : Nat) :
    Session.Later delta ⟨time, session.watches.set number watch⟩ ⟨time', session'.watches.set number watch'⟩ :=
  ⟨times, forall₂_set sessions.watches watches number⟩

theorem visible (sessions : session.Later delta session') (lent : List Nat) :
    List.Forall₂ (Option.Rel (Stopwatch.Later delta)) (session.visible lent) (session'.visible lent) := by
  rw [List.forall₂_iff_get]
  refine ⟨?_, fun number lt lt' => ?_⟩
  · simp only [Session.visible, List.length_mapIdx, sessions.watches.length_eq]
  · simp only [Session.visible, List.get_eq_getElem, List.getElem_mapIdx]
    split
    · exact .none
    · exact .some (sessions.watches.get _ _)

/-- A call goes the same way in both sessions. -/
theorem call {operation : Stopwatch → TimeSource → Except Refusal Stopwatch × TimeSource}
    (sessions : session.Later delta session') (number : Nat)
    (alike : Stopwatch.Called delta (operation (session.watch number) session.time).1
        (operation (session'.watch number) session'.time).1 ∧
      (operation (session.watch number) session.time).2.Later delta
        (operation (session'.watch number) session'.time).2) :
    Stopwatch.Called delta (session.call number operation).1 (session'.call number operation).1 ∧
      (session.call number operation).2.Later delta (session'.call number operation).2 := by
  rw [Session.call, Session.call]
  generalize operation (session.watch number) session.time = outcome at alike ⊢
  generalize operation (session'.watch number) session'.time = outcome' at alike ⊢
  obtain ⟨result, time⟩ := outcome
  obtain ⟨result', time'⟩ := outcome'
  obtain ⟨called, times⟩ := alike
  cases called with
  | ok watches => exact ⟨.ok watches, sessions.set times watches number⟩
  | error refusal => exact ⟨.error refusal, times, sessions.watches⟩

end Session.Later

end Sessions

/-! ### Actions -/

/-- What the same action answers in both sessions: a reading of the source is
later by `delta`, and everything else is the same. -/
def Action.Answers {α : Type} (delta : Duration) : Action → Answer α → Answer α → Prop
  | .read _, .reading now, .reading now' => now.add? delta = some now'
  | _, answer, answer' => answer = answer'

section Actions

variable {α : Type} {delta : Duration} {session session' : Session}

theorem answerCall_later {called called' : Except Refusal Stopwatch × Session}
    (alike : Stopwatch.Called delta called.1 called'.1 ∧ called.2.Later delta called'.2) :
    (Action.answerCall called : Answer α × Session × List LogRecord).1 = (Action.answerCall called').1 ∧
      (Action.answerCall called : Answer α × Session × List LogRecord).2.1.Later delta
        (Action.answerCall called' : Answer α × Session × List LogRecord).2.1 ∧
      (Action.answerCall called : Answer α × Session × List LogRecord).2.2 =
        (Action.answerCall called' : Answer α × Session × List LogRecord).2.2 := by
  obtain ⟨result, last⟩ := called
  obtain ⟨result', last'⟩ := called'
  obtain ⟨results, sessions⟩ := alike
  cases results with
  | ok watches => exact ⟨rfl, sessions, rfl⟩
  | error refusal => exact ⟨rfl, sessions, rfl⟩

/-- **An action goes the same way in both sessions.** -/
theorem Action.run_later (sessions : session.Later delta session') (action : Action) :
    action.Answers delta (action.run session (α := α)).1 (action.run session').1 ∧
      (action.run session (α := α)).2.1.Later delta (action.run session' (α := α)).2.1 ∧
      (action.run session (α := α)).2.2 = (action.run session' (α := α)).2.2 := by
  have times := sessions.time
  cases action with
  | advance step =>
    obtain ⟨readings, readings', taken, series, series'⟩ := sessions.exists_series
    simp only [run, series, series', and_true]
    exact ⟨rfl, sessions⟩
  | set reading =>
    obtain ⟨readings, readings', taken, series, series'⟩ := sessions.exists_series
    simp only [run, series, series', and_true]
    exact ⟨rfl, sessions⟩
  | start number => exact answerCall_later (sessions.call number ((sessions.watch number).start times))
  | stop number => exact answerCall_later (sessions.call number ((sessions.watch number).stop times))
  | reset number => exact ⟨rfl, sessions.set times (sessions.watch number).reset number, rfl⟩
  | read number => exact ⟨times.read.1, ⟨times.read.2, sessions.watches⟩, rfl⟩
  | copy number =>
    have same : session.watches.length = session'.watches.length := sessions.watches.length_eq
    refine ⟨congrArg Answer.watch same, ⟨times, ?_⟩, rfl⟩
    exact List.rel_append sessions.watches (.cons (sessions.watch number) .nil)
  | capture number bytes settings =>
    have timed := timeRoundsFrom_later (tallyOf bytes settings.capacity)
      (max 1 settings.rounds) (max 1 settings.rounds - 1) [] (sessions.watch number) times
    exact ⟨congrArg Verdict.answer timed.verdict, sessions.set timed.time timed.watch number, timed.journal⟩

end Actions

/-! ### Steps -/

section Steps

variable {α : Type}

/-- The two entries show the same, but for the beginnings of open intervals,
which are later by `delta`, and what `answers` and `inside` leave open. -/
structure Entry.Alike (delta : Duration) (answers : Answer α → Answer α → Prop)
    (inside : List (Entry α) → List (Entry α) → Prop) (entry entry' : Entry α) : Prop where
  answer : answers entry.answer entry'.answer
  watches : List.Forall₂ (Option.Rel (Stopwatch.Later delta)) entry.watches entry'.watches
  readings : entry.readings = entry'.readings
  inner : Option.Rel inside entry.inner entry'.inner
  journal : entry.journal = entry'.journal

mutual

/-- The two entries of the step are the same, but for the beginnings of open
intervals, and for what the source showed to the steps that only read it: both
are later by `delta`. -/
def Step.Alike (delta : Duration) : Step α → Entry α → Entry α → Prop
  | .act action, entry, entry' => entry.Alike delta (action.Answers delta) (fun _ _ => False) entry'
  | .guarded _ _ inner, entry, entry' => entry.Alike delta Eq (Step.AllAlike delta inner) entry'
  | .timed _ _ inner, entry, entry' => entry.Alike delta Eq (Step.AllAlike delta inner) entry'

/-- The same of steps in a row, one by one. -/
def Step.AllAlike (delta : Duration) : List (Step α) → List (Entry α) → List (Entry α) → Prop
  | [], entries, entries' => entries = [] ∧ entries' = []
  | step :: steps, entries, entries' => ∃ entry rest entry' rest',
      entries = entry :: rest ∧ entries' = entry' :: rest' ∧
        step.Alike delta entry entry' ∧ Step.AllAlike delta steps rest rest'

end

variable {delta : Duration} {session session' : Session}

theorem Session.Later.entry (sessions : session.Later delta session') (lent : List Nat)
    {answers : Answer α → Answer α → Prop} {inside : List (Entry α) → List (Entry α) → Prop}
    {answer answer' : Answer α} {inner inner' : Option (List (Entry α))} {journal journal' : List LogRecord}
    (told : answers answer answer') (within : Option.Rel inside inner inner') (logged : journal = journal') :
    (session.entry lent answer inner journal).Alike delta answers inside
      (session'.entry lent answer' inner' journal') :=
  ⟨told, sessions.visible lent, sessions.time.taken?_eq, within, logged⟩

theorem act_later (sessions : session.Later delta session') (lent : List Nat) (action : Action) :
    (Step.act action : Step α).Alike delta ((Step.act action : Step α).run session lent).1
        ((Step.act action : Step α).run session' lent).1 ∧
      ((Step.act action : Step α).run session lent).2.Later delta
        ((Step.act action : Step α).run session' lent).2 := by
  have same : action.watch?.all (session.isFree lent) = action.watch?.all (session'.isFree lent) :=
    congrArg action.watch?.all (funext (sessions.isFree_eq lent))
  by_cases free : action.watch?.all (session.isFree lent) = true
  · rw [Step.run_act free, Step.run_act (same ▸ free)]
    obtain ⟨told, after, logged⟩ := Action.run_later (α := α) sessions action
    exact ⟨after.entry lent told .none logged, after⟩
  · rw [Step.run, if_neg free, Step.run, if_neg (same ▸ free)]
    have told : action.Answers delta (.unavailable : Answer α) .unavailable := by cases action <;> rfl
    exact ⟨sessions.entry lent told .none rfl, sessions⟩

/-- An interval around steps goes the same way, if the steps inside do. -/
theorem around_later (sessions : session.Later delta session') (lent : List Nat) (number : Nat)
    {answer : Except Refusal Stopwatch → Answer α} {inner : List (Step α)}
    (told : ∀ result result', Stopwatch.Called delta result result' → answer result = answer result')
    (within : ∀ opened opened', opened.Later delta opened' →
      Step.AllAlike delta inner (Step.runAll opened (number :: lent) inner).1
          (Step.runAll opened' (number :: lent) inner).1 ∧
        (Step.runAll opened (number :: lent) inner).2.Later delta
          (Step.runAll opened' (number :: lent) inner).2) :
    (Step.around session lent number answer inner).1.Alike delta Eq (Step.AllAlike delta inner)
        (Step.around session' lent number answer inner).1 ∧
      (Step.around session lent number answer inner).2.Later delta
        (Step.around session' lent number answer inner).2 := by
  have same := sessions.isFree_eq lent number
  by_cases free : session.isFree lent number = true
  · have start := sessions.call number ((sessions.watch number).start sessions.time)
    rcases called : session.call number Stopwatch.start with ⟨result, opened⟩
    rcases called' : session'.call number Stopwatch.start with ⟨result', opened'⟩
    rw [called, called'] at start
    obtain ⟨results, opens⟩ := start
    cases results with
    | error refusal =>
      rw [Step.around_of_refused free called, Step.around_of_refused (same ▸ free) called']
      exact ⟨opens.entry lent rfl .none rfl, opens⟩
    | ok watches =>
      rw [Step.around_of_opened free called, Step.around_of_opened (same ▸ free) called']
      obtain ⟨inside, last⟩ := within opened opened' opens
      obtain ⟨closed, ended⟩ := last.call number ((last.watch number).stop last.time)
      exact ⟨ended.entry lent (told _ _ closed) (.some inside) rfl, ended⟩
  · have taken : session.isFree lent number = false := by simpa using free
    rw [Step.around_of_unavailable taken, Step.around_of_unavailable (same ▸ taken)]
    exact ⟨sessions.entry lent rfl .none rfl, sessions⟩

theorem Ending.answer_eq (ending : Ending) {result result' : Except Refusal Stopwatch}
    (closed : Stopwatch.Called delta result result') :
    (ending.answer result : Answer α) = ending.answer result' := by
  cases closed with
  | ok watches =>
    cases ending with
    | dropped => rfl
    | finished => exact congrArg Answer.elapsed watches.elapsed_eq
  | error refusal => rfl

theorem Return.answer_eq (value : Return α) {result result' : Except Refusal Stopwatch}
    (closed : Stopwatch.Called delta result result') : value.answer result = value.answer result' := by
  cases closed with
  | ok watches => cases value <;> rfl
  | error refusal => rfl

mutual

theorem run_later {session session' : Session} (sessions : session.Later delta session')
    (lent : List Nat) : ∀ step : Step α,
    step.Alike delta (step.run session lent).1 (step.run session' lent).1 ∧
      (step.run session lent).2.Later delta (step.run session' lent).2
  | .act action => act_later sessions lent action
  | .guarded number ending inner => by
    rw [Step.run_guarded, Step.run_guarded]
    exact around_later sessions lent number (fun _ _ => ending.answer_eq)
      fun _ _ opens => runAll_later opens (number :: lent) inner
  | .timed number result inner => by
    rw [Step.run_timed, Step.run_timed]
    exact around_later sessions lent number (fun _ _ => result.answer_eq)
      fun _ _ opens => runAll_later opens (number :: lent) inner

/-- **Steps in a row go the same way in both sessions.** -/
theorem runAll_later {session session' : Session} (sessions : session.Later delta session')
    (lent : List Nat) : ∀ steps : List (Step α),
    Step.AllAlike delta steps (Step.runAll session lent steps).1 (Step.runAll session' lent steps).1 ∧
      (Step.runAll session lent steps).2.Later delta (Step.runAll session' lent steps).2
  | [] => ⟨⟨rfl, rfl⟩, sessions⟩
  | step :: steps => by
    obtain ⟨first, next⟩ := run_later sessions lent step
    obtain ⟨rest, last⟩ := runAll_later next lent steps
    exact ⟨⟨_, _, _, _, rfl, rfl, first, rest⟩, last⟩

end

/-- **Only differences of readings matter.** Over a series of which every
reading is later by `delta`, a session answers and logs the same, step by step
and at any depth, takes as many readings, and leaves every stopwatch with the
same elapsed time and as running as before. Only the readings themselves are
later by `delta`, where a step asks for them. -/
theorem session_later {delta : Duration} {readings readings' : Nat → Duration}
    (later : ∀ i, (readings i).add? delta = some (readings' i)) (steps : List (Step α)) :
    Step.AllAlike delta steps (Step.runAll ⟨.series readings 0, [{}]⟩ [] steps).1
        (Step.runAll ⟨.series readings' 0, [{}]⟩ [] steps).1 ∧
      (Step.runAll ⟨.series readings 0, [{}]⟩ [] steps).2.Later delta
        (Step.runAll ⟨.series readings' 0, [{}]⟩ [] steps).2 :=
  runAll_later ⟨.series later 0, .cons (.stopped .zero) .nil⟩ [] steps

end Steps

/-- Readings that go back on the way, counted from `origin`. -/
def unsteady (origin : Nat) : Nat → Duration
  | 0 => .ofNanos (origin + 10)
  | 1 => .ofNanos (origin + 14)
  | 2 => .ofNanos (origin + 3)
  | _ => .ofNanos (origin + 20)

/-- A copy that is stopped and then used in another interval, a capture, and reads in between. -/
def visits : List (Step Nat) :=
  [.act (.read 0), .timed 0 (.value 7) [.act (.copy 0), .act (.stop 1), .act (.read 1)],
    .guarded 1 .finished [.act (.capture 0 [] {})]]

theorem session_later_visits :
    (∀ i, (unsteady 0 i).add? (.ofNanos 5000000000) = some (unsteady 5000000000 i)) ∧
    Step.AllAlike (.ofNanos 5000000000) visits
      (Step.runAll ⟨.series (unsteady 0) 0, [{}]⟩ [] visits).1
      (Step.runAll ⟨.series (unsteady 5000000000) 0, [{}]⟩ [] visits).1 := by
  have later : ∀ i, (unsteady 0 i).add? (.ofNanos 5000000000) = some (unsteady 5000000000 i)
    | 0 | 1 | 2 => rfl
    | _ + 3 =>
      (rfl : (Duration.ofNanos (0 + 20)).add? (.ofNanos 5000000000) = some (.ofNanos (5000000000 + 20)))
  exact ⟨later, (session_later later visits).1⟩

end CapturePace
