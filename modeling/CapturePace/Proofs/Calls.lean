/-
# Calls of stopwatches, and steps in a row

What a call of a stopwatch does, by the state it meets: one equation for each
way it can go. A session passes a call on to one of its stopwatches. Steps in a
row are carried out one after the other.

What is lent to the steps in the scope of a guard is as they found it when the
scope is left (`Step.runAll_keeps`): however it is left, the guard makes one stop,
and of its own stopwatch. So that one still runs. Guarded and timed steps
therefore come to one thing, a start, the steps inside and one stop
(`Step.around`), and differ in what they answer to how the stop went
(`Step.run_guarded`, `Step.run_timed`).

Key definitions: `Verdict.unclosed`, `Ending.answer`, `Return.answer`, `Step.around`.
Key theorems: `Stopwatch.start_of_stopped`, `Stopwatch.stop_of_add`,
`Session.call_of_ok`, `Step.run_act`, `Step.runAll_append`, `Step.runAll_keeps`,
`Step.run_guarded`, `Step.run_timed`.
-/
import Mathlib
import CapturePace.Session

namespace CapturePace

@[simp] theorem Duration.toNanos_zero : Duration.zero.toNanos = 0 := by decide

theorem Duration.toNanos_le_longest (d : Duration) : d.toNanos ≤ Duration.longest.toNanos := by
  have longest : Duration.longest.toNanos + 1 = secondsLimit * nanosPerSecond := by decide
  have short := d.toNanos_lt
  omega

theorem Duration.exists_add {a b : Duration} (fits : a.toNanos + b.toNanos ≤ Duration.longest.toNanos) :
    ∃ sum, a.add? b = some sum ∧ sum.toNanos = a.toNanos + b.toNanos := by
  cases h : a.add? b with
  | none =>
    rw [Duration.add?_eq_none] at h
    have short := Duration.longest.toNanos_lt
    omega
  | some sum => exact ⟨sum, rfl, Duration.toNanos_add? h⟩

namespace Stopwatch

variable {watch closed : Stopwatch} {time : TimeSource} {began sum : Duration}

theorem isRunning_eq_false : watch.isRunning = false ↔ watch.startedAt = none := by
  rw [isRunning, Option.isSome_eq_false_iff, Option.isNone_iff_eq_none]

theorem isRunning_eq_true : watch.isRunning = true ↔ ∃ began, watch.startedAt = some began :=
  Option.isSome_iff_exists

theorem start_of_stopped (stopped : watch.startedAt = none) (time : TimeSource) :
    watch.start time = (.ok { watch with startedAt := some time.read.1 }, time.read.2) := by
  rw [start, stopped]

theorem start_of_running (running : watch.startedAt = some began) (time : TimeSource) :
    watch.start time = (.error (.misuse .alreadyRunning), time) := by
  rw [start, running]

theorem stop_of_stopped (stopped : watch.startedAt = none) (time : TimeSource) :
    watch.stop time = (.error (.misuse .notRunning), time) := by
  rw [stop, stopped]

theorem stop_of_add (running : watch.startedAt = some began)
    (fits : watch.elapsed.add? (time.read.1.monus began) = some sum) :
    watch.stop time = (.ok ⟨sum, none⟩, time.read.2) := by
  simp only [stop, running, fits]

theorem stop_of_overflow (running : watch.startedAt = some began)
    (long : watch.elapsed.add? (time.read.1.monus began) = none) :
    watch.stop time = (.error .overflow, time.read.2) := by
  simp only [stop, running, long]

end Stopwatch

/-! ### One round over a capture -/

/-- What becomes of a verdict if the interval around it cannot be closed. -/
def Verdict.unclosed {α : Type} : Verdict α → Verdict α
  | .finished _ => .overflowed .duration
  | .failed _ => .overflowed .duration
  | .overflowed _ => .aborted
  | .aborted => .aborted

theorem Verdict.ofCourse_leaving {α : Type} (verdict : Verdict α) :
    ofCourse (verdict.course.leaving (.error .duration)) = verdict.unclosed := by
  cases verdict <;> rfl

theorem Verdict.isFinished_unclosed {α : Type} (verdict : Verdict α) :
    verdict.unclosed.isFinished = false := by
  cases verdict <;> rfl

section Round

variable {outcome : Verdict Tally} {watch : Stopwatch} {time : TimeSource} {began sum : Duration}

theorem timeRound_of_running (running : watch.startedAt = some began) :
    timeRound outcome watch time = (.failed (.misused .alreadyRunning), watch, time) := by
  have refused := Place.call_alone_of_error (Stopwatch.start_of_running running time)
  rw [timeRound, Place.guard_of_error refused]
  rfl

theorem timeRound_of_add (stopped : watch.startedAt = none)
    (fits : watch.elapsed.add? (time.read.2.read.1.monus time.read.1) = some sum) :
    timeRound outcome watch time = (outcome, ⟨sum, none⟩, time.read.2.read.2) := by
  have running : Stopwatch.startedAt { watch with startedAt := some time.read.1 } = some time.read.1 := rfl
  have started := Place.call_alone_of_ok (Stopwatch.start_of_stopped stopped time)
  have closed := Place.call_alone_of_ok (Stopwatch.stop_of_add running fits)
  simp only [timeRound, Place.guard_of_ok started, Guard.leave_of_ok (Place.close_of_ok closed),
    Verdict.ofCourse_course]

theorem timeRound_of_overflow (stopped : watch.startedAt = none)
    (long : watch.elapsed.add? (time.read.2.read.1.monus time.read.1) = none) :
    timeRound outcome watch time =
      (outcome.unclosed, { watch with startedAt := some time.read.1 }, time.read.2.read.2) := by
  have running : Stopwatch.startedAt { watch with startedAt := some time.read.1 } = some time.read.1 := rfl
  have started := Place.call_alone_of_ok (Stopwatch.start_of_stopped stopped time)
  have refused := Place.call_alone_of_error (Stopwatch.stop_of_overflow running long)
  simp only [timeRound, Place.guard_of_ok started, Guard.leave_of_error (Place.close_of_overflow refused),
    id, Verdict.ofCourse_leaving]

end Round

/-! ### Calls in a session -/

namespace Session

variable {session : Session} {number : Nat} {time : TimeSource} {watch : Stopwatch} {refusal : Refusal}
  {operation : Stopwatch → TimeSource → Except Refusal Stopwatch × TimeSource}

theorem call_of_ok (h : operation (session.watch number) session.time = (.ok watch, time)) :
    session.call number operation = (.ok watch, ⟨time, session.watches.set number watch⟩) := by
  rw [call, h]

theorem call_of_error (h : operation (session.watch number) session.time = (.error refusal, time)) :
    session.call number operation = (.error refusal, ⟨time, session.watches⟩) := by
  rw [call, h]

theorem watch_eq (there : session.watches[number]? = some watch) : session.watch number = watch := by
  rw [Session.watch, List.getD_eq_getElem?_getD, there]
  rfl

theorem running_of_refused {opened : Session}
    (called : session.call number Stopwatch.start = (.error refusal, opened)) :
    (session.watch number).isRunning = true ∧ refusal = .misuse .alreadyRunning := by
  cases started : (session.watch number).startedAt with
  | none =>
    rw [call_of_ok (Stopwatch.start_of_stopped started session.time)] at called
    cases called
  | some began =>
    rw [call_of_error (Stopwatch.start_of_running started session.time)] at called
    cases called
    exact ⟨Stopwatch.isRunning_eq_true.2 ⟨began, started⟩, rfl⟩

theorem stopped_of_start {opened : Session}
    (called : session.call number Stopwatch.start = (.ok watch, opened)) :
    (session.watch number).isRunning = false := by
  cases started : (session.watch number).startedAt with
  | none => exact Stopwatch.isRunning_eq_false.2 started
  | some began =>
    rw [call_of_error (Stopwatch.start_of_running started session.time)] at called
    cases called

theorem watch_of_start {opened : Session} (there : number < session.watches.length)
    (called : session.call number Stopwatch.start = (.ok watch, opened)) :
    opened.watches[number]? = some watch ∧ watch.isRunning = true := by
  have stopped := Stopwatch.isRunning_eq_false.1 (stopped_of_start called)
  rw [call_of_ok (Stopwatch.start_of_stopped stopped session.time)] at called
  cases called
  exact ⟨List.getElem?_set_self there, rfl⟩

theorem lt_of_watch (there : session.watches[number]? = some watch) :
    number < session.watches.length := (List.getElem?_eq_some_iff.1 there).1

/-- A stopwatch that runs is stopped, or its sum is too long. -/
theorem stop_of_running (there : session.watches[number]? = some watch)
    (running : watch.isRunning = true) :
    (∃ closed last, session.call number Stopwatch.stop = (.ok closed, last) ∧
        last.watches[number]? = some closed ∧ closed.isRunning = false) ∨
      ∃ last, session.call number Stopwatch.stop = (.error .overflow, last) := by
  obtain ⟨began, started⟩ := Stopwatch.isRunning_eq_true.1 running
  rw [← watch_eq there] at started
  cases added : (session.watch number).elapsed.add? (session.time.read.1.monus began) with
  | none => exact .inr ⟨_, call_of_error (Stopwatch.stop_of_overflow started added)⟩
  | some sum =>
    exact .inl ⟨_, _, call_of_ok (Stopwatch.stop_of_add started added),
      List.getElem?_set_self (lt_of_watch there), rfl⟩

end Session

namespace Step
variable {α : Type}

theorem run_act {session : Session} {lent : List Nat} {action : Action}
    (free : action.watch?.all (session.isFree lent) = true) :
    (Step.act action : Step α).run session lent =
      ((action.run session (α := α)).2.1.entry lent (action.run session).1 none
          (action.run session (α := α)).2.2,
        (action.run session (α := α)).2.1) := by
  rw [Step.run, if_pos free]

theorem runAll_cons (session : Session) (lent : List Nat) (step : Step α) (steps : List (Step α)) :
    Step.runAll session lent (step :: steps) =
      ((step.run session lent).1 :: (Step.runAll (step.run session lent).2 lent steps).1,
        (Step.runAll (step.run session lent).2 lent steps).2) := rfl

theorem runAll_append (session : Session) (lent : List Nat) (steps more : List (Step α)) :
    Step.runAll session lent (steps ++ more) =
      ((Step.runAll session lent steps).1 ++
          (Step.runAll (Step.runAll session lent steps).2 lent more).1,
        (Step.runAll (Step.runAll session lent steps).2 lent more).2) := by
  induction steps generalizing session with
  | nil => rfl
  | cons step steps ih =>
    rw [List.cons_append, runAll_cons, runAll_cons, ih]
    rfl

end Step

/-! ### Scopes of guards -/

section Scopes

variable {α : Type} {session opened : Session} {lent : List Nat} {number : Nat} {refusal : Refusal}
  {watch : Stopwatch} {leave : Guard Session → Session → Answer α × Session}
  {inside : Session → List (Entry α) × Session}

namespace Session

theorem around_of_unavailable (taken : session.isFree lent number = false) :
    session.around lent number leave inside = (session.entry lent .unavailable none [], session) := by
  rw [around, if_neg (by simp [taken])]

theorem around_of_refused (free : session.isFree lent number = true)
    (refused : session.call number Stopwatch.start = (.error refusal, opened)) :
    session.around lent number leave inside = (opened.entry lent refusal.answer none [], opened) := by
  have refused : (place number).guard session = (.error refusal, opened) := Place.guard_of_error refused
  rw [around, if_pos free, refused]

theorem around_of_opened (free : session.isFree lent number = true)
    (done : session.call number Stopwatch.start = (.ok watch, opened)) :
    session.around lent number leave inside =
      ((leave ⟨some (place number)⟩ (inside opened).2).2.entry lent
          (leave ⟨some (place number)⟩ (inside opened).2).1 (some (inside opened).1) [],
        (leave ⟨some (place number)⟩ (inside opened).2).2) := by
  have guarded : (place number).guard session = (.ok ⟨some (place number)⟩, opened) := Place.guard_of_ok done
  rw [around, if_pos free, guarded]

end Session

/-- Either way of ending a guarded step is one stop. -/
theorem Ending.leave_session (ending : Ending) (number : Nat) (session : Session) :
    (ending.leave ⟨some (Session.place number)⟩ session : Answer α × Session).2 =
      (session.call number Stopwatch.stop).2 := by
  cases ending with
  | dropped => exact Guard.leave_state Overflow.message (.returned ()) session
  | finished => exact Guard.finish_state Overflow.message session

/-- To end a timed step is one stop, also if the function breaks off. -/
theorem Return.leave_session (result : Return α) (number : Nat) (session : Session) :
    (result.leave ⟨some (Session.place number)⟩ session).2 = (session.call number Stopwatch.stop).2 :=
  Guard.leave_state Overflow.message result.course session

end Scopes

/-! ### What is lent stays as it is -/

section Lent

variable {α : Type} {session : Session} {lent : List Nat} {number other : Nat} {watch : Stopwatch}

theorem Session.set_keeps {after : Stopwatch} {time : TimeSource} (apart : other ≠ number)
    (there : session.watches[number]? = some watch) :
    (Session.mk time (session.watches.set other after)).watches[number]? = some watch := by
  rw [← there]
  exact List.getElem?_set_ne apart

theorem Session.call_keeps
    (operation : Stopwatch → TimeSource → Except Refusal Stopwatch × TimeSource)
    (apart : other ≠ number) (there : session.watches[number]? = some watch) :
    (session.call other operation).2.watches[number]? = some watch := by
  rw [call]
  split
  · exact set_keeps apart there
  · exact there

@[simp] theorem Action.session_answerCall (called : Except Refusal Stopwatch × Session) :
    (Action.answerCall called : Answer α × Session × List LogRecord).2.1 = called.2 := by
  rcases called with ⟨_ | _, _⟩ <;> rfl

theorem Action.run_keeps (action : Action) (apart : ∀ other ∈ action.watch?, other ≠ number)
    (there : session.watches[number]? = some watch) :
    (action.run session (α := α)).2.1.watches[number]? = some watch := by
  cases action with
  | advance delta =>
    rw [run]
    split
    · split <;> exact there
    · exact there
  | set reading =>
    rw [run]
    split <;> exact there
  | start other =>
    rw [run, session_answerCall]
    exact Session.call_keeps _ (apart other rfl) there
  | stop other =>
    rw [run, session_answerCall]
    exact Session.call_keeps _ (apart other rfl) there
  | reset other => exact Session.set_keeps (apart other rfl) there
  | read other => exact there
  | copy other =>
    rw [← there]
    exact List.getElem?_append_left (Session.lt_of_watch there)
  | capture other bytes settings => exact Session.set_keeps (apart other rfl) there

theorem Session.ne_of_isFree (free : session.isFree lent other = true) (held : number ∈ lent) :
    other ≠ number := by
  rintro rfl
  simp [isFree, held] at free

theorem Session.visible_of_watch (unlent : number ∉ lent) (there : session.watches[number]? = some watch) :
    (session.visible lent)[number]? = some (some watch) := by
  simp [visible, List.getElem?_mapIdx, there, unlent]

theorem Session.mem_of_visible {watch : Stopwatch} (shown : some watch ∈ session.visible lent) :
    watch ∈ session.watches := by
  obtain ⟨number, there, same⟩ := List.mem_mapIdx.1 shown
  by_cases held : number ∈ lent
  · rw [if_pos held] at same
    cases same
  · rw [if_neg held] at same
    cases same
    exact List.getElem_mem there

theorem Session.isFree_iff :
    session.isFree lent number = true ↔ number < session.watches.length ∧ number ∉ lent := by
  simp [isFree]

theorem Session.around_keeps {leave : Guard Session → Session → Answer α × Session} {inner : List (Step α)}
    (stops : ∀ session, (leave ⟨some (place other)⟩ session).2 = (session.call other Stopwatch.stop).2)
    (within : ∀ session : Session, session.watches[number]? = some watch →
      (Step.runAll session (other :: lent) inner).2.watches[number]? = some watch)
    (held : number ∈ lent) (there : session.watches[number]? = some watch) :
    (session.around lent other leave fun opened =>
      Step.runAll opened (other :: lent) inner).2.watches[number]? = some watch := by
  by_cases free : session.isFree lent other = true
  · have apart := ne_of_isFree free held
    have kept := call_keeps Stopwatch.start apart there
    rcases called : session.call other Stopwatch.start with ⟨refusal | running, opened⟩
    · rw [called] at kept
      rwa [around_of_refused free called]
    · rw [called] at kept
      rw [around_of_opened free called, stops]
      exact call_keeps _ apart (within _ kept)
  · rwa [around_of_unavailable (by simpa using free)]

mutual

/-- **A step leaves a stopwatch that is lent as it is.** -/
theorem Step.run_keeps (session : Session) (lent : List Nat) (held : number ∈ lent)
    (there : session.watches[number]? = some watch) :
    ∀ step : Step α, (step.run session lent).2.watches[number]? = some watch
  | .act action => by
    by_cases free : action.watch?.all (session.isFree lent) = true
    · rw [Step.run_act free]
      refine Action.run_keeps action (fun other about => ?_) there
      rw [Option.mem_def.1 about] at free
      exact Session.ne_of_isFree free held
    · rwa [Step.run, if_neg free]
  | .guarded other ending inner => by
    rw [Step.run]
    exact Session.around_keeps (ending.leave_session other)
      (fun opened there => Step.runAll_keeps opened _ (List.mem_cons_of_mem _ held) there inner) held there
  | .timed other result inner => by
    rw [Step.run]
    exact Session.around_keeps (result.leave_session other)
      (fun opened there => Step.runAll_keeps opened _ (List.mem_cons_of_mem _ held) there inner) held there

theorem Step.runAll_keeps (session : Session) (lent : List Nat) (held : number ∈ lent)
    (there : session.watches[number]? = some watch) :
    ∀ steps : List (Step α), (Step.runAll session lent steps).2.watches[number]? = some watch
  | [] => there
  | step :: steps => by
    rw [Step.runAll_cons]
    exact Step.runAll_keeps _ lent held (Step.run_keeps session lent held there step) steps

end

/-- What was started around steps still runs behind them, as it was. -/
theorem Step.runAll_keeps_running {opened : Session} (free : session.isFree lent number = true)
    (called : session.call number Stopwatch.start = (.ok watch, opened)) (inner : List (Step α)) :
    (Step.runAll opened (number :: lent) inner).2.watches[number]? = some watch ∧
      watch.isRunning = true := by
  obtain ⟨there, runs⟩ := Session.watch_of_start (Session.isFree_iff.1 free).1 called
  exact ⟨Step.runAll_keeps opened (number :: lent) List.mem_cons_self there inner, runs⟩

end Lent

/-! ### A start, the steps inside, and one stop -/

/-- What a guarded step answers to how the stop of its interval went. -/
def Ending.answer {α : Type} : Ending → Except Refusal Stopwatch → Answer α
  | _, .error refusal => refusal.answer
  | .dropped, .ok _ => .done
  | .finished, .ok watch => .elapsed watch.elapsed

/-- What a timed step answers to how the stop of its interval went. A message of
the function goes before all the stop could tell, but a sum that is too long then
aborts. -/
def Return.answer {α : Type} : Return α → Except Refusal Stopwatch → Answer α
  | .breakOff _, .error .overflow => .aborted
  | .breakOff message, _ => .brokeOff message
  | .value _, .error refusal => refusal.answer
  | .value returned, .ok _ => .value returned

section Around

variable {α : Type} {session opened : Session} {lent : List Nat} {number : Nat} {refusal : Refusal}
  {watch : Stopwatch} {answer : Except Refusal Stopwatch → Answer α} {inner : List (Step α)}

theorem Ending.leave_of_running (ending : Ending) (there : session.watches[number]? = some watch)
    (running : watch.isRunning = true) :
    ending.leave ⟨some (Session.place number)⟩ session =
      ((ending.answer (session.call number Stopwatch.stop).1 : Answer α),
        (session.call number Stopwatch.stop).2) := by
  rcases Session.stop_of_running there running with ⟨closed, last, stopped, shown, -⟩ | ⟨last, broke⟩
  · have closes : (Session.place number).close session = (.ok (), last) := Place.close_of_ok stopped
    rw [stopped]
    cases ending with
    | dropped => simp only [leave, Guard.leave_of_ok closes, answer, Course.answer]
    | finished =>
      have shows : (Session.place number).watch last = closed := Session.watch_eq shown
      simp only [leave, Guard.finish_of_ok closes, answer, Course.answer, shows]
  · have breaks : (Session.place number).close session = (.error .duration, last) :=
      Place.close_of_overflow broke
    rw [broke]
    cases ending with
    | dropped => simp only [leave, Guard.leave_of_error breaks, answer, Course.leaving, Course.answer, Refusal.answer]
    | finished => simp only [leave, Guard.finish_of_error breaks, answer, Course.answer, Refusal.answer]

theorem Return.leave_of_running (result : Return α) (there : session.watches[number]? = some watch)
    (running : watch.isRunning = true) :
    result.leave ⟨some (Session.place number)⟩ session =
      (result.answer (session.call number Stopwatch.stop).1, (session.call number Stopwatch.stop).2) := by
  rcases Session.stop_of_running there running with ⟨closed, last, stopped, -, -⟩ | ⟨last, broke⟩
  · have closes : (Session.place number).close session = (.ok (), last) := Place.close_of_ok stopped
    rw [stopped, leave, Guard.leave_of_ok closes]
    cases result <;> rfl
  · have breaks : (Session.place number).close session = (.error .duration, last) :=
      Place.close_of_overflow broke
    rw [broke, leave, Guard.leave_of_error breaks]
    cases result <;> rfl

namespace Step

/-- An interval held open around steps by a start and one stop, and answered by
how the stop went. -/
def around (session : Session) (lent : List Nat) (number : Nat)
    (answer : Except Refusal Stopwatch → Answer α) (inner : List (Step α)) : Entry α × Session :=
  if session.isFree lent number then
    match session.call number Stopwatch.start with
    | (.error refusal, session) => (session.entry lent refusal.answer none [], session)
    | (.ok _, session) =>
      let (entries, session) := Step.runAll session (number :: lent) inner
      let (closed, session) := session.call number Stopwatch.stop
      (session.entry lent (answer closed) (some entries) [], session)
  else (session.entry lent .unavailable none [], session)

theorem around_of_unavailable (taken : session.isFree lent number = false) :
    around session lent number answer inner = (session.entry lent .unavailable none [], session) := by
  rw [around, if_neg (by simp [taken])]

theorem around_of_refused (free : session.isFree lent number = true)
    (refused : session.call number Stopwatch.start = (.error refusal, opened)) :
    around session lent number answer inner = (opened.entry lent refusal.answer none [], opened) := by
  rw [around, if_pos free, refused]

theorem around_of_opened (free : session.isFree lent number = true)
    (done : session.call number Stopwatch.start = (.ok watch, opened)) :
    around session lent number answer inner =
      (((Step.runAll opened (number :: lent) inner).2.call number Stopwatch.stop).2.entry lent
          (answer ((Step.runAll opened (number :: lent) inner).2.call number Stopwatch.stop).1)
          (some (Step.runAll opened (number :: lent) inner).1) [],
        ((Step.runAll opened (number :: lent) inner).2.call number Stopwatch.stop).2) := by
  rw [around, if_pos free, done]

/-- The scope of a guard comes to a start, the steps inside, and one stop, if
leaving it does where the stopwatch runs. It does run then, as it was lent. -/
theorem around_eq {leave : Guard Session → Session → Answer α × Session}
    (stops : ∀ {before : Session} {watch : Stopwatch}, before.watches[number]? = some watch →
      watch.isRunning = true → leave ⟨some (Session.place number)⟩ before =
        (answer (before.call number Stopwatch.stop).1, (before.call number Stopwatch.stop).2))
    (session : Session) (lent : List Nat) (inner : List (Step α)) :
    (session.around lent number leave fun opened => runAll opened (number :: lent) inner) =
      around session lent number answer inner := by
  by_cases free : session.isFree lent number = true
  · rcases called : session.call number Stopwatch.start with ⟨refusal | running, opened⟩
    · rw [around_of_refused free called, Session.around_of_refused free called]
    · obtain ⟨kept, runs⟩ := runAll_keeps_running free called inner
      rw [around_of_opened free called, Session.around_of_opened free called, stops kept runs]
  · have taken : session.isFree lent number = false := by simpa using free
    rw [around_of_unavailable taken, Session.around_of_unavailable taken]

/-- **A guarded step is a start, the steps inside, and one stop.** -/
theorem run_guarded (session : Session) (lent : List Nat) (number : Nat) (ending : Ending)
    (inner : List (Step α)) :
    (Step.guarded number ending inner).run session lent = around session lent number ending.answer inner := by
  rw [Step.run]
  exact around_eq ending.leave_of_running session lent inner

/-- **A timed step is a start, the steps inside, and one stop.** -/
theorem run_timed (session : Session) (lent : List Nat) (number : Nat) (result : Return α)
    (inner : List (Step α)) :
    (Step.timed number result inner).run session lent = around session lent number result.answer inner := by
  rw [Step.run]
  exact around_eq result.leave_of_running session lent inner

/-- An entry shows the session that its step left. -/
theorem watches_run (session : Session) (lent : List Nat) (step : Step α) :
    (step.run session lent).1.watches = (step.run session lent).2.visible lent := by
  have around : ∀ number answer (inner : List (Step α)),
      (around session lent number answer inner).1.watches =
        (around session lent number answer inner).2.visible lent := by
    intro number answer inner
    rw [Step.around]
    split
    · rcases session.call number Stopwatch.start with ⟨_ | _, _⟩ <;> rfl
    · rfl
  cases step with
  | act action =>
    rw [Step.run]
    split <;> rfl
  | guarded number ending inner =>
    rw [Step.run_guarded]
    exact around number ending.answer inner
  | timed number result inner =>
    rw [Step.run_timed]
    exact around number result.answer inner

end Step

end Around

end CapturePace
