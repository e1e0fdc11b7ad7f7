/-
# Guarded and timed steps are plain calls

A guarded step comes to a start, the steps inside, and one stop; a timed step
likewise. If the start is refused, it is all that happens. Taken apart like
this at every depth, a session becomes a session of plain actions with nothing
lent. `Told` says how the entries of the one tell those of the other: which
plain calls a step comes to, in which order, and that each entry shows the
answer, the stopwatches and the readings of its plain calls.

Both runs go through the same sessions. The one thing to know for the stop is
that its stopwatch still runs: it is lent to the steps inside, and what is
lent stays as it is (`Step.runAll_keeps`).

Key definitions: `Step.Respects`, `Plain`, `Told`, `ToldAround`, `ToldAll`.
Key theorems: `exists_plain_around`, `session_told`.
-/
import CapturePace.Proofs.Calls

namespace CapturePace

/-! ### Steps that keep off what is lent -/

section Respects

variable {α : Type}

mutual

/-- No step inside, at any depth, uses a stopwatch that is lent to it. -/
def Step.Respects (lent : List Nat) : Step α → Prop
  | .act action => ∀ number ∈ action.watch?, number ∉ lent
  | .guarded number _ inner => number ∉ lent ∧ Step.RespectAll (number :: lent) inner
  | .timed number _ inner => number ∉ lent ∧ Step.RespectAll (number :: lent) inner

/-- The steps keep off what is lent, one by one. -/
def Step.RespectAll (lent : List Nat) : List (Step α) → Prop
  | [] => True
  | step :: steps => step.Respects lent ∧ Step.RespectAll lent steps

end

end Respects

/-! ### Plain calls -/

section Plain

variable {α : Type} {session next last : Session} {log more : List (Action × Entry α)}

/-- Actions with the entries they left, one after the other and with nothing
lent, from one session to another. -/
def Plain (session : Session) (log : List (Action × Entry α)) (last : Session) : Prop :=
  Step.runAll session [] (log.map fun (action, _) => .act action) = (log.map fun (_, entry) => entry, last)

theorem Plain.nil : Plain session ([] : List (Action × Entry α)) session := rfl

theorem Plain.append (first : Plain session log next) (rest : Plain next more last) :
    Plain session (log ++ more) last := by
  rw [Plain] at first rest
  rw [Plain, List.map_append, Step.runAll_append, first, rest, List.map_append]

theorem Plain.single {action : Action} {entry : Entry α}
    (ran : (Step.act action).run session [] = (entry, last)) : Plain session [(action, entry)] last := by
  simp only [Plain, List.map_cons, List.map_nil, Step.runAll_cons, ran]
  rfl

end Plain

/-! ### What an entry tells of its plain calls -/

section Told

variable {α : Type}

/-- The entry shows what the plain one shows, but for the stopwatches that are lent. -/
structure Entry.Masks (lent : List Nat) (plain entry : Entry α) : Prop where
  watches : entry.watches = plain.watches.mapIdx fun number watch => if number ∈ lent then none else watch
  readings : entry.readings = plain.readings
  journal : entry.journal = plain.journal

/-- The entry of a plain stop: it closed the interval and left a stopwatch, or
the sum was too long. -/
inductive Entry.Stops (number : Nat) (entry : Entry α) : Option Stopwatch → Prop
  | closed {watch : Stopwatch} (answer : entry.answer = .done)
      (shown : entry.watches[number]? = some (some watch)) (stopped : watch.isRunning = false) :
      Stops number entry (some watch)
  | overflowed (answer : entry.answer = .brokeOff Overflow.duration.message) : Stops number entry none

/-- What a guarded step answers, by what its stop left. -/
inductive Ending.Tells : Ending → Option Stopwatch → Answer α → Prop
  | dropped {watch : Stopwatch} : Tells .dropped (some watch) .done
  | finished {watch : Stopwatch} : Tells .finished (some watch) (.elapsed watch.elapsed)
  | overflowed {ending : Ending} : Tells ending none (.brokeOff Overflow.duration.message)

/-- What a timed step answers, by what its stop left. A function that breaks off
in an interval that cannot be closed aborts. -/
inductive Return.Tells : Return α → Option Stopwatch → Answer α → Prop
  | value {value : α} {watch : Stopwatch} : Tells (.value value) (some watch) (.value value)
  | brokeOff {message : String} {watch : Stopwatch} :
      Tells (.breakOff message) (some watch) (.brokeOff message)
  | overflowed {value : α} : Tells (.value value) none (.brokeOff Overflow.duration.message)
  | aborted {message : String} : Tells (.breakOff message) none .aborted

mutual

/-- The plain calls that a step comes to while some stopwatches are lent, and
what its entry tells of theirs. -/
inductive Told : List Nat → Step α → Entry α → List (Action × Entry α) → Prop
  | act {lent : List Nat} {action : Action} {entry plain : Entry α} (masks : plain.Masks lent entry)
      (answer : entry.answer = plain.answer) (inner : entry.inner = none) :
      Told lent (.act action) entry [(action, plain)]
  | guarded {lent : List Nat} {number : Nat} {ending : Ending} {inner : List (Step α)} {entry : Entry α}
      {log : List (Action × Entry α)} (told : ToldAround lent number inner ending.Tells entry log) :
      Told lent (.guarded number ending inner) entry log
  | timed {lent : List Nat} {number : Nat} {result : Return α} {inner : List (Step α)} {entry : Entry α}
      {log : List (Action × Entry α)} (told : ToldAround lent number inner result.Tells entry log) :
      Told lent (.timed number result inner) entry log

/-- A start; if it succeeded, the steps inside; and then exactly one stop. -/
inductive ToldAround : List Nat → Nat → List (Step α) → (Option Stopwatch → Answer α → Prop) →
    Entry α → List (Action × Entry α) → Prop
  | refused {lent : List Nat} {number : Nat} {inner : List (Step α)}
      {tells : Option Stopwatch → Answer α → Prop} {entry opened : Entry α}
      (undone : opened.answer ≠ .done) (masks : opened.Masks lent entry)
      (answer : entry.answer = opened.answer) (unreached : entry.inner = none) :
      ToldAround lent number inner tells entry [(.start number, opened)]
  | closed {lent : List Nat} {number : Nat} {inner : List (Step α)}
      {tells : Option Stopwatch → Answer α → Prop} {entry opened closing : Entry α}
      {entries : List (Entry α)} {log : List (Action × Entry α)} {left : Option Stopwatch}
      (done : opened.answer = .done) (within : ToldAll (number :: lent) inner entries log)
      (stops : closing.Stops number left) (masks : closing.Masks lent entry)
      (answer : tells left entry.answer) (reached : entry.inner = some entries) :
      ToldAround lent number inner tells entry
        ([(.start number, opened)] ++ (log ++ [(.stop number, closing)]))

/-- The steps one after the other, each with its own plain calls. -/
inductive ToldAll : List Nat → List (Step α) → List (Entry α) → List (Action × Entry α) → Prop
  | nil {lent : List Nat} : ToldAll lent [] [] []
  | cons {lent : List Nat} {step : Step α} {steps : List (Step α)} {entry : Entry α}
      {entries : List (Entry α)} {log more : List (Action × Entry α)} (told : Told lent step entry log)
      (rest : ToldAll lent steps entries more) :
      ToldAll lent (step :: steps) (entry :: entries) (log ++ more)

end

end Told

/-! ### The same sessions on both sides -/

section Runs

variable {α : Type} {session opened last : Session} {lent : List Nat} {number : Nat}
  {watch running : Stopwatch} {action : Action}

theorem Session.visible_mask (session : Session) (lent : List Nat) :
    session.visible lent =
      (session.visible []).mapIdx fun number watch => if number ∈ lent then none else watch := by
  simp [visible, List.mapIdx_mapIdx, Function.comp_def]

theorem Session.entry_masks (session : Session) (lent : List Nat) (answer other : Answer α)
    (inner : Option (List (Entry α))) (journal : List LogRecord) :
    (session.entry [] other none journal).Masks lent (session.entry lent answer inner journal) :=
  ⟨session.visible_mask lent, rfl, rfl⟩

theorem Session.isFree_of_unlent (unlent : number ∉ lent) :
    session.isFree lent number = session.isFree [] number := by
  simp [isFree, unlent]

theorem Plain.of_free {answer : Answer α} {journal : List LogRecord}
    (free : action.watch?.all (session.isFree []) = true)
    (ran : action.run session = (answer, last, journal)) :
    Plain session [(action, last.entry [] answer none journal)] last := by
  refine Plain.single ?_
  rw [Step.run_act free, ran]

theorem Plain.start {outcome : Except Refusal Stopwatch} (free : session.isFree [] number = true)
    (called : session.call number Stopwatch.start = (outcome, last)) :
    Plain session
      [(.start number, last.entry [] (Action.answerCall (outcome, last) : Answer α × _).1 none [])] last := by
  refine Plain.of_free free ?_
  rw [Action.run, called]
  cases outcome <;> rfl

theorem Plain.stop {outcome : Except Refusal Stopwatch} (free : session.isFree [] number = true)
    (called : session.call number Stopwatch.stop = (outcome, last)) :
    Plain session
      [(.stop number, last.entry [] (Action.answerCall (outcome, last) : Answer α × _).1 none [])] last := by
  refine Plain.of_free free ?_
  rw [Action.run, called]
  cases outcome <;> rfl

theorem Plain.of_unavailable (taken : ¬ action.watch?.all (session.isFree []) = true) :
    Plain session [(action, (session.entry [] .unavailable none [] : Entry α))] session := by
  refine Plain.single ?_
  rw [Step.run, if_neg taken]

/-- An action on a stopwatch that is not lent is its own plain call. -/
theorem exists_plain_act (respects : (Step.act action : Step α).Respects lent) :
    ∃ log, Plain session log ((Step.act action : Step α).run session lent).2 ∧
      Told lent (.act action) ((Step.act action : Step α).run session lent).1 log := by
  have same : action.watch?.all (session.isFree lent) = action.watch?.all (session.isFree []) := by
    cases about : action.watch? with
    | none => rfl
    | some number => exact Session.isFree_of_unlent (respects number about)
  by_cases free : action.watch?.all (session.isFree []) = true
  · rw [Step.run_act (same.trans free)]
    exact ⟨_, Plain.of_free free rfl, .act (Session.entry_masks _ _ _ _ _ _) rfl rfl⟩
  · rw [Step.run, same, if_neg free]
    exact ⟨_, Plain.of_unavailable free, .act (Session.entry_masks _ _ _ _ _ _) rfl rfl⟩

theorem Refusal.answer_ne_done (refusal : Refusal) : (refusal.answer : Answer α) ≠ .done := by
  cases refusal <;> exact nofun

theorem Ending.tells_of_closed (ending : Ending) (watch : Stopwatch) :
    ending.Tells (some watch) (ending.answer (.ok watch) : Answer α) := by
  cases ending with
  | dropped => exact .dropped
  | finished => exact .finished

theorem Ending.tells_of_overflow (ending : Ending) :
    ending.Tells none (ending.answer (.error .overflow) : Answer α) := by
  cases ending <;> exact .overflowed

theorem Return.tells_of_closed (result : Return α) (watch : Stopwatch) :
    result.Tells (some watch) (result.answer (.ok watch)) := by
  cases result with
  | value returned => exact .value
  | breakOff message => exact .brokeOff

theorem Return.tells_of_overflow (result : Return α) :
    result.Tells none (result.answer (.error .overflow)) := by
  cases result with
  | value returned => exact .overflowed
  | breakOff message => exact .aborted

/-- **An interval around steps** comes to a start, their plain calls, and one
stop, or to the start alone. -/
theorem exists_plain_around {inner : List (Step α)} {answer : Except Refusal Stopwatch → Answer α}
    {tells : Option Stopwatch → Answer α → Prop} (unlent : number ∉ lent)
    (within : ∀ opened, ∃ log, Plain opened log (Step.runAll opened (number :: lent) inner).2 ∧
      ToldAll (number :: lent) inner (Step.runAll opened (number :: lent) inner).1 log)
    (closed : ∀ watch, tells (some watch) (answer (.ok watch)))
    (overflowed : tells none (answer (.error .overflow))) :
    ∃ log, Plain session log (Step.around session lent number answer inner).2 ∧
      ToldAround lent number inner tells (Step.around session lent number answer inner).1 log := by
  have same : session.isFree lent number = session.isFree [] number := Session.isFree_of_unlent unlent
  by_cases free : session.isFree [] number = true
  · rcases called : session.call number Stopwatch.start with ⟨refusal | running, opened⟩
    · rw [Step.around_of_refused (same.trans free) called]
      exact ⟨_, Plain.start free called,
        .refused refusal.answer_ne_done (Session.entry_masks _ _ _ _ _ _) rfl rfl⟩
    · rw [Step.around_of_opened (same.trans free) called]
      obtain ⟨kept, runs⟩ := Step.runAll_keeps_running (same.trans free) called inner
      obtain ⟨log, between, told⟩ := within opened
      have free' : Session.isFree (Step.runAll opened (number :: lent) inner).2 [] number = true :=
        Session.isFree_iff.2 ⟨Session.lt_of_watch kept, List.not_mem_nil⟩
      rcases Session.stop_of_running kept runs with ⟨left, last, stopped, shown, done⟩ | ⟨last, broke⟩
      · have calls := (Plain.start free called).append (between.append (Plain.stop free' stopped))
        rw [stopped]
        have visible := Session.visible_of_watch List.not_mem_nil shown
        exact ⟨_, calls, .closed rfl told (.closed rfl visible done)
          (Session.entry_masks _ _ _ _ _ _) (closed left) rfl⟩
      · have calls := (Plain.start free called).append (between.append (Plain.stop free' broke))
        rw [broke]
        exact ⟨_, calls, .closed rfl told (.overflowed rfl)
          (Session.entry_masks _ _ _ _ _ _) overflowed rfl⟩
  · have taken : session.isFree lent number = false := by rw [same]; simpa using free
    rw [Step.around_of_unavailable taken]
    have unavailable : ¬ (Action.start number).watch?.all (session.isFree []) = true := free
    exact ⟨_, Plain.of_unavailable unavailable,
      .refused nofun (Session.entry_masks _ _ _ _ _ _) rfl rfl⟩

mutual

theorem exists_plain (session : Session) (lent : List Nat) : ∀ step : Step α, step.Respects lent →
    ∃ log, Plain session log (step.run session lent).2 ∧ Told lent step (step.run session lent).1 log
  | .act action, respects => exists_plain_act respects
  | .guarded number ending inner, respects => by
    rw [Step.Respects] at respects
    rw [Step.run_guarded]
    obtain ⟨log, plain, told⟩ := exists_plain_around respects.1
      (fun opened => exists_plain_all opened (number :: lent) inner respects.2)
      ending.tells_of_closed ending.tells_of_overflow
    exact ⟨log, plain, .guarded told⟩
  | .timed number result inner, respects => by
    rw [Step.Respects] at respects
    rw [Step.run_timed]
    obtain ⟨log, plain, told⟩ := exists_plain_around respects.1
      (fun opened => exists_plain_all opened (number :: lent) inner respects.2)
      result.tells_of_closed result.tells_of_overflow
    exact ⟨log, plain, .timed told⟩

theorem exists_plain_all (session : Session) (lent : List Nat) :
    ∀ steps : List (Step α), Step.RespectAll lent steps →
      ∃ log, Plain session log (Step.runAll session lent steps).2 ∧
        ToldAll lent steps (Step.runAll session lent steps).1 log
  | [], _ => ⟨[], Plain.nil, .nil⟩
  | step :: steps, respects => by
    rw [Step.RespectAll] at respects
    obtain ⟨log, plain, told⟩ := exists_plain session lent step respects.1
    obtain ⟨more, rest, toldRest⟩ := exists_plain_all (step.run session lent).2 lent steps respects.2
    exact ⟨log ++ more, plain.append rest, .cons told toldRest⟩

end

/-- **Guarded and timed steps are plain calls**, at any depth. Whatever the
session and its source of time, there is a session of plain actions that ends
where this one does, and whose entries the entries of this one tell. -/
theorem session_told (session : Session) (steps : List (Step α)) (respects : Step.RespectAll [] steps) :
    ∃ log : List (Action × Entry α),
      Step.runAll session [] (log.map fun (action, _) => .act action) =
        (log.map fun (_, entry) => entry, (Step.runAll session [] steps).2) ∧
      ToldAll [] steps (Step.runAll session [] steps).1 log :=
  exists_plain_all session [] steps respects

end Runs

/-- An interval in another one whose function breaks off, one that cannot be
closed, and one that is refused as the stopwatch still runs. -/
def nested : List (Step Nat) :=
  [.act (.copy 0), .timed 0 (.breakOff "gave up") [.guarded 1 .finished [.act (.stop 2)]],
    .timed 1 (.value 7) [], .guarded 1 .dropped [.act (.reset 0)]]

/-- A session in which every interval has the longest duration. -/
def longIntervals : Session :=
  ⟨.ofReadings [.zero, .zero, .longest, .longest, .zero, .longest], [{}]⟩

theorem session_told_nested : Step.RespectAll [] nested ∧
    (Step.runAll longIntervals [] nested).1.map (·.answer) =
      [.watch 1, .brokeOff "gave up", .brokeOff Overflow.duration.message, .refused .alreadyRunning] ∧
    ∃ log : List (Action × Entry Nat),
      Step.runAll longIntervals [] (log.map fun (action, _) => .act action) =
        (log.map fun (_, entry) => entry, (Step.runAll longIntervals [] nested).2) ∧
      ToldAll [] nested (Step.runAll longIntervals [] nested).1 log := by
  have respects : Step.RespectAll [] nested := by
    simp [nested, Step.RespectAll, Step.Respects, Action.watch?]
  exact ⟨respects, by rfl, session_told longIntervals nested respects⟩

end CapturePace
