/-
# Stopwatches of one session are independent

Over a source of time that is moved by hand, a stopwatch is what was done with
it, and nothing else. What a session does, at whatever depth, is a list of
actions in the order in which they were carried out (`Step.allDeeds`); taken
one by one they lead through the session (`runAll_goes`), and the entries show
where (`runAll_shows`). From these actions pick the ones on a single stopwatch
and the moves of the source, and carry them out in a session with no other
stopwatch: it comes to the same state (`watch_lives_alone`). A copy begins in
the state that its original had at that moment (`Session.Life`).

One action either is one on the stopwatch, and then does the same to it when
it is alone, or leaves it as it is (`Action.effect_alone`); actions in a row
follow by induction (`Session.after_alone`). A source that counts its readings
would not do: there, one stopwatch takes the readings from another.

Key definitions: `Action.effect`, `Session.after`, `Step.allDeeds`,
`Action.alone`, `Session.alone`, `Session.Life`, `Step.AllShow`.
Key theorems: `runAll_goes`, `runAll_shows`, `Action.effect_alone`,
`Session.after_alone`, `Session.exists_life`, `watch_lives_alone`.
-/
import CapturePace.Proofs.Readings

namespace CapturePace

/-! ### Actions in a row -/

/-- The session after an action. -/
def Action.effect (session : Session) (action : Action) : Session := (action.run (α := Unit) session).2.1

/-- The session after actions in a row. -/
def Session.after (session : Session) (deeds : List Action) : Session := deeds.foldl Action.effect session

/-- Each of the actions finds its stopwatch in the session. -/
def Session.Able (session : Session) : List Action → Prop
  | [] => True
  | action :: deeds =>
    (∀ number ∈ action.watch?, number < session.watches.length) ∧ (action.effect session).Able deeds

section Actions

variable {α : Type} {session : Session} {deeds more : List Action}

/-- What a session becomes does not depend on what functions in it may return. -/
theorem Action.session_run (session : Session) (action : Action) :
    (action.run session (α := α)).2.1 = action.effect session := by
  rw [effect]
  cases action with
  | advance delta =>
    rw [run, run]
    split
    · split <;> rfl
    · rfl
  | set reading =>
    rw [run, run]
    split <;> rfl
  | start number => rw [run, run, session_answerCall, session_answerCall]
  | stop number => rw [run, run, session_answerCall, session_answerCall]
  | reset number => rfl
  | read number => rfl
  | copy number => rfl
  | capture number bytes settings => rfl

theorem Session.after_append (session : Session) (deeds more : List Action) :
    session.after (deeds ++ more) = (session.after deeds).after more := List.foldl_append

theorem Session.able_append :
    session.Able (deeds ++ more) ↔ session.Able deeds ∧ (session.after deeds).Able more := by
  induction deeds generalizing session with
  | nil => exact ⟨fun able => ⟨trivial, able⟩, And.right⟩
  | cons action deeds ih =>
    rw [List.cons_append, Able, Able, ih, and_assoc]
    rfl

theorem Action.effect_start (session : Session) (number : Nat) :
    (Action.start number).effect session = (session.call number Stopwatch.start).2 :=
  Action.session_answerCall _

theorem Action.effect_stop (session : Session) (number : Nat) :
    (Action.stop number).effect session = (session.call number Stopwatch.stop).2 :=
  Action.session_answerCall _

end Actions

/-! ### What a session does -/

/-- The actions of an interval around steps, from those of the steps inside. -/
def Session.deedsAround (session : Session) (lent : List Nat) (number : Nat)
    (inside : Session → List Action) : List Action :=
  if session.isFree lent number then
    match session.call number Stopwatch.start with
    | (.error _, _) => [.start number]
    | (.ok _, opened) => [.start number] ++ (inside opened ++ [.stop number])
  else []

section Deeds

variable {α : Type}

mutual

/-- The actions that are carried out in a step, with those of the steps inside. -/
def Step.deeds (session : Session) (lent : List Nat) : Step α → List Action
  | .act action => if action.watch?.all (session.isFree lent) then [action] else []
  | .guarded number _ inner => session.deedsAround lent number fun opened =>
      Step.allDeeds opened (number :: lent) inner
  | .timed number _ inner => session.deedsAround lent number fun opened =>
      Step.allDeeds opened (number :: lent) inner

/-- The actions that are carried out in steps in a row. -/
def Step.allDeeds (session : Session) (lent : List Nat) : List (Step α) → List Action
  | [] => []
  | step :: steps => step.deeds session lent ++ Step.allDeeds (step.run session lent).2 lent steps

end

/-- The actions can be carried out one by one, and lead from one session to the other. -/
structure Session.Goes (session : Session) (deeds : List Action) (last : Session) : Prop where
  able : session.Able deeds
  after : session.after deeds = last

variable {session next last opened : Session} {lent : List Nat} {deeds more : List Action} {number : Nat}
  {action : Action} {watch : Stopwatch} {refusal : Refusal}

namespace Session.Goes

theorem nil (session : Session) : session.Goes [] session := ⟨trivial, rfl⟩

theorem append (first : session.Goes deeds next) (rest : next.Goes more last) :
    session.Goes (deeds ++ more) last := by
  refine ⟨able_append.2 ⟨first.able, ?_⟩, ?_⟩
  · rw [first.after]
    exact rest.able
  · rw [after_append, first.after, rest.after]

theorem single (action : Action) (there : ∀ number ∈ action.watch?, number < session.watches.length) :
    session.Goes [action] (action.effect session) := ⟨⟨there, trivial⟩, rfl⟩

theorem start {result : Except Refusal Stopwatch} (there : number < session.watches.length)
    (called : session.call number Stopwatch.start = (result, opened)) :
    session.Goes [.start number] opened := by
  have single := single (.start number) fun _ same => Option.mem_some_iff.1 same ▸ there
  rwa [Action.effect_start, called] at single

theorem stop (there : number < session.watches.length) :
    session.Goes [.stop number] (session.call number Stopwatch.stop).2 := by
  have single := single (.stop number) fun _ same => Option.mem_some_iff.1 same ▸ there
  rwa [Action.effect_stop] at single

theorem around {answer : Except Refusal Stopwatch → Answer α} {inner : List (Step α)}
    (within : ∀ opened : Session, opened.Goes (Step.allDeeds opened (number :: lent) inner)
      (Step.runAll opened (number :: lent) inner).2) :
    session.Goes
      (session.deedsAround lent number fun opened => Step.allDeeds opened (number :: lent) inner)
      (Step.around session lent number answer inner).2 := by
  by_cases free : session.isFree lent number = true
  · have there := (isFree_iff.1 free).1
    rcases called : session.call number Stopwatch.start with ⟨refusal | running, opened⟩
    · rw [Step.around_of_refused free called, deedsAround, if_pos free, called]
      exact start there called
    · -- The stop finds its stopwatch, which was lent to the steps inside.
      have kept := (Step.runAll_keeps_running free called inner).1
      rw [Step.around_of_opened free called, deedsAround, if_pos free, called]
      exact (start there called).append ((within opened).append (stop (lt_of_watch kept)))
  · have taken : session.isFree lent number = false := by simpa using free
    rw [Step.around_of_unavailable taken, deedsAround, if_neg free]
    exact nil session

end Session.Goes

mutual

theorem run_goes (session : Session) (lent : List Nat) : ∀ step : Step α,
    session.Goes (step.deeds session lent) (step.run session lent).2
  | .act action => by
    rw [Step.deeds, Step.run]
    by_cases free : action.watch?.all (session.isFree lent) = true
    · rw [if_pos free, if_pos free]
      show session.Goes [action] (action.run session).2.1
      rw [action.session_run session]
      refine .single action fun number about => ?_
      rw [Option.mem_def.1 about] at free
      exact (Session.isFree_iff.1 free).1
    · rw [if_neg free, if_neg free]
      exact .nil session
  | .guarded number ending inner => by
    rw [Step.deeds, Step.run_guarded]
    exact .around fun opened => runAll_goes opened (number :: lent) inner
  | .timed number result inner => by
    rw [Step.deeds, Step.run_timed]
    exact .around fun opened => runAll_goes opened (number :: lent) inner

/-- **A session is what its actions make of it**, carried out one by one. -/
theorem runAll_goes (session : Session) (lent : List Nat) : ∀ steps : List (Step α),
    session.Goes (Step.allDeeds session lent steps) (Step.runAll session lent steps).2
  | [] => .nil session
  | step :: steps => by
    rw [Step.allDeeds, Step.runAll_cons]
    exact (run_goes session lent step).append (runAll_goes _ lent steps)

end

end Deeds

/-! ### What the entries show -/

section Shown

variable {α : Type}

mutual

/-- The entry of the step, and every entry inside, shows the stopwatches that
are not lent as the actions up to it left them. -/
def Step.Shows (session : Session) (lent : List Nat) : Step α → Entry α → Prop
  | .act action, entry =>
    entry.watches = (session.after ((Step.act action : Step α).deeds session lent)).visible lent
  | .guarded number ending inner, entry =>
    entry.watches = (session.after ((Step.guarded number ending inner).deeds session lent)).visible lent ∧
      ∀ entries ∈ entry.inner,
        Step.AllShow (session.after [.start number]) (number :: lent) inner entries
  | .timed number result inner, entry =>
    entry.watches = (session.after ((Step.timed number result inner).deeds session lent)).visible lent ∧
      ∀ entries ∈ entry.inner,
        Step.AllShow (session.after [.start number]) (number :: lent) inner entries

/-- The same of steps in a row, each with its entry. -/
def Step.AllShow (session : Session) (lent : List Nat) : List (Step α) → List (Entry α) → Prop
  | [], entries => entries = []
  | step :: steps, entries => ∃ entry rest, entries = entry :: rest ∧ step.Shows session lent entry ∧
      Step.AllShow (session.after (step.deeds session lent)) lent steps rest

end

variable {session : Session} {lent : List Nat} {number : Nat}

theorem watches_after (session : Session) (lent : List Nat) (step : Step α) :
    (step.run session lent).1.watches = (session.after (step.deeds session lent)).visible lent := by
  rw [Step.watches_run, (run_goes session lent step).after]

theorem around_shows {answer : Except Refusal Stopwatch → Answer α} {inner : List (Step α)}
    (within : ∀ opened : Session, Step.AllShow opened (number :: lent) inner
      (Step.runAll opened (number :: lent) inner).1) :
    ∀ entries ∈ (Step.around session lent number answer inner).1.inner,
      Step.AllShow (session.after [.start number]) (number :: lent) inner entries := by
  by_cases free : session.isFree lent number = true
  · rcases called : session.call number Stopwatch.start with ⟨refusal | running, opened⟩
    · rw [Step.around_of_refused free called]
      exact nofun
    · rw [Step.around_of_opened free called, (Session.Goes.start (Session.isFree_iff.1 free).1 called).after]
      rintro _ ⟨⟩
      exact within opened
  · rw [Step.around_of_unavailable (by simpa using free)]
    exact nofun

mutual

theorem run_shows (session : Session) (lent : List Nat) : ∀ step : Step α,
    step.Shows session lent (step.run session lent).1
  | .act action => watches_after session lent (.act action)
  | .guarded number ending inner => by
    refine ⟨watches_after session lent (.guarded number ending inner), ?_⟩
    rw [Step.run_guarded]
    exact around_shows fun opened => runAll_shows opened (number :: lent) inner
  | .timed number result inner => by
    refine ⟨watches_after session lent (.timed number result inner), ?_⟩
    rw [Step.run_timed]
    exact around_shows fun opened => runAll_shows opened (number :: lent) inner

/-- **The entries show what the actions up to them come to**, at any depth. -/
theorem runAll_shows (session : Session) (lent : List Nat) : ∀ steps : List (Step α),
    Step.AllShow session lent steps (Step.runAll session lent steps).1
  | [] => rfl
  | step :: steps => by
    refine ⟨_, _, rfl, run_shows session lent step, ?_⟩
    rw [(run_goes session lent step).after]
    exact runAll_shows _ lent steps

end

end Shown

/-! ### One stopwatch alone -/

/-- The action, if it moves the source or is done to this stopwatch, as an
action of a session in which there is no other one. To copy a stopwatch is
nothing done to it. -/
def Action.alone (number : Nat) : Action → Option Action
  | .advance delta => some (.advance delta)
  | .set reading => some (.set reading)
  | .start other => if other = number then some (.start 0) else none
  | .stop other => if other = number then some (.stop 0) else none
  | .reset other => if other = number then some (.reset 0) else none
  | .read other => if other = number then some (.read 0) else none
  | .copy _ => none
  | .capture other bytes settings => if other = number then some (.capture 0 bytes settings) else none

/-- The session with this stopwatch and no other one. -/
def Session.alone (session : Session) (number : Nat) : Session := ⟨session.time, [session.watch number]⟩

section Alone

variable {session : Session} {number : Nat} {time : TimeSource} {watch : Stopwatch} {action : Action}

/-- A reading leaves a source that is moved by hand as it is. -/
theorem TimeSource.read_of_manual (manual : time.taken? = none) : time.read.2 = time := by
  cases time with
  | manual now => rfl
  | series readings taken => cases manual

namespace Stopwatch

theorem time_start (manual : time.taken? = none) (watch : Stopwatch) : (watch.start time).2 = time := by
  cases started : watch.startedAt with
  | none =>
    rw [start_of_stopped started]
    exact TimeSource.read_of_manual manual
  | some began => rw [start_of_running started]

theorem time_stop (manual : time.taken? = none) (watch : Stopwatch) : (watch.stop time).2 = time := by
  cases started : watch.startedAt with
  | none => rw [stop_of_stopped started]
  | some began =>
    cases added : watch.elapsed.add? (time.read.1.monus began) with
    | none =>
      rw [stop_of_overflow started added]
      exact TimeSource.read_of_manual manual
    | some sum =>
      rw [stop_of_add started added]
      exact TimeSource.read_of_manual manual

theorem time_timeRound {outcome : Verdict Tally} (manual : time.taken? = none)
    (stopped : watch.isRunning = false) : (timeRound outcome watch time).2.2 = time := by
  have once := TimeSource.read_of_manual manual
  have twice : time.read.2.read.2 = time := by rw [once, once]
  rw [isRunning_eq_false] at stopped
  cases added : watch.elapsed.add? (time.read.2.read.1.monus time.read.1) with
  | none => rw [timeRound_of_overflow stopped added, twice]
  | some sum => rw [timeRound_of_add stopped added, twice]

theorem time_timeRounds (manual : time.taken? = none) (watch : Stopwatch) (bytes : List UInt8)
    (settings : Settings) : (watch.timeRounds time bytes settings).time = time :=
  timeRoundsFrom_induct (R := fun _ time _ _ later => time.taken? = none → later = time)
    (fun _ _ _ => rfl)
    (fun first rest manual => by
      have same := first manual
      exact (rest (same ▸ manual)).trans same)
    (fun _ _ stopped manual => time_timeRound manual stopped) _ _ watch time [] manual

end Stopwatch

namespace Session

theorem alone_set_self (there : number < session.watches.length) :
    (Session.mk time (session.watches.set number watch)).alone number = ⟨time, [watch]⟩ := by
  rw [alone, watch_eq (List.getElem?_set_self there)]

theorem length_call (session : Session) (number : Nat)
    (operation : Stopwatch → TimeSource → Except Refusal Stopwatch × TimeSource) :
    (session.call number operation).2.watches.length = session.watches.length := by
  rw [call]
  rcases operation (session.watch number) session.time with ⟨_ | _, _⟩
  · rfl
  · exact List.length_set

/-- A call of a stopwatch does to it what it does when there is no other one. -/
theorem alone_call_self (there : number < session.watches.length)
    (operation : Stopwatch → TimeSource → Except Refusal Stopwatch × TimeSource) :
    (session.call number operation).2.alone number = ((session.alone number).call 0 operation).2 := by
  have same : (session.alone number).watch 0 = session.watch number := rfl
  rw [call, call, same, show (session.alone number).time = session.time from rfl]
  rcases operation (session.watch number) session.time with ⟨refusal | after, later⟩
  · rfl
  · exact alone_set_self there

end Session

namespace Action

/-- A move beyond the longest duration breaks off and is not carried out. -/
theorem effect_advance (now delta : Duration) (watches : List Stopwatch) :
    (Action.advance delta).effect ⟨.manual now, watches⟩ =
      ⟨.manual ((now.add? delta).getD now), watches⟩ := by
  simp only [effect, run]
  cases now.add? delta <;> rfl

/-- Only a move changes a source that is moved by hand. -/
theorem time_effect (manual : session.time.taken? = none) (about : action.watch? ≠ none) :
    (action.effect session).time = session.time := by
  cases action with
  | advance delta | set reading => exact absurd rfl about
  | start other =>
    rw [effect_start, Session.time_call]
    exact Stopwatch.time_start manual _
  | stop other =>
    rw [effect_stop, Session.time_call]
    exact Stopwatch.time_stop manual _
  | reset other => rfl
  | read other => exact TimeSource.read_of_manual manual
  | copy other => rfl
  | capture other bytes settings => exact Stopwatch.time_timeRounds manual _ _ _

/-- What is not done to a stopwatch leaves it as it is. -/
theorem watch_effect (there : number < session.watches.length)
    (apart : action.watch? = some number → action = .copy number) :
    (action.effect session).watch number = session.watch number := by
  have kept := List.getElem?_eq_getElem there
  rw [Session.watch_eq kept]
  refine Session.watch_eq ?_
  by_cases copies : action = .copy number
  · subst copies
    exact (List.getElem?_append_left there).trans kept
  · refine run_keeps action (fun other about same => copies (apart ?_)) kept
    rw [← same]
    exact about

/-- What is nothing to a stopwatch alone is done to another one, or copies it. -/
theorem about_of_alone (apart : action.alone number = none) :
    action.watch? ≠ none ∧ (action.watch? = some number → action = .copy number) := by
  cases action with
  | advance delta | set reading => cases apart
  | copy other =>
    refine ⟨Option.some_ne_none other, fun about => ?_⟩
    cases about
    rfl
  | start other | stop other | reset other | read other | capture other bytes settings =>
    refine ⟨Option.some_ne_none other, fun about => ?_⟩
    cases about
    rw [alone, if_pos rfl] at apart
    cases apart

/-- **An action does to a stopwatch what it does when there is no other one**,
and nothing at all if it is not on it. -/
theorem effect_alone (manual : session.time.taken? = none) (there : number < session.watches.length)
    (action : Action) :
    (action.effect session).alone number = (session.alone number).after (action.alone number).toList := by
  cases lives : action.alone number with
  | none =>
    obtain ⟨about, copies⟩ := about_of_alone lives
    rw [Session.alone, time_effect manual about, watch_effect there copies]
    rfl
  | some lone =>
    cases action with
    | advance delta =>
      cases lives
      rcases session with ⟨now | _, watches⟩
      · rw [effect_advance]
        exact (effect_advance _ _ _).symm
      · cases manual
    | set reading =>
      cases lives
      rcases session with ⟨now | _, watches⟩
      · rfl
      · cases manual
    | start other =>
      obtain ⟨rfl, rfl⟩ : other = number ∧ .start 0 = lone := by simpa [alone] using lives
      rw [effect_start, Session.alone_call_self there, ← effect_start]
      rfl
    | stop other =>
      obtain ⟨rfl, rfl⟩ : other = number ∧ .stop 0 = lone := by simpa [alone] using lives
      rw [effect_stop, Session.alone_call_self there, ← effect_stop]
      rfl
    | reset other =>
      obtain ⟨rfl, rfl⟩ : other = number ∧ .reset 0 = lone := by simpa [alone] using lives
      exact Session.alone_set_self there
    | read other =>
      obtain ⟨rfl, rfl⟩ : other = number ∧ .read 0 = lone := by simpa [alone] using lives
      rfl
    | copy other => cases lives
    | capture other bytes settings =>
      obtain ⟨rfl, rfl⟩ : other = number ∧ .capture 0 bytes settings = lone := by simpa [alone] using lives
      exact Session.alone_set_self there

theorem manual_effect (manual : session.time.taken? = none) (action : Action) :
    (action.effect session).time.taken? = none := by
  by_cases about : action.watch? = none
  · rcases session with ⟨now | _, watches⟩
    · cases action with
      | advance delta =>
        rw [effect_advance]
        rfl
      | set reading => rfl
      | _ => cases about
    · cases manual
  · rwa [time_effect manual about]

theorem length_effect (kept : ∀ original, action ≠ .copy original) :
    (action.effect session).watches.length = session.watches.length := by
  cases action with
  | advance delta =>
    rcases session with ⟨now | _, watches⟩
    · rw [effect_advance]
    · rfl
  | set reading => rcases session with ⟨now | _, watches⟩ <;> rfl
  | start other => rw [effect_start, Session.length_call]
  | stop other => rw [effect_stop, Session.length_call]
  | reset other => exact List.length_set
  | read other => rfl
  | copy other => exact absurd rfl (kept other)
  | capture other bytes settings => exact List.length_set

/-- A stopwatch that is there after an action was there before it, or is the copy. -/
theorem lt_length_effect :
    number < (action.effect session).watches.length ↔
      number < session.watches.length ∨
        number = session.watches.length ∧ ∃ original, action = .copy original := by
  by_cases copies : ∃ original, action = .copy original
  · obtain ⟨original, rfl⟩ := copies
    have longer : ((Action.copy original).effect session).watches.length = session.watches.length + 1 :=
      List.length_append
    rw [longer, Nat.lt_succ_iff_lt_or_eq]
    exact or_congr_right ⟨fun last => ⟨last, original, rfl⟩, And.left⟩
  · rw [length_effect fun original same => copies ⟨original, same⟩]
    exact ⟨.inl, fun either => either.resolve_right fun new => copies new.2⟩

end Action

namespace Session

/-- **What was done to a stopwatch does the same when there is no other one.** -/
theorem after_alone (manual : session.time.taken? = none) (there : number < session.watches.length)
    (deeds : List Action) :
    (session.after deeds).alone number =
      (session.alone number).after (deeds.filterMap (Action.alone number)) := by
  induction deeds generalizing session with
  | nil => rfl
  | cons action deeds ih =>
    have still : number < (action.effect session).watches.length :=
      Action.lt_length_effect.2 (.inl there)
    have rest := ih (action.manual_effect manual) still
    rw [action.effect_alone manual there, ← after_append] at rest
    cases lives : action.alone number with
    | none =>
      rw [lives] at rest
      rwa [List.filterMap_cons_none lives]
    | some lone =>
      rw [lives] at rest
      rwa [List.filterMap_cons_some lives]

end Session

end Alone

/-! ### The life of a stopwatch -/

/-- The life of a stopwatch in actions in a row: the state in which it begins,
with no other stopwatch, and the actions since then. It is there from the
start, or it begins as a copy. -/
inductive Session.Life (session : Session) (deeds : List Action) (number : Nat) :
    Session → List Action → Prop
  | first (there : number < session.watches.length) : Life session deeds number (session.alone number) deeds
  | copied {earlier later : List Action} {original : Nat}
      (split : deeds = earlier ++ .copy original :: later)
      (next : number = (session.after earlier).watches.length) (there : original < number) :
      Life session deeds number ((session.after earlier).alone original) later

section Life

variable {session birth : Session} {deeds lived : List Action} {number : Nat}

namespace Session

theorem manual_after (manual : session.time.taken? = none) (deeds : List Action) :
    (session.after deeds).time.taken? = none := by
  induction deeds generalizing session with
  | nil => exact manual
  | cons action deeds ih => exact ih (action.manual_effect manual)

/-- A copy begins in the state of its original. -/
theorem alone_copy (session : Session) (original : Nat) :
    ((Action.copy original).effect session).alone session.watches.length = session.alone original := by
  have last : (session.watches ++ [session.watch original])[session.watches.length]? =
      some (session.watch original) := List.getElem?_concat_length
  have copied : ((Action.copy original).effect session).watch session.watches.length = session.watch original :=
    watch_eq last
  rw [alone, copied]
  rfl

theorem Life.snoc (life : session.Life deeds number birth lived) (action : Action) :
    session.Life (deeds ++ [action]) number birth (lived ++ [action]) := by
  cases life with
  | first there => exact .first there
  | copied split next there => exact .copied (by rw [split, List.append_assoc, List.cons_append]) next there

/-- **A stopwatch is what its life makes of it**, when there is no other one. -/
theorem Life.after (life : session.Life deeds number birth lived) (manual : session.time.taken? = none) :
    (session.after deeds).alone number = birth.after (lived.filterMap (Action.alone number)) := by
  cases life with
  | first there => exact after_alone manual there deeds
  | @copied earlier _ original split next there =>
    subst split next
    have new : (session.after earlier).watches.length <
        ((Action.copy original).effect (session.after earlier)).watches.length :=
      Action.lt_length_effect.2 (.inr ⟨rfl, original, rfl⟩)
    rw [after_append, ← alone_copy (session.after earlier)]
    exact after_alone (Action.manual_effect (manual_after manual earlier) _) new lived

/-- Every stopwatch has a life. -/
theorem exists_life (able : session.Able deeds) (there : number < (session.after deeds).watches.length) :
    ∃ birth lived, session.Life deeds number birth lived := by
  induction deeds using List.reverseRecOn with
  | nil => exact ⟨_, _, .first there⟩
  | append_singleton deeds action ih =>
    obtain ⟨able, found, -⟩ := able_append.1 able
    rw [after_append] at there
    -- The last action makes no stopwatch but its copy: any other one only lives on through it.
    rcases Action.lt_length_effect.1 there with before | ⟨new, original, rfl⟩
    · obtain ⟨birth, lived, life⟩ := ih able before
      exact ⟨birth, _, life.snoc action⟩
    · exact ⟨_, _, .copied rfl new (new ▸ found original rfl)⟩

end Session

end Life

/-- A session over a source that is moved by hand. A new stopwatch is `{}`. -/
def Session.byHand (now : Duration) (watches : List Stopwatch) : Session := ⟨.manual now, watches⟩

/-- **Stopwatches over a source that is moved by hand are independent.** What a
session does is a list of actions, and its entries show what the actions up to
them come to. After any of these, every stopwatch is what its life makes of it
when there is no other one: the actions on it and the moves of the source
since it began, in this order. No action on another one changes it, and none
that copies it. -/
theorem watch_lives_alone {α : Type} (now : Duration) (watches : List Stopwatch) (steps : List (Step α)) :
    (Step.runAll (.byHand now watches) [] steps).2 =
        (Session.byHand now watches).after (Step.allDeeds (.byHand now watches) [] steps) ∧
      Step.AllShow (.byHand now watches) [] steps (Step.runAll (.byHand now watches) [] steps).1 ∧
      ∀ deeds, deeds <+: Step.allDeeds (.byHand now watches) [] steps →
        ∀ number < ((Session.byHand now watches).after deeds).watches.length,
          (∃ birth lived, (Session.byHand now watches).Life deeds number birth lived ∧
            ((Session.byHand now watches).after deeds).alone number =
              birth.after (lived.filterMap (Action.alone number))) ∧
          ∀ action, deeds ++ [action] <+: Step.allDeeds (.byHand now watches) [] steps →
            (action.watch? = some number → action = .copy number) →
              ((Session.byHand now watches).after (deeds ++ [action])).watch number =
                ((Session.byHand now watches).after deeds).watch number := by
  have goes := runAll_goes (.byHand now watches) [] steps
  refine ⟨goes.after.symm, runAll_shows _ [] steps, ?_⟩
  rintro deeds ⟨rest, whole⟩ number there
  have able := (Session.able_append.1 (whole ▸ goes.able)).1
  obtain ⟨birth, lived, life⟩ := Session.exists_life able there
  refine ⟨⟨birth, lived, life, life.after rfl⟩, fun action _ apart => ?_⟩
  rw [Session.after_append]
  exact Action.watch_effect there apart

/-- The second stopwatch is a copy of the first one while it runs, and the
third one is made in an interval of the second, by a function that breaks off. -/
def crossed : List (Step Unit) :=
  [.act (.start 0), .act (.copy 0), .act (.advance (.ofNanos 5)), .act (.stop 1),
    .timed 1 (.breakOff "broken") [.act (.advance (.ofNanos 7)), .act (.copy 0), .act (.stop 0)],
    .act (.advance (.ofNanos 2)), .act (.stop 2)]

-- What the third stopwatch lives to see; it begins running, like the first one.
example : ((Step.allDeeds (.byHand .zero [{}]) [] crossed).drop 7).filterMap (Action.alone 2) =
    [.advance (.ofNanos 2), .stop 0] := by rfl

example : ((Session.byHand .zero [{}]).after (Step.allDeeds (.byHand .zero [{}]) [] crossed)).watch 2 =
    ⟨.ofNanos 14, none⟩ := by rfl

end CapturePace
