/-
# Sessions of stopwatches

A session is a time source and the stopwatches that read it, numbered from
zero. What is done in it is a list of steps. Most steps are one action on one
stopwatch, or a move of a time source that is moved by hand. Two kinds of
step have steps inside: a guarded step has them in the scope of a guard, and a
timed step calls a function that does them, in a scope of its own. Until the guard
is dropped its stopwatch is lent to it, and no step inside can touch it.

Every step leaves an entry: what it answered, and the state it left. A step that
breaks off ends itself only. Where one is aborted there is no process any more:
what a session has behind such a step is what would come if it had gone on, and
no one sees it.

Key definitions: `Session`, `Action.run`, `Step`, `Session.around`, `Step.run`,
`Step.runAll`.
-/
import CapturePace.Rounds

namespace CapturePace

/-- A time source and the stopwatches that read it. -/
structure Session where
  time : TimeSource
  watches : List Stopwatch := [{}]

/-- What a step answers; `α` is what a timed function returns. -/
inductive Answer (α : Type) where
  | done
  /-- A reading of the time source. -/
  | reading (reading : Duration)
  /-- What a stopwatch shows at the end of a guarded interval. -/
  | elapsed (elapsed : Duration)
  /-- The number of a new stopwatch. -/
  | watch (number : Nat)
  /-- What a timed function returned. -/
  | value (value : α)
  | tally (tally : Tally)
  | refused (misuse : Misuse)
  | failed (fault : CaptureFault)
  /-- The step broke off with a message. -/
  | brokeOff (message : String)
  /-- Nothing was answered, as the process was aborted. -/
  | aborted
  /-- The stopwatch does not exist or is lent, or the time source cannot be moved. -/
  | unavailable

/-- The answer of a step whose stopwatch refused. -/
def Refusal.answer {α : Type} : Refusal → Answer α
  | .misuse kind => .refused kind
  | .overflow => .brokeOff Overflow.duration.message

/-- The answer of a step that timed a capture. -/
def Verdict.answer {α : Type} : Verdict Tally → Answer α
  | .finished tally => .tally tally
  | .failed fault => .failed fault
  | .overflowed overflow => .brokeOff overflow.message
  | .aborted => .aborted

/-- What a step leaves behind. -/
structure Entry (α : Type) where
  answer : Answer α
  /-- The stopwatches after the step, without those that are lent. -/
  watches : List (Option Stopwatch)
  /-- The readings taken so far, where they are counted. -/
  readings : Option Nat
  /-- The entries of the steps inside, if they were reached. -/
  inner : Option (List (Entry α))
  /-- What the step itself logged. -/
  journal : List LogRecord

namespace Session

/-- Whether a step may use a stopwatch while those in `lent` are lent. -/
def isFree (session : Session) (lent : List Nat) (number : Nat) : Bool :=
  number < session.watches.length && !lent.contains number

/-- The stopwatches that are not lent. -/
def visible (session : Session) (lent : List Nat) : List (Option Stopwatch) :=
  session.watches.mapIdx fun number watch => if number ∈ lent then none else some watch

/-- The entry of a step that leaves this session. -/
def entry {α : Type} (session : Session) (lent : List Nat) (answer : Answer α)
    (inner : Option (List (Entry α))) (journal : List LogRecord) : Entry α :=
  ⟨answer, session.visible lent, session.time.taken?, inner, journal⟩

/-- A stopwatch by its number. -/
def watch (session : Session) (number : Nat) : Stopwatch := session.watches.getD number {}

/-- Calls a stopwatch: what it became or why it refused, and the session after that. -/
def call (session : Session) (number : Nat)
    (operation : Stopwatch → TimeSource → Except Refusal Stopwatch × TimeSource) :
    Except Refusal Stopwatch × Session :=
  match operation (session.watch number) session.time with
  | (.ok watch, time) => (.ok watch, ⟨time, session.watches.set number watch⟩)
  | (.error refusal, time) => (.error refusal, ⟨time, session.watches⟩)

/-- The place of a stopwatch by its number. -/
def place (number : Nat) : Place Session where
  watch session := session.watch number
  call operation session := session.call number operation

end Session

/-- A step without steps inside. -/
inductive Action where
  /-- Moves the time source forward. -/
  | advance (delta : Duration)
  /-- Sets the time source. -/
  | set (reading : Duration)
  | start (number : Nat)
  | stop (number : Nat)
  | reset (number : Nat)
  /-- Reads the time source of a stopwatch. -/
  | read (number : Nat)
  /-- Adds a stopwatch that is in the same state as another one. -/
  | copy (number : Nat)
  /-- Times rounds over a capture. -/
  | capture (number : Nat) (bytes : List UInt8) (settings : Settings)
  deriving Repr

namespace Action

/-- The stopwatch that an action is about. -/
def watch? : Action → Option Nat
  | .advance _ => none
  | .set _ => none
  | .start number => some number
  | .stop number => some number
  | .reset number => some number
  | .read number => some number
  | .copy number => some number
  | .capture number _ _ => some number

/-- The answer to a call of a stopwatch that has nothing to tell. -/
def answerCall {α : Type} : Except Refusal Stopwatch × Session → Answer α × Session × List LogRecord
  | (.ok _, session) => (.done, session, [])
  | (.error refusal, session) => (refusal.answer, session, [])

/-- Carries out an action on a stopwatch that is free. -/
def run {α : Type} (session : Session) : Action → Answer α × Session × List LogRecord
  | .advance delta =>
    match session.time with
    | .manual now =>
      match now.add? delta with
      | some later => (.reading later, ⟨.manual later, session.watches⟩, [])
      | none => (.brokeOff Overflow.duration.message, session, [])
    | .series _ _ => (.unavailable, session, [])
  | .set reading =>
    match session.time with
    | .manual _ => (.reading reading, ⟨.manual reading, session.watches⟩, [])
    | .series _ _ => (.unavailable, session, [])
  | .start number => answerCall (session.call number Stopwatch.start)
  | .stop number => answerCall (session.call number Stopwatch.stop)
  | .reset number =>
    (.done, ⟨session.time, session.watches.set number (session.watch number).reset⟩, [])
  | .read _ =>
    let (now, time) := session.time.read
    (.reading now, ⟨time, session.watches⟩, [])
  | .copy number =>
    (.watch session.watches.length,
      ⟨session.time, session.watches ++ [session.watch number]⟩, [])
  | .capture number bytes settings =>
    let timed := (session.watch number).timeRounds session.time bytes settings
    (timed.verdict.answer, ⟨timed.time, session.watches.set number timed.watch⟩, timed.journal)

end Action

/-- How a guarded interval is ended. -/
inductive Ending where
  /-- By leaving the scope of the guard. -/
  | dropped
  /-- By asking for what the stopwatch shows then. -/
  | finished
  deriving DecidableEq, Repr

/-- How a timed function ends. -/
inductive Return (α : Type) where
  | value (value : α)
  | breakOff (message : String)

/-- A step of a session. -/
inductive Step (α : Type) where
  | act (action : Action)
  | guarded (number : Nat) (ending : Ending) (inner : List (Step α))
  | timed (number : Nat) (result : Return α) (inner : List (Step α))

/-- The answer of a step that has come to the end of its scope. -/
def Course.answer {α β : Type} (returned : β → Answer α) : Course String β → Answer α
  | .returned value => returned value
  | .brokeOff message => .brokeOff message
  | .aborted => .aborted

/-- How a timed function has gone for the scope that it is called in. -/
def Return.course {α : Type} : Return α → Course String α
  | .value returned => .returned returned
  | .breakOff message => .brokeOff message

/-- Ends the scope of a guarded step. -/
def Ending.leave {α : Type} (guard : Guard Session) (session : Session) : Ending → Answer α × Session
  | .dropped =>
    let (course, session) := guard.leave Overflow.message (.returned ()) session
    (course.answer fun () => .done, session)
  | .finished =>
    let (course, session) := guard.finish Overflow.message session
    (course.answer .elapsed, session)

/-- Ends the scope of a timed step. -/
def Return.leave {α : Type} (guard : Guard Session) (session : Session) (result : Return α) :
    Answer α × Session :=
  let (course, session) := guard.leave Overflow.message result.course session
  (course.answer .value, session)

/-- A guard around what is done `inside` while its stopwatch is lent. The scope is
ended by `leave`; if there is no guard to be had, nothing else is done. -/
def Session.around {α : Type} (session : Session) (lent : List Nat) (number : Nat)
    (leave : Guard Session → Session → Answer α × Session)
    (inside : Session → List (Entry α) × Session) : Entry α × Session :=
  if session.isFree lent number then
    match (Session.place number).guard session with
    | (.error refusal, session) => (session.entry lent refusal.answer none [], session)
    | (.ok guard, session) =>
      let (entries, session) := inside session
      let (answer, session) := leave guard session
      (session.entry lent answer (some entries) [], session)
  else (session.entry lent .unavailable none [], session)

mutual

/-- Carries out a step while the stopwatches in `lent` are lent. -/
def Step.run {α : Type} (session : Session) (lent : List Nat) :
    Step α → Entry α × Session
  | .act action =>
    if action.watch?.all (session.isFree lent) then
      let (answer, session, journal) := action.run session
      (session.entry lent answer none journal, session)
    else (session.entry lent .unavailable none [], session)
  | .guarded number ending inner =>
    session.around lent number ending.leave fun opened => Step.runAll opened (number :: lent) inner
  | .timed number result inner =>
    session.around lent number result.leave fun opened => Step.runAll opened (number :: lent) inner

/-- Carries out steps one after the other. -/
def Step.runAll {α : Type} (session : Session) (lent : List Nat) :
    List (Step α) → List (Entry α) × Session
  | [] => ([], session)
  | step :: steps =>
    let (entry, session) := step.run session lent
    let (entries, session) := Step.runAll session lent steps
    (entry :: entries, session)

end

end CapturePace
