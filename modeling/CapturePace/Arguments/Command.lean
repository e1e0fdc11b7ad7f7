/-
# Command lines

The words of a command line are carried out from left to right
(`Draft.carryOut`): options take their values, each at most once, files are
collected, and at the end there has to be a file. `Command.parse` does that
from the arguments on.

Key definitions: `Command`, `Draft.carryOut`, `Command.parse`.
-/
import CapturePace.Arguments.Number
import CapturePace.Arguments.Word
import CapturePace.Rounds

namespace CapturePace

/-- What a well-formed command line asks for. -/
structure Command where
  settings : Settings
  files : List String
  deriving DecidableEq, Repr

/-- What the words so far ask for. -/
structure Draft where
  capacity? : Option Nat := none
  rounds? : Option Nat := none
  files : List String := []
  deriving DecidableEq, Repr

namespace Draft

/-- The value that an option was given. -/
def value? (draft : Draft) : Setting → Option Nat
  | .bufferSize => draft.capacity?
  | .rounds => draft.rounds?

/-- Gives an option a value. -/
def set (draft : Draft) (setting : Setting) (value : Nat) : Draft :=
  match setting with
  | .bufferSize => { draft with capacity? := some value }
  | .rounds => { draft with rounds? := some value }

/-- Reads the value of an option. It may be given once. -/
def assign (draft : Draft) (setting : Setting) (value : List Char) : Except ArgumentFault Draft :=
  if (draft.value? setting).isSome then .error .repeatedOption
  else match readNumber? setting.limit value with
    | some number => .ok (draft.set setting number)
    | none => .error .badNumber

/-- The command, with the default of every option that was not given. -/
def command (draft : Draft) : Command :=
  let defaults : Settings := {}
  { settings := ⟨draft.capacity?.getD defaults.capacity, draft.rounds?.getD defaults.rounds⟩
    files := draft.files }

/-- Carries out the words from left to right. Files are judged together. -/
def carryOut (draft : Draft) : List Word → Except ArgumentFault Command
  | [] => if draft.files = [] then .error .noFile else .ok draft.command
  | .file name :: rest =>
    if name = "" then .error (Word.outweighed .emptyFileName (rest.dropWhile Word.isFile))
    else carryOut { draft with files := draft.files ++ [name] } rest
  | .attached setting value :: rest =>
    match draft.assign setting value with
    | .ok draft => draft.carryOut rest
    | .error fault => .error fault
  | .separate setting value :: rest =>
    match draft.assign setting value with
    | .ok draft => draft.carryOut rest
    | .error fault => .error (Word.outweighed fault rest)
  | .bare _ :: rest => .error (Word.outweighed .missingValue rest)
  | .help :: _ => .error .helpRequested
  | .fault fault :: _ => .error fault

end Draft

/-- Reads a command line, without the name of the program. -/
def Command.parse (arguments : List String) : Except ArgumentFault Command :=
  Draft.carryOut {} (Word.ofArguments arguments)

end CapturePace
