/-
# Single arguments

An argument is a file or an option. An option that takes a number has a
letter and a name, and five spellings: `-x V`, `-xV`, `-x=V`, `--name V`,
`--name=V`. Two dashes alone make files of all arguments behind them, and one
dash alone is a file. `Shape.ofArgument` says what an argument looks like
before its neighbours are seen.

Key definitions: `Setting`, `ArgumentFault`, `Shape`, `Shape.ofArgument`.
-/
namespace CapturePace

/-- The options that take a number. -/
inductive Setting where
  | bufferSize
  | rounds
  deriving DecidableEq, Repr

namespace Setting

/-- The option with a given letter. -/
def ofLetter? : Char → Option Setting
  | 'b' => some .bufferSize
  | 'r' => some .rounds
  | _ => none

/-- The option with a given name. -/
def ofName? (name : List Char) : Option Setting :=
  if name = "buffer-size".toList then some .bufferSize
  else if name = "rounds".toList then some .rounds
  else none

/-- The largest value; the least one is one. -/
def limit : Setting → Nat
  | .bufferSize => 18446744073709551615
  | .rounds => 4294967295

end Setting

/-- What is wrong with the arguments. -/
inductive ArgumentFault where
  /-- Nothing is wrong: help was asked for. -/
  | helpRequested
  | unknownArgument
  /-- A value for an option that takes none. -/
  | superfluousValue
  /-- No value for an option that takes one. -/
  | missingValue
  /-- A file without a name. -/
  | emptyFileName
  /-- A value that is no number of the range. -/
  | badNumber
  /-- An option given twice. -/
  | repeatedOption
  | noFile
  deriving DecidableEq, Repr

namespace ArgumentFault

/-- The exit code of a program that is called so. -/
def exitCode : ArgumentFault → Nat
  | .helpRequested => 0
  | _ => 2

/-- The wording of an argument fault. -/
def message : ArgumentFault → String
  | .helpRequested => "help was asked for"
  | .unknownArgument => "unexpected argument"
  | .superfluousValue => "unexpected value for an option"
  | .missingValue => "an option needs a value"
  | .emptyFileName => "a file needs a name"
  | .badNumber => "invalid value for an option"
  | .repeatedOption => "an option cannot be used more than once"
  | .noFile => "no file was given"

end ArgumentFault

/-- What an argument looks like on its own. -/
inductive Shape where
  /-- Two dashes. -/
  | terminator
  /-- A file, or the value of the option before it. -/
  | plain
  /-- An option with its value. -/
  | attached (setting : Setting) (value : List Char)
  /-- An option whose value comes next. -/
  | awaiting (setting : Setting)
  | help
  | fault (fault : ArgumentFault)
  deriving DecidableEq, Repr

namespace Shape

/-- An argument that starts with one dash, from its second character on. The
value of an option may follow its letter, behind an equals sign or not. -/
def ofLetter (letter : Char) (rest : List Char) : Shape :=
  if letter = 'h' then .help
  else match Setting.ofLetter? letter, rest with
    | none, _ => .fault .unknownArgument
    | some setting, [] => .awaiting setting
    | some setting, '=' :: value => .attached setting value
    | some setting, value => .attached setting value

/-- An argument that starts with two dashes, from there on. A value follows
the first equals sign. -/
def ofName (text : List Char) : Shape :=
  let name := text.takeWhile (· ≠ '=')
  let value? := match text.dropWhile (· ≠ '=') with
    | [] => none
    | _ :: value => some value
  if name = "help".toList then
    if value?.isSome then .fault .superfluousValue else .help
  else match Setting.ofName? name, value? with
    | none, _ => .fault .unknownArgument
    | some setting, none => .awaiting setting
    | some setting, some value => .attached setting value

/-- What an argument looks like. -/
def ofArgument (argument : String) : Shape :=
  match argument.toList with
  | ['-', '-'] => .terminator
  | '-' :: '-' :: text => ofName text
  | '-' :: letter :: rest => ofLetter letter rest
  | _ => .plain

end Shape

end CapturePace
