/-
# Arguments that belong together

Arguments are cut into words: a file, an option with its value, which may be
the next argument, or one that is at fault by itself.

Words are judged from left to right, and the first fault counts. One thing is
out of order: what is not known at all is noticed as soon as it is seen, while
the value or the files in front of it are judged when the next word begins. So
an unknown argument outweighs a fault of the word before it
(`Word.outweighed`).

Key definitions: `Word`, `Word.ofArguments`, `Word.outweighed`.
-/
import CapturePace.Arguments.Shape

namespace CapturePace

/-- One or two arguments that belong together. -/
inductive Word where
  | file (name : String)
  /-- An option with its value in the same argument. -/
  | attached (setting : Setting) (value : List Char)
  /-- An option with its value in the next argument. -/
  | separate (setting : Setting) (value : List Char)
  /-- An option whose value is missing. -/
  | bare (setting : Setting)
  | help
  | fault (fault : ArgumentFault)
  deriving DecidableEq, Repr

namespace Word

/-- Cuts arguments into words. -/
def ofArguments : List String → List Word
  | [] => []
  | argument :: rest =>
    match Shape.ofArgument argument with
    | .terminator => rest.map .file
    | .plain => .file argument :: ofArguments rest
    | .attached setting value => .attached setting value :: ofArguments rest
    | .help => .help :: ofArguments rest
    | .fault cause => .fault cause :: ofArguments rest
    | .awaiting setting =>
      match rest with
      | [] => [.bare setting]
      | next :: others =>
        match Shape.ofArgument next with
        | .plain => .separate setting next.toList :: ofArguments others
        | _ => .bare setting :: ofArguments (next :: others)

/-- Whether the word is a file. -/
def isFile : Word → Bool
  | .file _ => true
  | _ => false

/-- The fault that counts when one word is at fault and these words follow. -/
def outweighed (cause : ArgumentFault) : List Word → ArgumentFault
  | .fault later :: _ => later
  | _ => cause

end Word

end CapturePace
