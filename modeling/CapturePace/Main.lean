/-
# Running the program

The outer layer reads files, takes readings of the system's clock around each
round, and prints. What it reads goes to `timeFile`, which decides; the loop over
the files is `Program.eachFile`.
-/
import CapturePace.FileFault
import CapturePace.Program

namespace CapturePace

/-- The number that the system gave a failed call, which may come with its sign
turned, and its words on it. -/
def systemCode? : IO.Error → Option (UInt32 × String)
  | .noFileOrDirectory _ code details => some (code, details)
  | .inappropriateType _ code details => some (code, details)
  | .permissionDenied _ code details => some (code, details)
  | .invalidArgument _ code details => some (code, details)
  | .resourceExhausted _ code details => some (code, details)
  | .interrupted _ code details => some (code, details)
  | .hardwareFault code details => some (code, details)
  | .otherError code details => some (code, details)
  | _ => none

/-- What is said of a failed call. -/
def systemWords (error : IO.Error) : String :=
  match systemCode? error with
  | some (code, details) => (FileFault.ofCode (min code (0 - code)).toNat details).message
  | none => toString error

/-- Reads a file into memory. -/
def readFile (file : String) : IO (Except String (List UInt8)) := do
  if file.contains '\x00' then return .error FileFault.nulInside.message
  try
    let bytes ← IO.FS.readBinFile file
    return .ok bytes.toList
  catch error => return .error (systemWords error)

/-- A reading of the system's clock. -/
def readClock : IO Duration := do
  return .ofNanos (← IO.monoNanosNow)

/-- Walks a capture `rounds` times, or until it fails, with a reading before
and after each walk. The latest reading comes first. -/
def readRounds (bytes : List UInt8) (capacity : Nat) : Nat → List Duration → IO (List Duration)
  | 0, readings => return readings
  | rounds + 1, readings => do
    let before ← readClock
    let outcome ← IO.lazyPure fun _ => tallyOf bytes capacity
    let finished := outcome.isFinished
    let after ← readClock
    let readings := after :: before :: readings
    if finished then readRounds bytes capacity rounds readings else return readings

/-- Times a file with the system's clock. -/
def timeNow (settings : Settings) (file : String) : IO (Verdict Report) := do
  let contents ← readFile file
  let readings ← match contents with
    | .ok bytes => readRounds bytes settings.capacity (max 1 settings.rounds) []
    | .error _ => pure []
  return (timeFile file contents settings (.ofReadings readings.reverse)).verdict

/-- Runs the program on its command line; the exit code. -/
def runProgram (arguments : List String) : IO UInt32 := do
  let exit ← match Program.begin arguments with
    | .ok command =>
      Program.eachFile (timeNow command.settings) (fun line => IO.println (line.text .shown)) command.files
    | .error exit => pure exit
  exit.output.forM fun line => IO.println (line.text .shown)
  exit.errors.forM fun text => IO.eprintln text
  return exit.code.toUInt32

end CapturePace

/-- The program on its command line. -/
def main (arguments : List String) : IO UInt32 := CapturePace.runProgram arguments
