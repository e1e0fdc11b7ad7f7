/-
# The program

The program times the files of its command line one after the other. Each
file that ends well is one line of output; the first one that does not ends
the program with its fault. Arguments that ask for help get it, and arguments
at fault end the program before any file is read.

The loop over the files (`Program.eachFile`) is the same whether the files are
on a disk and the clock is the system's, or both are given beforehand, as in
`Program.runFiles`.

No level of logging is asked for in the environment, so that no record of a
journal is shown. Where an overflow ends the program, its errors are the message
alone; the words that the runtime puts around it are not modelled, nor those it
has for a program that is aborted.

Key definitions: `Line`, `Exit`, `Program.begin`, `Program.afterFile`,
`Program.eachFile`, `Program.runFiles`, `Program.run`.
-/
import CapturePace.Arguments.Command
import CapturePace.FileRun

namespace CapturePace

/-- A line of output. -/
inductive Line where
  | words (text : String)
  /-- The report of a file. -/
  | report (file : String) (report : Report)
  deriving DecidableEq, Repr

/-- The wording of a line. -/
def Line.text (times : TimeDisplay) : Line → String
  | .words text => text
  | .report file timed =>
    file ++ ": " ++ toString timed.tally.blocks ++ " blocks, " ++
      toString timed.tally.packets ++ " packets, " ++ times.report timed

/-- What a program leaves behind. -/
structure Exit where
  code : Nat
  output : List Line
  errors : List String
  deriving DecidableEq, Repr

namespace Program

/-- What the program tells of itself. -/
def help : List String := [
  "Time the iteration of all blocks in PCAP or PCAPNG files",
  "",
  "Usage: pcap-timing [OPTIONS] <FILES>...",
  "",
  "Arguments:",
  "  <FILES>...  Capture files to read",
  "",
  "Options:",
  "  -b, --buffer-size <BUFFER_SIZE>  Capacity of the streaming reader buffer, in bytes [default: 65536]",
  "  -r, --rounds <ROUNDS>            Number of passes over each file, accumulated in the same timer [default: 1]",
  "  -h, --help                       Print help"]

/-- The command to carry out, or the exit where there is none. -/
def begin (arguments : List String) : Except Exit Command :=
  match Command.parse arguments with
  | .ok command => .ok command
  | .error .helpRequested => .error ⟨ArgumentFault.helpRequested.exitCode, help.map .words, []⟩
  | .error fault => .error ⟨fault.exitCode, [], ["error: " ++ fault.message]⟩

/-- The line of a file that was timed, or the exit if it was not. -/
def afterFile (file : String) : Verdict Report → Except Exit Line
  | .finished report => .ok (.report file report)
  | .failed fault => .error ⟨1, [], [file ++ ": " ++ fault.message]⟩
  | .overflowed overflow => .error ⟨101, [], [overflow.message]⟩
  -- the number that a shell gives a process that was aborted
  | .aborted => .error ⟨134, [], []⟩

/-- Times files one after the other and tells the line of each, until one of
them ends the program. -/
def eachFile {m : Type → Type} [Monad m] (timed : String → m (Verdict Report)) (tell : Line → m Unit) :
    List String → m Exit
  | [] => return ⟨0, [], []⟩
  | file :: files => do
    match afterFile file (← timed file) with
    | .error exit => return exit
    | .ok line =>
      tell line
      eachFile timed tell files

/-- Times a file that is given beforehand, with a time source that goes on from
one file to the next. `read` gives the bytes of a file, or the system's words on
why there are none. -/
def timeGiven (read : String → Except String (List UInt8)) (settings : Settings) (file : String) :
    StateM (TimeSource × List Line) (Verdict Report) := fun (time, lines) =>
  let run := timeFile file (read file) settings time
  (run.verdict, run.time, lines)

/-- Puts a line behind the others. -/
def collect (line : Line) : StateM (TimeSource × List Line) Unit := fun (time, lines) =>
  ((), time, lines ++ [line])

/-- Times files that are given beforehand until one fails. -/
def runFiles (read : String → Except String (List UInt8)) (settings : Settings)
    (files : List String) (time : TimeSource) : Exit :=
  let (exit, _, lines) := eachFile (timeGiven read settings) collect files (time, [])
  ⟨exit.code, lines ++ exit.output, exit.errors⟩

/-- The whole program. -/
def run (read : String → Except String (List UInt8)) (arguments : List String)
    (time : TimeSource) : Exit :=
  match begin arguments with
  | .error exit => exit
  | .ok command => runFiles read command.settings command.files time

section Files

variable {read : String → Except String (List UInt8)} {settings : Settings} {file : String}
  {files : List String} {time : TimeSource} {lines : List Line} {exit : Exit} {line : Line}

theorem eachFile_of_error
    (ended : afterFile file (timeFile file (read file) settings time).verdict = .error exit) :
    eachFile (timeGiven read settings) collect (file :: files) (time, lines) =
      (exit, (timeFile file (read file) settings time).time, lines) := by
  simp only [eachFile, bind, StateT.bind, timeGiven, ended]
  rfl

theorem eachFile_of_ok
    (timed : afterFile file (timeFile file (read file) settings time).verdict = .ok line) :
    eachFile (timeGiven read settings) collect (file :: files) (time, lines) =
      eachFile (timeGiven read settings) collect files
        ((timeFile file (read file) settings time).time, lines ++ [line]) := by
  simp only [eachFile, bind, StateT.bind, timeGiven, timed]
  rfl

/-- What was told before has no say in what comes. -/
theorem eachFile_lines (files : List String) (time : TimeSource) (lines : List Line) :
    eachFile (timeGiven read settings) collect files (time, lines) =
      let rest := eachFile (timeGiven read settings) collect files (time, [])
      (rest.1, rest.2.1, lines ++ rest.2.2) := by
  induction files generalizing time lines with
  | nil => exact congrArg (fun lines => (_, time, lines)) (List.append_nil lines).symm
  | cons file files ih =>
    cases ended : afterFile file (timeFile file (read file) settings time).verdict with
    | error exit => simp only [eachFile_of_error ended, List.append_nil]
    | ok line =>
      rw [eachFile_of_ok ended, eachFile_of_ok ended, ih, ih _ ([] ++ [line])]
      simp only [List.nil_append, List.append_assoc]

theorem runFiles_of_error
    (ended : afterFile file (timeFile file (read file) settings time).verdict = .error exit) :
    runFiles read settings (file :: files) time = exit := by
  rw [runFiles, eachFile_of_error ended]
  rfl

theorem runFiles_of_ok
    (timed : afterFile file (timeFile file (read file) settings time).verdict = .ok line) :
    runFiles read settings (file :: files) time =
      let rest := runFiles read settings files (timeFile file (read file) settings time).time
      ⟨rest.code, line :: rest.output, rest.errors⟩ := by
  rw [runFiles, eachFile_of_ok timed, eachFile_lines]
  rfl

end Files

end Program
end CapturePace
