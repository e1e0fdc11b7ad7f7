/-
# Timing a file

A file is loaded before anything is timed. Its rounds are timed on a new
stopwatch, and if they end well the file is reported.

Key definition: `timeFile`.
-/
import CapturePace.Rounds

namespace CapturePace

/-- A verdict on a file, the time source after it, and what was logged. -/
structure FileRun where
  verdict : Verdict Report
  time : TimeSource
  journal : List LogRecord

/-- Times the file called `file`. Its contents are the bytes, or the system's
words on why they cannot be read. -/
def timeFile (file : String) (contents : Except String (List UInt8)) (settings : Settings)
    (time : TimeSource) : FileRun :=
  match contents with
  | .error text => ⟨.failed (.io text), time, []⟩
  | .ok bs =>
    let timed := Stopwatch.timeRounds {} time bs settings
    let journal := .loaded file bs.length :: timed.journal
    match timed.verdict with
    | .finished tally =>
      let report : Report := ⟨tally, timed.watch.elapsed⟩
      let warning := if tally.packets = 0 then [.noPackets file] else []
      ⟨.finished report, timed.time, journal ++ warning ++ [.summary file report]⟩
    | .failed fault => ⟨.failed fault, timed.time, journal⟩
    | .overflowed overflow => ⟨.overflowed overflow, timed.time, journal⟩
    | .aborted => ⟨.aborted, timed.time, journal⟩

end CapturePace
