/-
# What is logged

Timing a capture leaves records behind: how many bytes a file held, one
record for each round, a warning when there was no packet, and a summary.

Key definitions: `LogRecord`, `LogRecord.level`, `LogRecord.text`.
-/
import CapturePace.Report

namespace CapturePace

/-- How much a log record matters. -/
inductive LogLevel where
  | debug
  | info
  | warn
  deriving DecidableEq, Repr

/-- The name of a level. -/
def LogLevel.name : LogLevel → String
  | .debug => "DEBUG"
  | .info => "INFO"
  | .warn => "WARN"

/-- A log record. -/
inductive LogRecord where
  /-- A file was loaded into memory. -/
  | loaded (file : String) (bytes : Nat)
  /-- A round is over; `accumulated` is what the stopwatch shows after it. -/
  | round (number rounds blocks : Nat) (accumulated : Duration)
  /-- The capture in a file holds no packet. -/
  | noPackets (file : String)
  /-- The capture in a file was timed. -/
  | summary (file : String) (report : Report)
  deriving DecidableEq, Repr

namespace LogRecord

/-- The level a record is logged at. -/
def level : LogRecord → LogLevel
  | .loaded .. => .debug
  | .round .. => .debug
  | .noPackets .. => .warn
  | .summary .. => .info

/-- The wording of a record. -/
def text (times : TimeDisplay) : LogRecord → String
  | .loaded file bytes => file ++ ": loaded " ++ toString bytes ++ " bytes"
  | .round number rounds blocks accumulated =>
    "round " ++ toString number ++ "/" ++ toString rounds ++ ": " ++ toString blocks ++
      " blocks, accumulated " ++ times.duration accumulated
  | .noPackets file => file ++ ": capture contains no packets"
  | .summary file report =>
    file ++ ": " ++ toString report.tally.blocks ++ " blocks, " ++
      toString report.tally.packets ++ " packets, " ++ toString report.tally.captured ++
      " bytes in " ++ times.report report

end LogRecord
end CapturePace
