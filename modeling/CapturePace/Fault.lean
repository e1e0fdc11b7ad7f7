/-
# What can go wrong, and how it is put into words

`ReadFault` is what the capture reader answers when it has no block to give,
`Misuse` is a stopwatch called in the wrong state, and `CaptureFault` is why
a capture could not be walked or timed. Each has one `message`; a capture
fault that was caused by another one starts its message with what it is and
ends it with the message of the cause, `CaptureFault.cause`.

Key definitions: `ReadFault.message`, `Misuse.message`, `CaptureFault.message`,
`CaptureFault.cause`.
-/
namespace CapturePace

/-- Why the capture reader gives no block. -/
inductive ReadFault where
  /-- The input is used up. -/
  | endOfInput
  /-- The window is full and still holds no complete block. -/
  | windowTooSmall
  /-- The input ends where more was promised. -/
  | unexpectedEnd
  /-- A read of the input failed. -/
  | readFailed
  /-- So many bytes are missing from the block in front. -/
  | incomplete (missing : Nat)
  /-- The bytes in front open no capture. -/
  | unknownHeader
  /-- The block in front contradicts itself; what was not read of it follows. -/
  | damaged (rest : List UInt8)
  deriving DecidableEq, Repr

/-- The bytes in decimal, separated by commas. -/
def decimalBytes (bs : List UInt8) : String :=
  ", ".intercalate (bs.map fun b => toString b.toNat)

/-- The wording of a read fault. -/
def ReadFault.message : ReadFault → String
  | .endOfInput => "End of file"
  | .windowTooSmall => "Buffer is too small"
  | .unexpectedEnd => "Unexpected end of file"
  | .readFailed => "Read error"
  | .incomplete missing => "Incomplete read: " ++ toString missing
  | .unknownHeader => "Header not recognized as PCAP or PCAPNG"
  | .damaged rest => "Internal parser error Verify, input [" ++ decimalBytes rest ++ "]"

/-- A stopwatch called in the wrong state. -/
inductive Misuse where
  /-- Started while an interval is open. -/
  | alreadyRunning
  /-- Stopped while no interval is open. -/
  | notRunning
  deriving DecidableEq, Repr

/-- The wording of a misuse. -/
def Misuse.message : Misuse → String
  | .alreadyRunning => "timer is already running"
  | .notRunning => "timer is not running"

/-- Why a capture could not be walked or timed. -/
inductive CaptureFault where
  /-- The file could not be read; the system's own words follow. -/
  | io (text : String)
  /-- There is no data at all. -/
  | empty
  /-- The input ends inside the block that follows the first `consumed` bytes. -/
  | truncated (consumed : Nat)
  /-- The reader refused the input. -/
  | malformed (fault : ReadFault)
  /-- The stopwatch was misused. -/
  | misused (misuse : Misuse)
  deriving DecidableEq, Repr

namespace CaptureFault

/-- The message of what caused the fault, where something else did. -/
def cause : CaptureFault → Option String
  | .io text => some text
  | .empty => none
  | .truncated _ => none
  | .malformed fault => some fault.message
  | .misused misuse => some misuse.message

/-- The wording of a capture fault. -/
def message : CaptureFault → String
  | .io text => "I/O error: " ++ text
  | .empty => "empty capture"
  | .truncated consumed => "truncated capture after " ++ toString consumed ++ " bytes"
  | .malformed fault => "invalid capture: " ++ fault.message
  | .misused misuse => "timer error: " ++ misuse.message

end CaptureFault
end CapturePace
