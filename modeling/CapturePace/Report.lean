/-
# Reports of timed captures

A report is what a timed capture held and how long it took. Its time is put
in milliseconds as a binary floating-point number, and written with two
decimals: the number's exact value is rounded, an exact half to the even
hundredth.

Measured times differ from run to run, so all texts that hold one can be
written with a mark in its place (`TimeDisplay`).

Key definitions: `Report`, `Report.millis`, `Report.text`, `TimeDisplay`.
-/
import CapturePace.Block
import CapturePace.Duration.Text

namespace CapturePace

/-- What a capture held, and the time it took. -/
structure Report where
  tally : Tally
  elapsed : Duration
  deriving DecidableEq, Repr

/-- Hundredths of a positive finite floating-point number with these bits, to
the nearest, a half to the even one. -/
def hundredths (bits : UInt64) : Nat :=
  let exponent := (bits.toNat >>> 52) % 2048
  let fraction := bits.toNat % (1 <<< 52)
  -- the number is `significand`, with its point moved by `scale - 1075` binary places
  let significand := if exponent = 0 then fraction else (1 <<< 52) + fraction
  let scale := max 1 exponent
  if 1075 ≤ scale then (100 * significand) <<< (scale - 1075)
  else Decimal.roundDiv (100 * significand) (1 <<< (1075 - scale))

namespace Report

/-- The time in milliseconds. -/
def millis (report : Report) : Float :=
  let seconds := (UInt64.ofNat report.elapsed.seconds).toFloat
  let nanos := (UInt64.ofNat report.elapsed.nanos).toFloat
  (seconds + nanos / 1000000000.0) * 1000.0

/-- The time in milliseconds, with two decimals. -/
def millisText (report : Report) : String := Decimal.fixedText 2 (hundredths report.millis.toBits)

/-- The time with its unit. -/
def text (report : Report) : String := report.millisText ++ " ms"

/-- All that the report holds, field by field. -/
def dump (report : Report) : String :=
  "TimingReport \x7b stats: CaptureStats \x7b blocks: " ++ toString report.tally.blocks ++
    ", packets: " ++ toString report.tally.packets ++
    ", captured_bytes: " ++ toString report.tally.captured ++
    " \x7d, elapsed: " ++ report.elapsed.text ++ " \x7d"

end Report

/-- How measured times are written. -/
inductive TimeDisplay where
  /-- As they are. -/
  | shown
  /-- A mark in their place. -/
  | masked
  deriving DecidableEq, Repr

namespace TimeDisplay

/-- An accumulated time. -/
def duration : TimeDisplay → Duration → String
  | .shown, d => d.text
  | .masked, _ => "#"

/-- The time of a report, with its unit. -/
def report : TimeDisplay → Report → String
  | .shown, r => r.text
  | .masked, _ => "# ms"

end TimeDisplay
end CapturePace
