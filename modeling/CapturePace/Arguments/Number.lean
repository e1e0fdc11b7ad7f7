/-
# Numbers on the command line

A number is written in decimal digits, with a plus sign in front or not. It is
read whole, however many digits it has, and then held against the range it
has to lie in.

Key definition: `readNumber?`.
-/
namespace CapturePace

/-- The number that continues `value` with the digits `cs`, if they are digits. -/
def readDigits? (value : Nat) : List Char → Option Nat
  | [] => some value
  | c :: cs => if c.isDigit then readDigits? (10 * value + (c.toNat - '0'.toNat)) cs else none

/-- A number without sign; it has at least one digit. -/
def readUnsigned? : List Char → Option Nat
  | [] => none
  | cs => readDigits? 0 cs

/-- A number from one to `limit`. -/
def readNumber? (limit : Nat) (cs : List Char) : Option Nat :=
  let number := match cs with
    | '+' :: digits => readUnsigned? digits
    | digits => readUnsigned? digits
  number.filter fun n => 1 ≤ n && n ≤ limit

end CapturePace
