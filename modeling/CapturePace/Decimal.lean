/-
# Decimal texts of scaled numbers

A number of units, `tenTo places` of which make one, is written as a whole part, a point and
its decimals, either without the zeros at their end (`Decimal.shortText`) or
with all of them (`Decimal.fixedText`). `Decimal.roundDiv` rounds a quotient to
a whole number, an exact half to the even neighbour.

Key definitions: `Decimal.tenTo`, `Decimal.shortText`, `Decimal.fixedText`, `Decimal.roundDiv`.
-/
namespace CapturePace
namespace Decimal

/-- Ten multiplied by itself so many times. -/
def tenTo : Nat → Nat
  | 0 => 1
  | places + 1 => 10 * tenTo places

theorem tenTo_pos : ∀ places : Nat, 0 < tenTo places
  | 0 => by decide
  | places + 1 => Nat.mul_pos (by decide) (tenTo_pos places)

/-- The `places` digits of `n`, leading zeros included. -/
def digits : Nat → Nat → List Char
  | 0, _ => []
  | places + 1, n => Nat.digitChar (n / tenTo places) :: digits places (n % tenTo places)

/-- The `places` digits of `n` without the zeros at the end. -/
def shortDigits : Nat → Nat → List Char
  | 0, _ => []
  | places + 1, n =>
    if n = 0 then []
    else Nat.digitChar (n / tenTo places) :: shortDigits places (n % tenTo places)

theorem shortDigits_zero (places : Nat) : shortDigits places 0 = [] := by
  cases places <;> rfl

/-- `n` units, `tenTo places` of which make one, as short as it can be written. -/
def shortText (places n : Nat) : String :=
  let whole := toString (n / tenTo places)
  let decimals := n % tenTo places
  if decimals = 0 then whole else whole ++ "." ++ String.ofList (shortDigits places decimals)

/-- `n` units, `tenTo places` of which make one, with all decimals. -/
def fixedText (places n : Nat) : String :=
  toString (n / tenTo places) ++ "." ++ String.ofList (digits places (n % tenTo places))

/-- The whole number nearest to `num / den`; of two, the even one. -/
def roundDiv (num den : Nat) : Nat :=
  let quotient := num / den
  let remainder := num % den
  if 2 * remainder < den then quotient
  else if den < 2 * remainder then quotient + 1
  else quotient + quotient % 2

end Decimal
end CapturePace
