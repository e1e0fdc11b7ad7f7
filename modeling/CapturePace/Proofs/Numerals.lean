/-
# What a number on the command line is

A numeral is one or more decimal digits, with a plus sign in front or not, and
`Nat.ofDigitChars` says what its digits come to. The reader takes the digits one
by one and carries the number so far along, so the induction is on the digits
with that number left open. Nothing is cut off on the way: leading zeros
change nothing, and a number out of range is out of range however long it is.

Key definitions: `Digits`, `Numeral`.
Key theorem: `readNumber?_eq_some_iff`.
-/
import Mathlib
import CapturePace.Arguments.Number

namespace CapturePace

/-- A text of decimal digits, and the number that they write. -/
structure Digits (cs : List Char) (number : Nat) : Prop where
  nonempty : cs ≠ []
  digits : ∀ c ∈ cs, c.isDigit
  value : Nat.ofDigitChars 10 cs 0 = number

/-- A text of decimal digits with a plus sign in front or not, and the number
that it writes. -/
def Numeral (cs : List Char) (number : Nat) : Prop :=
  ∃ digits, Digits digits number ∧ (cs = digits ∨ cs = '+' :: digits)

variable {cs : List Char} {number : Nat}

theorem Digits.not_signed : ¬ Digits ('+' :: cs) number := by
  intro signed
  exact absurd (signed.digits '+' List.mem_cons_self) (by decide)

/-- A numeral starts with its sign or with a digit. -/
theorem Numeral.head (numeral : Numeral cs number) :
    ∃ c rest, cs = c :: rest ∧ (c = '+' ∨ c.isDigit) := by
  obtain ⟨digits, written, unsigned | signed⟩ := numeral
  · obtain ⟨c, rest, rfl⟩ := List.exists_cons_of_ne_nil written.nonempty
    exact ⟨c, rest, unsigned, .inr (written.digits c List.mem_cons_self)⟩
  · exact ⟨'+', digits, signed, .inl rfl⟩

theorem readDigits?_eq_some_iff (value : Nat) :
    readDigits? value cs = some number ↔
      (∀ c ∈ cs, c.isDigit) ∧ Nat.ofDigitChars 10 cs value = number := by
  induction cs generalizing value with
  | nil => simp [readDigits?, Nat.ofDigitChars]
  | cons c cs ih =>
    rw [readDigits?, Nat.ofDigitChars_cons, List.forall_mem_cons]
    by_cases digit : c.isDigit
    · rw [if_pos digit, ih]
      simp only [digit, true_and]
    · simp only [digit, Bool.false_eq_true, ite_false, reduceCtorEq, false_and]

theorem readUnsigned?_eq_some_iff : readUnsigned? cs = some number ↔ Digits cs number := by
  cases cs with
  | nil =>
    simp only [readUnsigned?, reduceCtorEq, false_iff]
    exact fun written => written.nonempty rfl
  | cons c cs =>
    rw [readUnsigned?, readDigits?_eq_some_iff]
    · exact ⟨fun ⟨digits, value⟩ => ⟨List.cons_ne_nil c cs, digits, value⟩,
        fun written => ⟨written.digits, written.value⟩⟩
    · simp

theorem numeral_signed_iff : Numeral ('+' :: cs) number ↔ Digits cs number := by
  constructor
  · rintro ⟨digits, written, rfl | signed⟩
    · exact absurd written Digits.not_signed
    · cases signed
      exact written
  · exact fun written => ⟨cs, written, .inr rfl⟩

theorem numeral_unsigned_iff (unsigned : ∀ digits, cs ≠ '+' :: digits) :
    Numeral cs number ↔ Digits cs number := by
  constructor
  · rintro ⟨digits, written, rfl | signed⟩
    · exact written
    · exact absurd signed (unsigned digits)
  · exact fun written => ⟨cs, written, .inl rfl⟩

/-- **A number is read exactly if a numeral writes it and it lies in the range.** -/
theorem readNumber?_eq_some_iff {limit : Nat} :
    readNumber? limit cs = some number ↔ Numeral cs number ∧ 1 ≤ number ∧ number ≤ limit := by
  unfold readNumber?
  rw [Option.filter_eq_some_iff, Bool.and_eq_true, decide_eq_true_iff, decide_eq_true_iff]
  split
  · rw [readUnsigned?_eq_some_iff, numeral_signed_iff]
  · next unsigned => rw [readUnsigned?_eq_some_iff, numeral_unsigned_iff unsigned]

end CapturePace
