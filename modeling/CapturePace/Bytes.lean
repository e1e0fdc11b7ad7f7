/-
# Bytes, and the numbers written in them

Captures are read as lists of bytes. `shortfall` says how many bytes are
missing from a list without walking more of it than is asked for, `skip`
steps over bytes that must be there, and `ByteOrder.field` reads the number
written at an offset in one of the two byte orders.

Key definitions: `shortfall`, `skip`, `align`, `ByteOrder.value`, `ByteOrder.field`.
Key theorems: `shortfall_eq`, `skip_eq_ok`, `ByteOrder.value_big`.
-/
import CapturePace.Fault

namespace CapturePace

/-- The bytes missing from `bs` to make `n`. -/
def shortfall : Nat → List UInt8 → Nat
  | 0, _ => 0
  | n + 1, [] => n + 1
  | n + 1, _ :: bs => shortfall n bs

theorem shortfall_eq : ∀ (n : Nat) (bs : List UInt8), shortfall n bs = n - bs.length
  | 0, _ => by simp [shortfall]
  | _ + 1, [] => by simp [shortfall]
  | n + 1, _ :: bs => by simp [shortfall, shortfall_eq n bs]

/-- Nothing is missing exactly when the bytes are there. -/
theorem shortfall_eq_zero {n : Nat} {bs : List UInt8} : shortfall n bs = 0 ↔ n ≤ bs.length := by
  rw [shortfall_eq]
  omega

/-- Steps over `n` bytes, all of which have to be there. -/
def skip (n : Nat) (bs : List UInt8) : Except ReadFault (List UInt8) :=
  match shortfall n bs with
  | 0 => .ok (bs.drop n)
  | missing => .error (.incomplete missing)

theorem skip_eq_ok {n : Nat} {bs rest : List UInt8} :
    skip n bs = .ok rest ↔ n ≤ bs.length ∧ bs.drop n = rest := by
  unfold skip
  split
  · next there => simp [shortfall_eq_zero.1 there]
  · next missing lacking =>
    have : ¬ n ≤ bs.length := fun h => lacking (shortfall_eq_zero.2 h)
    simp [this]

/-- A computation in two parts succeeds when both do. -/
theorem bind_eq_ok {ε α β : Type} {first : Except ε α} {next : α → Except ε β} {b : β} :
    first >>= next = .ok b ↔ ∃ a, first = .ok a ∧ next a = .ok b := by
  cases first <;> simp [bind, Except.bind]

/-- The next multiple of four: data is padded to words of four bytes. -/
def align (n : Nat) : Nat := (n + 3) / 4 * 4

theorem le_align (n : Nat) : n ≤ align n := by
  unfold align
  omega

theorem align_lt (n : Nat) : align n < n + 4 := by
  unfold align
  omega

/-- Which end of a number is written first. -/
inductive ByteOrder where
  | little
  | big
  deriving DecidableEq, Repr

namespace ByteOrder

/-- The number that a list of bytes stands for. -/
def value : ByteOrder → List UInt8 → Nat
  | .little, bs => bs.foldr (fun b n => b.toNat + 256 * n) 0
  | .big, bs => bs.foldl (fun n b => 256 * n + b.toNat) 0

/-- The number written in the `width` bytes at `offset`. -/
def field (order : ByteOrder) (offset width : Nat) (bs : List UInt8) : Nat :=
  order.value ((bs.drop offset).take width)

/-- Reading from the big end is reading the reversed bytes from the little end. -/
theorem value_big (bs : List UInt8) : value .big bs = value .little bs.reverse := by
  simp [value, List.foldr_reverse, Nat.add_comm]

end ByteOrder
end CapturePace
