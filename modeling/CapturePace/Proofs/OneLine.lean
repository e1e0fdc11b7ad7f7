/-
# Texts that fit on one line

What the program prints is put together from names, numbers, fixed words and
the system's words on what went wrong. Numbers and fixed words hold no line
break, so a report takes one line exactly if the name of its file does
(`oneLine_line`), and the message of a fault does unless it quotes words of
the system that do not (`CaptureFault.oneLine_message`).

Key definition: `OneLine`.
Key theorems: `oneLine_line`, `CaptureFault.oneLine_message`.
-/
import Mathlib
import CapturePace.Program

namespace CapturePace

/-- The text holds no line break. -/
def OneLine (text : String) : Prop := '\n' ∉ text.toList

instance (text : String) : Decidable (OneLine text) := inferInstanceAs (Decidable ('\n' ∉ text.toList))

@[simp] theorem newline_notMem_toDigits (n : Nat) : '\n' ∉ Nat.toDigits 10 n := by
  intro there
  have digit := Nat.isDigit_of_mem_toDigits (by decide) le_rfl there
  revert digit
  decide

@[simp] theorem newline_notMem_digits (places n : Nat) : '\n' ∉ Decimal.digits places n := by
  induction places generalizing n with
  | zero => exact List.not_mem_nil
  | succ places ih =>
    rw [Decimal.digits, List.mem_cons, not_or]
    exact ⟨(Nat.digitChar_ne '\n' rfl).symm, ih _⟩

theorem oneLine_append {a b : String} : OneLine (a ++ b) ↔ OneLine a ∧ OneLine b := by
  simp only [OneLine, String.toList_append, List.mem_append, not_or]

theorem oneLine_toString (n : Nat) : OneLine (toString n) := by
  simp [OneLine]

theorem oneLine_times (times : TimeDisplay) (report : Report) : OneLine (times.report report) := by
  cases times with
  | shown => simp [OneLine, TimeDisplay.report, Report.text, Report.millisText, Decimal.fixedText]
  | masked => simp [OneLine, TimeDisplay.report]

/-- The name of the file is all that can break its line. -/
theorem oneLine_line {file : String} (times : TimeDisplay) (report : Report) :
    OneLine (Line.text times (.report file report)) ↔ OneLine file := by
  have words : OneLine ": " ∧ OneLine " blocks, " ∧ OneLine " packets, " := by decide +kernel
  unfold Line.text
  simp only [oneLine_append, oneLine_toString, oneLine_times, words, and_true]

theorem oneLine_decimalBytes (bs : List UInt8) : OneLine (decimalBytes bs) := by
  rw [OneLine, decimalBytes, String.toList_intercalate]
  induction bs with
  | nil => simp
  | cons b bs ih =>
    cases bs with
    | nil => simp
    | cons next bs =>
      simp only [List.map_cons, List.intercalate_cons_cons, List.mem_append, not_or] at ih ⊢
      exact ⟨⟨by simp, by simp⟩, ih⟩

theorem ReadFault.oneLine_message (fault : ReadFault) : OneLine fault.message := by
  cases fault with
  | endOfInput => decide +kernel
  | windowTooSmall => decide +kernel
  | unexpectedEnd => decide +kernel
  | readFailed => decide +kernel
  | unknownHeader => decide +kernel
  | incomplete missing => exact oneLine_append.2 ⟨by decide +kernel, oneLine_toString missing⟩
  | damaged rest =>
    unfold ReadFault.message
    rw [oneLine_append, oneLine_append]
    exact ⟨⟨by decide +kernel, oneLine_decimalBytes rest⟩, by decide +kernel⟩

/-- The system's words are all that can break the message of a fault. -/
theorem CaptureFault.oneLine_message {fault : CaptureFault} (words : ∀ text, fault = .io text → OneLine text) :
    OneLine fault.message := by
  cases fault with
  | io text =>
    unfold CaptureFault.message
    exact oneLine_append.2 ⟨by decide +kernel, words text rfl⟩
  | malformed fault =>
    unfold CaptureFault.message
    exact oneLine_append.2 ⟨by decide +kernel, fault.oneLine_message⟩
  | misused misuse => cases misuse <;> decide +kernel
  | empty => decide +kernel
  | truncated consumed =>
    unfold CaptureFault.message
    rw [oneLine_append, oneLine_append]
    exact ⟨⟨by decide +kernel, oneLine_toString consumed⟩, by decide +kernel⟩
end CapturePace
