/-
# What a walk finds, and the room it needs

`Format.walk` reads block after block without a window. Its four equations are
all that later modules use of it. `Format.Fits` says how many bytes a window
has to show at most at any block of a walk: the longest block that is found,
or what the bytes left over at its end still ask for. A window of more bytes
then never has to show a reader more than it can hold
(`Format.Fits.le_of_take`).

Key definitions: `Format.Fits`, `Verdict.Abridges`.
Key theorems: `Format.walk_of_ok`, `Format.Fits.le_of_take`.
-/
import CapturePace.Proofs.Growth
import CapturePace.Verdict

namespace CapturePace
namespace Format

/-- Where there is nothing, a header is asked for. -/
theorem parse_nil (format : Format) : ∃ missing ≤ 24, format.parse [] = .error (.incomplete missing) := by
  cases format with
  | records layout =>
    obtain ⟨order, extended⟩ := layout
    cases extended with
    | false => exact ⟨16, by decide, rfl⟩
    | true => exact ⟨24, le_rfl, rfl⟩
  | sections order => exact ⟨4, by decide, rfl⟩

theorem ne_nil_of_refused {format : Format} {bs : List UInt8} {fault : ReadFault}
    (refusal : fault.IsRefusal) (h : format.parse bs = .error fault) : bs ≠ [] := by
  rintro rfl
  obtain ⟨missing, -, nil⟩ := format.parse_nil
  rw [nil] at h
  cases h
  exact refusal missing rfl

/-! ### The equations of a walk -/

variable {format : Format} {bs : List UInt8}

theorem walk_nil (format : Format) (tally : Tally) (consumed : Nat) :
    format.walk [] tally consumed = .ok tally := by
  rw [walk, if_pos rfl]

/-- Where there is something, a walk goes by what the reader answers to it. -/
theorem walk_of_ne_nil (there : bs ≠ []) (tally : Tally) (consumed : Nat) :
    format.walk bs tally consumed =
      match format.parse bs with
      | .ok found =>
        (format.after found.block).walk (bs.drop found.size) (tally.count found.block)
          (consumed + found.size)
      | .error (.incomplete _) => .error (.truncated consumed)
      | .error fault => .error (.malformed fault) := by
  rw [walk, if_neg there]
  split <;> simp_all only

theorem walk_of_ok {found : Found} (h : format.parse bs = .ok found) (tally : Tally) (consumed : Nat) :
    format.walk bs tally consumed =
      (format.after found.block).walk (bs.drop found.size) (tally.count found.block)
        (consumed + found.size) := by
  have there : bs ≠ [] := by
    rintro rfl
    obtain ⟨missing, -, nil⟩ := format.parse_nil
    simp only [nil, reduceCtorEq] at h
  rw [walk_of_ne_nil there, h]

theorem walk_of_incomplete {missing : Nat} (there : bs ≠ [])
    (h : format.parse bs = .error (.incomplete missing)) (tally : Tally) (consumed : Nat) :
    format.walk bs tally consumed = .error (.truncated consumed) := by
  rw [walk_of_ne_nil there, h]

theorem walk_of_refused {fault : ReadFault} (refusal : fault.IsRefusal)
    (h : format.parse bs = .error fault) (tally : Tally) (consumed : Nat) :
    format.walk bs tally consumed = .error (.malformed fault) := by
  rw [walk_of_ne_nil (ne_nil_of_refused refusal h), h]
  cases fault with
  | incomplete missing => exact absurd rfl (refusal missing)
  | _ => rfl

/-! ### The room a walk needs -/

/-- At no block of a walk does the answer ask for more than `bound` bytes. -/
inductive Fits (bound : Nat) : Format → List UInt8 → Prop
  | intro {format : Format} {bs : List UInt8}
      (here : demand Found.size bs.length (format.parse bs) ≤ bound)
      (behind : ∀ found, format.parse bs = .ok found →
        Fits bound (format.after found.block) (bs.drop found.size)) : Fits bound format bs

namespace Fits

variable {bound : Nat}

theorem here (h : format.Fits bound bs) : demand Found.size bs.length (format.parse bs) ≤ bound := by
  cases h
  assumption

theorem behind (h : format.Fits bound bs) {found : Found} (parsed : format.parse bs = .ok found) :
    (format.after found.block).Fits bound (bs.drop found.size) := by
  cases h with
  | intro _ behind => exact behind found parsed

theorem of_ok {found : Found} (parsed : format.parse bs = .ok found) (size : found.size ≤ bound)
    (behind : (format.after found.block).Fits bound (bs.drop found.size)) : format.Fits bound bs := by
  refine ⟨?_, fun other h => ?_⟩
  · rw [parsed]
    exact size
  · rw [parsed] at h
    cases h
    exact behind

theorem of_incomplete {missing : Nat} (parsed : format.parse bs = .error (.incomplete missing))
    (asks : bs.length + missing ≤ bound) : format.Fits bound bs := by
  refine ⟨?_, fun found h => ?_⟩
  · rw [parsed]
    exact asks
  · rw [parsed] at h
    simp at h

theorem of_refused {fault : ReadFault} (refusal : fault.IsRefusal)
    (parsed : format.parse bs = .error fault) (there : bs.length ≤ bound) : format.Fits bound bs := by
  refine ⟨?_, fun found h => ?_⟩
  · rw [parsed]
    cases fault with
    | incomplete missing => exact absurd rfl (refusal missing)
    | _ => exact there
  · rw [parsed] at h
    simp at h

/-- Whatever a window shows of the bytes ahead, no more than `bound` are asked for. -/
theorem le_of_take (h : format.Fits bound bs) {a missing : Nat} (there : a ≤ bs.length)
    (short : format.parse (bs.take a) = .error (.incomplete missing)) : a + missing ≤ bound := by
  have asks := le_demand_of_append (bs.drop a) short
  rw [List.take_append_drop, List.length_take_of_le there] at asks
  calc a + missing ≤ demand Found.size bs.length (format.parse bs) := asks
    _ ≤ bound := h.here

end Fits
end Format

/-! ### Verdicts up to what they quote -/

/-- The fault is `whole`, but for the bytes it quotes, which may be cut short. -/
def CaptureFault.Abridges : CaptureFault → CaptureFault → Prop
  | .malformed fault, .malformed whole => fault.Abridges whole
  | fault, whole => fault = whole

theorem CaptureFault.Abridges.refl (fault : CaptureFault) : fault.Abridges fault := by
  cases fault with
  | malformed fault => exact ReadFault.Abridges.refl fault
  | _ => rfl

/-- The verdict is `whole`, but for the bytes that a fault quotes, which may be cut short. -/
def Verdict.Abridges {α : Type} : Verdict α → Verdict α → Prop
  | .failed fault, .failed whole => fault.Abridges whole
  | verdict, whole => verdict = whole

theorem Verdict.Abridges.refl {α : Type} (verdict : Verdict α) : verdict.Abridges verdict := by
  cases verdict with
  | failed fault => exact CaptureFault.Abridges.refl fault
  | _ => rfl

end CapturePace
