/-
# What a turn can do, and where turns lead

A turn of a pass does one of eight things, each under conditions of its own
(`Pass.Rule`). Every later fact about turns is a case analysis on these rules.
`Pass.Reaches` joins a pass to those it goes through, and a run ends with the
turn that is over of one of them (`Pass.run_reaches`), so what turns keep, a
run keeps (`Pass.Reaches.keeps`).

Key definitions: `Pass.Rule`, `Pass.Reaches`.
Key theorems: `Pass.turn_rule`, `Pass.run_reaches`, `Pass.Reaches.keeps`.
-/
import CapturePace.Pass
import CapturePace.Proofs.Growth

namespace CapturePace
namespace Pass

/-- What a turn can lead to, and when. -/
inductive Rule (capacity : Nat) (pass : Pass) : Turn → Prop
  /-- The header that is due is taken. -/
  | header (due : pass.headerDue = true) :
      Rule capacity pass
        (.more { pass.take capacity ⟨fileHeaderSize, .fileHeader⟩ with headerDue := false })
  /-- Everything has been taken. -/
  | finished (due : pass.headerDue = false) (empty : pass.window = []) (start : pass.position = 0)
      (ended : pass.exhausted = true) : Rule capacity pass (.over (.ok pass.tally))
  /-- The block in front is taken. -/
  | block {found : Found} (due : pass.headerDue = false)
      (parsed : pass.format.parse pass.window = .ok found) :
      Rule capacity pass (.more (pass.take capacity found))
  /-- The source has ended inside a block. -/
  | truncated {missing : Nat} (due : pass.headerDue = false)
      (parsed : pass.format.parse pass.window = .error (.incomplete missing))
      (ended : pass.exhausted = true) (left : ¬(pass.window = [] ∧ pass.position = 0)) :
      Rule capacity pass (.over (.error (.truncated pass.consumed)))
  /-- The block does not fit into the buffer with a byte to spare. -/
  | tooSmall {missing : Nat} (due : pass.headerDue = false)
      (parsed : pass.format.parse pass.window = .error (.incomplete missing))
      (going : pass.exhausted = false) (full : capacity ≤ pass.window.length + missing) :
      Rule capacity pass (.over (.error (.malformed .windowTooSmall)))
  /-- More was to be read, and the read failed. -/
  | readFailed {missing : Nat} (due : pass.headerDue = false)
      (parsed : pass.format.parse pass.window = .error (.incomplete missing))
      (going : pass.exhausted = false) (room : pass.window.length + missing < capacity)
      (failed : pass.source.read? (capacity - pass.window.length) = none) :
      Rule capacity pass (.over (.error (.malformed .readFailed)))
  /-- More is read. -/
  | read {missing : Nat} {got : List UInt8} {rest : ByteSource} (due : pass.headerDue = false)
      (parsed : pass.format.parse pass.window = .error (.incomplete missing))
      (going : pass.exhausted = false) (room : pass.window.length + missing < capacity)
      (read : pass.source.read? (capacity - pass.window.length) = some (got, rest)) :
      Rule capacity pass (.more { pass with
        window := pass.window ++ got, position := 0, exhausted := got.isEmpty, source := rest })
  /-- The block in front is refused. -/
  | refused {fault : ReadFault} (due : pass.headerDue = false) (refusal : fault.IsRefusal)
      (parsed : pass.format.parse pass.window = .error fault) :
      Rule capacity pass (.over (.error (.malformed fault)))

/-- A read that brings nothing marks the source as ended, so a pass never
stops for a read without progress. -/
theorem extend_rule {capacity missing : Nat} {pass : Pass} (due : pass.headerDue = false)
    (left : ¬(pass.window = [] ∧ pass.position = 0 ∧ pass.exhausted = true))
    (parsed : pass.format.parse pass.window = .error (.incomplete missing)) :
    pass.Rule capacity (pass.extend capacity missing) := by
  unfold extend
  by_cases ended : pass.exhausted = true
  · rw [if_pos ended]
    exact .truncated due parsed ended fun h => left ⟨h.1, h.2, ended⟩
  rw [if_neg ended]
  have going : pass.exhausted = false := by simpa using ended
  by_cases full : capacity ≤ pass.window.length + missing
  · rw [if_pos full]
    exact .tooSmall due parsed going full
  rw [if_neg full]
  have room : pass.window.length + missing < capacity := Nat.lt_of_not_le full
  unfold readMore?
  cases h : pass.source.read? (capacity - pass.window.length) with
  | none => exact .readFailed due parsed going room h
  | some more =>
    obtain ⟨got, rest⟩ := more
    have progress : ¬((pass.window ++ got).length = pass.window.length ∧ got.isEmpty = false) := by
      cases got <;> simp
    simp only [progress, if_false]
    exact .read due parsed going room h

/-- **Every turn follows a rule.** -/
theorem turn_rule (capacity : Nat) (pass : Pass) : pass.Rule capacity (pass.turn capacity) := by
  unfold turn
  split
  · next due => exact .header due
  next due =>
  have due : pass.headerDue = false := by simpa using due
  split
  · next ended => exact .finished due ended.1 ended.2.1 ended.2.2
  next left =>
  split
  · next parsed => exact .block due parsed
  · next parsed => exact extend_rule due left parsed
  · next fault other parsed =>
    exact .refused due (fun missing h => other missing (h ▸ rfl)) parsed

theorem rule_of_turn {capacity : Nat} {pass : Pass} {turn : Turn} (h : pass.turn capacity = turn) :
    pass.Rule capacity turn := by
  rw [← h]
  exact turn_rule capacity pass

theorem run_of_more {capacity : Nat} {pass next : Pass} (h : pass.turn capacity = .more next) :
    pass.run capacity = next.run capacity := by
  rw [run]
  split
  · next h' =>
    rw [h] at h'
    cases h'
    rfl
  · next h' => rw [h] at h'; cases h'

theorem run_of_over {capacity : Nat} {pass : Pass} {result : Except CaptureFault Tally}
    (h : pass.turn capacity = .over result) : pass.run capacity = result := by
  rw [run]
  split
  · next h' => rw [h] at h'; cases h'
  · next h' =>
    rw [h] at h'
    cases h'
    rfl

/-- The second pass comes out of the first by turns. -/
def Reaches (capacity : Nat) : Pass → Pass → Prop :=
  Relation.ReflTransGen fun pass next => pass.turn capacity = .more next

/-- A run goes through turns to one that is over, with the result of the run. -/
theorem run_reaches (capacity : Nat) (pass : Pass) :
    ∃ last, pass.Reaches capacity last ∧ last.turn capacity = .over (pass.run capacity) := by
  fun_induction run capacity pass with
  | case1 pass next h ih =>
    obtain ⟨last, reached, ends⟩ := ih
    exact ⟨last, .head h reached, ends⟩
  | case2 pass result h => exact ⟨pass, .refl, h⟩

/-- What every turn keeps holds of every pass that is reached. -/
theorem Reaches.keeps {capacity : Nat} {motive : Pass → Prop} {pass last : Pass}
    (step : ∀ now next, motive now → now.turn capacity = .more next → motive next)
    (h : pass.Reaches capacity last) (start : motive pass) : motive last := by
  induction h with
  | refl => exact start
  | tail _ turn ih => exact step _ _ ih turn

end Pass
end CapturePace
