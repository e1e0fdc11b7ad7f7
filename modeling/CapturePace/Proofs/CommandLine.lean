/-
# What the words of a command line decide

The words of a command line are carried out one after the other on a draft of
the command, and each has a say in one part of it only. So a word that gives
the number of rounds can be left out: what is carried out without it is the
same command up to the rounds (`Draft.carryOut_filter`). Command lines with the
same words besides those about rounds ask for the same buffer and the same
files, however the rounds are spelled and wherever they stand
(`Command.besides_rounds`).

Key definition: `Word.setsRounds`.
Key theorems: `Draft.carryOut_filter`, `Command.besides_rounds`.
-/
import Mathlib
import CapturePace.Arguments.Command

namespace CapturePace

/-- Whether the word gives the number of rounds. -/
def Word.setsRounds : Word → Bool
  | .attached .rounds _ => true
  | .separate .rounds _ => true
  | _ => false

namespace Draft

variable {draft next : Draft} {value : List Char} {words : List Word} {command : Command}

theorem assign_rounds (h : draft.assign .rounds value = .ok next) :
    ∃ rounds, next = { draft with rounds? := some rounds } := by
  unfold assign at h
  split at h
  · cases h
  · split at h
    · next number _ =>
      cases h
      exact ⟨number, rfl⟩
    · cases h

/-- The buffer is assigned whatever is known of the rounds. -/
theorem assign_bufferSize (rounds? : Option Nat) (h : draft.assign .bufferSize value = .ok next) :
    { draft with rounds? := rounds? }.assign .bufferSize value = .ok { next with rounds? := rounds? } := by
  have same : { draft with rounds? := rounds? }.value? .bufferSize = draft.value? .bufferSize := rfl
  unfold assign at h ⊢
  rw [same]
  split at h
  · cases h
  · next free =>
    rw [if_neg free]
    split at h
    · cases h
      rfl
    · cases h

/-- **Words about rounds decide nothing else.** Without them, and whatever was
known of the rounds before, the same buffer and the same files are asked for. -/
theorem carryOut_filter (rounds? : Option Nat) (h : draft.carryOut words = .ok command) :
    ∃ rounds, { draft with rounds? := rounds? }.carryOut (words.filter fun word => !word.setsRounds) =
      .ok ⟨⟨command.settings.capacity, rounds⟩, command.files⟩ := by
  fun_induction carryOut draft words generalizing rounds? with
  | case1 => cases h
  | case2 draft some =>
    cases h
    rw [List.filter_nil, carryOut, if_neg some]
    exact ⟨_, rfl⟩
  | case3 => cases h
  | case4 draft name rest named ih =>
    rw [List.filter_cons_of_pos (by rfl), carryOut, if_neg named]
    exact ih rounds? h
  | case5 draft setting value rest next assigned ih =>
    cases setting with
    | bufferSize =>
      rw [List.filter_cons_of_pos (by rfl), carryOut, assign_bufferSize rounds? assigned]
      exact ih rounds? h
    | rounds =>
      obtain ⟨number, rfl⟩ := assign_rounds assigned
      exact ih rounds? h
  | case6 => cases h
  | case7 draft setting value rest next assigned ih =>
    cases setting with
    | bufferSize =>
      rw [List.filter_cons_of_pos (by rfl), carryOut, assign_bufferSize rounds? assigned]
      exact ih rounds? h
    | rounds =>
      obtain ⟨number, rfl⟩ := assign_rounds assigned
      exact ih rounds? h
  | case8 => cases h
  | case9 => cases h
  | case10 => cases h
  | case11 => cases h

end Draft

/-- **Only the rounds depend on the words about rounds.** -/
theorem Command.besides_rounds {arguments arguments' : List String} {command command' : Command}
    (accepted : Command.parse arguments = .ok command) (accepted' : Command.parse arguments' = .ok command')
    (same : ((Word.ofArguments arguments').filter fun word => !word.setsRounds) =
      (Word.ofArguments arguments).filter fun word => !word.setsRounds) :
    command'.settings.capacity = command.settings.capacity ∧ command'.files = command.files := by
  obtain ⟨rounds, without⟩ := Draft.carryOut_filter none accepted
  obtain ⟨rounds', without'⟩ := Draft.carryOut_filter none accepted'
  rw [same, without] at without'
  simp only [Except.ok.injEq, Command.mk.injEq, Settings.mk.injEq] at without'
  obtain ⟨⟨capacity, -⟩, files⟩ := without'
  exact ⟨capacity.symm, files.symm⟩

end CapturePace
