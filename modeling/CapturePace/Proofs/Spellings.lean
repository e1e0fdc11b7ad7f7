/-
# How options are spelled

An option that takes a number is given its value in one of five spellings
(`Spelling.write`). Each has a shape of its own, and the other way round an
argument of such a shape is one of these spellings: what the reader cuts off at the
letter, or at the first equals sign behind a name, is the option and the value that
were put together. A file is what starts with no dash, or is only a dash. Two
spellings meet in one argument, as `-x=V` is also `-xV` with a value that
starts with an equals sign; the reader takes the first, so `-xV` needs a value
that does not start so.

Key definitions: `Setting.letter`, `Setting.name`, `Spelling`, `Spelling.write`.
Key theorems: `Shape.ofArgument_eq_plain_iff`, `Shape.of_awaiting`, `Shape.of_attached`.
-/
import Mathlib
import CapturePace.Arguments.Shape

namespace CapturePace

/-! ## The spellings -/

namespace Setting

/-- The letter of an option. -/
def letter : Setting → String
  | .bufferSize => "b"
  | .rounds => "r"

/-- The name of an option. -/
def name : Setting → String
  | .bufferSize => "buffer-size"
  | .rounds => "rounds"

end Setting

/-- The five ways to give an option its value. -/
inductive Spelling where
  /-- `-x V` -/
  | letterApart
  /-- `-xV` -/
  | letterJoined
  /-- `-x=V` -/
  | letterEquals
  /-- `--name V` -/
  | nameApart
  /-- `--name=V` -/
  | nameEquals
  deriving DecidableEq, Repr

/-- The arguments that give an option its value. -/
def Spelling.write (setting : Setting) (value : String) : Spelling → List String
  | .letterApart => ["-" ++ setting.letter, value]
  | .letterJoined => ["-" ++ setting.letter ++ value]
  | .letterEquals => ["-" ++ setting.letter ++ "=" ++ value]
  | .nameApart => ["--" ++ setting.name, value]
  | .nameEquals => ["--" ++ setting.name ++ "=" ++ value]

/-! ## From the shape to the spelling -/

namespace Setting

variable {setting : Setting}

theorem of_ofLetter? {letter : Char} (known : ofLetter? letter = some setting) :
    setting.letter.toList = [letter] := by
  unfold ofLetter? at known
  split at known <;> cases known <;> rfl

theorem of_ofName? {name : List Char} (known : ofName? name = some setting) :
    setting.name.toList = name := by
  unfold ofName? at known
  split at known
  · next same =>
    cases known
    exact same.symm
  · split at known
    · next same =>
      cases known
      exact same.symm
    · cases known

end Setting

namespace Shape

variable {argument : String} {setting : Setting} {letter : Char} {rest text value : List Char}

theorem of_ofLetter_awaiting (h : ofLetter letter rest = .awaiting setting) :
    letter :: rest = setting.letter.toList := by
  unfold ofLetter at h
  split at h
  · cases h
  · split at h
    · cases h
    · next known =>
      cases h
      exact (Setting.of_ofLetter? known).symm
    · cases h
    · cases h

theorem of_ofLetter_attached (h : ofLetter letter rest = .attached setting value) :
    letter :: rest = setting.letter.toList ++ value ∨
      letter :: rest = setting.letter.toList ++ '=' :: value := by
  unfold ofLetter at h
  split at h
  · cases h
  · split at h
    · cases h
    · cases h
    · next known =>
      cases h
      rw [Setting.of_ofLetter? known]
      exact .inr rfl
    · next known _ _ =>
      cases h
      rw [Setting.of_ofLetter? known]
      exact .inl rfl

theorem of_ofName_awaiting (h : ofName text = .awaiting setting) : text = setting.name.toList := by
  have cut : text.takeWhile (· ≠ '=') ++ text.dropWhile (· ≠ '=') = text :=
    List.takeWhile_append_dropWhile
  unfold ofName at h
  dsimp only at h
  split at h
  · split at h <;> cases h
  · split at h
    · cases h
    · next known no_value =>
      cases h
      rw [Setting.of_ofName? known]
      split at no_value
      · next at_end =>
        rw [at_end, List.append_nil] at cut
        exact cut.symm
      · cases no_value
    · cases h

theorem of_ofName_attached (h : ofName text = .attached setting value) :
    text = setting.name.toList ++ '=' :: value := by
  have cut : text.takeWhile (· ≠ '=') ++ text.dropWhile (· ≠ '=') = text :=
    List.takeWhile_append_dropWhile
  unfold ofName at h
  dsimp only at h
  split at h
  · split at h <;> cases h
  · split at h
    · cases h
    · cases h
    · next known has_value =>
      cases h
      rw [Setting.of_ofName? known]
      split at has_value
      · cases has_value
      · next mark behind from_mark =>
        cases has_value
        have stops := List.head?_dropWhile_not (· ≠ '=') text
        rw [from_mark] at stops
        have equals : mark = '=' := by simpa using stops
        rw [from_mark, equals] at cut
        exact cut.symm

theorem ofLetter_ne : ofLetter letter rest ≠ .plain ∧ ofLetter letter rest ≠ .terminator := by
  unfold ofLetter
  split
  · simp
  · split <;> simp

theorem ofName_ne : ofName text ≠ .plain ∧ ofName text ≠ .terminator := by
  unfold ofName
  dsimp only
  split
  · split <;> simp
  · split <;> simp

/-- An argument that names a file looks like one, and so does every value. -/
theorem ofArgument_eq_plain_iff :
    ofArgument argument = .plain ↔ argument = "-" ∨ argument.toList.head? ≠ some '-' := by
  rw [← String.toList_inj]
  unfold ofArgument
  split
  · next same => simp [same]
  · next same => simp [same, ofName_ne.1]
  · next same => simp [same, ofLetter_ne.1]
  · next not_dashes =>
    refine iff_of_true rfl ?_
    cases chars : argument.toList with
    | nil => exact .inr (by simp)
    | cons first rest =>
      cases rest with
      | nil =>
        by_cases dash : first = '-'
        · exact .inl (by simp [dash])
        · exact .inr (by simpa using dash)
      | cons second rest =>
        refine .inr fun dash => ?_
        cases dash
        exact not_dashes second rest chars

theorem of_terminator (h : ofArgument argument = .terminator) : argument = "--" := by
  rw [← String.toList_inj]
  unfold ofArgument at h
  split at h
  · next chars => exact chars
  · exact absurd h ofName_ne.2
  · exact absurd h ofLetter_ne.2
  · cases h

/-- An option whose value comes next is its letter or its name. -/
theorem of_awaiting (h : ofArgument argument = .awaiting setting) :
    argument = "-" ++ setting.letter ∨ argument = "--" ++ setting.name := by
  simp only [← String.toList_inj, String.toList_append]
  unfold ofArgument at h
  split at h
  · cases h
  · next chars =>
    exact .inr (by simp [chars, of_ofName_awaiting h])
  · next chars =>
    exact .inl (by simp [chars, of_ofLetter_awaiting h])
  · cases h

/-- **An option with its value is spelled in one of three ways.** -/
theorem of_attached (h : ofArgument argument = .attached setting value) :
    argument = "-" ++ setting.letter ++ String.ofList value ∨
      argument = "-" ++ setting.letter ++ "=" ++ String.ofList value ∨
      argument = "--" ++ setting.name ++ "=" ++ String.ofList value := by
  simp only [← String.toList_inj, String.toList_append]
  unfold ofArgument at h
  split at h
  · cases h
  · next chars =>
    exact .inr (.inr (by simp [chars, of_ofName_attached h]))
  · next chars =>
    rcases of_ofLetter_attached h with joined | equals
    · exact .inl (by simp [chars, joined])
    · exact .inr (.inl (by simp [chars, equals]))
  · cases h

/-! ## From the spelling to the shape -/

theorem ofArgument_letterApart (setting : Setting) :
    ofArgument ("-" ++ setting.letter) = .awaiting setting := by
  cases setting <;> rfl

theorem ofLetter_joined {first : Char} (known : Setting.ofLetter? letter = some setting)
    (free : first ≠ '=') :
    ofLetter letter (first :: rest) = .attached setting (first :: rest) := by
  have not_help : letter ≠ 'h' := by
    rintro rfl
    cases known
  unfold ofLetter
  rw [if_neg not_help, known]
  split
  · next unknown => cases unknown
  · next no_value => cases no_value
  · next marked =>
    cases marked
    exact absurd rfl free
  · next same _ _ =>
    cases same
    rfl

theorem ofArgument_letterJoined (setting : Setting) {value : String} {first : Char}
    (starts : value.toList = first :: rest) (free : first ≠ '=') :
    ofArgument ("-" ++ setting.letter ++ value) = .attached setting value.toList := by
  cases setting with
  | bufferSize =>
    have known : Setting.ofLetter? 'b' = some .bufferSize := rfl
    simp [ofArgument, Setting.letter, starts, ofLetter_joined known free]
  | rounds =>
    have known : Setting.ofLetter? 'r' = some .rounds := rfl
    simp [ofArgument, Setting.letter, starts, ofLetter_joined known free]

theorem ofArgument_letterEquals (setting : Setting) (value : String) :
    ofArgument ("-" ++ setting.letter ++ "=" ++ value) = .attached setting value.toList := by
  cases setting with
  | bufferSize => simp [ofArgument, Setting.letter, ofLetter, Setting.ofLetter?]
  | rounds => simp [ofArgument, Setting.letter, ofLetter, Setting.ofLetter?]

theorem ofArgument_nameApart (setting : Setting) :
    ofArgument ("--" ++ setting.name) = .awaiting setting := by
  cases setting with
  | bufferSize => simp [ofArgument, Setting.name, ofName, Setting.ofName?]
  | rounds => simp [ofArgument, Setting.name, ofName, Setting.ofName?]

theorem ofArgument_nameEquals (setting : Setting) (value : String) :
    ofArgument ("--" ++ setting.name ++ "=" ++ value) = .attached setting value.toList := by
  cases setting with
  | bufferSize => simp [ofArgument, Setting.name, ofName, Setting.ofName?]
  | rounds => simp [ofArgument, Setting.name, ofName, Setting.ofName?]

end Shape

end CapturePace
