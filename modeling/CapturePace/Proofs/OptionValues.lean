/-
# The values of options are read exactly

An option takes a numeral for a number of its range, in whatever spelling and
wherever it stands on the command line, and then has that number as its value
(`Command.parse_value`). All other texts are refused. In the argument of its
option such a text is the first fault, whatever comes behind it. As an argument
of its own it may be outweighed by what comes next, or be taken for an option
itself.

A reader with a register for the number so far has to give up as soon as it
overflows. It does not refuse too much: the number only grows with further
digits, and in front of the first digit that counts it stays zero. So a register
that holds the range is as good as one without a bound (`readNumber?_eq_register`).

On the command line the items in front are carried out first, on a draft that
has no value for the option yet (`Draft.carryOut_front`). What is accepted has
only sound words, so the text in the place of the value was read
(`Word.read_of_sound`), and with a value that can be read the command line is one
of the grammar (`Vacancy.withValue`).

Key definitions: `readRegister?`, `Vacancy`, `Vacancy.fill`.
Key theorems: `readNumber?_eq_register`, `Vacancy.parse_eq_ok_iff`,
`Vacancy.parse_joined`, `Command.parse_value`.
-/
import CapturePace.Proofs.Grammar

namespace CapturePace

/-! ## Numerals -/

section Numerals

variable {cs : List Char} {number number' : Nat}

theorem Digits.unique (written : Digits cs number) (written' : Digits cs number') : number = number' :=
  written.value.symm.trans written'.value

/-- A numeral writes one number. -/
theorem Numeral.unique (numeral : Numeral cs number) (numeral' : Numeral cs number') :
    number = number' := by
  obtain ⟨digits, written, rfl | rfl⟩ := numeral
  · obtain ⟨digits', written', rfl | rfl⟩ := numeral'
    · exact written.unique written'
    · exact absurd written Digits.not_signed
  · exact written.unique (numeral_signed_iff.1 numeral')

theorem ofDigitChars_zeros (zeros : Nat) :
    Nat.ofDigitChars 10 (List.replicate zeros '0' ++ cs) 0 = Nat.ofDigitChars 10 cs 0 := by
  induction zeros with
  | zero => rfl
  | succ zeros ih =>
    rw [List.replicate_succ, List.cons_append, Nat.ofDigitChars_cons]
    exact ih

/-- Zeros in front change nothing. -/
theorem Digits.zeros (zeros : Nat) (written : Digits cs number) :
    Digits (List.replicate zeros '0' ++ cs) number where
  nonempty := List.append_ne_nil_of_right_ne_nil _ written.nonempty
  digits c mem := by
    rcases List.mem_append.1 mem with zero | digit
    · rw [List.eq_of_mem_replicate zero]
      decide
    · exact written.digits c digit
  value := by rw [ofDigitChars_zeros, written.value]

end Numerals

/-! ## A register for the number so far -/

/-- The number that continues `value` with the digits `cs`, in a register for
numbers up to `room`. Neither the product nor the sum may be larger. -/
def readChecked? (room value : Nat) : List Char → Option Nat
  | [] => some value
  | c :: cs =>
    let shifted := 10 * value
    let next := shifted + (c.toNat - '0'.toNat)
    if c.isDigit ∧ shifted ≤ room ∧ next ≤ room then readChecked? room next cs else none

/-- A number in a register for numbers up to `room`, with a plus sign in front or not. -/
def readRegister? (room : Nat) (cs : List Char) : Option Nat :=
  let digits := match cs with
    | '+' :: digits => digits
    | digits => digits
  if digits = [] then none else readChecked? room 0 digits

section Register

variable {room limit value number : Nat} {cs : List Char}

/-- Further digits do not make a number smaller. -/
theorem le_of_readDigits? (read : readDigits? value cs = some number) : value ≤ number := by
  induction cs generalizing value with
  | nil =>
    cases read
    exact le_rfl
  | cons c cs ih =>
    rw [readDigits?] at read
    split at read
    · have further := ih read
      omega
    · cases read

theorem readChecked?_eq (fits : value ≤ room) :
    readChecked? room value cs = (readDigits? value cs).filter (· ≤ room) := by
  induction cs generalizing value with
  | nil =>
    rw [readChecked?, readDigits?, Option.filter_some_pos]
    exact decide_eq_true fits
  | cons c cs ih =>
    rw [readChecked?, readDigits?]
    by_cases digit : c.isDigit
    · rw [if_pos digit]
      by_cases holds : 10 * value + (c.toNat - '0'.toNat) ≤ room
      · have shifted : 10 * value ≤ room := Nat.le_of_add_right_le holds
        rw [if_pos ⟨digit, shifted, holds⟩, ih holds]
      · rw [if_neg fun h => holds h.2.2, eq_comm, Option.filter_eq_none_iff]
        intro number read small
        have grown := le_of_readDigits? read
        rw [decide_eq_true_iff] at small
        omega
    · rw [if_neg digit, if_neg fun h => digit h.1, Option.filter_none]

theorem readUnsigned?_filter :
    (if cs = [] then none else readChecked? room 0 cs) = (readUnsigned? cs).filter (· ≤ room) := by
  cases cs with
  | nil => rfl
  | cons c cs =>
    rw [if_neg (List.cons_ne_nil c cs), readChecked?_eq (Nat.zero_le room)]
    rfl

/-- A register that holds the range of an option reads the same numbers, and what
overflows it is no number of the range. -/
theorem readNumber?_eq_register (wide : limit ≤ room) :
    readNumber? limit cs = (readRegister? room cs).filter fun n => 1 ≤ n && n ≤ limit := by
  have within n : (decide (n ≤ room) && (decide (1 ≤ n) && decide (n ≤ limit))) =
      (decide (1 ≤ n) && decide (n ≤ limit)) := by
    rw [Bool.eq_iff_iff]
    simp only [Bool.and_eq_true, decide_eq_true_iff]
    omega
  unfold readNumber? readRegister?
  split
  · rw [readUnsigned?_filter, Option.filter_filter]
    simp only [within]
  · rw [readUnsigned?_filter, Option.filter_filter]
    simp only [within]

end Register

/-! ## Options with any text for a value -/

namespace Spelling

variable {setting : Setting} {spelling : Spelling}

theorem write_of_apart (apart : spelling.apart = true) (text : String) :
    ∃ argument, spelling.write setting text = [argument, text] ∧
      Shape.ofArgument argument = .awaiting setting := by
  cases spelling with
  | letterApart => exact ⟨_, rfl, Shape.ofArgument_letterApart setting⟩
  | nameApart => exact ⟨_, rfl, Shape.ofArgument_nameApart setting⟩
  | letterJoined | letterEquals | nameEquals => cases apart

theorem word_of_joined (joined : spelling.apart = false) (value : List Char) :
    spelling.word setting value = .attached setting value := by
  cases spelling with
  | letterApart | nameApart => cases joined
  | letterJoined | letterEquals | nameEquals => rfl

theorem sound_word {value : List Char} : (spelling.word setting value).Sound ↔
    ∃ number, readNumber? setting.limit value = some number := by
  cases spelling <;> exact Iff.rfl

end Spelling

namespace Word

variable {setting : Setting} {spelling : Spelling} {text : String} {rest : List String}

theorem ofArguments_bare {argument next : String} (shape : Shape.ofArgument argument = .awaiting setting)
    (no_value : Shape.ofArgument next ≠ .plain) :
    ofArguments (argument :: next :: rest) = .bare setting :: ofArguments (next :: rest) := by
  rw [ofArguments, shape]
  dsimp only
  split
  · next plain => exact absurd plain no_value
  · rfl

/-- What stands in the place of a value can be read if all words can be carried out. -/
theorem read_of_sound (takes : spelling.Takes text)
    (sound : ∀ word ∈ ofArguments (spelling.write setting text ++ rest), word.Sound) :
    ∃ number, readNumber? setting.limit text.toList = some number := by
  by_cases plain : spelling.apart = true → Shape.ofArgument text = .plain
  · rw [ofArguments_spelling takes plain, List.forall_mem_cons] at sound
    exact Spelling.sound_word.1 sound.1
  · -- The text is not taken for a value, so the option is left without one.
    obtain ⟨apart, other⟩ := Classical.not_imp.1 plain
    obtain ⟨argument, written, shape⟩ := Spelling.write_of_apart apart text
    rw [written] at sound
    change ∀ word ∈ ofArguments (argument :: text :: rest), word.Sound at sound
    rw [ofArguments_bare shape other, List.forall_mem_cons] at sound
    exact sound.1.elim

end Word

namespace Draft

variable {draft : Draft} {item : Item} {items : List Item} {words : List Word}

/-- An item that may be given is carried out, whatever follows. -/
theorem carryOut_give (free : ∀ setting, (draft.numbers [item] setting).length ≤ 1) :
    draft.carryOut (item.word :: words) = (draft.give item).carryOut words := by
  cases item with
  | file name named _ => rw [Item.word, carryOut, if_neg named, give]
  | option own spelling value =>
    rw [numbers_single_le] at free
    have assigned : draft.assign own value.text.toList = .ok (draft.set own value.number) :=
      assign_eq_ok_iff.2 ⟨free, value.number, value.read, rfl⟩
    cases spelling <;> simp only [Item.word, Spelling.word, carryOut, assigned, give]

/-- Items in front of anything are carried out if no option is given twice. -/
theorem carryOut_front (once : ∀ setting, (draft.numbers items setting).length ≤ 1) :
    draft.carryOut (items.map Item.word ++ words) = (draft.extended items []).carryOut words := by
  induction items generalizing draft with
  | nil => rw [extended_nil, List.map_nil, List.nil_append]
  | cons item items ih =>
    have free := numbers_first_le once
    simp only [← numbers_give free] at once
    rw [List.map_cons, List.cons_append, carryOut_give free, ih once, extended_give free]

end Draft

/-! ## A place on the command line -/

/-- What a command asks for with `number` as the value of an option. -/
def Command.give (command : Command) (number : Nat) : Setting → Command
  | .bufferSize => { command with settings := ⟨number, command.settings.rounds⟩ }
  | .rounds => { command with settings := ⟨command.settings.capacity, number⟩ }

/-- A command line that does not give an option, and a place in it. -/
structure Vacancy (setting : Setting) where
  line : CommandLine
  before : List Item
  after : List Item
  cut : line.items = before ++ after
  free : line.items.filterMap (Item.number? setting) = []

namespace Vacancy

variable {setting : Setting} {text : String} {spelling : Spelling} (place : Vacancy setting)

/-- The arguments, with `written` in the place. -/
def fill (written : List String) : List String :=
  place.before.flatMap Item.write ++
    (written ++ (place.after.flatMap Item.write ++ CommandLine.writeBehind place.line.behind?))

/-- What the command line asks for, with `number` as the value of the option. -/
def command (number : Nat) : Command :=
  place.line.command.give number setting

theorem numbers_cut (other : Setting) :
    place.line.items.filterMap (Item.number? other) =
      place.before.filterMap (Item.number? other) ++ place.after.filterMap (Item.number? other) := by
  rw [place.cut, List.filterMap_append]

theorem free_before : place.before.filterMap (Item.number? setting) = [] :=
  (List.append_eq_nil_iff.1 ((place.numbers_cut setting).symm.trans place.free)).1

theorem free_after : place.after.filterMap (Item.number? setting) = [] :=
  (List.append_eq_nil_iff.1 ((place.numbers_cut setting).symm.trans place.free)).2

theorem once_before (other : Setting) : (place.before.filterMap (Item.number? other)).length ≤ 1 := by
  have once := place.line.once other
  rw [numbers_cut, List.length_append] at once
  exact Nat.le_of_add_right_le once

/-- The items, with the option in the place. -/
def items (spelling : Spelling) (value : setting.Value) : List Item :=
  place.before ++ .option setting spelling value :: place.after

theorem numbers_items (value : setting.Value) (other : Setting) :
    (place.items spelling value).filterMap (Item.number? other) =
      if other = setting then [value.number] else place.line.items.filterMap (Item.number? other) := by
  rw [items, List.filterMap_append]
  split
  · next same =>
    subst same
    have given : Item.number? other (.option other spelling value) = some value.number := if_pos rfl
    rw [place.free_before, List.nil_append, List.filterMap_cons_some given, place.free_after]
  · next other_setting =>
    have skipped : Item.number? other (.option setting spelling value) = none :=
      if_neg fun same => other_setting same.symm
    rw [List.filterMap_cons_none skipped, place.numbers_cut]

theorem files_items (value : setting.Value) :
    (place.items spelling value).filterMap Item.file? = place.line.items.filterMap Item.file? := by
  rw [items, place.cut, List.filterMap_append, List.filterMap_append, List.filterMap_cons_none (by rfl)]

/-- The command line with the option in the place. -/
def withValue (spelling : Spelling) (value : setting.Value) : CommandLine where
  items := place.items spelling value
  behind? := place.line.behind?
  once other := by
    rw [numbers_items]
    split
    · exact le_rfl
    · exact place.line.once other
  named := place.line.named
  some_file := by
    rw [files_items]
    exact place.line.some_file

theorem write_withValue (value : setting.Value) :
    (place.withValue spelling value).write = place.fill (spelling.write setting value.text) := by
  unfold CommandLine.write fill withValue items
  rw [List.flatMap_append, List.flatMap_cons, Item.write, List.append_assoc, List.append_assoc]

theorem command_withValue (value : setting.Value) :
    (place.withValue spelling value).command = place.command value.number := by
  have asked other default : (place.withValue spelling value).value other default =
      if other = setting then value.number else place.line.value other default := by
    rw [CommandLine.value, CommandLine.value, withValue, numbers_items]
    split <;> rfl
  have files : (place.withValue spelling value).items.filterMap Item.file? =
      place.line.items.filterMap Item.file? := place.files_items value
  rw [CommandLine.command, asked, asked, files, command, CommandLine.command]
  cases setting <;> rfl

/-- **A value is accepted wherever the option may stand**, if it is a numeral for a
number of the range, and that number is what is asked for. -/
theorem parse_eq_ok_iff (takes : spelling.Takes text) {command : Command} :
    Command.parse (place.fill (spelling.write setting text)) = .ok command ↔
      ∃ number, readNumber? setting.limit text.toList = some number ∧ place.command number = command := by
  have accepted {number : Nat} (read : readNumber? setting.limit text.toList = some number) :
      Command.parse (place.fill (spelling.write setting text)) = .ok (place.command number) := by
    exact Command.parse_eq_ok_iff.2 ⟨place.withValue spelling (.ofText text read),
      place.write_withValue (.ofText text read), place.command_withValue (.ofText text read)⟩
  constructor
  · intro parsed
    have sound := Draft.sound_of_carryOut parsed
    rw [fill, Word.ofArguments_append] at sound
    obtain ⟨number, read⟩ := Word.read_of_sound takes (List.forall_mem_append.1 sound).2
    exact ⟨number, read, Except.ok.inj ((accepted read).symm.trans parsed)⟩
  · rintro ⟨number, read, rfl⟩
    exact accepted read

/-- **A text that is no number of the range is the first fault** if it stands in
the argument of its option. -/
theorem parse_joined (takes : spelling.Takes text) (joined : spelling.apart = false)
    (no_number : readNumber? setting.limit text.toList = none) (rest : List String) :
    Command.parse (place.before.flatMap Item.write ++ (spelling.write setting text ++ rest)) =
      .error .badNumber := by
  have once other : (({} : Draft).numbers place.before other).length ≤ 1 := by
    rw [Draft.numbers_empty]
    exact place.once_before other
  have free : (({} : Draft).extended place.before []).value? setting = none := by
    rw [Draft.value?_extended, Draft.numbers_empty, place.free_before, List.head?_nil]
  have refused : (({} : Draft).extended place.before []).assign setting text.toList = .error .badNumber := by
    rw [Draft.assign, free, no_number]
    rfl
  have word : Word.ofArguments (spelling.write setting text ++ rest) =
      .attached setting text.toList :: Word.ofArguments rest := by
    rw [← Spelling.word_of_joined joined]
    refine Word.ofArguments_spelling takes fun apart => ?_
    rw [joined] at apart
    cases apart
  rw [Command.parse, Word.ofArguments_append, word, Draft.carryOut_front once, Draft.carryOut, refused]

end Vacancy

/-- **The numbers of options are read exactly.** The value of an option, in any spelling
and at any place of a command line, is accepted if and only if it is a numeral
for a number from one to the limit of the option, and that number is then the
value. A numeral writes one number, and zeros in front do not change it. No
unbounded numbers are needed to read it: any register that holds the range will do. Any
other text in the argument of its option is refused for what it is, whatever
follows. -/
theorem Command.parse_value (setting : Setting) (text : String) :
    (Setting.rounds.limit = 2 ^ 32 - 1 ∧ Setting.bufferSize.limit = 2 ^ 64 - 1) ∧
    (∀ (place : Vacancy setting) (spelling : Spelling), spelling.Takes text → ∀ command,
      Command.parse (place.fill (spelling.write setting text)) = .ok command ↔
        ∃ number, Numeral text.toList number ∧ (1 ≤ number ∧ number ≤ setting.limit) ∧
          place.command number = command) ∧
    (∀ number number', Numeral text.toList number → Numeral text.toList number' → number = number') ∧
    (∀ zeros number, Digits text.toList number →
      Numeral (List.replicate zeros '0' ++ text.toList) number ∧
      Numeral ('+' :: (List.replicate zeros '0' ++ text.toList)) number) ∧
    (∀ room, setting.limit ≤ room → ∀ number,
      (readRegister? room text.toList = some number ∧ 1 ≤ number ∧ number ≤ setting.limit) ↔
        Numeral text.toList number ∧ 1 ≤ number ∧ number ≤ setting.limit) ∧
    (∀ (place : Vacancy setting) (spelling : Spelling), spelling.Takes text → spelling.apart = false →
      (¬ ∃ number, Numeral text.toList number ∧ 1 ≤ number ∧ number ≤ setting.limit) → ∀ rest,
        Command.parse (place.before.flatMap Item.write ++ (spelling.write setting text ++ rest)) =
          .error .badNumber) := by
  refine ⟨by decide, ?accepted, ?one_number, ?zeros, ?register, ?refused⟩
  case accepted =>
    intro place spelling takes command
    simp only [place.parse_eq_ok_iff takes, readNumber?_eq_some_iff, and_assoc]
  case one_number =>
    exact fun number number' numeral numeral' => numeral.unique numeral'
  case zeros =>
    intro zeros number written
    exact ⟨⟨_, written.zeros zeros, .inl rfl⟩, ⟨_, written.zeros zeros, .inr rfl⟩⟩
  case register =>
    intro room wide number
    rw [← readNumber?_eq_some_iff, readNumber?_eq_register wide, Option.filter_eq_some_iff,
      Bool.and_eq_true, decide_eq_true_iff, decide_eq_true_iff]
  case refused =>
    intro place spelling takes joined no_number rest
    refine place.parse_joined takes joined ?_ rest
    rw [Option.eq_none_iff_forall_ne_some]
    intro number read
    exact no_number ⟨number, readNumber?_eq_some_iff.1 read⟩

/-- The place for rounds between a window of seven bytes and a file. -/
def Vacancy.behindWindow : Vacancy .rounds where
  line :=
    { items := [.option .bufferSize .nameApart (.ofText "007" rfl), .file "x" (by decide) (.inr (by decide))]
      behind? := none
      once setting := by cases setting <;> decide
      named := nofun
      some_file := by decide }
  before := [.option .bufferSize .nameApart (.ofText "007" rfl)]
  after := [.file "x" (by decide) (.inr (by decide))]
  cut := rfl
  free := rfl

/-- The largest number of rounds is read in that place, and the one behind it refused. -/
theorem parse_rounds_behindWindow :
    Spelling.Takes "+0004294967295" .letterJoined ∧ Spelling.Takes "0004294967296" .letterJoined ∧
      Command.parse ["--buffer-size", "007", "-r+0004294967295", "x"] = .ok ⟨⟨7, 4294967295⟩, ["x"]⟩ ∧
      Command.parse ["--buffer-size", "007", "-r0004294967296", "--help"] = .error .badNumber := by
  obtain ⟨-, accepted, -⟩ := Command.parse_value .rounds "+0004294967295"
  obtain ⟨-, -, -, -, -, refused⟩ := Command.parse_value .rounds "0004294967296"
  have largest : readNumber? Setting.rounds.limit "+0004294967295".toList = some 4294967295 := rfl
  have behind : readNumber? Setting.rounds.limit "0004294967296".toList = none := rfl
  have signed : Spelling.Takes "+0004294967295" .letterJoined :=
    ⟨'+', "0004294967295".toList, rfl, by decide⟩
  have padded : Spelling.Takes "0004294967296" .letterJoined :=
    ⟨'0', "004294967296".toList, rfl, by decide⟩
  refine ⟨signed, padded, ?_, ?_⟩
  · obtain ⟨numeral, range⟩ := readNumber?_eq_some_iff.1 largest
    exact (accepted .behindWindow .letterJoined signed _).2 ⟨_, numeral, range, rfl⟩
  · refine refused .behindWindow .letterJoined padded rfl ?_ ["--help"]
    rintro ⟨number, read⟩
    rw [readNumber?_eq_some_iff.2 read] at behind
    cases behind

-- Texts without a digit.
example :
    Command.parse ["x", "--buffer-size=", "-r"] = .error .badNumber ∧
      Command.parse ["-b+", "x"] = .error .badNumber :=
  ⟨rfl, rfl⟩

end CapturePace
