/-
# The grammar of command lines

A command line is a row of items, files and options with their values, and
maybe two dashes with more files behind them. It is well formed if no option is
given twice and there is a file, and `CommandLine` carries these facts with
it. `Command.parse` accepts exactly what such a command line writes, and asks
for what it says.

Each item makes one word, whatever follows it (`Word.ofArguments_item`), and
arguments that are cut into words that can be carried out are written by items
(`Word.itemized_of_sound`): there the induction is along the cuts, since the
value of an option may be the next argument. What is left is to carry out the
words of items. An option has room in a draft if it was not given before, so
the values in the draft and those still to come are counted together
(`Draft.numbers`); that makes the induction on the items go through from any
draft.

Key definitions: `Setting.Value`, `Item`, `CommandLine`, `Spelling.Takes`, `Draft.numbers`.
Key theorems: `Word.ofArguments_items`, `Word.itemized_of_sound`, `Draft.carryOut_items`,
`Command.parse_grammar`.
-/
import CapturePace.Proofs.Numerals
import CapturePace.Proofs.Spellings
import CapturePace.Arguments.Command

namespace CapturePace

/-! ## Command lines, well formed by construction -/

/-- A value that an option takes: a numeral for a number of its range. -/
structure Setting.Value (setting : Setting) where
  text : String
  number : Nat
  numeral : Numeral text.toList number
  positive : 1 ≤ number
  within : number ≤ setting.limit

/-- What a command line is made of, in any order. -/
inductive Item where
  /-- A file. Its name is a dash or does not start with one. -/
  | file (name : String) (named : name ≠ "") (free : name = "-" ∨ name.toList.head? ≠ some '-')
  | option (setting : Setting) (spelling : Spelling) (value : setting.Value)

namespace Item

/-- The arguments that an item is written with. -/
def write : Item → List String
  | .file name _ _ => [name]
  | .option setting spelling value => spelling.write setting value.text

/-- The file that the item names. -/
def file? : Item → Option String
  | .file name _ _ => some name
  | .option .. => none

/-- The number that the item gives an option. -/
def number? (setting : Setting) : Item → Option Nat
  | .file .. => none
  | .option own _ value => if own = setting then some value.number else none

end Item

/-- A well-formed command line. -/
structure CommandLine where
  items : List Item
  /-- The files behind two dashes, if there are two dashes. -/
  behind? : Option (List String)
  /-- No option is given twice. -/
  once : ∀ setting, (items.filterMap (Item.number? setting)).length ≤ 1
  named : ∀ names ∈ behind?, ∀ name ∈ names, name ≠ ""
  some_file : items.filterMap Item.file? ++ behind?.getD [] ≠ []

namespace CommandLine

/-- Two dashes and the files behind them. -/
def writeBehind : Option (List String) → List String
  | none => []
  | some names => "--" :: names

/-- The arguments that a command line is written with. -/
def write (line : CommandLine) : List String :=
  line.items.flatMap Item.write ++ writeBehind line.behind?

/-- The value of an option, by default `default`. -/
def value (line : CommandLine) (setting : Setting) (default : Nat) : Nat :=
  (line.items.filterMap (Item.number? setting)).head?.getD default

/-- What a command line asks for. -/
def command (line : CommandLine) : Command :=
  { settings := ⟨line.value .bufferSize 65536, line.value .rounds 1⟩
    files := line.items.filterMap Item.file? ++ line.behind?.getD [] }

end CommandLine

/-! ## Arguments and the words that they are cut into -/

namespace Setting.Value

variable {setting : Setting} (value : setting.Value)

/-- A text that is read as a number of the range. -/
def ofText (text : String) {number : Nat} (read : readNumber? setting.limit text.toList = some number) :
    setting.Value :=
  ⟨text, number, (readNumber?_eq_some_iff.1 read).1, (readNumber?_eq_some_iff.1 read).2.1,
    (readNumber?_eq_some_iff.1 read).2.2⟩

theorem read : readNumber? setting.limit value.text.toList = some value.number :=
  readNumber?_eq_some_iff.2 ⟨value.numeral, value.positive, value.within⟩

/-- A value does not look like an option. -/
theorem plain : Shape.ofArgument value.text = .plain := by
  obtain ⟨first, rest, starts, allowed⟩ := value.numeral.head
  refine Shape.ofArgument_eq_plain_iff.2 (.inr ?_)
  rw [starts]
  rintro ⟨⟩
  exact absurd allowed (by decide)

end Setting.Value

/-- Whether the value is an argument of its own. -/
def Spelling.apart : Spelling → Bool
  | .letterApart | .nameApart => true
  | .letterJoined | .letterEquals | .nameEquals => false

/-- Whether the spelling gives an option the whole text. Right behind a letter
the empty text is no value, and an equals sign is no part of it. -/
def Spelling.Takes (text : String) : Spelling → Prop
  | .letterJoined => ∃ first rest, text.toList = first :: rest ∧ first ≠ '='
  | _ => True

theorem Setting.Value.takes {setting : Setting} (value : setting.Value) (spelling : Spelling) :
    spelling.Takes value.text := by
  cases spelling with
  | letterJoined =>
    obtain ⟨first, rest, starts, allowed⟩ := value.numeral.head
    refine ⟨first, rest, starts, ?_⟩
    rintro rfl
    exact absurd allowed (by decide)
  | letterApart | letterEquals | nameApart | nameEquals => exact trivial

/-- The word that an option and its value make. -/
def Spelling.word (setting : Setting) (value : List Char) : Spelling → Word
  | .letterApart | .nameApart => .separate setting value
  | .letterJoined | .letterEquals | .nameEquals => .attached setting value

/-- The word that an item makes. -/
def Item.word : Item → Word
  | .file name _ _ => .file name
  | .option setting spelling value => spelling.word setting value.text.toList

namespace Word

variable {arguments : List String}

theorem ofArguments_attached {argument : String} {setting : Setting} {value : List Char}
    (shape : Shape.ofArgument argument = .attached setting value) :
    ofArguments (argument :: arguments) = .attached setting value :: ofArguments arguments := by
  rw [ofArguments, shape]

theorem ofArguments_separate {argument next : String} {setting : Setting}
    (shape : Shape.ofArgument argument = .awaiting setting) (plain : Shape.ofArgument next = .plain) :
    ofArguments (argument :: next :: arguments) =
      .separate setting next.toList :: ofArguments arguments := by
  rw [ofArguments, shape]
  dsimp only
  rw [plain]

/-- An option and a text make one word. A text in an argument of its own may not look
like an option. -/
theorem ofArguments_spelling {setting : Setting} {spelling : Spelling} {text : String}
    (takes : spelling.Takes text) (plain : spelling.apart = true → Shape.ofArgument text = .plain) :
    ofArguments (spelling.write setting text ++ arguments) =
      spelling.word setting text.toList :: ofArguments arguments := by
  cases spelling with
  | letterApart => exact ofArguments_separate (Shape.ofArgument_letterApart setting) (plain rfl)
  | letterJoined =>
    obtain ⟨first, rest, starts, free⟩ := takes
    exact ofArguments_attached (Shape.ofArgument_letterJoined setting starts free)
  | letterEquals => exact ofArguments_attached (Shape.ofArgument_letterEquals setting text)
  | nameApart => exact ofArguments_separate (Shape.ofArgument_nameApart setting) (plain rfl)
  | nameEquals => exact ofArguments_attached (Shape.ofArgument_nameEquals setting text)

/-- The arguments of an item make one word, whatever follows. -/
theorem ofArguments_item (item : Item) :
    ofArguments (item.write ++ arguments) = item.word :: ofArguments arguments := by
  cases item with
  | file name named free =>
    have plain := Shape.ofArgument_eq_plain_iff.2 free
    rw [Item.write, List.singleton_append, ofArguments, plain, Item.word]
  | option setting spelling value =>
    exact ofArguments_spelling (value.takes spelling) fun _ => value.plain

/-- Items in a row make a word each, whatever follows. -/
theorem ofArguments_append (items : List Item) (arguments : List String) :
    ofArguments (items.flatMap Item.write ++ arguments) = items.map Item.word ++ ofArguments arguments := by
  induction items with
  | nil => rfl
  | cons item items ih =>
    rw [List.flatMap_cons, List.append_assoc, ofArguments_item, ih, List.map_cons, List.cons_append]

/-- The words of items in a row, and of the files behind two dashes. -/
theorem ofArguments_items (items : List Item) (behind? : Option (List String)) :
    ofArguments (items.flatMap Item.write ++ CommandLine.writeBehind behind?) =
      items.map Item.word ++ (behind?.getD []).map .file := by
  rw [ofArguments_append]
  cases behind? with
  | none => rfl
  | some names =>
    have shape : Shape.ofArgument "--" = .terminator := rfl
    simp only [CommandLine.writeBehind, ofArguments, shape, Option.getD_some]

/-- Whether the word can be carried out on some draft. -/
def Sound : Word → Prop
  | .file name => name ≠ ""
  | .attached setting value => ∃ number, readNumber? setting.limit value = some number
  | .separate setting value => ∃ number, readNumber? setting.limit value = some number
  | .bare _ => False
  | .help => False
  | .fault _ => False

end Word

/-- Arguments that items write, with the files behind two dashes. -/
def Itemized (arguments : List String) : Prop :=
  ∃ items behind?, arguments = List.flatMap Item.write items ++ CommandLine.writeBehind behind? ∧
    ∀ names ∈ behind?, ∀ name ∈ names, name ≠ ""

theorem Itemized.cons {arguments : List String} (itemized : Itemized arguments) (item : Item) :
    Itemized (item.write ++ arguments) := by
  obtain ⟨items, behind?, rfl, named⟩ := itemized
  exact ⟨item :: items, behind?, by rw [List.flatMap_cons, List.append_assoc], named⟩

theorem Setting.exists_value {setting : Setting} {cs : List Char} {number : Nat}
    (read : CapturePace.readNumber? setting.limit cs = some number) :
    ∃ value : setting.Value, value.text = String.ofList cs :=
  ⟨.ofText (String.ofList cs) (by rwa [String.toList_ofList]), rfl⟩

theorem Itemized.option {rest written : List String} {setting : Setting} (itemized : Itemized rest)
    (spelling : Spelling) (value : setting.Value) (spelled : spelling.write setting value.text = written) :
    Itemized (written ++ rest) := by
  have whole := itemized.cons (.option setting spelling value)
  rwa [Item.write, spelled] at whole

/-- Arguments are written by items if all the words that they are cut into can
be carried out. -/
theorem Word.itemized_of_sound {arguments : List String}
    (sound : ∀ word ∈ ofArguments arguments, word.Sound) : Itemized arguments := by
  fun_induction ofArguments arguments with
  | case1 => exact ⟨[], none, rfl, by simp⟩
  | case2 argument rest shape =>
    refine ⟨[], some rest, by rw [Shape.of_terminator shape]; rfl, ?_⟩
    rintro names ⟨⟩ name mem
    exact sound (.file name) (List.mem_map_of_mem mem)
  | case3 argument rest shape ih =>
    rw [List.forall_mem_cons] at sound
    obtain ⟨named, sound⟩ := sound
    exact (ih sound).cons (.file argument named (Shape.ofArgument_eq_plain_iff.1 shape))
  | case4 argument rest setting cs shape ih =>
    rw [List.forall_mem_cons] at sound
    obtain ⟨⟨number, read⟩, sound⟩ := sound
    obtain ⟨value, text⟩ := Setting.exists_value read
    change Itemized ([argument] ++ rest)
    rcases Shape.of_attached shape with joined | equals | named
    · exact (ih sound).option .letterJoined value (by rw [joined, text]; rfl)
    · exact (ih sound).option .letterEquals value (by rw [equals, text]; rfl)
    · exact (ih sound).option .nameEquals value (by rw [named, text]; rfl)
  | case5 argument rest shape ih => exact absurd (sound .help List.mem_cons_self) id
  | case6 argument rest cause shape ih => exact absurd (sound (.fault cause) List.mem_cons_self) id
  | case7 argument setting shape => exact absurd (sound (.bare setting) List.mem_cons_self) id
  | case8 argument setting shape next others plain ih =>
    rw [List.forall_mem_cons] at sound
    obtain ⟨⟨number, read⟩, sound⟩ := sound
    obtain ⟨value, text⟩ := Setting.exists_value read
    rw [String.ofList_toList] at text
    change Itemized ([argument, next] ++ others)
    rcases Shape.of_awaiting shape with letter | name
    · exact (ih sound).option .letterApart value (by rw [letter, text]; rfl)
    · exact (ih sound).option .nameApart value (by rw [name, text]; rfl)
  | case9 argument setting shape next others other ih =>
    exact absurd (sound (.bare setting) List.mem_cons_self) id

/-! ## Carrying out items -/

namespace Draft

variable {draft next : Draft} {setting : Setting} {item : Item} {items : List Item}
  {names : List String} {words : List Word} {command : Command}

theorem assign_eq_ok_iff {value : List Char} :
    draft.assign setting value = .ok next ↔
      draft.value? setting = none ∧
        ∃ number, readNumber? setting.limit value = some number ∧ draft.set setting number = next := by
  unfold assign
  cases given : draft.value? setting with
  | some number => simp
  | none =>
    cases read : readNumber? setting.limit value with
    | none => simp
    | some number => simp

theorem sound_of_assign {value : List Char} (assigned : draft.assign setting value = .ok next) :
    ∃ number, readNumber? setting.limit value = some number := by
  obtain ⟨-, number, read, -⟩ := assign_eq_ok_iff.1 assigned
  exact ⟨number, read⟩

/-- The words of a command line that is carried out to its end. -/
theorem sound_of_carryOut (h : draft.carryOut words = .ok command) : ∀ word ∈ words, word.Sound := by
  fun_induction carryOut draft words with
  | case1 => cases h
  | case2 => simp
  | case3 => cases h
  | case4 draft name rest named ih => exact List.forall_mem_cons.2 ⟨named, ih h⟩
  | case5 draft setting value rest next assigned ih =>
    exact List.forall_mem_cons.2 ⟨sound_of_assign assigned, ih h⟩
  | case6 => cases h
  | case7 draft setting value rest next assigned ih =>
    exact List.forall_mem_cons.2 ⟨sound_of_assign assigned, ih h⟩
  | case8 => cases h
  | case9 => cases h
  | case10 => cases h
  | case11 => cases h

/-- The draft after an item. -/
def give (draft : Draft) : Item → Draft
  | .file name _ _ => { draft with files := draft.files ++ [name] }
  | .option setting _ value => draft.set setting value.number

/-- The values that an option is given, in the draft or by an item. -/
def numbers (draft : Draft) (items : List Item) (setting : Setting) : List Nat :=
  (draft.value? setting).toList ++ items.filterMap (Item.number? setting)

/-- The draft after items and files behind two dashes. -/
def extended (draft : Draft) (items : List Item) (names : List String) : Draft :=
  { capacity? := (draft.numbers items .bufferSize).head?
    rounds? := (draft.numbers items .rounds).head?
    files := draft.files ++ (items.filterMap Item.file? ++ names) }

theorem value?_set (own : Setting) (number : Nat) :
    (draft.set own number).value? setting = if own = setting then some number else draft.value? setting := by
  cases own <;> cases setting <;> rfl

theorem files_set (number : Nat) : (draft.set setting number).files = draft.files := by
  cases setting <;> rfl

theorem numbers_empty : ({} : Draft).numbers items setting = items.filterMap (Item.number? setting) := by
  cases setting <;> rfl

theorem numbers_cons : draft.numbers (item :: items) setting =
    draft.numbers [item] setting ++ items.filterMap (Item.number? setting) := by
  rw [numbers, numbers, List.append_assoc, ← List.filterMap_append]
  rfl

theorem numbers_option (own : Setting) (spelling : Spelling) (value : own.Value) :
    draft.numbers (.option own spelling value :: items) setting =
      if own = setting then (draft.value? setting).toList ++ value.number :: items.filterMap (Item.number? setting)
      else draft.numbers items setting := by
  by_cases same : own = setting
  · simp [numbers, Item.number?, same]
  · simp [numbers, Item.number?, same]

theorem numbers_nil_le : (draft.numbers [] setting).length ≤ 1 := by
  cases given : draft.value? setting <;> simp [numbers, given]

/-- An option may be given if it was not given before. -/
theorem numbers_single_le (own : Setting) (spelling : Spelling) (value : own.Value) :
    (∀ setting, (draft.numbers [.option own spelling value] setting).length ≤ 1) ↔
      draft.value? own = none := by
  constructor
  · intro once
    have here := once own
    rw [numbers_option, if_pos rfl] at here
    simpa using here
  · intro free setting
    rw [numbers_option]
    split
    · next same => simp [← same, free]
    · exact numbers_nil_le

theorem numbers_give (free : ∀ setting, (draft.numbers [item] setting).length ≤ 1) :
    (draft.give item).numbers items setting = draft.numbers (item :: items) setting := by
  cases item with
  | file name named free => cases setting <;> rfl
  | option own spelling value =>
    rw [numbers_single_le] at free
    rw [numbers_option, numbers, give, value?_set]
    split
    · next same => simp [← same, free]
    · rfl

theorem extended_give (free : ∀ setting, (draft.numbers [item] setting).length ≤ 1) :
    (draft.give item).extended items names = draft.extended (item :: items) names := by
  have files : (draft.give item).files ++ (items.filterMap Item.file? ++ names) =
      draft.files ++ ((item :: items).filterMap Item.file? ++ names) := by
    cases item with
    | file name named free => simp [give, Item.file?]
    | option own spelling value => rw [give, files_set]; rfl
  rw [extended, extended, numbers_give free, numbers_give free, files]

theorem value?_extended : (draft.extended items names).value? setting = (draft.numbers items setting).head? := by
  cases setting <;> rfl

theorem extended_nil : draft.extended [] [] = draft := by
  cases draft with
  | mk capacity? rounds? files =>
    cases capacity? <;> cases rounds? <;> simp [extended, numbers, value?]

/-- What may be given once in all may be given once by the first item. -/
theorem numbers_first_le (once : ∀ setting, (draft.numbers (item :: items) setting).length ≤ 1) :
    ∀ setting, (draft.numbers [item] setting).length ≤ 1 := by
  intro setting
  have enough := once setting
  rw [numbers_cons, List.length_append] at enough
  exact Nat.le_of_add_right_le enough

theorem carryOut_option {value : List Char} (spelling : Spelling) :
    draft.carryOut (spelling.word setting value :: words) = .ok command ↔
      ∃ next, draft.assign setting value = .ok next ∧ next.carryOut words = .ok command := by
  cases assigned : draft.assign setting value with
  | ok next => cases spelling <;> simp [Spelling.word, carryOut, assigned]
  | error fault => cases spelling <;> simp [Spelling.word, carryOut, assigned]

theorem carryOut_item :
    draft.carryOut (item.word :: words) = .ok command ↔
      (∀ setting, (draft.numbers [item] setting).length ≤ 1) ∧
        (draft.give item).carryOut words = .ok command := by
  cases item with
  | file name named free =>
    rw [Item.word, carryOut, if_neg named]
    exact (and_iff_right fun setting => numbers_nil_le).symm
  | option own spelling value =>
    rw [Item.word, carryOut_option, numbers_single_le]
    simp only [assign_eq_ok_iff, value.read, Option.some.injEq, exists_eq_left']
    constructor
    · rintro ⟨next, ⟨free, rfl⟩, rest⟩
      exact ⟨free, rest⟩
    · rintro ⟨free, rest⟩
      exact ⟨_, ⟨free, rfl⟩, rest⟩

theorem carryOut_files (named : ∀ name ∈ names, name ≠ "") :
    draft.carryOut (names.map .file) = .ok command ↔
      (draft.extended [] names).files ≠ [] ∧ (draft.extended [] names).command = command := by
  induction names generalizing draft with
  | nil =>
    rw [extended_nil, List.map_nil, carryOut]
    split
    · next none => simp [none]
    · next some => simp [some]
  | cons name names ih =>
    rw [List.forall_mem_cons] at named
    have same : { draft with files := draft.files ++ [name] }.extended [] names =
        draft.extended [] (name :: names) := by
      simp [extended, numbers, value?]
    rw [List.map_cons, carryOut, if_neg named.1, ih named.2, same]

theorem carryOut_items (named : ∀ name ∈ names, name ≠ "") :
    draft.carryOut (items.map Item.word ++ names.map .file) = .ok command ↔
      (∀ setting, (draft.numbers items setting).length ≤ 1) ∧
        (draft.extended items names).files ≠ [] ∧ (draft.extended items names).command = command := by
  induction items generalizing draft with
  | nil =>
    rw [List.map_nil, List.nil_append, carryOut_files named]
    exact (and_iff_right fun setting => numbers_nil_le).symm
  | cons item items ih =>
    rw [List.map_cons, List.cons_append, carryOut_item, ih]
    constructor
    · rintro ⟨free, once, rest⟩
      simp only [numbers_give free] at once
      rw [extended_give free] at rest
      exact ⟨once, rest⟩
    · rintro ⟨once, rest⟩
      have free := numbers_first_le once
      simp only [numbers_give free, extended_give free]
      exact ⟨free, once, rest⟩

end Draft

/-- Items and files behind two dashes are carried out if they are a well-formed
command line. -/
theorem CommandLine.parse_items {items : List Item} {behind? : Option (List String)} {command : Command}
    (named : ∀ names ∈ behind?, ∀ name ∈ names, name ≠ "") :
    Command.parse (items.flatMap Item.write ++ writeBehind behind?) = .ok command ↔
      ∃ line : CommandLine, line.items = items ∧ line.behind? = behind? ∧ line.command = command := by
  have all_named : ∀ name ∈ behind?.getD [], name ≠ "" := by
    cases behind? with
    | none => simp
    | some names => exact named names rfl
  rw [Command.parse, Word.ofArguments_items, Draft.carryOut_items all_named]
  simp only [Draft.numbers_empty]
  constructor
  · rintro ⟨once, some_file, rfl⟩
    exact ⟨⟨items, behind?, once, named, some_file⟩, rfl, rfl, rfl⟩
  · rintro ⟨line, rfl, rfl, rfl⟩
    exact ⟨line.once, line.some_file, rfl⟩

theorem Command.parse_eq_ok_iff {arguments : List String} {command : Command} :
    Command.parse arguments = .ok command ↔
      ∃ line : CommandLine, line.write = arguments ∧ line.command = command := by
  constructor
  · intro accepted
    obtain ⟨items, behind?, rfl, named⟩ := Word.itemized_of_sound (Draft.sound_of_carryOut accepted)
    obtain ⟨line, rfl, rfl, asked⟩ := (CommandLine.parse_items named).1 accepted
    exact ⟨line, rfl, asked⟩
  · rintro ⟨line, rfl, asked⟩
    exact (CommandLine.parse_items line.named).2 ⟨line, rfl, rfl, asked⟩

/-- **The arguments that are accepted are those of the grammar.** They ask for what
the command line says that they write, and all other arguments are refused, with
an exit code of zero if help was asked for and of two if not. -/
theorem Command.parse_grammar (arguments : List String) :
    (∀ command, Command.parse arguments = .ok command ↔
      ∃ line : CommandLine, line.write = arguments ∧ line.command = command) ∧
    ((¬ ∃ line : CommandLine, line.write = arguments) →
      ∃ fault, Command.parse arguments = .error fault ∧
        fault.exitCode = if fault = .helpRequested then 0 else 2) := by
  refine ⟨fun command => Command.parse_eq_ok_iff, fun no_line => ?_⟩
  cases parsed : Command.parse arguments with
  | ok command =>
    obtain ⟨line, written, -⟩ := Command.parse_eq_ok_iff.1 parsed
    exact absurd ⟨line, written⟩ no_line
  | error fault =>
    refine ⟨fault, rfl, ?_⟩
    cases fault <;> rfl

example : Command.parse ["-b+007", "-", "--rounds", "2", "--", "-x"] = .ok ⟨⟨7, 2⟩, ["-", "-x"]⟩ :=
  rfl

end CapturePace
