/-
# What records hold does not matter

Of a file of records a pass looks at its magic and at the captured length of
each record, and at nothing else. Two captures of the same length that start
with the same magic, and whose records have the same captured lengths
(`RecordLayout.lengths`), have the same verdict through every window and under
every schedule of reads: times, lengths on the wire and the data never show
(`ByteSource.tally_alike`).

Two passes over such captures are alike (`Pass.Alike`): they agree in all but
the bytes themselves, and what they have before them has the same captured
lengths. Alike passes take alike turns (`Pass.Alike.turn`), whichever rule the
turn follows, and so their runs end alike.

Key definitions: `RecordLayout.lengths`, `RecordLayout.Alike`, `Pass.Alike`,
`Turn.Alike`.
Key theorems: `RecordLayout.Alike.parse_eq`, `Pass.Alike.turn`, `Pass.Alike.run`,
`Pass.begin_alike`, `ByteSource.tally_alike`.
-/
import CapturePace.Proofs.RecordFile
import CapturePace.Proofs.Repair

namespace CapturePace
namespace RecordLayout

variable {layout : RecordLayout} {bs bs' front front' rest rest' : List UInt8} {found : Found}

/-- The captured lengths of the records in front. Each is read once its header
is complete, and the next header is looked for behind the data. -/
def lengths (layout : RecordLayout) (bs : List UInt8) : List Nat :=
  if layout.headerSize ≤ bs.length then
    layout.order.field 8 4 bs ::
      layout.lengths (bs.drop (layout.headerSize + layout.order.field 8 4 bs))
  else []
  termination_by bs.length
  decreasing_by
    have header := layout.sixteen_le_headerSize
    rw [List.length_drop]
    omega

theorem lengths_of_le (header : layout.headerSize ≤ bs.length) :
    layout.lengths bs = layout.order.field 8 4 bs ::
      layout.lengths (bs.drop (layout.headerSize + layout.order.field 8 4 bs)) := by
  rw [lengths, if_pos header]

/-! ### What the reader answers

The answer depends on how many bytes there are and, once the header is there,
on the captured length. -/

theorem parse_of_short (short : bs.length < layout.headerSize) :
    layout.parse bs = .error (.incomplete (layout.headerSize - bs.length)) := by
  rw [parse, skip_of_lt short]
  rfl

theorem parse_of_header (header : layout.headerSize ≤ bs.length) :
    layout.parse bs =
      if layout.headerSize + layout.order.field 8 4 bs ≤ bs.length then
        .ok ⟨layout.headerSize + layout.order.field 8 4 bs, .record (layout.order.field 8 4 bs)⟩
      else .error (.incomplete (layout.headerSize + layout.order.field 8 4 bs - bs.length)) := by
  rw [parse, skip_of_le header]
  simp only [bind, Except.bind]
  rw [skip_drop header]
  by_cases data : layout.headerSize + layout.order.field 8 4 bs ≤ bs.length
  · rw [skip_of_le data, if_pos data]
    rfl
  · rw [skip_of_lt (Nat.lt_of_not_le data), if_neg data]

/-- As many bytes, and records of the same captured lengths in them. -/
structure Alike (layout : RecordLayout) (bs bs' : List UInt8) : Prop where
  length_eq : bs.length = bs'.length
  lengths_eq : layout.lengths bs = layout.lengths bs'

namespace Alike

theorem of_header (alike : layout.Alike bs bs') (header : layout.headerSize ≤ bs.length) :
    layout.order.field 8 4 bs = layout.order.field 8 4 bs' ∧
      layout.Alike (bs.drop (layout.headerSize + layout.order.field 8 4 bs))
        (bs'.drop (layout.headerSize + layout.order.field 8 4 bs)) := by
  have header' : layout.headerSize ≤ bs'.length := alike.length_eq ▸ header
  have lengths := alike.lengths_eq
  rw [lengths_of_le header, lengths_of_le header', List.cons.injEq] at lengths
  obtain ⟨captured, behind⟩ := lengths
  refine ⟨captured, ?_, ?_⟩
  · rw [List.length_drop, List.length_drop, alike.length_eq]
  · rw [behind, captured]

/-- **Through windows of the same length the reader gives the same answer.** -/
theorem parse_eq (alike : layout.Alike (front ++ rest) (front' ++ rest'))
    (same : front.length = front'.length) : layout.parse front = layout.parse front' := by
  rcases Nat.lt_or_ge front.length layout.headerSize with short | header
  · rw [parse_of_short short, parse_of_short (same ▸ short), same]
  · have header' : layout.headerSize ≤ front'.length := same ▸ header
    have sixteen := layout.sixteen_le_headerSize
    have all : layout.headerSize ≤ (front ++ rest).length := by
      rw [List.length_append]
      omega
    have captured := (alike.of_header all).1
    rw [ByteOrder.field_append rest (by omega), ByteOrder.field_append rest' (by omega)] at captured
    rw [parse_of_header header, parse_of_header header', captured, same]

/-- What is behind a record that was found is alike again. -/
theorem drop_found (alike : layout.Alike (front ++ rest) bs') (parsed : layout.parse front = .ok found) :
    layout.Alike ((front ++ rest).drop found.size) (bs'.drop found.size) := by
  have fits := parse_fits parsed
  have header : layout.headerSize ≤ front.length := fits.1.trans fits.2
  have sixteen := layout.sixteen_le_headerSize
  have all : layout.headerSize ≤ (front ++ rest).length := by
    rw [List.length_append]
    omega
  have behind := (alike.of_header all).2
  rw [ByteOrder.field_append rest (by omega)] at behind
  rw [parse_of_header header] at parsed
  split at parsed
  · cases parsed
    exact behind
  · cases parsed

end Alike
end RecordLayout

/-- How much a read brings is a matter of the schedule and the room. -/
theorem ByteSource.read?_alike {source source' : ByteSource} (same : source.schedule = source'.schedule)
    (room : Nat) :
    (source.read? room = none ∧ source'.read? room = none) ∨
    ∃ n schedule,
      source.read? room = some (source.bytes.take n, ⟨source.bytes.drop n, schedule⟩) ∧
      source'.read? room = some (source'.bytes.take n, ⟨source'.bytes.drop n, schedule⟩) := by
  unfold read?
  rw [← same]
  cases source.schedule with
  | nil => exact .inr ⟨room, [], rfl, rfl⟩
  | cons step schedule =>
    cases step with
    | upTo limit => exact .inr ⟨min limit room, schedule, rfl, rfl⟩
    | fail => exact .inl ⟨rfl, rfl⟩

theorem isEmpty_eq_of_length {bs bs' : List UInt8} (same : bs.length = bs'.length) :
    bs.isEmpty = bs'.isEmpty := by
  cases bs <;> cases bs' <;> simp_all

namespace Pass

variable {capacity : Nat} {layout : RecordLayout} {pass pass' : Pass} {found : Found}

/-- The bytes in which records are still looked for, read or not. -/
def records (pass : Pass) : List UInt8 :=
  (pass.window ++ pass.source.bytes).drop (if pass.headerDue then fileHeaderSize else 0)

/-- The passes agree in all but the bytes of their windows and sources, and
there the captured lengths are the same. -/
structure Alike (layout : RecordLayout) (pass pass' : Pass) : Prop where
  format : pass.format = .records layout
  format' : pass'.format = .records layout
  due : pass.headerDue = pass'.headerDue
  header : pass.headerDue = true → fileHeaderSize ≤ pass.window.length
  window : pass.window.length = pass'.window.length
  position : pass.position = pass'.position
  exhausted : pass.exhausted = pass'.exhausted
  consumed : pass.consumed = pass'.consumed
  tally : pass.tally = pass'.tally
  schedule : pass.source.schedule = pass'.source.schedule
  records : layout.Alike pass.records pass'.records

theorem take_taken (due : pass.headerDue = false) :
    { pass.take capacity found with headerDue := false } = pass.take capacity found := by
  rw [← due]
  rfl

theorem records_of_due (due : pass.headerDue = true) :
    pass.records = (pass.window ++ pass.source.bytes).drop fileHeaderSize := by
  rw [records, if_pos due]

theorem records_of_taken (due : pass.headerDue = false) :
    pass.records = pass.window ++ pass.source.bytes := by
  rw [records, if_neg (by simp [due])]
  rfl

namespace Alike

theorem due_true (alike : pass.Alike layout pass') (due : pass.headerDue = true) :
    pass'.headerDue = true := alike.due ▸ due

theorem due_false (alike : pass.Alike layout pass') (due : pass.headerDue = false) :
    pass'.headerDue = false := alike.due ▸ due

/-- As many bytes are still to be read. -/
theorem bytes (alike : pass.Alike layout pass') :
    pass.source.bytes.length = pass'.source.bytes.length := by
  have all := alike.records.length_eq
  have window := alike.window
  by_cases due : pass.headerDue = true
  · have header := alike.header due
    rw [records_of_due due, records_of_due (alike.due_true due)] at all
    simp only [List.length_drop, List.length_append] at all
    omega
  · have taken : pass.headerDue = false := by simpa using due
    rw [records_of_taken taken, records_of_taken (alike.due_false taken)] at all
    simp only [List.length_append] at all
    omega

/-- The windows show the reader the same. -/
theorem parse (alike : pass.Alike layout pass') (due : pass.headerDue = false) :
    pass'.format.parse pass'.window = pass.format.parse pass.window := by
  have records := alike.records
  rw [records_of_taken due, records_of_taken (alike.due_false due)] at records
  rw [alike.format, alike.format']
  exact (records.parse_eq alike.window).symm

/-- Passes stay alike when the same is taken off both. -/
theorem take (capacity : Nat) (alike : pass.Alike layout pass') (within : found.size ≤ pass.window.length)
    (behind : layout.Alike ((pass.window ++ pass.source.bytes).drop found.size)
      ((pass'.window ++ pass'.source.bytes).drop found.size)) :
    Alike layout { pass.take capacity found with headerDue := false }
      { pass'.take capacity found with headerDue := false } := by
  have within' : found.size ≤ pass'.window.length := alike.window ▸ within
  rw [List.drop_append_of_le_length within, List.drop_append_of_le_length within'] at behind
  constructor
  case format => simp only [Pass.take, alike.format]; rfl
  case format' => simp only [Pass.take, alike.format']; rfl
  case due => rfl
  case header => intro due; cases due
  case window => simp only [Pass.take, List.length_drop, alike.window]
  case position => simp only [Pass.take, alike.position]
  case exhausted => exact alike.exhausted
  case consumed => simp only [Pass.take, alike.consumed]
  case tally => simp only [Pass.take, alike.tally]
  case schedule => exact alike.schedule
  case records => exact behind

/-- Passes stay alike when both read on. -/
theorem read (alike : pass.Alike layout pass') (due : pass.headerDue = false) (n : Nat)
    (schedule : List ReadStep) :
    Alike layout
      { pass with
        window := pass.window ++ pass.source.bytes.take n, position := 0
        exhausted := (pass.source.bytes.take n).isEmpty
        source := ⟨pass.source.bytes.drop n, schedule⟩ }
      { pass' with
        window := pass'.window ++ pass'.source.bytes.take n, position := 0
        exhausted := (pass'.source.bytes.take n).isEmpty
        source := ⟨pass'.source.bytes.drop n, schedule⟩ } := by
  have got : (pass.source.bytes.take n).length = (pass'.source.bytes.take n).length := by
    rw [List.length_take, List.length_take, alike.bytes]
  have records := alike.records
  rw [records_of_taken due, records_of_taken (alike.due_false due)] at records
  constructor
  case format => exact alike.format
  case format' => exact alike.format'
  case due => exact alike.due
  case header => intro due'; simp [due] at due'
  case window => simp only [List.length_append, alike.window, got]
  case position => rfl
  case exhausted => exact isEmpty_eq_of_length got
  case consumed => exact alike.consumed
  case tally => exact alike.tally
  case schedule => rfl
  case records =>
    rw [records_of_taken (by exact due), records_of_taken (by exact alike.due_false due)]
    simpa only [List.append_assoc, List.take_append_drop] using records

end Alike
end Pass

/-- The turns lead to alike passes, or to the same end. -/
inductive Turn.Alike (layout : RecordLayout) : Turn → Turn → Prop
  | goesOn {next next' : Pass} (alike : next.Alike layout next') :
    Alike layout (.more next) (.more next')
  | ends (result : Except CaptureFault Tally) : Alike layout (.over result) (.over result)

namespace Pass

variable {capacity : Nat} {layout : RecordLayout} {pass pass' : Pass}

/-- **Alike passes take alike turns.** The rule of the one turn is the rule of
the other, since no rule looks at more than the passes agree in. -/
theorem Alike.turn (capacity : Nat) (alike : pass.Alike layout pass') :
    Turn.Alike layout (pass.turn capacity) (pass'.turn capacity) := by
  have rule := turn_rule capacity pass
  generalize pass.turn capacity = turn at rule ⊢
  cases rule with
  | header due =>
    have due' := alike.due_true due
    have records := alike.records
    rw [records_of_due due, records_of_due due'] at records
    rw [(Rule.header due').turn_eq]
    exact .goesOn (alike.take capacity (alike.header due) records)
  | finished due empty start ended =>
    have empty' : pass'.window = [] := by
      rw [← List.length_eq_zero_iff, ← alike.window, empty]
      rfl
    rw [alike.tally, (Rule.finished (alike.due_false due) empty' (alike.position ▸ start)
      (alike.exhausted ▸ ended)).turn_eq]
    exact .ends _
  | @block found due parsed =>
    have due' := alike.due_false due
    have parsed' := (alike.parse due).trans parsed
    have records := alike.records
    rw [records_of_taken due, records_of_taken due'] at records
    have front := parsed
    rw [alike.format] at front
    have next := alike.take capacity (RecordLayout.parse_fits front).2
      (records.drop_found front)
    rw [take_taken due, take_taken due'] at next
    rw [(Rule.block due' parsed').turn_eq]
    exact .goesOn next
  | truncated due parsed ended left =>
    have left' : ¬(pass'.window = [] ∧ pass'.position = 0) := by
      rw [← List.length_eq_zero_iff, ← alike.window, ← alike.position, List.length_eq_zero_iff]
      exact left
    rw [alike.consumed, (Rule.truncated (alike.due_false due) ((alike.parse due).trans parsed)
      (alike.exhausted ▸ ended) left').turn_eq]
    exact .ends _
  | tooSmall due parsed going full =>
    rw [(Rule.tooSmall (alike.due_false due) ((alike.parse due).trans parsed)
      (alike.exhausted ▸ going) (alike.window ▸ full)).turn_eq]
    exact .ends _
  | readFailed due parsed going room failed =>
    rcases ByteSource.read?_alike alike.schedule (capacity - pass.window.length) with
      ⟨-, failed'⟩ | ⟨_, _, brought, -⟩
    · rw [(Rule.readFailed (alike.due_false due) ((alike.parse due).trans parsed)
        (alike.exhausted ▸ going) (alike.window ▸ room) (alike.window ▸ failed')).turn_eq]
      exact .ends _
    · rw [failed] at brought
      cases brought
  | read due parsed going room read =>
    rcases ByteSource.read?_alike alike.schedule (capacity - pass.window.length) with
      ⟨failed, -⟩ | ⟨n, schedule, brought, brought'⟩
    · rw [failed] at read
      cases read
    · rw [brought] at read
      cases read
      rw [(Rule.read (alike.due_false due) ((alike.parse due).trans parsed)
        (alike.exhausted ▸ going) (alike.window ▸ room) (alike.window ▸ brought')).turn_eq]
      exact .goesOn (alike.read due n schedule)
  | refused due refusal parsed =>
    rw [(Rule.refused (alike.due_false due) refusal ((alike.parse due).trans parsed)).turn_eq]
    exact .ends _

/-- **Alike passes end alike.** -/
theorem Alike.run (alike : pass.Alike layout pass') : pass.run capacity = pass'.run capacity := by
  fun_induction Pass.run capacity pass generalizing pass' with
  | case1 pass next h ih =>
    have turn := alike.turn capacity
    rw [h] at turn
    generalize h' : pass'.turn capacity = turn' at turn
    cases turn with
    | goesOn alike' => rw [run_of_more h', ih alike']
  | case2 pass result h =>
    have turn := alike.turn capacity
    rw [h] at turn
    generalize h' : pass'.turn capacity = turn' at turn
    cases turn with
    | ends => rw [run_of_over h']

end Pass

/-! ### Opening alike captures -/

/-- Behind a magic, what a front of the bytes shows depends on its length. -/
theorem Format.detect_take {layout : RecordLayout} {bs : List UInt8}
    (announced : RecordLayout.ofMagic? bs = some layout) (n : Nat) :
    detect (bs.take n) = if fileHeaderSize ≤ (bs.take n).length then .ok (.records layout)
      else .error (.truncated 0) := by
  have magic : 4 ≤ (bs.take n).length → RecordLayout.ofMagic? (bs.take n) = some layout := by
    intro there
    rw [List.length_take] at there
    exact RecordLayout.ofMagic?_take announced (by omega)
  by_cases header : fileHeaderSize ≤ (bs.take n).length
  · rw [if_pos header, detect_eq_ok]
    exact .records (magic ((by decide : 4 ≤ fileHeaderSize).trans header)) header
  · rw [if_neg header]
    unfold detect
    split
    · next parsed =>
      have fits := SectionBlock.parse_fits parsed
      exact absurd parsed (RecordLayout.parse_ne_header_of_magic (magic (by omega)) _ _)
    · by_cases short : 0 < shortfall 4 (bs.take n)
      · rw [if_pos short]
      · have there := shortfall_eq_zero.1 (Nat.eq_zero_of_not_pos short)
        have cut : 0 < shortfall fileHeaderSize (bs.take n) := by
          rw [shortfall_eq]
          omega
        rw [if_neg short, magic there]
        simp only [cut, if_true]

namespace Pass

variable {capacity : Nat} {layout : RecordLayout}

theorem begin_of_read {source rest : ByteSource} {first : List UInt8}
    (read : source.read? capacity = some (first, rest)) :
    Pass.begin capacity source = if first = [] then .error .empty else
      match Format.detect first with
      | .error fault => .error fault
      | .ok format =>
        match rest.read? (capacity - first.length) with
        | none => .error (.malformed .readFailed)
        | some (second, rest) =>
          .ok { format, headerDue := format.hasFileHeader, window := first ++ second, source := rest } := by
  rw [Pass.begin, read]
  cases first with
  | nil => rfl
  | cons b first => rfl

/-- **Alike captures are opened alike**, or not opened for the same reason. -/
theorem begin_alike (capacity : Nat) {bs bs' : List UInt8} (announced : RecordLayout.ofMagic? bs = some layout)
    (announced' : RecordLayout.ofMagic? bs' = some layout) (same : bs.length = bs'.length)
    (lengths : layout.lengths (bs.drop fileHeaderSize) = layout.lengths (bs'.drop fileHeaderSize))
    (schedule : List ReadStep) :
    (∃ fault, Pass.begin capacity ⟨bs, schedule⟩ = .error fault ∧
      Pass.begin capacity ⟨bs', schedule⟩ = .error fault) ∨
    ∃ start start', Pass.begin capacity ⟨bs, schedule⟩ = .ok start ∧
      Pass.begin capacity ⟨bs', schedule⟩ = .ok start' ∧ start.Alike layout start' := by
  have sources : (ByteSource.mk bs schedule).schedule = (ByteSource.mk bs' schedule).schedule := rfl
  rcases ByteSource.read?_alike sources capacity with ⟨failed, failed'⟩ | ⟨n, later, read, read'⟩
  · refine .inl ⟨.malformed .readFailed, ?_, ?_⟩
    · rw [Pass.begin, failed]
    · rw [Pass.begin, failed']
  have first : (bs.take n).length = (bs'.take n).length := by
    rw [List.length_take, List.length_take, same]
  rw [begin_of_read read, begin_of_read read']
  by_cases empty : bs.take n = []
  · have empty' : bs'.take n = [] := by rw [← List.length_eq_zero_iff, ← first, empty]; rfl
    rw [if_pos empty, if_pos empty']
    exact .inl ⟨_, rfl, rfl⟩
  have there : bs'.take n ≠ [] := by rwa [Ne, ← List.length_eq_zero_iff, ← first, List.length_eq_zero_iff]
  simp only [if_neg empty, if_neg there, Format.detect_take announced, Format.detect_take announced',
    ← first]
  by_cases header : fileHeaderSize ≤ (bs.take n).length
  · have rest : (ByteSource.mk (bs.drop n) later).schedule =
        (ByteSource.mk (bs'.drop n) later).schedule := rfl
    simp only [if_pos header]
    rcases ByteSource.read?_alike rest (capacity - (bs.take n).length) with
      ⟨failed, failed'⟩ | ⟨m, latest, read, read'⟩
    · simp only [failed, failed']
      exact .inl ⟨_, rfl, rfl⟩
    · simp only [read, read']
      refine .inr ⟨_, _, rfl, rfl, ?_⟩
      have second : ((bs.drop n).take m).length = ((bs'.drop n).take m).length := by
        rw [List.length_take, List.length_take, List.length_drop, List.length_drop, same]
      constructor
      case format => rfl
      case format' => rfl
      case due => rfl
      case header =>
        intro _
        rw [List.length_append]
        omega
      case window => simp only [List.length_append, first, second]
      case position => rfl
      case exhausted => rfl
      case consumed => rfl
      case tally => rfl
      case schedule => rfl
      case records =>
        rw [records_of_due rfl, records_of_due rfl]
        simp only [List.append_assoc, List.take_append_drop]
        exact ⟨by rw [List.length_drop, List.length_drop, same], lengths⟩
  · simp only [if_neg header]
    exact .inl ⟨_, rfl, rfl⟩

end Pass

namespace ByteSource

/-- **What records hold does not matter.** Two captures of the same length
start with the same magic, and the records behind their headers have the same
captured lengths, as far as complete headers lead. Whatever else they hold,
and however they are read, their verdicts are the same: the same counters, or
the same fault at the same place. -/
theorem tally_alike (magic : Magic) {bs bs' : List UInt8} (front : magic.bytes <+: bs)
    (front' : magic.bytes <+: bs') (same : bs.length = bs'.length)
    (lengths : magic.layout.lengths (bs.drop fileHeaderSize) =
      magic.layout.lengths (bs'.drop fileHeaderSize))
    (schedule : List ReadStep) (capacity : Nat) :
    tally ⟨bs, schedule⟩ capacity = tally ⟨bs', schedule⟩ capacity := by
  have announced := Magic.ofMagic?_of_prefix front
  have announced' := Magic.ofMagic?_of_prefix front'
  have passes : pass ⟨bs, schedule⟩ capacity = pass ⟨bs', schedule⟩ capacity := by
    unfold pass
    rcases Pass.begin_alike capacity announced announced' same lengths schedule with
      ⟨fault, failed, failed'⟩ | ⟨start, start', opened, opened', alike⟩
    · rw [failed, failed']
    · rw [opened, opened']
      exact alike.run
  unfold tally
  rw [passes]

end ByteSource

/-- A record of the same captured length that holds nothing but zeros. -/
def Record.blank {layout : RecordLayout} (record : Record layout) : Record layout where
  time := Vector.replicate 8 0
  wire := Vector.replicate 4 0
  extension := Vector.replicate _ 0
  data := List.replicate record.data.length 0
  length_lt := by
    rw [List.length_replicate]
    exact record.length_lt

/-- The extended file, with other settings, times, lengths on the wire and data. -/
def blankFile : RecordFile where
  magic := extendedFile.magic
  settings := Vector.replicate 20 0
  records := extendedFile.records.map Record.blank

theorem tally_blankFile_alike :
    Magic.extended.bytes <+: extendedFile.bytes ∧ Magic.extended.bytes <+: blankFile.bytes ∧
    extendedFile.bytes.length = blankFile.bytes.length ∧
    Magic.extended.layout.lengths (extendedFile.bytes.drop fileHeaderSize) =
      Magic.extended.layout.lengths (blankFile.bytes.drop fileHeaderSize) ∧
    ByteSource.tally ⟨extendedFile.bytes, [.upTo 25, .upTo 1, .upTo 7]⟩ 28 =
      ByteSource.tally ⟨blankFile.bytes, [.upTo 25, .upTo 1, .upTo 7]⟩ 28 ∧
    ByteSource.tally ⟨extendedFile.bytes, [.upTo 25, .upTo 0, .upTo 7, .fail]⟩ 28 =
      ByteSource.tally ⟨blankFile.bytes, [.upTo 25, .upTo 0, .upTo 7, .fail]⟩ 28 := by
  have front : Magic.extended.bytes <+: extendedFile.bytes := by decide
  have front' : Magic.extended.bytes <+: blankFile.bytes := by decide
  have same : extendedFile.bytes.length = blankFile.bytes.length := by decide
  have lengths : Magic.extended.layout.lengths (extendedFile.bytes.drop fileHeaderSize) =
      Magic.extended.layout.lengths (blankFile.bytes.drop fileHeaderSize) := by cbv
  have alike := ByteSource.tally_alike .extended front front' same lengths
  exact ⟨front, front', same, lengths, alike _ _, alike _ _⟩

end CapturePace
