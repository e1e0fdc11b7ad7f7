/-
# A buffer as long as a record may be too small for it

A pass over a file of records refuses a record when the buffer has no byte to
spare for what the reader asks for. What it asks for is the header while this
is not all in the window, and then the whole record. So a record that is as
long as the buffer goes through if it is all in the window when it is met, or
if less than its header is, since the buffer is then filled from there on. If
the header is there and not all of the data, the buffer is said to be too
small. Which of these it is depends on the lengths of the records in front
(`getsThrough`), and on nothing else (`Pass.Before.run`, by induction on the
records). With a byte to spare for every record the question does not arise
(`getsThrough_of_lt`).

Key definitions: `asked`, `getsThrough`, `Pass.Before`.
Key theorems: `getsThrough_of_lt`, `Pass.Before.run`, `tallyOf_fullBuffer`.
-/
import CapturePace.Proofs.UnseenContents

namespace CapturePace

open WrittenBlock (bytesOf)

/-! ### Which lengths get through -/

/-- The bytes that have to fit into the buffer for a record that the window
shows `reach` bytes of: its header, or the whole of it once that is there. -/
def asked (header reach size : Nat) : Nat := if reach < header then header else size

/-- Whether a pass gets through records of these lengths when the window
reaches `reach` bytes behind the start of the first one. If that is not all of
it, the buffer needs a byte more than is asked for, and is then filled from
there on. Behind the last record one more header is asked for. -/
def getsThrough (capacity header : Nat) : Nat → List Nat → Bool
  | _, [] => header < capacity
  | reach, size :: sizes =>
    if size ≤ reach then getsThrough capacity header (reach - size) sizes
    else asked header reach size < capacity && getsThrough capacity header (capacity - size) sizes

/-- A buffer with a byte to spare is always enough. -/
theorem getsThrough_of_lt {capacity header : Nat} (room : header < capacity) {sizes : List Nat}
    (short : ∀ size ∈ sizes, size < capacity) (reach : Nat) :
    getsThrough capacity header reach sizes = true := by
  induction sizes generalizing reach with
  | nil => exact decide_eq_true room
  | cons size sizes ih =>
    have here := short size List.mem_cons_self
    have rest := ih fun other mem => short other (List.mem_cons_of_mem _ mem)
    have fits : asked header reach size < capacity := by
      unfold asked
      split <;> assumption
    rw [getsThrough, rest, rest, decide_eq_true fits]
    exact ite_self true

/-! ### Records in front of a pass -/

/-- A record that is not all in the window asks for its header, or for all of itself. -/
theorem Record.parse_take_bytes {layout : RecordLayout} (record : Record layout) {reach : Nat}
    (short : reach < record.size) :
    layout.parse (record.bytes.take reach) =
      .error (.incomplete (asked layout.headerSize reach record.size - reach)) := by
  have length := record.length_bytes
  have sixteen := layout.sixteen_le_headerSize
  have size : (record.bytes.take reach).length = reach := List.length_take_of_le (by omega)
  by_cases inside : reach < layout.headerSize
  · rw [RecordLayout.parse_of_short (by omega), asked, if_pos inside, size]
  · have twelve : 8 + 4 ≤ (record.bytes.take reach).length := by omega
    have captured := record.captured_bytes
    rw [← List.take_append_drop reach record.bytes, ByteOrder.field_append _ twelve] at captured
    have whole : layout.headerSize + record.data.length = record.size := rfl
    rw [RecordLayout.parse_of_header (by omega), captured, size, whole, if_neg (Nat.not_le.2 short), asked,
      if_neg inside]

namespace Pass

/-- A pass in front of records of a capture in memory: the window reaches
`reach` bytes into them, and the source still has all the others. -/
structure Before (layout : RecordLayout) (records : List (Record layout)) (reach : Nat) (pass : Pass) :
    Prop where
  due : pass.headerDue = false
  going : pass.exhausted = false
  format : pass.format = .records layout
  window : pass.window = (bytesOf (records.map Record.written)).take reach
  source : pass.source = ⟨(bytesOf (records.map Record.written)).drop reach, []⟩

namespace Before

variable {layout : RecordLayout} {record : Record layout} {records : List (Record layout)}
  {reach capacity : Nat} {pass : Pass}

/-- A record that is all in the window is taken. -/
theorem block (before : pass.Before layout (record :: records) reach) (there : record.size ≤ reach)
    (capacity : Nat) :
    ∃ next, pass.turn capacity = .more next ∧ next.Before layout records (reach - record.size) ∧
      next.tally = pass.tally.count record.written.block := by
  obtain ⟨due, going, format, window, source⟩ := before
  have length : record.written.bytes.length = record.size := record.length_bytes
  have parsed : (Format.records layout).parse record.written.bytes =
      .ok ⟨record.written.bytes.length, record.written.block⟩ := record.parse_bytes
  obtain ⟨found, behind⟩ := Format.parse_take_of_le (records.map Record.written) parsed
    (length.trans_le there)
  rw [← List.map_cons, ← window, ← format] at found
  rw [← List.map_cons, ← window, length] at behind
  rw [List.map_cons, WrittenBlock.bytesOf_cons, List.drop_append,
    List.drop_eq_nil_of_le (length.trans_le there), List.nil_append, length] at source
  refine ⟨_, (Rule.block due found).turn_eq, ⟨due, going, ?_, ?_, source⟩, rfl⟩
  · show pass.format.after _ = _
    rw [format]
    rfl
  · show pass.window.drop record.written.bytes.length = _
    rw [length, behind]

/-- A record that is not all in the window is cut there. -/
theorem parse_of_lt (before : pass.Before layout (record :: records) reach) (short : reach < record.size) :
    pass.window.length = reach ∧ pass.format.parse pass.window =
      .error (.incomplete (asked layout.headerSize reach record.size - reach)) := by
  have length := record.length_bytes
  have front : pass.window = record.bytes.take reach := by
    rw [before.window, List.map_cons, WrittenBlock.bytesOf_cons]
    exact List.take_append_of_le_length (short.le.trans_eq length.symm)
  rw [before.format, front, List.length_take, length]
  exact ⟨min_eq_left short.le, record.parse_take_bytes short⟩

/-- Without a byte to spare for what is asked for, the pass is over. -/
theorem run_of_full (before : pass.Before layout (record :: records) reach) (short : reach < record.size)
    (full : capacity ≤ asked layout.headerSize reach record.size) :
    pass.run capacity = .error (.malformed .windowTooSmall) := by
  obtain ⟨length, parsed⟩ := before.parse_of_lt short
  exact run_of_over (Rule.tooSmall before.due parsed before.going (by omega)).turn_eq

/-- With one, the buffer is filled from the record on. -/
theorem refill (before : pass.Before layout (record :: records) reach) (short : reach < record.size)
    (size : record.size ≤ capacity) (room : asked layout.headerSize reach record.size < capacity) :
    ∃ next, pass.turn capacity = .more next ∧ next.Before layout (record :: records) capacity ∧
      next.tally = pass.tally := by
  obtain ⟨length, parsed⟩ := before.parse_of_lt short
  obtain ⟨due, going, format, window, source⟩ := before
  generalize all : bytesOf ((record :: records).map Record.written) = bytes at window source
  have reached : reach + (capacity - reach) = capacity := by omega
  have left : reach < bytes.length := by
    rw [← all, List.map_cons, WrittenBlock.bytesOf_cons, List.length_append]
    exact Nat.lt_add_right _ (short.trans_eq record.length_bytes.symm)
  have read : pass.source.read? (capacity - pass.window.length) =
      some ((bytes.drop reach).take (capacity - reach), ⟨bytes.drop capacity, []⟩) := by
    rw [source, length, ByteSource.read?_of_nil rfl, List.drop_drop, reached]
  refine ⟨_, (Rule.read due parsed going (by omega) read).turn_eq, ⟨due, ?_, format, ?_, ?_⟩, rfl⟩
  · show ((bytes.drop reach).take (capacity - reach)).isEmpty = false
    rw [isEmpty_take (by omega), List.isEmpty_eq_false_iff, ← List.length_pos_iff, List.length_drop]
    omega
  · rw [all, window, ← List.take_add, reached]
  · rw [all]

/-- Behind the last record the end of the source is found, if there is room for a header. -/
theorem run_nil (before : pass.Before layout [] reach) :
    pass.run capacity =
      if layout.headerSize < capacity then .ok pass.tally else .error (.malformed .windowTooSmall) := by
  obtain ⟨due, going, format, window, source⟩ := before
  have empty : pass.window = [] := window.trans List.take_nil
  have sixteen := layout.sixteen_le_headerSize
  have parsed : pass.format.parse pass.window = .error (.incomplete layout.headerSize) := by
    rw [format, empty]
    exact RecordLayout.parse_of_short (by rw [List.length_nil]; omega)
  have length : pass.window.length = 0 := congrArg List.length empty
  by_cases room : layout.headerSize < capacity
  · have read : pass.source.read? (capacity - pass.window.length) = some ([], ⟨[], []⟩) := by
      rw [source, ByteSource.read?_of_nil rfl]
      simp [bytesOf]
    have turn := (Rule.read due parsed going (by omega) read).turn_eq
    have still : pass.window ++ [] = [] := by rw [empty, List.append_nil]
    rw [if_pos room, run_of_more turn]
    exact run_of_over (Rule.turn_eq (.finished due still rfl rfl))
  · rw [if_neg room]
    exact run_of_over (Rule.tooSmall due parsed going (by omega)).turn_eq

/-- **A pass counts the records if it gets through them**, and otherwise finds
the buffer too small. -/
theorem run (before : pass.Before layout records reach) (sizes : ∀ record ∈ records, record.size ≤ capacity) :
    pass.run capacity =
      if getsThrough capacity layout.headerSize reach (records.map Record.size) then
        .ok ((records.map Record.written).foldl (fun counted written => counted.count written.block) pass.tally)
      else .error (.malformed .windowTooSmall) := by
  induction records generalizing pass reach with
  | nil =>
    rw [before.run_nil, List.map_nil, getsThrough]
    simp
  | cons record records ih =>
    have size := sizes record List.mem_cons_self
    have rest := fun other mem => sizes other (List.mem_cons_of_mem record mem)
    rw [List.map_cons, getsThrough]
    by_cases there : record.size ≤ reach
    · obtain ⟨next, turn, behind, counted⟩ := before.block there capacity
      rw [if_pos there, run_of_more turn, ih behind rest, counted]
      rfl
    · rw [if_neg there]
      have short : reach < record.size := Nat.lt_of_not_le there
      by_cases room : asked layout.headerSize reach record.size < capacity
      · -- Filled from this record on, the buffer holds all of it: the turn after that takes it.
        obtain ⟨filled, turn, before', same⟩ := before.refill short size room
        obtain ⟨next, turn', behind, counted⟩ := before'.block size capacity
        rw [run_of_more turn, run_of_more turn', ih behind rest, counted, same, decide_eq_true room,
          Bool.true_and]
        rfl
      · rw [before.run_of_full short (Nat.le_of_not_lt room), decide_eq_false room, Bool.false_and]
        rfl

end Before
end Pass

/-! ### Files of records -/

variable {capacity : Nat}

/-- Behind the header of a file, a pass is in front of all of its records. -/
theorem RecordFile.exists_before (file : RecordFile) (room : fileHeaderSize ≤ capacity) :
    ∃ start next, Pass.begin capacity ⟨file.bytes, []⟩ = .ok start ∧ start.turn capacity = .more next ∧
      next.Before file.magic.layout file.records (capacity - fileHeaderSize) ∧
      next.tally = Tally.count {} .fileHeader := by
  have header := file.length_header
  have behind : file.bytes.drop capacity =
      (bytesOf (file.records.map Record.written)).drop (capacity - fileHeaderSize) := by
    rw [file.bytes_eq, List.drop_append, List.drop_eq_nil_of_le (header.trans_le room), List.nil_append,
      header]
  refine ⟨_, _, Pass.begin_inMemory_eq.2 ⟨file.format, RecordFile.opens_take room, rfl⟩,
    (Pass.Rule.header rfl).turn_eq, ⟨rfl, rfl, rfl, file.body_take capacity, ?_⟩, rfl⟩
  exact congrArg (ByteSource.mk · []) behind

/-- **A buffer that holds every record is enough exactly if a pass gets through
the lengths of the records.** Then the file is counted, and otherwise the
buffer is said to be too small. With a byte to spare for every record and for
a header, it always gets through. A buffer that cannot be made shows nothing. -/
theorem tallyOf_fullBuffer (file : RecordFile) (room : fileHeaderSize ≤ capacity)
    (sizes : ∀ record ∈ file.records, record.size ≤ capacity) :
    (capacity ≤ bufferLimit →
      tallyOf file.bytes capacity =
        if getsThrough capacity file.magic.layout.headerSize (capacity - fileHeaderSize)
            (file.records.map Record.size) then
          .finished ⟨file.records.length + 1, file.records.length, (file.records.map (·.data.length)).sum⟩
        else .failed (.malformed .windowTooSmall)) ∧
    (file.magic.layout.headerSize < capacity → (∀ record ∈ file.records, record.size < capacity) →
      getsThrough capacity file.magic.layout.headerSize (capacity - fileHeaderSize)
        (file.records.map Record.size) = true) ∧
    (bufferLimit < capacity → tallyOf file.bytes capacity = .overflowed .capacity) := by
  refine ⟨fun made => ?_, fun header short => ?_, tallyOf_of_lt⟩
  · obtain ⟨start, next, opened, turn, before, counted⟩ := file.exists_before room
    have ran : ByteSource.pass ⟨file.bytes, []⟩ capacity = next.run capacity := by
      rw [ByteSource.pass, opened]
      exact Pass.run_of_more turn
    have all : (file.records.map Record.written).foldl (fun counted written => counted.count written.block)
        (Tally.count {} .fileHeader) = WrittenBlock.tally file.blocks :=
      WrittenBlock.foldl_count_empty file.blocks
    rw [tallyOf_of_le made, ran, before.run sizes, counted, all, file.tally_blocks]
    split <;> rfl
  · refine getsThrough_of_lt header (fun size mem => ?_) _
    obtain ⟨record, there, rfl⟩ := List.mem_map.1 mem
    exact short record there

/-- A record of 40 bytes. -/
def fortyBytes : Record ⟨.little, false⟩ where
  time := ⟨#[7, 0, 0, 0, 8, 0, 0, 0], rfl⟩
  wire := ⟨#[24, 0, 0, 0], rfl⟩
  extension := ⟨#[], rfl⟩
  data := List.replicate 24 0xab
  length_lt := by decide

/-- A record of 25 bytes. -/
def fewerBytes : Record ⟨.little, false⟩ where
  time := ⟨#[7, 0, 0, 0, 9, 0, 0, 0], rfl⟩
  wire := ⟨#[9, 0, 0, 0], rfl⟩
  extension := ⟨#[], rfl⟩
  data := List.replicate 9 0xcd
  length_lt := by decide

/-- A file with these records. -/
def twoRecords (records : List (Record ⟨.little, false⟩)) : RecordFile where
  magic := .micros .little
  settings := ⟨#[2, 0, 4, 0, 0, 0, 0, 0, 0, 0, 0, 0, 0, 0, 4, 0, 1, 0, 0, 0], rfl⟩
  records := records

/-- A buffer of 40 bytes shows 15 bytes of the longer record when it is met behind the other. -/
theorem tallyOf_fewerFirst : fileHeaderSize ≤ 40 ∧
    (∀ record ∈ (twoRecords [fewerBytes, fortyBytes]).records, record.size ≤ 40) ∧
    tallyOf (twoRecords [fewerBytes, fortyBytes]).bytes 40 = .finished ⟨3, 2, 33⟩ := by
  have room : fileHeaderSize ≤ 40 := by decide
  have sizes : ∀ record ∈ (twoRecords [fewerBytes, fortyBytes]).records, record.size ≤ 40 := by decide
  have seen := (tallyOf_fullBuffer (twoRecords [fewerBytes, fortyBytes]) room sizes).1 (by decide)
  exact ⟨room, sizes, seen.trans (if_pos (by decide))⟩

/-- It shows the header of the longer record, and not all of its data, when it comes first. -/
theorem tallyOf_fortyFirst : fileHeaderSize ≤ 40 ∧
    (∀ record ∈ (twoRecords [fortyBytes, fewerBytes]).records, record.size ≤ 40) ∧
    tallyOf (twoRecords [fortyBytes, fewerBytes]).bytes 40 = .failed (.malformed .windowTooSmall) := by
  refine ⟨by decide, by decide, ?_⟩
  cbv

end CapturePace
