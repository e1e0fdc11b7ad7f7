/-
# Files of records are counted as they were written

A file of records is a magic, twenty bytes of settings and the records, each
with a header that gives the length of its data (`RecordFile.bytes`). Through
a buffer that is longer than the file header and every record, the file is
seen to hold all of its records and all of their data, and a file that is cut
behind its header is seen up to the last record in front of the cut
(`tallyOf_recordFile`). Header and data of a record are incomplete in
different ways, but a cut through either is found at the start of the record.

Key definitions: `Magic`, `Record`, `RecordFile`.
Key theorem: `tallyOf_recordFile`.
-/
import CapturePace.Proofs.Written

namespace CapturePace

/-- The magics of files of records. -/
inductive Magic where
  /-- Times are given in microseconds. -/
  | micros (order : ByteOrder)
  /-- Times are given in nanoseconds. -/
  | nanos (order : ByteOrder)
  /-- Record headers are extended. -/
  | extended
  deriving DecidableEq, Repr

namespace Magic

/-- How the records behind a magic are written. -/
def layout : Magic → RecordLayout
  | .micros order => ⟨order, false⟩
  | .nanos order => ⟨order, false⟩
  | .extended => ⟨.little, true⟩

/-- A magic is a number in the byte order of its file. -/
def bytes : Magic → List UInt8
  | .micros order => order.number 4 0xa1b2c3d4
  | .nanos order => order.number 4 0xa1b23c4d
  | .extended => ByteOrder.number .little 4 0xa1b2cd34

theorem ofMagic?_bytes (magic : Magic) : RecordLayout.ofMagic? magic.bytes = some magic.layout := by
  rcases magic with (_ | _) | (_ | _) | _ <;> decide

/-- A file that starts with a magic has records of its layout. -/
theorem ofMagic?_of_prefix {magic : Magic} {bs : List UInt8} (front : magic.bytes <+: bs) :
    RecordLayout.ofMagic? bs = some magic.layout := by
  obtain ⟨rest, rfl⟩ := front
  exact RecordLayout.ofMagic?_append rest magic.ofMagic?_bytes

theorem length_bytes (magic : Magic) : magic.bytes.length = 4 := by
  cases magic with
  | extended => rfl
  | _ order => exact ByteOrder.length_number order 4 _

end Magic

/-- A record: when the packet was seen, how long it was on the wire, what an
extended header adds, and the data captured. -/
structure Record (layout : RecordLayout) where
  time : Vector UInt8 8
  wire : Vector UInt8 4
  extension : Vector UInt8 (layout.headerSize - 16)
  data : List UInt8
  /-- The length of the data has room in its four bytes. -/
  length_lt : data.length < 256 ^ 4

namespace Record

variable {layout : RecordLayout}

/-- The bytes of a record. -/
def bytes (record : Record layout) : List UInt8 :=
  record.time.toList ++ (layout.order.number 4 record.data.length ++
    (record.wire.toList ++ (record.extension.toList ++ record.data)))

/-- The length of a record, header included. -/
def size (record : Record layout) : Nat := layout.headerSize + record.data.length

theorem length_bytes (record : Record layout) : record.bytes.length = record.size := by
  have header := layout.sixteen_le_headerSize
  simp only [bytes, size, List.length_append, Vector.length_toList, ByteOrder.length_number]
  omega

/-- The record as a written block. -/
def written (record : Record layout) : WrittenBlock := ⟨record.bytes, .record record.data.length⟩

/-- The length of the data is where the reader looks for it. -/
theorem captured_bytes (record : Record layout) :
    layout.order.field 8 4 record.bytes = record.data.length := by
  have read := layout.order.field_number record.time.toList
    (record.wire.toList ++ (record.extension.toList ++ record.data)) record.length_lt
  rwa [Vector.length_toList] at read

/-- **A record is read as it was written.** -/
theorem parse_bytes (record : Record layout) :
    layout.parse record.bytes = .ok ⟨record.bytes.length, .record record.data.length⟩ := by
  have size : record.bytes.length = layout.headerSize + record.data.length := record.length_bytes
  have header : skip layout.headerSize record.bytes = .ok (record.bytes.drop layout.headerSize) :=
    skip_of_le (by omega)
  have data : skip record.data.length (record.bytes.drop layout.headerSize) =
      .ok (record.bytes.drop (layout.headerSize + record.data.length)) := by
    rw [skip_drop (by omega), skip_of_le (by omega)]
  rw [RecordLayout.parse, header, size]
  simp only [bind, Except.bind, record.captured_bytes, data, pure, Except.pure]

end Record

/-- A file of records. -/
structure RecordFile where
  magic : Magic
  settings : Vector UInt8 20
  records : List (Record magic.layout)

namespace RecordFile

/-- The format of the records of a file. -/
def format (file : RecordFile) : Format := .records file.magic.layout

/-- The header in front of the records. -/
def header (file : RecordFile) : WrittenBlock :=
  ⟨file.magic.bytes ++ file.settings.toList, .fileHeader⟩

/-- The header and the records as written blocks. -/
def blocks (file : RecordFile) : List WrittenBlock := file.header :: file.records.map Record.written

/-- The bytes of a file. -/
def bytes (file : RecordFile) : List UInt8 := WrittenBlock.bytesOf file.blocks

variable {file : RecordFile} {cut capacity : Nat}

theorem length_header (file : RecordFile) : file.header.bytes.length = fileHeaderSize := by
  simp only [header, List.length_append, Magic.length_bytes, Vector.length_toList]
  rfl

theorem bytes_eq (file : RecordFile) :
    file.bytes = file.header.bytes ++ WrittenBlock.bytesOf (file.records.map Record.written) :=
  WrittenBlock.bytesOf_cons _ _

theorem header_le (file : RecordFile) : fileHeaderSize ≤ file.bytes.length := by
  rw [bytes_eq, List.length_append, file.length_header]
  exact Nat.le_add_right _ _

/-- A file announces its records, whatever is behind them. -/
theorem ofMagic?_append (file : RecordFile) (rest : List UInt8) :
    RecordLayout.ofMagic? (file.bytes ++ rest) = some file.magic.layout := by
  rw [bytes_eq, header, List.append_assoc, List.append_assoc]
  exact Magic.ofMagic?_of_prefix (List.prefix_append _ _)

/-- The header opens the file, wherever the records behind it are cut. -/
theorem opens_take (there : fileHeaderSize ≤ cut) : file.format.Opens (file.bytes.take cut) := by
  have size := file.length_header
  have long := file.header_le
  refine .records ?_ (by rw [List.length_take]; omega)
  rw [bytes_eq, List.take_append, List.take_of_length_le (size.trans_le there), header,
    List.append_assoc]
  exact RecordLayout.ofMagic?_append _ file.magic.ofMagic?_bytes

theorem body_bytes (file : RecordFile) :
    file.format.body file.bytes = WrittenBlock.bytesOf (file.records.map Record.written) := by
  show file.bytes.drop fileHeaderSize = _
  rw [bytes_eq]
  exact List.drop_left' file.length_header

/-- The records are cut where the file is. -/
theorem body_take (file : RecordFile) (cut : Nat) : file.format.body (file.bytes.take cut) =
    (WrittenBlock.bytesOf (file.records.map Record.written)).take (cut - fileHeaderSize) := by
  rw [← body_bytes]
  exact List.drop_take

theorem spells_records (file : RecordFile) :
    file.format.Spells (file.records.map Record.written) := by
  induction file.records with
  | nil => exact .nil _
  | cons record records ih => exact .cons record.parse_bytes ih

/-- The counters of a file are those of its data. -/
theorem tally_blocks (file : RecordFile) : WrittenBlock.tally file.blocks =
    ⟨file.records.length + 1, file.records.length, (file.records.map (·.data.length)).sum⟩ := by
  have packets : file.blocks.filterMap (·.block.packet?) = file.records.map (·.data.length) := by
    rw [blocks, List.filterMap_cons_none rfl, List.filterMap_map]
    exact congrFun List.filterMap_eq_map _
  have count : file.blocks.length = file.records.length + 1 := by
    rw [blocks, List.length_cons, List.length_map]
  simp only [WrittenBlock.tally, packets, count, List.length_map]

/-- The records of a file need less room than the buffer has. -/
theorem fits_take (room : fileHeaderSize < capacity)
    (sizes : ∀ record ∈ file.records, record.size < capacity) (cut : Nat) :
    file.format.Fits (capacity - 1) (file.format.body (file.bytes.take cut)) := by
  have header : 24 ≤ capacity - 1 := Nat.le_sub_one_of_lt room
  rw [body_take]
  apply file.spells_records.fits_take header
  intro written mem
  obtain ⟨record, mem', rfl⟩ := List.mem_map.1 mem
  have size := sizes record mem'
  rw [Record.written, Record.length_bytes]
  omega

/-- The walk over a file starts with its first record. -/
theorem walk_of_opens {bs : List UInt8} (opens : file.format.Opens bs) :
    walk bs = file.format.walk (file.format.body bs) (Tally.count {} .fileHeader) fileHeaderSize := by
  rw [CapturePace.walk_of_opens opens, if_pos (show file.format.hasFileHeader = true from rfl)]
  rfl

/-- A walk over a file finds all of its blocks. -/
theorem walk_bytes (file : RecordFile) : walk file.bytes = .ok (WrittenBlock.tally file.blocks) := by
  have opens : file.format.Opens file.bytes := by
    rw [← List.take_length (l := file.bytes)]
    exact opens_take file.header_le
  rw [walk_of_opens opens, body_bytes, file.spells_records.walk_all,
    ← WrittenBlock.foldl_count_empty]
  rfl

/-- A walk over a file that is cut behind its header finds the blocks in front of the cut. -/
theorem walk_take (there : fileHeaderSize ≤ cut) (within : cut ≤ file.bytes.length) :
    WrittenBlock.SeenUpTo file.blocks cut (.ofExcept (walk (file.bytes.take cut))) := by
  have size := file.length_header
  have left : cut - fileHeaderSize ≤
      (WrittenBlock.bytesOf (file.records.map Record.written)).length := by
    rw [bytes_eq, List.length_append] at within
    omega
  obtain ⟨k, greatest, walked⟩ :=
    file.spells_records.walk_take left (Tally.count {} .fileHeader) fileHeaderSize
  have boundary : WrittenBlock.boundary file.blocks (k + 1) =
      fileHeaderSize + WrittenBlock.boundary (file.records.map Record.written) k := by
    rw [blocks, WrittenBlock.boundary_succ, size]
  have same : WrittenBlock.boundary (file.records.map Record.written) k = cut - fileHeaderSize ↔
      WrittenBlock.boundary file.blocks (k + 1) = cut := by omega
  refine ⟨k + 1, WrittenBlock.isGreatest_of_le (size.trans_le there) (by rwa [size]), ?_⟩
  rw [walk_of_opens (opens_take there), body_take, walked, ← boundary]
  by_cases whole : WrittenBlock.boundary file.blocks (k + 1) = cut
  · rw [if_pos whole, if_pos (same.2 whole), ← WrittenBlock.foldl_count_empty]
    rfl
  · rw [if_neg whole, if_neg (fun h => whole (same.1 h))]
    rfl

end RecordFile

variable {capacity : Nat}

/-- **A file of records is counted exactly, and a cut one is located exactly.**
Through a buffer longer than the file header and every record, the file shows
one block more than it has records, a packet for each of them, and all of their
data. Cut anywhere behind its header, it shows the blocks in front of the cut,
or, if the cut is inside a record, the start of that record. Through a buffer
that cannot be made, nothing is seen. -/
theorem tallyOf_recordFile (file : RecordFile) (room : fileHeaderSize < capacity)
    (sizes : ∀ record ∈ file.records, record.size < capacity) :
    (capacity ≤ bufferLimit →
      tallyOf file.bytes capacity = .finished
        ⟨file.records.length + 1, file.records.length, (file.records.map (·.data.length)).sum⟩ ∧
      ∀ cut, fileHeaderSize ≤ cut → cut ≤ file.bytes.length →
        WrittenBlock.SeenUpTo file.blocks cut (tallyOf (file.bytes.take cut) capacity)) ∧
    (bufferLimit < capacity → ∀ cut, tallyOf (file.bytes.take cut) capacity = .overflowed .capacity) := by
  rw [← file.tally_blocks]
  exact WrittenBlock.tallyOf_bytesOf room (fun cut there => RecordFile.opens_take there)
    (RecordFile.fits_take room sizes) file.walk_bytes fun cut there => RecordFile.walk_take there

/-- A file with extended record headers, of two records. -/
def extendedFile : RecordFile where
  magic := .extended
  settings := ⟨#[2, 0, 4, 0, 0, 0, 0, 0, 0, 0, 0, 0, 0xff, 0xff, 0, 0, 1, 0, 0, 0], rfl⟩
  records := [
    ⟨⟨#[7, 0, 0, 0, 1, 0, 0, 0], rfl⟩, ⟨#[3, 0, 0, 0], rfl⟩,
      ⟨#[2, 0, 0, 0, 0, 8, 0, 0], rfl⟩, [0xca, 0xfe, 0xed], by decide⟩,
    ⟨⟨#[8, 0, 0, 0, 2, 0, 0, 0], rfl⟩, ⟨#[64, 0, 0, 0], rfl⟩,
      ⟨#[2, 0, 0, 0, 0, 8, 0, 0], rfl⟩, [], by decide⟩]

theorem tallyOf_extendedFile : fileHeaderSize < 28 ∧
    (∀ record ∈ extendedFile.records, record.size < 28) ∧
    tallyOf extendedFile.bytes 28 = .finished ⟨3, 2, 3⟩ ∧
    WrittenBlock.SeenUpTo extendedFile.blocks 60 (tallyOf (extendedFile.bytes.take 60) 28) := by
  have room : fileHeaderSize < 28 := by decide
  have sizes : ∀ record ∈ extendedFile.records, record.size < 28 := by decide
  obtain ⟨whole, cut⟩ := (tallyOf_recordFile extendedFile room sizes).1 (by decide)
  exact ⟨room, sizes, whole, cut 60 (by decide) (by decide)⟩

example : tallyOf (extendedFile.bytes.take 60) 28 = .failed (.truncated 51) := by cbv

/-- A buffer that cannot be made shows nothing of the file. -/
theorem tallyOf_extendedFile_too_long : fileHeaderSize < 9223372036854775808 ∧
    (∀ record ∈ extendedFile.records, record.size < 9223372036854775808) ∧
    tallyOf extendedFile.bytes 9223372036854775808 = .overflowed .capacity :=
  ⟨by decide, by decide, tallyOf_of_lt (by decide)⟩

end CapturePace
