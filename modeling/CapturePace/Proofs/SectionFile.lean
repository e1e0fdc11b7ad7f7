/-
# Sequences of sections are counted as they were written

A section is a header and blocks of four kinds, all written in the byte order
of the section, and a file is any number of sections, each with a byte order
of its own (`SectionFile.bytes`). Every block is framed alike
(`SectionBlock.framed`) and read back by its kind (`SectionBlock.Part.parse_bytes`).
Through a buffer that is longer than every block, the file is seen to hold all
of its blocks, and the data of its packets without their padding, and a file
that is cut behind its first header is seen up to the last block in front of
the cut (`tallyOf_sectionFile`).

Key definitions: `SectionBlock.framed`, `SectionBlock.Part`, `Section`, `SectionFile`.
Key theorems: `SectionBlock.Part.parse_bytes`, `tallyOf_sectionFile`.
-/
import CapturePace.Proofs.Written

namespace CapturePace
namespace SectionBlock

/-- A block as it is written: its type, its length, its body, and its length again. -/
def framed (order : ByteOrder) (code : Nat) (body : List UInt8) : List UInt8 :=
  order.number 4 code ++ (order.number 4 (12 + body.length) ++
    (body ++ order.number 4 (12 + body.length)))

section Frames

variable {order : ByteOrder} {code : Nat} {body rest : List UInt8} {block : Block}

theorem length_framed (order : ByteOrder) (code : Nat) (body : List UInt8) :
    (framed order code body).length = 12 + body.length := by
  simp only [framed, List.length_append, ByteOrder.length_number]
  omega

theorem drop_framed (order : ByteOrder) (code : Nat) (body : List UInt8) :
    (framed order code body).drop 8 = body ++ order.number 4 (12 + body.length) := by
  rw [framed, ← List.append_assoc]
  exact List.drop_left' (by simp only [List.length_append, ByteOrder.length_number])

theorem code_framed (room : code < wordLimit) : order.field 0 4 (framed order code body) = code :=
  order.field_number [] _ room

theorem length_field_framed (room : 12 + body.length < wordLimit) :
    order.field 4 4 (framed order code body) = 12 + body.length := by
  have read := @ByteOrder.field_number order 4 _ (order.number 4 code)
    (body ++ order.number 4 (12 + body.length)) room
  rwa [ByteOrder.length_number] at read

/-- **The frame that is cut out is the one that was written.** -/
theorem frame_framed {minimum : Nat} (long : minimum ≤ 12 + body.length)
    (room : 12 + body.length < wordLimit) :
    frame order minimum (framed order code body) = .ok ⟨12 + body.length, body, 12 + body.length⟩ := by
  have size := length_framed order code body
  have width : bodyLength (12 + body.length) = body.length := by
    unfold bodyLength wordLimit at *
    omega
  have trailer : order.field 0 4 ((framed order code body).drop (8 + body.length)) =
      12 + body.length := by
    rw [← List.drop_drop, drop_framed, List.drop_left]
    have read := @ByteOrder.field_number order 4 _ [] [] room
    rwa [List.nil_append, List.append_nil] at read
  rw [frame_eq, skip_of_le (by omega), length_field_framed room]
  show (if _ then _ else _) = _
  rw [if_neg (Nat.not_lt.2 long), cut_eq_ok (by omega), width, drop_framed, List.take_left, trailer]
  exact ⟨by omega, rfl⟩

/-- What the body of a block is read as, the block is read as. -/
theorem parseKind_framed {kind : Kind} (code : Nat) (long : kind.minimum ≤ 12 + body.length)
    (room : 12 + body.length < wordLimit)
    (read : kind.read order (12 + body.length) body = .ok (block, rest)) :
    parseKind order kind (framed order code body) = .ok ⟨(framed order code body).length, block⟩ := by
  have size : Frame.size ⟨12 + body.length, body, 12 + body.length⟩ =
      (framed order code body).length := by
    rw [length_framed]
    show 8 + body.length + 4 = _
    omega
  rw [parseKind, frame_framed long room]
  simp only [bind, Except.bind, read, ne_eq, not_true_eq_false, and_false, if_false, size]
  rfl

theorem parse_framed (codeRoom : code < wordLimit) {kind : Kind} (named : Kind.ofCode code = kind)
    (other : kind ≠ .sectionHeader) (long : kind.minimum ≤ 12 + body.length)
    (room : 12 + body.length < wordLimit)
    (read : kind.read order (12 + body.length) body = .ok (block, rest)) :
    parse order (framed order code body) = .ok ⟨(framed order code body).length, block⟩ := by
  have size := length_framed order code body
  rw [← parseKind_framed code long room read, parse, skip_of_le (by omega),
    code_framed codeRoom, named]
  cases kind with
  | sectionHeader => exact absurd rfl other
  | _ => rfl

/-! ### Bodies, by their kind -/

theorem skipOptions_of_le {length offset : Nat} {bs : List UInt8} (h : length ≤ offset) :
    skipOptions length offset bs = .ok bs := by
  rw [skipOptions, Nat.sub_eq_zero_of_le h]
  exact skip_of_le (Nat.zero_le _)

theorem read_interface (size : 8 ≤ body.length) :
    Kind.read .interface order (12 + body.length) body = .ok (.description, body.drop body.length) := by
  have settings : skip 8 body = .ok (body.drop 8) := skip_of_le size
  have left : 12 + body.length - 20 = body.length - 8 := by omega
  have options : skipOptions (12 + body.length) 20 (body.drop 8) = .ok (body.drop body.length) := by
    rw [skipOptions, left, skip_drop size, Nat.add_sub_cancel' size, skip_of_le le_rfl]
  simp only [Kind.read, bind, Except.bind, settings, options, pure, Except.pure]

theorem read_enhancedPacket {captured : Nat} (size : body.length = 20 + align captured)
    (read : order.field 12 4 body = captured) (room : 32 + align captured < wordLimit) :
    Kind.read .enhancedPacket order (12 + body.length) body =
      .ok (.enhancedPacket captured, body.drop (20 + align captured)) := by
  have head : skip 20 body = .ok (body.drop 20) := skip_of_le (by omega)
  have data : skip (align captured) (body.drop 20) = .ok (body.drop (20 + align captured)) := by
    rw [skip_drop (by omega), skip_of_le (by omega)]
  have options : skipOptions (12 + body.length) (32 + align captured)
      (body.drop (20 + align captured)) = .ok (body.drop (20 + align captured)) :=
    skipOptions_of_le (by omega)
  have paddable : ¬unpaddable ≤ captured := by
    have := le_align captured
    unfold unpaddable
    unfold wordLimit at room
    omega
  simp only [Kind.read, bind, Except.bind, head, read, paddable, if_false, data, options, pure,
    Except.pure]

theorem read_simplePacket {wire stored : Nat} (size : body.length = 4 + stored)
    (read : order.field 0 4 body = wire) :
    Kind.read .simplePacket order (12 + body.length) body =
      .ok (.simplePacket wire stored, body.drop (4 + stored)) := by
  have head : skip 4 body = .ok (body.drop 4) := skip_of_le (by omega)
  have data : skip stored (body.drop 4) = .ok (body.drop (4 + stored)) := by
    rw [skip_drop (by omega), skip_of_le size.ge]
  have length : 12 + body.length - 16 = stored := by omega
  simp only [Kind.read, bind, Except.bind, head, read, length, data, pure, Except.pure]

end Frames

/-! ### Section headers -/

/-- The number by which a section header shows its byte order. -/
def orderMark : Nat := 0x1a2b3c4d

/-- A section header is recognized whatever the byte order around it is. -/
theorem headerCode_framed (order own : ByteOrder) (body : List UInt8) :
    order.field 0 4 (framed own headerCode body) = headerCode := by
  have written : own.number 4 headerCode = [0x0a, 0x0d, 0x0d, 0x0a] := by cases own <;> decide
  have read : order.value [0x0a, 0x0d, 0x0d, 0x0a] = headerCode := by cases order <;> decide
  rw [framed, written]
  exact read

theorem markedOrder?_orderMark (own : ByteOrder) (bs : List UInt8) :
    markedOrder? (own.number 4 orderMark ++ bs) = some own := by
  cases own <;> rfl

/-- The body of a section header, with nothing looked into but the mark. -/
def headerBody (own : ByteOrder) (settings : Vector UInt8 12) (options : List UInt8) : List UInt8 :=
  own.number 4 orderMark ++ (settings.toList ++ options)

theorem length_headerBody (own : ByteOrder) (settings : Vector UInt8 12) (options : List UInt8) :
    (headerBody own settings options).length = 16 + options.length := by
  simp only [headerBody, List.length_append, ByteOrder.length_number, Vector.length_toList]
  omega

theorem length_framed_headerBody (order own : ByteOrder) (code : Nat) (settings : Vector UInt8 12)
    (options : List UInt8) :
    (framed order code (headerBody own settings options)).length = 28 + options.length := by
  rw [length_framed, length_headerBody]
  omega

/-- **A section header is read in its own byte order.** -/
theorem parse_header (order own : ByteOrder) (settings : Vector UInt8 12) {options : List UInt8}
    (room : 28 + options.length < wordLimit) :
    parse order (framed own headerCode (headerBody own settings options)) =
      .ok ⟨(framed own headerCode (headerBody own settings options)).length, .sectionHeader own⟩ := by
  have length := length_headerBody own settings options
  have size := length_framed own headerCode (headerBody own settings options)
  have mark : markedOrder? ((framed own headerCode (headerBody own settings options)).drop 8) =
      some own := by
    rw [drop_framed, headerBody, List.append_assoc]
    exact markedOrder?_orderMark own _
  have read : Kind.read .sectionHeader own (12 + (headerBody own settings options).length)
      (headerBody own settings options) =
        .ok (.sectionHeader own, (headerBody own settings options).drop (16 + options.length)) := by
    rw [Kind.read, skip_of_le (by omega), length]
    show (skipOptions _ _ _ >>= _) = _
    rw [skipOptions, skip_drop (by omega), skip_of_le (by omega)]
    show Except.ok (_, _) = _
    congr 3
    omega
  have long : Kind.minimum .sectionHeader ≤ 12 + (headerBody own settings options).length := by
    show 28 ≤ _
    omega
  rw [← parseKind_framed headerCode long (by omega) read, parse, skip_of_le (by omega), headerCode_framed]
  show (skip 12 _ >>= _) = _
  rw [skip_of_le (by omega), mark]
  rfl

/-! ### The other blocks -/

/-- A block behind the header of a section. -/
inductive Part where
  /-- The description of an interface, without options. -/
  | interface (settings : Vector UInt8 8)
  /-- A packet with its length on the wire, and its data padded to words. -/
  | enhancedPacket (stamp : Vector UInt8 12) (wire : Vector UInt8 4) (data : List UInt8)
      (padding : Vector UInt8 (align data.length - data.length))
      (room : 32 + align data.length < wordLimit)
  /-- A packet that is as long as it was on the wire. -/
  | simplePacket (data : List UInt8) (padding : Vector UInt8 (align data.length - data.length))
      (room : 16 + align data.length < wordLimit)
  /-- A block that is not looked into. -/
  | other (code : Nat) (body : List UInt8) (codeRoom : code < wordLimit)
      (kind : Kind.ofCode code = .uninterpreted) (room : 12 + body.length < wordLimit)

namespace Part

/-- The type of a block. -/
def code : Part → Nat
  | .interface .. => 1
  | .enhancedPacket .. => 6
  | .simplePacket .. => 3
  | .other code .. => code

/-- The body of a block as it is written. -/
def body (order : ByteOrder) : Part → List UInt8
  | .interface settings => settings.toList
  | .enhancedPacket stamp wire data padding _ =>
    stamp.toList ++ (order.number 4 data.length ++ (wire.toList ++ (data ++ padding.toList)))
  | .simplePacket data padding _ => order.number 4 data.length ++ (data ++ padding.toList)
  | .other _ body .. => body

/-- What a block is read as. -/
def block : Part → Block
  | .interface .. => .description
  | .enhancedPacket _ _ data .. => .enhancedPacket data.length
  | .simplePacket data .. => .simplePacket data.length (align data.length)
  | .other .. => .description

/-- The data of a packet, without its padding. -/
def data? : Part → Option (List UInt8)
  | .interface .. => none
  | .enhancedPacket _ _ data .. => some data
  | .simplePacket data .. => some data
  | .other .. => none

/-- The bytes of a block. -/
def bytes (order : ByteOrder) (part : Part) : List UInt8 := framed order part.code (part.body order)

/-- What is counted of a block is its data. -/
theorem packet?_block (part : Part) : part.block.packet? = part.data?.map List.length := by
  cases part with
  | simplePacket data padding room => exact congrArg some (min_eq_left (le_align data.length))
  | _ => rfl

/-- No block but a section header changes the byte order. -/
theorem after_block (order : ByteOrder) (part : Part) :
    (Format.sections order).after part.block = .sections order := by
  cases part <;> rfl

theorem length_padded (data : List UInt8) (padding : Vector UInt8 (align data.length - data.length)) :
    (data ++ padding.toList).length = align data.length := by
  rw [List.length_append, Vector.length_toList]
  exact Nat.add_sub_of_le (le_align data.length)

theorem length_enhancedPacket (order : ByteOrder) (stamp : Vector UInt8 12) (wire : Vector UInt8 4)
    (data : List UInt8) (padding : Vector UInt8 (align data.length - data.length))
    (room : 32 + align data.length < wordLimit) :
    (body order (.enhancedPacket stamp wire data padding room)).length = 20 + align data.length := by
  rw [body, List.length_append, List.length_append, List.length_append, length_padded]
  simp only [Vector.length_toList, ByteOrder.length_number]
  omega

theorem length_simplePacket (order : ByteOrder) (data : List UInt8)
    (padding : Vector UInt8 (align data.length - data.length))
    (room : 16 + align data.length < wordLimit) :
    (body order (.simplePacket data padding room)).length = 4 + align data.length := by
  rw [body, List.length_append, length_padded, ByteOrder.length_number]

/-- **A block is read as it was written**, in either byte order. -/
theorem parse_bytes (order : ByteOrder) (part : Part) :
    parse order (part.bytes order) = .ok ⟨(part.bytes order).length, part.block⟩ := by
  cases part with
  | interface settings =>
    have size : settings.toList.length = 8 := settings.length_toList
    have long : Kind.minimum .interface ≤ 12 + settings.toList.length := by rw [size]; decide
    have room : 12 + settings.toList.length < wordLimit := by rw [size]; decide
    exact parse_framed (show 1 < wordLimit by decide) (show Kind.ofCode 1 = .interface from rfl)
      (by decide) long room (read_interface size.ge)
  | enhancedPacket stamp wire data padding room =>
    have size := length_enhancedPacket order stamp wire data padding room
    have length : data.length < wordLimit := by
      have := le_align data.length
      omega
    have captured : order.field 12 4 (body order (.enhancedPacket stamp wire data padding room)) =
        data.length := by
      have read := @ByteOrder.field_number order 4 _ stamp.toList
        (wire.toList ++ (data ++ padding.toList)) length
      rwa [Vector.length_toList] at read
    have long : Kind.minimum .enhancedPacket ≤
        12 + (body order (.enhancedPacket stamp wire data padding room)).length := by
      show 32 ≤ _
      omega
    exact parse_framed (show 6 < wordLimit by decide) (show Kind.ofCode 6 = .enhancedPacket from rfl)
      (by decide) long (by omega) (read_enhancedPacket size captured room)
  | simplePacket data padding room =>
    have size := length_simplePacket order data padding room
    have length : data.length < wordLimit := by
      have := le_align data.length
      omega
    have wire : order.field 0 4 (body order (.simplePacket data padding room)) = data.length :=
      @ByteOrder.field_number order 4 _ [] (data ++ padding.toList) length
    have long : Kind.minimum .simplePacket ≤
        12 + (body order (.simplePacket data padding room)).length := by
      show 16 ≤ _
      omega
    exact parse_framed (show 3 < wordLimit by decide) (show Kind.ofCode 3 = .simplePacket from rfl)
      (by decide) long (by omega) (read_simplePacket size wire)
  | other code body codeRoom kind room =>
    have long : Kind.minimum .uninterpreted ≤ 12 + body.length := Nat.le_add_right 12 _
    exact parse_framed codeRoom kind (by decide) long room rfl

end Part
end SectionBlock

/-! ### Sections in a row -/

/-- A section: the byte order of its blocks, what its header carries, and the
blocks behind the header. -/
structure Section where
  order : ByteOrder
  /-- The version of the format, and the length of the section. -/
  settings : Vector UInt8 12
  options : List UInt8 := []
  parts : List SectionBlock.Part
  /-- The length of the header has room in its four bytes. -/
  header_lt : 28 + options.length < SectionBlock.wordLimit

namespace Section

/-- The header of a section. -/
def header (sec : Section) : WrittenBlock :=
  ⟨SectionBlock.framed sec.order SectionBlock.headerCode
    (SectionBlock.headerBody sec.order sec.settings sec.options), .sectionHeader sec.order⟩

/-- The blocks of a section, the header first. -/
def blocks (sec : Section) : List WrittenBlock :=
  sec.header :: sec.parts.map fun part => ⟨part.bytes sec.order, part.block⟩

/-- The data of the packets of a section. -/
def packets (sec : Section) : List (List UInt8) := sec.parts.filterMap SectionBlock.Part.data?

theorem length_header (sec : Section) : sec.header.bytes.length = 28 + sec.options.length :=
  SectionBlock.length_framed_headerBody ..

/-- The blocks of a section are read in its own byte order, whatever came in front. -/
theorem spells_blocks (sec : Section) (order : ByteOrder) {behind : List WrittenBlock}
    (rest : (Format.sections sec.order).Spells behind) :
    (Format.sections order).Spells (sec.blocks ++ behind) := by
  refine .cons (SectionBlock.parse_header order sec.order sec.settings sec.header_lt) ?_
  show (Format.sections sec.order).Spells (sec.parts.map _ ++ behind)
  induction sec.parts with
  | nil => exact rest
  | cons part parts ih =>
    refine .cons (part.parse_bytes sec.order) ?_
    rw [part.after_block]
    exact ih

/-- What is counted of a section is the data of its packets. -/
theorem packets_blocks (sec : Section) :
    sec.blocks.filterMap (·.block.packet?) = sec.packets.map List.length := by
  have counted : (fun written : WrittenBlock => written.block.packet?) ∘
      (fun part : SectionBlock.Part => ⟨part.bytes sec.order, part.block⟩) =
        fun part => part.data?.map List.length := funext SectionBlock.Part.packet?_block
  rw [blocks, List.filterMap_cons_none rfl, List.filterMap_map, counted, packets, List.map_filterMap]

end Section

/-- Sections one after another, of which there is at least one. -/
structure SectionFile where
  first : Section
  rest : List Section

namespace SectionFile

/-- All sections of a file. -/
def sections (file : SectionFile) : List Section := file.first :: file.rest

/-- The blocks of a file, section headers included. -/
def blocks (file : SectionFile) : List WrittenBlock := file.sections.flatMap Section.blocks

/-- The bytes of a file. -/
def bytes (file : SectionFile) : List UInt8 := WrittenBlock.bytesOf file.blocks

/-- The data of the packets of a file. -/
def packets (file : SectionFile) : List (List UInt8) := file.sections.flatMap Section.packets

variable {file : SectionFile} {cut capacity : Nat}

/-- The counters of a file are those of its blocks and of the data of its packets. -/
theorem tally_blocks (file : SectionFile) : WrittenBlock.tally file.blocks =
    ⟨(file.sections.map fun sec => sec.parts.length + 1).sum, file.packets.length,
      (file.packets.map List.length).sum⟩ := by
  have count : file.blocks.length = (file.sections.map fun sec => sec.parts.length + 1).sum := by
    rw [blocks, List.length_flatMap]
    simp only [Section.blocks, List.length_cons, List.length_map]
  have captured : file.blocks.filterMap (·.block.packet?) = file.packets.map List.length := by
    rw [blocks, List.filterMap_flatMap, packets, List.map_flatMap]
    simp only [Section.packets_blocks]
  simp only [WrittenBlock.tally, count, captured, List.length_map]

/-- Every section sets its own byte order, so a file is read whatever the order is at its start. -/
theorem spells_blocks (file : SectionFile) (order : ByteOrder) :
    (Format.sections order).Spells file.blocks := by
  rw [blocks]
  induction file.sections generalizing order with
  | nil => exact .nil _
  | cons sec sections ih =>
    rw [List.flatMap_cons]
    exact sec.spells_blocks order (ih sec.order)

/-- The first header is in front of all that follows. -/
theorem bytes_eq (file : SectionFile) :
    ∃ behind, file.bytes = file.first.header.bytes ++ behind :=
  ⟨_, WrittenBlock.bytesOf_cons file.first.header _⟩

theorem header_le (file : SectionFile) : file.first.header.bytes.length ≤ file.bytes.length := by
  obtain ⟨behind, split⟩ := file.bytes_eq
  rw [split, List.length_append]
  exact Nat.le_add_right _ _

theorem header_mem (file : SectionFile) : file.first.header ∈ file.blocks :=
  List.mem_append_left _ List.mem_cons_self

/-- The first header opens the file, wherever the blocks behind it are cut. -/
theorem opens_take (there : file.first.header.bytes.length ≤ cut) :
    (Format.sections .little).Opens (file.bytes.take cut) := by
  obtain ⟨behind, split⟩ := file.bytes_eq
  have parsed := SectionBlock.parse_header .little file.first.order file.first.settings
    file.first.header_lt
  rw [split, List.take_append, List.take_of_length_le there]
  exact .sections (@Format.parse_append_of_ok (.sections .little) _ _ _ parsed)

/-- The blocks of a file need less room than the buffer has. -/
theorem fits_take (sizes : ∀ written ∈ file.blocks, written.bytes.length < capacity) (cut : Nat) :
    (Format.sections .little).Fits (capacity - 1) (file.bytes.take cut) := by
  have header := sizes _ file.header_mem
  rw [Section.length_header] at header
  apply (file.spells_blocks .little).fits_take (by omega)
  intro written mem
  exact Nat.le_sub_one_of_lt (sizes written mem)

/-- A walk over a file finds all of its blocks. -/
theorem walk_bytes (file : SectionFile) : walk file.bytes = .ok (WrittenBlock.tally file.blocks) := by
  have opens : (Format.sections .little).Opens file.bytes := by
    rw [← List.take_length (l := file.bytes)]
    exact opens_take file.header_le
  rw [walk_of_opens opens, if_neg (by decide), bytes, (file.spells_blocks .little).walk_all,
    WrittenBlock.foldl_count_empty]

/-- A walk over a file that is cut behind its first header finds the blocks in front of the cut. -/
theorem walk_take (there : file.first.header.bytes.length ≤ cut) (within : cut ≤ file.bytes.length) :
    WrittenBlock.SeenUpTo file.blocks cut (.ofExcept (walk (file.bytes.take cut))) := by
  obtain ⟨k, greatest, walked⟩ := (file.spells_blocks .little).walk_take within {} 0
  refine ⟨k, greatest, ?_⟩
  rw [walk_of_opens (opens_take there), if_neg (by decide), bytes, walked,
    WrittenBlock.foldl_count_empty, Nat.zero_add]
  by_cases whole : WrittenBlock.boundary file.blocks k = cut
  · rw [if_pos whole, if_pos whole]
    rfl
  · rw [if_neg whole, if_neg whole]
    rfl

end SectionFile

variable {capacity : Nat}

/-- **A sequence of sections is counted exactly, and a cut one is located exactly.**
Through a buffer longer than every block, the file shows all of its blocks,
section headers included, and its packets with their data. Cut anywhere behind
its first header, it shows the blocks in front of the cut, or, if the cut is
inside a block, the start of that block. Through a buffer that cannot be made,
nothing is seen. -/
theorem tallyOf_sectionFile (file : SectionFile)
    (sizes : ∀ written ∈ file.blocks, written.bytes.length < capacity) :
    (capacity ≤ bufferLimit →
      tallyOf file.bytes capacity = .finished
        ⟨(file.sections.map fun sec => sec.parts.length + 1).sum, file.packets.length,
          (file.packets.map List.length).sum⟩ ∧
      ∀ cut, file.first.header.bytes.length ≤ cut → cut ≤ file.bytes.length →
        WrittenBlock.SeenUpTo file.blocks cut (tallyOf (file.bytes.take cut) capacity)) ∧
    (bufferLimit < capacity → ∀ cut, tallyOf (file.bytes.take cut) capacity = .overflowed .capacity) := by
  rw [← file.tally_blocks]
  exact WrittenBlock.tallyOf_bytesOf (sizes _ file.header_mem)
    (fun cut there => SectionFile.opens_take there) (SectionFile.fits_take sizes) file.walk_bytes
    fun cut there => SectionFile.walk_take there

/-- Two sections of different byte orders, with a block of every kind. -/
def mixedFile : SectionFile :=
  ⟨⟨.big, ⟨#[0, 1, 0, 0, 0xff, 0xff, 0xff, 0xff, 0xff, 0xff, 0xff, 0xff], rfl⟩, [],
    [.interface ⟨#[0, 1, 0, 0, 0, 0, 0xff, 0xff], rfl⟩,
      .enhancedPacket ⟨#[0, 0, 0, 0, 0, 0, 0, 7, 0, 0, 0, 8], rfl⟩ ⟨#[0, 0, 0, 64], rfl⟩
        [0xca, 0xfe, 0xba, 0xbe, 0xed] ⟨#[0, 0, 0], rfl⟩ (by decide)], by decide⟩,
    [⟨.little, ⟨#[1, 0, 0, 0, 0xff, 0xff, 0xff, 0xff, 0xff, 0xff, 0xff, 0xff], rfl⟩, [],
      [.other 9 [1, 2, 3, 4] (by decide) rfl (by decide),
        .simplePacket [0xfe, 0xed, 0x01] ⟨#[0], rfl⟩ (by decide)], by decide⟩]⟩

theorem sizes_mixedFile : ∀ written ∈ mixedFile.blocks, written.bytes.length < 41 := by decide

theorem tallyOf_mixedFile : (∀ written ∈ mixedFile.blocks, written.bytes.length < 41) ∧
    tallyOf mixedFile.bytes 41 = .finished ⟨6, 2, 8⟩ ∧
    WrittenBlock.SeenUpTo mixedFile.blocks 130 (tallyOf (mixedFile.bytes.take 130) 41) := by
  obtain ⟨whole, cut⟩ := (tallyOf_sectionFile mixedFile sizes_mixedFile).1 (by decide)
  exact ⟨sizes_mixedFile, whole, cut 130 (by decide) (by decide +kernel)⟩

example : tallyOf (mixedFile.bytes.take 130) 41 = .failed (.truncated 116) := by cbv

/-- A buffer that cannot be made shows nothing of the sections. -/
theorem tallyOf_mixedFile_too_long :
    (∀ written ∈ mixedFile.blocks, written.bytes.length < 9223372036854775808) ∧
    tallyOf mixedFile.bytes 9223372036854775808 = .overflowed .capacity := by
  refine ⟨fun written mem => ?_, tallyOf_of_lt (by decide)⟩
  have size := sizes_mixedFile written mem
  omega

end CapturePace
