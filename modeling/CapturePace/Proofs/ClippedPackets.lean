/-
# Simple packets that were clipped count padding

An interface may store no more than so many bytes of a packet, its snapshot
length. A simple packet says how long it was on the wire, and not how much of
it is stored; its data is padded to words. What is counted of it is the
smaller of its length on the wire and the padded length. While the packet is
whole that is its data (`SectionBlock.Part.packet?_block`). If it was clipped,
it is the padded length unless the wire stops before that, so padding is
counted as well, up to three bytes of it (`ClippedPacket.counted_le`), just
when the snapshot length is not in words (`ClippedPacket.counted_eq_iff`).

The section is written with one interface that clips, and with any blocks that
carry no packet around it. Its blocks are all found, and its counter of bytes
is right exactly if no packet is counted with padding (`tallyOf_clippedSection`).

Key definitions: `ClippedPacket`, `ClippedPart`, `ClippedSection`.
Key theorems: `ClippedPacket.counted_eq_iff`, `sum_counted_eq_iff`,
`tallyOf_clippedSection`.
-/
import CapturePace.Proofs.SectionFile

namespace CapturePace

open SectionBlock (framed wordLimit)

/-! ### Packets that were clipped -/

/-- A simple packet from an interface that stores no more than `snap` bytes of
a packet. -/
structure ClippedPacket (snap : Nat) where
  /-- The length of the packet on the wire. -/
  wire : Nat
  /-- What is stored of it. -/
  data : List UInt8
  padding : Vector UInt8 (align data.length - data.length)
  length_data : data.length = min wire snap
  wire_lt : wire < wordLimit
  room : 16 + align data.length < wordLimit

namespace ClippedPacket

variable {snap : Nat}

/-- The body of the block of a packet. -/
def body (order : ByteOrder) (packet : ClippedPacket snap) : List UInt8 :=
  order.number 4 packet.wire ++ (packet.data ++ packet.padding.toList)

/-- The block of a packet. -/
def written (order : ByteOrder) (packet : ClippedPacket snap) : WrittenBlock :=
  ⟨framed order 3 (packet.body order), .simplePacket packet.wire (align packet.data.length)⟩

/-- The bytes that are counted of a packet. -/
def counted (packet : ClippedPacket snap) : Nat := min packet.wire (align packet.data.length)

theorem length_body (order : ByteOrder) (packet : ClippedPacket snap) :
    (packet.body order).length = 4 + align packet.data.length := by
  rw [body, List.length_append, SectionBlock.Part.length_padded, ByteOrder.length_number]

theorem parse_written (order : ByteOrder) (packet : ClippedPacket snap) :
    SectionBlock.parse order (packet.written order).bytes =
      .ok ⟨(packet.written order).bytes.length, (packet.written order).block⟩ := by
  have size := packet.length_body order
  have room := packet.room
  have wire : order.field 0 4 (packet.body order) = packet.wire :=
    order.field_number [] (packet.data ++ packet.padding.toList) packet.wire_lt
  have long : SectionBlock.Kind.minimum .simplePacket ≤ 12 + (packet.body order).length := by
    show 16 ≤ _
    omega
  exact SectionBlock.parse_framed (show 3 < wordLimit by decide)
    (show SectionBlock.Kind.ofCode 3 = .simplePacket from rfl) (by decide) long (by omega)
    (SectionBlock.read_simplePacket size wire)

/-- No stored byte is left out. -/
theorem length_le_counted (packet : ClippedPacket snap) : packet.data.length ≤ packet.counted :=
  le_min (packet.length_data.trans_le (min_le_left _ _)) (le_align _)

/-- At most three bytes of padding are counted. -/
theorem counted_le (packet : ClippedPacket snap) : packet.counted ≤ packet.data.length + 3 :=
  (min_le_right _ _).trans (Nat.le_of_lt_succ (align_lt _))

/-- **What is counted is what is stored** just when the packet is whole or the
snapshot length leaves no padding. -/
theorem counted_eq_iff (packet : ClippedPacket snap) :
    packet.counted = packet.data.length ↔ packet.wire ≤ snap ∨ 4 ∣ snap := by
  rw [counted, packet.length_data]
  unfold align
  omega

end ClippedPacket

theorem sum_counted_le {snap : Nat} (packets : List (ClippedPacket snap)) :
    (packets.map ClippedPacket.counted).sum ≤
      (packets.map fun packet => packet.data.length).sum + 3 * packets.length := by
  induction packets with
  | nil => exact le_rfl
  | cons packet packets ih =>
    have here := packet.counted_le
    rw [List.map_cons, List.map_cons, List.sum_cons, List.sum_cons, List.length_cons]
    omega

/-- **The counter of bytes is right just when no packet is counted with padding.** -/
theorem sum_counted_eq_iff {snap : Nat} (packets : List (ClippedPacket snap)) :
    (packets.map ClippedPacket.counted).sum = (packets.map fun packet => packet.data.length).sum ↔
      ∀ packet ∈ packets, packet.wire ≤ snap ∨ 4 ∣ snap := by
  induction packets with
  | nil => simp
  | cons packet packets ih =>
    have here := packet.length_le_counted
    have rest : (packets.map fun packet => packet.data.length).sum ≤
        (packets.map ClippedPacket.counted).sum :=
      List.sum_le_sum fun packet _ => packet.length_le_counted
    rw [List.forall_mem_cons, ← ih, ← packet.counted_eq_iff, List.map_cons, List.map_cons, List.sum_cons,
      List.sum_cons]
    omega

/-! ### Blocks of one byte order -/

/-- The bytes of a block are read back in a byte order, and leave it as it is. -/
structure WrittenBlock.Keeps (order : ByteOrder) (written : WrittenBlock) : Prop where
  parsed : SectionBlock.parse order written.bytes = .ok ⟨written.bytes.length, written.block⟩
  after : (Format.sections order).after written.block = .sections order

theorem Format.spells_of_keeps {order : ByteOrder} {blocks : List WrittenBlock}
    (keeps : ∀ written ∈ blocks, written.Keeps order) : (Format.sections order).Spells blocks := by
  induction blocks with
  | nil => exact .nil _
  | cons written blocks ih =>
    obtain ⟨parsed, after⟩ := keeps written List.mem_cons_self
    refine .cons parsed ?_
    rw [after]
    exact ih fun other mem => keeps other (List.mem_cons_of_mem _ mem)

/-- A section of written blocks is counted through a buffer longer than each of them. -/
theorem WrittenBlock.tallyOf_section {first : WrittenBlock} {blocks : List WrittenBlock} {own : ByteOrder}
    {capacity : Nat} (header : first.block = .sectionHeader own)
    (spells : (Format.sections .little).Spells (first :: blocks))
    (room : 24 < first.bytes.length)
    (sizes : ∀ written ∈ first :: blocks, written.bytes.length < capacity) (made : capacity ≤ bufferLimit) :
    tallyOf (bytesOf (first :: blocks)) capacity = .finished (tally (first :: blocks)) := by
  have size := sizes first List.mem_cons_self
  have opens : ∀ behind, (Format.sections .little).Opens (first.bytes ++ behind) := by
    intro behind
    cases spells with
    | cons parsed _ =>
      rw [header] at parsed
      exact .sections (@Format.parse_append_of_ok (.sections .little) _ _ behind parsed)
  have shorter : ∀ written ∈ first :: blocks, written.bytes.length ≤ capacity - 1 :=
    fun written mem => Nat.le_sub_one_of_lt (sizes written mem)
  have fits := spells.fits_take (by omega) shorter (bytesOf (first :: blocks)).length
  have walked : walk (bytesOf (first :: blocks)) = .ok (tally (first :: blocks)) := by
    have whole := opens (bytesOf blocks)
    rw [← bytesOf_cons] at whole
    rw [walk_of_opens whole, if_neg (by decide), spells.walk_all, foldl_count_empty]
  have shown : (Format.sections .little).Opens ((bytesOf (first :: blocks)).take capacity) := by
    rw [bytesOf_cons, List.take_append, List.take_of_length_le size.le]
    exact opens _
  rw [List.take_length] at fits
  exact tallyOf_of_walk (.counted _) shown fits (Nat.sub_one_lt_of_lt size) made walked

/-! ### Sections with one interface that clips -/

/-- A block that carries no packet, whatever it is. -/
structure Filler (order : ByteOrder) where
  bytes : List UInt8
  parsed : SectionBlock.parse order bytes = .ok ⟨bytes.length, .description⟩

/-- The block as it is written. -/
def Filler.written {order : ByteOrder} (filler : Filler order) : WrittenBlock := ⟨filler.bytes, .description⟩

/-- A block behind the interface: a packet of it, or one without a packet. -/
inductive ClippedPart (order : ByteOrder) (snap : Nat) where
  | clipped (packet : ClippedPacket snap)
  | other (filler : Filler order)

namespace ClippedPart

variable {order : ByteOrder} {snap : Nat}

/-- The block as it is written. -/
def written : ClippedPart order snap → WrittenBlock
  | .clipped packet => packet.written order
  | .other filler => filler.written

/-- The packet of a block. -/
def packet? : ClippedPart order snap → Option (ClippedPacket snap)
  | .clipped packet => some packet
  | .other _ => none

theorem keeps (part : ClippedPart order snap) : part.written.Keeps order := by
  cases part with
  | clipped packet => exact ⟨packet.parse_written order, rfl⟩
  | other filler => exact ⟨filler.parsed, rfl⟩

theorem packet?_written (part : ClippedPart order snap) :
    part.written.block.packet? = part.packet?.map ClippedPacket.counted := by
  cases part <;> rfl

end ClippedPart

/-- A section whose first interface stores no more than `snap` bytes of a packet. -/
structure ClippedSection where
  order : ByteOrder
  /-- The version of the format, and the length of the section. -/
  settings : Vector UInt8 12
  options : List UInt8 := []
  /-- The length of the header has room in its four bytes. -/
  header_lt : 28 + options.length < wordLimit
  /-- The blocks between the header and the first interface. -/
  front : List (Filler order) := []
  front_ne : ∀ filler ∈ front, SectionBlock.Kind.ofCode (order.field 0 4 filler.bytes) ≠ .interface
  /-- The kind of link that the interface is on. -/
  link : Vector UInt8 4
  snap : Nat
  snap_pos : 0 < snap
  snap_lt : snap < wordLimit
  /-- The options of the interface. -/
  details : List UInt8 := []
  interface_lt : 20 + details.length < wordLimit
  /-- The blocks behind the first interface. -/
  parts : List (ClippedPart order snap)

namespace ClippedSection

/-- The header of a section. -/
def header (sec : ClippedSection) : WrittenBlock :=
  ⟨framed sec.order SectionBlock.headerCode (SectionBlock.headerBody sec.order sec.settings sec.options),
    .sectionHeader sec.order⟩

/-- The body of the description of the interface. -/
def interfaceBody (sec : ClippedSection) : List UInt8 :=
  sec.link.toList ++ (sec.order.number 4 sec.snap ++ sec.details)

/-- The description of the interface. -/
def interface (sec : ClippedSection) : WrittenBlock := ⟨framed sec.order 1 sec.interfaceBody, .description⟩

/-- The blocks of a section behind its header. -/
def behind (sec : ClippedSection) : List WrittenBlock :=
  sec.front.map Filler.written ++ sec.interface :: sec.parts.map ClippedPart.written

/-- The blocks of a section, the header first. -/
def blocks (sec : ClippedSection) : List WrittenBlock := sec.header :: sec.behind

/-- The bytes of a section. -/
def bytes (sec : ClippedSection) : List UInt8 := WrittenBlock.bytesOf sec.blocks

/-- The packets of a section. -/
def packets (sec : ClippedSection) : List (ClippedPacket sec.snap) := sec.parts.filterMap ClippedPart.packet?

theorem length_interfaceBody (sec : ClippedSection) :
    sec.interfaceBody.length = 8 + sec.details.length := by
  simp only [interfaceBody, List.length_append, Vector.length_toList, ByteOrder.length_number]
  omega

theorem length_header (sec : ClippedSection) : sec.header.bytes.length = 28 + sec.options.length :=
  SectionBlock.length_framed_headerBody ..

theorem keeps_interface (sec : ClippedSection) : sec.interface.Keeps sec.order := by
  have size := sec.length_interfaceBody
  have room := sec.interface_lt
  have long : SectionBlock.Kind.minimum .interface ≤ 12 + sec.interfaceBody.length := by
    show 20 ≤ _
    omega
  have small : 12 + sec.interfaceBody.length < wordLimit := by omega
  have settings : 8 ≤ sec.interfaceBody.length := by omega
  exact ⟨SectionBlock.parse_framed (show 1 < wordLimit by decide)
    (show SectionBlock.Kind.ofCode 1 = .interface from rfl) (by decide) long small
    (SectionBlock.read_interface settings), rfl⟩

theorem keeps_behind (sec : ClippedSection) : ∀ written ∈ sec.behind, written.Keeps sec.order := by
  intro written mem
  rcases List.mem_append.1 mem with front | rest
  · obtain ⟨filler, -, rfl⟩ := List.mem_map.1 front
    exact ⟨filler.parsed, rfl⟩
  rcases List.mem_cons.1 rest with rfl | rest
  · exact sec.keeps_interface
  · obtain ⟨part, -, rfl⟩ := List.mem_map.1 rest
    exact part.keeps

/-- The blocks of a section are read in its own byte order, whatever came in front. -/
theorem spells_blocks (sec : ClippedSection) (order : ByteOrder) :
    (Format.sections order).Spells sec.blocks :=
  .cons (SectionBlock.parse_header order sec.order sec.settings sec.header_lt)
    (Format.spells_of_keeps sec.keeps_behind)

/-- The counters of a section are those of its blocks and packets. -/
theorem tally_blocks (sec : ClippedSection) : WrittenBlock.tally sec.blocks =
    ⟨sec.blocks.length, sec.packets.length, (sec.packets.map ClippedPacket.counted).sum⟩ := by
  have front : sec.front.filterMap ((fun written => written.block.packet?) ∘ Filler.written) = [] :=
    List.filterMap_eq_nil_iff.2 fun _ _ => rfl
  have parts : (fun written : WrittenBlock => written.block.packet?) ∘ ClippedPart.written =
      fun part : ClippedPart sec.order sec.snap => part.packet?.map ClippedPacket.counted :=
    funext ClippedPart.packet?_written
  have counted : sec.blocks.filterMap (fun written => written.block.packet?) =
      sec.packets.map ClippedPacket.counted := by
    rw [blocks, List.filterMap_cons_none rfl, behind, List.filterMap_append, List.filterMap_map, front,
      List.nil_append, List.filterMap_cons_none rfl, List.filterMap_map, parts, packets,
      List.map_filterMap]
  simp only [WrittenBlock.tally, counted, List.length_map]

end ClippedSection

variable {capacity : Nat}

/-- **A section whose interface clips is counted with the padding of its packets.**
Through a buffer longer than every block all blocks and packets are found. The
counter of bytes adds the smaller of the length on the wire and the padded
length for each packet, which is up to three bytes too much; it is the number
of bytes stored exactly if every packet is whole or the snapshot length is in
words. Through a buffer that cannot be made, nothing is seen. -/
theorem tallyOf_clippedSection (sec : ClippedSection)
    (sizes : ∀ written ∈ sec.blocks, written.bytes.length < capacity) :
    (capacity ≤ bufferLimit → ∃ captured,
      tallyOf sec.bytes capacity = .finished ⟨sec.blocks.length, sec.packets.length, captured⟩ ∧
      captured = (sec.packets.map fun packet => min packet.wire (align (min packet.wire sec.snap))).sum ∧
      captured ≤ (sec.packets.map fun packet => min packet.wire sec.snap).sum + 3 * sec.packets.length ∧
      (captured = (sec.packets.map fun packet => min packet.wire sec.snap).sum ↔
        ∀ packet ∈ sec.packets, packet.wire ≤ sec.snap ∨ 4 ∣ sec.snap)) ∧
    (bufferLimit < capacity → tallyOf sec.bytes capacity = .overflowed .capacity) := by
  refine ⟨fun made => ⟨(sec.packets.map ClippedPacket.counted).sum, ?_, ?_, ?_, ?_⟩, tallyOf_of_lt⟩
  · have header : 24 < sec.header.bytes.length := by
      rw [sec.length_header]
      omega
    rw [ClippedSection.bytes, ← sec.tally_blocks]
    exact WrittenBlock.tallyOf_section rfl (sec.spells_blocks .little) header sizes made
  · simp only [← ClippedPacket.length_data]
    rfl
  · simp only [← ClippedPacket.length_data]
    exact sum_counted_le sec.packets
  · simp only [← ClippedPacket.length_data]
    exact sum_counted_eq_iff sec.packets

/-- Ten bytes on the wire, of which the interface stores six, padded to eight. -/
def oddlyClipped : ClippedSection where
  order := .little
  settings := ⟨#[1, 0, 0, 0, 44, 0, 0, 0, 0, 0, 0, 0], rfl⟩
  options := [0, 0, 0, 0]
  header_lt := by decide
  front_ne := fun _ there => absurd there List.not_mem_nil
  link := ⟨#[1, 0, 0, 0], rfl⟩
  snap := 6
  snap_pos := by decide
  snap_lt := by decide
  interface_lt := by decide
  parts := [.clipped ⟨10, [1, 2, 3, 4, 5, 6], ⟨#[0, 0], rfl⟩, rfl, by decide, by decide⟩]

theorem tallyOf_oddlyClipped : (∀ written ∈ oddlyClipped.blocks, written.bytes.length < 33) ∧
    ∃ captured, tallyOf oddlyClipped.bytes 33 = .finished ⟨3, 1, captured⟩ ∧ captured = 8 := by
  have sizes : ∀ written ∈ oddlyClipped.blocks, written.bytes.length < 33 := by decide
  obtain ⟨captured, seen, sum, -⟩ := (tallyOf_clippedSection oddlyClipped sizes).1 (by decide)
  exact ⟨sizes, captured, seen, sum⟩

/-- The two bytes of padding are counted as if they were stored. -/
theorem tallyOf_oddlyClipped_padded : (∀ written ∈ oddlyClipped.blocks, written.bytes.length < 33) ∧
    (oddlyClipped.packets.map fun packet => min packet.wire oddlyClipped.snap).sum = 6 ∧
    tallyOf oddlyClipped.bytes 33 = .finished ⟨3, 1, 8⟩ := by
  refine ⟨by decide, by decide, ?_⟩
  cbv

end CapturePace
