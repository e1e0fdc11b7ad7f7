/-
# Counters are backed by bytes

The lengths in a capture are claims of whoever wrote it. What a walk counts of
them is there: a block with a packet takes at least sixteen bytes more than
the packet bytes it stores, and every other block takes at least twelve
(`Format.backed_of_parse`). So a walk cannot count more than it has gone
through (`Format.weight_le_of_walk`), and behind the header of a file of
records it counts every byte exactly once (`RecordLayout.account_of_walk`).
Both are inductions on the walk; counters seen through a window are those of
the walk (`tallyOf_backed`).

Key definitions: `Found.Backed`, `Tally.weight`.
Key theorems: `Format.backed_of_parse`, `Format.weight_le_of_walk`,
`RecordLayout.account_of_walk`, `tallyOf_backed`.
-/
import CapturePace.Proofs.RecordFile
import CapturePace.Proofs.Repair

namespace CapturePace

/-- The block takes at least the bytes that its counters will claim: sixteen
and its packet bytes, or twelve if it has no packet. -/
def Found.Backed (found : Found) : Prop :=
  match found.block.packet? with
  | some bytes => 16 + bytes ≤ found.size
  | none => 12 ≤ found.size

theorem Found.backed_iff {found : Found} : found.Backed ↔
    (∀ bytes, found.block.packet? = some bytes → 16 + bytes ≤ found.size) ∧
      (found.block.packet? = none → 12 ≤ found.size) := by
  unfold Backed
  cases found.block.packet? <;> simp

/-! ### What a block takes -/

namespace SectionBlock

/-- A body holds the packet bytes that are read from it, and a number besides. -/
theorem Kind.packet_le_of_read {kind : Kind} {order : ByteOrder} {length bytes : Nat}
    {body rest : List UInt8} {block : Block} (h : kind.read order length body = .ok (block, rest))
    (packet : block.packet? = some bytes) : 4 + bytes ≤ body.length := by
  unfold Kind.read at h
  cases kind with
  | simplePacket =>
    obtain ⟨_, header, h⟩ := bind_eq_ok.1 h
    obtain ⟨_, data, h⟩ := bind_eq_ok.1 h
    cases h
    obtain ⟨header, rfl⟩ := skip_eq_ok.1 header
    obtain ⟨data, -⟩ := skip_eq_ok.1 data
    rw [List.length_drop] at data
    have stored : min (order.field 0 4 body) (length - 16) = bytes := Option.some.inj packet
    omega
  | enhancedPacket =>
    obtain ⟨_, header, h⟩ := bind_eq_ok.1 h
    dsimp only at h
    split at h
    · cases h
    · obtain ⟨_, data, h⟩ := bind_eq_ok.1 h
      obtain ⟨_, _, h⟩ := bind_eq_ok.1 h
      cases h
      obtain ⟨header, rfl⟩ := skip_eq_ok.1 header
      obtain ⟨data, -⟩ := skip_eq_ok.1 data
      rw [List.length_drop] at data
      have captured : order.field 12 4 body = bytes := Option.some.inj packet
      have padded := le_align (order.field 12 4 body)
      omega
  | uninterpreted =>
    cases h
    cases packet
  | secrets =>
    obtain ⟨_, _, h⟩ := bind_eq_ok.1 h
    dsimp only at h
    split at h
    · cases h
    · obtain ⟨_, _, h⟩ := bind_eq_ok.1 h
      obtain ⟨_, _, h⟩ := bind_eq_ok.1 h
      cases h
      cases packet
  | custom =>
    obtain ⟨_, _, h⟩ := bind_eq_ok.1 h
    cases h
    cases packet
  | sectionHeader | interface | names | statistics | process =>
    obtain ⟨_, _, h⟩ := bind_eq_ok.1 h
    obtain ⟨_, _, h⟩ := bind_eq_ok.1 h
    cases h
    cases packet

theorem packet_le_of_parseKind {order : ByteOrder} {kind : Kind} {bs : List UInt8} {found : Found}
    {bytes : Nat} (h : parseKind order kind bs = .ok found) (packet : found.block.packet? = some bytes) :
    16 + bytes ≤ found.size := by
  unfold parseKind at h
  obtain ⟨cut, _, h⟩ := bind_eq_ok.1 h
  obtain ⟨⟨block, rest⟩, read, h⟩ := bind_eq_ok.1 h
  simp only at h
  split at h
  · cases h
  · cases h
    have body := Kind.packet_le_of_read read packet
    simp only [Frame.size]
    omega

theorem packet_le_of_parse {order : ByteOrder} {bs : List UInt8} {found : Found} {bytes : Nat}
    (h : parse order bs = .ok found) (packet : found.block.packet? = some bytes) :
    16 + bytes ≤ found.size := by
  unfold parse at h
  obtain ⟨_, _, h⟩ := bind_eq_ok.1 h
  split at h
  · obtain ⟨_, _, h⟩ := bind_eq_ok.1 h
    split at h
    · exact packet_le_of_parseKind h packet
    · cases h
  · exact packet_le_of_parseKind h packet

end SectionBlock

/-- A record is its header and the data that its header promises. -/
theorem RecordLayout.eq_of_parse {layout : RecordLayout} {bs : List UInt8} {found : Found}
    (h : layout.parse bs = .ok found) :
    ∃ captured, found = ⟨layout.headerSize + captured, .record captured⟩ := by
  unfold parse at h
  obtain ⟨_, _, h⟩ := bind_eq_ok.1 h
  obtain ⟨_, _, h⟩ := bind_eq_ok.1 h
  cases h
  exact ⟨_, rfl⟩

/-- **Every block that is found is backed by the bytes it takes.** -/
theorem Format.backed_of_parse {format : Format} {bs : List UInt8} {found : Found}
    (h : format.parse bs = .ok found) : found.Backed := by
  rw [Found.backed_iff]
  refine ⟨fun bytes packet => ?_, fun _ => (parse_fits h).1⟩
  cases format with
  | records layout =>
    obtain ⟨captured, rfl⟩ := RecordLayout.eq_of_parse h
    have header := layout.sixteen_le_headerSize
    have all : captured = bytes := Option.some.inj packet
    simp only
    omega
  | sections order => exact SectionBlock.packet_le_of_parse h packet

/-! ### What a walk counts -/

namespace Tally

/-- The bytes that counters claim: twelve for a block, four more for one with
a packet, and the packet bytes. -/
def weight (tally : Tally) : Nat := 12 * tally.blocks + 4 * tally.packets + tally.captured

theorem weight_count {found : Found} (backed : found.Backed) (tally : Tally) :
    (tally.count found.block).weight ≤ tally.weight + found.size := by
  unfold Found.Backed at backed
  unfold count
  split
  · next bytes packet =>
    rw [packet] at backed
    simp only [weight] at backed ⊢
    omega
  · next packet =>
    rw [packet] at backed
    simp only [weight] at backed ⊢
    omega

/-- A block adds at most one packet to the packets. -/
theorem packets_count (tally : Tally) (block : Block) :
    tally.blocks + (tally.count block).packets ≤ (tally.count block).blocks + tally.packets := by
  unfold count
  split <;> simp only <;> omega

end Tally

namespace Format

variable {format : Format} {bs : List UInt8} {tally result : Tally} {consumed : Nat}

/-- **A walk counts no more than it has gone through.** -/
theorem weight_le_of_walk (h : format.walk bs tally consumed = .ok result) :
    result.weight ≤ tally.weight + bs.length := by
  fun_induction walk format bs tally consumed with
  | case1 =>
    cases h
    exact Nat.le_add_right _ _
  | case2 format bs tally consumed there found parsed ih =>
    have fits := (parse_fits parsed).2
    have counted := tally.weight_count (backed_of_parse parsed)
    have rest := ih h
    rw [List.length_drop] at rest
    omega
  | case3 => cases h
  | case4 => cases h

/-- Blocks without a packet stay counted. -/
theorem packets_le_of_walk (h : format.walk bs tally consumed = .ok result) :
    tally.blocks + result.packets ≤ result.blocks + tally.packets := by
  fun_induction walk format bs tally consumed with
  | case1 =>
    cases h
    exact le_rfl
  | case2 format bs tally consumed there found parsed ih =>
    have counted := tally.packets_count found.block
    have rest := ih h
    omega
  | case3 => cases h
  | case4 => cases h

end Format

/-- **A walk over records counts every byte once**: each record is a block and
a packet, and its bytes are its header and what is captured. -/
theorem RecordLayout.account_of_walk {layout : RecordLayout} {bs : List UInt8} {tally result : Tally}
    {consumed : Nat} (h : Format.walk (.records layout) bs tally consumed = .ok result) :
    tally.blocks + result.packets = result.blocks + tally.packets ∧
      layout.headerSize * result.packets + result.captured =
        layout.headerSize * tally.packets + tally.captured + bs.length := by
  generalize records : Format.records layout = format at h
  fun_induction Format.walk format bs tally consumed with
  | case1 =>
    cases h
    exact ⟨rfl, rfl⟩
  | case2 format bs tally consumed there found parsed ih =>
    subst records
    have fits := (Format.parse_fits parsed).2
    obtain ⟨captured, rfl⟩ := RecordLayout.eq_of_parse parsed
    obtain ⟨blocks, bytes⟩ := ih rfl h
    simp only [Tally.count, Block.packet?, List.length_drop] at blocks bytes fits
    rw [Nat.mul_add, Nat.mul_one] at bytes
    omega
  | case3 => cases h
  | case4 => cases h

/-! ### What is counted of a capture -/

/-- A walk starts behind a block without a packet. -/
theorem Format.Opens.backed {format : Format} {bs : List UInt8} {tally : Tally} (opens : format.Opens bs)
    (h : CapturePace.walk bs = .ok tally) :
    tally.packets < tally.blocks ∧ tally.weight ≤ bs.length := by
  rw [walk_of_opens opens] at h
  cases opens with
  | records magic header =>
    have packets := packets_le_of_walk h
    have weight := weight_le_of_walk h
    simp only [Tally.count, Block.packet?, Tally.weight, List.length_drop, fileHeaderSize] at *
    omega
  | @sections order size _ parsed =>
    have front : (Format.sections .little).parse bs = .ok ⟨size, .sectionHeader order⟩ := parsed
    have weight := weight_le_of_walk h
    simp only [hasFileHeader, Bool.false_eq_true, if_false, walk_of_ok front] at h
    have packets := packets_le_of_walk h
    simp only [Tally.count, Block.packet?, Tally.weight] at *
    omega

/-- **The counters account for the bytes of a capture.** If a capture is
counted, not all of its blocks are packets, and its bytes suffice for the
captured ones, sixteen more for each packet and twelve for each other block. A
file of records has one block more than packets, and is made up of its header,
the headers of the records and the captured bytes. -/
theorem tallyOf_backed {bs : List UInt8} {capacity : Nat} {tally : Tally}
    (h : tallyOf bs capacity = .finished tally) :
    tally.packets < tally.blocks ∧
    12 * (tally.blocks - tally.packets) + 16 * tally.packets + tally.captured ≤ bs.length ∧
    ∀ magic : Magic, magic.bytes <+: bs →
      tally.blocks = tally.packets + 1 ∧
      fileHeaderSize + magic.layout.headerSize * tally.packets + tally.captured = bs.length := by
  obtain ⟨format, opens, walked⟩ := walk_of_tallyOf (.counted tally) (by rintro ⟨⟩) h
  obtain ⟨packets, weight⟩ := opens.backed walked
  refine ⟨packets, ?_, fun magic front => ?_⟩
  · unfold Tally.weight at weight
    omega
  · have announced := Magic.ofMagic?_of_prefix front
    rw [walk_of_opens opens] at walked
    cases opens with
    | @records layout _ found header =>
      rw [announced] at found
      cases found
      obtain ⟨blocks, bytes⟩ := RecordLayout.account_of_walk walked
      simp only [Tally.count, Block.packet?, List.length_drop, fileHeaderSize] at *
      omega
    | sections parsed =>
      exact absurd parsed (RecordLayout.parse_ne_header_of_magic announced _ _)

/-- A section with a simple packet of three bytes, padded to four. -/
def paddedPacket : List UInt8 :=
  [0x0a, 0x0d, 0x0d, 0x0a, 28, 0, 0, 0, 0x4d, 0x3c, 0x2b, 0x1a, 1, 0, 0, 0,
    0xff, 0xff, 0xff, 0xff, 0xff, 0xff, 0xff, 0xff, 28, 0, 0, 0,
    3, 0, 0, 0, 20, 0, 0, 0, 3, 0, 0, 0, 0xca, 0xfe, 0xed, 0, 20, 0, 0, 0]

theorem tallyOf_paddedPacket_backed :
    (tallyOf paddedPacket 100 = .finished ⟨2, 1, 3⟩ ∧ 1 < 2 ∧
      12 * (2 - 1) + 16 * 1 + 3 ≤ paddedPacket.length) ∧
    tallyOf extendedFile.bytes 28 = .finished ⟨3, 2, 3⟩ ∧
      Magic.extended.bytes <+: extendedFile.bytes ∧ 3 = 2 + 1 ∧
      fileHeaderSize + Magic.extended.layout.headerSize * 2 + 3 = extendedFile.bytes.length := by
  have counted : tallyOf paddedPacket 100 = .finished ⟨2, 1, 3⟩ := by cbv
  have counted' : tallyOf extendedFile.bytes 28 = .finished ⟨3, 2, 3⟩ := by cbv
  have front : Magic.extended.bytes <+: extendedFile.bytes := by decide
  obtain ⟨packets, bytes, -⟩ := tallyOf_backed counted
  obtain ⟨-, -, records⟩ := tallyOf_backed counted'
  obtain ⟨blocks, account⟩ := records .extended front
  exact ⟨⟨counted, packets, bytes⟩, counted', front, blocks, account⟩

end CapturePace
