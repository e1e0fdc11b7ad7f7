/-
# Captures of sections can be put one behind the other

A capture that is counted is made of blocks that are read back as what they
are (`Format.blocks`, `Format.spells_blocks`): behind the last of them nothing
is left (`Format.bytesOf_blocks`). So two captures of sections put one behind
the other are the blocks of both. What the first one leaves behind is a byte
order, and the second one starts with a section header, which sets its own and
reads the same in both (`SectionBlock.parse_eq_of_front`). If the buffer is
longer than every block, the capture is then counted, with the counters of both
added up (`tallyOf_append`).

Key definitions: `Format.blocks`, `SectionBlock.headerType`.
Key theorems: `Format.spells_blocks`, `Format.Spells.append`, `tallyOf_append`.
-/
import CapturePace.Proofs.ClippedPackets
import CapturePace.Proofs.Repair

namespace CapturePace

open WrittenBlock (bytesOf)

/-! ### The blocks of a capture -/

namespace Format

/-- The blocks that are found one behind the other, with the bytes they take. -/
def blocks (format : Format) (bs : List UInt8) : List WrittenBlock :=
  match _h : format.parse bs with
  | .ok found =>
    ⟨bs.take found.size, found.block⟩ :: (format.after found.block).blocks (bs.drop found.size)
  | .error _ => []
  termination_by bs.length
  decreasing_by
    have := parse_fits _h
    rw [List.length_drop]
    omega

variable {format : Format} {bs : List UInt8}

theorem blocks_of_ok {found : Found} (parsed : format.parse bs = .ok found) :
    format.blocks bs = ⟨bs.take found.size, found.block⟩ ::
      (format.after found.block).blocks (bs.drop found.size) := by
  rw [blocks]
  split
  · next h =>
    rw [parsed] at h
    cases h
    rfl
  · next h => rw [parsed] at h; cases h

/-- **What is found is read back as what it is.** -/
theorem spells_blocks (format : Format) (bs : List UInt8) : format.Spells (format.blocks bs) := by
  fun_induction blocks format bs with
  | case1 format bs found parsed ih => exact .cons (parse_take_size parsed) ih
  | case2 => exact .nil _

/-- **A walk that is counted leaves nothing behind its blocks.** -/
theorem bytesOf_blocks {tally result : Tally} {consumed : Nat}
    (walked : format.walk bs tally consumed = .ok result) : bytesOf (format.blocks bs) = bs := by
  fun_induction walk format bs tally consumed with
  | case1 format =>
    obtain ⟨missing, -, nil⟩ := format.parse_nil
    rw [blocks]
    split
    · next h => rw [nil] at h; cases h
    · rfl
  | case2 format bs tally consumed there found parsed ih =>
    rw [blocks_of_ok parsed, WrittenBlock.bytesOf_cons, ih walked]
    exact List.take_append_drop _ _
  | case3 => cases walked
  | case4 => cases walked

/-- The counters of a walk are those of its blocks. -/
theorem tally_blocks {result : Tally} {consumed : Nat} (walked : format.walk bs {} consumed = .ok result) :
    WrittenBlock.tally (format.blocks bs) = result := by
  have counted := (format.spells_blocks bs).walk_all {} consumed
  rw [bytesOf_blocks walked, walked, WrittenBlock.foldl_count_empty] at counted
  exact (Except.ok.inj counted).symm

/-- Behind a block of a section comes a block of a section. -/
theorem exists_after (order : ByteOrder) (block : Block) :
    ∃ next, (Format.sections order).after block = .sections next := by
  cases block with
  | sectionHeader own => exact ⟨own, rfl⟩
  | _ => exact ⟨order, rfl⟩

/-- **Blocks that are read back in whatever byte order** can follow any blocks of sections. -/
theorem Spells.append {order : ByteOrder} {front behind : List WrittenBlock}
    (spells : (Format.sections order).Spells front)
    (any : ∀ order, (Format.sections order).Spells behind) :
    (Format.sections order).Spells (front ++ behind) := by
  induction front generalizing order with
  | nil => exact any order
  | cons written front ih =>
    cases spells with
    | cons parsed rest =>
      obtain ⟨next, after⟩ := exists_after order written.block
      refine .cons parsed ?_
      rw [after] at rest ⊢
      exact ih rest

end Format

/-- The counters of blocks in a row add up. -/
theorem WrittenBlock.tally_append (front behind : List WrittenBlock) :
    tally (front ++ behind) =
      ⟨(tally front).blocks + (tally behind).blocks, (tally front).packets + (tally behind).packets,
        (tally front).captured + (tally behind).captured⟩ := by
  simp only [tally, List.filterMap_append, List.length_append, List.sum_append]

/-! ### Section headers in front -/

namespace SectionBlock

/-- The type of a section header as it is written, in both byte orders. -/
def headerType : List UInt8 := [0x0a, 0x0d, 0x0d, 0x0a]

variable {order other own : ByteOrder} {size : Nat} {bs : List UInt8}

theorem code_of_front (front : headerType <+: bs) (order : ByteOrder) :
    Kind.ofCode (order.field 0 4 bs) = .sectionHeader := by
  obtain ⟨rest, rfl⟩ := front
  cases order <;> rfl

/-- **A section header reads the same in both byte orders.** -/
theorem parse_eq_of_front (front : headerType <+: bs) (order other : ByteOrder) :
    parse order bs = parse other bs := by
  rw [parse, parse, code_of_front front order, code_of_front front other]

theorem minimum_le_of_parseKind {kind : Kind} {found : Found}
    (h : parseKind order kind bs = .ok found) : kind.minimum ≤ found.size := by
  unfold parseKind at h
  obtain ⟨cut, framed, h⟩ := bind_eq_ok.1 h
  obtain ⟨_, _, h⟩ := bind_eq_ok.1 h
  simp only at h
  split at h
  · cases h
  · cases h
    exact (le_max_right _ _).trans (minimum_le_size framed)

theorem minimum_le_of_header (h : parse order bs = .ok ⟨size, .sectionHeader own⟩) : 28 ≤ size := by
  have code := code_of_parse_header h
  unfold parse at h
  obtain ⟨_, _, h⟩ := bind_eq_ok.1 h
  rw [code] at h
  obtain ⟨_, _, h⟩ := bind_eq_ok.1 h
  split at h
  · exact minimum_le_of_parseKind h
  · cases h

/-- A capture that starts with the type of a section header is opened by one. -/
theorem opens_of_front {format : Format} (front : headerType <+: bs) (opens : format.Opens bs) :
    format = .sections .little ∧ ∃ size own, parse .little bs = .ok ⟨size, .sectionHeader own⟩ := by
  cases opens with
  | records magic =>
    obtain ⟨rest, rfl⟩ := front
    cases magic
  | sections header => exact ⟨rfl, _, _, header⟩

end SectionBlock

/-! ### Two captures -/

open SectionBlock (headerType)

/-- A capture of sections that is counted is made of blocks, of which the first
is a section header. They are read back whatever byte order comes before them. -/
theorem spells_of_counted {bs : List UInt8} {capacity : Nat} {counters : Tally}
    (front : headerType <+: bs) (counted : tallyOf bs capacity = .finished counters) :
    ∃ first rest own, (Format.sections .little).blocks bs = first :: rest ∧
      first.block = .sectionHeader own ∧ 24 < first.bytes.length ∧
      bytesOf (first :: rest) = bs ∧ WrittenBlock.tally (first :: rest) = counters ∧
      ∀ order, (Format.sections order).Spells (first :: rest) := by
  obtain ⟨format, opens, walked⟩ := walk_of_tallyOf (.counted counters) (by rintro ⟨⟩) counted
  obtain ⟨rfl, size, own, header⟩ := SectionBlock.opens_of_front front opens
  have walked' : (Format.sections .little).walk bs {} 0 = .ok counters := by
    rwa [walk_of_opens opens, if_neg (by decide)] at walked
  have parsed : (Format.sections .little).parse bs = .ok ⟨size, .sectionHeader own⟩ := header
  have long : 28 ≤ size := SectionBlock.minimum_le_of_header header
  have fits : size ≤ bs.length := (SectionBlock.parse_fits header).2
  have split := Format.blocks_of_ok parsed
  have spells := Format.spells_blocks (.sections .little) bs
  rw [split] at spells
  refine ⟨_, _, own, split, rfl, ?_, ?_, ?_, fun order => ?_⟩
  · rw [List.length_take_of_le fits]
    omega
  · rw [← split, Format.bytesOf_blocks walked']
  · rw [← split, Format.tally_blocks walked']
  · -- the header in front is read alike, and leaves its own byte order to the rest
    have first : headerType <+: bs.take size := List.prefix_take_iff.2 ⟨front, by
      show 4 ≤ size
      omega⟩
    cases spells with
    | cons here rest =>
      refine .cons ?_ rest
      exact (SectionBlock.parse_eq_of_front first order .little).trans here

/-- **The counters of two captures of sections add up when one is put behind the
other.** Both start with a section header and are counted through a buffer
longer than every block of them. Their byte orders and the kinds of their blocks
are of no account. -/
theorem tallyOf_append {front behind : List UInt8} {capacity : Nat} {first second : Tally}
    (opens : headerType <+: front) (opens' : headerType <+: behind)
    (sizes : ∀ written ∈ (Format.sections .little).blocks front ++ (Format.sections .little).blocks behind,
      written.bytes.length < capacity)
    (counted : tallyOf front capacity = .finished first)
    (counted' : tallyOf behind capacity = .finished second) :
    tallyOf (front ++ behind) capacity = .finished
      ⟨first.blocks + second.blocks, first.packets + second.packets, first.captured + second.captured⟩ := by
  have made : capacity ≤ bufferLimit := made_of_tallyOf (.counted first) counted
  obtain ⟨header, rest, own, split, block, room, bytes, tally, spells⟩ := spells_of_counted opens counted
  obtain ⟨header', rest', own', split', -, -, bytes', tally', spells'⟩ := spells_of_counted opens' counted'
  rw [split, split', List.cons_append] at sizes
  have all : bytesOf (header :: (rest ++ header' :: rest')) = front ++ behind := by
    rw [← List.cons_append, WrittenBlock.bytesOf, List.flatMap_append]
    exact congrArg₂ _ bytes bytes'
  rw [← all, ← tally, ← tally', ← WrittenBlock.tally_append]
  exact WrittenBlock.tallyOf_section block ((spells .little).append spells') room sizes made

/-- A section in big endian, with a simple packet of three bytes. -/
def bigSection : List UInt8 :=
  [0x0a, 0x0d, 0x0d, 0x0a, 0, 0, 0, 28, 0x1a, 0x2b, 0x3c, 0x4d, 0, 1, 0, 0,
    0xff, 0xff, 0xff, 0xff, 0xff, 0xff, 0xff, 0xff, 0, 0, 0, 28,
    0, 0, 0, 3, 0, 0, 0, 20, 0, 0, 0, 3, 0xba, 0xdc, 0xab, 0, 0, 0, 0, 20]

/-- A section in little endian, with a block that is not looked into and an enhanced packet of a byte. -/
def littleSection : List UInt8 :=
  [0x0a, 0x0d, 0x0d, 0x0a, 28, 0, 0, 0, 0x4d, 0x3c, 0x2b, 0x1a, 1, 0, 0, 0,
    0xff, 0xff, 0xff, 0xff, 0xff, 0xff, 0xff, 0xff, 28, 0, 0, 0,
    7, 0, 0, 0, 12, 0, 0, 0, 12, 0, 0, 0,
    6, 0, 0, 0, 36, 0, 0, 0, 0, 0, 0, 0, 0, 0, 0, 0, 9, 0, 0, 0, 1, 0, 0, 0, 64, 0, 0, 0,
    0xee, 0, 0, 0, 36, 0, 0, 0]

theorem tallyOf_bigSection_append : headerType <+: bigSection ∧ headerType <+: littleSection ∧
    (∀ written ∈ (Format.sections .little).blocks bigSection ++ (Format.sections .little).blocks littleSection,
      written.bytes.length < 37) ∧
    tallyOf bigSection 37 = .finished ⟨2, 1, 3⟩ ∧ tallyOf littleSection 37 = .finished ⟨3, 1, 1⟩ ∧
    tallyOf (bigSection ++ littleSection) 37 = .finished ⟨5, 2, 4⟩ := by
  have opens : headerType <+: bigSection := by decide
  have opens' : headerType <+: littleSection := by decide
  have sizes : ((Format.sections .little).blocks bigSection ++
      (Format.sections .little).blocks littleSection).map (·.bytes.length) = [28, 20, 28, 12, 36] := by cbv
  have short : ∀ written ∈ (Format.sections .little).blocks bigSection ++
      (Format.sections .little).blocks littleSection, written.bytes.length < 37 := by
    rw [← List.forall_mem_map (P := (· < 37)), sizes]
    decide
  have counted : tallyOf bigSection 37 = .finished ⟨2, 1, 3⟩ := by cbv
  have counted' : tallyOf littleSection 37 = .finished ⟨3, 1, 1⟩ := by cbv
  exact ⟨opens, opens', short, counted, counted', tallyOf_append opens opens' short counted counted'⟩

end CapturePace
