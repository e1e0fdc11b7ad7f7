/-
# The first read has to show the header

A pass decides by its first read what a capture is. If the read stops inside
the header, the capture is not known for what it is, whether it ends there or
goes on. In a file of records, and within the first four bytes of any capture,
this is taken for a cut (`RecordLayout.ofMagic?` needs four bytes, and the rest
of the header is then asked for). From four bytes on, a section header that is
not complete is not looked for any more, and the bytes are refused
(`Format.detect_take_of_header`).

Two things follow. A capture that is complete is found cut exactly if its first
read stops there, and never behind its opening, however it comes in
(`ByteSource.tally_truncated_iff`). And a capture that is cut inside its header
is found cut if it is a file of records, and refused if it is a sequence of
sections of which at least four bytes are left (`tallyOf_take_header`).

Key definitions: `ByteSource.firstRead`, `telling`, `FirstHeader`.
Key theorems: `Format.detect_take_of_header`, `ByteSource.tally_truncated_iff`,
`tallyOf_take_header`.
-/
import CapturePace.Proofs.SectionFile
import CapturePace.Proofs.UnseenContents

namespace CapturePace

/-! ### Fronts of a header -/

section Fronts

variable {size n consumed : Nat} {own : ByteOrder} {bs : List UInt8} {format : Format}

/-- No front of a section announces records. -/
theorem RecordLayout.ofMagic?_of_header
    (header : SectionBlock.parse .little bs = .ok ⟨size, .sectionHeader own⟩) (n : Nat) :
    ofMagic? (bs.take n) = none := by
  cases announced : ofMagic? (bs.take n) with
  | none => rfl
  | some layout =>
    have whole := ofMagic?_append (bs.drop n) announced
    rw [List.take_append_drop] at whole
    exact absurd header (parse_ne_header_of_magic whole size own)

/-- A section header is found in a front that has all of it, and in no other. -/
theorem SectionBlock.parse_take_header
    (header : parse .little bs = .ok ⟨size, .sectionHeader own⟩) {size' : Nat} {own' : ByteOrder} :
    parse .little (bs.take n) = .ok ⟨size', .sectionHeader own'⟩ ↔
      size ≤ n ∧ size' = size ∧ own' = own := by
  have whole : (Format.sections .little).parse bs = .ok ⟨size, .sectionHeader own⟩ := header
  constructor
  · intro front
    have found := @Format.parse_append_of_ok (.sections .little) _ _ (bs.drop n) front
    rw [List.take_append_drop, whole] at found
    cases found
    have within := (parse_fits front).2.trans (List.length_take_le n bs)
    exact ⟨within, rfl, rfl⟩
  · rintro ⟨within, rfl, rfl⟩
    exact Format.parse_take_of_ok whole within

/-- **A section header is announced by all of it**: less than a magic is taken
for a cut, and anything in between is refused. -/
theorem Format.detect_take_of_header
    (header : SectionBlock.parse .little bs = .ok ⟨size, .sectionHeader own⟩) (n : Nat) :
    detect (bs.take n) =
      if size ≤ n then .ok (.sections .little)
      else if n < 4 then .error (.truncated 0) else .error (.malformed .unknownHeader) := by
  by_cases whole : size ≤ n
  · have front := (SectionBlock.parse_take_header header).2 ⟨whole, rfl, rfl⟩
    rw [if_pos whole, detect_eq_ok]
    exact .sections front
  · have fits : size ≤ bs.length := (SectionBlock.parse_fits header).2
    have length : (bs.take n).length = n := List.length_take_of_le (by omega)
    rw [if_neg whole]
    unfold detect
    split
    · next front => exact absurd ((SectionBlock.parse_take_header header).1 front).1 whole
    · rw [shortfall_eq, length, RecordLayout.ofMagic?_of_header header n]
      by_cases short : n < 4
      · rw [if_pos (Nat.sub_pos_of_lt short), if_pos short]
      · rw [if_neg (by omega), if_neg short]

/-- The bytes that have to be seen of a capture lest it be taken for a cut one:
the file header behind a magic, and otherwise as many bytes as a magic has. -/
def telling (bs : List UInt8) : Nat :=
  if (RecordLayout.ofMagic? bs).isSome then fileHeaderSize else 4

/-- **A front of a capture is taken for a cut one just when it is too short to tell.** -/
theorem Format.Opens.detect_take_eq_truncated (opens : format.Opens bs) (n : Nat) :
    detect (bs.take n) = .error (.truncated consumed) ↔
      consumed = 0 ∧ (bs.take n).length < telling bs := by
  cases opens with
  | records magic header =>
    rw [detect_take magic, telling, magic, Option.isSome_some, if_pos rfl]
    by_cases there : fileHeaderSize ≤ (bs.take n).length
    · rw [if_pos there]
      exact ⟨fun h => (by cases h), fun h => absurd there (Nat.not_le.2 h.2)⟩
    · rw [if_neg there]
      exact ⟨fun h => (by cases h; exact ⟨rfl, Nat.lt_of_not_le there⟩), fun h => by rw [h.1]⟩
  | @sections own size _ header =>
    have fits : 12 ≤ size ∧ size ≤ bs.length := SectionBlock.parse_fits header
    have announced := RecordLayout.ofMagic?_of_header header bs.length
    rw [List.take_length] at announced
    rw [detect_take_of_header header, telling, announced, Option.isSome_none, if_neg Bool.false_ne_true,
      List.length_take]
    by_cases whole : size ≤ n
    · rw [if_pos whole]
      exact ⟨fun h => (by cases h), fun h => by omega⟩
    · have inside : min n bs.length = n := by omega
      rw [if_neg whole, inside]
      by_cases short : n < 4
      · rw [if_pos short]
        exact ⟨fun h => (by cases h; exact ⟨rfl, short⟩), fun h => by rw [h.1]⟩
      · rw [if_neg short]
        exact ⟨fun h => (by cases h), fun h => absurd h.2 short⟩

end Fronts

/-! ### Complete captures -/

namespace ByteSource

/-- How many bytes the first read into `room` bytes brings. -/
def firstRead (source : ByteSource) (room : Nat) : Nat :=
  match source.read? room with
  | some (got, _) => got.length
  | none => 0

variable {source rest : ByteSource} {capacity consumed : Nat} {first : List UInt8}

theorem firstRead_eq (read : source.read? capacity = some (first, rest)) :
    source.firstRead capacity = first.length := by
  rw [firstRead, read]

/-- A source that flows is opened if its first read shows a header. -/
theorem begin_of_flows (flows : source.Flows) (read : source.read? capacity = some (first, rest))
    (there : first ≠ []) :
    (∃ fault, Format.detect first = .error fault ∧ Pass.begin capacity source = .error fault) ∨
    ∃ start, Format.detect first = .ok start.format ∧ Pass.begin capacity source = .ok start := by
  rw [Pass.begin_of_read read, if_neg there]
  cases detected : Format.detect first with
  | error fault => exact .inl ⟨fault, rfl, rfl⟩
  | ok format =>
    obtain ⟨n, rest', read', -⟩ := (flows.of_read read).exists_read (capacity - first.length)
    simp only [read']
    exact .inr ⟨_, rfl, rfl⟩

/-- **A complete capture is found cut only by its first read.** Let a capture be
counted through some buffer, and let it come in by reads that all bring
something. Through whatever buffer, it is then found cut exactly if its first
read brings too little to tell what it is, and then at its start. -/
theorem tally_truncated_iff {other : Nat} {tally : Tally}
    (counted : tallyOf source.bytes capacity = .finished tally) (flows : source.Flows)
    (room : 0 < other) :
    source.tally other = .failed (.truncated consumed) ↔
      other ≤ bufferLimit ∧ consumed = 0 ∧ source.firstRead other < telling source.bytes := by
  obtain ⟨format, opens, walked⟩ := walk_of_tallyOf (.counted tally) (by rintro ⟨⟩) counted
  by_cases made : other ≤ bufferLimit
  · obtain ⟨n, rest, read, -, -, pos⟩ := flows.exists_read other
    have there : source.bytes.take n ≠ [] := by
      rw [Ne, List.take_eq_nil_iff]
      rintro (zero | empty)
      · exact (pos room).ne' zero
      · exact opens.ne_nil empty
    rw [tally_of_le made, firstRead_eq read, Verdict.ofExcept_eq_failed,
      ← opens.detect_take_eq_truncated, and_iff_right made, pass]
    rcases begin_of_flows flows read there with ⟨fault, detected, begun⟩ | ⟨start, detected, begun⟩
    · rw [begun, detected]
      exact ⟨fun h => (by cases h; rfl), fun h => (by cases h; rfl)⟩
    · -- behind the opening all bytes are walked through, and the walk over all of them is not cut
      rw [begun, detected]
      refine ⟨fun h => ?_, fun h => by cases h⟩
      have run : start.run other = .error (.truncated consumed) := h
      have same := (walk_of_run flows begun (run ▸ .cut consumed)).1
      rw [run, walked] at same
      cases same
  · rw [tally_of_lt (Nat.lt_of_not_le made)]
    exact ⟨fun h => (by cases h), fun h => absurd h.1 made⟩

/-- A section with the description of an interface. -/
def lateSection : List UInt8 :=
  [0x0a, 0x0d, 0x0d, 0x0a, 0, 0, 0, 28, 0x1a, 0x2b, 0x3c, 0x4d, 0, 1, 0, 0,
    0xff, 0xff, 0xff, 0xff, 0xff, 0xff, 0xff, 0xff, 0, 0, 0, 28,
    0, 0, 0, 1, 0, 0, 0, 20, 0, 1, 0, 0, 0, 0, 0xff, 0xff, 0, 0, 0, 20]

/-- A first read of three bytes does not tell what it is. One of thirty does, and then no
buffer and no later read make a cut of it. -/
theorem tally_lateSection : tallyOf lateSection 100 = .finished ⟨2, 0, 0⟩ ∧
    (Flows ⟨lateSection, [.upTo 3, .upTo 40]⟩ ∧ 0 < 100 ∧
      tally ⟨lateSection, [.upTo 3, .upTo 40]⟩ 100 = .failed (.truncated 0)) ∧
    Flows ⟨lateSection, [.upTo 30, .upTo 1, .upTo 2]⟩ ∧ 0 < 29 ∧
    ∀ consumed, tally ⟨lateSection, [.upTo 30, .upTo 1, .upTo 2]⟩ 29 ≠ .failed (.truncated consumed) := by
  have counted : tallyOf lateSection 100 = .finished ⟨2, 0, 0⟩ := by cbv
  have flows : Flows ⟨lateSection, [.upTo 3, .upTo 40]⟩ := by decide
  have flows' : Flows ⟨lateSection, [.upTo 30, .upTo 1, .upTo 2]⟩ := by decide
  refine ⟨counted, ⟨flows, by decide, ?_⟩, flows', by decide, fun consumed h => ?_⟩
  · exact (tally_truncated_iff counted flows (by decide)).2 (by decide)
  · have short := ((tally_truncated_iff counted flows' (by decide)).1 h).2.2
    exact absurd short (by decide)

/-- A file with one record of two bytes. -/
def nanosFile : List UInt8 :=
  [0xa1, 0xb2, 0x3c, 0x4d, 0, 2, 0, 4, 0, 0, 0, 0, 0, 0, 0, 0, 0, 0, 0xff, 0xff, 0, 0, 0, 1,
    0, 0, 0, 3, 0, 0, 0, 4, 0, 0, 0, 2, 0, 0, 0, 2, 0xbe, 0xef]

/-- A complete file is taken for a cut one if its first read, or the buffer, stops in its header. -/
theorem tally_nanosFile_early : tallyOf nanosFile 100 = .finished ⟨2, 1, 2⟩ ∧
    Flows ⟨nanosFile, [.upTo 10]⟩ ∧ tally ⟨nanosFile, [.upTo 10]⟩ 100 = .failed (.truncated 0) ∧
    tallyOf nanosFile 10 = .failed (.truncated 0) := by
  refine ⟨?_, by decide, ?_, ?_⟩
  · cbv
  · cbv
  · cbv

end ByteSource

/-! ### Captures cut inside their header -/

/-- A header that a capture starts with. -/
inductive FirstHeader where
  /-- The header of a file of records: a magic and twenty bytes of settings. -/
  | records (magic : Magic) (settings : Vector UInt8 20)
  /-- The header of a section, with any options. -/
  | sections (order : ByteOrder) (settings : Vector UInt8 12) (options : List UInt8)
      (room : 28 + options.length < SectionBlock.wordLimit)

namespace FirstHeader

/-- The bytes of a header. -/
def bytes : FirstHeader → List UInt8
  | .records magic settings => magic.bytes ++ settings.toList
  | .sections order settings options _ =>
    SectionBlock.framed order SectionBlock.headerCode (SectionBlock.headerBody order settings options)

/-- The format that a header opens. -/
def format : FirstHeader → Format
  | .records magic _ => .records magic.layout
  | .sections .. => .sections .little

/-- What a front of a header is taken for. -/
theorem detect_take (header : FirstHeader) (behind : List UInt8) {cut : Nat}
    (inside : cut < header.bytes.length) :
    Format.detect ((header.bytes ++ behind).take cut) =
      .error (if header.format.hasFileHeader ∨ cut < 4 then .truncated 0
        else .malformed .unknownHeader) := by
  cases header with
  | records magic settings =>
    have length : (bytes (.records magic settings)).length = fileHeaderSize := by
      simp only [bytes, List.length_append, Magic.length_bytes, Vector.length_toList]
      rfl
    have announced : RecordLayout.ofMagic? (bytes (.records magic settings) ++ behind) =
        some magic.layout := by
      rw [bytes, List.append_assoc]
      exact Magic.ofMagic?_of_prefix (List.prefix_append _ _)
    have short : ¬fileHeaderSize ≤ ((bytes (.records magic settings) ++ behind).take cut).length := by
      rw [List.length_take]
      omega
    rw [Format.detect_take announced, if_neg short, if_pos (.inl rfl)]
  | sections order settings options room =>
    have parsed : SectionBlock.parse .little (bytes (.sections order settings options room) ++ behind) =
        .ok ⟨(bytes (.sections order settings options room)).length, .sectionHeader order⟩ :=
      @Format.parse_append_of_ok (.sections .little) _ _ behind
        (SectionBlock.parse_header .little order settings room)
    rw [Format.detect_take_of_header parsed, if_neg (Nat.not_le.2 inside)]
    simp only [format, Format.hasFileHeader, Bool.false_eq_true, false_or]
    split <;> rfl

end FirstHeader

/-- A capture in memory that is not known for what it is has no other verdict. -/
theorem tallyOf_of_detect {bs : List UInt8} {capacity : Nat} {fault : CaptureFault} (there : bs ≠ [])
    (short : bs.length ≤ capacity) (made : capacity ≤ bufferLimit)
    (detected : Format.detect bs = .error fault) : tallyOf bs capacity = .failed fault := by
  have read : ByteSource.read? ⟨bs, []⟩ capacity = some (bs, ⟨bs.drop capacity, []⟩) := by
    rw [ByteSource.read?_of_nil rfl, List.take_of_length_le short]
  rw [tallyOf_of_le made, ByteSource.pass, Pass.begin_of_read read, if_neg there, detected]
  rfl

/-- **A capture that is cut inside its first header** is found cut at its start
if it is a file of records, or if less than a magic is left of it. Otherwise its
header is not recognized. A buffer that cannot be made shows nothing. -/
theorem tallyOf_take_header (header : FirstHeader) (behind : List UInt8) {cut capacity : Nat}
    (pos : 0 < cut) (inside : cut < header.bytes.length) (room : header.bytes.length < capacity) :
    (capacity ≤ bufferLimit →
      tallyOf ((header.bytes ++ behind).take cut) capacity =
        .failed (if header.format.hasFileHeader ∨ cut < 4 then .truncated 0
          else .malformed .unknownHeader)) ∧
    (bufferLimit < capacity →
      tallyOf ((header.bytes ++ behind).take cut) capacity = .overflowed .capacity) := by
  refine ⟨fun made => ?_, tallyOf_of_lt⟩
  have length : ((header.bytes ++ behind).take cut).length = cut := by
    rw [List.length_take, List.length_append]
    omega
  have there : (header.bytes ++ behind).take cut ≠ [] := by
    rw [← List.length_pos_iff, length]
    exact pos
  exact tallyOf_of_detect there (by omega) made (header.detect_take behind inside)

/-- The header of a section in the other byte order, with one option. -/
def optionHeader : FirstHeader :=
  .sections .big ⟨#[0, 1, 0, 2, 0xff, 0xff, 0xff, 0xff, 0xff, 0xff, 0xff, 0xff], rfl⟩
    [0, 1, 0, 2, 0x68, 0x69, 0, 0] (by decide)

/-- The header of a file of records, in nanoseconds. -/
def nanosHeader : FirstHeader :=
  .records (.nanos .little) ⟨#[2, 0, 4, 0, 0, 0, 0, 0, 0, 0, 0, 0, 0, 2, 0, 0, 1, 0, 0, 0], rfl⟩

theorem tallyOf_take_nanosHeader :
    (0 < 23 ∧ 23 < nanosHeader.bytes.length ∧ nanosHeader.bytes.length < 25 ∧
      tallyOf ((nanosHeader.bytes ++ [7, 0, 0, 0]).take 23) 25 = .failed (.truncated 0)) ∧
    (0 < 3 ∧ 3 < optionHeader.bytes.length ∧ optionHeader.bytes.length < 37 ∧
      tallyOf ((optionHeader.bytes ++ [0, 0, 0, 1]).take 3) 37 = .failed (.truncated 0)) ∧
    35 < optionHeader.bytes.length ∧
      tallyOf ((optionHeader.bytes ++ [0, 0, 0, 1]).take 35) 37 = .failed (.malformed .unknownHeader) := by
  have file := (tallyOf_take_header nanosHeader [7, 0, 0, 0] (by decide : 0 < 23) (by decide)
    (by decide : _ < 25)).1 (by decide)
  have early := (tallyOf_take_header optionHeader [0, 0, 0, 1] (by decide : 0 < 3) (by decide)
    (by decide : _ < 37)).1 (by decide)
  have late := (tallyOf_take_header optionHeader [0, 0, 0, 1] (by decide : 0 < 35) (by decide)
    (by decide : _ < 37)).1 (by decide)
  exact ⟨⟨by decide, by decide, by decide, file⟩, ⟨by decide, by decide, by decide, early⟩, by decide, late⟩

/-- A section that is complete with its header, cut behind its order mark, is refused. -/
theorem tallyOf_take_optionHeader_refused : tallyOf optionHeader.bytes 37 = .finished ⟨1, 0, 0⟩ ∧
    12 < optionHeader.bytes.length ∧ optionHeader.bytes.length < 37 ∧
    tallyOf (optionHeader.bytes.take 12) 37 = .failed (.malformed .unknownHeader) := by
  refine ⟨?_, by decide, by decide, ?_⟩
  · cbv
  · cbv

end CapturePace
