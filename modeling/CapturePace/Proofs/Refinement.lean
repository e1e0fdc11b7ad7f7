/-
# A pass through a window refines a walk without one

A run takes blocks, moves its window on, fills it by reads of any length and
learns late that its source has ended. Its verdict depends on none of this: as
long as the buffer is ample, it is the verdict of a walk over the bytes that
were delivered (`ByteSource.tally_abridges_walk`). Only the bytes that a
refusal quotes are those the window showed, and may be fewer
(`ByteSource.tally_ne_walk`).

Key theorems: `ByteSource.tally_abridges_walk`, `ByteSource.tally_ne_walk`.
-/
import CapturePace.Proofs.Opening

namespace CapturePace
namespace ByteSource

/-- **A pass refines a walk.** Let no read of a source fail, and let the first
one show the whole header that opens a capture. Seen through an ample buffer,
the source holds what a walk over the delivered bytes, a front of those there
are, finds: the same counters, the same place of a cut, and the same fault, of
whose quotation the window may show less. Where no buffer can be made, nothing
is read. -/
theorem tally_abridges_walk {source rest : ByteSource} {capacity : Nat} {first : List UInt8}
    {format : Format} (steady : .fail ∉ source.schedule)
    (read : source.read? capacity = some (first, rest)) (opens : format.Opens first)
    (ample : source.Ample capacity) :
    source.delivered capacity <+: source.bytes ∧
    (capacity ≤ bufferLimit →
      (source.tally capacity).Abridges (.ofExcept (walk (source.delivered capacity)))) ∧
    (bufferLimit < capacity → source.tally capacity = .overflowed .capacity) := by
  refine ⟨source.delivered_prefix capacity, fun made => ?_, tally_of_lt⟩
  obtain ⟨start, h⟩ := begin_of_opens steady read opens
  rw [tally_of_le made]
  exact pass_abridges steady h ample

/-- A file with one record of four bytes, delivered in pieces that cut the
header of the record and its data. -/
def inPieces : ByteSource :=
  ⟨[0xd4, 0xc3, 0xb2, 0xa1, 2, 0, 4, 0, 0, 0, 0, 0, 0, 0, 0, 0, 0xff, 0xff, 0, 0, 1, 0, 0, 0,
    7, 0, 0, 0, 8, 0, 0, 0, 4, 0, 0, 0, 4, 0, 0, 0, 0xca, 0xfe, 0xba, 0xbe],
   [.upTo 26, .upTo 5, .upTo 9]⟩

theorem opens_inPieces : Format.Opens (.records ⟨.little, false⟩) (inPieces.bytes.take 26) :=
  .records rfl (by decide)

/-- The only record takes twenty bytes, so a buffer of more is ample. -/
theorem ample_inPieces {capacity : Nat} {start : Pass} (h : Pass.begin capacity inPieces = .ok start)
    (format : start.format = .records ⟨.little, false⟩)
    (ahead : start.ahead capacity = inPieces.bytes.drop 24) (room : 20 < capacity) :
    inPieces.Ample capacity := by
  have record : Format.parse (.records ⟨.little, false⟩) (inPieces.bytes.drop 24) =
      .ok ⟨20, .record 4⟩ := by decide
  have nothing : Format.parse (.records ⟨.little, false⟩) [] = .error (.incomplete 16) := rfl
  refine ample_of_fits h ?_ room
  rw [format, ahead]
  exact .of_ok record le_rfl (.of_incomplete nothing (by decide))

theorem inPieces_abridges_walk : .fail ∉ inPieces.schedule ∧
    inPieces.read? 30 = some (inPieces.bytes.take 26, ⟨inPieces.bytes.drop 26, [.upTo 5, .upTo 9]⟩) ∧
    Format.Opens (.records ⟨.little, false⟩) (inPieces.bytes.take 26) ∧ inPieces.Ample 30 ∧
    (inPieces.tally 30).Abridges (.ofExcept (walk (inPieces.delivered 30))) := by
  have ample : inPieces.Ample 30 := ample_inPieces rfl rfl (by cbv) (by decide)
  refine ⟨by decide, rfl, opens_inPieces, ample, ?_⟩
  exact (tally_abridges_walk (by decide) rfl opens_inPieces ample).2.1 (by decide)

/-- A section, and behind it a block that gives its length as four. The last
three bytes come behind the two reads that open it. -/
def refusedEarly : ByteSource :=
  ⟨[0x0a, 0x0d, 0x0d, 0x0a, 28, 0, 0, 0, 0x4d, 0x3c, 0x2b, 0x1a, 1, 0, 0, 0,
    0xff, 0xff, 0xff, 0xff, 0xff, 0xff, 0xff, 0xff, 28, 0, 0, 0,
    1, 0, 0, 0, 4, 0, 0, 0, 1, 2, 3, 4, 5, 6, 7, 8, 9, 10, 11, 12, 13, 14, 15, 16],
   [.upTo 48, .upTo 1]⟩

theorem opens_refusedEarly : Format.Opens (.sections .little) (refusedEarly.bytes.take 48) :=
  .sections (by decide : SectionBlock.parse .little _ = .ok ⟨28, .sectionHeader .little⟩)

theorem ample_refusedEarly : refusedEarly.Ample 100 := by
  have header : Format.parse (.sections .little) refusedEarly.bytes =
      .ok ⟨28, .sectionHeader .little⟩ := by decide
  have block : Format.parse (.sections .little) (refusedEarly.bytes.drop 28) =
      .error (.damaged (refusedEarly.bytes.drop 36)) := by decide
  have refusal : (ReadFault.damaged (refusedEarly.bytes.drop 36)).IsRefusal := by rintro _ ⟨⟩
  obtain ⟨start, h, format, ahead⟩ : ∃ start, Pass.begin 100 refusedEarly = .ok start ∧
      start.format = .sections .little ∧ start.ahead 100 = refusedEarly.bytes :=
    ⟨_, rfl, rfl, by cbv⟩
  refine ample_of_fits h ?_ (by decide : 52 < 100)
  rw [format, ahead]
  exact .of_ok header (by decide) (.of_refused refusal block (by decide))

/-- **The window may show less of what is refused.** The walk quotes the
sixteen bytes behind the length of the block, the pass the thirteen in its
window. And where no buffer can be made, there is no verdict on the capture. -/
theorem tally_ne_walk :
    (.fail ∉ refusedEarly.schedule ∧
      refusedEarly.read? 100 =
        some (refusedEarly.bytes.take 48, ⟨refusedEarly.bytes.drop 48, [.upTo 1]⟩) ∧
      Format.Opens (.sections .little) (refusedEarly.bytes.take 48) ∧ refusedEarly.Ample 100 ∧
      refusedEarly.tally 100 =
        .failed (.malformed (.damaged [1, 2, 3, 4, 5, 6, 7, 8, 9, 10, 11, 12, 13])) ∧
      walk (refusedEarly.delivered 100) =
        .error (.malformed (.damaged [1, 2, 3, 4, 5, 6, 7, 8, 9, 10, 11, 12, 13, 14, 15, 16]))) ∧
    (.fail ∉ inPieces.schedule ∧
      inPieces.read? 9223372036854775808 =
        some (inPieces.bytes.take 26, ⟨inPieces.bytes.drop 26, [.upTo 5, .upTo 9]⟩) ∧
      Format.Opens (.records ⟨.little, false⟩) (inPieces.bytes.take 26) ∧
      inPieces.Ample 9223372036854775808 ∧
      inPieces.tally 9223372036854775808 = .overflowed .capacity ∧
      walk (inPieces.delivered 9223372036854775808) = .ok ⟨2, 1, 4⟩) := by
  refine ⟨⟨by decide, rfl, opens_refusedEarly, ample_refusedEarly, by cbv, by cbv⟩,
    ⟨by decide, ?_, opens_inPieces, ?_, tally_of_lt (by decide), by cbv⟩⟩
  · rfl
  · exact ample_inPieces rfl rfl (by cbv) (by decide)

end ByteSource
end CapturePace
