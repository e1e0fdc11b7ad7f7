/-
# A record longer than the buffer is refused

A record asks for all of itself as soon as its header is there, whether its
data is there or not. If that is more than the buffer holds, no pass gets
through it. A pass that has an answer about the capture, its counters or the
place of a cut, has had room for everything it went through
(`Pass.fits_of_answers`), so there is no answer; no read fails, and the reader
refuses no record. What is left is that the buffer is too small
(`Pass.run_eq_windowTooSmall`). Nothing of this looks at when the window was
filled, so it holds however the file comes in
(`ByteSource.tally_of_oversized`), and whatever the lengths of the records in
front are.

Key theorems: `RecordLayout.demand_of_header`, `Pass.run_eq_windowTooSmall`,
`ByteSource.tally_of_oversized`.
-/
import CapturePace.Proofs.FirstRead

namespace CapturePace

open WrittenBlock (bytesOf)

namespace RecordLayout

variable {layout : RecordLayout} {bs : List UInt8}

/-- A record is found or incomplete, and never refused. -/
theorem parse_ne_refused {fault : ReadFault} (refusal : fault.IsRefusal) : layout.parse bs ≠ .error fault := by
  intro h
  rcases Nat.lt_or_ge bs.length layout.headerSize with short | header
  · rw [parse_of_short short] at h
    cases h
    exact refusal _ rfl
  · rw [parse_of_header header] at h
    split at h
    · cases h
    · cases h
      exact refusal _ rfl

/-- **A record whose header is there asks for all of itself.** -/
theorem demand_of_header (header : layout.headerSize ≤ bs.length) :
    demand Found.size bs.length (layout.parse bs) = layout.headerSize + layout.order.field 8 4 bs := by
  rw [parse_of_header header]
  by_cases there : layout.headerSize + layout.order.field 8 4 bs ≤ bs.length
  · rw [if_pos there]
    rfl
  · rw [if_neg there]
    exact Nat.add_sub_of_le (Nat.le_of_not_le there)

/-- A window with room for records and what follows has room for what follows. -/
theorem fits_behind {bound : Nat} {records : List (Record layout)} {rest : List UInt8}
    (fits : (Format.records layout).Fits bound (bytesOf (records.map Record.written) ++ rest)) :
    (Format.records layout).Fits bound rest := by
  induction records with
  | nil => exact fits
  | cons record records ih =>
    have parsed : (Format.records layout).parse
        (record.bytes ++ (bytesOf (records.map Record.written) ++ rest)) =
          .ok ⟨record.bytes.length, .record record.data.length⟩ :=
      Format.parse_append_of_ok _ record.parse_bytes
    rw [List.map_cons, WrittenBlock.bytesOf_cons, List.append_assoc] at fits
    have behind : (Format.records layout).Fits bound
        ((record.bytes ++ (bytesOf (records.map Record.written) ++ rest)).drop record.bytes.length) :=
      fits.behind parsed
    rw [List.drop_left] at behind
    exact ih behind

end RecordLayout

namespace Pass

variable {capacity : Nat} {layout : RecordLayout} {pass next : Pass}

/-- Records are followed by records of the same layout. -/
theorem Reaches.records (h : pass.Reaches capacity next) (format : pass.format = .records layout) :
    next.format = .records layout := by
  refine h.keeps (motive := fun now => now.format = .records layout) (fun now next kept turn => ?_) format
  have rule := rule_of_turn turn
  cases rule with
  | header | block =>
    show now.format.after _ = _
    rw [kept]
    rfl
  | read => exact kept

/-- **Where the records ahead need more than the buffer holds, it is too small.** -/
theorem run_eq_windowTooSmall (settled : pass.Settled capacity) (steady : .fail ∉ pass.source.schedule)
    (format : pass.format = .records layout) (long : ¬pass.format.Fits capacity (pass.ahead capacity)) :
    pass.run capacity = .error (.malformed .windowTooSmall) := by
  have unanswered : ¬Answers (pass.run capacity) := fun answers =>
    long (fits_of_answers settled answers).2
  obtain ⟨last, reached, ends⟩ := run_reaches capacity pass
  generalize pass.run capacity = result at ends unanswered ⊢
  have rule := rule_of_turn ends
  cases rule with
  | finished => exact absurd (.counted _) unanswered
  | truncated => exact absurd (.cut _) unanswered
  | tooSmall => rfl
  | readFailed _ _ _ _ failed =>
    exact absurd (ByteSource.fail_mem_of_read? failed) (reached.steady steady)
  | refused _ refusal parsed =>
    rw [reached.records format] at parsed
    exact absurd parsed (RecordLayout.parse_ne_refused refusal)

end Pass

namespace ByteSource

/-- A file is opened by a first read that shows its header, and its records are ahead. -/
theorem exists_begin_of_flows (file : RecordFile) {rest : List UInt8} {schedule : List ReadStep}
    {capacity : Nat} (flows : Flows ⟨file.bytes ++ rest, schedule⟩)
    (first : fileHeaderSize ≤ firstRead ⟨file.bytes ++ rest, schedule⟩ capacity) :
    ∃ start, Pass.begin capacity ⟨file.bytes ++ rest, schedule⟩ = .ok start ∧ start.format = file.format ∧
      start.ahead capacity = bytesOf (file.records.map Record.written) ++ rest := by
  obtain ⟨n, later, read, -⟩ := flows.exists_read capacity
  rw [firstRead_eq read] at first
  have there : (file.bytes ++ rest).take n ≠ [] := by
    rw [← List.length_pos_iff]
    exact (by decide : 0 < fileHeaderSize).trans_le first
  have shown : Format.detect ((file.bytes ++ rest).take n) = .ok file.format := by
    rw [Format.detect_take (file.ofMagic?_append rest), if_pos first]
    rfl
  rcases begin_of_flows flows read there with ⟨fault, detected, -⟩ | ⟨start, detected, begun⟩
  · rw [shown] at detected
    cases detected
  · rw [shown] at detected
    have format : start.format = file.format := (Except.ok.inj detected).symm
    have front : file.format.headerSize ≤ file.bytes.length := file.header_le
    refine ⟨start, begun, format, ?_⟩
    rw [Pass.ahead_of_flows flows begun, format, Format.body_append rest front, file.body_bytes]

/-- **A record that is longer than the buffer is always found to be.** Behind the
records of a file comes the header of one that gives more bytes than the buffer
has. The first read shows the header of the file, and every read brings
something. Then the buffer is said to be too small, whether the data of that
record is there or not. -/
theorem tally_of_oversized (file : RecordFile) {rest : List UInt8} {schedule : List ReadStep}
    {capacity : Nat} (header : file.magic.layout.headerSize ≤ rest.length)
    (long : capacity < file.magic.layout.headerSize + file.magic.layout.order.field 8 4 rest)
    (flows : Flows ⟨file.bytes ++ rest, schedule⟩)
    (first : fileHeaderSize ≤ firstRead ⟨file.bytes ++ rest, schedule⟩ capacity) :
    tally ⟨file.bytes ++ rest, schedule⟩ capacity = .failed (.malformed .windowTooSmall) := by
  have made : capacity ≤ bufferLimit := by
    have field := file.magic.layout.order.field_lt 8 4 rest
    have extended : file.magic.layout.headerSize ≤ 24 := by
      unfold RecordLayout.headerSize
      split <;> decide
    unfold bufferLimit
    omega
  obtain ⟨start, begun, format, ahead⟩ := exists_begin_of_flows file flows first
  have unfit : ¬start.format.Fits capacity (start.ahead capacity) := by
    rw [ahead, format]
    intro fits
    have asks : demand Found.size rest.length (file.magic.layout.parse rest) ≤ capacity :=
      (RecordLayout.fits_behind fits).here
    rw [RecordLayout.demand_of_header header] at asks
    omega
  have run := Pass.run_eq_windowTooSmall (Pass.settled_of_begin begun)
    (Pass.steady_of_begin flows.steady begun) format unfit
  rw [tally_of_le made, Verdict.ofExcept_eq_failed, pass, begun]
  exact run

/-- A file in big endian with one record of three bytes. -/
def shortRecordFile : RecordFile where
  magic := .nanos .big
  settings := ⟨#[0, 2, 0, 4, 0, 0, 0, 0, 0, 0, 0, 0, 0, 0, 8, 0, 0, 0, 0, 1], rfl⟩
  records := [⟨⟨#[0, 0, 0, 5, 0, 0, 0, 6], rfl⟩, ⟨#[0, 0, 0, 3], rfl⟩, Vector.replicate _ 0, [0xd0, 0xd1, 0xd2],
    by decide⟩]

/-- The header of a record of 25 bytes. -/
def longHeader : List UInt8 := [0, 0, 0, 5, 0, 0, 0, 7, 0, 0, 0, 25, 0, 0, 0, 25]

/-- In pieces of a byte with nothing behind the header, or at once with all of the data there. -/
theorem tally_longHeader :
    (shortRecordFile.magic.layout.headerSize ≤ longHeader.length ∧
      40 < shortRecordFile.magic.layout.headerSize + shortRecordFile.magic.layout.order.field 8 4 longHeader ∧
      Flows ⟨shortRecordFile.bytes ++ longHeader, [.upTo 24, .upTo 1, .upTo 1]⟩ ∧
      fileHeaderSize ≤ firstRead ⟨shortRecordFile.bytes ++ longHeader, [.upTo 24, .upTo 1, .upTo 1]⟩ 40 ∧
      tally ⟨shortRecordFile.bytes ++ longHeader, [.upTo 24, .upTo 1, .upTo 1]⟩ 40 =
        .failed (.malformed .windowTooSmall)) ∧
    tallyOf (shortRecordFile.bytes ++ (longHeader ++ List.replicate 25 0xdd)) 40 =
      .failed (.malformed .windowTooSmall) := by
  have header : shortRecordFile.magic.layout.headerSize ≤ longHeader.length := by decide
  have long : 40 < shortRecordFile.magic.layout.headerSize +
      shortRecordFile.magic.layout.order.field 8 4 longHeader := by decide
  have flows : Flows ⟨shortRecordFile.bytes ++ longHeader, [.upTo 24, .upTo 1, .upTo 1]⟩ := by decide
  have first : fileHeaderSize ≤
      firstRead ⟨shortRecordFile.bytes ++ longHeader, [.upTo 24, .upTo 1, .upTo 1]⟩ 40 := by decide
  refine ⟨⟨header, long, flows, first, tally_of_oversized shortRecordFile header long flows first⟩, ?_⟩
  exact tally_of_oversized shortRecordFile (by decide) (by decide) (by decide) (by decide)

end ByteSource
end CapturePace
