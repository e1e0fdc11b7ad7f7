/-
# A wider buffer gives the same answer about a capture

A capture in memory that is counted through some buffer is counted alike
through every wider one, and one that is found to be cut behind its opening is
found cut at the same place (`tallyOf_wider`). The two runs take their turns at
different moments, so they are compared through the walk that both of them
follow: an answer shows that the walk fits into the buffer, and then it fits
into less than a wider one.

Key theorem: `tallyOf_wider`.
-/
import CapturePace.Proofs.InMemory

namespace CapturePace

variable {bs : List UInt8} {capacity wider : Nat} {result : Except CaptureFault Tally}

/-- What is cut before a pass is opened is cut at its start. -/
theorem truncated_of_begin {source : ByteSource} {consumed : Nat}
    (h : Pass.begin capacity source = .error (.truncated consumed)) : consumed = 0 := by
  unfold Pass.begin at h
  split at h
  · simp at h
  · simp at h
  split at h
  · next detected =>
    cases h
    unfold Format.detect at detected
    split at detected
    · simp at detected
    split at detected
    · cases detected
      rfl
    split at detected
    · simp at detected
    split at detected
    · cases detected
      rfl
    · simp at detected
  split at h
  · simp at h
  · simp at h

/-- An answer about a capture, unless it is cut at its start, comes from a run. -/
theorem run_of_tallyOf (answers : Answers result) (behind : result ≠ .error (.truncated 0))
    (made : capacity ≤ bufferLimit) (h : tallyOf bs capacity = .ofExcept result) :
    ∃ start, Pass.begin capacity ⟨bs, []⟩ = .ok start ∧ start.run capacity = result := by
  rw [tallyOf_of_le made, ByteSource.pass] at h
  cases opened : Pass.begin capacity ⟨bs, []⟩ with
  | ok start =>
    refine ⟨start, rfl, ?_⟩
    rw [opened] at h
    cases answers with
    | counted tally => exact Verdict.ofExcept_eq_finished.1 h
    | cut consumed => exact Verdict.ofExcept_eq_failed.1 h
  | error fault =>
    rw [opened] at h
    cases answers with
    | counted tally => cases h
    | cut consumed =>
      cases h
      exact absurd (congrArg _ (congrArg _ (truncated_of_begin opened))) behind

/-- What a buffer tells about a capture, a wider one tells as well. -/
theorem tallyOf_of_answers (answers : Answers result) (behind : result ≠ .error (.truncated 0))
    (wide : capacity ≤ wider) (made : wider ≤ bufferLimit)
    (h : tallyOf bs capacity = .ofExcept result) : tallyOf bs wider = .ofExcept result := by
  rcases wide.eq_or_lt with rfl | wide'
  · exact h
  obtain ⟨start, opened, rfl⟩ := run_of_tallyOf answers behind (wide.trans made) h
  obtain ⟨same, opens, fits⟩ := walk_of_answers opened answers
  obtain ⟨more, front⟩ := (List.take_prefix_take_left wide : bs.take capacity <+: bs.take wider)
  have opens' := opens.append more
  rw [front] at opens'
  exact tallyOf_of_walk answers opens' fits wide' made same.symm

/-- **A wider buffer never changes an answer about a capture.** If the capture
is counted through a buffer, or found cut behind its opening, it is counted
alike or found cut at the same place through every wider buffer that can be
made. Through one that cannot be made, nothing is seen at all. -/
theorem tallyOf_wider (bs : List UInt8) {capacity wider : Nat} (wide : capacity ≤ wider) :
    (wider ≤ bufferLimit →
      (∀ tally, tallyOf bs capacity = .finished tally → tallyOf bs wider = .finished tally) ∧
      ∀ consumed, 0 < consumed → tallyOf bs capacity = .failed (.truncated consumed) →
        tallyOf bs wider = .failed (.truncated consumed)) ∧
    (bufferLimit < wider → tallyOf bs wider = .overflowed .capacity) := by
  refine ⟨fun made => ⟨fun tally h => ?_, fun consumed pos h => ?_⟩, tallyOf_of_lt⟩
  · exact tallyOf_of_answers (.counted tally) (by rintro ⟨⟩) wide made h
  · exact tallyOf_of_answers (.cut consumed) (by rintro ⟨⟩; exact absurd pos (lt_irrefl 0)) wide made h

/-- A file whose only record is as long as the smallest buffer that opens it. -/
def tightFile : List UInt8 :=
  [0xa1, 0xb2, 0xc3, 0xd4, 0, 2, 0, 4, 0, 0, 0, 0, 0, 0, 0, 0, 0, 0, 0xff, 0xff, 0, 0, 0, 1,
    0, 0, 0, 7, 0, 0, 0, 8, 0, 0, 0, 8, 0, 0, 0, 8, 1, 2, 3, 4, 5, 6, 7, 8]

theorem tallyOf_tightFile_wider : 24 ≤ 1000 ∧ tallyOf tightFile 24 = .finished ⟨2, 1, 8⟩ ∧
    tallyOf tightFile 1000 = .finished ⟨2, 1, 8⟩ ∧
    tallyOf (tightFile.take 30) 24 = .failed (.truncated 24) ∧
    tallyOf (tightFile.take 30) 1000 = .failed (.truncated 24) := by
  have counted : tallyOf tightFile 24 = .finished ⟨2, 1, 8⟩ := by cbv
  have cut : tallyOf (tightFile.take 30) 24 = .failed (.truncated 24) := by cbv
  refine ⟨by decide, counted, ?_, cut, ?_⟩
  · exact ((tallyOf_wider tightFile (by decide : 24 ≤ 1000)).1 (by decide)).1 _ counted
  · exact ((tallyOf_wider (tightFile.take 30) (by decide : 24 ≤ 1000)).1 (by decide)).2 24 (by decide) cut

/-- A buffer that is too long to be made gives no answer where a short one does. -/
theorem tallyOf_tightFile_too_wide : 24 ≤ 9223372036854775808 ∧
    tallyOf tightFile 24 = .finished ⟨2, 1, 8⟩ ∧
    tallyOf tightFile 9223372036854775808 = .overflowed .capacity :=
  ⟨by decide, by cbv, tallyOf_of_lt (by decide)⟩

end CapturePace
