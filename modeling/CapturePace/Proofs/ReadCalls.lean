/-
# What a run tells of its reads

A run makes its reads one after the other: one or two to open the source, and
then one for every time that more is read. What they bring is listed by
`ByteSource.reads`. Each goes on where the one before it stopped, and one that
fails is the last (`ByteSource.Calls`).

A source takes one of six courses (`ByteSource.Course`): there is no buffer, or
it ends at its opening in one of four ways, or the loop is run from the pass
that is opened. Everything told of a run is a case analysis on these. A first
read that brings nothing, and only that, makes the source an empty one; a read
that fails, and only that, makes the run fail for it. All other faults are of
the bytes that were shown, or of the buffer: the loop stops in one of three ways
(`Pass.stop_cases`), and a reader of blocks finds fault with nothing but its
bytes. A cut is told to follow the blocks that were counted, by the account of
the last pass.

Key definitions: `ByteSource.Calls`, `Pass.openingReads`, `ByteSource.reads`,
`ByteSource.taken`, `ByteSource.Course`, `CaptureFault.OfRun`.
Key theorems: `Pass.none_mem_refills_iff`, `ByteSource.course`,
`ByteSource.Course.ofRun`, `ByteSource.tally_conditions`.
-/
import CapturePace.Proofs.Conservation

namespace CapturePace

open WrittenBlock (bytesOf)

/-- What the move reads, if it is a read: some bytes, or nothing at all if it fails. -/
def Move.read? : Move → Option (Option (List UInt8))
  | .block _ => none
  | .refill read => some (read.map Prod.fst)
  | .stop _ => none

namespace ReadFault

/-- The reader may end a run with this fault. -/
def OfRun : ReadFault → Prop
  | .windowTooSmall => True
  | .readFailed => True
  | .unknownHeader => True
  | .damaged _ => True
  | .endOfInput => False
  | .unexpectedEnd => False
  | .incomplete _ => False

theorem ofRun_of_refusal {fault : ReadFault} (own : fault.OfBytes) (refusal : fault.IsRefusal) :
    fault.OfRun ∧ fault ≠ .readFailed := by
  cases fault with
  | incomplete missing => exact absurd rfl (refusal missing)
  | unknownHeader => exact ⟨trivial, by rintro ⟨⟩⟩
  | damaged rest => exact ⟨trivial, by rintro ⟨⟩⟩
  | endOfInput | windowTooSmall | unexpectedEnd | readFailed => exact own.elim

end ReadFault

/-- A run may end with this fault. -/
def CaptureFault.OfRun : CaptureFault → Prop
  | .empty => True
  | .truncated _ => True
  | .malformed fault => fault.OfRun
  | .io _ => False
  | .misused _ => False

/-- A front that does not announce a format is cut, or no header at all. -/
theorem Format.detect_error {bs : List UInt8} {fault : CaptureFault} (h : detect bs = .error fault) :
    fault = .truncated 0 ∨ fault = .malformed .unknownHeader := by
  unfold detect at h
  split at h
  · cases h
  split at h
  · cases h
    exact .inl rfl
  split at h
  · cases h
    exact .inr rfl
  split at h
  · cases h
    exact .inl rfl
  · cases h

/-! ### Reads in a row -/

namespace ByteSource

/-- What reads of a source bring one after the other: each goes on where the one
before it stopped, and one that fails is the last. -/
inductive Calls : ByteSource → List (Option (List UInt8)) → Prop
  | done (source : ByteSource) : Calls source []
  | failed {source : ByteSource} {room : Nat} (read : source.read? room = none) : Calls source [none]
  | next {source rest : ByteSource} {room : Nat} {got : List UInt8} {later : List (Option (List UInt8))}
      (read : source.read? room = some (got, rest)) (behind : Calls rest later) :
      Calls source (some got :: later)

theorem Calls.last {source : ByteSource} {reads : List (Option (List UInt8))} (calls : source.Calls reads)
    (failed : none ∈ reads) : ∃ before, reads = before ++ [none] ∧ none ∉ before := by
  induction calls with
  | done => cases failed
  | failed => exact ⟨[], rfl, List.not_mem_nil⟩
  | @next _ _ _ got _ _ _ ih =>
    rw [List.mem_cons] at failed
    obtain ⟨before, rfl, none⟩ := ih (failed.resolve_left (by rintro ⟨⟩))
    exact ⟨some got :: before, rfl, by simpa using none⟩

end ByteSource

namespace Pass

variable {source : ByteSource} {capacity : Nat} {pass next start : Pass}

/-- What the reads bring that a source is opened with. The second one is made
behind a header only. -/
def openingReads (capacity : Nat) (source : ByteSource) : List (Option (List UInt8)) :=
  match source.read? capacity with
  | none => [none]
  | some ([], _) => [some []]
  | some (first, rest) =>
    match Format.detect first with
    | .error _ => [some first]
    | .ok _ => [some first, (rest.read? (capacity - first.length)).map Prod.fst]

/-! ### Reading more -/

/-- What the reads bring that a run makes from this pass on. -/
def refills (capacity : Nat) (pass : Pass) : List (Option (List UInt8)) :=
  (pass.moves capacity).filterMap Move.read?

theorem refills_of_more (h : pass.turn capacity = .more next) :
    pass.refills capacity = (pass.move capacity).read?.toList ++ next.refills capacity := by
  rw [refills, moves_of_more h, List.filterMap_cons]
  cases (pass.move capacity).read? <;> rfl

theorem refills_of_over {result : Except CaptureFault Tally} (h : pass.turn capacity = .over result) :
    pass.refills capacity = (pass.move capacity).read?.toList := by
  rw [refills, moves_of_over h, List.filterMap_cons]
  cases (pass.move capacity).read? <;> rfl

/-- The loop stops at the end, in the middle of a block, or before one that the
buffer is too small for or that the reader refuses. -/
theorem stop_cases {result : Except CaptureFault Tally} (h : pass.move capacity = .stop result) :
    result = .ok pass.tally ∨ result = .error (.truncated pass.consumed) ∨
      ∃ fault : ReadFault, result = .error (.malformed fault) ∧ fault.OfRun ∧ fault ≠ .readFailed := by
  unfold move at h
  split at h
  · cases h
  split at h
  · cases h
    exact .inl rfl
  split at h
  · cases h
  · split at h
    · cases h
      exact .inr (.inl rfl)
    split at h
    · cases h
      exact .inr (.inr ⟨.windowTooSmall, rfl, trivial, by rintro ⟨⟩⟩)
    · cases h
  · next fault other parsed =>
    cases h
    have own := pass.format.faultsBytes_parse pass.window fault parsed
    exact .inr (.inr ⟨fault, rfl, ReadFault.ofRun_of_refusal own fun missing same => other missing same⟩)

/-- A turn that is over has stopped, or its read has failed. -/
theorem over_cases {result : Except CaptureFault Tally} (h : pass.turn capacity = .over result) :
    pass.move capacity = .stop result ∨
      pass.move capacity = .refill none ∧ result = .error (.malformed .readFailed) := by
  rw [← carryOut_move] at h
  rcases made : pass.move capacity with found | (_ | ⟨got, rest⟩) | other <;> rw [made] at h
  · cases h
  · cases h
    exact .inr ⟨rfl, rfl⟩
  · cases h
  · cases h
    exact .inl rfl

theorem calls_refills (capacity : Nat) (pass : Pass) : pass.source.Calls (pass.refills capacity) := by
  fun_induction visits capacity pass with
  | case1 pass next h ih =>
    rw [refills_of_more h]
    rcases exists_of_more h with ⟨found, made, -, source, -⟩ | ⟨got, rest, made, -, source, -⟩
    · rw [made]
      rwa [source] at ih
    · rw [made]
      rw [source] at ih
      exact .next (of_move_refill made).2 ih
  | case2 pass result h =>
    rw [refills_of_over h]
    rcases over_cases h with made | ⟨made, -⟩
    · rw [made]
      exact .done _
    · rw [made]
      exact .failed (of_move_refill made).2

/-- **The loop ends for a failed read exactly if one of its reads fails.** -/
theorem none_mem_refills_iff (capacity : Nat) (pass : Pass) :
    none ∈ pass.refills capacity ↔ pass.run capacity = .error (.malformed .readFailed) := by
  fun_induction visits capacity pass with
  | case1 pass next h ih =>
    rw [refills_of_more h, run_of_more h, ← ih, List.mem_append]
    refine or_iff_right fun failed => ?_
    rcases exists_of_more h with ⟨found, made, -⟩ | ⟨got, rest, made, -⟩
    · rw [made] at failed
      simp [Move.read?] at failed
    · rw [made] at failed
      simp [Move.read?] at failed
  | case2 pass result h =>
    rw [refills_of_over h, run_of_over h]
    rcases over_cases h with made | ⟨made, rfl⟩
    · rw [made]
      refine iff_of_false (by simp [Move.read?]) ?_
      rcases stop_cases made with rfl | rfl | ⟨fault, rfl, -, other⟩
      · rintro ⟨⟩
      · rintro ⟨⟩
      · rintro ⟨⟩
        exact other rfl
    · rw [made]
      exact iff_of_true (by simp [Move.read?]) rfl

/-- What the loop ends with. -/
theorem run_error {fault : CaptureFault} (h : pass.run capacity = .error fault) :
    fault.OfRun ∧ fault ≠ .empty := by
  obtain ⟨last, -, ends⟩ := run_reaches capacity pass
  rw [h] at ends
  rcases over_cases ends with made | ⟨-, same⟩
  · rcases stop_cases made with same | same | ⟨fault, same, own, -⟩
    · cases same
    · cases same
      exact ⟨trivial, by rintro ⟨⟩⟩
    · cases same
      exact ⟨own, by rintro ⟨⟩⟩
  · cases same
    exact ⟨trivial, by rintro ⟨⟩⟩

/-- A run that is cut has gone through the blocks it took. -/
theorem consumed_of_truncated (h : Pass.begin capacity source = .ok start) {consumed : Nat}
    (cut : start.run capacity = .error (.truncated consumed)) :
    consumed = (bytesOf (taken capacity (start.visits capacity))).length ∧
      ∀ written ∈ taken capacity (start.visits capacity), written.Whole := by
  obtain ⟨last, ends, account⟩ := (account_of_begin h).last (settled_of_begin h)
  rw [cut] at ends
  have rule := rule_of_turn ends
  cases rule with
  | truncated => exact ⟨account.consumed, account.whole⟩

end Pass

namespace ByteSource

/-- What the reads of a run bring one after the other. Without a buffer nothing is read. -/
def reads (source : ByteSource) (capacity : Nat) : List (Option (List UInt8)) :=
  if capacity ≤ bufferLimit then
    Pass.openingReads capacity source ++ (source.moves capacity).filterMap Move.read?
  else []

/-- The blocks that a run takes. -/
def taken (source : ByteSource) (capacity : Nat) : List WrittenBlock :=
  Pass.taken capacity (source.visits capacity)

variable {source : ByteSource} {capacity : Nat}

/-- What can become of a source: what its reads bring, the blocks that are taken,
and the verdict. -/
inductive Course (source : ByteSource) (capacity : Nat) :
    List (Option (List UInt8)) → List WrittenBlock → Verdict Tally → Prop
  | unmade (long : bufferLimit < capacity) : Course source capacity [] [] (.overflowed .capacity)
  | unread (read : source.read? capacity = none) :
      Course source capacity [none] [] (.failed (.malformed .readFailed))
  | empty {rest : ByteSource} (read : source.read? capacity = some ([], rest)) :
      Course source capacity [some []] [] (.failed .empty)
  | refused {first : List UInt8} {rest : ByteSource} {fault : CaptureFault}
      (read : source.read? capacity = some (first, rest)) (there : first ≠ [])
      (detected : Format.detect first = .error fault) :
      Course source capacity [some first] [] (.failed fault)
  | unreadBehind {first : List UInt8} {rest : ByteSource}
      (read : source.read? capacity = some (first, rest)) (there : first ≠ [])
      (read' : rest.read? (capacity - first.length) = none) :
      Course source capacity [some first, none] [] (.failed (.malformed .readFailed))
  | opened {first second : List UInt8} {rest : ByteSource} {start : Pass}
      (read : source.read? capacity = some (first, rest)) (there : first ≠ [])
      (read' : rest.read? (capacity - first.length) = some (second, start.source))
      (begun : Pass.begin capacity source = .ok start) :
      Course source capacity (some first :: some second :: start.refills capacity)
        (Pass.taken capacity (start.visits capacity)) (.ofExcept (start.run capacity))

/-- **A run takes one of these courses.** -/
theorem course (source : ByteSource) (capacity : Nat) :
    source.Course capacity (source.reads capacity) (source.taken capacity) (source.tally capacity) := by
  by_cases made : capacity ≤ bufferLimit
  · rw [tally_of_le made, reads, if_pos made, moves, taken, visits, if_pos made, pass]
    cases read : source.read? capacity with
    | none =>
      simp only [Pass.openingReads, Pass.begin, read]
      exact .unread read
    | some more =>
      obtain ⟨first, rest⟩ := more
      cases first with
      | nil =>
        simp only [Pass.openingReads, Pass.begin, read]
        exact .empty read
      | cons b first =>
        have there : b :: first ≠ [] := List.cons_ne_nil b first
        cases detected : Format.detect (b :: first) with
        | error fault =>
          simp only [Pass.openingReads, Pass.begin, read, detected]
          exact .refused read there detected
        | ok format =>
          cases read' : rest.read? (capacity - (b :: first).length) with
          | none =>
            simp only [Pass.openingReads, Pass.begin, read, detected, read']
            exact .unreadBehind read there read'
          | some more =>
            have begun := Pass.begin_eq_ok.2
              ⟨_, _, _, _, _, read, Format.detect_eq_ok.1 detected, read', rfl⟩
            rw [begun, Pass.openingReads, read]
            simp only [detected, read']
            exact .opened read there read' begun
  · rw [tally_of_lt (Nat.lt_of_not_le made), reads, if_neg made, taken, visits, if_neg made]
    exact .unmade (Nat.lt_of_not_le made)

namespace Course

variable {reads : List (Option (List UInt8))} {blocks : List WrittenBlock} {verdict : Verdict Tally}

/-- **The reads of a run are calls of its source in a row**, and none follows one that fails. -/
theorem calls (course : source.Course capacity reads blocks verdict) : source.Calls reads := by
  cases course with
  | unmade => exact .done source
  | unread read => exact .failed read
  | empty read => exact .next read (.done _)
  | refused read => exact .next read (.done _)
  | unreadBehind read _ read' => exact .next read (.failed read')
  | opened read _ read' => exact .next read (.next read' (Pass.calls_refills capacity _))

/-- **A run ends with a fault of the bytes it was shown, of its buffer or of a read.** -/
theorem ofRun (course : source.Course capacity reads blocks verdict) {fault : CaptureFault}
    (failed : verdict = .failed fault) : fault.OfRun := by
  cases course with
  | unmade => cases failed
  | unread | unreadBehind | empty =>
    cases failed
    exact trivial
  | refused _ _ detected =>
    cases failed
    rcases Format.detect_error detected with rfl | rfl
    · exact trivial
    · exact trivial
  | opened => exact (Pass.run_error (Verdict.ofExcept_eq_failed.1 failed)).1

/-- **A source is found empty exactly if its first read brings nothing.** -/
theorem empty_iff (course : source.Course capacity reads blocks verdict) :
    verdict = .failed .empty ↔ reads.head? = some (some []) := by
  cases course with
  | unmade | unread | empty => simp
  | refused _ there detected =>
    rcases Format.detect_error detected with rfl | rfl
    · simp [there]
    · simp [there]
  | unreadBehind _ there => simp [there]
  | opened _ there =>
    rw [Verdict.ofExcept_eq_failed]
    refine iff_of_false (fun empty => (Pass.run_error empty).2 rfl) ?_
    simpa using there

/-- **A run fails for a read exactly if one of its reads fails.** -/
theorem readFailed_iff (course : source.Course capacity reads blocks verdict) :
    verdict = .failed (.malformed .readFailed) ↔ none ∈ reads := by
  cases course with
  | unmade | unread | empty | unreadBehind => simp
  | refused _ _ detected =>
    rcases Format.detect_error detected with rfl | rfl
    · simp
    · simp
  | opened =>
    rw [Verdict.ofExcept_eq_failed, ← Pass.none_mem_refills_iff]
    simp

/-- What is told of a cut is how many bytes the counted blocks have. -/
theorem consumed (course : source.Course capacity reads blocks verdict) {consumed : Nat}
    (cut : verdict = .failed (.truncated consumed)) :
    consumed = (bytesOf blocks).length ∧ ∀ written ∈ blocks, written.Whole := by
  cases course with
  | unmade | unread | empty | unreadBehind => cases cut
  | refused _ _ detected =>
    cases cut
    rcases Format.detect_error detected with same | same
    · cases same
      exact ⟨rfl, List.forall_mem_nil _⟩
    · cases same
  | opened _ _ _ begun => exact Pass.consumed_of_truncated begun (Verdict.ofExcept_eq_failed.1 cut)

/-- A run that is cut at the start has counted nothing. -/
theorem nothing_of_zero (course : source.Course capacity reads blocks verdict)
    (cut : verdict = .failed (.truncated 0)) : blocks = [] := by
  obtain ⟨none, whole⟩ := course.consumed cut
  cases blocks with
  | nil => rfl
  | cons first rest =>
    have size := (whole first List.mem_cons_self).twelve_le
    rw [WrittenBlock.bytesOf_cons, List.length_append] at none
    omega

/-- Through a buffer without room every source is empty. -/
theorem empty_of_zero (course : source.Course 0 reads blocks verdict) (read : source.read? 0 ≠ none) :
    verdict = .failed .empty := by
  cases course with
  | unmade long => cases long
  | unread failed => exact absurd failed read
  | empty => rfl
  | refused read there | unreadBehind read there | opened read there =>
    have nothing := List.eq_nil_of_length_eq_zero (Nat.le_zero.1 (read?_room read))
    exact absurd nothing there

end Course

/-- **What the source does is told for what it is.** A run makes its reads in a row.
The source is empty exactly if the first one brings nothing, as it does where
there is no room for more. The run fails for a read exactly if one fails; that is
the last one, and nothing is told of the blocks before it. A cut is told to follow
as many bytes as the counted blocks have, and so follows none only if none was
counted. That the input is used up, that it ends too early and that bytes are
missing stay between the loop and its reader, and neither a file nor a stopwatch
is to blame. -/
theorem tally_conditions (source : ByteSource) (capacity : Nat) :
    source.Calls (source.reads capacity) ∧
    (source.tally capacity = .failed .empty ↔ (source.reads capacity).head? = some (some [])) ∧
    (source.read? 0 ≠ none → source.tally 0 = .failed .empty) ∧
    (source.tally capacity = .failed (.malformed .readFailed) ↔ none ∈ source.reads capacity) ∧
    (none ∈ source.reads capacity →
      ∃ before, source.reads capacity = before ++ [none] ∧ none ∉ before) ∧
    (∀ consumed, source.tally capacity = .failed (.truncated consumed) →
      consumed = (bytesOf (source.taken capacity)).length ∧
        (consumed = 0 → source.taken capacity = [])) ∧
    source.tally capacity ≠ .failed (.malformed .endOfInput) ∧
    source.tally capacity ≠ .failed (.malformed .unexpectedEnd) ∧
    (∀ missing, source.tally capacity ≠ .failed (.malformed (.incomplete missing))) ∧
    (∀ text, source.tally capacity ≠ .failed (.io text)) ∧
    ∀ misuse, source.tally capacity ≠ .failed (.misused misuse) := by
  have course := source.course capacity
  refine ⟨course.calls, course.empty_iff, (source.course 0).empty_of_zero, course.readFailed_iff, course.calls.last, ?_,
    course.ofRun, course.ofRun, fun missing => course.ofRun, fun text => course.ofRun,
    fun misuse => course.ofRun⟩
  intro consumed cut
  refine ⟨(course.consumed cut).1, ?_⟩
  rintro rfl
  exact course.nothing_of_zero cut

/-- The header is counted, the record behind it is cut by a read that fails, and no other one is made. -/
example : reads ⟨unevenFile, [.upTo 24, .upTo 3, .fail, .upTo 5]⟩ 50 =
      [some (unevenFile.take 24), some [1, 0, 0], none] ∧
    (taken ⟨unevenFile, [.upTo 24, .upTo 3, .fail, .upTo 5]⟩ 50).map (·.block) = [.fileHeader] ∧
    tally ⟨unevenFile, [.upTo 24, .upTo 3, .fail, .upTo 5]⟩ 50 = .failed (.malformed .readFailed) := by
  refine ⟨?_, ?_, ?_⟩
  · cbv
  · cbv
  · cbv

end ByteSource
end CapturePace
