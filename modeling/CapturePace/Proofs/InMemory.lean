/-
# Captures held in memory

A source with no schedule gives all its bytes, so all of them are delivered
(`Pass.delivered_inMemory`), and the verdict on a capture in memory is that of
its walk as soon as the walk fits into less than the buffer
(`abridges_of_fits`). The other way round, a verdict that tells about the
capture, its counters or the place where it is cut, is the walk's, and such a
walk fits into the buffer (`walk_of_answers`). So the walk alone decides which
buffers give a verdict.

Key definitions: `Pass.InMemory`, `Format.body`, `Answers`.
Key theorems: `abridges_of_fits`, `walk_of_answers`.
-/
import CapturePace.Proofs.Flowing

namespace CapturePace

/-- The bytes in which blocks are looked for in a capture of the format. -/
def Format.body (format : Format) (bs : List UInt8) : List UInt8 :=
  bs.drop (if format.hasFileHeader then fileHeaderSize else 0)

/-- The result tells about the capture, and not about the buffer or a read. -/
inductive Answers : Except CaptureFault Tally → Prop
  | counted (tally : Tally) : Answers (.ok tally)
  | cut (consumed : Nat) : Answers (.error (.truncated consumed))

/-- An answer quotes nothing, so nothing of it is cut short. -/
theorem Answers.eq_of_abridges {result : Except CaptureFault Tally} {verdict : Verdict Tally}
    (answers : Answers result) (h : verdict.Abridges (.ofExcept result)) :
    verdict = .ofExcept result := by
  cases answers with
  | counted tally =>
    cases verdict <;> exact h
  | cut consumed =>
    cases verdict with
    | failed fault =>
      cases fault with
      | malformed fault => cases h
      | _ => exact congrArg _ h
    | _ => cases h

namespace Pass

variable {capacity : Nat} {pass next start : Pass} {bs : List UInt8}

/-- The source gives all it has, and has ended only when nothing is left. -/
structure InMemory (pass : Pass) : Prop where
  schedule : pass.source.schedule = []
  ended : pass.exhausted = true → pass.source.bytes = []

theorem InMemory.flowing (memory : pass.InMemory) : pass.Flowing :=
  ⟨ByteSource.flows_of_nil memory.schedule, memory.ended⟩

theorem InMemory.turn (memory : pass.InMemory) (h : pass.turn capacity = .more next) :
    next.InMemory := by
  refine ⟨?_, (memory.flowing.turn h).ended⟩
  have rule := rule_of_turn h
  cases rule with
  | header | block => exact memory.schedule
  | read _ _ _ _ read => simp only [ByteSource.read?_schedule read, memory.schedule, List.tail_nil]

/-- **All bytes of a capture in memory are delivered.** -/
theorem delivered_inMemory (memory : pass.InMemory) :
    pass.delivered capacity = pass.window ++ pass.source.bytes := memory.flowing.delivered

/-- A capture in memory is opened when the front that fits into the buffer shows its header. -/
theorem begin_inMemory {format : Format} (opens : format.Opens (bs.take capacity)) :
    ∃ start, Pass.begin capacity ⟨bs, []⟩ = .ok start ∧ start.format = format :=
  ⟨_, begin_eq_ok.2 ⟨_, _, _, _, _, rfl, opens, rfl, rfl⟩, rfl⟩

theorem inMemory_of_begin (h : Pass.begin capacity ⟨bs, []⟩ = .ok start) : start.InMemory := by
  obtain ⟨first, rest, second, rest', format, read, opens, read', rfl⟩ := begin_eq_ok.1 h
  refine ⟨?_, fun ended => by cases ended⟩
  simp only [ByteSource.read?_schedule read', ByteSource.read?_schedule read, List.tail_nil]

/-- A capture in memory that is opened shows its header in the front that fits
into the buffer, and is delivered as a whole. -/
theorem opens_inMemory (h : Pass.begin capacity ⟨bs, []⟩ = .ok start) :
    start.format.Opens (bs.take capacity) ∧ start.delivered capacity = bs := by
  constructor
  · obtain ⟨_, _, _, _, _, read, opens, _, rfl⟩ := begin_eq_ok.1 h
    cases read
    exact opens
  · rw [delivered_inMemory (inMemory_of_begin h), bytes_of_begin h]

/-- A capture that flows has all of its blocks ahead. -/
theorem ahead_of_flows {source : ByteSource} (flows : source.Flows)
    (h : Pass.begin capacity source = .ok start) :
    start.ahead capacity = start.format.body source.bytes := by
  rw [ahead, (opens_of_begin h).2.1, delivered_of_flows flows h]
  rfl

theorem ahead_inMemory (h : Pass.begin capacity ⟨bs, []⟩ = .ok start) :
    start.ahead capacity = start.format.body bs := ahead_of_flows (ByteSource.flows_of_nil rfl) h

/-! ### What a verdict on the capture tells -/

/-- Behind the end of its source, a settled pass asks for no more than the buffer holds. -/
theorem fits_of_ended {result : Except CaptureFault Tally} (settled : pass.Settled capacity)
    (h : pass.turn capacity = .over result) (ended : pass.exhausted = true) :
    pass.format.Fits capacity (pass.ahead capacity) := by
  obtain ⟨due, -, missing, parsed, room⟩ := settled.ended ended
  rw [ahead_of_ended due h ended]
  exact .of_incomplete parsed room.le

/-- **A run with an answer about the capture sees what its outlook says**, and
has had room for all that it went through. -/
theorem fits_of_answers (settled : pass.Settled capacity) (answers : Answers (pass.run capacity)) :
    pass.run capacity = pass.outlook capacity ∧ pass.format.Fits capacity (pass.ahead capacity) := by
  revert answers
  fun_induction run capacity pass with
  | case1 pass next h ih =>
    intro answers
    obtain ⟨same, fits⟩ := ih (settled.turn h) answers
    refine ⟨same.trans (settled.outlook_turn h), ?_⟩
    rcases settled.ahead_turn h with ⟨format, ahead⟩ | ⟨found, front, size, format, ahead⟩
    · rwa [format, ahead] at fits
    · rw [format, ahead] at fits
      exact .of_ok front size fits
  | case2 pass result h =>
    intro answers
    have rule := rule_of_turn h
    cases answers with
    | counted tally =>
      cases rule with
      | finished _ _ _ ended => exact ⟨(outlook_of_ok h).symm, fits_of_ended settled h ended⟩
    | cut consumed =>
      cases rule with
      | truncated _ _ ended _ =>
        exact ⟨(outlook_of_truncated settled h).symm, fits_of_ended settled h ended⟩

end Pass

variable {bs : List UInt8} {capacity : Nat}

theorem tallyOf_of_le (made : capacity ≤ bufferLimit) :
    tallyOf bs capacity = .ofExcept (ByteSource.pass ⟨bs, []⟩ capacity) :=
  ByteSource.tally_of_le made

theorem tallyOf_of_lt (long : bufferLimit < capacity) : tallyOf bs capacity = .overflowed .capacity :=
  ByteSource.tally_of_lt long

/-- **A walk that fits into less than the buffer is the verdict**, up to the
bytes that a fault quotes. -/
theorem abridges_of_fits {format : Format} {bound : Nat} (opens : format.Opens (bs.take capacity))
    (fits : format.Fits bound (format.body bs)) (room : bound < capacity) :
    (Verdict.ofExcept (ByteSource.pass ⟨bs, []⟩ capacity)).Abridges (.ofExcept (walk bs)) := by
  obtain ⟨start, h, rfl⟩ := Pass.begin_inMemory opens
  rw [← Pass.ahead_inMemory h] at fits
  have abridges := ByteSource.pass_abridges (by simp) h (ByteSource.ample_of_fits h fits room)
  rwa [ByteSource.delivered_of_begin h, (Pass.opens_inMemory h).2] at abridges

/-- A walk that is counted or cut, and fits into less than the buffer, is the verdict. -/
theorem tallyOf_of_walk {format : Format} {bound : Nat} {result : Except CaptureFault Tally}
    (answers : Answers result) (opens : format.Opens (bs.take capacity))
    (fits : format.Fits bound (format.body bs)) (room : bound < capacity)
    (made : capacity ≤ bufferLimit) (walked : walk bs = result) :
    tallyOf bs capacity = .ofExcept result := by
  have abridges := abridges_of_fits opens fits room
  rw [walked] at abridges
  rw [tallyOf_of_le made]
  exact answers.eq_of_abridges abridges

/-- **An answer about a capture that flows is that of its walk**, however it
comes in, and the walk fits into the buffer. -/
theorem walk_of_run {source : ByteSource} {start : Pass} (flows : source.Flows)
    (h : Pass.begin capacity source = .ok start) (answers : Answers (start.run capacity)) :
    start.run capacity = walk source.bytes ∧
      start.format.Fits capacity (start.format.body source.bytes) := by
  obtain ⟨same, fits⟩ := Pass.fits_of_answers (Pass.settled_of_begin h) answers
  rw [Pass.ahead_of_flows flows h] at fits
  rw [← Pass.walk_delivered h, Pass.delivered_of_flows flows h] at same
  exact ⟨same, fits⟩

/-- **A verdict about the capture is that of its walk**, and the walk fits into the buffer. -/
theorem walk_of_answers {start : Pass} (h : Pass.begin capacity ⟨bs, []⟩ = .ok start)
    (answers : Answers (start.run capacity)) :
    start.run capacity = walk bs ∧ start.format.Opens (bs.take capacity) ∧
      start.format.Fits capacity (start.format.body bs) := by
  obtain ⟨same, fits⟩ := walk_of_run (ByteSource.flows_of_nil rfl) h answers
  exact ⟨same, (Pass.opens_inMemory h).1, fits⟩

end CapturePace
