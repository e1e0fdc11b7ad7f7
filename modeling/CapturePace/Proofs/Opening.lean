/-
# How a pass is opened

A pass is opened by two reads. The first one has to show the whole header of a
capture; the second one fills what room is left, and finds no end however
little it brings (`Pass.begin_eq_ok`). The pass then has everything that the
reads brought in its window, is settled, and has as its outlook the walk of
all that is delivered to it (`Pass.walk_delivered`).

`ByteSource.delivered` are those bytes, and a buffer is ample for a source
(`ByteSource.Ample`) if no block that a run looks for, cut anywhere, asks for
as many bytes as the buffer holds.

Key definitions: `ByteSource.delivered`, `ByteSource.Ample`.
Key theorems: `Pass.begin_eq_ok`, `Pass.walk_delivered`, `ByteSource.pass_abridges`.
-/
import CapturePace.Proofs.Outlook

namespace CapturePace

theorem Format.Opens.ne_nil {format : Format} {bs : List UInt8} (h : format.Opens bs) : bs ≠ [] := by
  rintro rfl
  cases h with
  | records _ header => cases header
  | sections header => cases header

/-- A walk starts with the blocks, behind the header of a file of records. -/
theorem walk_of_opens {format : Format} {bs : List UInt8} (opens : format.Opens bs) :
    walk bs = if format.hasFileHeader then
        format.walk (bs.drop fileHeaderSize) (Tally.count {} .fileHeader) fileHeaderSize
      else format.walk bs {} 0 := by
  rw [walk, if_neg opens.ne_nil, Format.detect_eq_ok.2 opens]
  rfl

namespace Pass

variable {capacity : Nat} {source : ByteSource} {start : Pass}

/-- **A source is opened by a read that shows a header, and a second read.** -/
theorem begin_eq_ok : Pass.begin capacity source = .ok start ↔
    ∃ first rest second rest' format, source.read? capacity = some (first, rest) ∧
      Format.Opens format first ∧ rest.read? (capacity - first.length) = some (second, rest') ∧
      start = { format, headerDue := format.hasFileHeader, window := first ++ second, source := rest' } := by
  unfold Pass.begin
  constructor
  · intro h
    split at h
    · simp at h
    · simp at h
    next first rest _ read =>
    split at h
    · simp at h
    next format detected =>
    split at h
    · simp at h
    next second rest' read' =>
    cases h
    exact ⟨first, rest, second, rest', format, read, Format.detect_eq_ok.1 detected, read', rfl⟩
  · rintro ⟨first, rest, second, rest', format, read, opens, read', rfl⟩
    obtain ⟨b, bs, rfl⟩ := List.exists_cons_of_ne_nil opens.ne_nil
    simp only [read, Format.detect_eq_ok.2 opens, read']

/-- A pass opens with a header in front, and has taken nothing. -/
theorem opens_of_begin (h : Pass.begin capacity source = .ok start) :
    start.format.Opens (start.delivered capacity) ∧ start.headerDue = start.format.hasFileHeader ∧
      start.tally = {} ∧ start.consumed = 0 := by
  have seen := start.window_prefix capacity
  obtain ⟨first, _, second, _, format, _, opens, _, rfl⟩ := begin_eq_ok.1 h
  obtain ⟨more, delivered⟩ := (List.prefix_append first second).trans seen
  refine ⟨?_, rfl, rfl, rfl⟩
  rw [← delivered]
  exact opens.append more

theorem settled_of_begin (h : Pass.begin capacity source = .ok start) : start.Settled capacity := by
  obtain ⟨first, rest, second, rest', format, read, opens, read', rfl⟩ := begin_eq_ok.1 h
  refine ⟨?_, fun due => ?_, fun ended => (by cases ended)⟩
  · have := ByteSource.read?_room read
    have := ByteSource.read?_room read'
    simp only [List.length_append]
    omega
  · cases opens with
    | records _ header =>
      simp only [List.length_append]
      omega
    | sections => cases due

/-- What is in the window and what is still to be read make up the source. -/
theorem bytes_of_begin (h : Pass.begin capacity source = .ok start) :
    start.window ++ start.source.bytes = source.bytes := by
  obtain ⟨first, rest, second, rest', format, read, opens, read', rfl⟩ := begin_eq_ok.1 h
  rw [← ByteSource.read?_bytes read, ← ByteSource.read?_bytes read', List.append_assoc]

theorem steady_of_begin (steady : .fail ∉ source.schedule) (h : Pass.begin capacity source = .ok start) :
    .fail ∉ start.source.schedule := by
  obtain ⟨first, rest, second, rest', format, read, opens, read', rfl⟩ := begin_eq_ok.1 h
  simp only [ByteSource.read?_schedule read', ByteSource.read?_schedule read]
  exact fun fail => steady (List.mem_of_mem_tail (List.mem_of_mem_tail fail))

/-- **The outlook of an opened pass is the walk of all that is delivered to it.** -/
theorem walk_delivered (h : Pass.begin capacity source = .ok start) :
    walk (start.delivered capacity) = start.outlook capacity := by
  obtain ⟨opens, due, tally, consumed⟩ := opens_of_begin h
  rw [walk_of_opens opens]
  by_cases header : start.format.hasFileHeader = true
  · rw [if_pos header, outlook_of_due (due.trans header), ahead_of_due (due.trans header), tally,
      consumed, Nat.zero_add]
  · rw [if_neg header]
    rw [Bool.not_eq_true] at header
    rw [outlook_of_taken (due.trans header), ahead_of_taken (due.trans header), tally, consumed]

/-- What is delivered to a later pass is the rest of what is delivered to an earlier one. -/
theorem Reaches.delivered {pass next : Pass} (settled : pass.Settled capacity)
    (h : pass.Reaches capacity next) : pass.consumed ≤ next.consumed ∧
      next.delivered capacity = (pass.delivered capacity).drop (next.consumed - pass.consumed) := by
  induction h with
  | refl => exact ⟨le_rfl, by rw [Nat.sub_self, List.drop_zero]⟩
  | @tail now next reached turn ih =>
    have settled' := (Reaches.settled settled reached).1
    have taken := settled'.taken_le turn
    refine ⟨ih.1.trans taken.1, ?_⟩
    rw [settled'.delivered_turn turn, ih.2, List.drop_drop]
    congr 1
    omega

end Pass

namespace ByteSource

/-- The bytes that a source delivers to a pass up to the first read that
brings nothing behind the opening, or all of them if there is no such read. -/
def delivered (source : ByteSource) (capacity : Nat) : List UInt8 :=
  match Pass.begin capacity source with
  | .ok start => start.delivered capacity
  | .error _ => source.bytes

/-- Wherever a run looks for a block, the end included, no part of the bytes
ahead is incomplete for want of so many bytes that the buffer could not hold
them with one to spare. -/
def Ample (source : ByteSource) (capacity : Nat) : Prop :=
  ∀ start now, Pass.begin capacity source = .ok start → start.Reaches capacity now →
    now.headerDue = false → ∀ a missing, a ≤ ((source.delivered capacity).drop now.consumed).length →
      now.format.parse (((source.delivered capacity).drop now.consumed).take a) =
        .error (.incomplete missing) → a + missing < capacity

variable {capacity : Nat} {source : ByteSource} {start : Pass}

theorem delivered_of_begin (h : Pass.begin capacity source = .ok start) :
    source.delivered capacity = start.delivered capacity := by
  rw [delivered, h]

/-- What a source delivers is the front of what it has. -/
theorem delivered_prefix (source : ByteSource) (capacity : Nat) :
    source.delivered capacity <+: source.bytes := by
  cases h : Pass.begin capacity source with
  | ok start =>
    rw [delivered_of_begin h, ← Pass.bytes_of_begin h]
    exact start.delivered_prefix capacity
  | error fault =>
    rw [delivered, h]

/-- The rest of what a source delivers is what is delivered to the pass that is reached. -/
theorem delivered_of_reaches {now : Pass} (h : Pass.begin capacity source = .ok start)
    (reached : start.Reaches capacity now) :
    (source.delivered capacity).drop now.consumed = now.delivered capacity := by
  have rest := reached.delivered (Pass.settled_of_begin h)
  rw [(Pass.opens_of_begin h).2.2.2, Nat.sub_zero] at rest
  rw [delivered_of_begin h, rest.2]

/-- A buffer is ample if the walk of all that is ahead fits into less. -/
theorem ample_of_fits {bound : Nat} (h : Pass.begin capacity source = .ok start)
    (fits : start.format.Fits bound (start.ahead capacity)) (room : bound < capacity) :
    source.Ample capacity := by
  intro start' now h' reached due a missing there short
  rw [h] at h'
  cases h'
  rw [delivered_of_reaches h reached] at there short
  have kept : now.Settled capacity ∧ now.format.Fits bound (now.ahead capacity) :=
    reached.keeps (motive := fun now => now.Settled capacity ∧ now.format.Fits bound (now.ahead capacity))
      (fun _ _ kept turn => ⟨kept.1.turn turn, kept.1.fits_turn turn kept.2⟩)
      ⟨Pass.settled_of_begin h, fits⟩
  rw [Pass.ahead_of_taken due] at kept
  calc a + missing ≤ bound := kept.2.le_of_take there short
    _ < capacity := room

/-- A steady source whose first read shows a header is opened. -/
theorem begin_of_opens {first : List UInt8} {rest : ByteSource} {format : Format}
    (steady : .fail ∉ source.schedule) (read : source.read? capacity = some (first, rest))
    (opens : format.Opens first) : ∃ start, Pass.begin capacity source = .ok start := by
  cases read' : rest.read? (capacity - first.length) with
  | none =>
    have fail := fail_mem_of_read? read'
    rw [read?_schedule read] at fail
    exact absurd (List.mem_of_mem_tail fail) steady
  | some more => exact ⟨_, Pass.begin_eq_ok.2 ⟨_, _, _, _, _, read, opens, read', rfl⟩⟩

/-- **A pass through an ample buffer sees what a walk of the delivered bytes
finds**, up to the bytes that a fault quotes. -/
theorem pass_abridges (steady : .fail ∉ source.schedule) (h : Pass.begin capacity source = .ok start)
    (ample : source.Ample capacity) :
    (Verdict.ofExcept (source.pass capacity)).Abridges
      (.ofExcept (walk (source.delivered capacity))) := by
  have run : source.pass capacity = start.run capacity := by
    rw [pass, h]
    rfl
  rw [run, delivered_of_begin h, Pass.walk_delivered h]
  refine Pass.run_abridges (Pass.settled_of_begin h) (Pass.steady_of_begin steady h)
    fun now reached due missing short => ?_
  -- the window is a part of what is ahead, so an ample buffer has room for it
  have seen := now.window_prefix capacity
  rw [← delivered_of_reaches h reached] at seen
  refine ample start now h reached due now.window.length missing seen.length_le ?_
  rw [← List.prefix_iff_eq_take.1 seen]
  exact short

end ByteSource
end CapturePace
