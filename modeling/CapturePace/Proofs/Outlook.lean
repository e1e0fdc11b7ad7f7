/-
# What a pass has before it does not depend on its window

`Pass.delivered` are the bytes that a pass still gets to see, from the front of
its window on: what its reads bring until one of them brings nothing, and all
that there is if none does. The outlook of a pass is what a walk without a
window makes of these bytes (`Pass.outlook`). Taking a block and reading more
both leave the outlook as it is (`Pass.Settled.outlook_turn`), so the last
turn of a run meets the same outlook as the first. The three endings that do
not come from the buffer or from a failed read then say what the outlook says.

`Pass.Settled` is what every turn keeps: the window fits into the buffer, and a
pass has seen the end of its source only behind a block that is not complete.

Key definitions: `Pass.delivered`, `Pass.ahead`, `Pass.outlook`, `Pass.Settled`.
Key theorems: `Pass.delivered_prefix`, `Pass.Settled.turn`,
`Pass.Settled.outlook_turn`, `Pass.Settled.fits_turn`.
-/
import CapturePace.Proofs.Turns
import CapturePace.Proofs.Walk

namespace CapturePace

theorem Format.after_fileHeader (format : Format) : format.after .fileHeader = format := by
  cases format <;> rfl

namespace Pass

/-- The bytes that a pass gets to see from the front of its window on: those
that turns take off, and those that are left when it is over. A read that
brings nothing is the last one. If there is none, all bytes count. -/
def delivered (capacity : Nat) (pass : Pass) : List UInt8 :=
  match _h : pass.turn capacity with
  | .more next => pass.window.take (next.consumed - pass.consumed) ++ next.delivered capacity
  | .over _ => if pass.exhausted then pass.window else pass.window ++ pass.source.bytes
  termination_by pass.work
  decreasing_by exact work_turn _h

/-- The bytes ahead in which blocks are looked for. -/
def ahead (capacity : Nat) (pass : Pass) : List UInt8 :=
  (pass.delivered capacity).drop (if pass.headerDue then fileHeaderSize else 0)

/-- What a walk without a window makes of the bytes ahead. -/
def outlook (capacity : Nat) (pass : Pass) : Except CaptureFault Tally :=
  if pass.headerDue then
    pass.format.walk (pass.ahead capacity) (pass.tally.count .fileHeader)
      (pass.consumed + fileHeaderSize)
  else pass.format.walk (pass.ahead capacity) pass.tally pass.consumed

/-- What every turn keeps. -/
structure Settled (capacity : Nat) (pass : Pass) : Prop where
  /-- The window fits into the buffer. -/
  window_le : pass.window.length ≤ capacity
  /-- A header that is due is there. -/
  header : pass.headerDue = true → fileHeaderSize ≤ pass.window.length
  /-- The source has ended only behind a block that is not complete, and that
  could have been completed in the buffer. -/
  ended : pass.exhausted = true → pass.headerDue = false ∧ pass.position = 0 ∧
    ∃ missing, pass.format.parse pass.window = .error (.incomplete missing) ∧
      pass.window.length + missing < capacity

variable {capacity : Nat} {pass next : Pass}

/-! ### The bytes a pass gets to see -/

theorem delivered_of_more (h : pass.turn capacity = .more next) :
    pass.delivered capacity =
      pass.window.take (next.consumed - pass.consumed) ++ next.delivered capacity := by
  rw [delivered]
  split
  · next h' =>
    rw [h] at h'
    cases h'
    rfl
  · next h' => rw [h] at h'; cases h'

theorem delivered_of_over {result : Except CaptureFault Tally} (h : pass.turn capacity = .over result) :
    pass.delivered capacity = if pass.exhausted then pass.window else pass.window ++ pass.source.bytes := by
  rw [delivered]
  split
  · next h' => rw [h] at h'; cases h'
  · rfl

/-- A turn loses no bytes but those that it takes off. -/
theorem bytes_turn (h : pass.turn capacity = .more next) : pass.window ++ pass.source.bytes =
    pass.window.take (next.consumed - pass.consumed) ++ (next.window ++ next.source.bytes) := by
  have rule := rule_of_turn h
  cases rule with
  | header | block =>
    simp only [take, Nat.add_sub_cancel_left, ← List.append_assoc, List.take_append_drop]
  | read _ _ _ _ read =>
    have bytes := ByteSource.read?_bytes read
    simp only [Nat.sub_self, List.take_zero, List.nil_append, List.append_assoc, bytes]

/-- **What is delivered is the front of what there is.** -/
theorem delivered_prefix (capacity : Nat) (pass : Pass) :
    pass.delivered capacity <+: pass.window ++ pass.source.bytes := by
  fun_induction delivered capacity pass with
  | case1 pass next h ih =>
    rw [bytes_turn h]
    exact (List.prefix_append_right_inj _).2 ih
  | case2 => exact List.prefix_append _ _
  | case3 => exact List.prefix_refl _

/-- The window shows the front of what is delivered. -/
theorem window_prefix (capacity : Nat) (pass : Pass) : pass.window <+: pass.delivered capacity := by
  fun_induction delivered capacity pass with
  | case1 pass next h ih =>
    have taken : ∀ k, next.window = pass.window.drop k → next.consumed = pass.consumed + k →
        pass.window <+: pass.window.take (next.consumed - pass.consumed) ++ next.delivered capacity := by
      intro k window consumed
      rw [consumed, Nat.add_sub_cancel_left]
      rw [window] at ih
      nth_rewrite 1 [← List.take_append_drop k pass.window]
      exact (List.prefix_append_right_inj _).2 ih
    have rule := rule_of_turn h
    cases rule with
    | header => exact taken fileHeaderSize rfl rfl
    | @block found => exact taken found.size rfl rfl
    | @read _ got =>
      rw [Nat.sub_self, List.take_zero, List.nil_append]
      exact (List.prefix_append _ got).trans ih
  | case2 => exact List.prefix_refl _
  | case3 => exact List.prefix_append _ _

theorem ahead_of_due (due : pass.headerDue = true) :
    pass.ahead capacity = (pass.delivered capacity).drop fileHeaderSize := by
  rw [ahead, if_pos due]

theorem ahead_of_taken (due : pass.headerDue = false) :
    pass.ahead capacity = pass.delivered capacity := by
  rw [ahead, due]
  rfl

/-- Once no header is due, the window shows the front of what is ahead. -/
theorem window_prefix_ahead (capacity : Nat) (due : pass.headerDue = false) :
    pass.window <+: pass.ahead capacity := by
  rw [ahead_of_taken due]
  exact pass.window_prefix capacity

theorem outlook_of_due (due : pass.headerDue = true) :
    pass.outlook capacity = pass.format.walk (pass.ahead capacity) (pass.tally.count .fileHeader)
      (pass.consumed + fileHeaderSize) := by
  rw [outlook, if_pos due]

theorem outlook_of_taken (due : pass.headerDue = false) :
    pass.outlook capacity = pass.format.walk (pass.ahead capacity) pass.tally pass.consumed := by
  rw [outlook, due]
  rfl

/-! ### What every turn keeps -/

namespace Settled

/-- Before its header is taken, a pass has not seen the end of its source. -/
theorem going_of_due (settled : pass.Settled capacity) (due : pass.headerDue = true) :
    pass.exhausted = false := by
  by_contra ended
  obtain ⟨taken, -⟩ := settled.ended (by simpa using ended)
  rw [due] at taken
  simp at taken

/-- Nor has it while there is a block in front. -/
theorem going_of_parsed {found : Found} (settled : pass.Settled capacity)
    (parsed : pass.format.parse pass.window = .ok found) : pass.exhausted = false := by
  by_contra ended
  obtain ⟨-, -, missing, short, -⟩ := settled.ended (by simpa using ended)
  rw [parsed] at short
  simp at short

/-- Taking a block off keeps a pass settled, as long as the source goes on. -/
theorem take (settled : pass.Settled capacity) (going : pass.exhausted = false) (found : Found) :
    Settled capacity { pass.take capacity found with headerDue := false } := by
  refine ⟨?_, fun due => (by cases due), fun ended => ?_⟩
  · refine le_trans ?_ settled.window_le
    simp only [Pass.take, List.length_drop]
    omega
  · rw [show pass.exhausted = true from ended] at going
    simp at going

/-- **A turn keeps a pass settled.** -/
theorem turn (settled : pass.Settled capacity) (h : pass.turn capacity = .more next) :
    next.Settled capacity := by
  have rule := rule_of_turn h
  cases rule with
  | header due => exact settled.take (settled.going_of_due due) _
  | @block found due parsed =>
    have taken := settled.take (settled.going_of_parsed parsed) found
    rw [← due] at taken
    exact taken
  | @read missing got rest due parsed going room read =>
    refine ⟨?_, fun due' => ?_, fun ended => ⟨due, rfl, missing, ?_⟩⟩
    · have := ByteSource.read?_room read
      simp only [List.length_append]
      omega
    · rw [due] at due'
      simp at due'
    · have nothing : got = [] := List.isEmpty_iff.1 ended
      simp only [nothing, List.append_nil]
      exact ⟨parsed, room⟩

/-- A turn takes off no more than the window shows. -/
theorem taken_le (settled : pass.Settled capacity) (h : pass.turn capacity = .more next) :
    pass.consumed ≤ next.consumed ∧ next.consumed ≤ pass.consumed + pass.window.length := by
  have rule := rule_of_turn h
  cases rule with
  | header due =>
    have := settled.header due
    simp only [Pass.take]
    omega
  | block _ parsed =>
    have := (Format.parse_fits parsed).2
    simp only [Pass.take]
    omega
  | read => exact ⟨le_rfl, Nat.le_add_right _ _⟩

/-- What a turn takes off is the front of what is delivered. -/
theorem delivered_turn (settled : pass.Settled capacity) (h : pass.turn capacity = .more next) :
    next.delivered capacity = (pass.delivered capacity).drop (next.consumed - pass.consumed) := by
  have taken := settled.taken_le h
  rw [delivered_of_more h, List.drop_left' (List.length_take_of_le (by omega))]

/-! ### The outlook stays -/

/-- Taking the file header leaves the same bytes ahead. -/
theorem ahead_header (settled : pass.Settled capacity) (due : pass.headerDue = true)
    (h : pass.turn capacity = .more next) (due' : next.headerDue = false)
    (consumed : next.consumed = pass.consumed + fileHeaderSize) :
    next.ahead capacity = pass.ahead capacity := by
  rw [ahead_of_due due, ahead_of_taken due', settled.delivered_turn h, consumed,
    Nat.add_sub_cancel_left]

/-- The block in front of the window is in front of all that is ahead, and
what is behind it is ahead of the next pass. -/
theorem ahead_block {found : Found} (settled : pass.Settled capacity) (due : pass.headerDue = false)
    (parsed : pass.format.parse pass.window = .ok found)
    (h : pass.turn capacity = .more (pass.take capacity found)) :
    pass.format.parse (pass.ahead capacity) = .ok found ∧
      (pass.take capacity found).ahead capacity = (pass.ahead capacity).drop found.size := by
  constructor
  · obtain ⟨more, seen⟩ := window_prefix_ahead capacity due
    rw [← seen]
    exact Format.parse_append_of_ok more parsed
  · have due' : (pass.take capacity found).headerDue = false := due
    rw [ahead_of_taken due, ahead_of_taken due', settled.delivered_turn h]
    simp only [Pass.take, Nat.add_sub_cancel_left]

/-- Reading more leaves the same bytes ahead. -/
theorem ahead_read (settled : pass.Settled capacity) (h : pass.turn capacity = .more next)
    (due : pass.headerDue = false) (due' : next.headerDue = false)
    (consumed : next.consumed = pass.consumed) : next.ahead capacity = pass.ahead capacity := by
  rw [ahead_of_taken due, ahead_of_taken due', settled.delivered_turn h, consumed, Nat.sub_self,
    List.drop_zero]

/-- **A turn leaves the outlook as it is.** -/
theorem outlook_turn (settled : pass.Settled capacity) (h : pass.turn capacity = .more next) :
    next.outlook capacity = pass.outlook capacity := by
  have rule := rule_of_turn h
  cases rule with
  | header due =>
    rw [outlook_of_due due, outlook_of_taken rfl, settled.ahead_header due h rfl rfl]
    simp only [Pass.take, Format.after_fileHeader]
  | @block found due parsed =>
    obtain ⟨front, behind⟩ := settled.ahead_block due parsed h
    have due' : (pass.take capacity found).headerDue = false := due
    rw [outlook_of_taken due, outlook_of_taken due', behind, Format.walk_of_ok front]
    rfl
  | read due _ _ _ _ =>
    rw [outlook_of_taken due, outlook_of_taken (by exact due), settled.ahead_read h due due rfl]

/-- A turn leaves the bytes ahead as they are, or takes the block in front of them. -/
theorem ahead_turn (settled : pass.Settled capacity) (h : pass.turn capacity = .more next) :
    (next.format = pass.format ∧ next.ahead capacity = pass.ahead capacity) ∨
    ∃ found, pass.format.parse (pass.ahead capacity) = .ok found ∧ found.size ≤ capacity ∧
      next.format = pass.format.after found.block ∧
      next.ahead capacity = (pass.ahead capacity).drop found.size := by
  have rule := rule_of_turn h
  cases rule with
  | header due =>
    exact .inl ⟨Format.after_fileHeader _, settled.ahead_header due h rfl rfl⟩
  | @block found due parsed =>
    obtain ⟨front, behind⟩ := settled.ahead_block due parsed h
    exact .inr ⟨found, front, (Format.parse_fits parsed).2.trans settled.window_le, rfl, behind⟩
  | read due _ _ _ _ => exact .inl ⟨rfl, settled.ahead_read h due due rfl⟩

/-- A turn leaves the bytes ahead within their bound. -/
theorem fits_turn {bound : Nat} (settled : pass.Settled capacity)
    (h : pass.turn capacity = .more next) (fits : pass.format.Fits bound (pass.ahead capacity)) :
    next.format.Fits bound (next.ahead capacity) := by
  rcases settled.ahead_turn h with ⟨format, ahead⟩ | ⟨found, front, _, format, ahead⟩
  · rw [format, ahead]
    exact fits
  · rw [format, ahead]
    exact fits.behind front

end Settled

/-- Every pass that is reached is settled and has the same outlook. -/
theorem Reaches.settled (settled : pass.Settled capacity) (h : pass.Reaches capacity next) :
    next.Settled capacity ∧ next.outlook capacity = pass.outlook capacity := by
  refine h.keeps (motive := fun now => now.Settled capacity ∧ now.outlook capacity = pass.outlook capacity)
    (fun now next kept turn => ?_) ⟨settled, rfl⟩
  exact ⟨kept.1.turn turn, (kept.1.outlook_turn turn).trans kept.2⟩

/-! ### The outlook at the end

When a turn is over, its result is that of the outlook, unless the buffer is
too small or a read has failed. -/

theorem ahead_of_ended {result : Except CaptureFault Tally} (due : pass.headerDue = false)
    (h : pass.turn capacity = .over result) (ended : pass.exhausted = true) :
    pass.ahead capacity = pass.window := by
  rw [ahead_of_taken due, delivered_of_over h, if_pos ended]

theorem outlook_of_ok {tally : Tally} (h : pass.turn capacity = .over (.ok tally)) :
    pass.outlook capacity = .ok tally := by
  have rule := rule_of_turn h
  cases rule with
  | finished due empty _ ended =>
    rw [outlook_of_taken due, ahead_of_ended due h ended, empty, Format.walk_nil]

theorem outlook_of_truncated {consumed : Nat} (settled : pass.Settled capacity)
    (h : pass.turn capacity = .over (.error (.truncated consumed))) :
    pass.outlook capacity = .error (.truncated consumed) := by
  have rule := rule_of_turn h
  cases rule with
  | truncated due parsed ended left =>
    obtain ⟨-, start, -⟩ := settled.ended ended
    have there : pass.window ≠ [] := fun empty => left ⟨empty, start⟩
    rw [outlook_of_taken due, ahead_of_ended due h ended, Format.walk_of_incomplete there parsed]

theorem outlook_of_refused (capacity : Nat) {fault : ReadFault} (due : pass.headerDue = false)
    (refusal : fault.IsRefusal) (parsed : pass.format.parse pass.window = .error fault) :
    ∃ whole, pass.outlook capacity = .error (.malformed whole) ∧ fault.Abridges whole := by
  obtain ⟨more, seen⟩ := window_prefix_ahead capacity due
  obtain ⟨whole, front, refusal', same⟩ := Format.parse_append_of_refused more refusal parsed
  rw [seen] at front
  refine ⟨whole, ?_, same⟩
  rw [outlook_of_taken due, Format.walk_of_refused refusal' front]

/-- Reads of a source whose schedule has no failure leave none in it. -/
theorem Reaches.steady (steady : .fail ∉ pass.source.schedule) (h : pass.Reaches capacity next) :
    .fail ∉ next.source.schedule := by
  refine h.keeps (motive := fun now => .fail ∉ now.source.schedule) (fun now next kept turn => ?_) steady
  have rule := rule_of_turn turn
  cases rule with
  | header | block => exact kept
  | read _ _ _ _ read =>
    simp only [ByteSource.read?_schedule read]
    exact fun fail => kept (List.mem_of_mem_tail fail)

/-- **A run meets the outlook it started with**, up to the bytes that a fault
quotes, if its reads go well and every pass it goes through has room. -/
theorem run_abridges (settled : pass.Settled capacity) (steady : .fail ∉ pass.source.schedule)
    (room : ∀ now, pass.Reaches capacity now → now.headerDue = false → ∀ missing,
      now.format.parse now.window = .error (.incomplete missing) →
      now.window.length + missing < capacity) :
    (Verdict.ofExcept (pass.run capacity)).Abridges (.ofExcept (pass.outlook capacity)) := by
  obtain ⟨last, reached, ends⟩ := run_reaches capacity pass
  obtain ⟨settled', same⟩ := reached.settled settled
  rw [← same]
  generalize pass.run capacity = result at ends ⊢
  have rule := rule_of_turn ends
  cases rule with
  | finished =>
    rw [outlook_of_ok ends]
    exact .refl _
  | truncated =>
    rw [outlook_of_truncated settled' ends]
    exact .refl _
  | tooSmall due parsed _ full => exact absurd (room last reached due _ parsed) (Nat.not_lt.2 full)
  | readFailed _ _ _ _ failed =>
    exact absurd (ByteSource.fail_mem_of_read? failed) (reached.steady steady)
  | refused due refusal parsed =>
    obtain ⟨whole, outlook, same⟩ := outlook_of_refused capacity due refusal parsed
    rw [outlook]
    exact same

end Pass
end CapturePace
