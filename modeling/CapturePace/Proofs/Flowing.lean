/-
# Sources that flow

A read that brings nothing is how a source says that it has ended, whether it
has or not. A source flows if none of its reads fails or brings nothing while
there is something to bring (`ByteSource.Flows`): however its bytes are cut
into pieces, no piece is empty. A pass over such a source has seen its end only
when nothing is left to read (`Pass.Flowing`), a turn keeps this, and so all of
its bytes are delivered (`Pass.Flowing.delivered`). A source without a schedule
flows, whatever it holds.

Key definitions: `ByteSource.Flows`, `Pass.Flowing`.
Key theorems: `ByteSource.Flows.exists_read`, `Pass.Flowing.turn`,
`Pass.Flowing.delivered`.
-/
import CapturePace.Proofs.Opening

namespace CapturePace

/-- The step brings something wherever there are bytes and room for them. -/
def ReadStep.brings : ReadStep → Bool
  | .upTo limit => 0 < limit
  | .fail => false

namespace ByteSource

/-- No read fails, and none brings nothing before the source has ended. -/
def Flows (source : ByteSource) : Prop := ∀ step ∈ source.schedule, step.brings = true

instance (source : ByteSource) : Decidable source.Flows :=
  inferInstanceAs (Decidable (∀ step ∈ source.schedule, step.brings = true))

theorem flows_of_nil {source : ByteSource} (h : source.schedule = []) : source.Flows := by
  intro step mem
  rw [h] at mem
  exact absurd mem List.not_mem_nil

namespace Flows

variable {source rest : ByteSource} {room : Nat} {got : List UInt8}

theorem steady (flows : source.Flows) : .fail ∉ source.schedule := by
  intro mem
  have brings := flows .fail mem
  cases brings

/-- Behind a read, a source flows on. -/
theorem of_read (flows : source.Flows) (h : source.read? room = some (got, rest)) : rest.Flows := by
  intro step mem
  rw [read?_schedule h] at mem
  exact flows step (List.mem_of_mem_tail mem)

/-- **A read brings the first bytes there are**, and at least one if there is room. -/
theorem exists_read (flows : source.Flows) (room : Nat) : ∃ n rest,
    source.read? room = some (source.bytes.take n, rest) ∧ rest.bytes = source.bytes.drop n ∧
      n ≤ room ∧ (0 < room → 0 < n) := by
  cases steps : source.schedule with
  | nil => exact ⟨room, _, read?_of_nil steps room, rfl, le_rfl, id⟩
  | cons step schedule =>
    have brings : step.brings = true := flows step (by rw [steps]; exact List.mem_cons_self)
    cases step with
    | upTo limit =>
      have pos : 0 < limit := of_decide_eq_true brings
      refine ⟨min limit room, ⟨source.bytes.drop (min limit room), schedule⟩, ?_, rfl,
        min_le_right _ _, fun there => lt_min pos there⟩
      rw [read?, steps]
    | fail => cases brings

/-- Where there is room, a read brings nothing only at the end. -/
theorem ended (flows : source.Flows) (there : 0 < room) (h : source.read? room = some ([], rest)) :
    rest.bytes = [] := by
  obtain ⟨n, rest', read, left, -, pos⟩ := flows.exists_read room
  rw [h] at read
  obtain ⟨nothing, rfl⟩ := Prod.ext_iff.1 (Option.some.inj read)
  rcases List.take_eq_nil_iff.1 nothing.symm with zero | empty
  · exact absurd zero (pos there).ne'
  · rw [left, empty, List.drop_nil]

end Flows
end ByteSource

namespace Pass

variable {capacity : Nat} {source : ByteSource} {pass next start : Pass}

/-- The source flows, and has been seen to end only when nothing is left. -/
structure Flowing (pass : Pass) : Prop where
  flows : pass.source.Flows
  ended : pass.exhausted = true → pass.source.bytes = []

/-- **A turn keeps a pass flowing.** More is read only where there is room. -/
theorem Flowing.turn (flowing : pass.Flowing) (h : pass.turn capacity = .more next) : next.Flowing := by
  have rule := rule_of_turn h
  cases rule with
  | header | block => exact ⟨flowing.flows, flowing.ended⟩
  | @read missing got rest _ _ _ room read =>
    refine ⟨flowing.flows.of_read read, fun ended => ?_⟩
    obtain rfl : got = [] := List.isEmpty_iff.1 ended
    exact flowing.flows.ended (by omega) read

/-- **All bytes of a source that flows are delivered.** -/
theorem Flowing.delivered (flowing : pass.Flowing) :
    pass.delivered capacity = pass.window ++ pass.source.bytes := by
  fun_induction Pass.delivered capacity pass with
  | case1 pass next h ih =>
    rw [bytes_turn h, ih (flowing.turn h)]
  | case2 pass _ _ ended => rw [flowing.ended ended, List.append_nil]
  | case3 => rfl

theorem flowing_of_begin (flows : source.Flows) (h : Pass.begin capacity source = .ok start) :
    start.Flowing := by
  obtain ⟨first, rest, second, rest', format, read, opens, read', rfl⟩ := begin_eq_ok.1 h
  exact ⟨(flows.of_read read).of_read read', fun ended => by cases ended⟩

theorem delivered_of_flows (flows : source.Flows) (h : Pass.begin capacity source = .ok start) :
    start.delivered capacity = source.bytes := by
  rw [(flowing_of_begin flows h).delivered, bytes_of_begin h]

end Pass
end CapturePace
