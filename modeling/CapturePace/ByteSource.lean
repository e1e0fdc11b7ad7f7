/-
# Where the bytes of a capture come from

A byte source holds the bytes not read yet and a schedule of its next reads:
each may be cut short or fail. When the schedule is used up, every read gives
as much as there is room for. A read that gives nothing is how a source says
that it has ended, whether it has or not.

Key definitions: `ByteSource`, `ByteSource.read?`.
Key theorem: `ByteSource.read?_bytes`.
-/
namespace CapturePace

/-- What the next read of a source will do. -/
inductive ReadStep where
  /-- It gives at most `limit` bytes. -/
  | upTo (limit : Nat)
  /-- It fails and uses nothing up. -/
  | fail
  deriving DecidableEq, Repr

/-- The bytes still to be read, and the schedule of the next reads. -/
structure ByteSource where
  bytes : List UInt8
  schedule : List ReadStep := []
  deriving Repr

namespace ByteSource

/-- Reads into `room` bytes: what was read, and the source after it. -/
def read? (source : ByteSource) (room : Nat) : Option (List UInt8 × ByteSource) :=
  match source.schedule with
  | [] => some (source.bytes.take room, ⟨source.bytes.drop room, []⟩)
  | .upTo limit :: schedule =>
    some (source.bytes.take (min limit room), ⟨source.bytes.drop (min limit room), schedule⟩)
  | .fail :: _ => none

/-- A read takes bytes from the front of the source and loses none. -/
theorem read?_bytes {source rest : ByteSource} {room : Nat} {got : List UInt8}
    (h : source.read? room = some (got, rest)) : got ++ rest.bytes = source.bytes := by
  unfold read? at h
  split at h
  · cases h
    exact List.take_append_drop ..
  · cases h
    exact List.take_append_drop ..
  · cases h

/-- A read gives no more than there is room for. -/
theorem read?_room {source rest : ByteSource} {room : Nat} {got : List UInt8}
    (h : source.read? room = some (got, rest)) : got.length ≤ room := by
  unfold read? at h
  split at h
  · cases h
    simp only [List.length_take]
    omega
  · cases h
    simp only [List.length_take]
    omega
  · cases h

/-- Without a schedule, a read gives as much as there is room for. -/
theorem read?_of_nil {source : ByteSource} (h : source.schedule = []) (room : Nat) :
    source.read? room = some (source.bytes.take room, ⟨source.bytes.drop room, []⟩) := by
  unfold read?
  rw [h]

/-- A read uses up one step of the schedule. -/
theorem read?_schedule {source rest : ByteSource} {room : Nat} {got : List UInt8}
    (h : source.read? room = some (got, rest)) : rest.schedule = source.schedule.tail := by
  unfold read? at h
  split at h
  · next none => cases h; rw [none]; rfl
  · next some => cases h; rw [some]; rfl
  · cases h

/-- Only a step that fails makes a read fail. -/
theorem fail_mem_of_read? {source : ByteSource} {room : Nat} (h : source.read? room = none) :
    .fail ∈ source.schedule := by
  unfold read? at h
  split at h
  · cases h
  · cases h
  · next fail =>
    rw [fail]
    exact List.mem_cons_self

end ByteSource
end CapturePace
