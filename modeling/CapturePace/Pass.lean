/-
# One pass over a capture through a window

A pass holds a window of at most `capacity` bytes onto a byte source. Each
turn (`Pass.turn`) takes the block at the front of the window, or, when the
block is not complete, moves the window on (`Pass.readMore?`); it ends when the
source has ended, or with what is wrong. `Pass.run` takes turns until then,
and `ByteSource.tally` opens a source (`Pass.begin`) and runs the pass.

The window sits in a buffer of the same capacity, `position` bytes behind its
start. The position tells only at the very end of a pass, and returns to the
start once it is past the middle of the buffer. The buffer is made before
anything is read, and there is a limit to its length (`bufferLimit`).

Every turn makes progress: taking a block leaves the window shorter, and
reading more leaves less in the source or finds its end (`Pass.work_turn`).

Key definitions: `Pass`, `Pass.begin`, `Pass.turn`, `Pass.run`, `ByteSource.tally`.
Key theorems: `Pass.work_turn`, `ByteSource.tally_of_le`, `ByteSource.tally_of_lt`.
-/
import CapturePace.Format
import CapturePace.ByteSource
import CapturePace.Verdict

namespace CapturePace

/-- A pass in progress. -/
structure Pass where
  /-- How the block in front is written. -/
  format : Format
  /-- The header of a file of records has not been taken yet. -/
  headerDue : Bool
  /-- The bytes read and not taken yet. -/
  window : List UInt8
  /-- Where the window starts in the buffer. -/
  position : Nat := 0
  /-- The latest attempt to read more gave nothing. -/
  exhausted : Bool := false
  /-- The bytes of the blocks taken. -/
  consumed : Nat := 0
  tally : Tally := {}
  source : ByteSource

/-- What a turn leads to. -/
inductive Turn where
  | more (pass : Pass)
  | over (result : Except CaptureFault Tally)

namespace Pass

/-- Opens a pass: a first read has to show what the capture is, and a second
one fills the room it left. -/
def begin (capacity : Nat) (source : ByteSource) : Except CaptureFault Pass :=
  match source.read? capacity with
  | none => .error (.malformed .readFailed)
  | some ([], _) => .error .empty
  | some (first, rest) =>
    match Format.detect first with
    | .error fault => .error fault
    | .ok format =>
      match rest.read? (capacity - first.length) with
      | none => .error (.malformed .readFailed)
      | some (second, rest) =>
        .ok {
          format := format
          headerDue := format.hasFileHeader
          window := first ++ second
          source := rest }

/-- Takes a block off the window. -/
def take (capacity : Nat) (pass : Pass) (found : Found) : Pass :=
  let position := pass.position + found.size
  { pass with
    format := pass.format.after found.block
    window := pass.window.drop found.size
    position := if capacity / 2 < position then 0 else position
    consumed := pass.consumed + found.size
    tally := pass.tally.count found.block }

/-- Moves the window to the start of the buffer and reads into the room behind it. -/
def readMore? (capacity : Nat) (pass : Pass) : Option Pass :=
  match pass.source.read? (capacity - pass.window.length) with
  | none => none
  | some (got, rest) =>
    some { pass with
      window := pass.window ++ got
      position := 0
      exhausted := got.isEmpty
      source := rest }

/-- The turn of a pass whose window lacks `missing` bytes to a block. A source
that has ended does not give them; otherwise they have to fit into the buffer
with a byte to spare, and more is read. A read that brings nothing although the
source goes on would change nothing, and ends the pass. -/
def extend (capacity : Nat) (pass : Pass) (missing : Nat) : Turn :=
  if pass.exhausted then .over (.error (.truncated pass.consumed))
  else if capacity ≤ pass.window.length + missing then .over (.error (.malformed .windowTooSmall))
  else match pass.readMore? capacity with
    | none => .over (.error (.malformed .readFailed))
    | some next =>
      if next.window.length = pass.window.length ∧ next.exhausted = false then
        .over (.error (.malformed .windowTooSmall))
      else .more next

/-- One turn: the header that is due, the end, the block in front, or more bytes. -/
def turn (capacity : Nat) (pass : Pass) : Turn :=
  if pass.headerDue then
    .more { pass.take capacity ⟨fileHeaderSize, .fileHeader⟩ with headerDue := false }
  else if pass.window = [] ∧ pass.position = 0 ∧ pass.exhausted then .over (.ok pass.tally)
  else match pass.format.parse pass.window with
    | .ok found => .more (pass.take capacity found)
    | .error (.incomplete missing) => pass.extend capacity missing
    | .error fault => .over (.error (.malformed fault))

/-- The work left, in parts that every turn uses some of: bytes count twice
until they are taken and once more until they are read. -/
def work (pass : Pass) : Nat :=
  2 * pass.window.length + 3 * pass.source.bytes.length + pass.headerDue.toNat +
    (!pass.exhausted).toNat

theorem work_readMore? {capacity : Nat} {pass next : Pass} (going : pass.exhausted = false)
    (h : pass.readMore? capacity = some next) : next.work < pass.work := by
  unfold readMore? at h
  split at h
  · cases h
  · next got rest read =>
    cases h
    have bytes := congrArg List.length (ByteSource.read?_bytes read)
    rw [List.length_append] at bytes
    cases got with
    | nil => simp [work, going, ← bytes]
    | cons b got =>
      simp only [List.length_cons] at bytes
      simp only [work, going, List.length_append, List.length_cons, List.isEmpty_cons]
      omega

theorem work_extend {capacity missing : Nat} {pass next : Pass}
    (h : pass.extend capacity missing = .more next) : next.work < pass.work := by
  unfold extend at h
  split at h
  · cases h
  next going =>
  split at h
  · cases h
  split at h
  · cases h
  next more =>
  split at h
  · cases h
  · cases h
    exact work_readMore? (by simpa using going) more

/-- A turn that does not end the pass leaves less work. -/
theorem work_turn {capacity : Nat} {pass next : Pass} (h : pass.turn capacity = .more next) :
    next.work < pass.work := by
  unfold turn at h
  split at h
  · next due =>
    cases h
    simp only [work, take, List.length_drop, due, Bool.toNat_false, Bool.toNat_true]
    omega
  split at h
  · cases h
  split at h
  · next found parsed =>
    cases h
    have fits := Format.parse_fits parsed
    simp only [work, take, List.length_drop]
    omega
  · exact work_extend h
  · cases h

/-- Takes turns until the pass is over. -/
def run (capacity : Nat) (pass : Pass) : Except CaptureFault Tally :=
  match _h : pass.turn capacity with
  | .more next => next.run capacity
  | .over result => result
  termination_by pass.work
  decreasing_by exact work_turn _h

end Pass

/-- The length of the longest buffer: a length is a number of 63 bits. -/
def bufferLimit : Nat := 9223372036854775807

namespace ByteSource

/-- One pass over what a source gives, once there is a buffer for it. -/
def pass (source : ByteSource) (capacity : Nat) : Except CaptureFault Tally := do
  let pass ← Pass.begin capacity source
  pass.run capacity

/-- The counters of the capture that a source gives, seen through a window of
at most `capacity` bytes. -/
def tally (source : ByteSource) (capacity : Nat) : Verdict Tally :=
  if capacity ≤ bufferLimit then .ofExcept (source.pass capacity) else .overflowed .capacity

/-- With a buffer of a possible length the verdict is that of the pass. -/
theorem tally_of_le {source : ByteSource} {capacity : Nat} (h : capacity ≤ bufferLimit) :
    source.tally capacity = .ofExcept (source.pass capacity) := if_pos h

/-- With a longer one nothing is read at all. -/
theorem tally_of_lt {source : ByteSource} {capacity : Nat} (h : bufferLimit < capacity) :
    source.tally capacity = .overflowed .capacity := if_neg (Nat.not_le.2 h)

end ByteSource

/-- The counters of a capture held in memory, seen through a window of at most
`capacity` bytes. -/
def tallyOf (bs : List UInt8) (capacity : Nat) : Verdict Tally :=
  ByteSource.tally ⟨bs, []⟩ capacity

end CapturePace
