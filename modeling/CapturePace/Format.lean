/-
# The two formats of a capture

A capture is a file of records or a sequence of sections. The bytes in front
decide which (`Format.detect`): a complete section header opens sections, and
otherwise the header of a file of records is looked for. From then on the
format says how the next block is read, and a section header changes it
(`Format.after`).

Reading block after block from left to right is `Format.walk`, and `walk` is
that for a whole capture: what a capture holds, whatever the window through
which it is seen.

Key definitions: `Format`, `Format.detect`, `Format.parse`, `Format.walk`, `walk`.
Key theorem: `Format.parse_fits`.
-/
import CapturePace.Block.RecordLayout
import CapturePace.Block.SectionBlock

namespace CapturePace

/-- How the blocks of a capture are written from here on. -/
inductive Format where
  | records (layout : RecordLayout)
  | sections (order : ByteOrder)
  deriving DecidableEq, Repr

namespace Format

/-- The format that the bytes in front announce. A section header that is not
complete announces nothing. -/
def detect (bs : List UInt8) : Except CaptureFault Format :=
  match SectionBlock.parse .little bs with
  | .ok ⟨_, .sectionHeader _⟩ => .ok (.sections .little)
  | _ =>
    if 0 < shortfall 4 bs then .error (.truncated 0)
    else match RecordLayout.ofMagic? bs with
      | none => .error (.malformed .unknownHeader)
      | some layout =>
        if 0 < shortfall fileHeaderSize bs then .error (.truncated 0)
        else .ok (.records layout)

/-- Whether the capture starts with a header that is a block of its own, in
front of those that `parse` reads. -/
def hasFileHeader : Format → Bool
  | .records _ => true
  | .sections _ => false

/-- The block in front. -/
def parse : Format → List UInt8 → Except ReadFault Found
  | .records layout, bs => layout.parse bs
  | .sections order, bs => SectionBlock.parse order bs

/-- The format of what follows a block. -/
def after : Format → Block → Format
  | .sections _, .sectionHeader order => .sections order
  | format, _ => format

/-- A block has at least twelve bytes and lies within the bytes it was found in. -/
theorem parse_fits {format : Format} {bs : List UInt8} {found : Found}
    (h : format.parse bs = .ok found) : 12 ≤ found.size ∧ found.size ≤ bs.length := by
  cases format with
  | records layout =>
    have fits := RecordLayout.parse_fits h
    have header := layout.sixteen_le_headerSize
    omega
  | sections order => exact SectionBlock.parse_fits h

/-- Reads block after block until the bytes are used up, adding to the
counters `tally` of the `consumed` bytes before them. -/
def walk (format : Format) (bs : List UInt8) (tally : Tally) (consumed : Nat) :
    Except CaptureFault Tally :=
  if bs = [] then .ok tally
  else match _h : format.parse bs with
    | .ok found =>
      (format.after found.block).walk (bs.drop found.size) (tally.count found.block)
        (consumed + found.size)
    | .error (.incomplete _) => .error (.truncated consumed)
    | .error fault => .error (.malformed fault)
  termination_by bs.length
  decreasing_by
    have := parse_fits _h
    rw [List.length_drop]
    omega

end Format

/-- The counters of a whole capture, or what is wrong with it. -/
def walk (bs : List UInt8) : Except CaptureFault Tally :=
  if bs = [] then .error .empty
  else do
    let format ← Format.detect bs
    if format.hasFileHeader then
      format.walk (bs.drop fileHeaderSize) (Tally.count {} .fileHeader) fileHeaderSize
    else format.walk bs {} 0

end CapturePace
