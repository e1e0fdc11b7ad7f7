/-
# Blocks, and what is counted of them

A capture is a sequence of blocks. Some carry a packet, of which a number of
bytes is stored (`Block.packet?`); the others describe the capture. `Tally`
counts the blocks, the packets and the stored bytes of a walk.

Key definitions: `Block`, `Block.packet?`, `Tally`, `Tally.count`.
-/
import CapturePace.Bytes

namespace CapturePace

/-- A block, as far as a walk looks into it. -/
inductive Block where
  /-- The header of a file of records. -/
  | fileHeader
  /-- A record, with the number of bytes captured. -/
  | record (captured : Nat)
  /-- The header of a section, which sets the byte order of its blocks. -/
  | sectionHeader (order : ByteOrder)
  /-- A packet that says how many of its bytes were captured. -/
  | enhancedPacket (captured : Nat)
  /-- A packet that says how long it was on the wire, and the bytes stored for it, padding included. -/
  | simplePacket (wire stored : Nat)
  /-- A block without a packet. -/
  | description
  deriving DecidableEq, Repr

/-- The packet bytes that a block stores, if it carries a packet. The stored
bytes of a simple packet may end in padding, which its length on the wire
leaves out. -/
def Block.packet? : Block → Option Nat
  | .record captured => some captured
  | .enhancedPacket captured => some captured
  | .simplePacket wire stored => some (min wire stored)
  | .fileHeader => none
  | .sectionHeader _ => none
  | .description => none

/-- A block found at the front of some bytes, and how many of them it takes. -/
structure Found where
  size : Nat
  block : Block
  deriving DecidableEq, Repr

/-- The counters of a walk. -/
structure Tally where
  /-- Blocks of any kind, headers included. -/
  blocks : Nat := 0
  /-- Blocks that carry a packet. -/
  packets : Nat := 0
  /-- Packet bytes stored in the capture. -/
  captured : Nat := 0
  deriving DecidableEq, Repr

/-- The counters after one more block. -/
def Tally.count (tally : Tally) (block : Block) : Tally :=
  match block.packet? with
  | some bytes => ⟨tally.blocks + 1, tally.packets + 1, tally.captured + bytes⟩
  | none => ⟨tally.blocks + 1, tally.packets, tally.captured⟩

end CapturePace
