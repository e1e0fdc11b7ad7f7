/-
# Blocks of sections

The newer kind of capture is a sequence of sections. Every block of it has
one frame: a type, its length, a body, and the length once more. A section
header sets the byte order in which it and the blocks after it are written.
`SectionBlock.parse` reads the block in front: it finds the kind
(`SectionBlock.Kind`), cuts out the frame (`SectionBlock.frame`) and reads the
body by its kind (`SectionBlock.Kind.read`); most kinds then compare the two
lengths.

A body is read like any other bytes: what it lacks is `ReadFault.incomplete`,
also when the bytes after the block are there.

Key definitions: `SectionBlock.Kind`, `SectionBlock.Frame`, `SectionBlock.frame`,
`SectionBlock.Kind.read`, `SectionBlock.parse`.
Key theorem: `SectionBlock.parse_fits`.
-/
import CapturePace.Block

namespace CapturePace
namespace SectionBlock

/-- The first number of a section header; it reads the same in both byte orders. -/
def headerCode : Nat := 0x0A0D0D0A

/-- The kinds of block. -/
inductive Kind where
  | sectionHeader
  | interface
  | simplePacket
  | names
  | statistics
  | enhancedPacket
  | secrets
  | custom
  | process
  /-- A kind whose body is not looked into. -/
  | uninterpreted
  deriving DecidableEq, Repr

namespace Kind

/-- The kind with a given type number. -/
def ofCode (code : Nat) : Kind :=
  if code = headerCode then .sectionHeader
  else if code = 1 then .interface
  else if code = 3 then .simplePacket
  else if code = 4 then .names
  else if code = 5 then .statistics
  else if code = 6 then .enhancedPacket
  else if code = 10 then .secrets
  else if code = 0xBAD ∨ code = 0x40000BAD then .custom
  else if code = 0x80000001 then .process
  else .uninterpreted

/-- The least length of a block of the kind. -/
def minimum : Kind → Nat
  | .sectionHeader => 28
  | .interface => 20
  | .simplePacket => 16
  | .names => 12
  | .statistics => 24
  | .enhancedPacket => 32
  | .secrets => 20
  | .custom => 16
  | .process => 4
  | .uninterpreted => 12

/-- Whether the length at the end of the block has to repeat the one at its start. -/
def repeatsLength : Kind → Bool
  | .sectionHeader => false
  | .simplePacket => false
  | .uninterpreted => false
  | _ => true

end Kind

/-- Steps over the options of a block of length `length`: they take what is
left of it behind the first `offset` bytes. -/
def skipOptions (length offset : Nat) (bs : List UInt8) : Except ReadFault (List UInt8) :=
  skip (length - offset) bs

/-- Steps over a list of name records. Each is a type and a length, two bytes
each, and so many bytes padded to words; four zero bytes end the list. -/
def skipNames (order : ByteOrder) : List UInt8 → Except ReadFault (List UInt8)
  | [] => .error (.incomplete 4)
  | [b] => .error (.incomplete (if b = 0 then 3 else 1))
  | [_, _] => .error (.incomplete 2)
  | [_, _, _] => .error (.incomplete 1)
  | type₁ :: type₂ :: length₁ :: length₂ :: rest =>
    if [type₁, type₂, length₁, length₂] = [0, 0, 0, 0] then .ok rest
    else
      let size := align (order.value [length₁, length₂])
      match shortfall size rest with
      | 0 => skipNames order (rest.drop size)
      | missing => .error (.incomplete missing)
  termination_by bs => bs.length
  decreasing_by
    simp only [List.length_drop, List.length_cons]
    omega

/-- Lengths from here on are refused: 32 bits leave no room for their padding. -/
def unpaddable : Nat := 4294967291

/-- Reads the body of a block of length `length`: what the block is, and the
bytes of the body behind what was read. -/
def Kind.read (kind : Kind) (order : ByteOrder) (length : Nat) (body : List UInt8) :
    Except ReadFault (Block × List UInt8) :=
  match kind with
  | .sectionHeader => do
    let rest ← skip 16 body
    let rest ← skipOptions length 28 rest
    return (.sectionHeader order, rest)
  | .interface => do
    let rest ← skip 8 body
    let rest ← skipOptions length 20 rest
    return (.description, rest)
  | .simplePacket => do
    let rest ← skip 4 body
    let stored := length - 16
    let rest ← skip stored rest
    return (.simplePacket (order.field 0 4 body) stored, rest)
  | .names => do
    let rest ← skipNames order body
    let rest ← skipOptions length (12 + (body.length - rest.length)) rest
    return (.description, rest)
  | .statistics => do
    let rest ← skip 12 body
    let rest ← skipOptions length 24 rest
    return (.description, rest)
  | .enhancedPacket => do
    let rest ← skip 20 body
    let captured := order.field 12 4 body
    if unpaddable ≤ captured then throw (.damaged body)
    let rest ← skip (align captured) rest
    let rest ← skipOptions length (32 + align captured) rest
    return (.enhancedPacket captured, rest)
  | .secrets => do
    let rest ← skip 8 body
    let size := order.field 4 4 body
    if unpaddable ≤ size then throw (.damaged rest)
    let rest ← skip (align size) rest
    let rest ← skipOptions length (20 + align size) rest
    return (.description, rest)
  | .custom => do
    let rest ← skip 4 body
    return (.description, rest)
  | .process => do
    let rest ← skip 4 body
    let rest ← skipOptions (length - 4) 12 rest
    return (.description, rest)
  | .uninterpreted => return (.description, body)

/-- A block cut out of the bytes in front of a window. -/
structure Frame where
  /-- The length written at the start of the block. -/
  length : Nat
  body : List UInt8
  /-- The length written at the end of the block. -/
  trailer : Nat

/-- The bytes that a frame takes: type and length, the body, and the length again. -/
def Frame.size (frame : Frame) : Nat := 8 + frame.body.length + 4

/-- The first number that does not fit into 32 bits. -/
def wordLimit : Nat := 4294967296

/-- The length of the body of a block of length `length`, in words of 32 bits:
the twelve bytes around it are taken off, and below twelve the count wraps
around. -/
def bodyLength (length : Nat) : Nat := (length + wordLimit - 12) % wordLimit

/-- Cuts out the block in front, which has to have at least `minimum` bytes. -/
def frame (order : ByteOrder) (minimum : Nat) (bs : List UInt8) : Except ReadFault Frame := do
  let _ ← skip (max 8 minimum) bs
  let rest := bs.drop 8
  let length := order.field 4 4 bs
  if length < minimum then throw (.damaged rest)
  let trailer ← skip (bodyLength length) rest
  let _ ← skip 4 trailer
  return ⟨length, rest.take (bodyLength length), order.field 0 4 trailer⟩

/-- A frame lies within the bytes it was cut from. -/
theorem frame_fits {order : ByteOrder} {minimum : Nat} {bs : List UInt8} {cut : Frame}
    (h : frame order minimum bs = .ok cut) : cut.size ≤ bs.length := by
  unfold frame at h
  obtain ⟨_, head, h⟩ := bind_eq_ok.1 h
  simp only at h
  split at h
  · cases h
  obtain ⟨_, body, h⟩ := bind_eq_ok.1 h
  obtain ⟨_, trailer, h⟩ := bind_eq_ok.1 h
  cases h
  obtain ⟨head, -⟩ := skip_eq_ok.1 head
  obtain ⟨body, rfl⟩ := skip_eq_ok.1 body
  obtain ⟨trailer, -⟩ := skip_eq_ok.1 trailer
  simp only [List.length_drop] at body trailer
  simp only [Frame.size, List.length_take, List.length_drop]
  omega

/-- Reads the block in front, of a known kind and in a known byte order. -/
def parseKind (order : ByteOrder) (kind : Kind) (bs : List UInt8) : Except ReadFault Found := do
  let frame ← frame order kind.minimum bs
  let (block, rest) ← kind.read order frame.length frame.body
  if kind.repeatsLength ∧ frame.trailer ≠ frame.length then throw (.damaged rest)
  return ⟨frame.size, block⟩

/-- The byte order that the mark of a section header announces. -/
def markedOrder? : List UInt8 → Option ByteOrder
  | 0x4d :: 0x3c :: 0x2b :: 0x1a :: _ => some .little
  | 0x1a :: 0x2b :: 0x3c :: 0x4d :: _ => some .big
  | _ => none

/-- Reads the block in front. `order` is the byte order of the section; a
section header brings its own. -/
def parse (order : ByteOrder) (bs : List UInt8) : Except ReadFault Found := do
  let _ ← skip 4 bs
  match Kind.ofCode (order.field 0 4 bs) with
  | .sectionHeader =>
    let _ ← skip 12 bs
    match markedOrder? (bs.drop 8) with
    | some own => parseKind own .sectionHeader bs
    | none => throw .unknownHeader
  | kind => parseKind order kind bs

theorem parseKind_fits {order : ByteOrder} {kind : Kind} {bs : List UInt8} {found : Found}
    (h : parseKind order kind bs = .ok found) : 12 ≤ found.size ∧ found.size ≤ bs.length := by
  unfold parseKind at h
  obtain ⟨cut, fits, h⟩ := bind_eq_ok.1 h
  obtain ⟨_, _, h⟩ := bind_eq_ok.1 h
  simp only at h
  split at h
  · cases h
  · cases h
    exact ⟨by simp only [Frame.size]; omega, frame_fits fits⟩

/-- A block is at least as long as an empty frame and lies within the bytes it was found in. -/
theorem parse_fits {order : ByteOrder} {bs : List UInt8} {found : Found}
    (h : parse order bs = .ok found) : 12 ≤ found.size ∧ found.size ≤ bs.length := by
  unfold parse at h
  obtain ⟨_, _, h⟩ := bind_eq_ok.1 h
  split at h
  · obtain ⟨_, _, h⟩ := bind_eq_ok.1 h
    split at h
    · exact parseKind_fits h
    · cases h
  · exact parseKind_fits h

end SectionBlock
end CapturePace
