/-
# Files of records

The older kind of capture is a header of 24 bytes followed by records. The
first four bytes of the header fix the byte order and the length of the
record headers (`RecordLayout.ofMagic?`); a record is its header, with the
captured length at offset 8, and that many bytes of data.

Key definitions: `RecordLayout`, `RecordLayout.ofMagic?`, `RecordLayout.parse`.
Key theorem: `RecordLayout.parse_fits`.
-/
import CapturePace.Block

namespace CapturePace

/-- The length of the header of a file of records. -/
def fileHeaderSize : Nat := 24

/-- How the records of a file are written. -/
structure RecordLayout where
  order : ByteOrder
  /-- Whether each record header carries eight more bytes than the plain sixteen. -/
  extended : Bool := false
  deriving DecidableEq, Repr

namespace RecordLayout

/-- The length of a record header. -/
def headerSize (layout : RecordLayout) : Nat := if layout.extended then 24 else 16

theorem sixteen_le_headerSize (layout : RecordLayout) : 16 ≤ layout.headerSize := by
  unfold headerSize
  split <;> decide

/-- The layout announced by the first four bytes of a file, if they announce one. -/
def ofMagic? : List UInt8 → Option RecordLayout
  | 0xd4 :: 0xc3 :: 0xb2 :: 0xa1 :: _ => some ⟨.little, false⟩
  | 0x4d :: 0x3c :: 0xb2 :: 0xa1 :: _ => some ⟨.little, false⟩
  | 0x34 :: 0xcd :: 0xb2 :: 0xa1 :: _ => some ⟨.little, true⟩
  | 0xa1 :: 0xb2 :: 0xc3 :: 0xd4 :: _ => some ⟨.big, false⟩
  | 0xa1 :: 0xb2 :: 0x3c :: 0x4d :: _ => some ⟨.big, false⟩
  | _ => none

/-- The record at the front of `bs`. Its header has to be there before its
captured length is believed. -/
def parse (layout : RecordLayout) (bs : List UInt8) : Except ReadFault Found := do
  let data ← skip layout.headerSize bs
  let captured := layout.order.field 8 4 bs
  let _ ← skip captured data
  return ⟨layout.headerSize + captured, .record captured⟩

/-- A record is at least as long as its header and lies within the bytes it was found in. -/
theorem parse_fits {layout : RecordLayout} {bs : List UInt8} {found : Found}
    (h : layout.parse bs = .ok found) :
    layout.headerSize ≤ found.size ∧ found.size ≤ bs.length := by
  unfold parse at h
  obtain ⟨data, header, h⟩ := bind_eq_ok.1 h
  obtain ⟨_, captured, h⟩ := bind_eq_ok.1 h
  cases h
  obtain ⟨header, rfl⟩ := skip_eq_ok.1 header
  obtain ⟨captured, -⟩ := skip_eq_ok.1 captured
  rw [List.length_drop] at captured
  refine ⟨Nat.le_add_right _ _, ?_⟩
  simp only
  omega

end RecordLayout
end CapturePace
