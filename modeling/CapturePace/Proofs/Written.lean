/-
# Blocks written one after another

A capture is made by writing blocks one after another. If every one of them is
read back as what it was written for (`Format.Spells`), a walk over all of
them finds them in order, wherever the bytes are cut: the counters are those
of the blocks in front of the cut, and a cut inside a block is found at the
start of that block (`Format.Spells.walk_take`). A block that is cut asks for
no more than is missing from it, so the walk fits into as many bytes as the
longest block has (`Format.Spells.fits_take`), and through a longer buffer the
same is seen (`WrittenBlock.tallyOf_bytesOf`).

Numbers are written by `ByteOrder.number`, which `ByteOrder.value` undoes.

Key definitions: `ByteOrder.number`, `WrittenBlock`, `Format.Spells`,
`WrittenBlock.SeenUpTo`.
Key theorems: `ByteOrder.value_number`, `Format.Spells.walk_take`,
`Format.Spells.fits_take`, `WrittenBlock.tallyOf_bytesOf`.
-/
import CapturePace.Proofs.InMemory

namespace CapturePace
namespace ByteOrder

/-- The lowest `width` digits of a number in base 256, the lowest one first. -/
def digits : Nat → Nat → List UInt8
  | 0, _ => []
  | width + 1, n => UInt8.ofNat n :: digits width (n / 256)

/-- A number written in `width` bytes. -/
def number : ByteOrder → Nat → Nat → List UInt8
  | .little, width, n => digits width n
  | .big, width, n => (digits width n).reverse

@[simp] theorem length_digits : ∀ width n : Nat, (digits width n).length = width
  | 0, _ => rfl
  | width + 1, n => by rw [digits, List.length_cons, length_digits width]

@[simp] theorem length_number (order : ByteOrder) (width n : Nat) :
    (order.number width n).length = width := by
  cases order with
  | little => exact length_digits width n
  | big => rw [number, List.length_reverse, length_digits]

theorem value_digits : ∀ {width n : Nat}, n < 256 ^ width → value .little (digits width n) = n
  | 0, n, h => by
    rw [pow_zero, Nat.lt_one_iff] at h
    rw [h]
    rfl
  | width + 1, n, h => by
    have rest : value .little (digits width (n / 256)) = n / 256 :=
      value_digits (Nat.div_lt_of_lt_mul (by rwa [pow_succ, Nat.mul_comm] at h))
    have first : (UInt8.ofNat n).toNat = n % 256 := UInt8.toNat_ofNat'
    have both : value .little (digits (width + 1) n) =
        (UInt8.ofNat n).toNat + 256 * value .little (digits width (n / 256)) := rfl
    rw [both, first, rest]
    omega

/-- **A number is read as it was written**, if it has room in its bytes. -/
theorem value_number (order : ByteOrder) {width n : Nat} (h : n < 256 ^ width) :
    order.value (order.number width n) = n := by
  cases order with
  | little => exact value_digits h
  | big => rw [value_big, number, List.reverse_reverse, value_digits h]

/-- A number is read at the place where it was written. -/
theorem field_number (order : ByteOrder) {width n : Nat} (before after : List UInt8)
    (h : n < 256 ^ width) :
    order.field before.length width (before ++ (order.number width n ++ after)) = n := by
  rw [field, List.drop_left, List.take_left' (length_number order width n), order.value_number h]

end ByteOrder

/-! ### Blocks in a row -/

/-- A block, and the bytes that are written for it. -/
structure WrittenBlock where
  bytes : List UInt8
  block : Block
  deriving DecidableEq, Repr

namespace WrittenBlock

/-- The bytes of blocks in a row. -/
def bytesOf (blocks : List WrittenBlock) : List UInt8 := blocks.flatMap (·.bytes)

/-- Where the first `k` blocks end. -/
def boundary (blocks : List WrittenBlock) (k : Nat) : Nat := (bytesOf (blocks.take k)).length

/-- The counters of blocks in a row. -/
def tally (blocks : List WrittenBlock) : Tally :=
  let packets := blocks.filterMap (·.block.packet?)
  ⟨blocks.length, packets.length, packets.sum⟩

variable {written : WrittenBlock} {blocks : List WrittenBlock} {cut k : Nat}

theorem bytesOf_cons (written : WrittenBlock) (blocks : List WrittenBlock) :
    bytesOf (written :: blocks) = written.bytes ++ bytesOf blocks := List.flatMap_cons

theorem boundary_zero (blocks : List WrittenBlock) : boundary blocks 0 = 0 := rfl

theorem boundary_succ (written : WrittenBlock) (blocks : List WrittenBlock) (k : Nat) :
    boundary (written :: blocks) (k + 1) = written.bytes.length + boundary blocks k := by
  simp only [boundary, List.take_succ_cons, bytesOf_cons, List.length_append]

/-- Counting the blocks one by one adds their counters to those in front. -/
theorem foldl_count (blocks : List WrittenBlock) (start : Tally) :
    blocks.foldl (fun counted written => counted.count written.block) start =
      ⟨start.blocks + (tally blocks).blocks, start.packets + (tally blocks).packets,
        start.captured + (tally blocks).captured⟩ := by
  induction blocks generalizing start with
  | nil => rfl
  | cons written blocks ih =>
    rw [List.foldl_cons, ih]
    cases packet : written.block.packet? with
    | none =>
      simp only [Tally.count, tally, packet, List.filterMap_cons, List.length_cons]
      congr 1
      omega
    | some bytes =>
      simp only [Tally.count, tally, packet, List.filterMap_cons, List.length_cons, List.sum_cons]
      congr 1 <;> omega

/-- Counting from nothing gives the counters of the blocks. -/
theorem foldl_count_empty (blocks : List WrittenBlock) :
    blocks.foldl (fun counted written => counted.count written.block) {} = tally blocks := by
  rw [foldl_count]
  simp only [Nat.zero_add]

/-- The greatest boundary up to a cut inside the first block is the start. -/
theorem isGreatest_of_lt (short : cut < written.bytes.length) :
    IsGreatest (Set.range (boundary (written :: blocks)) ∩ Set.Iic cut)
      (boundary (written :: blocks) 0) := by
  refine ⟨⟨⟨0, rfl⟩, Nat.zero_le cut⟩, ?_⟩
  rintro _ ⟨⟨l, rfl⟩, before⟩
  rw [Set.mem_Iic] at before
  cases l with
  | zero => exact le_rfl
  | succ l =>
    rw [boundary_succ] at before
    omega

/-- The greatest boundary up to a cut behind the first block is one of the rest. -/
theorem isGreatest_of_le (long : written.bytes.length ≤ cut)
    (h : IsGreatest (Set.range (boundary blocks) ∩ Set.Iic (cut - written.bytes.length))
      (boundary blocks k)) :
    IsGreatest (Set.range (boundary (written :: blocks)) ∩ Set.Iic cut)
      (boundary (written :: blocks) (k + 1)) := by
  obtain ⟨⟨-, before⟩, greatest⟩ := h
  rw [Set.mem_Iic] at before
  refine ⟨⟨⟨k + 1, rfl⟩, ?_⟩, ?_⟩
  · rw [Set.mem_Iic, boundary_succ]
    omega
  rintro _ ⟨⟨l, rfl⟩, before'⟩
  rw [Set.mem_Iic] at before'
  cases l with
  | zero => exact Nat.zero_le _
  | succ l =>
    rw [boundary_succ] at before' ⊢
    rw [boundary_succ]
    have : boundary blocks l ≤ boundary blocks k :=
      greatest ⟨⟨l, rfl⟩, by rw [Set.mem_Iic]; omega⟩
    omega

/-- Blocks of which none is empty end at different places. -/
theorem take_eq_of_boundary_eq {l : Nat} (there : ∀ written ∈ blocks, written.bytes ≠ [])
    (same : boundary blocks k = boundary blocks l) : blocks.take k = blocks.take l := by
  induction blocks generalizing k l with
  | nil => rw [List.take_nil, List.take_nil]
  | cons written blocks ih =>
    have size : 0 < written.bytes.length := List.length_pos_iff.2 (there written List.mem_cons_self)
    rcases k with _ | k <;> rcases l with _ | l
    · rfl
    · rw [boundary_zero, boundary_succ] at same
      omega
    · rw [boundary_zero, boundary_succ] at same
      omega
    · rw [boundary_succ, boundary_succ] at same
      have rest : blocks.take k = blocks.take l :=
        ih (fun other mem => there other (List.mem_cons_of_mem _ mem)) (Nat.add_left_cancel same)
      rw [List.take_succ_cons, List.take_succ_cons, rest]

end WrittenBlock

open WrittenBlock (bytesOf boundary)

namespace Format

/-- Every block is read back as what it was written for, in the format that
the blocks in front of it leave behind. -/
inductive Spells : Format → List WrittenBlock → Prop
  | nil (format : Format) : Spells format []
  | cons {format : Format} {written : WrittenBlock} {blocks : List WrittenBlock}
      (parsed : format.parse written.bytes = .ok ⟨written.bytes.length, written.block⟩)
      (rest : Spells (format.after written.block) blocks) : Spells format (written :: blocks)

variable {format : Format} {written : WrittenBlock} {blocks : List WrittenBlock} {cut : Nat}

/-- A block that is cut asks for no more than the whole of it. -/
theorem parse_of_prefix {block : Block} {bs more : List UInt8}
    (parsed : format.parse (bs ++ more) = .ok ⟨(bs ++ more).length, block⟩) (cut : more ≠ []) :
    ∃ missing, format.parse bs = .error (.incomplete missing) ∧
      bs.length + missing ≤ (bs ++ more).length := by
  have grown := format.parse_append bs more
  rw [parsed] at grown
  generalize now : format.parse bs = answer at grown
  cases grown with
  | found =>
    have size : (bs ++ more).length ≤ bs.length := (parse_fits now).2
    have left : 0 < more.length := List.length_pos_iff.2 cut
    rw [List.length_append] at size
    omega
  | pending asks => exact ⟨_, rfl, asks⟩

/-- The first block is incomplete if it is cut. -/
theorem parse_take_of_lt (blocks : List WrittenBlock)
    (parsed : format.parse written.bytes = .ok ⟨written.bytes.length, written.block⟩)
    (short : cut < written.bytes.length) :
    ∃ missing, format.parse ((bytesOf (written :: blocks)).take cut) = .error (.incomplete missing) ∧
      cut + missing ≤ written.bytes.length := by
  have left : written.bytes.drop cut ≠ [] := fun h =>
    absurd (List.drop_eq_nil_iff.1 h) (Nat.not_le.2 short)
  rw [← List.take_append_drop cut written.bytes] at parsed
  obtain ⟨missing, front, asks⟩ := parse_of_prefix parsed left
  rw [List.take_append_drop, List.length_take_of_le short.le] at asks
  rw [WrittenBlock.bytesOf_cons, List.take_append_of_le_length short.le]
  exact ⟨missing, front, asks⟩

/-- The first block is found if the cut is behind it, and the rest is cut as before. -/
theorem parse_take_of_le (blocks : List WrittenBlock)
    (parsed : format.parse written.bytes = .ok ⟨written.bytes.length, written.block⟩)
    (long : written.bytes.length ≤ cut) :
    format.parse ((bytesOf (written :: blocks)).take cut) =
        .ok ⟨written.bytes.length, written.block⟩ ∧
      ((bytesOf (written :: blocks)).take cut).drop written.bytes.length =
        (bytesOf blocks).take (cut - written.bytes.length) := by
  rw [WrittenBlock.bytesOf_cons, List.take_append, List.take_of_length_le long]
  exact ⟨parse_append_of_ok _ parsed, List.drop_left⟩

/-- **Written blocks need room for the longest of them**, wherever they are cut. -/
theorem Spells.fits_take {bound : Nat} (spells : format.Spells blocks) (header : 24 ≤ bound)
    (sizes : ∀ written ∈ blocks, written.bytes.length ≤ bound) (cut : Nat) :
    format.Fits bound ((bytesOf blocks).take cut) := by
  induction spells generalizing cut with
  | nil format =>
    obtain ⟨missing, asks, parsed⟩ := format.parse_nil
    have nothing : (bytesOf []).take cut = [] := List.take_nil
    rw [nothing]
    exact .of_incomplete parsed (by rw [List.length_nil, Nat.zero_add]; exact asks.trans header)
  | @cons format written blocks parsed rest ih =>
    have size := sizes written List.mem_cons_self
    rcases Nat.lt_or_ge cut written.bytes.length with short | long
    · obtain ⟨missing, parsed', asks⟩ := parse_take_of_lt blocks parsed short
      refine .of_incomplete parsed' ?_
      calc ((bytesOf (written :: blocks)).take cut).length + missing
          ≤ cut + missing := Nat.add_le_add_right (List.length_take_le _ _) _
        _ ≤ written.bytes.length := asks
        _ ≤ bound := size
    · obtain ⟨parsed', behind⟩ := parse_take_of_le blocks parsed long
      refine .of_ok parsed' size ?_
      simp only
      rw [behind]
      exact ih (fun other mem => sizes other (List.mem_cons_of_mem _ mem)) _

/-- **A walk over written blocks finds those in front of a cut**, and the
start of the one that the cut falls into. -/
theorem Spells.walk_take (spells : format.Spells blocks) (there : cut ≤ (bytesOf blocks).length)
    (start : Tally) (consumed : Nat) :
    ∃ k, IsGreatest (Set.range (boundary blocks) ∩ Set.Iic cut) (boundary blocks k) ∧
      format.walk ((bytesOf blocks).take cut) start consumed =
        if boundary blocks k = cut then
          .ok ((blocks.take k).foldl (fun counted written => counted.count written.block) start)
        else .error (.truncated (consumed + boundary blocks k)) := by
  induction spells generalizing cut start consumed with
  | nil format =>
    obtain rfl : cut = 0 := Nat.le_zero.1 there
    refine ⟨0, ⟨⟨⟨0, rfl⟩, Nat.zero_le 0⟩, fun _ h => h.2⟩, ?_⟩
    rw [if_pos (WrittenBlock.boundary_zero _)]
    exact walk_nil format start consumed
  | @cons format written blocks parsed rest ih =>
    rcases Nat.lt_or_ge cut written.bytes.length with short | long
    · refine ⟨0, WrittenBlock.isGreatest_of_lt short, ?_⟩
      rw [WrittenBlock.boundary_zero]
      rcases Nat.eq_zero_or_pos cut with rfl | pos
      · rw [if_pos rfl, List.take_zero, walk_nil]
        rfl
      · obtain ⟨missing, parsed', -⟩ := parse_take_of_lt blocks parsed short
        have left : (bytesOf (written :: blocks)).take cut ≠ [] := by
          rw [← List.length_pos_iff, List.length_take_of_le there]
          exact pos
        rw [if_neg pos.ne, walk_of_incomplete left parsed', Nat.add_zero]
    · obtain ⟨parsed', behind⟩ := parse_take_of_le blocks parsed long
      rw [WrittenBlock.bytesOf_cons, List.length_append] at there
      have there' : cut - written.bytes.length ≤ (bytesOf blocks).length := by omega
      obtain ⟨k, greatest, walked⟩ :=
        ih there' (start.count written.block) (consumed + written.bytes.length)
      refine ⟨k + 1, WrittenBlock.isGreatest_of_le long greatest, ?_⟩
      rw [walk_of_ok parsed', behind, walked, WrittenBlock.boundary_succ, Nat.add_assoc]
      have same : boundary blocks k = cut - written.bytes.length ↔
          written.bytes.length + boundary blocks k = cut := by omega
      simp only [same]
      rfl

/-- All of the written blocks are found if nothing is cut off. -/
theorem Spells.walk_all (spells : format.Spells blocks) (start : Tally) (consumed : Nat) :
    format.walk (bytesOf blocks) start consumed =
      .ok (blocks.foldl (fun counted written => counted.count written.block) start) := by
  induction spells generalizing start consumed with
  | nil format => exact walk_nil format start consumed
  | @cons format written blocks parsed rest ih =>
    have parsed' := parse_append_of_ok (bytesOf blocks) parsed
    rw [WrittenBlock.bytesOf_cons, walk_of_ok parsed', List.drop_left, ih]
    rfl

end Format

/-! ### What is seen of them -/

/-- What the verdict on blocks in a row has to be if only the first `cut` bytes
of them are there: the counters of the blocks in front, or else the greatest
boundary up to the cut. -/
def WrittenBlock.SeenUpTo (blocks : List WrittenBlock) (cut : Nat) (verdict : Verdict Tally) : Prop :=
  ∃ k, IsGreatest (Set.range (boundary blocks) ∩ Set.Iic cut) (boundary blocks k) ∧
    verdict = if boundary blocks k = cut then .finished (tally (blocks.take k))
      else .failed (.truncated (boundary blocks k))

namespace WrittenBlock

variable {blocks : List WrittenBlock} {cut capacity bound : Nat} {format : Format}

/-- What a walk finds, in less room than the buffer has, is seen through the buffer. -/
theorem SeenUpTo.tallyOf {bs : List UInt8} (seen : SeenUpTo blocks cut (.ofExcept (walk bs)))
    (opens : format.Opens (bs.take capacity)) (fits : format.Fits bound (format.body bs))
    (room : bound < capacity) (made : capacity ≤ bufferLimit) :
    SeenUpTo blocks cut (tallyOf bs capacity) := by
  obtain ⟨k, greatest, walked⟩ := seen
  refine ⟨k, greatest, ?_⟩
  by_cases whole : boundary blocks k = cut
  · rw [if_pos whole] at walked ⊢
    have counted := Verdict.ofExcept_eq_finished.1 walked
    exact tallyOf_of_walk (.counted _) opens fits room made counted
  · rw [if_neg whole] at walked ⊢
    have located := Verdict.ofExcept_eq_failed.1 walked
    exact tallyOf_of_walk (.cut _) opens fits room made located

/-- **There is one verdict that blocks in a row can have**, since a boundary
tells which blocks are in front of it. -/
theorem SeenUpTo.unique {verdict other : Verdict Tally} (there : ∀ written ∈ blocks, written.bytes ≠ [])
    (seen : SeenUpTo blocks cut verdict) (seen' : SeenUpTo blocks cut other) : verdict = other := by
  obtain ⟨k, greatest, rfl⟩ := seen
  obtain ⟨l, greatest', rfl⟩ := seen'
  have same : boundary blocks k = boundary blocks l := greatest.unique greatest'
  rw [same, take_eq_of_boundary_eq there same]

/-- **Blocks in a row are seen as a walk finds them**, whole or cut behind
their opening, through a buffer that has room for the opening and for the walk.
Through a buffer that cannot be made, nothing is seen. -/
theorem tallyOf_bytesOf {opening : Nat} (room : opening < capacity)
    (opens : ∀ cut, opening ≤ cut → format.Opens ((bytesOf blocks).take cut))
    (fits : ∀ cut, format.Fits (capacity - 1) (format.body ((bytesOf blocks).take cut)))
    (whole : walk (bytesOf blocks) = .ok (tally blocks))
    (walked : ∀ cut, opening ≤ cut → cut ≤ (bytesOf blocks).length →
      SeenUpTo blocks cut (.ofExcept (walk ((bytesOf blocks).take cut)))) :
    (capacity ≤ bufferLimit →
      CapturePace.tallyOf (bytesOf blocks) capacity = .finished (tally blocks) ∧
      ∀ cut, opening ≤ cut → cut ≤ (bytesOf blocks).length →
        SeenUpTo blocks cut (CapturePace.tallyOf ((bytesOf blocks).take cut) capacity)) ∧
    (bufferLimit < capacity →
      ∀ cut, CapturePace.tallyOf ((bytesOf blocks).take cut) capacity = .overflowed .capacity) := by
  refine ⟨fun made => ⟨?_, fun cut there within => ?_⟩, fun long cut => tallyOf_of_lt long⟩
  all_goals have shorter : capacity - 1 < capacity := by omega
  · have fits' := fits (bytesOf blocks).length
    rw [List.take_length] at fits'
    exact tallyOf_of_walk (.counted _) (opens capacity room.le) fits' shorter made whole
  · have opens' : format.Opens (((bytesOf blocks).take cut).take capacity) := by
      rw [List.take_take]
      exact opens _ (le_min room.le there)
    exact (walked cut there within).tallyOf opens' (fits cut) shorter made

end WrittenBlock
end CapturePace
