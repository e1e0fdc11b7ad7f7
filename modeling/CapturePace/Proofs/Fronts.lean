/-
# A front of a capture

What a reader, and then a walk, finds in the first bytes of a capture is what
it finds in all of them, as far as the front goes. A reader finds fault with
nothing but the bytes it is shown (`Format.faultsBytes_parse`), and an
incomplete block always lacks something. So a block that lies within a front
is found in it (`Format.parse_take_of_ok`), and one that is incomplete on all
bytes is incomplete on every front of them. A walk that ends inside a block
therefore ends at the same place on every front that shows some of this block
(`Format.walk_take_of_truncated`), and the counters of a complete front are at
most those of a longer one (`Format.le_of_walk_append`).

Key definitions: `Lacks`, `FaultsBytes`, the order of `Tally`.
Key theorems: `Format.faultsBytes_parse`, `Format.parse_take_of_ok`,
`Format.walk_take_of_truncated`, `Format.le_of_walk_append`.
-/
import CapturePace.Proofs.Walk

namespace CapturePace

/-- If the answer is that bytes are missing, there are some. -/
def Lacks {α : Type} (answer : Except ReadFault α) : Prop :=
  ∀ missing, answer = .error (.incomplete missing) → 0 < missing

/-- The fault is one of the bytes that were shown: some are missing, they open no
capture, or they contradict themselves. -/
def ReadFault.OfBytes : ReadFault → Prop
  | .incomplete missing => 0 < missing
  | .unknownHeader => True
  | .damaged _ => True
  | .endOfInput => False
  | .windowTooSmall => False
  | .unexpectedEnd => False
  | .readFailed => False

/-- If there is no value, the bytes that were shown are at fault. -/
def FaultsBytes {α : Type} (answer : Except ReadFault α) : Prop :=
  ∀ fault, answer = .error fault → fault.OfBytes

/-! ### What readers find fault with

The readers are made of steps over bytes, of refusals and of values. -/

namespace FaultsBytes

variable {α β : Type}

theorem value (a : α) : FaultsBytes (.ok a) := by
  intro fault h
  cases h

theorem error {fault : ReadFault} (own : fault.OfBytes) :
    FaultsBytes (.error fault : Except ReadFault α) := by
  intro other h
  cases h
  exact own

theorem incomplete {n : Nat} (pos : 0 < n) :
    FaultsBytes (.error (.incomplete n) : Except ReadFault α) := error pos

theorem bind {first : Except ReadFault α} {next : α → Except ReadFault β} (h : FaultsBytes first)
    (behind : ∀ a, FaultsBytes (next a)) : FaultsBytes (first >>= next) := by
  cases first with
  | ok a => exact behind a
  | error fault => exact error (h fault rfl)

theorem skip (n : Nat) (bs : List UInt8) : FaultsBytes (skip n bs) := by
  rcases Nat.lt_or_ge bs.length n with short | there
  · rw [skip_of_lt short]
    exact incomplete (Nat.sub_pos_of_lt short)
  · rw [skip_of_le there]
    exact value _

theorem lacks {answer : Except ReadFault α} (h : FaultsBytes answer) : Lacks answer :=
  fun missing short => h (.incomplete missing) short

end FaultsBytes

namespace SectionBlock

theorem faultsBytes_skipNames (order : ByteOrder) (bs : List UInt8) :
    FaultsBytes (skipNames order bs) := by
  fun_induction skipNames order bs with
  | case1 => exact .incomplete (by decide)
  | case2 b =>
    refine .incomplete ?_
    split <;> decide
  | case3 => exact .incomplete (by decide)
  | case4 => exact .incomplete (by decide)
  | case5 => exact .value _
  | case6 _ _ _ _ _ _ _ _ ih => exact ih
  | case7 _ _ _ _ _ _ _ short => exact .incomplete (Nat.pos_of_ne_zero short)

theorem faultsBytes_read (kind : Kind) (order : ByteOrder) (length : Nat) (body : List UInt8) :
    FaultsBytes (kind.read order length body) := by
  cases kind with
  | uninterpreted => exact .value _
  | custom => exact .bind (.skip _ _) fun _ => .value _
  | names => exact .bind (faultsBytes_skipNames _ _) fun _ => .bind (.skip _ _) fun _ => .value _
  | enhancedPacket | secrets =>
    refine .bind (.skip _ _) fun rest => ?_
    dsimp only
    split
    · exact .error trivial
    · exact .bind (.skip _ _) fun _ => .bind (.skip _ _) fun _ => .value _
  | sectionHeader | interface | simplePacket | statistics | process =>
    exact .bind (.skip _ _) fun _ => .bind (.skip _ _) fun _ => .value _

theorem faultsBytes_parseKind (order : ByteOrder) (kind : Kind) (bs : List UInt8) :
    FaultsBytes (parseKind order kind bs) := by
  have whole : FaultsBytes (frame order kind.minimum bs) := by
    rw [frame_eq]
    refine .bind (.skip _ _) fun _ => ?_
    split
    · exact .error trivial
    · exact .bind (.skip _ _) fun _ => .bind (.skip _ _) fun _ => .value _
  refine whole.bind fun cut => (faultsBytes_read kind order cut.length cut.body).bind fun _ => ?_
  dsimp only
  split
  · exact .error trivial
  · exact .value _

theorem faultsBytes_parse (order : ByteOrder) (bs : List UInt8) : FaultsBytes (parse order bs) := by
  refine .bind (.skip _ _) fun _ => ?_
  split
  · refine .bind (.skip _ _) fun _ => ?_
    split
    · exact faultsBytes_parseKind _ _ _
    · exact .error trivial
  · exact faultsBytes_parseKind _ _ _

end SectionBlock

/-- **A reader of blocks finds fault with the bytes it is shown, and with nothing else.** -/
theorem Format.faultsBytes_parse (format : Format) (bs : List UInt8) : FaultsBytes (format.parse bs) := by
  cases format with
  | records layout => exact .bind (.skip _ _) fun _ => .bind (.skip _ _) fun _ => .value _
  | sections order => exact SectionBlock.faultsBytes_parse order bs

/-! ### Blocks in a front -/

namespace Format

variable {format : Format} {bs : List UInt8}

theorem lacks_parse (format : Format) (bs : List UInt8) : Lacks (format.parse bs) :=
  (format.faultsBytes_parse bs).lacks

/-- **A block that lies within a front is found in it.** -/
theorem parse_take_of_ok {found : Found} {n : Nat} (parsed : format.parse bs = .ok found)
    (within : found.size ≤ n) : format.parse (bs.take n) = .ok found := by
  have fits : found.size ≤ bs.length := (parse_fits parsed).2
  have grown := format.parse_append (bs.take n) (bs.drop n)
  rw [List.take_append_drop, parsed] at grown
  generalize front : format.parse (bs.take n) = answer at grown ⊢
  cases grown with
  | found => rfl
  | @pending missing _ asks =>
    -- the front would ask for a byte more than the block has
    have pos : 0 < missing := format.lacks_parse _ missing front
    have shown : found.size ≤ (bs.take n).length := by
      rw [List.length_take]
      omega
    have asks : (bs.take n).length + missing ≤ found.size := asks
    omega

/-- A block is read from the bytes it takes. -/
theorem parse_take_size {found : Found} (parsed : format.parse bs = .ok found) :
    format.parse (bs.take found.size) = .ok ⟨(bs.take found.size).length, found.block⟩ := by
  rw [parse_take_of_ok parsed le_rfl, List.length_take_of_le (parse_fits parsed).2]

theorem parse_take_of_incomplete {missing : Nat} (n : Nat)
    (parsed : format.parse bs = .error (.incomplete missing)) :
    ∃ missing, format.parse (bs.take n) = .error (.incomplete missing) := by
  have grown := format.parse_append (bs.take n) (bs.drop n)
  rw [List.take_append_drop, parsed] at grown
  generalize format.parse (bs.take n) = answer at grown ⊢
  cases grown with
  | @refused fault _ refusal same =>
    cases fault with
    | incomplete missing => exact ⟨missing, rfl⟩
    | _ => cases same
  | @pending missing => exact ⟨missing, rfl⟩

end Format

/-! ### Walks over a front -/

/-- Counters are compared one by one. -/
instance : Preorder Tally where
  le few many :=
    few.blocks ≤ many.blocks ∧ few.packets ≤ many.packets ∧ few.captured ≤ many.captured
  le_refl _ := ⟨le_rfl, le_rfl, le_rfl⟩
  le_trans _ _ _ h h' := ⟨h.1.trans h'.1, h.2.1.trans h'.2.1, h.2.2.trans h'.2.2⟩

theorem Tally.le_count (tally : Tally) (block : Block) : tally ≤ tally.count block := by
  unfold Tally.count
  cases block.packet? with
  | some bytes => exact ⟨Nat.le_succ _, Nat.le_succ _, Nat.le_add_right _ _⟩
  | none => exact ⟨Nat.le_succ _, le_rfl, le_rfl⟩

namespace Format

variable {format : Format} {bs : List UInt8} {tally : Tally} {consumed place : Nat}

theorem le_of_walk {result : Tally} (h : format.walk bs tally consumed = .ok result) :
    tally ≤ result := by
  fun_induction walk format bs tally consumed with
  | case1 =>
    cases h
    exact le_rfl
  | case2 _ _ tally _ _ found _ ih => exact (tally.le_count found.block).trans (ih h)
  | case3 => cases h
  | case4 => cases h

/-- **A longer walk counts no less.** -/
theorem le_of_walk_append {more : List UInt8} {short long : Tally}
    (h : format.walk bs tally consumed = .ok short)
    (h' : format.walk (bs ++ more) tally consumed = .ok long) : short ≤ long := by
  fun_induction walk format bs tally consumed with
  | case1 =>
    cases h
    exact le_of_walk h'
  | case2 _ _ _ _ _ found parsed ih =>
    have within := (parse_fits parsed).2
    rw [walk_of_ok (parse_append_of_ok more parsed), List.drop_append_of_le_length within] at h'
    exact ih h h'
  | case3 => cases h
  | case4 => cases h

/-- A walk is cut no earlier than where it starts. -/
theorem le_of_walk_truncated (h : format.walk bs tally consumed = .error (.truncated place)) :
    consumed ≤ place := by
  fun_induction walk format bs tally consumed with
  | case1 => cases h
  | case2 _ _ _ _ _ _ _ ih => exact (Nat.le_add_right _ _).trans (ih h)
  | case3 =>
    cases h
    exact le_rfl
  | case4 => cases h

/-- A walk is cut where it starts, or behind the block in front. -/
theorem walk_truncated (h : format.walk bs tally consumed = .error (.truncated place)) :
    place = consumed ∨ ∃ found, format.parse bs = .ok found ∧ consumed + found.size ≤ place := by
  by_cases there : bs = []
  · rw [there, walk_nil] at h
    cases h
  rw [walk_of_ne_nil there] at h
  split at h
  · next found parsed => exact .inr ⟨found, parsed, le_of_walk_truncated h⟩
  · cases h
    exact .inl rfl
  · cases h

/-- **A walk that is cut is cut at the same place on every front that goes further.** -/
theorem walk_take_of_truncated {cut : Nat}
    (h : format.walk bs tally consumed = .error (.truncated place)) (behind : place < cut) :
    format.walk (bs.take (cut - consumed)) tally consumed = .error (.truncated place) := by
  fun_induction walk format bs tally consumed with
  | case1 => cases h
  | case2 format bs tally consumed there found parsed ih =>
    have before : consumed + found.size ≤ place := le_of_walk_truncated h
    have front : format.parse (bs.take (cut - consumed)) = .ok found :=
      parse_take_of_ok parsed (by omega)
    rw [walk_of_ok front, List.drop_take, Nat.sub_sub]
    exact ih h
  | case3 format bs tally consumed there missing parsed =>
    cases h
    have left : bs.take (cut - place) ≠ [] := by
      rw [Ne, List.take_eq_nil_iff]
      push Not
      exact ⟨by omega, there⟩
    obtain ⟨missing, short⟩ := parse_take_of_incomplete (cut - place) parsed
    exact walk_of_incomplete left short tally place
  | case4 => cases h

end Format
end CapturePace
