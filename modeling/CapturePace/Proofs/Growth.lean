/-
# What a reader answers when more bytes follow

A window shows a reader only the bytes in front of it. What the reader says
about them is compared here with what it says when more bytes follow. A block
that is found stays found, a refusal stays a refusal (only the bytes it quotes
may become more), and an incomplete block goes on to ask for at least as many
bytes as it asked for before (`Format.parse_append`). `demand` is the number of
bytes an answer asks for, counted from the front of the block.

The readers step over bytes with `skip` and look back at numbers they have
stepped over, so what one of them does with more bytes follows from what each
`skip` does (`Continues.skip_bind`).

Key definitions: `ReadFault.Abridges`, `demand`, `Continues`.
Key theorems: `Format.parse_append`, `Format.detect_eq_ok`, `Format.Opens.append`.
-/
import Mathlib
import CapturePace.Format

namespace CapturePace

/-- The fault is `whole`, but for the bytes it quotes, which may be cut short. -/
def ReadFault.Abridges : ReadFault → ReadFault → Prop
  | .damaged rest, .damaged whole => rest <+: whole
  | fault, whole => fault = whole

theorem ReadFault.Abridges.refl (fault : ReadFault) : fault.Abridges fault := by
  cases fault with
  | damaged rest => exact List.prefix_refl rest
  | _ => rfl

/-- A refusal is an answer that more bytes do not change into a block. -/
def ReadFault.IsRefusal (fault : ReadFault) : Prop := ∀ missing, fault ≠ .incomplete missing

section Answers

variable {α β : Type} {size : α → Nat}

/-- The bytes that an answer on `available` bytes asks for. `size` tells how
many a value takes. -/
def demand (size : α → Nat) (available : Nat) : Except ReadFault α → Nat
  | .ok value => size value
  | .error (.incomplete missing) => available + missing
  | .error _ => available

/-- What the first answer, on `available` bytes, may become when `more` bytes follow. -/
inductive Continues (size : α → Nat) (available more : Nat) :
    Except ReadFault α → Except ReadFault α → Prop
  | found (value : α) : Continues size available more (.ok value) (.ok value)
  | refused {fault whole : ReadFault} (refusal : fault.IsRefusal) (same : fault.Abridges whole) :
      Continues size available more (.error fault) (.error whole)
  | pending {missing : Nat} {later : Except ReadFault α}
      (asks : available + missing ≤ demand size (available + more) later) :
      Continues size available more (.error (.incomplete missing)) later

/-- An answer asks for `n` bytes if they are there and a value takes as many. -/
theorem le_demand {n available : Nat} {answer : Except ReadFault α} (there : n ≤ available)
    (takes : ∀ value, answer = .ok value → n ≤ size value) : n ≤ demand size available answer := by
  rcases answer with (_ | _ | _ | _ | missing | _ | _) | value
  case ok => exact takes value rfl
  case error.incomplete => exact there.trans (Nat.le_add_right _ _)
  all_goals exact there

theorem Continues.same (size : α → Nat) (available more : Nat) (answer : Except ReadFault α) :
    Continues size available more answer answer := by
  rcases answer with fault | value
  · by_cases h : fault.IsRefusal
    · exact .refused h (.refl fault)
    · unfold ReadFault.IsRefusal at h
      push Not at h
      obtain ⟨missing, rfl⟩ := h
      exact .pending (by simp only [demand]; omega)
  · exact .found value

theorem skip_of_le {n : Nat} {bs : List UInt8} (h : n ≤ bs.length) : skip n bs = .ok (bs.drop n) :=
  skip_eq_ok.2 ⟨h, rfl⟩

theorem skip_of_lt {n : Nat} {bs : List UInt8} (h : bs.length < n) :
    skip n bs = .error (.incomplete (n - bs.length)) := by
  unfold skip
  rw [shortfall_eq]
  split
  · omega
  · rfl

/-- Stepping on from behind `k` bytes is stepping over all of them. -/
theorem skip_drop {k n : Nat} {bs : List UInt8} (h : k ≤ bs.length) :
    skip n (bs.drop k) = skip (k + n) bs := by
  rcases Nat.lt_or_ge bs.length (k + n) with hlt | hge
  · rw [skip_of_lt hlt, skip_of_lt (by rw [List.length_drop]; omega), List.length_drop]
    congr 2
    omega
  · rw [skip_of_le hge, skip_of_le (by rw [List.length_drop]; omega), List.drop_drop]

/-- A reader that first steps over `k` bytes is only as good as what it does
once they are there. -/
theorem Continues.skip_bind {k : Nat} {bs more : List UInt8} {next next' : List UInt8 → Except ReadFault α}
    (there : k ≤ bs.length → Continues size bs.length more.length (next (bs.drop k))
      (next' ((bs ++ more).drop k)))
    (takes : ∀ value, skip k (bs ++ more) >>= next' = .ok value → k ≤ size value) :
    Continues size bs.length more.length (skip k bs >>= next) (skip k (bs ++ more) >>= next') := by
  rcases Nat.lt_or_ge bs.length k with hlt | hge
  · rw [skip_of_lt hlt]
    refine .pending ?_
    rw [Nat.add_sub_of_le hlt.le, ← List.length_append]
    rcases Nat.lt_or_ge (bs ++ more).length k with hlt' | hge'
    · rw [skip_of_lt hlt']
      simp only [bind, Except.bind, demand]
      omega
    · exact le_demand hge' takes
  · rw [skip_of_le hge, skip_of_le (by rw [List.length_append]; omega)]
    exact there hge

/-- What is done with a value once it is there does not depend on the bytes behind it. -/
theorem Continues.bind {taken : β → Nat} {available more : Nat} {answer later : Except ReadFault α}
    {next : α → Except ReadFault β} (h : Continues size available more answer later)
    (fits : ∀ value, later = .ok value → size value ≤ available + more)
    (takes : ∀ value result, next value = .ok result → taken result = size value) :
    Continues taken available more (answer >>= next) (later >>= next) := by
  cases h with
  | found value => exact .same taken available more (next value)
  | refused refusal same => exact .refused refusal same
  | @pending missing later asks =>
    refine .pending (asks.trans ?_)
    rcases later with (_ | _ | _ | _ | _ | _ | _) | value
    case ok => exact le_demand (fits value rfl) fun result h => (takes value result h).ge
    all_goals exact le_rfl

end Answers

namespace ByteOrder

/-- A number is read the same when bytes follow it. -/
theorem field_append {order : ByteOrder} {offset width : Nat} {bs : List UInt8} (more : List UInt8)
    (h : offset + width ≤ bs.length) :
    order.field offset width (bs ++ more) = order.field offset width bs := by
  unfold field
  rw [List.drop_append_of_le_length (by omega),
    List.take_append_of_le_length (by rw [List.length_drop]; omega)]

theorem value_lt (order : ByteOrder) (bs : List UInt8) : order.value bs < 256 ^ bs.length := by
  have little : ∀ bs, value .little bs < 256 ^ bs.length := by
    intro bs
    induction bs with
    | nil => simp [value]
    | cons b bs ih =>
      have hb : b.toNat < 256 := b.toNat_lt
      simp only [value, List.foldr_cons, List.length_cons, pow_succ] at ih ⊢
      omega
  cases order with
  | little => exact little bs
  | big =>
    rw [value_big, ← List.length_reverse]
    exact little bs.reverse

theorem field_lt (order : ByteOrder) (offset width : Nat) (bs : List UInt8) :
    order.field offset width bs < 256 ^ width := by
  refine (order.value_lt _).trans_le (Nat.pow_le_pow_right (by norm_num) ?_)
  exact List.length_take_le _ _

end ByteOrder

/-! ### Records

The captured length of a record is read once the header is there, and the data
is stepped over behind it. -/

theorem RecordLayout.parse_append (layout : RecordLayout) (bs more : List UInt8) :
    Continues Found.size bs.length more.length (layout.parse bs) (layout.parse (bs ++ more)) := by
  have header := layout.sixteen_le_headerSize
  refine .skip_bind (fun there => ?_) fun found h => (parse_fits h).1
  simp only
  rw [ByteOrder.field_append more (by omega), skip_drop there,
    skip_drop (by rw [List.length_append]; omega)]
  refine .skip_bind (fun _ => .found _) fun found h => ?_
  obtain ⟨_, _, h⟩ := bind_eq_ok.1 h
  cases h
  exact le_rfl

namespace SectionBlock

/-! ### Blocks of sections

The frame of a block is cut out by three steps: over the least a block of its
kind has, over the body, and over the length behind it. The body is read when
it is all there, so what is found in it is the same whatever follows. -/

/-- The body and the twelve bytes around it make up at least the length of the block. -/
theorem le_bodyLength {length : Nat} (h : length < wordLimit) : length ≤ 8 + bodyLength length + 4 := by
  unfold bodyLength wordLimit at *
  omega

/-- The frame of a block whose length is known to be long enough. -/
def cut (order : ByteOrder) (length : Nat) (bs : List UInt8) : Except ReadFault Frame := do
  let trailer ← skip (bodyLength length) (bs.drop 8)
  let _ ← skip 4 trailer
  return ⟨length, (bs.drop 8).take (bodyLength length), order.field 0 4 trailer⟩

theorem frame_eq (order : ByteOrder) (minimum : Nat) (bs : List UInt8) :
    frame order minimum bs = skip (max 8 minimum) bs >>= fun _ =>
      if order.field 4 4 bs < minimum then .error (.damaged (bs.drop 8))
      else cut order (order.field 4 4 bs) bs := rfl

theorem cut_eq_ok {order : ByteOrder} {length : Nat} {bs : List UInt8} {frame : Frame}
    (h : 8 ≤ bs.length) : cut order length bs = .ok frame ↔
      8 + bodyLength length + 4 ≤ bs.length ∧
        ⟨length, (bs.drop 8).take (bodyLength length),
          order.field 0 4 (bs.drop (8 + bodyLength length))⟩ = frame := by
  unfold cut
  rw [skip_drop h, bind_eq_ok]
  simp only [bind_eq_ok, skip_eq_ok]
  constructor
  · rintro ⟨_, ⟨-, rfl⟩, _, ⟨trailer, -⟩, h⟩
    rw [List.length_drop] at trailer
    cases h
    exact ⟨by omega, rfl⟩
  · rintro ⟨there, rfl⟩
    refine ⟨_, ⟨by omega, rfl⟩, _, ⟨?_, rfl⟩, rfl⟩
    rw [List.length_drop]
    omega

/-- A frame takes its body and the twelve bytes around it. -/
theorem size_of_body {length trailer : Nat} {bs : List UInt8} (h : 8 + bodyLength length ≤ bs.length) :
    Frame.size ⟨length, (bs.drop 8).take (bodyLength length), trailer⟩ = 8 + bodyLength length + 4 := by
  simp only [Frame.size, List.length_take, List.length_drop]
  omega

/-- A frame has at least the bytes that its kind asks for. -/
theorem minimum_le_size {order : ByteOrder} {minimum : Nat} {bs : List UInt8} {frame : Frame}
    (h : SectionBlock.frame order minimum bs = .ok frame) : max 8 minimum ≤ frame.size := by
  rw [frame_eq] at h
  obtain ⟨_, head, h⟩ := bind_eq_ok.1 h
  split at h
  · simp at h
  · next long =>
    have there := (skip_eq_ok.1 head).1
    have bound := le_bodyLength (order.field_lt 4 4 bs)
    obtain ⟨body, rfl⟩ := (cut_eq_ok (by omega)).1 h
    rw [size_of_body (by omega)]
    omega

theorem cut_append (order : ByteOrder) (length : Nat) {bs : List UInt8} (more : List UInt8)
    (there : 8 ≤ bs.length) :
    Continues Frame.size bs.length more.length (cut order length bs) (cut order length (bs ++ more)) := by
  have grown : bs.length ≤ (bs ++ more).length := by
    rw [List.length_append]
    exact Nat.le_add_right _ _
  unfold cut
  rw [skip_drop there, skip_drop (there.trans grown)]
  refine .skip_bind (fun body => ?_) fun frame h => ?_
  · rw [skip_drop body, skip_drop (body.trans grown)]
    refine .skip_bind (fun trailer => ?_) fun frame h => ?_
    · rw [List.drop_append_of_le_length there, List.drop_append_of_le_length body,
        List.take_append_of_le_length (by rw [List.length_drop]; omega),
        ByteOrder.field_append more (by rw [List.length_drop]; omega)]
      exact .found _
    · obtain ⟨_, _, h⟩ := bind_eq_ok.1 h
      cases h
      exact (size_of_body (body.trans grown)).ge
  · rw [← skip_drop (there.trans grown)] at h
    obtain ⟨body, rfl⟩ := (cut_eq_ok (there.trans grown)).1 h
    rw [size_of_body (by omega)]
    omega

theorem frame_append (order : ByteOrder) (minimum : Nat) (bs more : List UInt8) :
    Continues Frame.size bs.length more.length (frame order minimum bs)
      (frame order minimum (bs ++ more)) := by
  refine .skip_bind (fun there => ?_) fun cut h => minimum_le_size h
  have there : 8 ≤ bs.length := (le_max_left 8 minimum).trans there
  simp only
  rw [ByteOrder.field_append more there]
  by_cases short : order.field 4 4 bs < minimum
  · rw [if_pos short, if_pos short, List.drop_append_of_le_length there]
    exact .refused (by rintro _ ⟨⟩) (List.prefix_append _ _)
  · rw [if_neg short, if_neg short]
    exact cut_append order _ more there

theorem parseKind_append (order : ByteOrder) (kind : Kind) (bs more : List UInt8) :
    Continues Found.size bs.length more.length (parseKind order kind bs)
      (parseKind order kind (bs ++ more)) := by
  refine (frame_append order kind.minimum bs more).bind (fun frame h => ?_) fun frame found h => ?_
  · rw [← List.length_append]
    exact frame_fits h
  · obtain ⟨_, _, h⟩ := bind_eq_ok.1 h
    simp only at h
    split at h
    · cases h
    · cases h
      rfl

/-- The mark of a section header is the four bytes in front. -/
theorem markedOrder?_append {bs : List UInt8} (more : List UInt8) (h : 4 ≤ bs.length) :
    markedOrder? (bs ++ more) = markedOrder? bs := by
  match bs, h with
  | a :: b :: c :: d :: bs, _ =>
    simp only [List.cons_append]
    unfold markedOrder?
    split <;> split <;> simp_all

theorem parse_append (order : ByteOrder) (bs more : List UInt8) :
    Continues Found.size bs.length more.length (parse order bs) (parse order (bs ++ more)) := by
  refine .skip_bind (fun there => ?_) fun found h => by have := (parse_fits h).1; omega
  rw [ByteOrder.field_append more there]
  cases hk : Kind.ofCode (order.field 0 4 bs) with
  | sectionHeader =>
    refine .skip_bind (fun mark => ?_) fun found h => ?_
    · rw [List.drop_append_of_le_length (by omega),
        markedOrder?_append more (by rw [List.length_drop]; omega)]
      cases markedOrder? (bs.drop 8) with
      | none => exact .refused (by rintro _ ⟨⟩) rfl
      | some own => exact parseKind_append own .sectionHeader bs more
    · obtain ⟨_, _, h⟩ := bind_eq_ok.1 h
      split at h
      · exact (parseKind_fits h).1
      · simp at h
  | _ => exact parseKind_append order _ bs more

end SectionBlock

/-! ### Either format -/

namespace Format

/-- **What more bytes do to an answer.** A block stays, a refusal stays but for
the bytes it quotes, and an incomplete block asks for no less. -/
theorem parse_append (format : Format) (bs more : List UInt8) :
    Continues Found.size bs.length more.length (format.parse bs) (format.parse (bs ++ more)) := by
  cases format with
  | records layout => exact layout.parse_append bs more
  | sections order => exact SectionBlock.parse_append order bs more

theorem parse_append_of_ok {format : Format} {bs : List UInt8} {found : Found} (more : List UInt8)
    (h : format.parse bs = .ok found) : format.parse (bs ++ more) = .ok found := by
  have grown := format.parse_append bs more
  rw [h] at grown
  generalize format.parse (bs ++ more) = later at grown ⊢
  cases grown
  rfl

theorem parse_append_of_refused {format : Format} {bs : List UInt8} {fault : ReadFault}
    (more : List UInt8) (refusal : fault.IsRefusal) (h : format.parse bs = .error fault) :
    ∃ whole, format.parse (bs ++ more) = .error whole ∧ whole.IsRefusal ∧ fault.Abridges whole := by
  have grown := format.parse_append bs more
  rw [h] at grown
  generalize format.parse (bs ++ more) = later at grown ⊢
  cases grown with
  | refused _ same =>
    refine ⟨_, rfl, fun missing h => ?_, same⟩
    subst h
    cases fault with
    | incomplete missing => exact refusal missing rfl
    | _ => cases same
  | pending => exact absurd rfl (refusal _)

/-- An incomplete block asks for no more than what comes of it. -/
theorem le_demand_of_append {format : Format} {bs : List UInt8} {missing : Nat} (more : List UInt8)
    (h : format.parse bs = .error (.incomplete missing)) :
    bs.length + missing ≤ demand Found.size (bs ++ more).length (format.parse (bs ++ more)) := by
  have grown := format.parse_append bs more
  rw [h] at grown
  rw [List.length_append]
  generalize format.parse (bs ++ more) = later at grown ⊢
  cases grown with
  | refused refusal => exact absurd rfl (refusal _)
  | pending asks => exact asks

/-! ### The opening of a capture -/

/-- The bytes in front are the whole header that opens a capture of a format. -/
inductive Opens : Format → List UInt8 → Prop
  | records {layout : RecordLayout} {bs : List UInt8} (magic : RecordLayout.ofMagic? bs = some layout)
      (header : fileHeaderSize ≤ bs.length) : Opens (.records layout) bs
  | sections {order : ByteOrder} {size : Nat} {bs : List UInt8}
      (header : SectionBlock.parse .little bs = .ok ⟨size, .sectionHeader order⟩) :
      Opens (.sections .little) bs

end Format

namespace SectionBlock

/-- Only the body of a section header is read as one. -/
theorem Kind.eq_of_read_header {kind : Kind} {order own : ByteOrder} {length : Nat}
    {body rest : List UInt8} (h : kind.read order length body = .ok (.sectionHeader own, rest)) :
    kind = .sectionHeader := by
  unfold Kind.read at h
  cases kind with
  | sectionHeader => rfl
  | uninterpreted => cases h
  | enhancedPacket =>
    obtain ⟨_, _, h⟩ := bind_eq_ok.1 h
    dsimp only at h
    split at h
    · cases h
    · obtain ⟨_, _, h⟩ := bind_eq_ok.1 h
      obtain ⟨_, _, h⟩ := bind_eq_ok.1 h
      cases h
  | secrets =>
    obtain ⟨_, _, h⟩ := bind_eq_ok.1 h
    dsimp only at h
    split at h
    · cases h
    · obtain ⟨_, _, h⟩ := bind_eq_ok.1 h
      obtain ⟨_, _, h⟩ := bind_eq_ok.1 h
      cases h
  | simplePacket | custom =>
    obtain ⟨_, _, h⟩ := bind_eq_ok.1 h
    simp [bind_eq_ok, pure, Except.pure] at h
  | interface | names | statistics | process =>
    obtain ⟨_, _, h⟩ := bind_eq_ok.1 h
    obtain ⟨_, _, h⟩ := bind_eq_ok.1 h
    cases h

theorem code_of_parse_header {order own : ByteOrder} {size : Nat} {bs : List UInt8}
    (h : parse order bs = .ok ⟨size, .sectionHeader own⟩) :
    Kind.ofCode (order.field 0 4 bs) = .sectionHeader := by
  unfold parse at h
  obtain ⟨_, _, h⟩ := bind_eq_ok.1 h
  split at h
  · assumption
  next kind other =>
  obtain ⟨frame, _, h⟩ := bind_eq_ok.1 h
  obtain ⟨⟨block, rest⟩, read, h⟩ := bind_eq_ok.1 h
  simp only at h
  split at h
  · cases h
  · cases h
    exact Kind.eq_of_read_header read

end SectionBlock

namespace RecordLayout

theorem ofMagic?_append {layout : RecordLayout} {bs : List UInt8} (more : List UInt8)
    (h : ofMagic? bs = some layout) : ofMagic? (bs ++ more) = some layout := by
  unfold ofMagic? at h
  split at h
  case h_6 => cases h
  all_goals
    rw [← h]
    rfl

/-- The magic of a file of records does not open a section. -/
theorem parse_ne_header_of_magic {layout : RecordLayout} {bs : List UInt8}
    (h : ofMagic? bs = some layout) (size : Nat) (own : ByteOrder) :
    SectionBlock.parse .little bs ≠ .ok ⟨size, .sectionHeader own⟩ := by
  intro parsed
  have code := SectionBlock.code_of_parse_header parsed
  unfold ofMagic? at h
  split at h
  case h_6 => cases h
  all_goals
    simp [ByteOrder.field, ByteOrder.value, SectionBlock.Kind.ofCode, SectionBlock.headerCode] at code

end RecordLayout

namespace Format

/-- A format is detected exactly when its header is there as a whole. -/
theorem detect_eq_ok {format : Format} {bs : List UInt8} : detect bs = .ok format ↔ format.Opens bs := by
  constructor
  · intro h
    unfold detect at h
    split at h
    · next header =>
      cases h
      exact .sections header
    split at h
    · simp at h
    split at h
    · simp at h
    next magic =>
    split at h
    · simp at h
    · next short =>
      cases h
      exact .records magic (shortfall_eq_zero.1 (Nat.eq_zero_of_not_pos short))
  · rintro (⟨magic, header⟩ | header)
    · unfold detect
      split
      · next parsed => exact absurd parsed (RecordLayout.parse_ne_header_of_magic magic _ _)
      · rw [shortfall_eq_zero.2 header, shortfall_eq_zero.2 ((by decide : 4 ≤ fileHeaderSize).trans header),
          magic]
        rfl
    · simp only [detect, header]

theorem Opens.append {format : Format} {bs : List UInt8} (more : List UInt8) (h : format.Opens bs) :
    format.Opens (bs ++ more) := by
  cases h with
  | records magic header =>
    exact .records (RecordLayout.ofMagic?_append more magic) (by rw [List.length_append]; omega)
  | @sections order size bs header =>
    have kept : parse (.sections .little) (bs ++ more) = .ok ⟨size, .sectionHeader order⟩ :=
      parse_append_of_ok more header
    exact .sections kept

end Format
end CapturePace
