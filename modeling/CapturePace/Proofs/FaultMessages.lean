/-
# A message tells its fault

Two faults with the same message are the same fault. A message starts with words
for the kind of fault, and no such lead is the front of another one
(`PrefixFree`). So the lead can be told from what follows it, be it the
system's own words, and no message can be taken for one of another kind. The
message of a cause is in turn a lead and details, so this is used twice. What is
left is to tell faults of one kind by their details.

Details are texts, numbers and lists of bytes. A number ends where its digits
end, and the bytes of a list are found one after the other, by induction on the
list. A byte is followed by more bytes or by the bracket, so the induction is on
what stands behind a byte (`furtherBytes`) and not on the joined text, where the first
byte has no comma in front of it.

Key definitions: `PrefixFree`, `furtherBytes`, `ReadFault.Kind.lead`, `ReadFault.details`,
`CaptureFault.Kind.lead`, `CaptureFault.details`.
Key theorems: `PrefixFree.message_inj`, `bracketed_inj`, `ReadFault.message_inj`,
`CaptureFault.message_inj`, `CaptureFault.message_tells`.
-/
import CapturePace.Proofs.RecordedTimes

namespace CapturePace

/-! ## Leads -/

/-- Texts none of which is the front of another one. -/
def PrefixFree {ι : Type} (lead : ι → String) : Prop :=
  ∀ i j, (lead i).toList <+: (lead j).toList → i = j

/-- **A lead can be told from what follows it.** -/
theorem PrefixFree.append_inj {ι : Type} {lead : ι → String} (free : PrefixFree lead) {i j : ι}
    {rest rest' : String} : lead i ++ rest = lead j ++ rest' ↔ i = j ∧ rest = rest' := by
  constructor
  · intro same
    -- both leads are fronts of one text, so one of them is a front of the other
    have front : (lead i).toList <+: (lead i ++ rest).toList := by
      rw [String.toList_append]
      exact List.prefix_append _ _
    have front' : (lead j).toList <+: (lead i ++ rest).toList := by
      rw [same, String.toList_append]
      exact List.prefix_append _ _
    have leads : i = j := by
      rcases List.prefix_or_prefix_of_prefix front front' with shorter | longer
      · exact free i j shorter
      · exact (free j i longer).symm
    subst leads
    exact ⟨rfl, (String.append_right_inj _).1 same⟩
  · rintro ⟨rfl, rfl⟩
    rfl

/-- **A message tells what it is about** if its lead tells the kind, and its details
what it is among those of the kind. -/
theorem PrefixFree.message_inj {α ι : Type} {kind : α → ι} {lead : ι → String} {message details : α → String}
    (free : PrefixFree lead) (message_eq : ∀ a, message a = lead (kind a) ++ details a)
    (eq_of_details : ∀ a b, kind a = kind b → details a = details b → a = b) {a b : α} :
    message a = message b ↔ a = b := by
  refine ⟨fun same => ?_, congrArg message⟩
  rw [message_eq, message_eq, free.append_inj] at same
  exact eq_of_details a b same.1 same.2

/-! ## Lists of bytes -/

section Bytes

variable {n n' : ℕ} {bs bs' : List UInt8}

/-- A number ends where its digits end. -/
theorem toDigits_append_inj {c c' : Char} {cs cs' : List Char} (stops : c.isDigit = false)
    (stops' : c'.isDigit = false) :
    Nat.toDigits 10 n ++ c :: cs = Nat.toDigits 10 n' ++ c' :: cs' ↔ n = n' ∧ c :: cs = c' :: cs' := by
  have digits (n : ℕ) : ∀ c ∈ Nat.toDigits 10 n, c.isDigit := fun _ mem =>
    Nat.isDigit_of_mem_toDigits (by decide) (by decide) mem
  constructor
  · intro same
    have read := congrArg spanDigits same
    rw [spanDigits_append (digits n) stops, spanDigits_append (digits n') stops', Prod.mk.injEq] at read
    obtain ⟨written, behind⟩ := read
    have number : n = n' := by
      rw [← Nat.ofDigitChars_ten_toDigits (n := n), written, Nat.ofDigitChars_ten_toDigits]
    exact ⟨number, behind⟩
  · rintro ⟨rfl, behind⟩
    rw [behind]

/-- What stands behind a byte in brackets: the bytes that follow, each with a comma
in front, and the bracket. -/
def furtherBytes : List UInt8 → List Char
  | [] => [']']
  | b :: bs => ',' :: ' ' :: (Nat.toDigits 10 b.toNat ++ furtherBytes bs)

theorem furtherBytes_starts (bs : List UInt8) : ∃ c cs, furtherBytes bs = c :: cs ∧ c.isDigit = false := by
  cases bs with
  | nil => exact ⟨']', [], rfl, by decide⟩
  | cons b bs => exact ⟨',', _, rfl, by decide⟩

theorem toDigits_append_furtherBytes_inj :
    Nat.toDigits 10 n ++ furtherBytes bs = Nat.toDigits 10 n' ++ furtherBytes bs' ↔
      n = n' ∧ furtherBytes bs = furtherBytes bs' := by
  obtain ⟨c, cs, starts, stops⟩ := furtherBytes_starts bs
  obtain ⟨c', cs', starts', stops'⟩ := furtherBytes_starts bs'
  rw [starts, starts', toDigits_append_inj stops stops']

theorem furtherBytes_inj : furtherBytes bs = furtherBytes bs' ↔ bs = bs' := by
  refine ⟨fun same => ?_, congrArg furtherBytes⟩
  induction bs generalizing bs' with
  | nil =>
    cases bs' with
    | nil => rfl
    | cons b' bs' => simp [furtherBytes] at same
  | cons b bs ih =>
    cases bs' with
    | nil => simp [furtherBytes] at same
    | cons b' bs' =>
      rw [furtherBytes, furtherBytes, List.cons.injEq, List.cons.injEq, toDigits_append_furtherBytes_inj,
        UInt8.toNat_inj] at same
      obtain ⟨-, -, byte, more⟩ := same
      rw [byte, ih more]

theorem toList_bracketed_cons (b : UInt8) (bs : List UInt8) :
    (decimalBytes (b :: bs) ++ "]").toList = Nat.toDigits 10 b.toNat ++ furtherBytes bs := by
  rw [String.toList_append, decimalBytes, String.toList_intercalate]
  induction bs generalizing b with
  | nil => simp [furtherBytes]
  | cons next bs ih =>
    have more := ih next
    rw [List.map_cons] at more
    rw [furtherBytes, ← more]
    simp

/-- The list without bytes is no other list. -/
theorem bracket_ne (n : ℕ) (bs : List UInt8) : "]".toList ≠ Nat.toDigits 10 n ++ furtherBytes bs := by
  obtain ⟨c, cs, starts, -⟩ := furtherBytes_starts bs
  have written : Nat.toDigits 10 n ≠ [] := Nat.toDigits_ne_nil
  intro same
  rcases List.singleton_eq_append_iff.1 same with ⟨digits, -⟩ | ⟨-, behind⟩
  · exact written digits
  · rw [starts] at behind
    cases behind

/-- **A list of bytes can be told from its text.** -/
theorem bracketed_inj : decimalBytes bs ++ "]" = decimalBytes bs' ++ "]" ↔ bs = bs' := by
  refine ⟨fun same => ?_, fun same => by rw [same]⟩
  rw [← String.toList_inj] at same
  cases bs with
  | nil =>
    cases bs' with
    | nil => rfl
    | cons b' bs' =>
      rw [toList_bracketed_cons] at same
      exact absurd same (bracket_ne b'.toNat bs')
  | cons b bs =>
    cases bs' with
    | nil =>
      rw [toList_bracketed_cons] at same
      exact absurd same.symm (bracket_ne b.toNat bs)
    | cons b' bs' =>
      rw [toList_bracketed_cons, toList_bracketed_cons, toDigits_append_furtherBytes_inj, UInt8.toNat_inj,
        furtherBytes_inj] at same
      rw [same.1, same.2]

end Bytes

/-! ## Read faults -/

namespace ReadFault

/-- The kinds of read faults. -/
inductive Kind where
  | endOfInput
  | windowTooSmall
  | unexpectedEnd
  | readFailed
  | incomplete
  | unknownHeader
  | damaged
  deriving DecidableEq

/-- The kind of a read fault. -/
def kind : ReadFault → Kind
  | .endOfInput => .endOfInput
  | .windowTooSmall => .windowTooSmall
  | .unexpectedEnd => .unexpectedEnd
  | .readFailed => .readFailed
  | .incomplete _ => .incomplete
  | .unknownHeader => .unknownHeader
  | .damaged _ => .damaged

/-- What the messages of a kind start with. -/
def Kind.lead : Kind → String
  | .endOfInput => "End of file"
  | .windowTooSmall => "Buffer is too small"
  | .unexpectedEnd => "Unexpected end of file"
  | .readFailed => "Read error"
  | .incomplete => "Incomplete read: "
  | .unknownHeader => "Header not recognized as PCAP or PCAPNG"
  | .damaged => "Internal parser error Verify, input ["

/-- What a message says behind its lead. -/
def details : ReadFault → String
  | .incomplete missing => toString missing
  | .damaged rest => decimalBytes rest ++ "]"
  | _ => ""

variable {fault other : ReadFault}

theorem prefixFree_lead : PrefixFree Kind.lead := by
  intro kind other
  cases kind <;> cases other <;> decide

theorem message_eq (fault : ReadFault) : fault.message = fault.kind.lead ++ fault.details := by
  cases fault with
  | damaged rest => exact String.append_assoc
  | _ => rfl

/-- The details tell a fault from the others of its kind. -/
theorem eq_of_details (kind : fault.kind = other.kind) (details : fault.details = other.details) :
    fault = other := by
  cases fault with
  | incomplete missing =>
    cases other with
    | incomplete missing' => rw [Nat.repr_inj.1 details]
    | _ => cases kind
  | damaged rest =>
    cases other with
    | damaged rest' => rw [bracketed_inj.1 details]
    | _ => cases kind
  | _ =>
    cases other <;> cases kind
    rfl

/-- **A message tells its read fault.** -/
theorem message_inj : fault.message = other.message ↔ fault = other :=
  prefixFree_lead.message_inj message_eq fun _ _ => eq_of_details

end ReadFault

theorem Misuse.message_inj {misuse other : Misuse} : misuse.message = other.message ↔ misuse = other := by
  cases misuse <;> cases other <;> decide

/-! ## Capture faults -/

namespace CaptureFault

/-- The kinds of capture faults. -/
inductive Kind where
  | io
  | empty
  | truncated
  | malformed
  | misused
  deriving DecidableEq

/-- The kind of a capture fault. -/
def kind : CaptureFault → Kind
  | .io _ => .io
  | .empty => .empty
  | .truncated _ => .truncated
  | .malformed _ => .malformed
  | .misused _ => .misused

/-- What the messages of a kind start with. -/
def Kind.lead : Kind → String
  | .io => "I/O error: "
  | .empty => "empty capture"
  | .truncated => "truncated capture after "
  | .malformed => "invalid capture: "
  | .misused => "timer error: "

/-- What a message says behind its lead. -/
def details : CaptureFault → String
  | .io text => text
  | .empty => ""
  | .truncated consumed => toString consumed ++ " bytes"
  | .malformed fault => fault.message
  | .misused misuse => misuse.message

variable {fault other : CaptureFault} {words : String}

theorem prefixFree_lead : PrefixFree Kind.lead := by
  intro kind other
  cases kind <;> cases other <;> decide

theorem message_eq (fault : CaptureFault) : fault.message = fault.kind.lead ++ fault.details := by
  cases fault with
  | truncated consumed => exact String.append_assoc
  | _ => rfl

/-- The details tell a fault from the others of its kind. -/
theorem eq_of_details (kind : fault.kind = other.kind) (details : fault.details = other.details) :
    fault = other := by
  cases fault with
  | io text =>
    cases other with
    | io text' => exact congrArg io details
    | _ => cases kind
  | empty =>
    cases other with
    | empty => rfl
    | _ => cases kind
  | truncated consumed =>
    cases other with
    | truncated consumed' => rw [Nat.repr_inj.1 ((String.append_left_inj _).1 details)]
    | _ => cases kind
  | malformed fault =>
    cases other with
    | malformed fault' => rw [ReadFault.message_inj.1 details]
    | _ => cases kind
  | misused misuse =>
    cases other with
    | misused misuse' => rw [Misuse.message_inj.1 details]
    | _ => cases kind

/-- **A message tells its capture fault.** -/
theorem message_inj : fault.message = other.message ↔ fault = other :=
  prefixFree_lead.message_inj message_eq fun _ _ => eq_of_details

/-- The system's words cannot pass for another fault. -/
example : (io "timer error: timer is not running").message ≠ (misused .notRunning).message := by decide

theorem message_eq_lead_append_iff : fault.message = fault.kind.lead ++ words ↔ fault.details = words := by
  rw [message_eq, String.append_right_inj]

/-- Of the faults that were caused by another one, the details are the message of the cause. -/
theorem cause_eq_some_iff : fault.cause = some words ↔
    (fault.kind = .io ∨ fault.kind = .malformed ∨ fault.kind = .misused) ∧ fault.details = words := by
  cases fault <;> simp [cause, kind, details]

theorem isSome_cause_iff : fault.cause.isSome ↔
    fault.kind = .io ∨ fault.kind = .malformed ∨ fault.kind = .misused := by
  simp only [Option.isSome_iff_exists, cause_eq_some_iff, exists_and_left, exists_eq', and_true]

/-- **A message tells its fault.** Faults with the same message are the same, with all
that they carry. There is a cause exactly if the system, the reader or the stopwatch
caused the fault, and its message is what they say. The message of the fault is then
the lead of its kind, and behind it the message of the cause. No lead is the
front of another one. -/
theorem message_tells :
    (∀ fault other : CaptureFault, fault.message = other.message ↔ fault = other) ∧
    (∀ fault : CaptureFault, fault.cause.isSome ↔
      fault.kind = .io ∨ fault.kind = .malformed ∨ fault.kind = .misused) ∧
    (∀ (fault : CaptureFault) (words : String), fault.cause = some words ↔
      fault = .io words ∨ (∃ read : ReadFault, fault = .malformed read ∧ read.message = words) ∨
        ∃ misuse : Misuse, fault = .misused misuse ∧ misuse.message = words) ∧
    (∀ (fault : CaptureFault) (words : String), fault.cause = some words ↔
      (fault.kind = .io ∨ fault.kind = .malformed ∨ fault.kind = .misused) ∧
        fault.message = fault.kind.lead ++ words) ∧
    ∀ kind other : Kind, kind.lead.toList <+: other.lead.toList ↔ kind = other := by
  refine ⟨fun fault other => message_inj, fun fault => isSome_cause_iff, fun fault words => ?_,
    fun fault words => ?_, fun kind other => ?_⟩
  · cases fault <;> simp [cause]
  · rw [cause_eq_some_iff, message_eq_lead_append_iff]
  · refine ⟨prefixFree_lead kind other, ?_⟩
    rintro rfl
    exact List.prefix_rfl

end CaptureFault
end CapturePace
