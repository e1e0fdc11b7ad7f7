/-
# No byte is lost on the way

At every head of the loop each byte of the source is in one place: in a block
that was taken, in the window, or still to be read (`Pass.Account`). Taking a
block moves its bytes from the second place to the first, and a read moves
bytes from the third to the second. The window stays within the buffer, since
taking a block moves its front on by as much as it becomes shorter. So the
account is kept by every turn (`Pass.Account.turn`), and by induction on the
row of passes it holds at every head of the loop (`Pass.Account.visits`).

A pass reads on only for a block that would leave a byte of the buffer free.
Once the window is at the start of the buffer there is room, so what a read
brings is at least one byte, or the news that the source has ended
(`Pass.ReadsOn`). That it brings neither is guarded against, and never happens.

Key definitions: `Pass.taking?`, `Pass.taken`, `Pass.Account`, `Pass.ReadsOn`.
Key theorems: `Pass.Account.turn`, `Pass.Account.visits`, `Pass.readsOn_of_refill`,
`ByteSource.visits_account`.
-/
import CapturePace.Proofs.Fronts
import CapturePace.Proofs.Moves
import CapturePace.Proofs.Written

namespace CapturePace

open WrittenBlock (bytesOf)

namespace WrittenBlock

theorem bytesOf_snoc (front : List WrittenBlock) (written : WrittenBlock) :
    bytesOf (front ++ [written]) = bytesOf front ++ written.bytes := by
  simp [bytesOf]

theorem tally_snoc (front : List WrittenBlock) (written : WrittenBlock) :
    tally (front ++ [written]) = (tally front).count written.block := by
  rw [← foldl_count_empty, ← foldl_count_empty, List.foldl_append]
  rfl

/-- The bytes are those of one block: the header of a file of records, or what some
format reads as this block, and nothing behind it. -/
def Whole (written : WrittenBlock) : Prop :=
  written.block = .fileHeader ∧ written.bytes.length = fileHeaderSize ∨
    ∃ format : Format, format.parse written.bytes = .ok ⟨written.bytes.length, written.block⟩

theorem Whole.twelve_le {written : WrittenBlock} (whole : written.Whole) : 12 ≤ written.bytes.length := by
  rcases whole with ⟨-, size⟩ | ⟨format, parsed⟩
  · rw [size]
    decide
  · exact (Format.parse_fits parsed).1

end WrittenBlock

namespace Pass

/-- The block that a pass takes next, if it takes one, with its bytes. -/
def taking? (capacity : Nat) (pass : Pass) : Option WrittenBlock :=
  match pass.move capacity with
  | .block found => some ⟨pass.window.take found.size, found.block⟩
  | .refill _ => none
  | .stop _ => none

/-- The blocks that a row of passes takes. -/
def taken (capacity : Nat) (passes : List Pass) : List WrittenBlock :=
  passes.filterMap (taking? capacity)

/-- What is true of a pass over a source when these blocks have been taken. -/
structure Account (source : ByteSource) (capacity : Nat) (blocks : List WrittenBlock) (pass : Pass) :
    Prop where
  /-- Every byte is in a block, in the window, or still to be read. -/
  bytes : bytesOf blocks ++ pass.window ++ pass.source.bytes = source.bytes
  whole : ∀ written ∈ blocks, written.Whole
  consumed : pass.consumed = (bytesOf blocks).length
  counted : pass.tally = WrittenBlock.tally blocks
  /-- The window lies in the buffer. -/
  within : pass.position + pass.window.length ≤ capacity
  /-- Reads use the schedule up from its front. -/
  schedule : pass.source.schedule <:+ source.schedule

/-- The pass reads more, and has `next` to show for it: its window at the start of
the buffer, and behind it at least one byte or the end of the source. -/
structure ReadsOn (capacity : Nat) (pass next : Pass) : Prop where
  room : 0 < capacity - pass.window.length
  read : pass.readMore? capacity = some next
  start : next.position = 0
  effect : pass.window.length < next.window.length ∨ next.exhausted = true
  /-- The guard against a read without effect lets it go on. -/
  goes : pass.turn capacity = .more next

variable {source : ByteSource} {capacity : Nat} {pass next now : Pass} {blocks : List WrittenBlock}

theorem taken_cons (capacity : Nat) (pass : Pass) (passes : List Pass) :
    taken capacity (pass :: passes) = (pass.taking? capacity).toList ++ taken capacity passes := by
  unfold taken
  cases taking : pass.taking? capacity with
  | none => rw [List.filterMap_cons_none taking, Option.toList_none, List.nil_append]
  | some written => rw [List.filterMap_cons_some taking, Option.toList_some, List.singleton_append]

theorem taking?_of_over {result : Except CaptureFault Tally} (h : pass.turn capacity = .over result) :
    pass.taking? capacity = none := by
  have none := isBlock_of_over h
  unfold taking?
  cases made : pass.move capacity with
  | block found =>
    rw [made] at none
    cases none
  | refill read => rfl
  | stop result => rfl

/-! ### What a turn keeps -/

namespace Account

/-- Taking a block moves its bytes out of the window. -/
theorem take (account : Account source capacity blocks pass) (settled : pass.Settled capacity)
    {found : Found} (made : pass.move capacity = .block found) :
    Account source capacity (blocks ++ [⟨pass.window.take found.size, found.block⟩])
      { pass.take capacity found with headerDue := false } := by
  have fits := (settled.of_move_block made).2
  have size : (pass.window.take found.size).length = found.size := List.length_take_of_le fits
  refine ⟨?_, ?_, ?_, ?_, ?_, account.schedule⟩
  · rw [← account.bytes, WrittenBlock.bytesOf_snoc]
    simp only [Pass.take, List.append_assoc, List.take_append_drop]
  · intro written mem
    rcases List.mem_append.1 mem with mem | mem
    · exact account.whole written mem
    · rw [List.mem_singleton.1 mem]
      rcases block_cases made with ⟨due, rfl⟩ | parsed
      · exact .inl ⟨rfl, size⟩
      · exact .inr ⟨pass.format, Format.parse_take_size parsed⟩
  · rw [WrittenBlock.bytesOf_snoc, List.length_append, size, ← account.consumed]
    rfl
  · rw [WrittenBlock.tally_snoc, ← account.counted]
    rfl
  · have within := account.within
    simp only [Pass.take, List.length_drop]
    split <;> omega

/-- A read moves bytes into the window. -/
theorem read (account : Account source capacity blocks pass) (settled : pass.Settled capacity)
    {got : List UInt8} {rest : ByteSource} (made : pass.move capacity = .refill (some (got, rest))) :
    Account source capacity blocks { pass with
      window := pass.window ++ got, position := 0, exhausted := got.isEmpty, source := rest } := by
  obtain ⟨-, called⟩ := of_move_refill made
  refine ⟨?_, account.whole, account.consumed, account.counted, ?_, ?_⟩
  · rw [← account.bytes, ← ByteSource.read?_bytes called]
    simp only [List.append_assoc]
  · have fits := ByteSource.read?_room called
    have shown := settled.window_le
    simp only [List.length_append]
    omega
  · rw [ByteSource.read?_schedule called]
    exact (List.tail_suffix _).trans account.schedule

/-- **A turn loses no byte**, and counts the block that it takes. -/
theorem turn (account : Account source capacity blocks pass) (settled : pass.Settled capacity)
    (h : pass.turn capacity = .more next) :
    Account source capacity (blocks ++ (pass.taking? capacity).toList) next := by
  rw [← carryOut_move] at h
  unfold taking?
  rcases made : pass.move capacity with found | (_ | ⟨got, rest⟩) | result <;> rw [made] at h
  · cases h
    exact account.take settled made
  · cases h
  · cases h
    rw [Option.toList_none, List.append_nil]
    exact account.read settled made
  · cases h

/-- **The account holds at every head of the loop.** -/
theorem visits (account : Account source capacity blocks pass) (settled : pass.Settled capacity)
    {before after : List Pass} (row : pass.visits capacity = before ++ now :: after) :
    Account source capacity (blocks ++ taken capacity before) now := by
  fun_induction Pass.visits capacity pass generalizing blocks before with
  | case1 pass next h ih =>
    cases before with
    | nil =>
      cases row
      rw [taken, List.filterMap_nil, List.append_nil]
      exact account
    | cons first before =>
      rw [List.cons_append] at row
      obtain ⟨rfl, behind⟩ := List.cons.inj row
      have later := ih (account.turn settled h) (settled.turn h) behind
      rwa [List.append_assoc, ← taken_cons] at later
  | case2 pass result h =>
    cases before with
    | nil =>
      cases row
      rw [taken, List.filterMap_nil, List.append_nil]
      exact account
    | cons first before =>
      rw [List.cons_append] at row
      exact absurd (List.cons.inj row).2 (by simp)

/-- The account of the pass that is over is that of all blocks. -/
theorem last (account : Account source capacity blocks pass) (settled : pass.Settled capacity) :
    ∃ last, last.turn capacity = .over (pass.run capacity) ∧
      Account source capacity (blocks ++ taken capacity (pass.visits capacity)) last := by
  fun_induction Pass.visits capacity pass generalizing blocks with
  | case1 pass next h ih =>
    obtain ⟨last, ends, later⟩ := ih (account.turn settled h) (settled.turn h)
    rw [List.append_assoc, ← taken_cons] at later
    rw [run_of_more h]
    exact ⟨last, ends, later⟩
  | case2 pass result h =>
    rw [taken_cons, taking?_of_over h, run_of_over h, taken, List.filterMap_nil, Option.toList_none,
      List.append_nil, List.append_nil]
    exact ⟨pass, h, account⟩

end Account

/-! ### What reads bring -/

/-- **A read that does not fail has room, and brings a byte or the end of the source.** -/
theorem readsOn_of_refill {got : List UInt8} {rest : ByteSource}
    (made : pass.move capacity = .refill (some (got, rest))) :
    pass.ReadsOn capacity { pass with
      window := pass.window ++ got, position := 0, exhausted := got.isEmpty, source := rest } := by
  obtain ⟨-, called, missing, -, fits⟩ := refill_cases made
  refine ⟨by omega, ?_, rfl, ?_, ?_⟩
  · rw [readMore?, called]
  · cases got with
    | nil => exact .inr rfl
    | cons b got => exact .inl (by simp)
  · rw [← carryOut_move, made]
    rfl

/-- More is read only where there is room. -/
theorem room_of_refill {read : Option (List UInt8 × ByteSource)} (made : pass.move capacity = .refill read) :
    0 < capacity - pass.window.length := by
  obtain ⟨-, -, missing, -, fits⟩ := refill_cases made
  omega

/-- What a pass can do when it reads more: go on, or fail if the schedule says so. -/
theorem Account.reads (account : Account source capacity blocks pass)
    {read : Option (List UInt8 × ByteSource)} (made : pass.move capacity = .refill read) :
    read = none ∧ .fail ∈ source.schedule ∨ ∃ next, pass.ReadsOn capacity next := by
  cases read with
  | none =>
    obtain ⟨-, called⟩ := of_move_refill made
    exact .inl ⟨rfl, account.schedule.mem (ByteSource.fail_mem_of_read? called)⟩
  | some read => exact .inr ⟨_, readsOn_of_refill made⟩

/-- A pass that is opened has taken nothing. -/
theorem account_of_begin (h : Pass.begin capacity source = .ok pass) : Account source capacity [] pass := by
  have settled := settled_of_begin h
  have bytes := bytes_of_begin h
  obtain ⟨first, rest, second, rest', format, read, -, read', rfl⟩ := begin_eq_ok.1 h
  refine ⟨bytes, List.forall_mem_nil _, rfl, rfl, ?_, ?_⟩
  · rw [Nat.zero_add]
    exact settled.window_le
  · rw [ByteSource.read?_schedule read', ByteSource.read?_schedule read]
    exact (List.tail_suffix _).trans (List.tail_suffix _)

end Pass

namespace ByteSource

/-- The account holds at every head of the loop over a source. -/
theorem account_of_visits {source : ByteSource} {capacity : Nat} {before after : List Pass} {now : Pass}
    (row : source.visits capacity = before ++ now :: after) :
    Pass.Account source capacity (Pass.taken capacity before) now := by
  by_cases made : capacity ≤ bufferLimit
  · cases h : Pass.begin capacity source with
    | ok start =>
      rw [visits_of_begin made h] at row
      exact (Pass.account_of_begin h).visits (Pass.settled_of_begin h) row
    | error fault =>
      rw [visits_of_error h] at row
      exact absurd row.symm (List.append_ne_nil_of_right_ne_nil _ (List.cons_ne_nil _ _))
  · rw [visits_of_lt (Nat.lt_of_not_le made)] at row
    exact absurd row.symm (List.append_ne_nil_of_right_ne_nil _ (List.cons_ne_nil _ _))

/-- **No byte is lost, taken twice or put outside the buffer.** At every head of
the loop the bytes of the blocks taken so far, in order, the window, and what is
still to be read make up the source; the bytes taken are as many as those blocks
have; and the window ends within the buffer. A read behind the opening always has
room. It fails only if the schedule says so, and otherwise the pass goes on with
at least one byte more, or with the source known to have ended. -/
theorem visits_account (source : ByteSource) (capacity : Nat) :
    source.WholeRun capacity (source.visits capacity) ∧
    ∀ before now after, source.visits capacity = before ++ now :: after →
      Pass.Account source capacity (Pass.taken capacity before) now ∧
      ∀ read, now.move capacity = .refill read → 0 < capacity - now.window.length ∧
        (read = none ∧ .fail ∈ source.schedule ∨ ∃ next, now.ReadsOn capacity next) := by
  refine ⟨wholeRun source capacity, fun before now after row => ?_⟩
  have account := account_of_visits row
  exact ⟨account, fun read made => ⟨Pass.room_of_refill made, account.reads made⟩⟩

/-- A file of two records, one of three bytes and one of a single byte. -/
def unevenFile : List UInt8 :=
  [0xd4, 0xc3, 0xb2, 0xa1, 2, 0, 4, 0, 0, 0, 0, 0, 0, 0, 0, 0, 0, 0, 1, 0, 1, 0, 0, 0,
    1, 0, 0, 0, 2, 0, 0, 0, 3, 0, 0, 0, 3, 0, 0, 0, 7, 8, 9,
    1, 0, 0, 0, 5, 0, 0, 0, 1, 0, 0, 0, 1, 0, 0, 0, 6]

/-- Bytes taken, where the window starts, its length, and the bytes still to be read. -/
example : (visits ⟨unevenFile, [.upTo 24, .upTo 3, .upTo 1]⟩ 50).map
    (fun pass => (pass.consumed, pass.position, pass.window.length, pass.source.bytes.length)) =
      [(0, 0, 27, 33), (24, 24, 3, 33), (24, 0, 4, 32), (24, 0, 36, 0), (43, 19, 17, 0), (60, 0, 0, 0),
        (60, 0, 0, 0)] := by
  cbv

end ByteSource
end CapturePace
