/-
# How many turns a run takes

A run is a finite row of passes, each one turn behind the one before
(`Pass.visits`). A turn makes one of three moves: it takes a block off the
window, it reads more, or it stops (`Pass.move`), and the move is all there is
to the turn (`Pass.carryOut_move`). So the moves of a run can be counted.

Nothing in a pass counts down by itself. A block takes at least twelve bytes
off what the window shows and the source still has, and a read moves bytes
from the source into the window, so it leaves their sum alone: this bounds
the blocks. A read that brings bytes leaves fewer in the source, and one that
brings none marks it as ended, whereupon nothing is read any more: this bounds
the reads.

Key definitions: `Move`, `Pass.move`, `Pass.visits`, `ByteSource.visits`,
`ByteSource.WholeRun`.
Key theorems: `Pass.carryOut_move`, `Pass.Settled.blocks_le`, `Pass.refills_le`,
`Pass.refills_pairwise`, `ByteSource.moves_bounded`.
-/
import CapturePace.Proofs.Opening

namespace CapturePace

/-- What a turn does. -/
inductive Move where
  /-- A block is found and taken; the header that is due is one. -/
  | block (found : Found)
  /-- A read is made: what it brought and the source behind it, if it did not fail. -/
  | refill (read : Option (List UInt8 × ByteSource))
  /-- Nothing is taken or read, and the pass is over. -/
  | stop (result : Except CaptureFault Tally)

namespace Move

/-- Whether a block is taken. -/
def isBlock : Move → Bool
  | .block _ => true
  | .refill _ => false
  | .stop _ => false

/-- Whether a read is made. -/
def isRefill : Move → Bool
  | .block _ => false
  | .refill _ => true
  | .stop _ => false

/-- The bytes that are read. -/
def gain : Move → List UInt8
  | .refill (some (got, _)) => got
  | _ => []

end Move

namespace Pass

/-- The move that a pass makes next. -/
def move (capacity : Nat) (pass : Pass) : Move :=
  if pass.headerDue then .block ⟨fileHeaderSize, .fileHeader⟩
  else if pass.window = [] ∧ pass.position = 0 ∧ pass.exhausted then .stop (.ok pass.tally)
  else match pass.format.parse pass.window with
    | .ok found => .block found
    | .error (.incomplete missing) =>
      if pass.exhausted then .stop (.error (.truncated pass.consumed))
      else if capacity ≤ pass.window.length + missing then .stop (.error (.malformed .windowTooSmall))
      else .refill (pass.source.read? (capacity - pass.window.length))
    | .error fault => .stop (.error (.malformed fault))

/-- What a move makes of a pass. -/
def carryOut (capacity : Nat) (pass : Pass) : Move → Turn
  | .block found => .more { pass.take capacity found with headerDue := false }
  | .refill none => .over (.error (.malformed .readFailed))
  | .refill (some (got, rest)) => .more { pass with
      window := pass.window ++ got, position := 0, exhausted := got.isEmpty, source := rest }
  | .stop result => .over result

/-- The passes of a run, from this one on. -/
def visits (capacity : Nat) (pass : Pass) : List Pass :=
  match _h : pass.turn capacity with
  | .more next => pass :: next.visits capacity
  | .over _ => [pass]
  termination_by pass.work
  decreasing_by exact work_turn _h

/-- The moves of a run, from this pass on. -/
def moves (capacity : Nat) (pass : Pass) : List Move := (pass.visits capacity).map (move capacity)

variable {capacity : Nat} {pass next : Pass}

/-! ### Turns are moves -/

/-- A turn without a block in front stops or reads. A read that brings nothing
marks the source as ended, so it is never without effect. -/
theorem carryOut_extend (missing : Nat) :
    pass.carryOut capacity
        (if pass.exhausted then .stop (.error (.truncated pass.consumed))
        else if capacity ≤ pass.window.length + missing then .stop (.error (.malformed .windowTooSmall))
        else .refill (pass.source.read? (capacity - pass.window.length))) =
      pass.extend capacity missing := by
  unfold extend readMore?
  by_cases ended : pass.exhausted = true
  · rw [if_pos ended, if_pos ended]
    rfl
  rw [if_neg ended, if_neg ended]
  by_cases full : capacity ≤ pass.window.length + missing
  · rw [if_pos full, if_pos full]
    rfl
  rw [if_neg full, if_neg full]
  cases pass.source.read? (capacity - pass.window.length) with
  | none => rfl
  | some read =>
    obtain ⟨got, rest⟩ := read
    have effect : ¬((pass.window ++ got).length = pass.window.length ∧ got.isEmpty = false) := by
      cases got <;> simp
    simp only [effect, if_false]
    rfl

/-- **A turn is its move and nothing else.** -/
theorem carryOut_move (capacity : Nat) (pass : Pass) :
    pass.carryOut capacity (pass.move capacity) = pass.turn capacity := by
  unfold move turn
  by_cases due : pass.headerDue = true
  · rw [if_pos due, if_pos due]
    rfl
  rw [if_neg due, if_neg due]
  by_cases ended : pass.window = [] ∧ pass.position = 0 ∧ pass.exhausted = true
  · rw [if_pos ended, if_pos ended]
    rfl
  rw [if_neg ended, if_neg ended]
  rcases pass.format.parse pass.window with fault | found
  · cases fault with
    | incomplete missing => exact carryOut_extend missing
    | _ => rfl
  · have taken : pass.headerDue = false := by simpa using due
    simp only [carryOut, ← taken]
    rfl

/-- A turn that goes on takes a block off the window or adds to it what was read. -/
theorem exists_of_more (h : pass.turn capacity = .more next) :
    (∃ found, pass.move capacity = .block found ∧ next.window = pass.window.drop found.size ∧
        next.source = pass.source ∧ next.exhausted = pass.exhausted) ∨
      ∃ got rest, pass.move capacity = .refill (some (got, rest)) ∧ next.window = pass.window ++ got ∧
        next.source = rest ∧ next.exhausted = got.isEmpty := by
  rw [← carryOut_move] at h
  rcases made : pass.move capacity with found | (_ | ⟨got, rest⟩) | result <;> rw [made] at h
  · cases h
    exact .inl ⟨found, rfl, rfl, rfl, rfl⟩
  · cases h
  · cases h
    exact .inr ⟨got, rest, rfl, rfl, rfl, rfl⟩
  · cases h

/-- The header that is due is a block, and all others are read. -/
theorem block_cases {found : Found} (h : pass.move capacity = .block found) :
    pass.headerDue = true ∧ found = ⟨fileHeaderSize, .fileHeader⟩ ∨
      pass.format.parse pass.window = .ok found := by
  unfold move at h
  split at h
  · next due =>
    cases h
    exact .inl ⟨due, rfl⟩
  split at h
  · cases h
  split at h
  · next parsed =>
    cases h
    exact .inr parsed
  · split at h
    · cases h
    split at h
    · cases h
    · cases h
  · cases h

/-- More is read for a block that is not complete and that the buffer has room for. -/
theorem refill_cases {read : Option (List UInt8 × ByteSource)} (h : pass.move capacity = .refill read) :
    pass.exhausted = false ∧ pass.source.read? (capacity - pass.window.length) = read ∧
      ∃ missing, pass.format.parse pass.window = .error (.incomplete missing) ∧
        pass.window.length + missing < capacity := by
  unfold move at h
  split at h
  · cases h
  split at h
  · cases h
  split at h
  · cases h
  · next missing parsed =>
    split at h
    · cases h
    next going =>
    split at h
    · cases h
    next room =>
    cases h
    exact ⟨by simpa using going, rfl, missing, parsed, Nat.lt_of_not_le room⟩
  · cases h

/-- A read is made only while the source is not known to have ended. -/
theorem of_move_refill {read : Option (List UInt8 × ByteSource)}
    (h : pass.move capacity = .refill read) :
    pass.exhausted = false ∧ pass.source.read? (capacity - pass.window.length) = read := by
  obtain ⟨going, made, -⟩ := refill_cases h
  exact ⟨going, made⟩

/-- A block that is taken has at least twelve bytes, and the window shows all of them. -/
theorem Settled.of_move_block {found : Found} (settled : pass.Settled capacity)
    (h : pass.move capacity = .block found) : 12 ≤ found.size ∧ found.size ≤ pass.window.length := by
  rcases block_cases h with ⟨due, rfl⟩ | parsed
  · exact ⟨by decide, settled.header due⟩
  · exact Format.parse_fits parsed

/-- What ends a pass takes no block. -/
theorem isBlock_of_over {result : Except CaptureFault Tally} (h : pass.turn capacity = .over result) :
    (pass.move capacity).isBlock = false := by
  rw [← carryOut_move] at h
  cases made : pass.move capacity with
  | block found =>
    rw [made] at h
    cases h
  | refill read => rfl
  | stop result => rfl

/-! ### The row of passes -/

theorem visits_of_more (h : pass.turn capacity = .more next) :
    pass.visits capacity = pass :: next.visits capacity := by
  rw [visits]
  split
  · next h' =>
    rw [h] at h'
    cases h'
    rfl
  · next h' => rw [h] at h'; cases h'

theorem visits_of_over {result : Except CaptureFault Tally} (h : pass.turn capacity = .over result) :
    pass.visits capacity = [pass] := by
  rw [visits]
  split
  · next h' => rw [h] at h'; cases h'
  · rfl

theorem exists_visits (capacity : Nat) (pass : Pass) :
    ∃ later, pass.visits capacity = pass :: later := by
  rcases h : pass.turn capacity with next | result
  · exact ⟨_, visits_of_more h⟩
  · exact ⟨_, visits_of_over h⟩

theorem moves_of_more (h : pass.turn capacity = .more next) :
    pass.moves capacity = pass.move capacity :: next.moves capacity := by
  rw [moves, visits_of_more h]
  rfl

theorem moves_of_over {result : Except CaptureFault Tally} (h : pass.turn capacity = .over result) :
    pass.moves capacity = [pass.move capacity] := by
  rw [moves, visits_of_over h]
  rfl

/-- Each pass of a run is one turn behind the one before. -/
theorem visits_isChain (capacity : Nat) (pass : Pass) :
    (pass.visits capacity).IsChain fun now next => now.turn capacity = .more next := by
  fun_induction visits capacity pass with
  | case1 pass next h ih =>
    obtain ⟨later, same⟩ := exists_visits capacity next
    rw [same] at ih ⊢
    exact List.isChain_cons_cons.2 ⟨h, ih⟩
  | case2 pass result h => exact .singleton pass

/-- The last pass of a run ends with what the run comes to. -/
theorem turn_getLast (capacity : Nat) (pass : Pass) :
    ∀ last ∈ (pass.visits capacity).getLast?, last.turn capacity = .over (pass.run capacity) := by
  fun_induction visits capacity pass with
  | case1 pass next h ih =>
    obtain ⟨later, same⟩ := exists_visits capacity next
    rw [run_of_more h]
    rw [same] at ih ⊢
    rw [List.getLast?_cons_cons]
    exact ih
  | case2 pass result h =>
    rw [run_of_over h]
    rintro last ⟨⟩
    exact h

/-! ### Counting the moves -/

/-- A read moves bytes from the source into the window. -/
theorem length_of_refill {got : List UInt8} {rest : ByteSource}
    (h : pass.move capacity = .refill (some (got, rest))) :
    got.length + rest.bytes.length = pass.source.bytes.length := by
  rw [← List.length_append, ByteSource.read?_bytes (of_move_refill h).2]

/-- **Every block takes its share of the bytes there are.** -/
theorem Settled.blocks_le (settled : pass.Settled capacity) :
    12 * (pass.moves capacity).countP Move.isBlock ≤ pass.window.length + pass.source.bytes.length := by
  fun_induction visits capacity pass with
  | case1 pass next h ih =>
    have later := ih (settled.turn h)
    rw [moves_of_more h, List.countP_cons]
    rcases exists_of_more h with ⟨found, made, window, source, -⟩ | ⟨got, rest, made, window, source, -⟩
    · have fits := settled.of_move_block made
      rw [window, source, List.length_drop] at later
      simp only [made, Move.isBlock, if_true]
      omega
    · have bytes := length_of_refill made
      rw [window, source, List.length_append] at later
      simp only [made, Move.isBlock, Bool.false_eq_true, if_false]
      omega
  | case2 pass result h =>
    rw [moves_of_over h, List.countP_singleton, isBlock_of_over h]
    exact Nat.zero_le _

/-- Once the source has ended, nothing is read any more. -/
theorem isRefill_of_ended (ended : pass.exhausted = true) :
    ∀ move ∈ pass.moves capacity, move.isRefill = false := by
  have stays (now : Pass) (ended : now.exhausted = true) : (now.move capacity).isRefill = false := by
    cases made : now.move capacity with
    | block found => rfl
    | refill read =>
      rw [(of_move_refill made).1] at ended
      cases ended
    | stop result => rfl
  fun_induction visits capacity pass with
  | case1 pass next h ih =>
    rw [moves_of_more h]
    refine List.forall_mem_cons.2 ⟨stays pass ended, ?_⟩
    rcases exists_of_more h with ⟨found, made, -, -, same⟩ | ⟨got, rest, made, -⟩
    · exact ih (same.trans ended)
    · rw [(of_move_refill made).1] at ended
      cases ended
  | case2 pass result h =>
    rw [moves_of_over h]
    exact List.forall_mem_singleton.2 (stays pass ended)

/-- **Every read uses up bytes of the source, or finds that it has ended.** -/
theorem refills_le (capacity : Nat) (pass : Pass) :
    (pass.moves capacity).countP Move.isRefill ≤ pass.source.bytes.length + (!pass.exhausted).toNat := by
  fun_induction visits capacity pass with
  | case1 pass next h ih =>
    rw [moves_of_more h, List.countP_cons]
    rcases exists_of_more h with ⟨found, made, -, source, same⟩ | ⟨got, rest, made, -, source, ended⟩
    · rw [source, same] at ih
      simp only [made, Move.isRefill, Bool.false_eq_true, if_false]
      exact ih
    · have going := (of_move_refill made).1
      have bytes := length_of_refill made
      rw [source, ended] at ih
      simp only [made, Move.isRefill, if_true, going, Bool.not_false, Bool.toNat_true]
      cases got with
      | nil =>
        simp only [List.isEmpty_nil, Bool.not_true, Bool.toNat_false] at ih
        simp only [List.length_nil] at bytes
        omega
      | cons b got =>
        simp only [List.isEmpty_cons, Bool.not_false, Bool.toNat_true] at ih
        simp only [List.length_cons] at bytes
        omega
  | case2 pass result h =>
    rw [moves_of_over h, List.countP_singleton]
    cases made : pass.move capacity with
    | block found => simp [Move.isRefill]
    | refill read => simp [Move.isRefill, (of_move_refill made).1]
    | stop result => simp [Move.isRefill]

/-- **A read that another one follows has brought something.** -/
theorem refills_pairwise (capacity : Nat) (pass : Pass) :
    (pass.moves capacity).Pairwise fun move later =>
      move.isRefill = true → later.isRefill = true → move.gain ≠ [] := by
  fun_induction visits capacity pass with
  | case1 pass next h ih =>
    rw [moves_of_more h]
    refine List.pairwise_cons.2 ⟨fun later there read again => ?_, ih⟩
    rcases exists_of_more h with ⟨found, made, -⟩ | ⟨got, rest, made, -, -, ended⟩
    · rw [made] at read
      cases read
    · rw [made]
      rintro (rfl : got = [])
      rw [isRefill_of_ended ended later there] at again
      cases again
  | case2 pass result h =>
    rw [moves_of_over h]
    exact List.pairwise_singleton _ _

/-- All moves but the last one take a block or read more. -/
theorem length_moves_le (capacity : Nat) (pass : Pass) :
    (pass.moves capacity).length ≤
      (pass.moves capacity).countP Move.isBlock + (pass.moves capacity).countP Move.isRefill + 1 := by
  fun_induction visits capacity pass with
  | case1 pass next h ih =>
    rw [moves_of_more h, List.countP_cons, List.countP_cons, List.length_cons]
    rcases exists_of_more h with ⟨found, made, -⟩ | ⟨got, rest, made, -⟩
    · simp only [made, Move.isBlock, Move.isRefill, if_true, Bool.false_eq_true, if_false]
      omega
    · simp only [made, Move.isBlock, Move.isRefill, if_true, Bool.false_eq_true, if_false]
      omega
  | case2 pass result h =>
    rw [moves_of_over h, List.length_singleton]
    exact Nat.le_add_left _ _

end Pass

/-! ### The moves of a source -/

namespace ByteSource

/-- The passes that a source is seen through, from the one that is opened on.
There are none if it cannot be opened. -/
def visits (source : ByteSource) (capacity : Nat) : List Pass :=
  if capacity ≤ bufferLimit then
    match Pass.begin capacity source with
    | .ok start => start.visits capacity
    | .error _ => []
  else []

/-- What is done with a source once it is opened. -/
def moves (source : ByteSource) (capacity : Nat) : List Move :=
  (source.visits capacity).map (Pass.move capacity)

/-- The passes are those of a whole run: the first is the one that is opened,
each turn is its move, each pass is one turn behind the one before, and the last
one is over with the verdict on the source. -/
structure WholeRun (source : ByteSource) (capacity : Nat) (passes : List Pass) : Prop where
  opened : ∀ start, capacity ≤ bufferLimit → Pass.begin capacity source = .ok start →
    passes.head? = some start
  moved : ∀ pass ∈ passes, pass.carryOut capacity (pass.move capacity) = pass.turn capacity
  turns : passes.IsChain fun pass next => pass.turn capacity = .more next
  ended : ∀ last ∈ passes.getLast?, ∃ result, last.turn capacity = .over result ∧
    source.tally capacity = .ofExcept result

variable {source : ByteSource} {capacity : Nat} {start : Pass}

theorem visits_of_begin (made : capacity ≤ bufferLimit) (h : Pass.begin capacity source = .ok start) :
    source.visits capacity = start.visits capacity := by
  rw [visits, if_pos made, h]

theorem visits_of_error {fault : CaptureFault} (h : Pass.begin capacity source = .error fault) :
    source.visits capacity = [] := by
  rw [visits, h]
  exact ite_self _

theorem visits_of_lt (long : bufferLimit < capacity) : source.visits capacity = [] :=
  if_neg (Nat.not_le.2 long)

/-- The moves on a source are those of the pass that is opened, if one is. -/
theorem moves_cases (source : ByteSource) (capacity : Nat) :
    source.moves capacity = [] ∨
      ∃ start, Pass.begin capacity source = .ok start ∧ source.moves capacity = start.moves capacity := by
  by_cases made : capacity ≤ bufferLimit
  · cases h : Pass.begin capacity source with
    | ok start =>
      right
      refine ⟨start, rfl, ?_⟩
      rw [moves, visits_of_begin made h]
      rfl
    | error fault =>
      left
      rw [moves, visits_of_error h]
      rfl
  · left
    rw [moves, visits_of_lt (Nat.lt_of_not_le made)]
    rfl

theorem wholeRun (source : ByteSource) (capacity : Nat) :
    source.WholeRun capacity (source.visits capacity) where
  opened := by
    intro start made h
    obtain ⟨later, same⟩ := start.exists_visits capacity
    rw [visits_of_begin made h, same]
    rfl
  moved := fun pass _ => Pass.carryOut_move capacity pass
  turns := by
    rw [visits]
    split
    · split
      · exact Pass.visits_isChain capacity _
      · exact .nil
    · exact .nil
  ended := by
    intro last there
    rw [visits] at there
    split at there
    · next made =>
      split at there
      · next start h =>
        refine ⟨_, Pass.turn_getLast capacity start last there, ?_⟩
        rw [tally_of_le made, pass, h]
        rfl
      · cases there
    · cases there

/-- **A run ends, within a number of turns that is linear in its input.** At
most one turn for every twelve bytes, and one, takes a block; at most one turn
for every byte, and one, reads more, and only the last of them may bring
nothing. After a read that brings nothing there is no other one. -/
theorem moves_bounded (source : ByteSource) (capacity : Nat) :
    source.WholeRun capacity (source.visits capacity) ∧
    (source.moves capacity).countP Move.isBlock ≤ source.bytes.length / 12 + 1 ∧
    (source.moves capacity).countP Move.isRefill ≤ source.bytes.length + 1 ∧
    (source.moves capacity).length ≤ source.bytes.length / 12 + source.bytes.length + 2 ∧
    ((source.moves capacity).Pairwise fun move later =>
      move.isRefill = true → later.isRefill = true → 1 ≤ move.gain.length) ∧
    (source.moves capacity).Pairwise fun move later =>
      move.isRefill = true → move.gain = [] → later.isRefill = false := by
  refine ⟨wholeRun source capacity, ?_⟩
  rcases source.moves_cases capacity with none | ⟨start, opened, same⟩
  · rw [none]
    exact ⟨Nat.zero_le _, Nat.zero_le _, Nat.zero_le _, .nil, .nil⟩
  have bytes := congrArg List.length (Pass.bytes_of_begin opened)
  rw [List.length_append] at bytes
  have blocks := (Pass.settled_of_begin opened).blocks_le
  have refills : (start.moves capacity).countP Move.isRefill ≤ source.bytes.length + 1 := by
    refine (Pass.refills_le capacity start).trans (Nat.add_le_add (by omega) ?_)
    exact Bool.toNat_le _
  have turns := Pass.length_moves_le capacity start
  have pairs := Pass.refills_pairwise capacity start
  rw [same]
  refine ⟨by omega, refills, by omega, ?_, ?_⟩
  · refine pairs.imp fun {move later} brought read again => ?_
    exact List.length_pos_iff.2 (brought read again)
  · refine pairs.imp fun {move later} brought read nothing => ?_
    rw [← Bool.not_eq_true]
    exact fun again => brought read again nothing

end ByteSource
end CapturePace
