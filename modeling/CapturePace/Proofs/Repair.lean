/-
# Where a capture is cut, it can be cut off

A capture that is found to be cut behind some of its bytes is complete if it
ends there, and with no byte more (`tallyOf_fronts`). The run over the front
uses the same buffer, and a buffer that is only just long enough may fail as
soon as its window is filled at other moments. So the two runs are followed in
lock step: `Pass.upTo` is the pass as it is when the capture ends sooner, and
each turn does the same to both (`Pass.turn_upTo`), until the blocks of the
front are used up. There the shorter run finds its end, and the longer one the
block that is cut.

That no longer front is counted, and that a longer front counts no less, is
seen from the walks (`walk_of_tallyOf`).

Key definition: `Pass.upTo`.
Key theorems: `Pass.Rule.turn_eq`, `Pass.turn_upTo`, `Pass.run_upTo`, `tallyOf_fronts`.
-/
import CapturePace.Proofs.Fronts
import CapturePace.Proofs.WiderBuffer

namespace CapturePace

/-! ### Lists that are cut -/

theorem isEmpty_take {n : Nat} (pos : 0 < n) (bs : List UInt8) : (bs.take n).isEmpty = bs.isEmpty := by
  cases bs with
  | nil => rw [List.take_nil]
  | cons b bs =>
    obtain ⟨n, rfl⟩ := Nat.exists_eq_succ_of_ne_zero pos.ne'
    rfl

/-- What is left behind `room` bytes of a list that is cut, counted by the
bytes that are there. -/
theorem drop_take_length (n room : Nat) (bs : List UInt8) :
    (bs.take n).drop room = (bs.drop room).take (n - (bs.take room).length) := by
  rw [List.drop_take, List.length_take]
  rcases Nat.le_total room bs.length with there | short
  · rw [min_eq_left there]
  · rw [List.drop_eq_nil_of_le short, List.take_nil, List.take_nil]

namespace Pass

variable {capacity cut : Nat} {pass next start : Pass} {bs : List UInt8}

/-! ### Turns by their rules -/

/-- **The rules exclude each other**: what a rule allows is what the turn does. -/
theorem Rule.turn_eq {turn : Turn} (rule : pass.Rule capacity turn) : pass.turn capacity = turn := by
  cases rule with
  | header due => rw [Pass.turn, if_pos due]
  | finished due empty start ended =>
    rw [Pass.turn, if_neg (by simp [due]), if_pos ⟨empty, start, ended⟩]
  | @block found due parsed =>
    have there : pass.window ≠ [] := by
      intro empty
      obtain ⟨missing, -, nil⟩ := pass.format.parse_nil
      rw [empty, nil] at parsed
      cases parsed
    rw [Pass.turn, if_neg (by simp [due]), if_neg (by simp [there]), parsed]
  | truncated due parsed ended left =>
    rw [Pass.turn, if_neg (by simp [due]), if_neg (by simpa [ended] using left), parsed]
    simp only [extend, ended, if_true]
  | tooSmall due parsed going full =>
    rw [Pass.turn, if_neg (by simp [due]), if_neg (by simp [going]), parsed]
    simp [extend, going, full]
  | readFailed due parsed going room failed =>
    rw [Pass.turn, if_neg (by simp [due]), if_neg (by simp [going]), parsed]
    simp [extend, going, Nat.not_le.2 room, readMore?, failed]
  | read due parsed going room read =>
    rw [Pass.turn, if_neg (by simp [due]), if_neg (by simp [going]), parsed]
    simp [extend, going, Nat.not_le.2 room, readMore?, read]
  | @refused fault due refusal parsed =>
    have there : pass.window ≠ [] := Format.ne_nil_of_refused refusal parsed
    rw [Pass.turn, if_neg (by simp [due]), if_neg (by simp [there]), parsed]
    cases fault with
    | incomplete missing => exact absurd rfl (refusal missing)
    | _ => rfl

/-! ### The same pass over a front -/

/-- The pass as it is when the capture ends behind its first `cut` bytes. -/
def upTo (cut : Nat) (pass : Pass) : Pass :=
  { pass with
    window := pass.window.take (cut - pass.consumed)
    source := ⟨pass.source.bytes.take (cut - pass.consumed - pass.window.length), []⟩ }

theorem take_upTo {found : Found} (within : found.size ≤ pass.window.length) :
    (pass.upTo cut).take capacity found = (pass.take capacity found).upTo cut := by
  have window : (pass.window.take (cut - pass.consumed)).drop found.size =
      (pass.window.drop found.size).take (cut - (pass.consumed + found.size)) := by
    rw [List.drop_take, Nat.sub_sub]
  have source : cut - (pass.consumed + found.size) - (pass.window.drop found.size).length =
      cut - pass.consumed - pass.window.length := by
    rw [List.length_drop]
    omega
  simp only [take, upTo, window, source]
  rfl

/-- **A turn does the same to the pass over the front**, as long as what it
takes lies in the front, and what it looks at in vain does not fill it. -/
theorem turn_upTo (settled : pass.Settled capacity) (memory : pass.InMemory)
    (h : pass.turn capacity = .more next) (before : next.consumed ≤ cut)
    (ahead : pass.headerDue = false → ∀ missing,
      pass.format.parse pass.window = .error (.incomplete missing) →
      pass.window.length < cut - pass.consumed) :
    (pass.upTo cut).turn capacity = .more (next.upTo cut) := by
  have rule := rule_of_turn h
  cases rule with
  | header due =>
    have due' : (pass.upTo cut).headerDue = true := due
    rw [(Rule.header due').turn_eq, take_upTo (settled.header due)]
    rfl
  | @block found due parsed =>
    have fits := Format.parse_fits parsed
    have within : found.size ≤ cut - pass.consumed := by
      simp only [take] at before
      omega
    have parsed' : (pass.upTo cut).format.parse (pass.upTo cut).window = .ok found :=
      Format.parse_take_of_ok parsed within
    rw [(Rule.block (by exact due) parsed').turn_eq, take_upTo fits.2]
  | @read missing got rest due parsed going room read =>
    rw [ByteSource.read?_of_nil memory.schedule] at read
    cases read
    have short : pass.window.length < cut - pass.consumed := ahead due missing parsed
    have window : pass.window.take (cut - pass.consumed) = pass.window :=
      List.take_of_length_le short.le
    have parsed' : (pass.upTo cut).format.parse (pass.upTo cut).window =
        .error (.incomplete missing) := by
      simp only [upTo, window, parsed]
    have room' : (pass.upTo cut).window.length + missing < capacity := by
      simp only [upTo, window, room]
    -- what is read is cut as well, but it is nothing only if it was nothing before
    have got : (pass.source.bytes.take (cut - pass.consumed - pass.window.length)).take
        (capacity - pass.window.length) = (pass.source.bytes.take
          (capacity - pass.window.length)).take (cut - pass.consumed - pass.window.length) := by
      rw [List.take_take, List.take_take, min_comm]
    have left : 0 < cut - pass.consumed - pass.window.length := by omega
    rw [(Rule.read (by exact due) parsed' (by exact going) room' rfl).turn_eq]
    simp only [upTo, window, got, isEmpty_take left, drop_take_length, List.take_append,
      List.length_append, Nat.sub_add_eq]

/-- A run is cut no earlier than where it has come to. -/
theorem le_of_run (settled : pass.Settled capacity)
    (h : pass.run capacity = .error (.truncated cut)) : pass.consumed ≤ cut := by
  obtain ⟨last, reached, ends⟩ := run_reaches capacity pass
  have later := (reached.delivered settled).1
  rw [h] at ends
  have rule := rule_of_turn ends
  cases rule with
  | truncated => exact later

/-- As long as there is a block to come before the cut, a window that shows
none does not reach the cut. -/
theorem window_lt {missing : Nat} (settled : pass.Settled capacity)
    (h : pass.run capacity = .error (.truncated cut)) (ahead : pass.consumed < cut)
    (due : pass.headerDue = false)
    (parsed : pass.format.parse pass.window = .error (.incomplete missing)) :
    pass.window.length < cut - pass.consumed := by
  obtain ⟨same, -⟩ := fits_of_answers settled (h ▸ .cut cut)
  rw [h, outlook_of_taken due] at same
  rcases Format.walk_truncated same.symm with here | ⟨found, front, ends⟩
  · exact absurd here ahead.ne'
  -- a block that ends within the window would have been found in it
  by_contra short
  push Not at short
  obtain ⟨more, seen⟩ := window_prefix_ahead capacity due
  have shown : (pass.ahead capacity).take pass.window.length = pass.window := by
    rw [← seen, List.take_left]
  have found' := Format.parse_take_of_ok (n := pass.window.length) front (by omega)
  rw [shown, parsed] at found'
  cases found'

/-- Where a pass would read on, the pass over the bytes taken so far finds its end. -/
theorem run_upTo_consumed {missing : Nat} (due : pass.headerDue = false)
    (parsed : pass.format.parse pass.window = .error (.incomplete missing))
    (going : pass.exhausted = false) (room : pass.window.length + missing < capacity) :
    (pass.upTo pass.consumed).run capacity = .ok pass.tally := by
  obtain ⟨header, -, nil⟩ := pass.format.parse_nil
  have room' : header < capacity := by
    have asks := Format.le_demand_of_append pass.window nil
    rw [List.nil_append, parsed, List.length_nil, Nat.zero_add] at asks
    exact asks.trans_lt room
  have window : (pass.upTo pass.consumed).window = [] := by
    simp only [upTo, Nat.sub_self, List.take_zero]
  have parsed' : (pass.upTo pass.consumed).format.parse (pass.upTo pass.consumed).window =
      .error (.incomplete header) := by
    rw [window]
    exact nil
  have read : (pass.upTo pass.consumed).source.read?
      (capacity - (pass.upTo pass.consumed).window.length) = some ([], ⟨[], []⟩) := by
    simp only [upTo, Nat.sub_self, Nat.zero_sub, List.take_zero, ByteSource.read?, List.take_nil,
      List.drop_nil]
  have turned := (Rule.read (by exact due) parsed' (by exact going)
    (by rwa [window, List.length_nil, Nat.zero_add]) read).turn_eq
  rw [run_of_more turned]
  exact run_of_over (Rule.finished (by exact due) (by rw [window]; rfl) rfl rfl).turn_eq

/-- **Where a run finds a capture cut, the run over the front finds its end.** -/
theorem run_upTo (settled : pass.Settled capacity) (memory : pass.InMemory)
    (h : pass.run capacity = .error (.truncated cut)) :
    ∃ tally, (pass.upTo cut).run capacity = .ok tally := by
  fun_induction run capacity pass with
  | case1 pass next turn ih =>
    have settled' := settled.turn turn
    have same : pass.run capacity = .error (.truncated cut) := by rw [run_of_more turn, h]
    have before : next.consumed ≤ cut := le_of_run settled' h
    rcases (le_of_run settled same).eq_or_lt with here | ahead
    · have rule := rule_of_turn turn
      cases rule with
      | header =>
        simp only [take, fileHeaderSize] at before
        omega
      | block _ parsed =>
        have size := (Format.parse_fits parsed).1
        simp only [take] at before
        omega
      | read due parsed going room _ =>
        rw [← here]
        exact ⟨_, run_upTo_consumed due parsed going room⟩
    · have turn' := turn_upTo settled memory turn before
        fun due missing => window_lt settled same ahead due
      rw [run_of_more turn']
      exact ih settled' (memory.turn turn) h
  | case2 pass result turn =>
    subst h
    have rule := rule_of_turn turn
    cases rule with
    | truncated due parsed ended left =>
      obtain ⟨-, start, -⟩ := settled.ended ended
      have empty : (pass.upTo pass.consumed).window = [] := by
        simp only [upTo, Nat.sub_self, List.take_zero]
      exact ⟨_, run_of_over (Rule.finished (by exact due) empty start ended).turn_eq⟩

end Pass

/-! ### Opening a front -/

theorem RecordLayout.ofMagic?_take {layout : RecordLayout} {bs : List UInt8} {n : Nat}
    (magic : ofMagic? bs = some layout) (there : 4 ≤ n) : ofMagic? (bs.take n) = some layout := by
  obtain ⟨n, rfl⟩ := Nat.exists_eq_add_of_le' there
  unfold ofMagic? at magic
  split at magic
  case h_6 => cases magic
  all_goals
    rw [← magic]
    rfl

namespace Format

variable {format other : Format} {bs : List UInt8}

/-- The bytes in front of the blocks. -/
def headerSize (format : Format) : Nat := if format.hasFileHeader then fileHeaderSize else 0

/-- The counters in front of the blocks. -/
def opened (format : Format) : Tally :=
  if format.hasFileHeader then Tally.count {} .fileHeader else {}

theorem body_take (format : Format) (bs : List UInt8) (n : Nat) :
    format.body (bs.take n) = (format.body bs).take (n - format.headerSize) := List.drop_take

theorem body_append (more : List UInt8) (there : format.headerSize ≤ bs.length) :
    format.body (bs ++ more) = format.body bs ++ more := List.drop_append_of_le_length there

namespace Opens

theorem walk_eq (opens : format.Opens bs) :
    CapturePace.walk bs = format.walk (format.body bs) format.opened format.headerSize := by
  rw [walk_of_opens opens, body, opened, headerSize]
  cases format.hasFileHeader <;> rfl

theorem headerSize_le (opens : format.Opens bs) : format.headerSize ≤ bs.length := by
  cases opens with
  | records _ header => exact header
  | sections => exact Nat.zero_le _

/-- Bytes open captures of one format. -/
theorem unique (opens : format.Opens bs) (opens' : other.Opens bs) : format = other := by
  have same := detect_eq_ok.2 opens
  rw [detect_eq_ok.2 opens'] at same
  exact (Except.ok.inj same).symm

theorem of_take {n : Nat} (opens : format.Opens (bs.take n)) : format.Opens bs := by
  have whole := opens.append (bs.drop n)
  rwa [List.take_append_drop] at whole

/-- A front opens a capture if it has the file header, or else the first block. -/
theorem take {n : Nat} (opens : format.Opens bs) (header : format.headerSize ≤ n)
    (block : format.hasFileHeader = false → ∀ found, format.parse bs = .ok found → found.size ≤ n) :
    format.Opens (bs.take n) := by
  cases opens with
  | records magic there =>
    have long : fileHeaderSize ≤ n := header
    refine .records (RecordLayout.ofMagic?_take magic ((by decide : 4 ≤ fileHeaderSize).trans long)) ?_
    rw [List.length_take]
    exact le_min long there
  | sections parsed =>
    have parsed' : (Format.sections .little).parse (bs.take n) = .ok _ :=
      parse_take_of_ok parsed (block rfl _ parsed)
    exact .sections parsed'

end Opens
end Format

namespace Pass

variable {capacity cut : Nat} {start : Pass} {bs : List UInt8}

/-- The first read of a capture in memory fills the buffer, or brings all there is. -/
theorem begin_inMemory_eq : Pass.begin capacity ⟨bs, []⟩ = .ok start ↔
    ∃ format, Format.Opens format (bs.take capacity) ∧
      start = { format, headerDue := format.hasFileHeader, window := bs.take capacity,
                source := ⟨bs.drop capacity, []⟩ } := by
  have full : (bs.drop capacity).take (capacity - (bs.take capacity).length) = [] ∧
      (bs.drop capacity).drop (capacity - (bs.take capacity).length) = bs.drop capacity := by
    rcases Nat.le_total capacity bs.length with there | short
    · rw [List.length_take_of_le there, Nat.sub_self]
      exact ⟨rfl, rfl⟩
    · rw [List.drop_eq_nil_of_le short, List.take_nil, List.drop_nil]
      exact ⟨rfl, rfl⟩
  rw [begin_eq_ok]
  constructor
  · rintro ⟨first, rest, second, rest', format, read, opens, read', rfl⟩
    cases read
    cases read'
    exact ⟨format, opens, by simp only [full, List.append_nil]⟩
  · rintro ⟨format, opens, rfl⟩
    refine ⟨_, _, _, _, format, rfl, opens, rfl, ?_⟩
    simp only [full, List.append_nil]

/-- The pass over a front up to a cut is opened like the one over the whole. -/
theorem begin_upTo (h : Pass.begin capacity ⟨bs, []⟩ = .ok start) (pos : 0 < cut)
    (run : start.run capacity = .error (.truncated cut)) :
    Pass.begin capacity ⟨bs.take cut, []⟩ = .ok (start.upTo cut) := by
  obtain ⟨walked, -, -⟩ := walk_of_answers h (run ▸ .cut cut)
  obtain ⟨format, opens, rfl⟩ := begin_inMemory_eq.1 h
  rw [run, opens.of_take.walk_eq] at walked
  refine begin_inMemory_eq.2 ⟨format, ?_, ?_⟩
  · rw [List.take_take, min_comm, ← List.take_take]
    refine opens.take (Format.le_of_walk_truncated walked.symm) fun sections found parsed => ?_
    -- without a file header, the first block is all the walk can start with
    have start : format.headerSize = 0 := by rw [Format.headerSize, sections]; rfl
    have body : format.body bs = bs := by rw [Format.body, sections]; rfl
    have front := Format.parse_append_of_ok (bs.drop capacity) parsed
    rw [List.take_append_drop] at front
    rw [start, body] at walked
    rcases Format.walk_truncated walked.symm with here | ⟨other, parsed', ends⟩
    · exact absurd here pos.ne'
    · rw [front] at parsed'
      cases parsed'
      omega
  · simp only [upTo, Nat.sub_zero, drop_take_length, List.take_take, min_comm]

end Pass

/-! ### Fronts of a capture -/

variable {bs : List UInt8} {capacity place : Nat} {result : Except CaptureFault Tally}

/-- There is no answer without a buffer. -/
theorem made_of_tallyOf (answers : Answers result) (h : tallyOf bs capacity = .ofExcept result) :
    capacity ≤ bufferLimit := by
  by_contra long
  rw [tallyOf_of_lt (Nat.lt_of_not_le long)] at h
  cases answers <;> cases h

theorem cut_behind (pos : 0 < place) :
    (.error (.truncated place) : Except CaptureFault Tally) ≠ .error (.truncated 0) := by
  rintro ⟨⟩
  exact lt_irrefl 0 pos

/-- An answer about a capture, unless it is cut at its start, is that of its walk. -/
theorem walk_of_tallyOf (answers : Answers result) (behind : result ≠ .error (.truncated 0))
    (h : tallyOf bs capacity = .ofExcept result) :
    ∃ format, Format.Opens format bs ∧ walk bs = result := by
  obtain ⟨start, opened, rfl⟩ := run_of_tallyOf answers behind (made_of_tallyOf answers h) h
  obtain ⟨same, opens, -⟩ := walk_of_answers opened answers
  exact ⟨_, opens.of_take, same.symm⟩

/-- **The bytes in front of a cut are counted**, through the buffer that found the cut. -/
theorem tallyOf_take_place (pos : 0 < place) (h : tallyOf bs capacity = .failed (.truncated place)) :
    ∃ tally, tallyOf (bs.take place) capacity = .finished tally := by
  have made := made_of_tallyOf (.cut place) h
  obtain ⟨start, opened, run⟩ := run_of_tallyOf (.cut place) (cut_behind pos) made h
  obtain ⟨tally, counted⟩ :=
    Pass.run_upTo (Pass.settled_of_begin opened) (Pass.inMemory_of_begin opened) run
  refine ⟨tally, ?_⟩
  rw [tallyOf_of_le made, Verdict.ofExcept_eq_finished, ByteSource.pass,
    Pass.begin_upTo opened pos run]
  exact counted

/-- No front that goes further than a cut is counted. -/
theorem tallyOf_take_ne {further : Nat} (pos : 0 < place)
    (h : tallyOf bs capacity = .failed (.truncated place)) (behind : place < further) (tally : Tally) :
    tallyOf (bs.take further) capacity ≠ .finished tally := by
  intro h'
  obtain ⟨format, opens, walked⟩ := walk_of_tallyOf (.cut place) (cut_behind pos) h
  obtain ⟨format', opens', walked'⟩ := walk_of_tallyOf (.counted tally) (by rintro ⟨⟩) h'
  obtain rfl := opens.unique opens'.of_take
  rw [opens.walk_eq] at walked
  rw [opens'.walk_eq, Format.body_take, Format.walk_take_of_truncated walked behind] at walked'
  cases walked'

/-- Of two fronts that are counted, the longer one holds no less. -/
theorem le_of_tallyOf_take {i j : Nat} {short long : Tally} (le : i ≤ j)
    (h : tallyOf (bs.take i) capacity = .finished short)
    (h' : tallyOf (bs.take j) capacity = .finished long) : short ≤ long := by
  obtain ⟨format, opens, walked⟩ := walk_of_tallyOf (.counted short) (by rintro ⟨⟩) h
  obtain ⟨format', opens', walked'⟩ := walk_of_tallyOf (.counted long) (by rintro ⟨⟩) h'
  obtain ⟨more, front⟩ := (List.take_prefix_take_left le : bs.take i <+: bs.take j)
  rw [← front] at opens' walked'
  obtain rfl := (opens.append more).unique opens'
  rw [opens.walk_eq] at walked
  rw [opens'.walk_eq, Format.body_append more opens.headerSize_le] at walked'
  exact Format.le_of_walk_append walked walked'

/-- **The place of a cut can be trusted.** If a capture is found to be cut
behind its opening, the bytes up to the place of the cut are counted through
the same buffer, and no longer front is. Of two fronts that are counted, the
longer one counts at least as many blocks, packets and bytes. -/
theorem tallyOf_fronts (bs : List UInt8) (capacity : Nat) :
    (∀ place, 0 < place → tallyOf bs capacity = .failed (.truncated place) →
      (∃ tally, tallyOf (bs.take place) capacity = .finished tally) ∧
      ∀ further, place < further → ∀ tally, tallyOf (bs.take further) capacity ≠ .finished tally) ∧
    ∀ i j short long, i ≤ j → tallyOf (bs.take i) capacity = .finished short →
      tallyOf (bs.take j) capacity = .finished long → short ≤ long := by
  refine ⟨fun place pos h => ⟨tallyOf_take_place pos h, ?_⟩, ?_⟩
  · intro further behind tally
    exact tallyOf_take_ne pos h behind tally
  · intro i j short long le h h'
    exact le_of_tallyOf_take le h h'

/-- A file whose first record fills the smallest buffer that opens it, and
whose second one is cut in its header. -/
def tornFile : List UInt8 := tightFile ++ [0, 0, 0, 9, 0, 0, 0, 9, 0, 0]

theorem tallyOf_tornFile_fronts : tallyOf tornFile 24 = .failed (.truncated 48) ∧
    (∃ tally, tallyOf (tornFile.take 48) 24 = .finished tally) ∧
    (∀ tally, tallyOf (tornFile.take 50) 24 ≠ .finished tally) ∧
    tallyOf (tornFile.take 24) 24 = .finished ⟨1, 0, 0⟩ ∧
    tallyOf (tornFile.take 48) 24 = .finished ⟨2, 1, 8⟩ ∧ (⟨1, 0, 0⟩ : Tally) ≤ ⟨2, 1, 8⟩ := by
  have cut : tallyOf tornFile 24 = .failed (.truncated 48) := by cbv
  have short : tallyOf (tornFile.take 24) 24 = .finished ⟨1, 0, 0⟩ := by cbv
  have long : tallyOf (tornFile.take 48) 24 = .finished ⟨2, 1, 8⟩ := by cbv
  obtain ⟨mended, further⟩ := (tallyOf_fronts tornFile 24).1 48 (by decide) cut
  refine ⟨cut, mended, further 50 (by decide), short, long, ?_⟩
  exact (tallyOf_fronts tornFile 24).2 24 48 _ _ (by decide) short long

end CapturePace
