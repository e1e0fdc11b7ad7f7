/-
# Recorded times are exact

The record of a round tells the accumulated time in words. Nothing is lost on
the way: the time can be read back from the words (`readTime?`), so different
times are told differently, and what one record tells more than the one before
it is the interval of the round.

The reader does not know how durations are put in words. It takes a decimal number and a
unit, and multiplies them; it reads back every text of that form
(`readTime?_write`). What is left to see is that the decimals of a duration come
to what is over (`Decimal.fraction_shortDigits`), by induction on the places: the
first digit is the quotient by a tenth of the unit, and the others are the
decimals of the remainder. Zeros at the end are left out as soon as the
remainder is zero, so the last decimal is none (`Decimal.getLast_shortDigits`).

A record is read from behind, as there is no space in a time. The records of
one call are those of the rounds up to the first sum that is too long
(`Stopwatch.timeRounds_recorded`), and each tells the sum of the intervals so far.

Key definitions: `Decimal.fraction`, `TimeText`, `readTime?`, `Duration.inWords`,
`LogRecord.told?`.
Key theorems: `readTime?_write`, `Duration.readTime?_text`, `LogRecord.told?_round`,
`Stopwatch.timeRounds_recorded`, `Stopwatch.timeRounds_told`.
-/
import CapturePace.Proofs.TimedRounds

namespace CapturePace

/-! ## Times in words -/

namespace TimeUnit

/-- How long the unit is, in nanoseconds. -/
def nanos : TimeUnit → Nat
  | .second => 1000000000
  | .millisecond => 1000000
  | .microsecond => 1000
  | .nanosecond => 1

/-- The unit with a given sign. -/
def ofSign? (sign : List Char) : Option TimeUnit :=
  [.second, .millisecond, .microsecond, .nanosecond].find? fun unit => unit.sign.toList = sign

variable (unit : TimeUnit)

@[simp] theorem ofSign?_sign : ofSign? unit.sign.toList = some unit := by
  cases unit <;> decide

theorem tenTo_places : Decimal.tenTo unit.places = unit.nanos := by
  cases unit <;> rfl

theorem nanos_pos : 0 < unit.nanos := by
  cases unit <;> decide

/-- No sign looks like a number, or like more of it. -/
theorem sign_starts : ∃ c cs, unit.sign.toList = c :: cs ∧ c.isDigit = false ∧ c ≠ '.' := by
  cases unit
  · exact ⟨'s', [], by decide⟩
  · exact ⟨'m', ['s'], by decide⟩
  · exact ⟨'µ', ['s'], by decide⟩
  · exact ⟨'n', ['s'], by decide⟩

theorem space_notMem_sign : ' ' ∉ unit.sign.toList := by
  cases unit <;> decide

end TimeUnit

/-- What the digits behind a point come to. Each counts a tenth of the one before it. -/
def Decimal.fraction : List Char → ℚ
  | [] => 0
  | c :: cs => ((c.toNat - '0'.toNat : ℕ) + fraction cs) / 10

/-- The digits in front, and what is behind them. -/
def spanDigits (cs : List Char) : List Char × List Char := cs.span Char.isDigit

/-- The digits behind a point, if there is one, and what is behind them. -/
def spanDecimals : List Char → List Char × List Char
  | '.' :: cs => spanDigits cs
  | cs => ([], cs)

/-- Reads a time: a number with decimals or without, and a unit. The time is
given in nanoseconds. -/
def readTime? (cs : List Char) : Option ℚ :=
  let (whole, behind) := spanDigits cs
  let (decimals, sign) := spanDecimals behind
  if whole = [] then none
  else (TimeUnit.ofSign? sign).map fun unit =>
    (Nat.ofDigitChars 10 whole 0 + Decimal.fraction decimals) * unit.nanos

/-- A time in words: the digits of a number, and a unit. -/
structure TimeText where
  whole : List Char
  decimals : List Char
  unit : TimeUnit
  nonempty : whole ≠ []
  whole_digits : ∀ c ∈ whole, c.isDigit
  decimals_digits : ∀ c ∈ decimals, c.isDigit

namespace TimeText

/-- The text. There is no point without decimals. -/
def write (words : TimeText) : List Char :=
  words.whole ++ ((if words.decimals = [] then [] else '.' :: words.decimals) ++ words.unit.sign.toList)

/-- The number of units, times the unit. -/
def value (words : TimeText) : ℚ :=
  (Nat.ofDigitChars 10 words.whole 0 + Decimal.fraction words.decimals) * words.unit.nanos

theorem space_notMem_write (words : TimeText) : ' ' ∉ words.write := by
  have no_digit {digits : List Char} (all : ∀ c ∈ digits, c.isDigit) : ' ' ∉ digits :=
    fun mem => absurd (all ' ' mem) (by decide)
  unfold write
  split
  · simp [no_digit words.whole_digits, words.unit.space_notMem_sign]
  · simp [no_digit words.whole_digits, no_digit words.decimals_digits, words.unit.space_notMem_sign]

end TimeText

theorem spanDigits_append {digits rest : List Char} {c : Char} (all : ∀ c ∈ digits, c.isDigit)
    (stops : c.isDigit = false) : spanDigits (digits ++ c :: rest) = (digits, c :: rest) := by
  rw [spanDigits, List.span_eq_takeWhile_dropWhile, List.takeWhile_append_of_pos all,
    List.dropWhile_append_of_pos all, List.takeWhile_cons_of_neg (by simp [stops]),
    List.dropWhile_cons_of_neg (by simp [stops]), List.append_nil]

theorem spanDecimals_of_ne {c : Char} {cs : List Char} (no_point : c ≠ '.') :
    spanDecimals (c :: cs) = ([], c :: cs) := by
  unfold spanDecimals
  split
  · next point =>
    cases point
    exact absurd rfl no_point
  · rfl

/-- **Times in words can be read back.** -/
theorem readTime?_write (words : TimeText) : readTime? words.write = some words.value := by
  obtain ⟨c, cs, sign, no_digit, no_point⟩ := words.unit.sign_starts
  have unit := words.unit.ofSign?_sign
  rw [sign] at unit
  unfold readTime? TimeText.write TimeText.value
  rw [sign]
  by_cases plain : words.decimals = []
  · rw [if_pos plain, plain, List.nil_append, spanDigits_append words.whole_digits no_digit]
    dsimp only
    rw [spanDecimals_of_ne no_point, if_neg words.nonempty, unit]
    rfl
  · have behind : spanDecimals ('.' :: (words.decimals ++ c :: cs)) = (words.decimals, c :: cs) :=
      spanDigits_append words.decimals_digits no_digit
    rw [if_neg plain, List.cons_append, spanDigits_append words.whole_digits (by decide)]
    dsimp only
    rw [behind, if_neg words.nonempty, unit]
    rfl

/-! ## Durations in words -/

namespace Decimal

variable {places n : Nat}

theorem quotient_lt (lt : n < tenTo (places + 1)) : n / tenTo places < 10 :=
  Nat.div_lt_of_lt_mul (by rwa [tenTo, Nat.mul_comm] at lt)

theorem shortDigits_isDigit (lt : n < tenTo places) : ∀ c ∈ shortDigits places n, c.isDigit := by
  induction places generalizing n with
  | zero => simp [shortDigits]
  | succ places ih =>
    rw [shortDigits]
    split
    · simp
    · rw [List.forall_mem_cons]
      refine ⟨?_, ih (Nat.mod_lt n (tenTo_pos places))⟩
      rw [Nat.isDigit_digitChar, decide_eq_true_iff]
      exact quotient_lt lt

theorem shortDigits_eq_nil_iff (lt : n < tenTo places) : shortDigits places n = [] ↔ n = 0 := by
  cases places with
  | zero =>
    rw [tenTo, Nat.lt_one_iff] at lt
    exact iff_of_true rfl lt
  | succ places =>
    rw [shortDigits]
    split
    · next zero => exact iff_of_true rfl zero
    · next positive => exact iff_of_false (List.cons_ne_nil _ _) positive

/-- **Short decimals are exact.** -/
theorem fraction_shortDigits (lt : n < tenTo places) :
    fraction (shortDigits places n) = n / tenTo places := by
  induction places generalizing n with
  | zero =>
    rw [tenTo, Nat.lt_one_iff] at lt
    simp [lt, shortDigits, fraction]
  | succ places ih =>
    rw [shortDigits]
    split
    · next zero => simp [zero, fraction]
    · have digit : (n / tenTo places).digitChar.toNat - '0'.toNat = n / tenTo places := by
        rw [Nat.toNat_digitChar_of_lt_ten (quotient_lt lt)]
        exact Nat.add_sub_cancel_left 48 (n / tenTo places)
      have cut : (tenTo places : ℚ) * (n / tenTo places : ℕ) + (n % tenTo places : ℕ) = n := by
        exact_mod_cast Nat.div_add_mod n (tenTo places)
      have positive : (tenTo places : ℚ) ≠ 0 := by exact_mod_cast (tenTo_pos places).ne'
      rw [fraction, digit, ih (Nat.mod_lt n (tenTo_pos places)), ← cut, tenTo]
      push_cast
      field_simp

/-- The last of the short decimals counts. -/
theorem getLast_shortDigits (lt : n < tenTo places) : (shortDigits places n).getLast? ≠ some '0' := by
  induction places generalizing n with
  | zero => simp [shortDigits]
  | succ places ih =>
    have below := Nat.mod_lt n (tenTo_pos places)
    rw [shortDigits]
    split
    · simp
    · next positive =>
      by_cases last : n % tenTo places = 0
      · have counts : n / tenTo places ≠ 0 := by
          intro none
          have cut := Nat.div_add_mod n (tenTo places)
          rw [none, last] at cut
          exact positive cut.symm
        rw [last, shortDigits_zero, List.getLast?_singleton]
        intro zero
        have value := Nat.toNat_digitChar_of_lt_ten (quotient_lt lt)
        rw [Option.some.inj zero] at value
        have same : '0'.toNat = 48 := rfl
        omega
      · obtain ⟨c, cs, more⟩ := List.exists_cons_of_ne_nil (mt (shortDigits_eq_nil_iff below).1 last)
        have ends := ih below
        rw [more] at ends ⊢
        rwa [List.getLast?_cons_cons]

end Decimal

namespace Duration

variable {d d' : Duration}

theorem remainder_lt (d : Duration) : d.toNanos % d.unit.nanos < Decimal.tenTo d.unit.places := by
  rw [TimeUnit.tenTo_places]
  exact Nat.mod_lt _ d.unit.nanos_pos

/-- The whole part and the decimals of a duration in its largest unit. -/
def inWords (d : Duration) : TimeText where
  whole := Nat.toDigits 10 (d.toNanos / d.unit.nanos)
  decimals := Decimal.shortDigits d.unit.places (d.toNanos % d.unit.nanos)
  unit := d.unit
  nonempty := Nat.toDigits_ne_nil
  whole_digits _ mem := Nat.isDigit_of_mem_toDigits (by decide) (by decide) mem
  decimals_digits := Decimal.shortDigits_isDigit d.remainder_lt

theorem toList_text (d : Duration) : d.text.toList = d.inWords.write := by
  have none := Decimal.shortDigits_eq_nil_iff d.remainder_lt
  unfold text Decimal.shortText TimeText.write inWords
  rw [TimeUnit.tenTo_places]
  dsimp only
  split
  · next zero => simp [none.2 zero]
  · next some => simp [mt none.1 some]

theorem value_inWords (d : Duration) : d.inWords.value = d.toNanos := by
  have cut : (d.unit.nanos : ℚ) * (d.toNanos / d.unit.nanos : ℕ) + (d.toNanos % d.unit.nanos : ℕ) =
      d.toNanos := by
    exact_mod_cast Nat.div_add_mod d.toNanos d.unit.nanos
  have positive : (d.unit.nanos : ℚ) ≠ 0 := by exact_mod_cast d.unit.nanos_pos.ne'
  unfold TimeText.value inWords
  rw [Nat.ofDigitChars_ten_toDigits, Decimal.fraction_shortDigits d.remainder_lt, TimeUnit.tenTo_places, add_mul,
    div_mul_cancel₀ _ positive, mul_comm, cut]

/-- **A duration can be read back from its text.** -/
theorem readTime?_text (d : Duration) : readTime? d.text.toList = some (d.toNanos : ℚ) := by
  rw [toList_text, readTime?_write, value_inWords]

/-- Zeros between the point and the last decimal stay. -/
example : (ofNanos 1000000001).text = "1.000000001s" ∧
    readTime? "1.000000001s".toList = some 1000000001 := by
  cbv

theorem text_inj : d.text = d'.text ↔ d = d' := by
  refine ⟨fun same => ?_, congrArg text⟩
  have read := d.readTime?_text
  rw [same, readTime?_text, Option.some.injEq, Nat.cast_inj] at read
  exact (toNanos_inj.1 read).symm

theorem unit_cases (d : Duration) :
    (d.unit = .second ∧ 1000000000 ≤ d.toNanos) ∨
    (d.unit = .millisecond ∧ 1000000 ≤ d.toNanos ∧ d.toNanos < 1000000000) ∨
    (d.unit = .microsecond ∧ 1000 ≤ d.toNanos ∧ d.toNanos < 1000000) ∨
    (d.unit = .nanosecond ∧ d.toNanos < 1000) := by
  have below := d.nanos_lt
  unfold toNanos nanosPerSecond at *
  unfold unit
  split
  · exact .inl ⟨rfl, by omega⟩
  · split
    · exact .inr (.inl ⟨rfl, by omega, by omega⟩)
    · split
      · exact .inr (.inr (.inl ⟨rfl, by omega, by omega⟩))
      · exact .inr (.inr (.inr ⟨rfl, by omega⟩))

/-- The unit that the duration is told in fits into it, if any does. -/
theorem unit_le_toNanos (d : Duration) : d.unit.nanos ≤ d.toNanos ∨ d.unit = .nanosecond := by
  rcases d.unit_cases with ⟨unit, fits⟩ | ⟨unit, fits, -⟩ | ⟨unit, fits, -⟩ | ⟨unit, -⟩
  · exact .inl (by rwa [unit])
  · exact .inl (by rwa [unit])
  · exact .inl (by rwa [unit])
  · exact .inr unit

/-- No larger unit fits into the duration than the one it is told in. -/
theorem nanos_le_unit {other : TimeUnit} (fits : other.nanos ≤ d.toNanos) :
    other.nanos ≤ d.unit.nanos := by
  rcases d.unit_cases with ⟨unit, -⟩ | ⟨unit, -, short⟩ | ⟨unit, -, short⟩ | ⟨unit, short⟩
  · rw [unit]
    cases other <;> decide
  · rw [unit]
    cases other <;> simp only [TimeUnit.nanos] at fits ⊢ <;> omega
  · rw [unit]
    cases other <;> simp only [TimeUnit.nanos] at fits ⊢ <;> omega
  · rw [unit]
    cases other <;> simp only [TimeUnit.nanos] at fits ⊢ <;> omega

/-- There are no zeros at the end. -/
theorem getLast_decimals (d : Duration) : d.inWords.decimals.getLast? ≠ some '0' :=
  Decimal.getLast_shortDigits d.remainder_lt

end Duration

/-! ## Times in records -/

/-- What is behind the last space. -/
def lastWord (cs : List Char) : List Char := cs.rtakeWhile (· ≠ ' ')

theorem lastWord_append (front : List Char) {word : List Char} (no_space : ' ' ∉ word) :
    lastWord (front ++ ' ' :: word) = word := by
  have all : ∀ c ∈ word.reverse, decide (c ≠ ' ') = true := by
    intro c mem
    rw [decide_eq_true_iff]
    rintro rfl
    exact no_space (List.mem_reverse.1 mem)
  rw [lastWord, List.rtakeWhile, List.reverse_append, List.reverse_cons, List.append_assoc,
    List.takeWhile_append_of_pos all, List.singleton_append, List.takeWhile_cons_of_neg (by simp),
    List.append_nil, List.reverse_reverse]

/-- The time that a record tells with its last word. -/
def LogRecord.told? (record : LogRecord) : Option ℚ :=
  readTime? (lastWord (record.text .shown).toList)

/-- **The record of a round tells the accumulated time**, to the nanosecond. -/
theorem LogRecord.told?_round (number rounds blocks : Nat) (accumulated : Duration) :
    (round number rounds blocks accumulated).told? = some (accumulated.toNanos : ℚ) := by
  have space : " blocks, accumulated ".toList = " blocks, accumulated".toList ++ [' '] := by decide
  have words : ∃ front, ((round number rounds blocks accumulated).text .shown).toList =
      front ++ ' ' :: accumulated.text.toList := by
    rw [text, String.toList_append, String.toList_append, space, ← List.append_assoc, List.append_assoc,
      List.singleton_append]
    exact ⟨_, rfl⟩
  obtain ⟨front, words⟩ := words
  have no_space : ' ' ∉ accumulated.text.toList := by
    rw [Duration.toList_text]
    exact accumulated.inWords.space_notMem_write
  rw [told?, words, lastWord_append front no_space, Duration.readTime?_text]

/-! ## The records of one call -/

namespace Stopwatch

variable {watch : Stopwatch} {time : TimeSource} {bs : List UInt8} {settings : Settings}

/-- What is recorded are the first rounds, and there is a duration of their
length. If all rounds are done, the stopwatch shows it. -/
theorem timeRounds_recorded (watch : Stopwatch) (time : TimeSource) (bs : List UInt8) (settings : Settings) :
    ∃ rounds blocks n, watch.sumAfter time n ≤ Duration.longest.toNanos ∧
      (watch.timeRounds time bs settings).journal = watch.roundRecords time rounds blocks n ∧
      ∀ tally, (watch.timeRounds time bs settings).verdict = .finished tally →
        0 < n ∧ (watch.timeRounds time bs settings).watch = watch.afterRounds time n := by
  have start : watch.sumAfter time 0 ≤ Duration.longest.toNanos := by
    rw [sumAfter_zero]
    exact watch.elapsed.toNanos_le_longest
  cases running : watch.isRunning with
  | true =>
    rw [timeRounds_of_running running]
    exact ⟨0, 0, 0, start, rfl, fun tally done => by cases done⟩
  | false =>
    have stopped := isRunning_eq_false.1 running
    by_cases finished : (tallyOf bs settings.capacity).isFinished = true
    · obtain ⟨tally, counted⟩ := Verdict.isFinished_iff.1 finished
      obtain ⟨left, -, call⟩ := watch.timeRounds_eq time bs settings
      rw [call, counted]
      rcases Nat.lt_or_ge Duration.longest.toNanos (watch.sumAfter time (left + 1)) with long | fits
      · obtain ⟨n, lt, before, long⟩ := exists_first_long long
        rw [timeRoundsFrom_of_long stopped (Nat.le_of_lt_succ lt) before long]
        exact ⟨left + 1, tally.blocks, n, before, rfl, fun tally done => by cases done⟩
      · rw [timeRoundsFrom_of_fits stopped fits]
        exact ⟨left + 1, tally.blocks, left + 1, fits, rfl, fun _ _ => ⟨left.succ_pos, rfl⟩⟩
    · have unfinished := Bool.eq_false_of_not_eq_true finished
      rcases Nat.lt_or_ge Duration.longest.toNanos (watch.sumAfter time 1) with long | fits
      · rw [timeRounds_of_long stopped bs settings long]
        have ended := Verdict.isFinished_unclosed (tallyOf bs settings.capacity)
        refine ⟨0, 0, 0, start, rfl, fun tally done => ?_⟩
        rw [show (tallyOf bs settings.capacity).unclosed = _ from done] at ended
        cases ended
      · rw [timeRounds_of_unfinished stopped unfinished fits]
        refine ⟨0, 0, 0, start, rfl, fun tally done => ?_⟩
        rw [show tallyOf bs settings.capacity = _ from done] at unfinished
        cases unfinished

/-- What the stopwatch shows before a call, and what the records of the call tell. -/
def toldTimes (watch : Stopwatch) (time : TimeSource) (bs : List UInt8) (settings : Settings) :
    List (Option ℚ) :=
  some (watch.elapsed.toNanos : ℚ) :: (watch.timeRounds time bs settings).journal.map LogRecord.told?

/-- They tell the sums of the intervals. -/
theorem getElem?_toldTimes {i : Nat} (le : i ≤ (watch.timeRounds time bs settings).journal.length) :
    (watch.toldTimes time bs settings)[i]? = some (some (watch.sumAfter time i : ℚ)) := by
  obtain ⟨rounds, blocks, n, fits, journal, -⟩ := watch.timeRounds_recorded time bs settings
  rw [toldTimes]
  cases i with
  | zero => rw [List.getElem?_cons_zero, sumAfter_zero]
  | succ i =>
    rw [journal, roundRecords, List.length_map, List.length_range] at le
    have short := (sumAfter_mono le).trans fits
    rw [List.getElem?_cons_succ, journal, roundRecords, List.getElem?_map, List.getElem?_map,
      List.getElem?_range le, Option.map_some, Option.map_some, LogRecord.told?_round,
      elapsed_afterRounds short]

/-- The last record tells what the stopwatch shows when all rounds are done. -/
theorem getLast_toldTimes {tally : Tally} (done : (watch.timeRounds time bs settings).verdict = .finished tally) :
    (watch.toldTimes time bs settings).getLast? =
      some (some ((watch.timeRounds time bs settings).watch.elapsed.toNanos : ℚ)) := by
  obtain ⟨rounds, blocks, n, -, journal, all⟩ := watch.timeRounds_recorded time bs settings
  obtain ⟨some_round, shown⟩ := all tally done
  obtain ⟨m, rfl⟩ := Nat.exists_eq_add_of_lt some_round
  rw [Nat.zero_add] at journal shown
  rw [toldTimes, journal, shown, roundRecords_succ, List.map_append, ← List.cons_append,
    List.getLast?_append, List.map_singleton, LogRecord.told?_round]
  rfl

/-- **Recorded times are exact.** A duration is written in the largest unit that it
holds, with the decimals it takes and no zeros behind them; read back as a number of
units it is the duration to the nanosecond, so two durations with the same text
are the same. What the record of a round tells more than the one before it, or more
than the stopwatch showed before the first round, is the interval of the round.
The record of the last one tells what the stopwatch then shows. -/
theorem timeRounds_told (watch : Stopwatch) (time : TimeSource) (bs : List UInt8) (settings : Settings) :
    (∀ d : Duration, d.text.toList = d.inWords.write ∧
      (d.inWords.unit.nanos ≤ d.toNanos ∨ d.inWords.unit = .nanosecond) ∧
      (∀ other : TimeUnit, other.nanos ≤ d.toNanos → other.nanos ≤ d.inWords.unit.nanos) ∧
      d.inWords.decimals.getLast? ≠ some '0') ∧
    (∀ d : Duration, readTime? d.text.toList = some (d.toNanos : ℚ)) ∧
    (∀ d d' : Duration, d.text = d'.text → d = d') ∧
    (∀ number rounds blocks accumulated,
      (LogRecord.round number rounds blocks accumulated).told? = some (accumulated.toNanos : ℚ)) ∧
    (∀ i < (watch.timeRounds time bs settings).journal.length, ∃ before after : ℚ,
      (watch.toldTimes time bs settings)[i]? = some (some before) ∧
      (watch.toldTimes time bs settings)[i + 1]? = some (some after) ∧
      after - before = time.interval i) ∧
    ∀ tally, (watch.timeRounds time bs settings).verdict = .finished tally →
      (watch.toldTimes time bs settings).getLast? =
        some (some ((watch.timeRounds time bs settings).watch.elapsed.toNanos : ℚ)) := by
  refine ⟨fun d => ⟨d.toList_text, d.unit_le_toNanos, fun other => d.nanos_le_unit, d.getLast_decimals⟩,
    Duration.readTime?_text, fun d d' => Duration.text_inj.1, LogRecord.told?_round, fun i lt => ?_,
    fun tally => getLast_toldTimes⟩
  refine ⟨_, _, getElem?_toldTimes lt.le, getElem?_toldTimes lt, ?_⟩
  rw [sumAfter_succ]
  push_cast
  exact add_sub_cancel_left _ _

end Stopwatch

end CapturePace
