/-
# Timed rounds are accounted for

Every round over a capture takes two readings of the time source and adds
what lies between them to the stopwatch. After `n` rounds the stopwatch shows
what it showed before and the first `n` intervals (`Stopwatch.sumAfter`), as
long as there is a duration of that length. One round adds one interval
(`timeRound_afterRounds`), so rounds in a row add theirs
(`timeRoundsFrom_finished`), and each is logged with the sum behind it.

The rounds end in one of four ways: the stopwatch was in use, the walk did not
end well, all rounds are done, or a sum is longer than any duration
(`Stopwatch.timeRounds_ends`). In the last case the round that was too long
leaves its interval open, and if its walk had broken off as well, over a window
that is too long for any buffer, all is aborted.

Key definitions: `TimeSource.reading`, `TimeSource.after`, `TimeSource.interval`,
`Stopwatch.sumAfter`, `Stopwatch.afterRounds`, `Stopwatch.roundRecords`.
Key theorems: `timeRound_afterRounds`, `timeRoundsFrom_finished`,
`Stopwatch.timeRounds_ends`.
-/
import CapturePace.Proofs.Calls

namespace CapturePace

/-! ### The readings ahead -/

namespace TimeSource

/-- The reading that a source shows behind `i` others. -/
def reading : TimeSource → Nat → Duration
  | .manual now, _ => now
  | .series reading taken, i => reading (taken + i)

/-- The source after `n` readings. -/
def after : TimeSource → Nat → TimeSource
  | .manual now, _ => .manual now
  | .series reading taken, n => .series reading (taken + n)

variable (time : TimeSource) (m n : Nat)

@[simp] theorem after_zero : time.after 0 = time := by
  cases time <;> rfl

@[simp] theorem reading_after : (time.after m).reading n = time.reading (m + n) := by
  cases time with
  | manual now => rfl
  | series shown taken => simp only [after, reading, Nat.add_assoc]

@[simp] theorem read_after : (time.after n).read = (time.reading n, time.after (n + 1)) := by
  cases time <;> rfl

/-- The length of the interval of round `i`, the first one being round zero:
from one reading to the next, and nothing if time went back. -/
def interval (i : Nat) : Nat := (time.reading (2 * i + 1)).toNanos - (time.reading (2 * i)).toNanos

end TimeSource

theorem Duration.toNanos_ofNanos_of_le {n : Nat} (fits : n ≤ longest.toNanos) :
    (ofNanos n).toNanos = n :=
  toNanos_ofNanos (fits.trans_lt longest.toNanos_lt)

/-! ### Sums of intervals -/

namespace Stopwatch

/-- What a stopwatch has to show after `n` rounds: what it showed before, and
the first `n` intervals. -/
def sumAfter (watch : Stopwatch) (time : TimeSource) (n : Nat) : Nat :=
  watch.elapsed.toNanos + ∑ i ∈ Finset.range n, time.interval i

/-- The stopwatch after `n` rounds. -/
def afterRounds (watch : Stopwatch) (time : TimeSource) (n : Nat) : Stopwatch :=
  ⟨.ofNanos (watch.sumAfter time n), none⟩

/-- The records of the first `n` of the rounds, each with the sum behind it. -/
def roundRecords (watch : Stopwatch) (time : TimeSource) (rounds blocks n : Nat) : List LogRecord :=
  (List.range n).map fun i =>
    .round (i + 1) rounds blocks (watch.afterRounds time (i + 1)).elapsed

variable {watch : Stopwatch} {time : TimeSource} {n m : Nat}

theorem sumAfter_zero (watch : Stopwatch) (time : TimeSource) :
    watch.sumAfter time 0 = watch.elapsed.toNanos := by
  simp [sumAfter]

theorem sumAfter_succ (watch : Stopwatch) (time : TimeSource) (n : Nat) :
    watch.sumAfter time (n + 1) = watch.sumAfter time n + time.interval n := by
  rw [sumAfter, sumAfter, Finset.sum_range_succ, Nat.add_assoc]

theorem sumAfter_mono (le : n ≤ m) : watch.sumAfter time n ≤ watch.sumAfter time m := by
  induction le with
  | refl => exact le_rfl
  | step _ ih =>
    rw [sumAfter_succ]
    omega

/-- If the sum is too long behind some rounds, one of them was the first. -/
theorem exists_first_long (long : Duration.longest.toNanos < watch.sumAfter time n) :
    ∃ m < n, watch.sumAfter time m ≤ Duration.longest.toNanos ∧
      Duration.longest.toNanos < watch.sumAfter time (m + 1) := by
  induction n with
  | zero =>
    rw [sumAfter_zero] at long
    exact absurd watch.elapsed.toNanos_le_longest (Nat.not_le.2 long)
  | succ n ih =>
    rcases Nat.lt_or_ge Duration.longest.toNanos (watch.sumAfter time n) with before | fits
    · obtain ⟨m, lt, first⟩ := ih before
      exact ⟨m, lt.trans n.lt_succ_self, first⟩
    · exact ⟨n, n.lt_succ_self, fits, long⟩

theorem afterRounds_zero (stopped : watch.startedAt = none) (time : TimeSource) :
    watch.afterRounds time 0 = watch := by
  unfold afterRounds
  rw [sumAfter_zero, Duration.ofNanos_toNanos, ← stopped]

/-- What the stopwatch shows is the sum, if there is a duration of its length. -/
theorem elapsed_afterRounds (fits : watch.sumAfter time n ≤ Duration.longest.toNanos) :
    (watch.afterRounds time n).elapsed.toNanos = watch.sumAfter time n :=
  Duration.toNanos_ofNanos_of_le fits

theorem roundRecords_succ (watch : Stopwatch) (time : TimeSource) (rounds blocks n : Nat) :
    watch.roundRecords time rounds blocks (n + 1) =
      watch.roundRecords time rounds blocks n ++
        [.round (n + 1) rounds blocks (watch.afterRounds time (n + 1)).elapsed] := by
  rw [roundRecords, List.range_succ, List.map_append]
  rfl

end Stopwatch

/-! ### One round after others -/

section Round

variable {outcome : Verdict Tally} {tally : Tally} {watch : Stopwatch} {time : TimeSource}
  {rounds left n : Nat}

/-- **A round adds its interval**, whatever comes of the walk. -/
theorem timeRound_afterRounds (outcome : Verdict Tally)
    (fits : watch.sumAfter time (n + 1) ≤ Duration.longest.toNanos) :
    timeRound outcome (watch.afterRounds time n) (time.after (2 * n)) =
      (outcome, watch.afterRounds time (n + 1), time.after (2 * (n + 1))) := by
  have before := (Stopwatch.sumAfter_mono n.le_succ).trans fits
  have length : (watch.afterRounds time n).elapsed.toNanos +
      ((time.reading (2 * n + 1)).monus (time.reading (2 * n))).toNanos =
        watch.sumAfter time (n + 1) := by
    rw [Stopwatch.elapsed_afterRounds before, Duration.toNanos_monus, Stopwatch.sumAfter_succ]
    rfl
  obtain ⟨sum, added, total⟩ := Duration.exists_add (length.trans_le fits)
  have same : sum = .ofNanos (watch.sumAfter time (n + 1)) := by
    rw [← length, ← total, Duration.ofNanos_toNanos]
  have fits : (watch.afterRounds time n).elapsed.add?
      ((time.after (2 * n)).read.2.read.1.monus (time.after (2 * n)).read.1) = some sum := by
    simpa only [TimeSource.read_after] using added
  rw [timeRound_of_add rfl fits]
  simp only [TimeSource.read_after, Stopwatch.afterRounds, same, Nat.mul_succ]

/-- A round that is too long leaves its interval open, and the elapsed time as it
was. It breaks off, or aborts if the walk has broken off. -/
theorem timeRound_of_long (outcome : Verdict Tally)
    (before : watch.sumAfter time n ≤ Duration.longest.toNanos)
    (long : Duration.longest.toNanos < watch.sumAfter time (n + 1)) :
    timeRound outcome (watch.afterRounds time n) (time.after (2 * n)) =
      (outcome.unclosed, ⟨(watch.afterRounds time n).elapsed, some (time.reading (2 * n))⟩,
        time.after (2 * (n + 1))) := by
  have refused : (watch.afterRounds time n).elapsed.add?
      ((time.reading (2 * n + 1)).monus (time.reading (2 * n))) = none := by
    rw [Duration.add?_eq_none, Stopwatch.elapsed_afterRounds before, Duration.toNanos_monus]
    rw [Stopwatch.sumAfter_succ] at long
    have limit : Duration.longest.toNanos + 1 = secondsLimit * nanosPerSecond := by decide
    unfold TimeSource.interval at long
    omega
  rw [timeRound_of_overflow rfl]
  · simp only [TimeSource.read_after, Nat.mul_succ]
  · simpa only [TimeSource.read_after] using refused

/-! ### Rounds in a row -/

/-- A round that is not the last one. -/
theorem timeRoundsFrom_succ {after : Stopwatch} {later : TimeSource} {logged : List LogRecord}
    (ended : timeRound outcome watch time = (.finished tally, after, later)) :
    timeRoundsFrom outcome rounds (left + 1) watch time logged =
      timeRoundsFrom outcome rounds left after later
        (.round (rounds - (left + 1)) rounds tally.blocks after.elapsed :: logged) := by
  rw [timeRoundsFrom, ended]

/-- The last round. -/
theorem timeRoundsFrom_zero {after : Stopwatch} {later : TimeSource} {logged : List LogRecord}
    (ended : timeRound outcome watch time = (.finished tally, after, later)) :
    timeRoundsFrom outcome rounds 0 watch time logged =
      ⟨.finished tally, after, later,
        (.round (rounds - 0) rounds tally.blocks after.elapsed :: logged).reverse⟩ := by
  rw [timeRoundsFrom, ended]

/-- A round that does not end well is the last one. -/
theorem timeRoundsFrom_of_unfinished {verdict : Verdict Tally} {after : Stopwatch} {later : TimeSource}
    {logged : List LogRecord} (ended : timeRound outcome watch time = (verdict, after, later))
    (unfinished : verdict.isFinished = false) :
    timeRoundsFrom outcome rounds left watch time logged = ⟨verdict, after, later, logged.reverse⟩ := by
  rw [timeRoundsFrom.eq_def, ended]
  cases verdict with
  | finished tally => cases unfinished
  | failed fault => rfl
  | overflowed overflow => rfl
  | aborted => rfl

/-- **Rounds in a row add their intervals**, and each leaves its record. -/
theorem timeRoundsFrom_finished (stopped : watch.startedAt = none) (le : n ≤ left)
    (fits : watch.sumAfter time n ≤ Duration.longest.toNanos) :
    timeRoundsFrom (.finished tally) (left + 1) left watch time [] =
      timeRoundsFrom (.finished tally) (left + 1) (left - n) (watch.afterRounds time n)
        (time.after (2 * n)) (watch.roundRecords time (left + 1) tally.blocks n).reverse := by
  -- The rounds that are done count up while those that are left count down.
  induction n with
  | zero =>
    rw [Stopwatch.afterRounds_zero stopped, Nat.mul_zero, TimeSource.after_zero]
    rfl
  | succ n ih =>
    have more : left - n = left - (n + 1) + 1 := by omega
    have number : left + 1 - (left - (n + 1) + 1) = n + 1 := by omega
    have round := timeRound_afterRounds (.finished tally) fits
    rw [ih (Nat.le_of_succ_le le) ((Stopwatch.sumAfter_mono n.le_succ).trans fits), more,
      timeRoundsFrom_succ round, number, Stopwatch.roundRecords_succ, List.reverse_append]
    rfl

/-- All rounds are done if there is a duration as long as the last sum. -/
theorem timeRoundsFrom_of_fits (stopped : watch.startedAt = none)
    (fits : watch.sumAfter time (left + 1) ≤ Duration.longest.toNanos) :
    timeRoundsFrom (.finished tally) (left + 1) left watch time [] =
      ⟨.finished tally, watch.afterRounds time (left + 1), time.after (2 * (left + 1)),
        watch.roundRecords time (left + 1) tally.blocks (left + 1)⟩ := by
  have before := (Stopwatch.sumAfter_mono left.le_succ).trans fits
  rw [timeRoundsFrom_finished stopped le_rfl before, Nat.sub_self,
    timeRoundsFrom_zero (timeRound_afterRounds (.finished tally) fits), List.reverse_cons,
    List.reverse_reverse, Stopwatch.roundRecords_succ]
  rfl

/-- The first round whose sum is too long is the last one. -/
theorem timeRoundsFrom_of_long (stopped : watch.startedAt = none) (le : n ≤ left)
    (before : watch.sumAfter time n ≤ Duration.longest.toNanos)
    (long : Duration.longest.toNanos < watch.sumAfter time (n + 1)) :
    timeRoundsFrom (.finished tally) (left + 1) left watch time [] =
      ⟨.overflowed .duration, ⟨(watch.afterRounds time n).elapsed, some (time.reading (2 * n))⟩,
        time.after (2 * (n + 1)), watch.roundRecords time (left + 1) tally.blocks n⟩ := by
  rw [timeRoundsFrom_finished stopped le before,
    timeRoundsFrom_of_unfinished (timeRound_of_long (.finished tally) before long) rfl,
    List.reverse_reverse]
  rfl

/-- Rounds are logged for whoever debugs. -/
theorem timeRoundsFrom_level (outcome : Verdict Tally) (rounds left : Nat) (watch : Stopwatch)
    (time : TimeSource) {logged : List LogRecord} (debug : ∀ record ∈ logged, record.level = .debug) :
    ∀ record ∈ (timeRoundsFrom outcome rounds left watch time logged).journal, record.level = .debug := by
  induction left generalizing watch time logged with
  | zero =>
    unfold timeRoundsFrom
    split
    · simp only [List.mem_reverse]
      exact List.forall_mem_cons.2 ⟨rfl, debug⟩
    · simpa only [List.mem_reverse] using debug
  | succ left ih =>
    unfold timeRoundsFrom
    split
    · apply ih
      exact List.forall_mem_cons.2 ⟨rfl, debug⟩
    · simpa only [List.mem_reverse] using debug

/-! ### All rounds of a capture -/

/-- A window that a buffer can be made for is walked to a fault or a tally. -/
theorem tallyOf_failed_or_finished {capacity : Nat} (bs : List UInt8) (made : capacity ≤ bufferLimit) :
    (∃ fault, tallyOf bs capacity = .failed fault) ∨ ∃ tally, tallyOf bs capacity = .finished tally := by
  rw [tallyOf, ByteSource.tally_of_le made]
  cases ByteSource.pass ⟨bs, []⟩ capacity with
  | ok tally => exact .inr ⟨tally, rfl⟩
  | error fault => exact .inl ⟨fault, rfl⟩

namespace Stopwatch

variable {bs : List UInt8} {settings : Settings}

/-- There is a round, and the others come after it. -/
theorem timeRounds_eq (watch : Stopwatch) (time : TimeSource) (bs : List UInt8) (settings : Settings) :
    ∃ left, max 1 settings.rounds = left + 1 ∧
      watch.timeRounds time bs settings =
        timeRoundsFrom (tallyOf bs settings.capacity) (left + 1) left watch time [] := by
  have more : max 1 settings.rounds - 1 + 1 = max 1 settings.rounds := by omega
  refine ⟨max 1 settings.rounds - 1, more.symm, ?_⟩
  rw [more]
  rfl

theorem timeRounds_of_running (running : watch.isRunning = true) (time : TimeSource) (bs : List UInt8)
    (settings : Settings) :
    watch.timeRounds time bs settings = ⟨.failed (.misused .alreadyRunning), watch, time, []⟩ := by
  obtain ⟨left, -, rounds⟩ := watch.timeRounds_eq time bs settings
  obtain ⟨began, started⟩ := isRunning_eq_true.1 running
  rw [rounds, timeRoundsFrom_of_unfinished (timeRound_of_running started) rfl]
  rfl

/-- A walk that does not end well is not repeated. -/
theorem timeRounds_of_unfinished (stopped : watch.startedAt = none)
    (unfinished : (tallyOf bs settings.capacity).isFinished = false)
    (fits : watch.sumAfter time 1 ≤ Duration.longest.toNanos) :
    watch.timeRounds time bs settings =
      ⟨tallyOf bs settings.capacity, watch.afterRounds time 1, time.after 2, []⟩ := by
  obtain ⟨left, -, rounds⟩ := watch.timeRounds_eq time bs settings
  have round := timeRound_afterRounds (n := 0) (tallyOf bs settings.capacity) fits
  rw [afterRounds_zero stopped, Nat.mul_zero, TimeSource.after_zero] at round
  rw [rounds, timeRoundsFrom_of_unfinished round unfinished]
  rfl

/-- A first round that is too long is the last one, whatever comes of the walk. -/
theorem timeRounds_of_long (stopped : watch.startedAt = none) (bs : List UInt8) (settings : Settings)
    (long : Duration.longest.toNanos < watch.sumAfter time 1) :
    watch.timeRounds time bs settings =
      ⟨(tallyOf bs settings.capacity).unclosed, ⟨watch.elapsed, some (time.reading 0)⟩, time.after 2, []⟩ := by
  obtain ⟨left, -, rounds⟩ := watch.timeRounds_eq time bs settings
  have before : watch.sumAfter time 0 ≤ Duration.longest.toNanos := by
    rw [sumAfter_zero]
    exact watch.elapsed.toNanos_le_longest
  have round := timeRound_of_long (tallyOf bs settings.capacity) before long
  rw [afterRounds_zero stopped, Nat.mul_zero, TimeSource.after_zero] at round
  rw [rounds, timeRoundsFrom_of_unfinished round (Verdict.isFinished_unclosed _)]
  rfl

/-- **Timed rounds are accounted for.** On a stopwatch in use nothing happens.
A window that a buffer can be made for is walked to a fault or to a tally. A
fault takes one round, and is what comes of the whole. A tally takes all of them,
and leaves a record of each, if there is a duration as long as their sum;
otherwise the first round with a sum that is too long ends it, and only the
rounds before it are recorded. A window that is too long takes one round too,
which breaks off, and aborts if the sum is too long as well. What a stopwatch
shows after some rounds is exactly their sum. -/
theorem timeRounds_ends (watch : Stopwatch) (time : TimeSource) (bs : List UInt8) (settings : Settings) :
    (watch.isRunning = true →
      watch.timeRounds time bs settings = ⟨.failed (.misused .alreadyRunning), watch, time, []⟩) ∧
    (settings.capacity ≤ bufferLimit →
      (∃ fault, tallyOf bs settings.capacity = .failed fault) ∨
        ∃ tally, tallyOf bs settings.capacity = .finished tally) ∧
    (watch.isRunning = false → ∀ fault, tallyOf bs settings.capacity = .failed fault →
      (watch.sumAfter time 1 ≤ Duration.longest.toNanos →
        watch.timeRounds time bs settings = ⟨.failed fault, watch.afterRounds time 1, time.after 2, []⟩) ∧
      (Duration.longest.toNanos < watch.sumAfter time 1 →
        watch.timeRounds time bs settings =
          ⟨.overflowed .duration, ⟨watch.elapsed, some (time.reading 0)⟩, time.after 2, []⟩)) ∧
    (watch.isRunning = false → ∀ tally, tallyOf bs settings.capacity = .finished tally →
      (watch.sumAfter time (max 1 settings.rounds) ≤ Duration.longest.toNanos →
        watch.timeRounds time bs settings =
          ⟨.finished tally, watch.afterRounds time (max 1 settings.rounds),
            time.after (2 * max 1 settings.rounds),
            watch.roundRecords time (max 1 settings.rounds) tally.blocks (max 1 settings.rounds)⟩) ∧
      ∀ n < max 1 settings.rounds, watch.sumAfter time n ≤ Duration.longest.toNanos →
        Duration.longest.toNanos < watch.sumAfter time (n + 1) →
        watch.timeRounds time bs settings =
          ⟨.overflowed .duration, ⟨(watch.afterRounds time n).elapsed, some (time.reading (2 * n))⟩,
            time.after (2 * (n + 1)),
            watch.roundRecords time (max 1 settings.rounds) tally.blocks n⟩) ∧
    (watch.isRunning = false → bufferLimit < settings.capacity →
      (watch.sumAfter time 1 ≤ Duration.longest.toNanos →
        watch.timeRounds time bs settings =
          ⟨.overflowed .capacity, watch.afterRounds time 1, time.after 2, []⟩) ∧
      (Duration.longest.toNanos < watch.sumAfter time 1 →
        watch.timeRounds time bs settings =
          ⟨.aborted, ⟨watch.elapsed, some (time.reading 0)⟩, time.after 2, []⟩)) ∧
    (∀ n, watch.sumAfter time n ≤ Duration.longest.toNanos →
      (watch.afterRounds time n).elapsed.toNanos = watch.sumAfter time n) ∧
    ∀ record ∈ (watch.timeRounds time bs settings).journal, record.level = .debug := by
  obtain ⟨left, number, rounds⟩ := watch.timeRounds_eq time bs settings
  rw [isRunning_eq_false]
  refine ⟨fun running => timeRounds_of_running running time bs settings, tallyOf_failed_or_finished bs,
    fun stopped fault failed => ⟨fun fits => ?_, fun long => ?_⟩, fun stopped tally counted => ?_,
    fun stopped unmade => ?_, fun n => elapsed_afterRounds, ?_⟩
  · rw [timeRounds_of_unfinished stopped (by rw [failed]; rfl) fits, failed]
  · rw [timeRounds_of_long stopped bs settings long, failed]
    rfl
  · rw [rounds, number, counted]
    refine ⟨timeRoundsFrom_of_fits stopped, fun n lt before long => ?_⟩
    exact timeRoundsFrom_of_long stopped (Nat.le_of_lt_succ lt) before long
  · have broke : tallyOf bs settings.capacity = .overflowed .capacity := ByteSource.tally_of_lt unmade
    refine ⟨fun fits => ?_, fun long => ?_⟩
    · rw [timeRounds_of_unfinished stopped (by rw [broke]; rfl) fits, broke]
    · rw [timeRounds_of_long stopped bs settings long, broke]
      rfl
  · rw [rounds]
    exact timeRoundsFrom_level _ _ _ _ _ (List.forall_mem_nil _)

/-- The header of a file of records, with no record behind it. -/
def bareHeader : List UInt8 := [0xd4, 0xc3, 0xb2, 0xa1] ++ List.replicate 20 0

/-- Time that goes forward in one round and back in the next one. -/
def backAndForth : TimeSource := .ofReadings [.ofNanos 10, .ofNanos 13, .ofNanos 20, .ofNanos 8]

/-- A stopwatch that shows one nanosecond less than the longest time. -/
def nearlyFull : Stopwatch := ⟨.ofNanos (Duration.longest.toNanos - 1), none⟩

/-- A clock that moves on by two nanoseconds with every reading. -/
def inTwos : TimeSource := .ticking .zero (.ofNanos 2)

theorem timeRounds_bareHeader_ends :
    timeRounds ⟨.zero, some .zero⟩ backAndForth bareHeader ⟨24, 2⟩ =
      ⟨.failed (.misused .alreadyRunning), ⟨.zero, some .zero⟩, backAndForth, []⟩ ∧
    timeRounds ⟨.ofNanos 5, none⟩ backAndForth [] ⟨24, 2⟩ =
      ⟨.failed .empty, ⟨.ofNanos 8, none⟩, backAndForth.after 2, []⟩ ∧
    timeRounds ⟨.ofNanos 5, none⟩ backAndForth bareHeader ⟨24, 2⟩ =
      ⟨.finished ⟨1, 0, 0⟩, ⟨.ofNanos 8, none⟩, backAndForth.after 4,
        [.round 1 2 1 (.ofNanos 8), .round 2 2 1 (.ofNanos 8)]⟩ ∧
    timeRounds nearlyFull (.ticking .zero (.ofNanos 1)) bareHeader ⟨24, 2⟩ =
      ⟨.overflowed .duration, ⟨.longest, some (.ofNanos 2)⟩, (TimeSource.ticking .zero (.ofNanos 1)).after 4,
        [.round 1 2 1 .longest]⟩ ∧
    timeRounds nearlyFull inTwos [] ⟨24, 2⟩ =
      ⟨.overflowed .duration, ⟨nearlyFull.elapsed, some .zero⟩, inTwos.after 2, []⟩ := by
  have counted : tallyOf bareHeader 24 = .finished ⟨1, 0, 0⟩ := by cbv
  have uncounted : tallyOf [] 24 = .failed .empty := by cbv
  obtain ⟨running, -⟩ := timeRounds_ends ⟨.zero, some .zero⟩ backAndForth bareHeader ⟨24, 2⟩
  obtain ⟨-, -, failed, -⟩ := timeRounds_ends ⟨.ofNanos 5, none⟩ backAndForth [] ⟨24, 2⟩
  obtain ⟨-, -, -, finished, -⟩ := timeRounds_ends ⟨.ofNanos 5, none⟩ backAndForth bareHeader ⟨24, 2⟩
  obtain ⟨-, -, -, full, -⟩ :=
    timeRounds_ends nearlyFull (.ticking .zero (.ofNanos 1)) bareHeader ⟨24, 2⟩
  obtain ⟨-, -, broke, -⟩ := timeRounds_ends nearlyFull inTwos [] ⟨24, 2⟩
  refine ⟨running rfl, ?_, ?_, ?_, ?_⟩
  · have shown : (⟨.ofNanos 5, none⟩ : Stopwatch).afterRounds backAndForth 1 = ⟨.ofNanos 8, none⟩ := by decide
    rw [(failed rfl _ uncounted).1 (by decide), shown]
  · have logged : (⟨.ofNanos 5, none⟩ : Stopwatch).roundRecords backAndForth 2 1 2 =
        [.round 1 2 1 (.ofNanos 8), .round 2 2 1 (.ofNanos 8)] := by decide
    rw [← logged]
    exact (finished rfl _ counted).1 (by decide)
  · have shown : nearlyFull.afterRounds (.ticking .zero (.ofNanos 1)) 1 = ⟨.longest, none⟩ := by decide
    have logged : nearlyFull.roundRecords (.ticking .zero (.ofNanos 1)) 2 1 1 = [.round 1 2 1 .longest] := by
      decide
    have ended := (full rfl _ counted).2 1 (by decide) (by decide) (by decide)
    rw [shown] at ended
    rw [← logged]
    exact ended
  · have began : inTwos.reading 0 = .zero := by decide
    rw [(broke rfl _ uncounted).2 (by decide), began]

/-- A window that no buffer can be made for is neither counted nor failed, though
the header alone would fit, and aborts if the first interval cannot be closed. -/
theorem timeRounds_bareHeader_unmade :
    timeRounds ⟨.ofNanos 5, none⟩ backAndForth bareHeader ⟨9223372036854775808, 2⟩ =
      ⟨.overflowed .capacity, ⟨.ofNanos 8, none⟩, backAndForth.after 2, []⟩ ∧
    timeRounds nearlyFull inTwos bareHeader ⟨9223372036854775808, 2⟩ =
      ⟨.aborted, ⟨nearlyFull.elapsed, some .zero⟩, inTwos.after 2, []⟩ := by
  have broke : tallyOf bareHeader 9223372036854775808 = .overflowed .capacity :=
    ByteSource.tally_of_lt (by decide)
  constructor
  · have shown : (⟨.ofNanos 5, none⟩ : Stopwatch).afterRounds backAndForth 1 = ⟨.ofNanos 8, none⟩ := by decide
    rw [timeRounds_of_unfinished rfl (by rw [broke]; rfl) (by decide), broke, shown]
  · have began : inTwos.reading 0 = .zero := by decide
    rw [timeRounds_of_long rfl bareHeader _ (by decide), broke, began]
    rfl

end Stopwatch

end Round

end CapturePace
