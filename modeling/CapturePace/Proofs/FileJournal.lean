/-
# What is logged of a file

A file that cannot be read leaves no record. One that is read is logged with
its length, and nothing else is logged of it unless its capture is counted:
then each round has its record, a capture without packets has its warning, and
the summary comes last with what was counted.

The rounds of a file start on a new stopwatch, and a clock that does not go back
never takes one beyond the longest duration. So the verdict on the file is
the one on the walk of its bytes, and which records there are is decided by that
walk and the number of rounds; the clock only has a say in the times they show.

Key theorems: `timeFile_of_unfinished`, `timeFile_of_counted`, `timeFile_journal`.
-/
import CapturePace.Proofs.FirstFault

namespace CapturePace

variable {file : String} {bs : List UInt8} {settings : Settings} {time : TimeSource} {tally : Tally}

theorem Stopwatch.roundRecords_level (watch : Stopwatch) (time : TimeSource) (rounds blocks n : Nat) :
    (watch.roundRecords time rounds blocks n).map LogRecord.level = List.replicate n .debug := by
  induction n with
  | zero => rfl
  | succ n ih =>
    rw [roundRecords_succ, List.map_append, ih, List.replicate_succ']
    rfl

/-- The report of a file that is counted. -/
def TimeSource.report (time : TimeSource) (rounds : Nat) (tally : Tally) : Report :=
  ⟨tally, (Stopwatch.afterRounds {} time rounds).elapsed⟩

/-- A capture that is not counted is walked once, and no record tells of it. -/
theorem timeFile_of_unfinished (forward : time.Forward) (file : String)
    (unfinished : (tallyOf bs settings.capacity).isFinished = false) :
    (timeFile file (.ok bs) settings time).verdict = (tallyOf bs settings.capacity).timed .zero ∧
      (timeFile file (.ok bs) settings time).journal = [.loaded file bs.length] := by
  have rounds := Stopwatch.timeRounds_of_unfinished rfl unfinished
    (Stopwatch.sumAfter_le_longest forward 1)
  simp only [timeFile, rounds]
  cases found : tallyOf bs settings.capacity with
  | finished tally =>
    rw [found] at unfinished
    cases unfinished
  | failed fault => exact ⟨rfl, rfl⟩
  | overflowed overflow => exact ⟨rfl, rfl⟩
  | aborted => exact ⟨rfl, rfl⟩

theorem timeFile_of_counted (forward : time.Forward) (file : String)
    (counted : tallyOf bs settings.capacity = .finished tally) :
    (timeFile file (.ok bs) settings time).verdict =
        .finished (time.report (max 1 settings.rounds) tally) ∧
      (timeFile file (.ok bs) settings time).journal =
        .loaded file bs.length ::
          Stopwatch.roundRecords {} time (max 1 settings.rounds) tally.blocks (max 1 settings.rounds) ++
          (if tally.packets = 0 then [.noPackets file] else []) ++
          [.summary file (time.report (max 1 settings.rounds) tally)] := by
  simp only [timeFile, Stopwatch.timeRounds_of_counted forward counted]
  exact ⟨rfl, rfl⟩

/-- **A file is logged by what becomes of it.** Nothing is logged of a file that
cannot be read, and only its length of one that is not counted; the verdict is the
one on reading it, or on walking it. A file that is counted is reported with its
counters and the sum of its rounds. Behind its length stand the records of all
rounds, in order and each with the blocks of the capture, then the warning if there
was no packet, and then the summary. -/
theorem timeFile_journal (file : String) (contents : Except String (List UInt8)) (settings : Settings)
    {time : TimeSource} (forward : time.Forward) :
    (∀ text, contents = .error text →
      (timeFile file contents settings time).verdict = .failed (.io text) ∧
        (timeFile file contents settings time).journal = []) ∧
    ∀ bs, contents = .ok bs →
      (∃ records, (timeFile file contents settings time).journal = .loaded file bs.length :: records) ∧
      (∀ fault, tallyOf bs settings.capacity = .failed fault →
        (timeFile file contents settings time).verdict = .failed fault ∧
          (timeFile file contents settings time).journal = [.loaded file bs.length]) ∧
      (∀ overflow, tallyOf bs settings.capacity = .overflowed overflow →
        (timeFile file contents settings time).verdict = .overflowed overflow ∧
          (timeFile file contents settings time).journal = [.loaded file bs.length]) ∧
      ∀ tally, tallyOf bs settings.capacity = .finished tally →
        ∃ report, (timeFile file contents settings time).verdict = .finished report ∧
          report.tally = tally ∧
          report.elapsed.toNanos = Stopwatch.sumAfter {} time (max 1 settings.rounds) ∧
          (timeFile file contents settings time).journal =
            .loaded file bs.length ::
              Stopwatch.roundRecords {} time (max 1 settings.rounds) tally.blocks (max 1 settings.rounds) ++
              (if tally.packets = 0 then [.noPackets file] else []) ++
              [.summary file report] ∧
          (timeFile file contents settings time).journal.map LogRecord.level =
            .debug :: List.replicate (max 1 settings.rounds) .debug ++
              (if tally.packets = 0 then [.warn] else []) ++ [.info] := by
  refine ⟨?_, ?_⟩
  · rintro text rfl
    exact ⟨rfl, rfl⟩
  · rintro bs rfl
    refine ⟨?_, fun fault failed => ?_, fun overflow long => ?_, fun tally counted => ?_⟩
    · simp only [timeFile]
      cases (Stopwatch.timeRounds {} time bs settings).verdict with
      | finished tally => exact ⟨_, rfl⟩
      | failed fault => exact ⟨_, rfl⟩
      | overflowed overflow => exact ⟨_, rfl⟩
      | aborted => exact ⟨_, rfl⟩
    · have logged := timeFile_of_unfinished forward file (by rw [failed]; rfl)
      rwa [failed] at logged
    · have logged := timeFile_of_unfinished forward file (by rw [long]; rfl)
      rwa [long] at logged
    · obtain ⟨verdict, journal⟩ := timeFile_of_counted forward file counted
      refine ⟨_, verdict, rfl, ?_, journal, ?_⟩
      · exact Stopwatch.elapsed_afterRounds (Stopwatch.sumAfter_le_longest forward _)
      · rw [journal, List.map_append, List.map_append, List.map_cons, Stopwatch.roundRecords_level,
          apply_ite (List.map LogRecord.level)]
        rfl

/-- The header of a file of records with nanoseconds, with no record behind it. -/
def fineHeader : List UInt8 := [0x4d, 0x3c, 0xb2, 0xa1] ++ List.replicate 20 0

/-- A clock that moves on by seven nanoseconds with every reading. -/
def sevens : TimeSource := .ticking .zero (.ofNanos 7)

theorem timeFile_fineHeader_journal :
    sevens.Forward ∧
    (timeFile "gone" (.error "No such file or directory (os error 2)") {} sevens).journal = [] ∧
    (timeFile "void" (.ok []) {} sevens).journal = [.loaded "void" 0] ∧
    (timeFile "idle" (.ok fineHeader) ⟨24, 2⟩ sevens).journal =
      [.loaded "idle" 24, .round 1 2 1 (.ofNanos 7), .round 2 2 1 (.ofNanos 14), .noPackets "idle",
        .summary "idle" ⟨⟨1, 0, 0⟩, .ofNanos 14⟩] := by
  have forward : sevens.Forward := TimeSource.forward_ticking .zero (.ofNanos 7)
  have empty : tallyOf [] 65536 = .failed .empty := by cbv
  have counted : tallyOf fineHeader 24 = .finished ⟨1, 0, 0⟩ := by cbv
  obtain ⟨gone, -⟩ := timeFile_journal "gone" (.error "No such file or directory (os error 2)") {} forward
  obtain ⟨-, void⟩ := timeFile_journal "void" (.ok []) {} forward
  obtain ⟨-, idle⟩ := timeFile_journal "idle" (.ok fineHeader) ⟨24, 2⟩ forward
  refine ⟨forward, (gone _ rfl).2, ?_, ?_⟩
  · obtain ⟨-, failed, -⟩ := void [] rfl
    exact (failed .empty empty).2
  · obtain ⟨-, -, -, finished⟩ := idle fineHeader rfl
    obtain ⟨report, -, tally, elapsed, journal, -⟩ := finished _ counted
    have shown : report.elapsed = .ofNanos 14 := by
      rw [← Duration.ofNanos_toNanos report.elapsed, elapsed]
      decide
    have whole : report = ⟨⟨1, 0, 0⟩, .ofNanos 14⟩ := by
      rw [← tally, ← shown]
    have rounds : Stopwatch.roundRecords {} sevens 2 1 2 =
        [.round 1 2 1 (.ofNanos 7), .round 2 2 1 (.ofNanos 14)] := by decide
    rw [journal, whole]
    exact congrArg (fun records => .loaded "idle" 24 :: records ++ [.noPackets "idle"] ++ _) rounds

end CapturePace
