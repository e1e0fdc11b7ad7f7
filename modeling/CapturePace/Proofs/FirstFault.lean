/-
# The program stops at the first file that fails

What the program leaves behind is decided by what a walk makes of each file
(`Program.found`), and that is decided by the bytes of the file and the
capacity of the buffer. The clock has no say in it as long as it does not go
back: a new stopwatch then never shows more than the latest reading
(`Stopwatch.sumAfter_le_reading`), so no round overflows it.

`Program.Ends` lists the ways in which the program can go on from a file: the
file gets its line, or the program ends with it. What is said about the program
follows by induction on these: the output belongs to the files in front that
are counted, the exit to the file behind them, and two runs that find the same
up to there leave the same behind (`Program.Ends.alike`).

Key definitions: `TimeSource.Forward`, `Program.found`, `Program.Ends`,
`Command.counted`, `Program.StopsAtFault`, `Exit.Alike`.
Key theorems: `Program.runFiles_ends`, `Program.Ends.alike`,
`Program.run_stops`.
-/
import CapturePace.Proofs.CommandLine
import CapturePace.Proofs.InMemory
import CapturePace.Proofs.OneLine
import CapturePace.Proofs.ReadCalls
import CapturePace.Proofs.TimedRounds

namespace CapturePace

theorem Verdict.ofExcept_ne_overflowed {α : Type} (result : Except CaptureFault α) (overflow : Overflow) :
    Verdict.ofExcept result ≠ .overflowed overflow := by
  cases result <;> nofun

theorem tallyOf_ne_aborted (bs : List UInt8) (capacity : Nat) : tallyOf bs capacity ≠ .aborted := by
  by_cases made : capacity ≤ bufferLimit
  · rw [tallyOf_of_le made]
    cases ByteSource.pass ⟨bs, []⟩ capacity <;> nofun
  · rw [tallyOf_of_lt (Nat.lt_of_not_le made)]
    nofun

/-! ### A clock that does not go back -/

/-- The readings of the source never decrease. -/
def TimeSource.Forward (time : TimeSource) : Prop :=
  ∀ i, (time.reading i).toNanos ≤ (time.reading (i + 1)).toNanos

theorem Duration.toNanos_ofNanos_mono {m n : Nat} (le : m ≤ n) : (ofNanos m).toNanos ≤ (ofNanos n).toNanos := by
  by_cases fits : n < secondsLimit * nanosPerSecond
  · rw [toNanos_ofNanos fits, toNanos_ofNanos (le.trans_lt fits)]
    exact le
  · have long : ¬ n / nanosPerSecond < secondsLimit := by
      unfold secondsLimit nanosPerSecond at *
      omega
    rw [ofNanos.eq_def n, dif_neg long]
    exact toNanos_le_longest _

/-- A clock that moves on with every reading does not go back. -/
theorem TimeSource.forward_ticking (start tick : Duration) : (TimeSource.ticking start tick).Forward := by
  intro i
  apply Duration.toNanos_ofNanos_mono
  apply Nat.add_le_add_left
  exact Nat.mul_le_mul_right _ (Nat.le_succ _)

section Forward

variable {time : TimeSource}

theorem TimeSource.Forward.after (forward : time.Forward) (n : Nat) : (time.after n).Forward := by
  intro i
  rw [TimeSource.reading_after, TimeSource.reading_after]
  exact forward (n + i)

/-- A new stopwatch shows no more than the latest reading. -/
theorem Stopwatch.sumAfter_le_reading (forward : time.Forward) (n : Nat) :
    ({} : Stopwatch).sumAfter time n ≤ (time.reading (2 * n)).toNanos := by
  induction n with
  | zero =>
    rw [Stopwatch.sumAfter_zero, Duration.toNanos_zero]
    exact Nat.zero_le _
  | succ n ih =>
    have inside := forward (2 * n)
    have behind : (time.reading (2 * n + 1)).toNanos ≤ (time.reading (2 * (n + 1))).toNanos :=
      forward (2 * n + 1)
    rw [Stopwatch.sumAfter_succ, TimeSource.interval]
    omega

/-- There is always a duration for what a new stopwatch has to show. -/
theorem Stopwatch.sumAfter_le_longest (forward : time.Forward) (n : Nat) :
    ({} : Stopwatch).sumAfter time n ≤ Duration.longest.toNanos :=
  (Stopwatch.sumAfter_le_reading forward n).trans (Duration.toNanos_le_longest _)

/-- All rounds of a capture that is counted are done. -/
theorem Stopwatch.timeRounds_of_counted {bs : List UInt8} {settings : Settings} {tally : Tally}
    (forward : time.Forward) (counted : tallyOf bs settings.capacity = .finished tally) :
    Stopwatch.timeRounds {} time bs settings =
      ⟨.finished tally, Stopwatch.afterRounds {} time (max 1 settings.rounds),
        time.after (2 * max 1 settings.rounds),
        Stopwatch.roundRecords {} time (max 1 settings.rounds) tally.blocks (max 1 settings.rounds)⟩ := by
  obtain ⟨left, number, rounds⟩ := Stopwatch.timeRounds_eq {} time bs settings
  rw [rounds, counted, number]
  exact timeRoundsFrom_of_fits rfl (Stopwatch.sumAfter_le_longest forward _)

/-- On a new stopwatch the verdict on the rounds is the one on the walk. -/
theorem Stopwatch.timeRounds_of_forward (forward : time.Forward) (bs : List UInt8) (settings : Settings) :
    (Stopwatch.timeRounds {} time bs settings).verdict = tallyOf bs settings.capacity ∧
      ∃ n, (Stopwatch.timeRounds {} time bs settings).time = time.after n := by
  by_cases finished : (tallyOf bs settings.capacity).isFinished = true
  · obtain ⟨tally, counted⟩ := Verdict.isFinished_iff.1 finished
    rw [Stopwatch.timeRounds_of_counted forward counted, counted]
    exact ⟨rfl, _, rfl⟩
  · rw [Stopwatch.timeRounds_of_unfinished rfl (Bool.eq_false_of_not_eq_true finished)
      (Stopwatch.sumAfter_le_longest forward 1)]
    exact ⟨rfl, _, rfl⟩

end Forward

/-! ### What is found in a file -/

/-- The verdict on a file whose rounds have taken so long. -/
def Verdict.timed (elapsed : Duration) : Verdict Tally → Verdict Report
  | .finished tally => .finished ⟨tally, elapsed⟩
  | .failed fault => .failed fault
  | .overflowed overflow => .overflowed overflow
  | .aborted => .aborted

namespace Program

variable {read : String → Except String (List UInt8)} {capacity : Nat} {settings : Settings}
  {file : String} {files : List String} {time : TimeSource} {exit : Exit}

/-- What a walk makes of a file, if the file can be read. -/
def found (read : String → Except String (List UInt8)) (capacity : Nat) (file : String) : Verdict Tally :=
  match read file with
  | .error text => .failed (.io text)
  | .ok bs => tallyOf bs capacity

theorem found_of_error {text : String} (contents : read file = .error text) :
    found read capacity file = .failed (.io text) := by
  rw [found, contents]

theorem found_of_ok {bs : List UInt8} (contents : read file = .ok bs) :
    found read capacity file = tallyOf bs capacity := by
  rw [found, contents]

theorem found_of_lt (long : bufferLimit < capacity) : (found read capacity file).isFinished = false := by
  cases contents : read file with
  | error text =>
    rw [found_of_error contents]
    rfl
  | ok bs =>
    rw [found_of_ok contents, tallyOf_of_lt long]
    rfl

/-- To walk a file without timing it aborts nothing. -/
theorem found_ne_aborted : found read capacity file ≠ .aborted := by
  cases contents : read file with
  | error text =>
    rw [found_of_error contents]
    exact nofun
  | ok bs =>
    rw [found_of_ok contents]
    exact tallyOf_ne_aborted bs capacity

/-- The only thing that does not fit is a buffer that is too long. -/
theorem eq_of_found_overflowed {overflow : Overflow} (h : found read capacity file = .overflowed overflow) :
    bufferLimit < capacity ∧ (∃ bs, read file = .ok bs) ∧ overflow = .capacity := by
  cases contents : read file with
  | error text =>
    rw [found_of_error contents] at h
    cases h
  | ok bs =>
    rw [found_of_ok contents] at h
    by_cases made : capacity ≤ bufferLimit
    · rw [tallyOf_of_le made] at h
      exact (Verdict.ofExcept_ne_overflowed _ _ h).elim
    · have long := Nat.lt_of_not_le made
      rw [tallyOf_of_lt long] at h
      cases h
      exact ⟨long, ⟨bs, rfl⟩, rfl⟩

/-- The system's words are found where there is no file to read. -/
theorem error_of_found_io {text : String} (h : found read capacity file = .failed (.io text)) :
    read file = .error text := by
  cases contents : read file with
  | error words =>
    rw [found_of_error contents] at h
    cases h
    rfl
  | ok bs =>
    rw [found_of_ok contents] at h
    -- walking what has been read never ends in a fault of reading files
    exact (((ByteSource.mk bs []).course capacity).ofRun h).elim

theorem timeFile_of_forward (read : String → Except String (List UInt8)) (settings : Settings)
    (forward : time.Forward) (file : String) :
    ∃ elapsed, (timeFile file (read file) settings time).verdict =
        (found read settings.capacity file).timed elapsed ∧
      ∃ n, (timeFile file (read file) settings time).time = time.after n := by
  unfold found timeFile
  cases read file with
  | error text => exact ⟨.zero, rfl, 0, time.after_zero.symm⟩
  | ok bs =>
    obtain ⟨same, n, later⟩ := Stopwatch.timeRounds_of_forward forward bs settings
    refine ⟨(Stopwatch.timeRounds {} time bs settings).watch.elapsed, ?_⟩
    simp only [← same]
    cases (Stopwatch.timeRounds {} time bs settings).verdict with
    | finished tally => exact ⟨rfl, n, later⟩
    | failed fault => exact ⟨rfl, n, later⟩
    | overflowed overflow => exact ⟨rfl, n, later⟩
    | aborted => exact ⟨rfl, n, later⟩

/-! ### How the program goes on -/

/-- What the program leaves behind when this is found in the files. -/
inductive Ends (found : String → Verdict Tally) : List String → Exit → Prop
  /-- There are no more files. -/
  | done : Ends found [] ⟨0, [], []⟩
  /-- The file is counted and gets its line. -/
  | line {file : String} {files : List String} {tally : Tally} {exit : Exit} (elapsed : Duration)
      (counted : found file = .finished tally) (rest : Ends found files exit) :
      Ends found (file :: files) ⟨exit.code, .report file ⟨tally, elapsed⟩ :: exit.output, exit.errors⟩
  /-- The file is at fault. -/
  | failed {file : String} {files : List String} {fault : CaptureFault}
      (failure : found file = .failed fault) :
      Ends found (file :: files) ⟨1, [], [file ++ ": " ++ fault.message]⟩
  /-- Something does not fit. -/
  | overflowed {file : String} {files : List String} {overflow : Overflow}
      (long : found file = .overflowed overflow) :
      Ends found (file :: files) ⟨101, [], [overflow.message]⟩

/-- **While the clock does not go back, the findings decide.** -/
theorem runFiles_ends (forward : time.Forward) (files : List String) :
    Ends (found read settings.capacity) files (runFiles read settings files time) := by
  induction files generalizing time with
  | nil => exact .done
  | cons file files ih =>
    obtain ⟨elapsed, verdict, n, later⟩ := timeFile_of_forward read settings forward file
    cases finding : found read settings.capacity file with
    | finished tally =>
      rw [finding] at verdict
      rw [runFiles_of_ok (congrArg (afterFile file) verdict), later]
      exact .line elapsed finding (ih (forward.after n))
    | failed fault =>
      rw [finding] at verdict
      rw [runFiles_of_error (congrArg (afterFile file) verdict)]
      exact .failed finding
    | overflowed overflow =>
      rw [finding] at verdict
      rw [runFiles_of_error (congrArg (afterFile file) verdict)]
      exact .overflowed finding
    | aborted => exact (found_ne_aborted finding).elim

section Ends

variable {found : String → Verdict Tally}

theorem Ends.of_finished {tally : Tally} (ends : Ends found (file :: files) exit)
    (counted : found file = .finished tally) :
    ∃ elapsed rest, Ends found files rest ∧
      exit = ⟨rest.code, .report file ⟨tally, elapsed⟩ :: rest.output, rest.errors⟩ := by
  cases ends with
  | line elapsed same rest =>
    rw [counted] at same
    cases same
    exact ⟨elapsed, _, rest, rfl⟩
  | failed failure =>
    rw [counted] at failure
    cases failure
  | overflowed long =>
    rw [counted] at long
    cases long

theorem Ends.of_failed {fault : CaptureFault} (ends : Ends found (file :: files) exit)
    (failure : found file = .failed fault) : exit = ⟨1, [], [file ++ ": " ++ fault.message]⟩ := by
  cases ends with
  | line elapsed counted rest =>
    rw [failure] at counted
    cases counted
  | failed same =>
    rw [failure] at same
    cases same
    rfl
  | overflowed long =>
    rw [failure] at long
    cases long

theorem Ends.of_overflowed {overflow : Overflow} (ends : Ends found (file :: files) exit)
    (long : found file = .overflowed overflow) : exit = ⟨101, [], [overflow.message]⟩ := by
  cases ends with
  | line elapsed counted rest =>
    rw [long] at counted
    cases counted
  | failed failure =>
    rw [long] at failure
    cases failure
  | overflowed same =>
    rw [long] at same
    cases same
    rfl

/-- How many files in front are counted. -/
def counted (found : String → Verdict Tally) (files : List String) : Nat :=
  (files.takeWhile fun file => (found file).isFinished).length

theorem counted_of_finished {tally : Tally} (finished : found file = .finished tally) :
    counted found (file :: files) = counted found files + 1 := by
  unfold counted
  rw [List.takeWhile_cons_of_pos (by rw [finished]; rfl), List.length_cons]

theorem counted_of_unfinished (unfinished : (found file).isFinished = false) :
    counted found (file :: files) = 0 := by
  unfold counted
  rw [List.takeWhile_cons_of_neg (by rw [unfinished]; decide), List.length_nil]

/-- Each of the files in front has its line. -/
theorem Ends.output (ends : Ends found files exit) :
    List.Forall₂
      (fun file line => ∃ tally elapsed, found file = .finished tally ∧ line = .report file ⟨tally, elapsed⟩)
      (files.take (counted found files)) exit.output := by
  induction ends with
  | done => exact .nil
  | line elapsed finished rest ih =>
    rw [counted_of_finished finished, List.take_succ_cons]
    exact .cons ⟨_, elapsed, finished, rfl⟩ ih
  | failed failure =>
    rw [counted_of_unfinished (by rw [failure]; rfl)]
    exact .nil
  | overflowed long =>
    rw [counted_of_unfinished (by rw [long]; rfl)]
    exact .nil

/-- The file behind them, if there is one, decides the exit. -/
theorem Ends.stop (ends : Ends found files exit) :
    (counted found files = files.length ∧ exit.code = 0 ∧ exit.errors = []) ∨
      ∃ file, files[counted found files]? = some file ∧
        ((∃ fault, found file = .failed fault ∧ exit.code = 1 ∧ exit.errors = [file ++ ": " ++ fault.message]) ∨
          ∃ overflow, found file = .overflowed overflow ∧ exit.code = 101 ∧ exit.errors = [overflow.message]) := by
  induction ends with
  | done => exact .inl ⟨rfl, rfl, rfl⟩
  | line elapsed finished rest ih =>
    rw [counted_of_finished finished, List.length_cons, List.getElem?_cons_succ]
    rcases ih with ⟨all, code, errors⟩ | behind
    · exact .inl ⟨congrArg (· + 1) all, code, errors⟩
    · exact .inr behind
  | failed failure =>
    rw [counted_of_unfinished (by rw [failure]; rfl)]
    exact .inr ⟨_, rfl, .inl ⟨_, failure, rfl, rfl⟩⟩
  | overflowed long =>
    rw [counted_of_unfinished (by rw [long]; rfl)]
    exact .inr ⟨_, rfl, .inr ⟨_, long, rfl, rfl⟩⟩

/-- Nothing but a name or the system's words on a file breaks a line. -/
theorem Ends.oneLine (ends : Ends found files exit)
    (whole : ∀ file ∈ files.take (counted found files + 1),
      OneLine file ∧ ∀ text, found file = .failed (.io text) → OneLine text) :
    (∀ line ∈ exit.output, ∀ times, OneLine (line.text times)) ∧ ∀ text ∈ exit.errors, OneLine text := by
  induction ends with
  | done => exact ⟨nofun, nofun⟩
  | line elapsed finished rest ih =>
    rw [counted_of_finished finished, List.take_succ_cons] at whole
    obtain ⟨⟨name, -⟩, others⟩ := List.forall_mem_cons.1 whole
    obtain ⟨lines, errors⟩ := ih others
    exact ⟨List.forall_mem_cons.2 ⟨fun times => (oneLine_line times _).2 name, lines⟩, errors⟩
  | failed failure =>
    rw [counted_of_unfinished (by rw [failure]; rfl)] at whole
    obtain ⟨name, words⟩ := whole _ (List.mem_singleton_self _)
    refine ⟨nofun, List.forall_mem_singleton.2 ?_⟩
    rw [oneLine_append, oneLine_append]
    refine ⟨⟨name, by decide⟩, CaptureFault.oneLine_message ?_⟩
    rintro text rfl
    exact words text failure
  | @overflowed _ _ overflow long =>
    refine ⟨nofun, List.forall_mem_singleton.2 ?_⟩
    cases overflow <;> decide +kernel

end Ends

end Program

/-- The two exits are the same, apart from the times. -/
structure Exit.Alike (exit exit' : Exit) : Prop where
  code : exit.code = exit'.code
  output : exit.output.map (Line.text .masked) = exit'.output.map (Line.text .masked)
  errors : exit.errors = exit'.errors

namespace Program

section Alike

variable {found found' : String → Verdict Tally} {files files' : List String} {exit exit' : Exit}

theorem eq_cons_of_take {file : String} {n : Nat} {front : List String}
    (h : files'.take (n + 1) = file :: front) : ∃ rest, files' = file :: rest ∧ rest.take n = front := by
  cases files' with
  | nil => cases h
  | cons first rest =>
    rw [List.take_succ_cons, List.cons.injEq] at h
    obtain ⟨rfl, h⟩ := h
    exact ⟨rest, rfl, h⟩

/-- **What comes behind the file that fails changes nothing.** If the same
files come up to there, and the same is found in them, the same is left behind. -/
theorem Ends.alike (ends : Ends found files exit) (ends' : Ends found' files' exit')
    (front : files'.take (counted found files + 1) = files.take (counted found files + 1))
    (same : ∀ file ∈ files.take (counted found files + 1), found' file = found file) :
    exit'.Alike exit := by
  -- The induction is on the first run. Its next file is that of the second run, and what is
  -- found in it leaves the second run no other way to go on.
  induction ends generalizing files' exit' with
  | done =>
    obtain rfl : files' = [] := by simpa [counted] using front
    cases ends'
    exact ⟨rfl, rfl, rfl⟩
  | line elapsed finished rest ih =>
    rw [counted_of_finished finished, List.take_succ_cons] at front same
    obtain ⟨rest', rfl, behind⟩ := eq_cons_of_take front
    obtain ⟨first, others⟩ := List.forall_mem_cons.1 same
    obtain ⟨elapsed', tail, tailEnds, rfl⟩ := ends'.of_finished (first.trans finished)
    obtain ⟨code, output, errors⟩ := ih tailEnds behind others
    refine ⟨code, ?_, errors⟩
    rw [List.map_cons, List.map_cons, output]
    rfl
  | failed failure =>
    rw [counted_of_unfinished (by rw [failure]; rfl)] at front same
    obtain ⟨rest', rfl, -⟩ := eq_cons_of_take front
    obtain rfl := ends'.of_failed ((same _ (List.mem_singleton_self _)).trans failure)
    exact ⟨rfl, rfl, rfl⟩
  | overflowed long =>
    rw [counted_of_unfinished (by rw [long]; rfl)] at front same
    obtain ⟨rest', rfl, -⟩ := eq_cons_of_take front
    obtain rfl := ends'.of_overflowed ((same _ (List.mem_singleton_self _)).trans long)
    exact ⟨rfl, rfl, rfl⟩

end Alike

end Program

/-- How many of the files in front are there and counted. -/
def Command.counted (command : Command) (read : String → Except String (List UInt8)) : Nat :=
  Program.counted (Program.found read command.settings.capacity) command.files

namespace Program

/-- What the program leaves behind if it stops at the first file that is at fault. -/
structure StopsAtFault (read : String → Except String (List UInt8)) (command : Command) (exit : Exit) :
    Prop where
  /-- Each of the files in front has its line, in their order. -/
  output : List.Forall₂
    (fun file line => ∃ tally elapsed, found read command.settings.capacity file = .finished tally ∧
      line = .report file ⟨tally, elapsed⟩)
    (command.files.take (command.counted read)) exit.output
  /-- There is nothing to complain of if these are all. -/
  all : command.counted read = command.files.length → exit.code = 0 ∧ exit.errors = []
  /-- Otherwise the next file is at fault, or there is no buffer of that length to read it into. -/
  stopped : ∀ file, command.files[command.counted read]? = some file →
    (∃ fault, found read command.settings.capacity file = .failed fault ∧
      exit.code = 1 ∧ exit.errors = [file ++ ": " ++ fault.message]) ∨
    bufferLimit < command.settings.capacity ∧ (∃ bs, read file = .ok bs) ∧
      exit.code = 101 ∧ exit.errors = [Overflow.capacity.message]
  /-- Without a buffer no file is counted. -/
  unmade : bufferLimit < command.settings.capacity → command.counted read = 0
  /-- Each text is one line, if the names and the system's words are. -/
  oneLine : (∀ file ∈ command.files.take (command.counted read + 1),
      OneLine file ∧ ∀ text, read file = .error text → OneLine text) →
    (∀ line ∈ exit.output, ∀ times, OneLine (line.text times)) ∧ ∀ text ∈ exit.errors, OneLine text

section Stops

variable {read : String → Except String (List UInt8)} {time : TimeSource} {exit : Exit}
  {arguments : List String} {command : Command}

theorem run_of_accepted (accepted : Command.parse arguments = .ok command) :
    run read arguments time = runFiles read command.settings command.files time := by
  unfold run begin
  rw [accepted]

theorem counted_of_lt (long : bufferLimit < command.settings.capacity) : command.counted read = 0 := by
  unfold Command.counted
  cases command.files with
  | nil => rfl
  | cons file files =>
    apply counted_of_unfinished
    exact found_of_lt long

theorem Ends.stopsAtFault (ends : Ends (found read command.settings.capacity) command.files exit) :
    StopsAtFault read command exit where
  output := ends.output
  all := by
    intro whole
    rcases ends.stop with ⟨-, code, errors⟩ | ⟨file, behind, -⟩
    · exact ⟨code, errors⟩
    · obtain ⟨lt, -⟩ := List.getElem?_eq_some_iff.1 behind
      exact absurd whole lt.ne
  stopped := by
    intro file behind
    rcases ends.stop with ⟨whole, -⟩ | ⟨file', behind', ending⟩
    · obtain ⟨lt, -⟩ := List.getElem?_eq_some_iff.1 behind
      exact absurd whole lt.ne
    · obtain rfl : file' = file := Option.some.inj (behind'.symm.trans behind)
      rcases ending with failed | ⟨overflow, long, code, errors⟩
      · exact .inl failed
      · obtain ⟨unmade, there, rfl⟩ := eq_of_found_overflowed long
        exact .inr ⟨unmade, there, code, errors⟩
  unmade := counted_of_lt
  oneLine := by
    intro whole
    refine ends.oneLine fun file front => ⟨(whole file front).1, fun text failed => ?_⟩
    exact (whole file front).2 text (error_of_found_io failed)

/-- **The program stops at the first file that is at fault.** As long as the
clock does not go back, the files in front of it have one line each, and the
exit tells of that file alone. Nothing of this depends on the number of rounds,
nor on anything behind that file. -/
theorem run_stops (accepted : Command.parse arguments = .ok command)
    (read : String → Except String (List UInt8)) (forward : time.Forward) :
    StopsAtFault read command (run read arguments time) ∧
    ∀ {arguments' : List String} {command' : Command} (read' : String → Except String (List UInt8))
      {time' : TimeSource}, Command.parse arguments' = .ok command' → time'.Forward →
      (∀ file ∈ command.files.take (command.counted read + 1), read' file = read file) →
      (((Word.ofArguments arguments').filter fun word => !word.setsRounds) =
          ((Word.ofArguments arguments).filter fun word => !word.setsRounds) →
        (run read' arguments' time').Alike (run read arguments time)) ∧
      (command'.settings.capacity = command.settings.capacity →
        command'.files.take (command.counted read + 1) = command.files.take (command.counted read + 1) →
        (run read' arguments' time').Alike (run read arguments time)) := by
  have ends : Ends (found read command.settings.capacity) command.files (run read arguments time) := by
    rw [run_of_accepted accepted]
    exact runFiles_ends forward command.files
  refine ⟨ends.stopsAtFault, ?_⟩
  intro arguments' command' read' time' accepted' forward' same
  have alike (capacity : command'.settings.capacity = command.settings.capacity)
      (front : command'.files.take (command.counted read + 1) =
        command.files.take (command.counted read + 1)) :
      (run read' arguments' time').Alike (run read arguments time) := by
    have ends' : Ends (found read' command.settings.capacity) command'.files (run read' arguments' time') := by
      rw [run_of_accepted accepted', ← capacity]
      exact runFiles_ends forward' command'.files
    refine ends.alike ends' front fun file there => ?_
    unfold found
    rw [same file there]
  refine ⟨fun words => ?_, alike⟩
  obtain ⟨capacity, files⟩ := Command.besides_rounds accepted accepted' words
  exact alike capacity (by rw [files])

/-- The header of a file and one packet. -/
def greeting : List UInt8 :=
  [0xd4, 0xc3, 0xb2, 0xa1, 2, 0, 4, 0, 0, 0, 0, 0, 0, 0, 0, 0, 0xff, 0xff, 0, 0, 1, 0, 0, 0,
    0, 0x10, 0x5e, 0x5f, 0, 0, 0, 0, 5, 0, 0, 0, 5, 0, 0, 0, 0x68, 0x65, 0x6c, 0x6c, 0x6f]

/-- A file with a capture, one with a broken name, and one without a capture. -/
def shelf (file : String) : Except String (List UInt8) :=
  if file = "a" then .ok greeting
  else if file = "a\nb" then .ok greeting
  else if file = "b" then .ok []
  else .error "No such file or directory (os error 2)"

theorem run_shelf_stops :
    Command.parse ["-r", "3", "a", "b", "c"] = .ok ⟨⟨65536, 3⟩, ["a", "b", "c"]⟩ ∧
    Command.counted ⟨⟨65536, 3⟩, ["a", "b", "c"]⟩ shelf = 1 ∧
    StopsAtFault shelf ⟨⟨65536, 3⟩, ["a", "b", "c"]⟩
      (run shelf ["-r", "3", "a", "b", "c"] (.ticking .zero (.ofNanos 5))) ∧
    (run shelf ["a", "-r7", "b", "c"] (.ticking .zero (.ofNanos 9))).Alike
      (run shelf ["-r", "3", "a", "b", "c"] (.ticking .zero (.ofNanos 5))) ∧
    (run shelf ["a", "b", "a"] (.ticking .zero (.ofNanos 9))).Alike
      (run shelf ["-r", "3", "a", "b", "c"] (.ticking .zero (.ofNanos 5))) := by
  have accepted : Command.parse ["-r", "3", "a", "b", "c"] = .ok ⟨⟨65536, 3⟩, ["a", "b", "c"]⟩ := by cbv
  have counts : Command.counted ⟨⟨65536, 3⟩, ["a", "b", "c"]⟩ shelf = 1 := by cbv
  have moved : Command.parse ["a", "-r7", "b", "c"] = .ok ⟨⟨65536, 7⟩, ["a", "b", "c"]⟩ := by cbv
  have others : Command.parse ["a", "b", "a"] = .ok ⟨⟨65536, 1⟩, ["a", "b", "a"]⟩ := by cbv
  have words : ((Word.ofArguments ["a", "-r7", "b", "c"]).filter fun word => !word.setsRounds) =
      (Word.ofArguments ["-r", "3", "a", "b", "c"]).filter fun word => !word.setsRounds := by cbv
  obtain ⟨stops, alike⟩ := run_stops accepted shelf (TimeSource.forward_ticking .zero (.ofNanos 5))
  have later := TimeSource.forward_ticking .zero (.ofNanos 9)
  refine ⟨accepted, counts, stops, ?_, ?_⟩
  · exact (alike shelf moved later fun _ _ => rfl).1 words
  · refine (alike shelf others later fun _ _ => rfl).2 rfl ?_
    rw [counts]
    rfl

/-- A name that holds a line break takes two lines, and a buffer that cannot be
made ends the program otherwise than a file at fault does. -/
theorem run_shelf_exceptions :
    (Command.parse ["a\nb", "c\nd"] = .ok ⟨{}, ["a\nb", "c\nd"]⟩ ∧
      Command.counted ⟨{}, ["a\nb", "c\nd"]⟩ shelf = 1 ∧
      ∃ line, (run shelf ["a\nb", "c\nd"] (.manual .zero)).output = [line] ∧
        ∀ times, ¬ OneLine (line.text times)) ∧
    Command.parse ["-b", "9223372036854775808", "a"] = .ok ⟨⟨9223372036854775808, 1⟩, ["a"]⟩ ∧
      Command.counted ⟨⟨9223372036854775808, 1⟩, ["a"]⟩ shelf = 0 ∧
      (run shelf ["-b", "9223372036854775808", "a"] (.manual .zero)).code = 101 := by
  refine ⟨⟨by cbv, by cbv, .report "a\nb" ⟨⟨2, 1, 5⟩, .zero⟩, by decide +kernel, fun times => ?_⟩, ?_, ?_, ?_⟩
  · rw [oneLine_line]
    decide +kernel
  · cbv
  · cbv
  · cbv

end Stops

end Program

end CapturePace
