/-
# Durations

A duration is a number of seconds that fits into 64 bits and a number of nanoseconds
below a second. Its view is the count of all its nanoseconds
(`Duration.toNanos`), which it is determined by. Sums carry and are refused
when they do not fit (`Duration.add?`); differences borrow and stop at zero
(`Duration.monus`).

Key definitions: `Duration`, `Duration.toNanos`, `Duration.add?`,
`Duration.monus`, `Duration.ofNanos`.
Key theorems: `Duration.toNanos_inj`, `Duration.toNanos_add?`,
`Duration.add?_eq_none`, `Duration.toNanos_monus`, `Duration.toNanos_ofNanos`.
-/
namespace CapturePace

/-- The nanoseconds of a second. -/
def nanosPerSecond : Nat := 1000000000

/-- The first number of seconds that does not fit into 64 bits. -/
def secondsLimit : Nat := 18446744073709551616

/-- A span of time. -/
structure Duration where
  seconds : Nat
  nanos : Nat
  seconds_lt : seconds < secondsLimit
  nanos_lt : nanos < nanosPerSecond
  deriving DecidableEq, Repr

namespace Duration

/-- No time at all. -/
def zero : Duration := ⟨0, 0, by decide, by decide⟩

/-- The longest duration. -/
def longest : Duration := ⟨secondsLimit - 1, nanosPerSecond - 1, by decide, by decide⟩

/-- The duration as a count of nanoseconds. -/
def toNanos (d : Duration) : Nat := d.seconds * nanosPerSecond + d.nanos

theorem toNanos_lt (d : Duration) : d.toNanos < secondsLimit * nanosPerSecond := by
  have hs := d.seconds_lt
  have hn := d.nanos_lt
  unfold toNanos secondsLimit nanosPerSecond at *
  omega

/-- A duration is determined by its nanoseconds. -/
theorem toNanos_inj {a b : Duration} : a.toNanos = b.toNanos ↔ a = b := by
  refine ⟨fun h => ?_, fun h => h ▸ rfl⟩
  obtain ⟨sa, na, ha, ha'⟩ := a
  obtain ⟨sb, nb, hb, hb'⟩ := b
  unfold toNanos nanosPerSecond at *
  simp only at h
  have hs : sa = sb := by omega
  have hn : na = nb := by omega
  subst hs hn
  rfl

/-- The duration of a count of nanoseconds; the longest one when the count is too large. -/
def ofNanos (n : Nat) : Duration :=
  if h : n / nanosPerSecond < secondsLimit then
    ⟨n / nanosPerSecond, n % nanosPerSecond, h, Nat.mod_lt _ (by decide)⟩
  else longest

theorem toNanos_ofNanos {n : Nat} (h : n < secondsLimit * nanosPerSecond) :
    (ofNanos n).toNanos = n := by
  have fits : n / nanosPerSecond < secondsLimit := by
    unfold secondsLimit nanosPerSecond at *
    omega
  rw [ofNanos, dif_pos fits]
  exact Nat.div_add_mod' n nanosPerSecond

theorem ofNanos_toNanos (d : Duration) : ofNanos d.toNanos = d :=
  toNanos_inj.1 (toNanos_ofNanos d.toNanos_lt)

/-- The sum, where it is a duration: nanoseconds that fill a second are carried. -/
def add? (a b : Duration) : Option Duration :=
  if small : a.nanos + b.nanos < nanosPerSecond then
    if fits : a.seconds + b.seconds < secondsLimit then
      some ⟨a.seconds + b.seconds, a.nanos + b.nanos, fits, small⟩
    else none
  else if fits : a.seconds + b.seconds + 1 < secondsLimit then
    some ⟨a.seconds + b.seconds + 1, a.nanos + b.nanos - nanosPerSecond, fits, by
      have ha := a.nanos_lt
      have hb := b.nanos_lt
      omega⟩
  else none

/-- The difference, or zero when `b` is the longer one: a second is borrowed
where the nanoseconds do not suffice. -/
def monus (a b : Duration) : Duration :=
  if a.seconds < b.seconds ∨ (a.seconds = b.seconds ∧ a.nanos < b.nanos) then zero
  else if enough : b.nanos ≤ a.nanos then
    ⟨a.seconds - b.seconds, a.nanos - b.nanos,
      Nat.lt_of_le_of_lt (Nat.sub_le _ _) a.seconds_lt,
      Nat.lt_of_le_of_lt (Nat.sub_le _ _) a.nanos_lt⟩
  else
    ⟨a.seconds - b.seconds - 1, a.nanos + nanosPerSecond - b.nanos,
      Nat.lt_of_le_of_lt (by omega) a.seconds_lt, by
      have hb := b.nanos_lt
      omega⟩

/-- A sum that is given is exact. -/
theorem toNanos_add? {a b sum : Duration} (h : a.add? b = some sum) :
    sum.toNanos = a.toNanos + b.toNanos := by
  unfold add? at h
  split at h
  · split at h
    · cases h
      simp only [toNanos, nanosPerSecond]
      omega
    · cases h
  · next carry =>
    split at h
    · cases h
      simp only [toNanos, nanosPerSecond] at carry ⊢
      omega
    · cases h

/-- A sum is refused exactly when it is longer than the longest duration. -/
theorem add?_eq_none {a b : Duration} :
    a.add? b = none ↔ secondsLimit * nanosPerSecond ≤ a.toNanos + b.toNanos := by
  have ha := a.nanos_lt
  have hb := b.nanos_lt
  unfold add? toNanos
  split
  · split
    · simp only [reduceCtorEq, false_iff]
      unfold secondsLimit nanosPerSecond at *
      omega
    · simp only [true_iff]
      unfold secondsLimit nanosPerSecond at *
      omega
  · split
    · simp only [reduceCtorEq, false_iff]
      unfold secondsLimit nanosPerSecond at *
      omega
    · simp only [true_iff]
      unfold secondsLimit nanosPerSecond at *
      omega

/-- Differences are exact, and stop at zero. -/
theorem toNanos_monus (a b : Duration) : (a.monus b).toNanos = a.toNanos - b.toNanos := by
  have ha := a.nanos_lt
  have hb := b.nanos_lt
  unfold monus toNanos
  split
  · simp only [zero]
    unfold nanosPerSecond at *
    omega
  split
  · simp only
    unfold nanosPerSecond at *
    omega
  · simp only
    unfold nanosPerSecond at *
    omega

end Duration
end CapturePace
