import Mathlib.Algebra.Order.Ring.Int

/-! # Instants

Go's `time.Time` keeps the seconds since the first of January of the year 1 in an `int64`, so building an instant from a
Unix time wraps around for a Unix time near the largest one. -/

/-- An instant: seconds since the year 1, and nanoseconds. -/
structure Time where
  sec : Int
  nsec : Nat
  deriving Repr, DecidableEq

namespace Time

/-- Seconds from the year 1 to the Unix epoch. -/
def unixToInternal : Int := 62135596800

/-- The instant of a Unix time. -/
def ofUnix (sec : Int) : Time := ⟨Int.bmod (sec + unixToInternal) (2 ^ 64), 0⟩

/-- The Unix time of an instant. -/
def unix (t : Time) : Int := Int.bmod (t.sec - unixToInternal) (2 ^ 64)

/-- Whether an instant is the zero value. -/
def isZero (t : Time) : Bool := t.sec == 0 && t.nsec == 0

/-- Whether an instant is after another. -/
def after (t u : Time) : Bool := u.sec < t.sec || (t.sec == u.sec && u.nsec < t.nsec)

/-- Whether an instant is before another. -/
def before (t u : Time) : Bool := u.after t

/-- The instant a number of nanoseconds later. -/
def add (t : Time) (d : Int) : Time := ⟨t.sec + (t.nsec + d) / 1000000000, ((t.nsec + d) % 1000000000).toNat⟩

/-- The nanoseconds since the year 1. -/
def nanos (t : Time) : Int := t.sec * 1000000000 + t.nsec

/-- The nanoseconds from one instant to another, in 64 bits: a longer time is cut to the longest one. -/
def sub (t u : Time) : Int :=
  max (-2 ^ 63) (min (2 ^ 63 - 1) ((t.sec - u.sec) * 1000000000 + ((t.nsec : Int) - u.nsec)))

/-- The whole milliseconds of a duration in nanoseconds. -/
def milliseconds (d : Int) : Int := d.tdiv 1000000

/-- Whether an instant can be written as a protobuf timestamp: from the year 1 to the year 9999. -/
def marshalable (t : Time) : Bool := -62135596800 ≤ t.unix && t.unix < 253402300800 && t.nsec < 1000000000

/-- Whether an instant lies in the years 1 to 9999, counted in the seconds it keeps. -/
def inYears (t : Time) : Bool := 0 ≤ t.sec && t.sec < 315537897600 && t.nsec < 1000000000

variable {t u v : Time}

theorem inYears_iff : t.inYears = true ↔ 0 ≤ t.sec ∧ t.sec < 315537897600 ∧ t.nsec < 1000000000 := by
  simp [inYears, and_assoc]

theorem nanos_add (t : Time) (d : Int) : (t.add d).nanos = t.nanos + d := by
  simp only [nanos, add]
  omega

theorem before_iff : t.before u = true ↔ t.sec < u.sec ∨ t.sec = u.sec ∧ t.nsec < u.nsec := by
  rw [before, after, Bool.or_eq_true, Bool.and_eq_true, beq_iff_eq, decide_eq_true_eq, decide_eq_true_eq, eq_comm]

theorem not_before_iff : t.before u = false ↔ u.sec < t.sec ∨ t.sec = u.sec ∧ u.nsec ≤ t.nsec := by
  rw [← Bool.not_eq_true, before_iff]
  omega

/-- Of two different instants one is before the other. -/
theorem eq_of_not_before (htu : t.before u = false) (hut : u.before t = false) : t = u := by
  obtain ⟨tsec, tnsec⟩ := t
  obtain ⟨usec, unsec⟩ := u
  rw [not_before_iff] at htu hut
  rw [Time.mk.injEq]
  dsimp only at htu hut
  omega

/-- What is not after an instant is not after a later one. -/
theorem not_before_of_before (htu : t.before u = true) (htv : t.before v = false) : u.before v = false := by
  rw [before_iff] at htu
  rw [not_before_iff] at htv ⊢
  omega

/-- What is before an instant is before a later one. -/
theorem before_of_not_before (htu : t.before u = true) (hvu : v.before u = false) : t.before v = true := by
  rw [before_iff] at htu ⊢
  rw [not_before_iff] at hvu
  omega

/-- The seconds of an instant are an `int64`, as Go keeps them. -/
def IsInt64 (t : Time) : Prop := -2 ^ 63 ≤ t.sec ∧ t.sec < 2 ^ 63

/-- An instant whose seconds are an `int64` and that can be written as a protobuf timestamp lies in the years 1 to 9999. -/
theorem inYears_of_marshalable (hs : t.IsInt64) (h : t.marshalable = true) : t.inYears = true := by
  rw [IsInt64] at hs
  simp only [marshalable, Bool.and_eq_true, decide_eq_true_eq] at h
  -- only an instant before the year 1 could wrap around, and then its Unix time is far too large
  have hu : t.unix = t.sec - 62135596800 ∨ t.unix = t.sec - 62135596800 + 2 ^ 64 := by
    have hp : ((2 ^ 64 : Nat) : Int) = 18446744073709551616 := by decide
    rw [unix, unixToInternal, Int.bmod_def, hp]
    split
    · omega
    · omega
  rw [inYears_iff]
  omega

/-- The Unix time of an instant in the years 1 to 9999. -/
theorem unix_of_inYears (h : t.inYears = true) : t.unix = t.sec - unixToInternal := by
  rw [inYears_iff] at h
  unfold unix unixToInternal
  exact Int.bmod_eq_of_le (by omega) (by omega)

end Time
