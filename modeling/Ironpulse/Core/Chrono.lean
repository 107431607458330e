import Mathlib.Algebra.Ring.Int.Defs

/-! # `std::chrono` counts in 64 bits

A duration is the signed 64-bit count of its unit; converting it to a finer unit multiplies, to a
coarser one divides and truncates toward zero. `Int64` wraps modulo `2 ^ 64`, and the lemmas of the
second section say when it does not. -/

namespace Ironpulse.Core

/-! ## (1) Counts and conversions -/

/-- A `system_clock::time_point`: nanoseconds since the Unix epoch. -/
abbrev TimePoint := Int64

/-- The count of a duration in nanoseconds. -/
abbrev Nanoseconds := Int64

/-- The count of a duration in milliseconds. -/
abbrev Milliseconds := Int64

/-- The count of a duration in seconds. -/
abbrev Seconds := Int64

/-- `std::chrono::hours(count)` converted to milliseconds. -/
def hours_to_milliseconds (hours : Int64) : Milliseconds := hours * 3600000

/-- Milliseconds converted to nanoseconds, the unit in which `system_clock` computes. -/
def milliseconds_to_nanoseconds (ms : Milliseconds) : Nanoseconds := ms * 1000000

/-- Seconds converted to nanoseconds. -/
def seconds_to_nanoseconds (s : Seconds) : Nanoseconds := s * 1000000000

/-- `duration_cast<milliseconds>`: truncates toward zero. -/
def duration_cast_milliseconds (ns : Nanoseconds) : Milliseconds := ns / 1000000

/-! ## (2) When nothing wraps -/

/-- A product that fits in 64 bits is the product. -/
theorem toInt_mul_of_fits {a b : Int64} (hlo : -2 ^ 63 ≤ a.toInt * b.toInt)
    (hhi : a.toInt * b.toInt < 2 ^ 63) : (a * b).toInt = a.toInt * b.toInt := by
  rw [Int64.toInt_mul]
  exact Int.bmod_eq_of_le (by omega) (by omega)

/-- A difference that fits in 64 bits is the difference. -/
theorem toInt_sub_of_fits {a b : Int64} (hlo : -2 ^ 63 ≤ a.toInt - b.toInt)
    (hhi : a.toInt - b.toInt < 2 ^ 63) : (a - b).toInt = a.toInt - b.toInt := by
  rw [Int64.toInt_sub]
  exact Int.bmod_eq_of_le (by omega) (by omega)

/-- Truncating to milliseconds never wraps. -/
theorem toInt_duration_cast_milliseconds (ns : Nanoseconds) :
    (duration_cast_milliseconds ns).toInt = ns.toInt.tdiv 1000000 :=
  Int64.toInt_div_of_ne_right ns 1000000 (by decide)

end Ironpulse.Core
