import Ironpulse.Analytics.Detectors
import Mathlib.Algebra.Order.Field.Basic
import Mathlib.Analysis.Real.Sqrt

/-! # The detectors in exact arithmetic

`Arithmetic` assumes nothing about the operations on a `double`. `LawfulArithmetic` says that they
are those of an ordered field, and the real numbers add the square root.

* **`LawfulArithmetic`**: the operations are the field's.
* **`max_eq`**: `std::max` is the maximum.
* **`Arithmetic ℝ`**, **`SquareRoot ℝ`**: real numbers. -/

namespace Ironpulse.Analytics

/-- Laws that make the operations of the detectors those of an ordered field. -/
class LawfulArithmetic (K : Type) [Field K] [LinearOrder K] [Arithmetic K] : Prop where
  zero_eq : Floating.zero = (0 : K)
  one_eq : Floating.one = (1 : K)
  lt_eq (a b : K) : Floating.lt a b = decide (a < b)
  sub_eq (a b : K) : Floating.sub a b = a - b
  abs_eq (a : K) : Floating.abs a = |a|
  add_eq (a b : K) : Arithmetic.add a b = a + b
  mul_eq (a b : K) : Arithmetic.mul a b = a * b
  div_eq (a b : K) : Arithmetic.div a b = a / b
  ofRat_eq (q : Rat) : Arithmetic.ofRat q = (q : K)

attribute [simp] LawfulArithmetic.zero_eq LawfulArithmetic.one_eq LawfulArithmetic.lt_eq
  LawfulArithmetic.sub_eq LawfulArithmetic.abs_eq LawfulArithmetic.add_eq LawfulArithmetic.mul_eq
  LawfulArithmetic.div_eq LawfulArithmetic.ofRat_eq

instance : LawfulArithmetic Rat where
  zero_eq := rfl
  one_eq := rfl
  lt_eq _ _ := rfl
  sub_eq _ _ := rfl
  abs_eq _ := rfl
  add_eq _ _ := rfl
  mul_eq _ _ := rfl
  div_eq _ _ := rfl
  ofRat_eq _ := rfl

/-- In a field with exact arithmetic `max` of the code is the maximum of the order. -/
theorem max_eq {K : Type} [Field K] [LinearOrder K] [Arithmetic K] [LawfulArithmetic K] (a b : K) :
    Analytics.max a b = Max.max a b := by
  rw [Analytics.max, LawfulArithmetic.lt_eq, max_def_lt]
  simp only [decide_eq_true_eq]

/-! ## Real numbers -/

/-- A real number with two decimals, half to even. -/
noncomputable def print_real (x : ℝ) : String :=
  let scaled := |x| * 100
  let down := ⌊scaled⌋₊
  let rest := scaled - down
  let hundredths := if rest > 1 / 2 ∨ (rest = 1 / 2 ∧ down % 2 = 1) then down + 1 else down
  let decimals := toString (hundredths % 100)
  (if x < 0 then "-" else "") ++ toString (hundredths / 100) ++ "." ++
    (if decimals.length < 2 then "0" ++ decimals else decimals)

noncomputable instance : Arithmetic ℝ where
  zero := 0
  one := 1
  lt a b := decide (a < b)
  sub a b := a - b
  abs a := |a|
  printf_2f := print_real
  add a b := a + b
  mul a b := a * b
  div a b := a / b
  ofRat q := q
  ceil_size x := UInt64.ofNat ⌈x⌉₊

noncomputable instance : SquareRoot ℝ := ⟨Real.sqrt⟩

instance : LawfulArithmetic ℝ where
  zero_eq := rfl
  one_eq := rfl
  lt_eq _ _ := rfl
  sub_eq _ _ := rfl
  abs_eq _ := rfl
  add_eq _ _ := rfl
  mul_eq _ _ := rfl
  div_eq _ _ := rfl
  ofRat_eq _ := rfl

/-- Over the reals `std::sqrt` is the square root. -/
@[simp] theorem sqrt_real (x : ℝ) : SquareRoot.sqrt x = √x := rfl

/-- A value beyond any number of standard deviations. -/
theorem lt_far_value {m v : ℝ} (hv : 0 < v) (threshold : ℝ) :
    threshold < |m + √v * (|threshold| + 1) - m| / √v := by
  have hsqrt : 0 < √v := Real.sqrt_pos.mpr hv
  rw [add_sub_cancel_left, abs_mul, abs_of_pos hsqrt, mul_div_cancel_left₀ _ hsqrt.ne',
    abs_of_pos (by positivity)]
  exact (le_abs_self threshold).trans_lt (lt_add_one _)

end Ironpulse.Analytics
