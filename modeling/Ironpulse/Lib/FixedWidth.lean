import Mathlib.Algebra.Group.Nat.Defs
import Mathlib.Data.List.Basic
import Mathlib.Data.Nat.Init

/-! # Numbers of a fixed width

Decimal numbers with leading zeros to a fixed width compare as texts the way they compare as
numbers, and so do texts that are put together from them.

* **`digits`**: the decimal digits of a number, filled up with zeros.
* **`digits_lt_digits`**: the order of the texts is the order of the numbers.
* **`field_lt`**: the first number that differs decides, whatever is behind it. -/

namespace FixedWidth

/-- Of two texts that differ within the same length the rest does not matter. -/
theorem append_lt_append {α : Type*} [LT α] {a b : List α} (hlength : a.length = b.length)
    (h : a < b) (x y : List α) : a ++ x < b ++ y := by
  induction a generalizing b with
  | nil =>
      obtain rfl := List.length_eq_zero_iff.mp hlength.symm
      exact absurd h List.not_lex_nil
  | cons c a ih =>
      cases b with
      | nil => cases hlength
      | cons d b =>
          rw [List.cons_append, List.cons_append, List.cons_lt_cons_iff]
          obtain hlt | ⟨heq, hrest⟩ := List.cons_lt_cons_iff.mp h
          · exact .inl hlt
          · exact .inr ⟨heq, ih (Nat.succ.inj hlength) hrest⟩

/-- The decimal digits of a number with leading zeros. -/
def digits (width n : Nat) : List Char := (Nat.toDigits 10 n).leftpad width '0'

/-- The last digit and the ones in front of it. -/
theorem digits_succ {width : Nat} (hwidth : 0 < width) (n : Nat) :
    digits (width + 1) n = digits width (n / 10) ++ [Nat.digitChar (n % 10)] := by
  by_cases hn : n < 10
  · -- A single digit: all in front of it are zeros, and one of them is the text of the quotient.
    have hreplicate : List.replicate width '0' = List.replicate (width - 1) '0' ++ ['0'] := by
      rw [← List.replicate_succ', Nat.sub_add_cancel hwidth]
    rw [digits, digits, Nat.div_eq_of_lt hn, Nat.mod_eq_of_lt hn, Nat.toDigits_of_lt_base hn,
      Nat.toDigits_zero, List.leftpad, List.leftpad, List.length_singleton, List.length_singleton,
      Nat.add_sub_cancel, hreplicate]
  · rw [digits, digits, Nat.toDigits_of_base_le (by decide) (Nat.le_of_not_lt hn), List.leftpad,
      List.leftpad, List.length_append, List.length_singleton, Nat.add_sub_add_right,
      List.append_assoc]

/-- One digit of a number below ten. -/
theorem digits_one {n : Nat} (hn : n < 10) : digits 1 n = [Nat.digitChar n] := by
  rw [digits, Nat.toDigits_of_lt_base hn]
  rfl

/-- A number that fits is written in exactly the digits asked for. -/
theorem length_digits {width n : Nat} (hwidth : 0 < width) (hn : n < 10 ^ width) :
    (digits width n).length = width := by
  induction width, hwidth using Nat.le_induction generalizing n with
  | base => rw [digits_one hn, List.length_singleton]
  | succ width hwidth ih =>
      have hfront : n / 10 < 10 ^ width := Nat.div_lt_of_lt_mul (by rwa [← Nat.pow_succ'])
      rw [digits_succ hwidth, List.length_append, ih hfront, List.length_singleton]

/-- The digits are in the order of their characters. -/
theorem digitChar_lt {m n : Nat} (h : m < n) (hn : n < 10) :
    Nat.digitChar m < Nat.digitChar n := by
  have hall : ∀ n < 10, ∀ m < n, Nat.digitChar m < Nat.digitChar n := by decide
  exact hall n hn m h

/-- **The texts are in the order of the numbers.** -/
theorem digits_lt_digits {width m n : Nat} (hwidth : 0 < width) (hn : n < 10 ^ width) (h : m < n) :
    digits width m < digits width n := by
  induction width, hwidth using Nat.le_induction generalizing m n with
  | base =>
      rw [digits_one (Nat.lt_trans h hn), digits_one hn]
      exact List.cons_lt_cons_iff.mpr (.inl (digitChar_lt h hn))
  | succ width hwidth ih =>
      have hfront : n / 10 < 10 ^ width := Nat.div_lt_of_lt_mul (by rwa [← Nat.pow_succ'])
      have hfront' : m / 10 < 10 ^ width :=
        Nat.lt_of_le_of_lt (Nat.div_le_div_right (Nat.le_of_lt h)) hfront
      rw [digits_succ hwidth, digits_succ hwidth]
      by_cases heq : m / 10 = n / 10
      · rw [heq]
        apply List.append_left_lt
        exact List.cons_lt_cons_iff.mpr
          (.inl (digitChar_lt (by omega) (Nat.mod_lt n (by decide))))
      · -- The digits in front decide, as they have the same length.
        apply append_lt_append
        · rw [length_digits hwidth hfront, length_digits hwidth hfront']
        · exact ih hfront (by omega)

/-- **The first number that differs decides.** Behind equal numbers the rest does. -/
theorem field_lt {width m n : Nat} {x y : List Char} (hwidth : 0 < width) (hm : m < 10 ^ width)
    (hn : n < 10 ^ width) (h : m < n ∨ m = n ∧ x < y) :
    digits width m ++ x < digits width n ++ y := by
  obtain hlt | ⟨rfl, hrest⟩ := h
  · apply append_lt_append _ (digits_lt_digits hwidth hn hlt)
    rw [length_digits hwidth hm, length_digits hwidth hn]
  · exact List.append_left_lt hrest

end FixedWidth
