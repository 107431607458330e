import Mathlib.Algebra.Ring.Rat
import Mathlib.Control.Monad.Basic
import Mathlib.Data.List.Forall2
import Mathlib.Data.Nat.Basic

/-! # JSON values and the checked readers of their fields

The configuration parser (`src/core/config.cpp`) reads every field of a JSON object through one of a
few readers that check its type and range and fail with the field's path. The values are those that
the JSON library builds: integers as signed or unsigned 64-bit numbers, objects with each key once
and in key order.

* **`Json`**: the values.
* **`get_int`, `get_number`, `get_string`, `get_bool`, `get_enum`**: the readers.
* **`get_int_eq_ok`**: an integer field is either its fallback or a value of the field in range.
* **`get_int_exact`**: a present integer is returned as it is or refused, never changed. -/

namespace Ironpulse.Core

/-! ## (1) Numbers -/

/-- A `double`, a finite one by its value. -/
inductive Double where
  | finite (value : Rat)
  | infinite (negative : Bool)
  | nan
  deriving DecidableEq

/-- The `double` nearest to an integer, ties to the even significand of 53 bits. -/
def double_of_int (n : Int) : Rat :=
  let m := n.natAbs
  let ulp := 2 ^ (m.log2 - 52)
  let down := m / ulp
  let rest := m % ulp
  let significand := if 2 * rest > ulp ∨ (2 * rest = ulp ∧ down % 2 = 1) then down + 1 else down
  (n.sign * (significand * ulp : Nat) : Int)

/-- An unsigned integer type of the source. `ofNat` truncates, as `static_cast` does. -/
class Unsigned (T : Type) where
  width : Nat
  toNat : T → Nat
  ofNat : Nat → T
  toNat_lt : ∀ x, toNat x < 2 ^ width
  toNat_ofNat : ∀ n, toNat (ofNat n) = n % 2 ^ width

instance : Unsigned UInt8 where
  width := 8
  toNat := UInt8.toNat
  ofNat := UInt8.ofNat
  toNat_lt := UInt8.toNat_lt
  toNat_ofNat _ := UInt8.toNat_ofNat'

instance : Unsigned UInt16 where
  width := 16
  toNat := UInt16.toNat
  ofNat := UInt16.ofNat
  toNat_lt := UInt16.toNat_lt
  toNat_ofNat _ := UInt16.toNat_ofNat'

instance : Unsigned UInt32 where
  width := 32
  toNat := UInt32.toNat
  ofNat := UInt32.ofNat
  toNat_lt := UInt32.toNat_lt
  toNat_ofNat _ := UInt32.toNat_ofNat'

instance : Unsigned UInt64 where
  width := 64
  toNat := UInt64.toNat
  ofNat := UInt64.ofNat
  toNat_lt := UInt64.toNat_lt
  toNat_ofNat _ := UInt64.toNat_ofNat'

/-- `numeric_limits<T>::max()`. -/
def numeric_limits_max (T : Type) [Unsigned T] : Nat := 2 ^ Unsigned.width T - 1

/-! ## (2) Values -/

/-- A value as the JSON library holds it after parsing. -/
inductive Json where
  | null
  | boolean (value : Bool)
  | number_integer (value : Int64)
  | number_unsigned (value : UInt64)
  | number_float (value : Double)
  | string (value : String)
  | array (elements : List Json)
  | object (items : List (String × Json))

namespace Json

/-- The field of an object, none where `contains(key)` is false. -/
def find (j : Json) (key : String) : Option Json :=
  match j with
  | .object items => items.lookup key
  | _ => none

/-- `is_object()`. -/
def is_object : Json → Bool
  | .object _ => true
  | _ => false

/-- `get<std::int64_t>()` of an integer, none where `is_number_integer()` is false. An unsigned
number is converted modulo `2 ^ 64`. -/
def get_int64 : Json → Option Int64
  | .number_integer n => some n
  | .number_unsigned n => some n.toInt64
  | _ => none

/-- The integer that a value stands for, none where `is_number_integer()` is false. -/
def integer : Json → Option Int
  | .number_integer n => some n.toInt
  | .number_unsigned n => some n.toNat
  | _ => none

/-- `get<double>()` of a number, none where `is_number()` is false. -/
def get_double : Json → Option Double
  | .number_integer n => some (.finite (double_of_int n.toInt))
  | .number_unsigned n => some (.finite (double_of_int n.toNat))
  | .number_float d => some d
  | _ => none

end Json

/-! ## (3) The readers -/

/-- `fail`: the error of a field. -/
def fail {α : Type} (path problem : String) : Except String α :=
  .error ("config: " ++ path ++ ": " ++ problem)

/-- `join_path`: the path of a field in an error message. -/
def join_path (base key : String) : String := if base.isEmpty then key else base ++ "." ++ key

section Readers

variable (obj : Json) (key : String)

/-- The bound of a range check as the signed number that it is compared with. -/
def signed_bound {T : Type} [Unsigned T] (bound : T) : Int64 :=
  Int64.ofNat (Unsigned.toNat bound)

/-- `get_int`: an integer field in a range, or the fallback when it is missing. -/
def get_int {T : Type} [Unsigned T] (fallback : T) (path : String) (min_value max_value : T) :
    Except String T :=
  match obj.find key with
  | none => .ok fallback
  | some v =>
      match v.get_int64 with
      | none => fail (join_path path key) "expected an integer"
      | some raw =>
          if raw < signed_bound min_value ∨ raw > signed_bound max_value then
            fail (join_path path key) ("value " ++ toString raw ++ " is out of range [" ++
              toString (Unsigned.toNat min_value) ++ ", " ++ toString (Unsigned.toNat max_value) ++
              "]")
          else .ok (Unsigned.ofNat raw.toUInt64.toNat)

/-- `get_number`: a number field, or the fallback when it is missing. -/
def get_number (fallback : Rat) (path : String) : Except String Rat :=
  match obj.find key with
  | none => .ok fallback
  | some v =>
      match v.get_double with
      | none => fail (join_path path key) "expected a number"
      | some (.finite d) => .ok d
      | some _ => fail (join_path path key) "expected a finite number"

/-- `get_optional_number`: a number field, absent when it is missing or null. -/
def get_optional_number (path : String) : Except String (Option Rat) :=
  match obj.find key with
  | none | some .null => .ok none
  | some _ => some <$> get_number obj key 0 path

/-- `get_string`: a text field, or the fallback when it is missing. -/
def get_string (fallback path : String) : Except String String :=
  match obj.find key with
  | none => .ok fallback
  | some (.string s) => .ok s
  | some _ => fail (join_path path key) "expected a string"

/-- `get_bool`: a Boolean field, or the fallback when it is missing. -/
def get_bool (fallback : Bool) (path : String) : Except String Bool :=
  match obj.find key with
  | none => .ok fallback
  | some (.boolean b) => .ok b
  | some _ => fail (join_path path key) "expected true or false"

/-- `get_enum`: an absent or empty field is the fallback. -/
def get_enum {Enum : Type} (fallback : Enum) (path : String) (options : List (String × Enum)) :
    Except String Enum := do
  let raw ← get_string obj key "" path
  if raw.isEmpty then return fallback
  match options.lookup raw with
  | some value => return value
  | none =>
      fail (join_path path key) ("unknown value '" ++ raw ++ "' (expected one of: " ++
        ", ".intercalate (options.map Prod.fst) ++ ")")

end Readers

/-! ## (4) What the readers accept -/

/-- A step of a parser succeeds with an intermediate result. -/
theorem bind_eq_ok {ε α β : Type} {x : Except ε α} {f : α → Except ε β} {b : β} :
    x >>= f = .ok b ↔ ∃ a, x = .ok a ∧ f a = .ok b := by
  cases x with
  | error e =>
      constructor
      · intro h
        cases h
      · rintro ⟨a, ha, -⟩
        cases ha
  | ok a =>
      constructor
      · intro h
        exact ⟨a, rfl, h⟩
      · rintro ⟨a', ha, h⟩
        cases ha
        exact h

/-- **A list parses exactly if its elements do**, one after the other. -/
theorem mapM_eq_ok {ε α β : Type} {f : α → Except ε β} {xs : List α} {ys : List β} :
    xs.mapM f = .ok ys ↔ List.Forall₂ (fun x y => f x = .ok y) xs ys := by
  induction xs generalizing ys with
  | nil =>
      rw [List.mapM_nil, List.forall₂_nil_left_iff]
      exact ⟨fun h => (Except.ok.inj h).symm, fun h => h ▸ rfl⟩
  | cons x xs ih =>
      rw [List.mapM_cons, bind_eq_ok, List.forall₂_cons_left_iff]
      simp only [bind_eq_ok, ih]
      constructor
      · rintro ⟨y, hy, ys', hys, hcons⟩
        exact ⟨y, ys', hy, hys, (Except.ok.inj hcons).symm⟩
      · rintro ⟨y, ys', hy, hys, rfl⟩
        exact ⟨y, hy, ys', hys, rfl⟩

/-- What holds of every parsed element holds of the elements of a parsed list. -/
theorem forall_of_mapM_eq_ok {ε α β : Type} {f : α → Except ε β} {P : β → Prop}
    (hf : ∀ x y, f x = .ok y → P y) {xs : List α} {ys : List β} (h : xs.mapM f = .ok ys) :
    ∀ y ∈ ys, P y := by
  have hparsed := mapM_eq_ok.mp h
  clear h
  induction hparsed with
  | nil =>
      intro y hy
      cases hy
  | cons hxy _ ih =>
      intro y hy
      obtain rfl | hy := List.mem_cons.mp hy
      · exact hf _ _ hxy
      · exact ih y hy

/-- **A signed number in the range of `T` survives the cast to `T`.** -/
theorem toNat_ofNat_toUInt64 {T : Type} [Unsigned T] {raw : Int64} {bound : T}
    (hnonneg : 0 ≤ raw.toInt) (hle : raw.toInt ≤ Unsigned.toNat bound) :
    (Unsigned.toNat (Unsigned.ofNat raw.toUInt64.toNat : T) : Int) = raw.toInt := by
  have hbound := Unsigned.toNat_lt bound
  have hcast : raw.toUInt64.toNat = raw.toInt.toNat :=
    Int64.toNat_toUInt64_of_le (Int64.le_iff_toInt_le.mpr hnonneg)
  rw [Unsigned.toNat_ofNat, hcast, Nat.mod_eq_of_lt (by omega)]
  exact Int.toNat_of_nonneg hnonneg

/-- A bound as a signed number is never more than the bound: from `2 ^ 63` on it turns negative. -/
theorem toInt_signed_bound_le {T : Type} [Unsigned T] (bound : T) :
    (signed_bound bound).toInt ≤ Unsigned.toNat bound := by
  have hsize : Int64.size = 2 ^ 64 := rfl
  rw [signed_bound, Int64.toInt_ofNat', hsize, Int.bmod_def]
  split
  · omega
  · omega

/-- **An integer field is its fallback or in range**: what `get_int` returns lies between its bounds
unless the field is absent. -/
theorem get_int_eq_ok {T : Type} [Unsigned T] {obj : Json} {key path : String}
    {fallback min_value max_value x : T} (hmin : Unsigned.toNat min_value < 2 ^ 63)
    (h : get_int obj key fallback path min_value max_value = .ok x) :
    x = fallback ∨
      Unsigned.toNat min_value ≤ Unsigned.toNat x ∧ Unsigned.toNat x ≤ Unsigned.toNat max_value := by
  unfold get_int at h
  cases hfind : obj.find key with
  | none =>
      rw [hfind] at h
      exact .inl (Except.ok.inj h).symm
  | some v =>
      rw [hfind] at h
      cases hv : v.get_int64 with
      | none => simp only [hv, fail, reduceCtorEq] at h
      | some raw =>
          simp only [hv] at h
          split at h
          · cases h
          · rename_i hrange
            -- the comparison in 64 signed bits is the one of the numbers, as the bounds are below
            -- 2^63
            have hbound := toInt_signed_bound_le max_value
            rw [not_or, gt_iff_lt, Int64.not_lt, Int64.not_lt, Int64.le_iff_toInt_le,
              Int64.le_iff_toInt_le, signed_bound, Int64.toInt_ofNat_of_lt hmin] at hrange
            have hx := toNat_ofNat_toUInt64 (by omega) (Int.le_trans hrange.2 hbound)
            rw [Except.ok.inj h] at hx
            omega

/-- Where the fallback is in range, so is what `get_int` returns. -/
theorem get_int_in_range {T : Type} [Unsigned T] {obj : Json} {key path : String}
    {fallback min_value max_value x : T} (hmin : Unsigned.toNat min_value < 2 ^ 63)
    (hfallback : Unsigned.toNat min_value ≤ Unsigned.toNat fallback ∧
      Unsigned.toNat fallback ≤ Unsigned.toNat max_value)
    (h : get_int obj key fallback path min_value max_value = .ok x) :
    Unsigned.toNat min_value ≤ Unsigned.toNat x ∧ Unsigned.toNat x ≤ Unsigned.toNat max_value := by
  obtain rfl | hrange := get_int_eq_ok hmin h
  · exact hfallback
  · exact hrange

/-! ## (5) No integer is truncated -/

/-- An unsigned number below `2 ^ 63` is the same as a signed one, from there on it turns negative. -/
theorem toInt_toInt64 (n : UInt64) :
    n.toInt64.toInt = n.toNat ∧ n.toNat < 2 ^ 63 ∨ n.toInt64.toInt < 0 ∧ 2 ^ 63 ≤ n.toNat := by
  have hlt := n.toNat_lt
  have hcast : n.toInt64 = Int64.ofNat n.toNat := by
    rw [← UInt64.toInt64_ofNat', UInt64.ofNat_toNat]
  have hsize : Int64.size = 2 ^ 64 := rfl
  rw [hcast, Int64.toInt_ofNat', hsize, Int.bmod_def]
  split
  · omega
  · omega

/-- **`get<std::int64_t>()` keeps an integer or makes it negative**, the latter from `2 ^ 63` on. -/
theorem get_int64_of_integer {v : Json} {n : Int} (h : v.integer = some n) :
    ∃ raw, v.get_int64 = some raw ∧
      (raw.toInt = n ∧ n < 2 ^ 63 ∨ raw.toInt < 0 ∧ 2 ^ 63 ≤ n) := by
  cases v with
  | number_integer m =>
      obtain rfl : m.toInt = n := Option.some.inj h
      exact ⟨m, rfl, .inl ⟨rfl, m.toInt_lt⟩⟩
  | number_unsigned m =>
      obtain rfl : (m.toNat : Int) = n := Option.some.inj h
      refine ⟨m.toInt64, rfl, ?_⟩
      -- an unsigned number from `2 ^ 63` on comes out negative
      have hm := toInt_toInt64 m
      omega
  | null => cases h
  | boolean b => cases h
  | number_float d => cases h
  | string s => cases h
  | array xs => cases h
  | object items => cases h

/-- The reader once the field is there and an integer: the range check on the signed number. -/
theorem get_int_of_get_int64 {T : Type} [Unsigned T] {obj v : Json} {key : String}
    {min_value max_value : T} {raw : Int64} (fallback : T) (path : String)
    (hfind : obj.find key = some v) (hraw : v.get_int64 = some raw)
    (hmin : Unsigned.toNat min_value < 2 ^ 63) (hmax : Unsigned.toNat max_value < 2 ^ 63) :
    (((Unsigned.toNat min_value : Int) ≤ raw.toInt ∧ raw.toInt ≤ Unsigned.toNat max_value) ∧
      get_int obj key fallback path min_value max_value =
        .ok (Unsigned.ofNat raw.toUInt64.toNat)) ∨
    (¬((Unsigned.toNat min_value : Int) ≤ raw.toInt ∧ raw.toInt ≤ Unsigned.toNat max_value) ∧
      ∃ problem, get_int obj key fallback path min_value max_value =
        fail (join_path path key) problem) := by
  -- as both bounds fit, the signed comparison is the one of the numbers
  have hbounds : (raw < signed_bound min_value ∨ raw > signed_bound max_value) ↔
      ¬((Unsigned.toNat min_value : Int) ≤ raw.toInt ∧ raw.toInt ≤ Unsigned.toNat max_value) := by
    rw [gt_iff_lt, Int64.lt_iff_toInt_lt, Int64.lt_iff_toInt_lt, signed_bound, signed_bound,
      Int64.toInt_ofNat_of_lt hmin, Int64.toInt_ofNat_of_lt hmax]
    omega
  unfold get_int
  simp only [hfind, hraw]
  by_cases hrange : raw < signed_bound min_value ∨ raw > signed_bound max_value
  · rw [if_pos hrange]
    exact .inr ⟨hbounds.mp hrange, _, rfl⟩
  · rw [if_neg hrange]
    exact .inl ⟨not_not.mp (mt hbounds.mpr hrange), rfl⟩

/-- **No integer is truncated.** A field that holds an integer is returned with its value where that
is in the range of the field, and is refused in every other case: neither the conversion to a signed
number nor the cast to the field's type brings a value from outside into the range. -/
theorem get_int_exact {T : Type} [Unsigned T] (obj v : Json) (key path : String)
    (fallback min_value max_value : T) (n : Int) (hmax : Unsigned.toNat max_value < 2 ^ 63)
    (hle : Unsigned.toNat min_value ≤ Unsigned.toNat max_value)
    (hfind : obj.find key = some v) (hn : v.integer = some n) :
    ((Unsigned.toNat min_value : Int) ≤ n ∧ n ≤ Unsigned.toNat max_value →
      ∃ x, get_int obj key fallback path min_value max_value = .ok x ∧
        (Unsigned.toNat x : Int) = n) ∧
    (¬((Unsigned.toNat min_value : Int) ≤ n ∧ n ≤ Unsigned.toNat max_value) →
      ∃ problem, get_int obj key fallback path min_value max_value =
        fail (join_path path key) problem) ∧
    (2 ^ 63 ≤ n → ∃ problem, get_int obj key fallback path min_value max_value =
        fail (join_path path key) problem) := by
  obtain ⟨raw, hraw, hkept⟩ := get_int64_of_integer hn
  obtain ⟨hrange, hok⟩ | ⟨hrange, hfail⟩ :=
    get_int_of_get_int64 fallback path hfind hraw (Nat.lt_of_le_of_lt hle hmax) hmax
  · -- A number that wrapped is negative, so the one in range is the integer itself.
    have hraw_eq : raw.toInt = n := by omega
    refine ⟨fun _ => ⟨_, hok, ?_⟩, fun hout => absurd (hraw_eq ▸ hrange) hout, fun hlarge => ?_⟩
    · rw [toNat_ofNat_toUInt64 (by omega) hrange.2, hraw_eq]
    · omega
  · exact ⟨fun hin => absurd hin (by omega), fun _ => hfail, fun _ => hfail⟩

/-- A port of 502 is read, one of 70000 is refused although its low 16 bits are a port. -/
theorem get_int_exact_port :
    (∃ x : UInt16, get_int (.object [("port", .number_unsigned 502)]) "port" 1 "" 1 65535 = .ok x ∧
      (Unsigned.toNat x : Int) = 502) ∧
    (∃ problem, get_int (T := UInt16) (.object [("port", .number_unsigned 70000)]) "port" 1 "" 1
      65535 = fail (join_path "" "port") problem) :=
  ⟨(get_int_exact (T := UInt16) _ (.number_unsigned 502) _ _ 1 1 65535 502 (by decide) (by decide)
      rfl rfl).1 (by decide),
    (get_int_exact (T := UInt16) _ (.number_unsigned 70000) _ _ 1 1 65535 70000 (by decide)
      (by decide) rfl rfl).2.1 (by decide)⟩

end Ironpulse.Core
