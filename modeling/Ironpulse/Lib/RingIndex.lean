import Mathlib.Data.Nat.ModEq
import Mathlib.Logic.Function.Basic

/-! # Wrapping indices into a ring of slots

A ring buffer of `2 ^ k` slots counts its operations with 64-bit indices that are allowed to wrap
and masks an index to find its slot. The natural number of operations is the index without wrapping.

* **`toNat_ofNat_sub_ofNat`**: the difference of two indices is that of the counts.
* **`slotOf_inj`**: within a window of `2 ^ k` counts every count has a slot of its own.
* **`isPowerOfTwo_of_and_sub_one`**: what the usual bit trick checks.
* **`SlotsHold`**: the slots of a window hold the elements numbered by its counts, and
  `SlotsHold.construct`, `SlotsHold.vacate`, `SlotsHold.advance`: how it moves on. -/

namespace RingIndex

/-! ## (1) Indices -/

/-- **The difference of two wrapped counts is the difference of the counts.** -/
theorem toNat_ofNat_sub_ofNat {a b : Nat} (hle : a ≤ b) (hlt : b - a < 2 ^ 64) :
    (UInt64.ofNat b - UInt64.ofNat a).toNat = b - a := by
  rw [UInt64.toNat_sub, UInt64.toNat_ofNat', UInt64.toNat_ofNat']
  omega

/-- Wrapped counts that are less than `2 ^ 64` apart differ. -/
theorem ofNat_eq_ofNat_iff {a b : Nat} (hle : a ≤ b) (hlt : b - a < 2 ^ 64) :
    UInt64.ofNat a = UInt64.ofNat b ↔ a = b := by
  constructor
  · intro h
    have hsub := toNat_ofNat_sub_ofNat hle hlt
    rw [h, UInt64.sub_self, UInt64.toNat_zero] at hsub
    omega
  · rintro rfl
    rfl

/-- Counting one operation more advances the index. -/
theorem ofNat_add_one (a : Nat) : UInt64.ofNat a + 1 = UInt64.ofNat (a + 1) := by
  rw [UInt64.ofNat_add]
  rfl

/-! ## (2) Slots -/

/-- A number with `x & (x - 1) = 0` that is at least 2 is a power of two. -/
theorem isPowerOfTwo_of_and_sub_one {x : UInt64} (htwo : 2 ≤ x) (h : x &&& (x - 1) = 0) :
    ∃ k, k < 64 ∧ x.toNat = 2 ^ k := by
  have hx : 2 ≤ x.toNat := UInt64.le_iff_toNat_le.mp htwo
  have hlt := UInt64.toNat_lt x
  have hsub : (x - 1).toNat = x.toNat - 1 :=
    UInt64.toNat_sub_of_le x 1 (UInt64.le_iff_toNat_le.mpr (by rw [UInt64.toNat_one]; omega))
  have hand : x.toNat &&& (x.toNat - 1) = 0 := by
    rw [← hsub, ← UInt64.toNat_and, h, UInt64.toNat_zero]
  obtain ⟨k, hk⟩ := (Nat.and_sub_one_eq_zero_iff_isPowerOfTwo (by omega)).mp hand
  refine ⟨k, ?_, hk⟩
  rw [hk] at hlt
  exact (Nat.pow_lt_pow_iff_right (by omega)).mp hlt

/-- The slot of the count `j` in a ring of the given capacity. -/
def slotOf (capacity : UInt64) (j : Nat) : UInt64 := UInt64.ofNat j &&& (capacity - 1)

variable {capacity : UInt64} {k : Nat}

/-- Masking is the remainder by the capacity. -/
theorem toNat_slotOf (hk : k < 64) (hcap : capacity.toNat = 2 ^ k) (j : Nat) :
    (slotOf capacity j).toNat = j % capacity.toNat := by
  have hpos : 0 < 2 ^ k := Nat.two_pow_pos k
  have hmask : (capacity - 1).toNat = 2 ^ k - 1 := by
    rw [UInt64.toNat_sub_of_le capacity 1
      (UInt64.le_iff_toNat_le.mpr (by rw [UInt64.toNat_one]; omega)), hcap]
    rfl
  rw [slotOf, UInt64.toNat_and, hmask, UInt64.toNat_ofNat', Nat.and_two_pow_sub_one_eq_mod, hcap]
  exact Nat.mod_mod_of_dvd j (Nat.pow_dvd_pow 2 hk.le)

/-- **Within a window every count has a slot of its own.** -/
theorem slotOf_inj (hk : k < 64) (hcap : capacity.toNat = 2 ^ k) {h i j : Nat} (hi : h ≤ i)
    (hi' : i < h + capacity.toNat) (hj : h ≤ j) (hj' : j < h + capacity.toNat) :
    slotOf capacity i = slotOf capacity j ↔ i = j := by
  constructor
  · intro hslot
    have hmod : i ≡ j [MOD capacity.toNat] := by
      rw [Nat.ModEq, ← toNat_slotOf hk hcap, hslot, toNat_slotOf hk hcap]
    have hmod' : i - h ≡ j - h [MOD capacity.toNat] := Nat.ModEq.add_right_cancel' h (by
      rwa [Nat.sub_add_cancel hi, Nat.sub_add_cancel hj])
    have heq := hmod'.eq_of_lt_of_lt (by omega) (by omega)
    omega
  · rintro rfl
    rfl

/-- One turn around the ring leads back to the same slot. -/
theorem slotOf_add_capacity (hk : k < 64) (hcap : capacity.toNat = 2 ^ k) (j : Nat) :
    slotOf capacity (j + capacity.toNat) = slotOf capacity j := by
  apply UInt64.toNat_inj.mp
  rw [toNat_slotOf hk hcap, toNat_slotOf hk hcap, Nat.add_mod_right]

/-! ## (3) What the slots of a window hold -/

/-- The slots of the `capacity` counts from `first` on hold the elements with these numbers and are
empty past the last element; the first one is already empty when its element is `vacated`. -/
structure SlotsHold {α : Type} (buffer : UInt64 → Option α) (capacity : UInt64) (first : Nat)
    (vacated : Prop) (elements : List α) : Prop where
  first_empty : vacated → buffer (slotOf capacity first) = none
  holds : ∀ j, first ≤ j → j < first + capacity.toNat → (vacated → j ≠ first) →
    buffer (slotOf capacity j) = elements[j]?

namespace SlotsHold

variable {α : Type} {buffer : UInt64 → Option α} {first : Nat} {vacated : Prop} {elements : List α}

/-- The slot after the last element is empty. -/
theorem next_empty (hslots : SlotsHold buffer capacity first vacated elements)
    (hle : first ≤ elements.length) (hlt : elements.length < first + capacity.toNat) :
    buffer (slotOf capacity elements.length) = none := by
  by_cases hend : vacated ∧ elements.length = first
  · rw [hend.2]
    exact hslots.first_empty hend.1
  · rw [hslots.holds elements.length hle hlt (not_and.mp hend)]
    exact List.getElem?_eq_none (Nat.le_refl _)

/-- Filling the slot after the last element adds an element. -/
theorem construct (hk : k < 64) (hcap : capacity.toNat = 2 ^ k)
    (hslots : SlotsHold buffer capacity first vacated elements) (hle : first ≤ elements.length)
    (hlt : elements.length < first + capacity.toNat) (hvacated : vacated → first < elements.length)
    (x : α) :
    SlotsHold (Function.update buffer (slotOf capacity elements.length) (some x)) capacity first
      vacated (elements ++ [x]) where
  first_empty hv := by
    -- fewer elements than slots, so the new one does not share a slot with an old one
    have hne : slotOf capacity first ≠ slotOf capacity elements.length := by
      rw [Ne, slotOf_inj hk hcap (Nat.le_refl _) (by omega) hle hlt]
      exact (hvacated hv).ne
    rw [Function.update_of_ne hne]
    exact hslots.first_empty hv
  holds j hj hj' hv := by
    by_cases hend : j = elements.length
    · subst hend
      rw [Function.update_self, List.getElem?_concat_length]
    · have hne : slotOf capacity j ≠ slotOf capacity elements.length := by
        rwa [Ne, slotOf_inj hk hcap hj hj' hle hlt]
      rw [Function.update_of_ne hne, hslots.holds j hj hj' hv]
      -- an old element keeps its place in the list
      by_cases hlast : j < elements.length
      · rw [List.getElem?_append_left hlast]
      · rw [List.getElem?_eq_none (by omega), List.getElem?_eq_none]
        rw [List.length_append, List.length_singleton]
        omega

/-- Emptying the first slot vacates it. -/
theorem vacate (hk : k < 64) (hcap : capacity.toNat = 2 ^ k)
    (hslots : SlotsHold buffer capacity first False elements) :
    SlotsHold (Function.update buffer (slotOf capacity first) none) capacity first True elements where
  first_empty _ := Function.update_self ..
  holds j hj hj' hv := by
    have hne : slotOf capacity j ≠ slotOf capacity first := by
      rw [Ne, slotOf_inj hk hcap hj hj' (Nat.le_refl _) (by omega)]
      exact hv trivial
    rw [Function.update_of_ne hne]
    exact hslots.holds j hj hj' False.elim

/-- Behind a vacated first slot the window moves on by one count. -/
theorem advance (hk : k < 64) (hcap : capacity.toNat = 2 ^ k)
    (hslots : SlotsHold buffer capacity first True elements)
    (hle : elements.length ≤ first + capacity.toNat) :
    SlotsHold buffer capacity (first + 1) False elements where
  first_empty := False.elim
  holds j hj hj' _ := by
    by_cases hlast : j = first + capacity.toNat
    · -- the count that enters the window takes over the vacated slot
      subst hlast
      rw [slotOf_add_capacity hk hcap, hslots.first_empty trivial, List.getElem?_eq_none hle]
    · exact hslots.holds j (by omega) (by omega) fun _ => by omega

end SlotsHold

end RingIndex
