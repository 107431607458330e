import Mathlib.Algebra.BigOperators.Group.List.Basic
import Mathlib.Algebra.Order.Monoid.Defs
import Mathlib.Data.List.Induction
import Mathlib.Order.Bounds.Basic

/-! # Running sums that never fall below zero

A sum that starts again from zero whenever it would become negative is the greatest of the sums over
the suffixes of what was added.

* **`suffixSums`**: the sums over the suffixes of a list.
* **`clippedSum`**, **`isGreatest_clippedSum`**: the running sum is the greatest of them. -/

namespace ClippedSum

variable {ι α : Type*} [AddCommGroup α] (f : ι → α)

/-! ## (1) The sums over the suffixes -/

/-- The sums of `f` over the suffixes of a list, the empty one included. -/
def suffixSums (xs : List ι) : Set α := {v | ∃ suffix, suffix <:+ xs ∧ v = (suffix.map f).sum}

/-- The only suffix of nothing has the sum zero. -/
theorem suffixSums_nil : suffixSums f [] = {0} := by
  ext v
  constructor
  · rintro ⟨suffix, hsuffix, rfl⟩
    rw [List.suffix_nil.mp hsuffix, List.map_nil, List.sum_nil]
    rfl
  · rintro rfl
    exact ⟨[], List.suffix_rfl, rfl⟩

/-- One more term is added to every sum, and the empty sum is there as before. -/
theorem mem_suffixSums_concat {xs : List ι} {x : ι} {v : α} :
    v ∈ suffixSums f (xs ++ [x]) ↔ v = 0 ∨ ∃ u ∈ suffixSums f xs, v = u + f x := by
  constructor
  · rintro ⟨suffix, hsuffix, rfl⟩
    rcases List.suffix_concat_iff.mp hsuffix with rfl | ⟨front, rfl, hfront⟩
    · exact .inl rfl
    · refine .inr ⟨(front.map f).sum, ⟨front, hfront, rfl⟩, ?_⟩
      rw [List.map_append, List.sum_append, List.map_singleton, List.sum_singleton]
  · rintro (rfl | ⟨_, ⟨front, hfront, rfl⟩, rfl⟩)
    · exact ⟨[], List.nil_suffix, rfl⟩
    · refine ⟨front ++ [x], List.suffix_concat_iff.mpr (.inr ⟨front, rfl, hfront⟩), ?_⟩
      rw [List.map_append, List.sum_append, List.map_singleton, List.sum_singleton]

/-! ## (2) The running sum -/

variable [LinearOrder α]

/-- The running sum of `f`, set to zero whenever it would become negative. -/
def clippedSum (xs : List ι) : α := xs.foldl (fun sum x => max 0 (sum + f x)) 0

/-- The clipped sum starts at zero. -/
@[simp] theorem clippedSum_nil : clippedSum f [] = 0 := rfl

/-- **The recurrence**: add the next value and clip at zero. -/
theorem clippedSum_concat (xs : List ι) (x : ι) :
    clippedSum f (xs ++ [x]) = max 0 (clippedSum f xs + f x) := by
  rw [clippedSum, List.foldl_append]
  rfl

variable [IsOrderedAddMonoid α]

/-- **A clipped sum is the greatest sum over a suffix.** -/
theorem isGreatest_clippedSum (xs : List ι) : IsGreatest (suffixSums f xs) (clippedSum f xs) := by
  induction xs using List.reverseRecOn with
  | nil =>
      rw [suffixSums_nil]
      exact isGreatest_singleton
  | append_singleton xs x ih =>
      rw [clippedSum_concat]
      constructor
      · rw [mem_suffixSums_concat]
        -- the clipped sum is zero, or extends the greatest suffix so far
        rcases le_total (clippedSum f xs + f x) 0 with hle | hge
        · exact .inl (max_eq_left hle)
        · exact .inr ⟨_, ih.1, max_eq_right hge⟩
      · intro v hv
        -- every suffix is empty, or extends one that the bound covers
        rcases (mem_suffixSums_concat f).mp hv with rfl | ⟨u, hu, rfl⟩
        · exact le_max_left _ _
        · exact (add_le_add_left (ih.2 hu) (f x)).trans (le_max_right _ _)

end ClippedSum
