import Mathlib.Data.List.Basic

/-! # Cutting a sequence at a delimiter

What comes before and after the first or the last occurrence of a delimiter, as `find` and `rfind`
with `substr` cut a string.

* **`splitFirst`**, **`splitLast`**: the two parts, none without the delimiter.
* **`splitFirst_append`**, **`splitLast_append`**: a delimiter between parts is found again. -/

namespace Delimiter

variable {α : Type*} [DecidableEq α] {sep : α} {front rest xs : List α}

/-- The parts before and after the first occurrence. -/
def splitFirst (sep : α) : List α → Option (List α × List α)
  | [] => none
  | x :: xs =>
      if x = sep then some ([], xs)
      else (splitFirst sep xs).map fun (front, rest) => (x :: front, rest)

/-- The parts before and after the last occurrence. -/
def splitLast (sep : α) : List α → Option (List α × List α)
  | [] => none
  | x :: xs =>
      match splitLast sep xs with
      | some (front, rest) => some (x :: front, rest)
      | none => if x = sep then some ([], xs) else none

/-- Split at the first separator of a text whose front has none. -/
theorem splitFirst_append (h : sep ∉ front) (rest : List α) :
    splitFirst sep (front ++ sep :: rest) = some (front, rest) := by
  induction front with
  | nil => exact if_pos rfl
  | cons x front ih =>
      obtain ⟨hne, hfront⟩ := List.ne_and_not_mem_of_not_mem_cons h
      rw [List.cons_append, splitFirst, if_neg (Ne.symm hne), ih hfront]
      rfl

/-- Without a separator there is no first one. -/
theorem splitFirst_of_not_mem (h : sep ∉ xs) : splitFirst sep xs = none := by
  induction xs with
  | nil => rfl
  | cons x xs ih =>
      obtain ⟨hne, hxs⟩ := List.ne_and_not_mem_of_not_mem_cons h
      rw [splitFirst, if_neg (Ne.symm hne), ih hxs]
      rfl

/-- Without a separator there is no last one. -/
theorem splitLast_of_not_mem (h : sep ∉ xs) : splitLast sep xs = none := by
  induction xs with
  | nil => rfl
  | cons x xs ih =>
      obtain ⟨hne, hxs⟩ := List.ne_and_not_mem_of_not_mem_cons h
      rw [splitLast, ih hxs]
      exact if_neg (Ne.symm hne)

/-- Split at the last separator of a text whose rest has none. -/
theorem splitLast_append (front : List α) (h : sep ∉ rest) :
    splitLast sep (front ++ sep :: rest) = some (front, rest) := by
  induction front with
  | nil => rw [List.nil_append, splitLast, splitLast_of_not_mem h, if_pos rfl]
  | cons x front ih => rw [List.cons_append, splitLast, ih]

/-- What the first occurrence cuts is the whole. -/
theorem eq_append_of_splitFirst (h : splitFirst sep xs = some (front, rest)) :
    xs = front ++ sep :: rest := by
  induction xs generalizing front with
  | nil => cases h
  | cons x xs ih =>
      rw [splitFirst] at h
      split at h
      · rename_i hsep
        cases h
        rw [hsep, List.nil_append]
      · obtain ⟨⟨front', rest'⟩, hfirst, hpair⟩ := Option.map_eq_some_iff.mp h
        cases hpair
        rw [ih hfirst, List.cons_append]

/-- What the last occurrence cuts is the whole. -/
theorem eq_append_of_splitLast (h : splitLast sep xs = some (front, rest)) :
    xs = front ++ sep :: rest := by
  induction xs generalizing front with
  | nil => cases h
  | cons x xs ih =>
      rw [splitLast] at h
      split at h
      · -- a later separator has been found: the one at hand belongs to the front
        rename_i front' rest' hlast
        cases h
        rw [ih hlast, List.cons_append]
      · split at h
        · -- this is the last separator
          rename_i hsep
          cases h
          rw [hsep, List.nil_append]
        · cases h

end Delimiter
