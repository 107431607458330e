import Mathlib.Data.List.Perm.Basic

/-! # A bounded queue that drops its oldest element

A new element always goes in. When the queue is full, the element at its front goes out for it.

* **`DropOldest.push`, `DropOldest.take`**: the two operations, with the history of what went in, what
  was taken and what was dropped.
* **`DropOldest.Inv`**: the order is kept, and every element has exactly one fate.
* **`items_foldl_push`**: after many elements the newest ones are inside. -/

/-- The queue's elements, oldest first, and its history. -/
structure DropOldest (α : Type*) where
  items : List α := []
  entered : List α := []
  taken : List α := []
  dropped : List α := []

namespace DropOldest

variable {α : Type*} {capacity : ℕ} {q : DropOldest α} {x : α}

/-- `x` goes in; the front goes out if the queue was full. -/
def push (capacity : ℕ) (q : DropOldest α) (x : α) : DropOldest α :=
  if capacity ≤ q.items.length then
    { q with
      items := q.items.tail ++ [x]
      entered := q.entered ++ [x]
      dropped := q.dropped ++ q.items.take 1 }
  else { q with items := q.items ++ [x], entered := q.entered ++ [x] }

/-- The front is taken. -/
def take (q : DropOldest α) : DropOldest α :=
  { q with items := q.items.tail, taken := q.taken ++ q.items.take 1 }

/-- What is pushed has entered. -/
@[simp] theorem entered_push : (q.push capacity x).entered = q.entered ++ [x] := by
  unfold push
  split <;> rfl

/-- A push takes nothing out. -/
@[simp] theorem taken_push : (q.push capacity x).taken = q.taken := by
  unfold push
  split <;> rfl

/-- A push appends, and a full queue loses its front. -/
theorem items_push : (q.push capacity x).items =
    (if capacity ≤ q.items.length then q.items.tail else q.items) ++ [x] := by
  unfold push
  split <;> rfl

/-! ## (1) Order and fate -/

/-- What was taken and what is still inside is in the order of entering; everything that entered was
taken, was dropped or is still inside; and the bound holds. -/
structure Inv (capacity : ℕ) (q : DropOldest α) : Prop where
  order : (q.taken ++ q.items).Sublist q.entered
  fate : q.entered.Perm (q.taken ++ (q.dropped ++ q.items))
  bounded : q.items.length ≤ capacity

/-- An empty queue meets the invariant. -/
theorem inv_empty (capacity : ℕ) : Inv capacity ({} : DropOldest α) :=
  ⟨List.Sublist.refl _, List.Perm.refl _, Nat.zero_le _⟩

/-- **A push keeps the invariant**: what it drops is the oldest element. -/
theorem Inv.push (h : Inv capacity q) (hpos : 0 < capacity) : Inv capacity (q.push capacity x) := by
  by_cases hfull : capacity ≤ q.items.length
  · rw [DropOldest.push, if_pos hfull]
    refine ⟨?_, ?_, ?_⟩
    · rw [← List.append_assoc]
      refine List.Sublist.append ?_ (List.Sublist.refl _)
      exact ((List.Sublist.refl _).append (List.tail_sublist _)).trans h.order
    · -- the front moves from the inside to the dropped ones
      have hsplit : q.dropped ++ q.items.take 1 ++ (q.items.tail ++ [x]) =
          q.dropped ++ q.items ++ [x] := by
        rw [← List.drop_one, ← List.append_assoc, List.append_assoc q.dropped, List.take_append_drop]
      rw [hsplit, ← List.append_assoc]
      exact h.fate.append_right [x]
    · have hbounded := h.bounded
      rw [List.length_append, List.length_tail, List.length_singleton]
      omega
  · rw [DropOldest.push, if_neg hfull]
    refine ⟨?_, ?_, ?_⟩
    · rw [← List.append_assoc]
      exact h.order.append (List.Sublist.refl _)
    · rw [← List.append_assoc, ← List.append_assoc, List.append_assoc q.taken]
      exact h.fate.append_right [x]
    · rw [List.length_append, List.length_singleton]
      omega

/-- A take keeps the invariant. -/
theorem Inv.take (h : Inv capacity q) : Inv capacity q.take := by
  have hsplit : q.taken ++ q.items.take 1 ++ q.items.tail = q.taken ++ q.items := by
    rw [← List.drop_one, List.append_assoc, List.take_append_drop]
  refine ⟨?_, ?_, ?_⟩
  · rw [DropOldest.take, hsplit]
    exact h.order
  · refine h.fate.trans ?_
    -- the front moves across the dropped ones
    have hitems : q.items.take 1 ++ q.items.tail = q.items := by
      rw [← List.drop_one, List.take_append_drop]
    have hmove : (q.dropped ++ q.items).Perm (q.items.take 1 ++ (q.dropped ++ q.items.tail)) := by
      conv_lhs => rw [← hitems]
      rw [← List.append_assoc, ← List.append_assoc]
      exact List.perm_append_comm.append_right _
    rw [DropOldest.take, List.append_assoc]
    exact hmove.append_left _
  · exact Nat.le_trans (by simp [DropOldest.take]) h.bounded

/-! ## (2) Floods -/

/-- A push never makes the queue longer than its capacity. -/
theorem length_items_push (hpos : 0 < capacity) (h : q.items.length ≤ capacity) :
    (q.push capacity x).items.length ≤ capacity := by
  rw [items_push, List.length_append, List.length_singleton]
  split
  · rw [List.length_tail]
    omega
  · omega

/-- **After many elements the newest ones are inside.** -/
theorem items_foldl_push (hpos : 0 < capacity) (l : List α) (h : q.items.length ≤ capacity) :
    (l.foldl (DropOldest.push capacity) q).items =
      (q.items ++ l).drop (q.items.length + l.length - capacity) := by
  induction l generalizing q with
  | nil =>
      have hzero : q.items.length + 0 - capacity = 0 := by omega
      rw [List.foldl_nil, List.append_nil, List.length_nil, hzero, List.drop_zero]
  | cons x l ih =>
      rw [List.foldl_cons, ih (length_items_push hpos h), items_push]
      by_cases hfull : capacity ≤ q.items.length
      · -- one more element is dropped, the front
        obtain ⟨front, rest, hitems⟩ : ∃ front rest, q.items = front :: rest :=
          List.exists_cons_of_length_pos (by omega)
        rw [if_pos hfull, hitems]
        rw [hitems, List.length_cons] at hfull
        simp only [List.tail_cons, List.length_append, List.length_cons, List.length_nil,
          List.append_assoc, List.cons_append, List.nil_append]
        have hcount : rest.length + 1 + (l.length + 1) - capacity =
            (rest.length + (0 + 1) + l.length - capacity) + 1 := by
          omega
        rw [hcount, List.drop_succ_cons]
      · rw [if_neg hfull, List.append_assoc, List.length_append, List.length_singleton,
          List.length_cons, List.singleton_append]
        congr 1
        omega

end DropOldest
