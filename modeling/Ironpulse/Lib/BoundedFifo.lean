import Ironpulse.Lib.StepMachine

/-! # A bounded first-in first-out queue

The abstract queue that a concurrent one is compared with: an element goes in or comes out at one
instant, and at most `capacity` elements are inside.

* **`BoundedFifo.step`**: the two operations.
* **`inv_of_run`**: what every run of operations keeps. -/

/-- The queue's elements, oldest first, with the history of what went in and what came out. -/
structure BoundedFifo (α : Type) where
  items : List α := []
  pushed : List α := []
  popped : List α := []

namespace BoundedFifo

open StepMachine

variable {α : Type}

/-- An element goes in, or the oldest one comes out. -/
inductive Op (α : Type) where
  | push (x : α)
  | pop

/-- A full queue takes no element and an empty one gives none. -/
def step (capacity : Nat) (q : BoundedFifo α) : Op α → Option (BoundedFifo α)
  | .push x =>
      if q.items.length < capacity then
        some { q with items := q.items ++ [x], pushed := q.pushed ++ [x] }
      else none
  | .pop =>
      match q.items with
      | [] => none
      | x :: rest => some { q with items := rest, popped := q.popped ++ [x] }

/-- What goes in comes out in order, and there is never more than `capacity` in between. -/
def Inv (capacity : Nat) (q : BoundedFifo α) : Prop :=
  q.popped ++ q.items = q.pushed ∧ q.items.length ≤ capacity

/-- An empty queue is within its capacity. -/
theorem inv_empty (capacity : Nat) : Inv capacity ({} : BoundedFifo α) :=
  ⟨rfl, Nat.zero_le capacity⟩

/-- Every operation keeps the queue within its capacity. -/
theorem inv_step {capacity : Nat} {q q' : BoundedFifo α} {op : Op α} (hq : Inv capacity q)
    (h : step capacity q op = some q') : Inv capacity q' := by
  obtain ⟨hpushed, hlength⟩ := hq
  cases op with
  | push x =>
      -- a push needs a free place
      simp only [step, Option.ite_none_right_eq_some, Option.some.injEq] at h
      obtain ⟨hlt, rfl⟩ := h
      refine ⟨?_, ?_⟩
      · rw [← List.append_assoc, hpushed]
      · rw [List.length_append]
        exact hlt
  | pop =>
      cases hitems : q.items with
      | nil => simp only [step, hitems, reduceCtorEq] at h
      -- a pop takes the front
      | cons x rest =>
          simp only [step, hitems, Option.some.injEq] at h
          subst h
          rw [hitems] at hpushed hlength
          refine ⟨?_, ?_⟩
          · rw [List.append_assoc]
            exact hpushed
          · rw [List.length_cons] at hlength
            exact Nat.le_of_succ_le hlength

section Runs

variable {capacity : Nat} {q : BoundedFifo α} {ops : List (Op α)}

/-- **A run from the empty queue keeps the order and the bound.** -/
theorem inv_of_run (h : run (step capacity) {} ops = some q) : Inv capacity q :=
  run_invariant inv_step (inv_empty capacity) h

/-- What came out is a prefix of what went in. -/
theorem popped_prefix (h : run (step capacity) {} ops = some q) : q.popped <+: q.pushed :=
  ⟨q.items, (inv_of_run h).1⟩

/-- Never more than `capacity` elements are inside. -/
theorem length_pushed_le (h : run (step capacity) {} ops = some q) :
    q.pushed.length ≤ q.popped.length + capacity := by
  obtain ⟨hpushed, hlength⟩ := inv_of_run h
  rw [← hpushed, List.length_append]
  exact Nat.add_le_add_left hlength _

end Runs

end BoundedFifo
