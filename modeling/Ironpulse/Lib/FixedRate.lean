import Mathlib.Algebra.Order.Ring.Int
import Mathlib.Tactic.Ring

/-! # Work at a fixed rate

A worker starts a cycle at each tick. The next tick is one interval after the last one, unless it
has passed by the end of the cycle; then it is one interval after the end.

* **`next`**: the tick after a cycle, from its start and its end.
* **`Timetable`**: every start of a run is the tick after the cycle before.
* **`Timetable.spaced`**, **`.steady`**, **`.recovers`**: no bursts, no drift, bounded delay.
* **`Running`**, **`Waiting`**: a worker within a cycle and between two, as it keeps its tick. -/

namespace FixedRate

/-- The start after a cycle that started at `start` and ended at `stop`. -/
def next (interval start stop : Int) : Int :=
  if start + interval < stop then stop + interval else start + interval

/-- The next start is at least an interval away. -/
theorem add_le_next {interval : Int} (h : 0 ≤ interval) (start stop : Int) :
    start + interval ≤ next interval start stop := by
  unfold next
  split <;> omega

/-- A cycle within its interval is followed by the next tick. -/
theorem next_of_le {interval start stop : Int} (h : stop ≤ start + interval) :
    next interval start stop = start + interval := if_neg (by omega)

/-- After a cycle that overran its interval the next one starts an interval behind its end. -/
theorem next_of_lt {interval start stop : Int} (h : start + interval < stop) :
    next interval start stop = stop + interval := if_pos h

/-- Every start but the first is the tick after the cycle before, which has ended. -/
def Timetable (interval : Int) (starts stops : List Int) : Prop :=
  ∀ k a b, starts[k]? = some a → starts[k + 1]? = some b →
    ∃ e, stops[k]? = some e ∧ b = next interval a e

section Runs

variable {interval : Int} {starts stops : List Int}

/-- At most one start says nothing. -/
theorem timetable_of_length_le (h : starts.length ≤ 1) : Timetable interval starts stops := by
  intro k a b _ hb
  obtain ⟨hlt, -⟩ := List.getElem?_eq_some_iff.mp hb
  omega

/-- The last cycle ends. -/
theorem Timetable.append_stop (h : Timetable interval starts stops) (e : Int) :
    Timetable interval starts (stops ++ [e]) := by
  intro k a b ha hb
  obtain ⟨e', he', hnext⟩ := h k a b ha hb
  have hlt := (List.getElem?_eq_some_iff.mp he').1
  exact ⟨e', by rw [List.getElem?_append_left hlt, he'], hnext⟩

/-- The next cycle starts at its tick. -/
theorem Timetable.append_start (h : Timetable interval starts stops) {a e : Int}
    (hlength : stops.length = starts.length) (ha : starts.getLast? = some a)
    (he : stops.getLast? = some e) :
    Timetable interval (starts ++ [next interval a e]) stops := by
  intro k x y hx hy
  have hlt := (List.getElem?_eq_some_iff.mp hy).1
  rw [List.length_append, List.length_singleton] at hlt
  rw [List.getElem?_append_left (by omega)] at hx
  obtain hbefore | hlast : k + 1 < starts.length ∨ k + 1 = starts.length := by omega
  · rw [List.getElem?_append_left hbefore] at hy
    exact h k x y hx hy
  · -- The last start and the new one.
    rw [hlast, List.getElem?_concat_length, Option.some.injEq] at hy
    rw [List.getLast?_eq_getElem?, ← hlast, Nat.add_sub_cancel, hx, Option.some.injEq] at ha
    rw [List.getLast?_eq_getElem?, hlength, ← hlast, Nat.add_sub_cancel] at he
    exact ⟨e, he, by rw [← hy, ha]⟩

/-- **No bursts**: starts are at least one interval apart. -/
theorem Timetable.spaced (h : Timetable interval starts stops) (hinterval : 0 ≤ interval) {k : Nat}
    {a b : Int} (ha : starts[k]? = some a) (hb : starts[k + 1]? = some b) : a + interval ≤ b := by
  obtain ⟨e, -, rfl⟩ := h k a b ha hb
  exact add_le_next hinterval a e

/-- **No drift**: as long as every cycle ends in time the starts are multiples of the interval after
the first one. -/
theorem Timetable.steady (h : Timetable interval starts stops) {k : Nat} {first b : Int}
    (hfirst : starts[0]? = some first) (hb : starts[k]? = some b)
    (hstops : ∀ j < k, ∀ a e, starts[j]? = some a → stops[j]? = some e → e ≤ a + interval) :
    b = first + k * interval := by
  induction k generalizing b with
  | zero =>
      rw [hfirst, Option.some.injEq] at hb
      simp [hb]
  | succ k ih =>
      have hlt := (List.getElem?_eq_some_iff.mp hb).1
      have hstart : starts[k]? = some starts[k] := List.getElem?_eq_getElem (by omega)
      have hk := ih hstart fun j hj => hstops j (by omega)
      obtain ⟨e, he, rfl⟩ := h k _ b hstart hb
      -- the action ended within the interval, so the next tick is one interval later
      rw [next_of_le (hstops k (by omega) _ e hstart he), hk]
      push_cast
      ring

/-- **Bounded delay**: after a cycle that ended late the next one starts within one interval. -/
theorem Timetable.recovers (h : Timetable interval starts stops) {k : Nat} {a e b : Int}
    (ha : starts[k]? = some a) (he : stops[k]? = some e) (hb : starts[k + 1]? = some b)
    (hlate : a + interval < e) : b ≤ e + interval := by
  obtain ⟨e', he', rfl⟩ := h k a b ha hb
  rw [he, Option.some.injEq] at he'
  rw [← he', next_of_lt hlate]

/-! ## The worker -/

/-- A cycle is on its way; it started at the tick. -/
structure Running (interval tick : Int) (starts stops : List Int) : Prop where
  table : Timetable interval starts stops
  length_eq : starts.length = stops.length + 1
  last : starts.getLast? = some tick

/-- All cycles have ended; the tick is when the next one starts. -/
structure Waiting (interval tick : Int) (starts stops : List Int) : Prop where
  table : Timetable interval starts stops
  length_eq : stops.length = starts.length
  last : ∃ a e, starts.getLast? = some a ∧ stops.getLast? = some e ∧ tick = next interval a e

variable {tick : Int}

/-- The first cycle starts at the first tick. -/
theorem running_first (interval tick : Int) : Running interval tick [tick] [] where
  table := timetable_of_length_le (Nat.le_refl 1)
  length_eq := rfl
  last := rfl

/-- The cycle ends, and the tick moves on. -/
theorem Running.finish (h : Running interval tick starts stops) (e : Int) :
    Waiting interval (next interval tick e) starts (stops ++ [e]) where
  table := h.table.append_stop e
  length_eq := by rw [h.length_eq, List.length_append, List.length_singleton]
  last := ⟨tick, e, h.last, List.getLast?_concat, rfl⟩

/-- The next cycle starts at the tick. -/
theorem Waiting.start (h : Waiting interval tick starts stops) :
    Running interval tick (starts ++ [tick]) stops := by
  obtain ⟨a, e, ha, he, rfl⟩ := h.last
  refine ⟨h.table.append_start h.length_eq ha he, ?_, List.getLast?_concat⟩
  rw [h.length_eq, List.length_append, List.length_singleton]

end Runs

end FixedRate
