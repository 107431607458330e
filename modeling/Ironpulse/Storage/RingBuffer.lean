import Mathlib.Data.List.DropRight
import Mathlib.Data.Nat.ModEq
import Ironpulse.Core.Chrono

/-! # The ring of the newest samples of a series

`RingBuffer` (`include/ironpulse/storage/ring_buffer.hpp`): a fixed number of slots, the next one to
write and the number of samples. The capacity is at least one: `push` divides by it.

* **`RingBuffer.push`, `latest`, `recent`**: the operations.
* **`RingBuffer.Holds`**: the slots hold the newest of the samples pushed so far.
* **`recent_of_holds`**: `recent` returns them, oldest first. -/

namespace Ironpulse.Storage

/-! ## (1) The ring -/

/-- A ring of samples; all slots exist from the start. -/
structure RingBuffer (α : Type) where
  capacity_ : Nat
  data_ : List α
  write_index_ : Nat := 0
  size_ : Nat := 0

/-- A single timestamped sample: its time and the 64 bits of a `double`. -/
abbrev Sample := Core.TimePoint × UInt64

namespace RingBuffer

variable {α : Type}

/-- A new ring. -/
def create [Inhabited α] (capacity : Nat) : RingBuffer α where
  capacity_ := capacity
  data_ := List.replicate capacity default

/-- `push`: the next slot is overwritten. -/
def push (b : RingBuffer α) (sample : α) : RingBuffer α :=
  { b with
    data_ := b.data_.set b.write_index_ sample
    write_index_ := (b.write_index_ + 1) % b.capacity_
    size_ := if b.size_ < b.capacity_ then b.size_ + 1 else b.size_ }

/-- The most recently pushed sample, if any. -/
def latest [Inhabited α] (b : RingBuffer α) : Option α :=
  if b.size_ = 0 then none
  else some (b.data_.getD ((b.write_index_ + b.capacity_ - 1) % b.capacity_) default)

/-- Up to `count` most recent samples, oldest first. -/
def recent [Inhabited α] (b : RingBuffer α) (count : Nat) : List α :=
  let count := min count b.size_
  (List.range count).map fun i =>
    b.data_.getD ((b.write_index_ + b.capacity_ - count + i) % b.capacity_) default

/-- A push keeps the capacity. -/
@[simp] theorem capacity_push (b : RingBuffer α) (sample : α) :
    (b.push sample).capacity_ = b.capacity_ := rfl

/-- Pushes keep the capacity. -/
@[simp] theorem capacity_foldl_push (b : RingBuffer α) (samples : List α) :
    (samples.foldl push b).capacity_ = b.capacity_ := by
  induction samples generalizing b with
  | nil => rfl
  | cons sample samples ih => rw [List.foldl_cons, ih, capacity_push]

/-! ## (2) What it holds -/

/-- The ring after the pushes `pushed`: the newest of them, each in the slot of its number. -/
structure Holds (b : RingBuffer α) (pushed : List α) : Prop where
  capacity_pos : 0 < b.capacity_
  slots : b.data_.length = b.capacity_
  write_index : b.write_index_ = pushed.length % b.capacity_
  size : b.size_ = min pushed.length b.capacity_
  newest : ∀ i (h : i < pushed.length), pushed.length ≤ i + b.capacity_ →
    b.data_[i % b.capacity_]? = some pushed[i]

variable {b : RingBuffer α} {pushed : List α}

/-- A new ring holds nothing. -/
theorem holds_create [Inhabited α] {capacity : Nat} (h : 0 < capacity) :
    (create capacity : RingBuffer α).Holds [] where
  capacity_pos := h
  slots := List.length_replicate
  write_index := (Nat.zero_mod _).symm
  size := (Nat.zero_min _).symm
  newest := fun i hi => absurd hi (Nat.not_lt_zero i)

/-- Two of the newest `capacity` numbers in one slot are the same. -/
theorem eq_of_mod_eq {c i j n : Nat} (hij : i % c = j % c) (hi : i ≤ n) (hi' : n < i + c)
    (hj : j ≤ n) (hj' : n < j + c) : i = j := by
  rcases Nat.lt_trichotomy i j with hlt | heq | hlt
  · have hdvd : c ∣ j - i := (Nat.modEq_iff_dvd' hlt.le).mp hij
    exact absurd (Nat.le_of_dvd (by omega) hdvd) (by omega)
  · exact heq
  · have hdvd : c ∣ i - j := (Nat.modEq_iff_dvd' hlt.le).mp hij.symm
    exact absurd (Nat.le_of_dvd (by omega) hdvd) (by omega)

/-- **One push more.** -/
theorem holds_push (h : b.Holds pushed) (sample : α) :
    (b.push sample).Holds (pushed ++ [sample]) where
  capacity_pos := h.capacity_pos
  slots := (List.length_set ..).trans h.slots
  write_index := by
    rw [push, h.write_index, Nat.mod_add_mod, List.length_append, List.length_singleton]
  size := by
    have hsize := h.size
    rw [push, List.length_append, List.length_singleton]
    dsimp only
    split <;> omega
  newest := by
    intro i hi hnew
    rw [List.length_append, List.length_singleton] at hi hnew
    have hpos := h.capacity_pos
    have hnew' : pushed.length < i + b.capacity_ := hnew
    change (b.data_.set b.write_index_ sample)[i % b.capacity_]? = _
    rw [h.write_index]
    by_cases hlast : i = pushed.length
    · subst hlast
      rw [List.getElem?_set_self (h.slots.symm ▸ Nat.mod_lt _ hpos),
        List.getElem_concat_length rfl]
    · -- an older sample is in another slot than the new one
      have hlt : i < pushed.length := by omega
      have hslot : pushed.length % b.capacity_ ≠ i % b.capacity_ := by
        intro heq
        exact hlast (eq_of_mod_eq heq le_rfl (by omega) hlt.le hnew').symm
      rw [List.getElem?_set_ne hslot, List.getElem_append_left hlt]
      exact h.newest i hlt hnew'.le

/-- After several pushes the ring holds what was pushed. -/
theorem holds_foldl_push (h : b.Holds pushed) (samples : List α) :
    (samples.foldl push b).Holds (pushed ++ samples) := by
  induction samples generalizing b pushed with
  | nil => rwa [List.append_nil]
  | cons sample samples ih =>
      rw [List.foldl_cons, List.append_cons]
      exact ih (holds_push h sample)

/-- The slot of one of the newest samples. -/
theorem getElem?_of_holds [Inhabited α] (h : b.Holds pushed) {count i : Nat} (hcount : count ≤ b.size_)
    (hi : i < count) :
    pushed[pushed.length - count + i]? =
      some (b.data_.getD ((b.write_index_ + b.capacity_ - count + i) % b.capacity_) default) := by
  have hsize := h.size
  have hpos := h.capacity_pos
  -- both count back from the next free slot, modulo the capacity
  have hslot : (b.write_index_ + b.capacity_ - count + i) % b.capacity_ =
      (pushed.length - count + i) % b.capacity_ := by
    rw [h.write_index]
    have hdiv := Nat.mod_add_div pushed.length b.capacity_
    have hmod := Nat.mod_lt pushed.length hpos
    have heq : pushed.length % b.capacity_ + b.capacity_ - count + i +
        b.capacity_ * (pushed.length / b.capacity_) =
          pushed.length - count + i + b.capacity_ * 1 := by omega
    rw [← Nat.add_mul_mod_self_left _ b.capacity_ (pushed.length / b.capacity_), heq,
      Nat.add_mul_mod_self_left]
  rw [hslot, List.getD_eq_getElem?_getD, h.newest _ (by omega) (by omega), Option.getD_some,
    List.getElem?_eq_getElem]

/-- **`recent` returns the newest samples, oldest first.** -/
theorem recent_of_holds [Inhabited α] (h : b.Holds pushed) (count : Nat) :
    b.recent count = pushed.rtake (min count b.capacity_) := by
  have hsize := h.size
  apply List.ext_getElem
  · rw [recent, List.length_map, List.length_range, List.rtake.eq_1, List.length_drop]
    omega
  · intro i hi hi'
    rw [recent, List.length_map, List.length_range] at hi
    have hstart : pushed.length - min count b.size_ =
        pushed.length - min count b.capacity_ := by omega
    simp only [recent, List.rtake.eq_1, List.getElem_map, List.getElem_range, List.getElem_drop]
    have hsome := getElem?_of_holds h (min_le_right count b.size_) hi
    rw [hstart] at hsome
    exact ((List.getElem_eq_iff _).mpr hsome).symm

/-- **`latest` is the last pushed sample.** -/
theorem latest_of_holds [Inhabited α] (h : b.Holds pushed) : b.latest = pushed.getLast? := by
  have hsize := h.size
  have hpos := h.capacity_pos
  unfold latest
  by_cases hnil : pushed = []
  · rw [hnil, List.length_nil, Nat.zero_min] at hsize
    rw [if_pos hsize, hnil, List.getLast?_nil]
  · have hlength : 0 < pushed.length := List.length_pos_of_ne_nil hnil
    have hone := @getElem?_of_holds _ _ _ _ h 1 0 (by omega) Nat.one_pos
    rw [if_neg (by omega), List.getLast?_eq_getElem?]
    exact hone.symm

/-! ## (3) Every run of pushes -/

/-- The index that `latest` reads. -/
def latest_index (b : RingBuffer α) : Nat := (b.write_index_ + b.capacity_ - 1) % b.capacity_

/-- The indices that `recent` reads. -/
def recent_index (b : RingBuffer α) (count i : Nat) : Nat :=
  (b.write_index_ + b.capacity_ - count + i) % b.capacity_

/-- The same in the arithmetic of `std::size_t`. -/
def recent_index_size_t (b : RingBuffer α) (count i : Nat) : UInt64 :=
  (UInt64.ofNat b.write_index_ + UInt64.ofNat b.capacity_ - UInt64.ofNat count + UInt64.ofNat i) %
    UInt64.ofNat b.capacity_

/-- No operation accesses a slot that does not exist. -/
structure InBounds (b : RingBuffer α) : Prop where
  write_index : b.write_index_ < b.data_.length
  latest_index : b.latest_index < b.data_.length
  recent_index : ∀ count i, b.recent_index count i < b.data_.length

/-- A ring that holds what was pushed accesses its own slots only. -/
theorem inBounds_of_holds (h : b.Holds pushed) : b.InBounds where
  write_index := by
    rw [h.slots, h.write_index]
    exact Nat.mod_lt _ h.capacity_pos
  latest_index := h.slots ▸ Nat.mod_lt _ h.capacity_pos
  recent_index := fun _ _ => h.slots ▸ Nat.mod_lt _ h.capacity_pos

/-- No sum wraps around with a capacity that an array can have. -/
theorem toNat_recent_index_size_t (h : b.Holds pushed) (hcapacity : b.capacity_ < 2 ^ 63)
    {count i : Nat} (hcount : count ≤ b.size_) (hi : i < count) :
    (b.recent_index_size_t count i).toNat = b.recent_index count i := by
  have hsize := h.size
  have hwrite : b.write_index_ < b.capacity_ := h.write_index ▸ Nat.mod_lt _ h.capacity_pos
  simp only [recent_index_size_t, recent_index, UInt64.toNat_mod, UInt64.toNat_add,
    UInt64.toNat_sub, UInt64.toNat_ofNat']
  congr 1 <;> omega

/-- The ring after a run of pushes. -/
def filled [Inhabited α] (capacity : Nat) (pushed : List α) : RingBuffer α :=
  pushed.foldl push (create capacity)

/-- **The ring keeps the newest samples**, and no index leaves the array. -/
theorem keeps_newest [Inhabited α] {capacity : Nat} (h : 1 ≤ capacity) (pushed : List α) :
    (∀ count, (filled capacity pushed).recent count =
        pushed.rtake (min count (min capacity pushed.length))) ∧
      (filled capacity pushed).latest = pushed.getLast? ∧
      (filled capacity pushed).size_ = min capacity pushed.length ∧
      (filled capacity pushed).InBounds ∧
      (capacity < 2 ^ 63 → ∀ count ≤ (filled capacity pushed).size_, ∀ i < count,
        ((filled capacity pushed).recent_index_size_t count i).toNat =
          (filled capacity pushed).recent_index count i) := by
  have hholds : (filled capacity pushed).Holds pushed := holds_foldl_push (holds_create h) pushed
  have hcapacity : (filled capacity pushed).capacity_ = capacity := capacity_foldl_push _ _
  refine ⟨fun count => ?_, latest_of_holds hholds, ?_, inBounds_of_holds hholds, ?_⟩
  · rw [recent_of_holds hholds, hcapacity, List.rtake.eq_1, List.rtake.eq_1]
    congr 1
    omega
  · rw [hholds.size, hcapacity, Nat.min_comm]
  · intro hbound count hcount i hi
    exact toNat_recent_index_size_t hholds (by rwa [hcapacity]) hcount hi

/-- Three samples pushed into a ring of two slots. -/
theorem keeps_newest_two_slots :
    (∀ count, (filled 2 [5, 6, 7]).recent count = [5, 6, 7].rtake (min count (min 2 3))) ∧
      (filled 2 [5, 6, 7]).latest = [5, 6, 7].getLast? ∧
      (filled 2 [5, 6, 7]).size_ = min 2 3 ∧ (filled 2 [5, 6, 7]).InBounds ∧
      (2 < 2 ^ 63 → ∀ count ≤ (filled 2 [5, 6, 7]).size_, ∀ i < count,
        ((filled 2 [5, 6, 7]).recent_index_size_t count i).toNat =
          (filled 2 [5, 6, 7]).recent_index count i) :=
  keeps_newest (by decide) [5, 6, 7]

end RingBuffer

end Ironpulse.Storage
