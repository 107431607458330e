import Mathlib.Data.List.Infix
import Ironpulse.Lib.BoundedFifo
import Ironpulse.Ingest.RingBuffer

/-! # The ring buffer is a bounded queue

Every order of the producer's and the consumer's steps keeps the published indices equal to the
numbers of elements pushed and popped, modulo `2 ^ 64`, and the slots between them equal to the
elements inside. Each side's cached copy of the other's index only lags behind.

* **`RingInv`**: the invariant, and `ringInv_step`: every step keeps it.
* **`refines_boundedFifo`**: every run is a run of the abstract bounded queue.
* **`spsc_refines_fifo`**: order, bound, slot discipline and the meaning of a refusal. -/

namespace Ironpulse.Ingest

open RingIndex StepMachine

namespace SpscRingBuffer

variable {α : Type}

/-! ## (1) The invariant -/

/-- What the producer knows where it is: it owns the tail, and past the check the cached head leaves
room. -/
def ProducerAt (s : SpscRingBuffer α) : Prop :=
  match s.producer with
  | .idle | .returned _ => True
  | .compare _ tail | .reload _ tail | .compareReloaded _ tail => tail = s.tail_
  | .construct _ tail | .publish _ tail =>
      tail = s.tail_ ∧ ¬ s.tail_ - s.head_cached_ ≥ s.capacity_

/-- What the consumer knows where it is: it owns the head, and past the check the cached tail is
ahead. -/
def ConsumerAt (s : SpscRingBuffer α) : Prop :=
  match s.consumer with
  | .idle | .returned _ => True
  | .compare head | .reload head | .compareReloaded head => head = s.head_
  | .moveOut head => head = s.head_ ∧ s.head_ ≠ s.tail_cached_
  | .publish head out =>
      head = s.head_ ∧ s.head_ ≠ s.tail_cached_ ∧ s.pushed[s.popped.length]? = some out

/-- What holds in every state. The window of `capacity_` counts from the head on is where elements
can be; outside the pushed and not yet popped ones its slots are raw. -/
structure RingInv (s : SpscRingBuffer α) : Prop where
  capacity : ∃ k, k < 64 ∧ s.capacity_.toNat = 2 ^ k
  mask : s.mask_ = s.capacity_ - 1
  order : s.popped <+: s.pushed
  room : s.pushed.length ≤ s.popped.length + s.capacity_.toNat
  tail : s.tail_ = UInt64.ofNat s.pushed.length
  head : s.head_ = UInt64.ofNat s.popped.length
  head_cached : ∃ h, h ≤ s.popped.length ∧ s.pushed.length ≤ h + s.capacity_.toNat ∧
    s.head_cached_ = UInt64.ofNat h
  tail_cached : ∃ t, s.popped.length ≤ t ∧ t ≤ s.pushed.length ∧ s.tail_cached_ = UInt64.ofNat t
  slots : SlotsHold s.buffer_ s.capacity_ s.popped.length s.consumer.Vacated
    (s.pushed ++ s.producer.inFlight)
  producer : s.ProducerAt
  consumer : s.ConsumerAt

/-- What the constructor checks and builds. -/
theorem make_eq_ok {capacity : UInt64} {s : SpscRingBuffer α} (h : make capacity = .ok s) :
    (2 ≤ capacity ∧ capacity &&& (capacity - 1) = 0) ∧ s = { capacity_ := capacity } := by
  unfold make at h
  split at h
  · cases h
  · rename_i hcheck
    rw [not_or, not_not, UInt64.not_lt] at hcheck
    cases h
    exact ⟨hcheck, rfl⟩

/-- A new ring is empty and meets the invariant. -/
theorem ringInv_make {capacity : UInt64} {s : SpscRingBuffer α} (h : make capacity = .ok s) :
    RingInv s := by
  obtain ⟨hcheck, rfl⟩ := make_eq_ok h
  exact
    { capacity := isPowerOfTwo_of_and_sub_one hcheck.1 hcheck.2
      mask := rfl
      order := List.prefix_rfl
      room := Nat.zero_le _
      tail := rfl
      head := rfl
      head_cached := ⟨0, Nat.le_refl 0, Nat.zero_le _, rfl⟩
      tail_cached := ⟨0, Nat.le_refl 0, Nat.le_refl 0, rfl⟩
      slots := ⟨False.elim, fun _ _ _ _ => rfl⟩
      producer := trivial
      consumer := trivial }

namespace RingInv

variable {s : SpscRingBuffer α}

/-- No more elements are popped than were pushed. -/
theorem length_popped_le (h : RingInv s) : s.popped.length ≤ s.pushed.length := h.order.length_le

/-- A capacity is a power of two that 64 bits can hold. -/
theorem capacity_le (h : RingInv s) : s.capacity_.toNat ≤ 2 ^ 63 := by
  obtain ⟨k, hk, hcap⟩ := h.capacity
  rw [hcap]
  exact Nat.pow_le_pow_right (by omega) (by omega)

/-- The tail's slot is that of the number of elements pushed. -/
theorem tail_slot (h : RingInv s) : s.tail_ &&& s.mask_ = slotOf s.capacity_ s.pushed.length := by
  rw [h.tail, h.mask, slotOf]

/-- The head's slot is that of the number of elements popped. -/
theorem head_slot (h : RingInv s) : s.head_ &&& s.mask_ = slotOf s.capacity_ s.popped.length := by
  rw [h.head, h.mask, slotOf]

/-- **The producer's check against a count `h` of popped elements.** -/
theorem full_iff (h : RingInv s) {c : Nat} (hc : c ≤ s.popped.length)
    (hroom : s.pushed.length ≤ c + s.capacity_.toNat) :
    s.tail_ - UInt64.ofNat c ≥ s.capacity_ ↔ s.pushed.length = c + s.capacity_.toNat := by
  have hle := h.length_popped_le
  have hcap := h.capacity_le
  rw [ge_iff_le, UInt64.le_iff_toNat_le, h.tail, toNat_ofNat_sub_ofNat (by omega) (by omega)]
  omega

/-- Past its check the producer has room, also by its cached head. -/
theorem room_of_check (h : RingInv s) (hcheck : ¬ s.tail_ - s.head_cached_ ≥ s.capacity_) :
    ∃ c, c ≤ s.popped.length ∧ s.pushed.length + 1 ≤ c + s.capacity_.toNat ∧
      s.head_cached_ = UInt64.ofNat c := by
  obtain ⟨c, hc, hroom, hcached⟩ := h.head_cached
  rw [hcached, h.full_iff hc hroom] at hcheck
  exact ⟨c, hc, by omega, hcached⟩

/-- **A push that passes its check has a free slot**, however old the cached head is. -/
theorem length_pushed_lt (h : RingInv s) (hcheck : ¬ s.tail_ - s.head_cached_ ≥ s.capacity_) :
    s.pushed.length < s.popped.length + s.capacity_.toNat := by
  obtain ⟨c, hc, hroom, -⟩ := h.room_of_check hcheck
  omega

/-- **The consumer's check against a count `t` of pushed elements.** -/
theorem empty_iff (h : RingInv s) {t : Nat} (hle : s.popped.length ≤ t)
    (ht : t ≤ s.pushed.length) : s.head_ = UInt64.ofNat t ↔ s.popped.length = t := by
  have hroom := h.room
  have hcap := h.capacity_le
  rw [h.head, ofNat_eq_ofNat_iff hle (by omega)]

/-- Past its check the consumer has an element, also by its cached tail. -/
theorem element_of_check (h : RingInv s) (hcheck : s.head_ ≠ s.tail_cached_) :
    ∃ t, s.popped.length + 1 ≤ t ∧ t ≤ s.pushed.length ∧ s.tail_cached_ = UInt64.ofNat t := by
  obtain ⟨t, hle, ht, hcached⟩ := h.tail_cached
  rw [hcached, Ne, h.empty_iff hle ht] at hcheck
  exact ⟨t, by omega, ht, hcached⟩

/-- **A pop that passes its check has an element**, however old the cached tail is. -/
theorem length_popped_lt (h : RingInv s) (hcheck : s.head_ ≠ s.tail_cached_) :
    s.popped.length < s.pushed.length := by
  obtain ⟨t, hlt, ht, -⟩ := h.element_of_check hcheck
  omega

/-- What the consumer vacates was pushed. -/
theorem length_popped_lt_of_vacated (h : RingInv s) (hvacated : s.consumer.Vacated) :
    s.popped.length < s.pushed.length := by
  have hat := h.consumer
  cases hpc : s.consumer with
  | publish head out =>
      simp only [ConsumerAt, hpc] at hat
      exact h.length_popped_lt hat.2.1
  | idle | compare | reload | compareReloaded | moveOut | returned =>
      rw [hpc] at hvacated
      exact hvacated.elim

/-- The element under construction fits as well. -/
theorem length_inFlight_le (h : RingInv s) :
    (s.pushed ++ s.producer.inFlight).length ≤ s.popped.length + s.capacity_.toNat := by
  have hat := h.producer
  cases hpc : s.producer with
  | publish item tail =>
      simp only [ProducerAt, hpc] at hat
      rw [List.length_append]
      exact h.length_pushed_lt hat.2
  | idle | compare | reload | compareReloaded | construct | returned =>
      show (s.pushed ++ []).length ≤ _
      rw [List.append_nil]
      exact h.room

/-- **No slot is overwritten before its element was popped**: where the producer constructs, the
slot is raw. -/
theorem buffer_tail_slot (h : RingInv s) {item : α} {tail : UInt64}
    (hpc : s.producer = .construct item tail) : s.buffer_ (tail &&& s.mask_) = none := by
  have hat := h.producer
  simp only [ProducerAt, hpc] at hat
  obtain ⟨rfl, hcheck⟩ := hat
  have hslots := h.slots
  rw [hpc, show (Emplace.construct item s.tail_).inFlight = [] from rfl, List.append_nil] at hslots
  rw [h.tail_slot]
  exact hslots.next_empty h.length_popped_le (h.length_pushed_lt hcheck)

/-- **No raw slot is read**: where the consumer moves out, the slot holds the next element. -/
theorem buffer_head_slot (h : RingInv s) {head : UInt64} (hpc : s.consumer = .moveOut head) :
    s.buffer_ (head &&& s.mask_) = s.pushed[s.popped.length]? ∧
      s.popped.length < s.pushed.length := by
  have hat := h.consumer
  simp only [ConsumerAt, hpc] at hat
  obtain ⟨rfl, hcheck⟩ := hat
  have hlt := h.length_popped_lt hcheck
  have hroom := h.room
  have hslots := h.slots
  rw [hpc] at hslots
  refine ⟨?_, hlt⟩
  rw [h.head_slot, hslots.holds s.popped.length (Nat.le_refl _) (by omega) False.elim,
    List.getElem?_append_left hlt]

/-! ## (2) Every step keeps the invariant -/

variable {t : SpscRingBuffer α}

/-- Starting a push keeps the invariant. -/
theorem startPush (h : RingInv s) {item : α} (hstep : s.startPush item = some t) : RingInv t := by
  have hslots := h.slots
  cases hpc : s.producer with
  | idle | returned _ =>
      simp only [SpscRingBuffer.startPush, hpc, Option.some.injEq] at hstep
      subst hstep
      rw [hpc] at hslots
      exact { h with slots := hslots, producer := rfl }
  | compare | reload | compareReloaded | construct | publish =>
      simp only [SpscRingBuffer.startPush, hpc, reduceCtorEq] at hstep

/-- Starting a pop keeps the invariant. -/
theorem startPop (h : RingInv s) (hstep : s.startPop = some t) : RingInv t := by
  have hslots := h.slots
  cases hpc : s.consumer with
  | idle | returned _ =>
      simp only [SpscRingBuffer.startPop, hpc, Option.some.injEq] at hstep
      subst hstep
      rw [hpc] at hslots
      exact { h with slots := hslots, consumer := rfl }
  | compare | reload | compareReloaded | moveOut | publish =>
      simp only [SpscRingBuffer.startPop, hpc, reduceCtorEq] at hstep

/-- Publishing a new tail keeps what the consumer knows. -/
theorem consumerAt_append (h : RingInv s) (item : α) (tail : UInt64) (pc : Emplace α) :
    ConsumerAt { s with tail_ := tail, pushed := s.pushed ++ [item], producer := pc } := by
  have hat := h.consumer
  unfold ConsumerAt at hat ⊢
  cases hpc : s.consumer with
  | idle | returned _ => trivial
  | compare head | reload head | compareReloaded head | moveOut head =>
      rw [hpc] at hat
      exact hat
  | publish head out =>
      rw [hpc] at hat
      obtain ⟨hhead, hcheck, hout⟩ := hat
      refine ⟨hhead, hcheck, ?_⟩
      exact (List.getElem?_append_left (h.length_popped_lt hcheck)).trans hout

/-- **Every step of a push keeps the invariant**. -/
theorem producerStep (h : RingInv s) (hstep : s.producerStep = some t) : RingInv t := by
  have hat := h.producer
  have hslots := h.slots
  obtain ⟨k, hk, hcap⟩ := h.capacity
  unfold ProducerAt at hat
  unfold SpscRingBuffer.producerStep at hstep
  cases hpc : s.producer with
  | idle | returned _ => simp only [hpc, reduceCtorEq] at hstep
  | compare item tail | compareReloaded item tail =>
      simp only [hpc] at hstep hat hslots
      subst hat
      split at hstep
      · cases hstep
        exact { h with slots := hslots, producer := by first | rfl | trivial }
      · rename_i hcheck
        cases hstep
        exact { h with slots := hslots, producer := ⟨rfl, hcheck⟩ }
  | reload item tail =>
      simp only [hpc, Option.some.injEq] at hstep hat hslots
      subst hstep
      exact { h with
        head_cached := ⟨s.popped.length, Nat.le_refl _, h.room, h.head⟩
        slots := hslots
        producer := hat }
  | construct item tail =>
      -- the check found room, so the slot behind the last element is vacant
      simp only [hpc, Option.some.injEq] at hstep hat hslots
      obtain ⟨rfl, hcheck⟩ := hat
      subst hstep
      rw [h.tail_slot]
      rw [show (Emplace.construct item s.tail_).inFlight = [] from rfl, List.append_nil] at hslots
      exact { h with
        slots := hslots.construct hk hcap h.length_popped_le (h.length_pushed_lt hcheck)
          h.length_popped_lt_of_vacated item
        producer := ⟨rfl, hcheck⟩ }
  | publish item tail =>
      -- the element in flight becomes one of those that the consumer may read
      simp only [hpc, Option.some.injEq] at hstep hat hslots
      obtain ⟨rfl, hcheck⟩ := hat
      obtain ⟨c, hc, hroom, hcached⟩ := h.room_of_check hcheck
      obtain ⟨e, hle, he, htail⟩ := h.tail_cached
      have hlength : (s.pushed ++ [item]).length = s.pushed.length + 1 := by
        rw [List.length_append, List.length_singleton]
      subst hstep
      exact { h with
        order := h.order.trans (List.prefix_append _ _)
        room := by rw [hlength]; exact h.length_pushed_lt hcheck
        tail := by rw [hlength, ← ofNat_add_one, ← h.tail]
        head_cached := ⟨c, hc, by rw [hlength]; exact hroom, hcached⟩
        tail_cached := ⟨e, hle, by rw [hlength]; exact Nat.le_succ_of_le he, htail⟩
        slots := by
          show SlotsHold _ _ _ _ ((s.pushed ++ [item]) ++ [])
          rw [List.append_nil]
          exact hslots
        producer := trivial
        consumer := h.consumerAt_append item _ _ }

/-- **Every step of a pop keeps the invariant**. -/
theorem consumerStep (h : RingInv s) (hstep : s.consumerStep = some t) : RingInv t := by
  have hat := h.consumer
  have hslots := h.slots
  obtain ⟨k, hk, hcap⟩ := h.capacity
  cases hpc : s.consumer with
  | idle | returned _ => simp only [SpscRingBuffer.consumerStep, hpc, reduceCtorEq] at hstep
  | compare head | compareReloaded head =>
      simp only [SpscRingBuffer.consumerStep, ConsumerAt, hpc] at hstep hat hslots
      subst hat
      split at hstep
      · cases hstep
        exact { h with slots := hslots, consumer := by first | rfl | trivial }
      · rename_i hcheck
        cases hstep
        exact { h with slots := hslots, consumer := ⟨rfl, hcheck⟩ }
  | reload head =>
      -- the cached tail is the current one again
      simp only [SpscRingBuffer.consumerStep, ConsumerAt, hpc, Option.some.injEq]
        at hstep hat hslots
      subst hstep
      exact { h with
        tail_cached := ⟨s.pushed.length, h.length_popped_le, Nat.le_refl _, h.tail⟩
        slots := hslots
        consumer := hat }
  | moveOut head =>
      have hslot := h.buffer_head_slot hpc
      simp only [SpscRingBuffer.consumerStep, ConsumerAt, hpc, Option.map_eq_some_iff]
        at hstep hat hslots
      obtain ⟨rfl, hcheck⟩ := hat
      obtain ⟨out, hout, rfl⟩ := hstep
      rw [h.head_slot]
      exact { h with
        slots := hslots.vacate hk hcap
        consumer := ⟨rfl, hcheck, hslot.1.symm.trans hout⟩ }
  | publish head out =>
      simp only [SpscRingBuffer.consumerStep, ConsumerAt, hpc, Option.some.injEq]
        at hstep hat hslots
      obtain ⟨rfl, hcheck, hout⟩ := hat
      subst hstep
      obtain ⟨c, hc, hroom, hcached⟩ := h.head_cached
      obtain ⟨e, hlt, he, htail⟩ := h.element_of_check hcheck
      have hlength : (s.popped ++ [out]).length = s.popped.length + 1 := by
        rw [List.length_append, List.length_singleton]
      -- what is returned is the oldest element that was pushed and not yet popped
      have hnext : s.popped ++ [out] <+: s.pushed := by
        obtain ⟨hlt', hget⟩ := List.getElem?_eq_some_iff.mp hout
        rw [← hget]
        exact List.concat_get_prefix h.order hlt'
      have hroom' : s.pushed.length ≤ s.popped.length + 1 + s.capacity_.toNat :=
        h.room.trans (Nat.add_le_add_right (Nat.le_succ _) _)
      exact { h with
        order := hnext
        room := by rw [hlength]; exact hroom'
        head := by rw [hlength, ← ofNat_add_one, ← h.head]
        head_cached := ⟨c, by rw [hlength]; exact Nat.le_succ_of_le hc, hroom, hcached⟩
        tail_cached := ⟨e, by rw [hlength]; exact hlt, he, htail⟩
        slots := by
          show SlotsHold _ _ (s.popped ++ [out]).length False _
          rw [hlength]
          exact hslots.advance hk hcap h.length_inFlight_le
        consumer := trivial }

end RingInv

/-- Every step of either side keeps the invariant. -/
theorem ringInv_step {s t : SpscRingBuffer α} {e : RingEvent α} (h : RingInv s)
    (hstep : step s e = some t) : RingInv t := by
  cases e with
  | push item => exact h.startPush hstep
  | producer => exact h.producerStep hstep
  | pop => exact h.startPop hstep
  | consumer => exact h.consumerStep hstep

/-! ## (3) What each side does to the other's data and to the history -/

/-- The start of a call changes where the side is, nothing else. -/
theorem startPush_eq_some {s t : SpscRingBuffer α} {item : α}
    (hstep : s.startPush item = some t) : t = { s with producer := .compare item s.tail_ } := by
  unfold startPush at hstep
  split at hstep
  · exact (Option.some.inj hstep).symm
  · exact (Option.some.inj hstep).symm
  · cases hstep

/-- Starting a pop changes the consumer's place only. -/
theorem startPop_eq_some {s t : SpscRingBuffer α} (hstep : s.startPop = some t) :
    t = { s with consumer := .compare s.head_ } := by
  unfold startPop at hstep
  split at hstep
  · exact (Option.some.inj hstep).symm
  · exact (Option.some.inj hstep).symm
  · cases hstep

/-- The producer leaves the consumer's data alone and pushes the element it publishes. -/
theorem producerStep_frame {s t : SpscRingBuffer α} (hstep : s.producerStep = some t) :
    t.capacity_ = s.capacity_ ∧ t.consumer = s.consumer ∧ t.tail_cached_ = s.tail_cached_ ∧
      t.popped = s.popped ∧ t.pushed = s.pushed ++ s.producer.inFlight := by
  unfold producerStep at hstep
  cases hpc : s.producer with
  | idle | returned _ => simp only [hpc, reduceCtorEq] at hstep
  -- only publishing puts the element into the queue
  | compare item tail | compareReloaded item tail =>
      simp only [hpc] at hstep
      split at hstep
      · cases hstep
        exact ⟨rfl, rfl, rfl, rfl, (List.append_nil _).symm⟩
      · cases hstep
        exact ⟨rfl, rfl, rfl, rfl, (List.append_nil _).symm⟩
  | reload item tail | construct item tail =>
      simp only [hpc, Option.some.injEq] at hstep
      subst hstep
      exact ⟨rfl, rfl, rfl, rfl, (List.append_nil _).symm⟩
  | publish item tail =>
      simp only [hpc, Option.some.injEq] at hstep
      subst hstep
      exact ⟨rfl, rfl, rfl, rfl, rfl⟩

/-- The consumer leaves the producer's data alone and pops the element it has taken. -/
theorem consumerStep_frame {s t : SpscRingBuffer α} (hstep : s.consumerStep = some t) :
    t.capacity_ = s.capacity_ ∧ t.producer = s.producer ∧ t.head_cached_ = s.head_cached_ ∧
      t.pushed = s.pushed ∧ t.popped = s.popped ++ s.consumer.taken := by
  unfold consumerStep at hstep
  cases hpc : s.consumer with
  | idle | returned _ => simp only [hpc, reduceCtorEq] at hstep
  -- only publishing takes the element out of the queue
  | compare head | compareReloaded head =>
      simp only [hpc] at hstep
      split at hstep
      · cases hstep
        exact ⟨rfl, rfl, rfl, rfl, (List.append_nil _).symm⟩
      · cases hstep
        exact ⟨rfl, rfl, rfl, rfl, (List.append_nil _).symm⟩
  | reload head =>
      simp only [hpc, Option.some.injEq] at hstep
      subst hstep
      exact ⟨rfl, rfl, rfl, rfl, (List.append_nil _).symm⟩
  | moveOut head =>
      simp only [hpc, Option.map_eq_some_iff] at hstep
      obtain ⟨out, -, rfl⟩ := hstep
      exact ⟨rfl, rfl, rfl, rfl, (List.append_nil _).symm⟩
  | publish head out =>
      simp only [hpc, Option.some.injEq] at hstep
      subst hstep
      exact ⟨rfl, rfl, rfl, rfl, rfl⟩

/-- **What a step of the producer comes to**: the call goes on, or it returns with the element pushed
or refused. -/
theorem producerStep_result {s t : SpscRingBuffer α} (hstep : s.producerStep = some t) :
    ∃ x, s.producer.item? = some x ∧
      ((t.producer.item? = some x ∧ t.pushed = s.pushed) ∨
        (t.producer = .returned true ∧ t.pushed = s.pushed ++ [x]) ∨
        (t.producer = .returned false ∧ t.pushed = s.pushed)) := by
  unfold producerStep at hstep
  cases hpc : s.producer with
  | idle | returned _ => simp only [hpc, reduceCtorEq] at hstep
  | compare item tail =>
      simp only [hpc] at hstep
      -- the check passes or reloads, and the push goes on
      split at hstep <;> cases hstep <;> exact ⟨item, rfl, .inl ⟨rfl, rfl⟩⟩
  | compareReloaded item tail =>
      simp only [hpc] at hstep
      split at hstep
      · -- the reloaded head shows a full queue
        cases hstep
        exact ⟨item, rfl, .inr (.inr ⟨rfl, rfl⟩)⟩
      · cases hstep
        exact ⟨item, rfl, .inl ⟨rfl, rfl⟩⟩
  | reload item tail | construct item tail =>
      simp only [hpc, Option.some.injEq] at hstep
      subst hstep
      exact ⟨item, rfl, .inl ⟨rfl, rfl⟩⟩
  | publish item tail =>
      simp only [hpc, Option.some.injEq] at hstep
      subst hstep
      exact ⟨item, rfl, .inr (.inl ⟨rfl, rfl⟩)⟩

/-- **What a step of the consumer comes to**: the call goes on, or it returns with the next element
or none. -/
theorem consumerStep_result {s t : SpscRingBuffer α} (hstep : s.consumerStep = some t) :
    s.consumer.InCall ∧
      ((t.consumer.InCall ∧ t.popped = s.popped) ∨
        (∃ x, t.consumer = .returned (some x) ∧ t.popped = s.popped ++ [x]) ∨
        (t.consumer = .returned none ∧ t.popped = s.popped)) := by
  unfold consumerStep at hstep
  cases hpc : s.consumer with
  | idle | returned _ => simp only [hpc, reduceCtorEq] at hstep
  | compare head =>
      simp only [hpc] at hstep
      split at hstep <;> cases hstep <;> exact ⟨trivial, .inl ⟨trivial, rfl⟩⟩
  | compareReloaded head =>
      simp only [hpc] at hstep
      -- the reloaded tail shows an empty queue
      split at hstep
      · cases hstep
        exact ⟨trivial, .inr (.inr ⟨rfl, rfl⟩)⟩
      · cases hstep
        exact ⟨trivial, .inl ⟨trivial, rfl⟩⟩
  | reload head =>
      simp only [hpc, Option.some.injEq] at hstep
      subst hstep
      exact ⟨trivial, .inl ⟨trivial, rfl⟩⟩
  | moveOut head =>
      simp only [hpc, Option.map_eq_some_iff] at hstep
      obtain ⟨out, -, rfl⟩ := hstep
      exact ⟨trivial, .inl ⟨trivial, rfl⟩⟩
  | publish head out =>
      simp only [hpc, Option.some.injEq] at hstep
      subst hstep
      exact ⟨trivial, .inr (.inl ⟨out, rfl, rfl⟩)⟩

/-- The capacity never changes. -/
theorem capacity_step {s t : SpscRingBuffer α} {e : RingEvent α} (hstep : step s e = some t) :
    t.capacity_ = s.capacity_ := by
  cases e with
  | push item => rw [startPush_eq_some hstep]
  | producer => exact (producerStep_frame hstep).1
  | pop => rw [startPop_eq_some hstep]
  | consumer => exact (consumerStep_frame hstep).1

/-! ## (4) The abstract queue -/

/-- The abstract queue of a state: what is pushed and not popped. -/
def toFifo (s : SpscRingBuffer α) : BoundedFifo α :=
  { items := s.queued, pushed := s.pushed, popped := s.popped }

/-- The queue that a ring stands for depends on what was pushed and popped only. -/
theorem toFifo_congr {s t : SpscRingBuffer α} (hpushed : t.pushed = s.pushed)
    (hpopped : t.popped = s.popped) : t.toFifo = s.toFifo := by
  rw [toFifo, toFifo, queued, queued, hpushed, hpopped]

/-- What a step does to the abstract queue. -/
def fifoOps (s : SpscRingBuffer α) : RingEvent α → List (BoundedFifo.Op α)
  | .producer => s.producer.inFlight.map .push
  | .consumer => s.consumer.taken.map fun _ => .pop
  | _ => []

/-- An element goes in when the producer publishes the new tail. -/
theorem RingInv.fifo_push {s t : SpscRingBuffer α} (h : RingInv s) {item : α} {tail : UInt64}
    (hpc : s.producer = .publish item tail) (hstep : s.producerStep = some t) :
    BoundedFifo.step s.capacity_.toNat s.toFifo (.push item) = some t.toFifo := by
  have hat := h.producer
  simp only [ProducerAt, hpc] at hat
  -- the publishing store adds one item behind those of the queue, which had room
  obtain ⟨-, -, -, hpopped, hpushed⟩ := producerStep_frame hstep
  have hlt := h.length_pushed_lt hat.2
  have hle := h.length_popped_le
  have hroom : s.toFifo.items.length < s.capacity_.toNat := by
    show (s.pushed.drop s.popped.length).length < _
    rw [List.length_drop]
    omega
  rw [hpc] at hpushed
  rw [BoundedFifo.step, if_pos hroom, toFifo, toFifo, queued, queued, hpopped, hpushed,
    List.drop_append_of_le_length hle]
  rfl

/-- The oldest element comes out when the consumer publishes the new head. -/
theorem RingInv.fifo_pop {s t : SpscRingBuffer α} (h : RingInv s) {head : UInt64} {out : α}
    (hpc : s.consumer = .publish head out) (hstep : s.consumerStep = some t) :
    BoundedFifo.step s.capacity_.toNat s.toFifo .pop = some t.toFifo := by
  have hat := h.consumer
  simp only [ConsumerAt, hpc] at hat
  obtain ⟨-, -, hout⟩ := hat
  obtain ⟨-, -, -, hpushed, hpopped⟩ := consumerStep_frame hstep
  obtain ⟨hlt, hget⟩ := List.getElem?_eq_some_iff.mp hout
  -- the element that is moved out is the oldest one in the queue
  have hitems : s.toFifo.items = out :: s.pushed.drop (s.popped.length + 1) := by
    show s.pushed.drop s.popped.length = _
    rw [List.drop_eq_getElem_cons hlt, hget]
  rw [hpc] at hpopped
  have htaken : (Pop.publish head out).taken = [out] := rfl
  have hlength : (s.popped ++ [out]).length = s.popped.length + 1 := by
    rw [List.length_append, List.length_singleton]
  have hfifo : t.toFifo = { s.toFifo with
      items := s.pushed.drop (s.popped.length + 1), popped := s.popped ++ [out] } := by
    rw [toFifo, queued, hpopped, hpushed, htaken, hlength]
    rfl
  rw [BoundedFifo.step, hitems, hfifo]
  rfl

/-- **Every step is what its operations do to the abstract queue.** -/
theorem RingInv.fifo_step {s t : SpscRingBuffer α} {e : RingEvent α} (h : RingInv s)
    (hstep : step s e = some t) :
    run (BoundedFifo.step s.capacity_.toNat) s.toFifo (s.fifoOps e) = some t.toFifo := by
  cases e with
  | push item =>
      rw [startPush_eq_some hstep]
      rfl
  | pop =>
      rw [startPop_eq_some hstep]
      rfl
  | producer =>
      obtain ⟨-, -, -, hpopped, hpushed⟩ := producerStep_frame hstep
      cases hpc : s.producer with
      -- the only step of the producer that the other side can see
      | publish item tail =>
          rw [fifoOps, hpc]
          exact (run_cons_eq_some _).mpr ⟨_, h.fifo_push hpc hstep, rfl⟩
      | idle | compare | reload | compareReloaded | construct | returned =>
          rw [hpc] at hpushed
          rw [fifoOps, hpc, toFifo_congr (hpushed.trans (List.append_nil _)) hpopped]
          rfl
  | consumer =>
      obtain ⟨-, -, -, hpushed, hpopped⟩ := consumerStep_frame hstep
      cases hpc : s.consumer with
      | publish head out =>
          rw [fifoOps, hpc]
          exact (run_cons_eq_some _).mpr ⟨_, h.fifo_pop hpc hstep, rfl⟩
      | idle | compare | reload | compareReloaded | moveOut | returned =>
          rw [hpc] at hpopped
          rw [fifoOps, hpc, toFifo_congr hpushed (hpopped.trans (List.append_nil _))]
          rfl

/-- **Every run is a run of the abstract bounded queue.** -/
theorem refines_boundedFifo {capacity : UInt64} {s₀ s : SpscRingBuffer α}
    (hmake : make capacity = .ok s₀) {es : List (RingEvent α)} (hrun : run step s₀ es = some s) :
    ∃ ops, run (BoundedFifo.step capacity.toNat) {} ops = some s.toFifo := by
  have hs₀ : s₀.capacity_ = capacity ∧ s₀.toFifo = {} := by
    obtain ⟨-, rfl⟩ := make_eq_ok hmake
    exact ⟨rfl, rfl⟩
  -- the abstract queue is a function of the state, and the invariant makes each step possible there
  let R : SpscRingBuffer α → BoundedFifo α → Prop :=
    fun s q => RingInv s ∧ s.capacity_ = capacity ∧ q = s.toFifo
  have hsim : ∀ {s : SpscRingBuffer α} {e t q}, R s q → step s e = some t →
      ∃ ops q', run (BoundedFifo.step capacity.toNat) q ops = some q' ∧ R t q' := by
    rintro s e t q ⟨hinv, hcap, rfl⟩ hstep
    refine ⟨s.fifoOps e, t.toFifo, ?_, ringInv_step hinv hstep, ?_, rfl⟩
    · rw [← hcap]
      exact hinv.fifo_step hstep
    · rw [capacity_step hstep, hcap]
  have hstart : R s₀ {} := ⟨ringInv_make hmake, hs₀.1, hs₀.2.symm⟩
  obtain ⟨ops, q, hops, -, -, rfl⟩ := run_simulation hsim hstart hrun
  exact ⟨ops, hops⟩

/-! ## (5) What a refusal means -/

/-- As many elements are inside as fit. -/
def Full (s : SpscRingBuffer α) : Prop := s.pushed.length = s.popped.length + s.capacity_.toNat

/-- No element is inside. -/
def Empty (s : SpscRingBuffer α) : Prop := s.pushed.length = s.popped.length

/-- The producer's next step refuses the element. -/
def RefusesPush (s : SpscRingBuffer α) : Prop :=
  ∃ item tail, s.producer = .compareReloaded item tail ∧ tail - s.head_cached_ ≥ s.capacity_

/-- The consumer's next step reports an empty buffer. -/
def RefusesPop (s : SpscRingBuffer α) : Prop :=
  ∃ head, s.consumer = .compareReloaded head ∧ head = s.tail_cached_

/-- A push about to fail is inside its call. -/
theorem RefusesPush.inCall {s : SpscRingBuffer α} (h : RefusesPush s) : s.producer.InCall := by
  obtain ⟨item, tail, hpc, -⟩ := h
  rw [hpc]
  trivial

/-- A pop about to fail is inside its call. -/
theorem RefusesPop.inCall {s : SpscRingBuffer α} (h : RefusesPop s) : s.consumer.InCall := by
  obtain ⟨head, hpc, -⟩ := h
  rw [hpc]
  trivial

/-- `emplace` returns false only from a refusal. -/
theorem refusesPush_of_returned {s t : SpscRingBuffer α} (hstep : s.producerStep = some t)
    (ht : t.producer = .returned false) : RefusesPush s := by
  unfold producerStep at hstep
  cases hpc : s.producer with
  | compareReloaded item tail =>
      simp only [hpc] at hstep
      split at hstep
      · rename_i hfull
        exact ⟨item, tail, hpc, hfull⟩
      · cases hstep
        cases ht
  | compare item tail =>
      simp only [hpc] at hstep
      split at hstep <;> cases hstep <;> cases ht
  | idle | returned => simp only [hpc, reduceCtorEq] at hstep
  | reload | construct | publish =>
      simp only [hpc, Option.some.injEq] at hstep
      subst hstep
      cases ht

/-- `pop` returns false only from a refusal. -/
theorem refusesPop_of_returned {s t : SpscRingBuffer α} (hstep : s.consumerStep = some t)
    (ht : t.consumer = .returned none) : RefusesPop s := by
  unfold consumerStep at hstep
  cases hpc : s.consumer with
  | compareReloaded head =>
      simp only [hpc] at hstep
      -- only the second check can fail the pop
      split at hstep
      · rename_i hempty
        exact ⟨head, hpc, hempty⟩
      · cases hstep
        cases ht
  | compare head =>
      simp only [hpc] at hstep
      split at hstep <;> cases hstep <;> cases ht
  | moveOut head =>
      simp only [hpc, Option.map_eq_some_iff] at hstep
      obtain ⟨out, -, rfl⟩ := hstep
      cases ht
  | idle | returned => simp only [hpc, reduceCtorEq] at hstep
  | reload | publish =>
      simp only [hpc, Option.some.injEq] at hstep
      subst hstep
      cases ht

/-- **The step that leads to a refused push sees a full buffer**: it reloads the published head. -/
theorem full_of_refusesPush {s t : SpscRingBuffer α} {e : RingEvent α} (h : RingInv s)
    (hstep : step s e = some t) (ht : RefusesPush t) : RefusesPush s ∨ Full t := by
  obtain ⟨item, tail, hpc, hfull⟩ := ht
  cases e with
  | push item' =>
      rw [startPush_eq_some hstep] at hpc
      cases hpc
  | pop =>
      rw [startPop_eq_some hstep] at hpc hfull
      exact .inl ⟨item, tail, hpc, hfull⟩
  | consumer =>
      -- the consumer writes neither the producer's place nor its cached head
      obtain ⟨hcap, hproducer, hcached, -, -⟩ := consumerStep_frame hstep
      rw [hproducer] at hpc
      rw [hcached, hcap] at hfull
      exact .inl ⟨item, tail, hpc, hfull⟩
  | producer =>
      have hat := h.producer
      have hstep' : s.producerStep = some t := hstep
      -- only the reload leads to the second comparison
      cases hs : s.producer with
      | reload item' tail' =>
          simp only [ProducerAt, producerStep, hs, Option.some.injEq] at hat hstep'
          subst hstep' hat
          cases hpc
          -- the cached head is the published one now
          exact .inr ((h.full_iff (Nat.le_refl _) h.room).mp (h.head ▸ hfull))
      | compare item' tail' | compareReloaded item' tail' =>
          simp only [producerStep, hs] at hstep'
          split at hstep' <;> cases hstep' <;> cases hpc
      | idle | returned | construct | publish =>
          simp only [producerStep, hs, reduceCtorEq, Option.some.injEq] at hstep'
          try subst hstep'
          try cases hpc

/-- **The step that leads to a refused pop sees an empty buffer**: it reloads the published tail. -/
theorem empty_of_refusesPop {s t : SpscRingBuffer α} {e : RingEvent α} (h : RingInv s)
    (hstep : step s e = some t) (ht : RefusesPop t) : RefusesPop s ∨ Empty t := by
  obtain ⟨head, hpc, hempty⟩ := ht
  cases e with
  | push item =>
      rw [startPush_eq_some hstep] at hpc hempty
      exact .inl ⟨head, hpc, hempty⟩
  | pop =>
      rw [startPop_eq_some hstep] at hpc
      cases hpc
  | producer =>
      obtain ⟨-, hconsumer, hcached, -, -⟩ := producerStep_frame hstep
      rw [hconsumer] at hpc
      rw [hcached] at hempty
      exact .inl ⟨head, hpc, hempty⟩
  | consumer =>
      have hat := h.consumer
      have hstep' : s.consumerStep = some t := hstep
      cases hs : s.consumer with
      | reload head' =>
          simp only [ConsumerAt, consumerStep, hs, Option.some.injEq] at hat hstep'
          subst hstep' hat
          cases hpc
          -- the cached tail is the published one now
          have heq : s.head_ = UInt64.ofNat s.pushed.length := h.tail ▸ hempty
          exact .inr ((h.empty_iff h.length_popped_le (Nat.le_refl _)).mp heq).symm
      | compare head' | compareReloaded head' =>
          simp only [consumerStep, hs] at hstep'
          split at hstep' <;> cases hstep' <;> cases hpc
      | moveOut head' =>
          simp only [consumerStep, hs, Option.map_eq_some_iff] at hstep'
          obtain ⟨out, -, rfl⟩ := hstep'
          cases hpc
      | idle | returned | publish =>
          simp only [consumerStep, hs, reduceCtorEq, Option.some.injEq] at hstep'
          try subst hstep'
          try cases hpc

section Refusals

variable {s₀ s t : SpscRingBuffer α} {es : List (RingEvent α)}

/-- **A push fails only if the buffer was full at some moment during the call.** -/
theorem full_during_refused_push (hinv : RingInv s₀) (hidle : s₀.producer = .idle)
    (hrun : run step s₀ es = some s) (hstep : s.producerStep = some t)
    (ht : t.producer = .returned false) :
    ∃ fs gs u, es = fs ++ gs ∧ run step s₀ fs = some u ∧ Full u ∧
      AlongRun step (fun v => v.producer.InCall) u gs := by
  have hstart : ¬ RefusesPush s₀ := by
    rintro ⟨item, tail, hpc, -⟩
    cases hidle.symm.trans hpc
  -- the refusal began at some step of this run, and at that step the buffer was full
  obtain ⟨fs, gs, u, hes, hu, hfull, halong⟩ := exists_since ringInv_step full_of_refusesPush es
    hinv hstart hrun (refusesPush_of_returned hstep ht)
  exact ⟨fs, gs, u, hes, hu, hfull, halong.mono RefusesPush.inCall⟩

/-- **A pop fails only if the buffer was empty at some moment during the call.** -/
theorem empty_during_refused_pop (hinv : RingInv s₀) (hidle : s₀.consumer = .idle)
    (hrun : run step s₀ es = some s) (hstep : s.consumerStep = some t)
    (ht : t.consumer = .returned none) :
    ∃ fs gs u, es = fs ++ gs ∧ run step s₀ fs = some u ∧ Empty u ∧
      AlongRun step (fun v => v.consumer.InCall) u gs := by
  have hstart : ¬ RefusesPop s₀ := by
    rintro ⟨head, hpc, -⟩
    cases hidle.symm.trans hpc
  obtain ⟨fs, gs, u, hes, hu, hempty, halong⟩ := exists_since ringInv_step empty_of_refusesPop es
    hinv hstart hrun (refusesPop_of_returned hstep ht)
  exact ⟨fs, gs, u, hes, hu, hempty, halong.mono RefusesPop.inCall⟩

end Refusals

/-! ## (6) No side gets stuck -/

/-- The consumer can always go on inside a call: what it moves out was constructed. -/
theorem RingInv.exists_consumerStep {s : SpscRingBuffer α} (h : RingInv s)
    (hcall : s.consumer.InCall) : ∃ t, s.consumerStep = some t := by
  unfold SpscRingBuffer.consumerStep
  cases hpc : s.consumer with
  | idle | returned _ =>
      rw [hpc] at hcall
      exact hcall.elim
  | compare head | compareReloaded head =>
      dsimp only
      split
      · exact ⟨_, rfl⟩
      · exact ⟨_, rfl⟩
  | reload head | publish head out => exact ⟨_, rfl⟩
  | moveOut head =>
      -- a raw slot would block the step here
      obtain ⟨hslot, hlt⟩ := h.buffer_head_slot hpc
      dsimp only
      rw [hslot, List.getElem?_eq_getElem hlt]
      exact ⟨_, rfl⟩

/-- Outside a call the consumer can start a pop. -/
theorem exists_startPop {s : SpscRingBuffer α} (hcall : ¬ s.consumer.InCall) :
    ∃ t, s.startPop = some t := by
  unfold startPop
  cases hpc : s.consumer with
  | idle | returned _ => exact ⟨_, rfl⟩
  | compare | reload | compareReloaded | moveOut | publish =>
      rw [hpc] at hcall
      exact absurd trivial hcall

/-- Outside a call the producer can start a push. -/
theorem exists_startPush {s : SpscRingBuffer α} (hcall : ¬ s.producer.InCall) (item : α) :
    ∃ t, s.startPush item = some t := by
  unfold startPush
  cases hpc : s.producer with
  | idle | returned _ => exact ⟨_, rfl⟩
  | compare | reload | compareReloaded | construct | publish =>
      rw [hpc] at hcall
      exact absurd trivial hcall

/-! ## (7) A call that runs alone -/

/-- The producer's next steps alone push the item. -/
def PushesAlone (s : SpscRingBuffer α) (item : α) : Prop :=
  ∃ n t, run step s (.replicate n .producer) = some t ∧ t.producer = .returned true ∧
    t.pushed = s.pushed ++ [item] ∧ t.popped = s.popped ∧ t.consumer = s.consumer

/-- The consumer's next steps alone pop an element. -/
def PopsAlone (s : SpscRingBuffer α) : Prop :=
  ∃ n t x, run step s (.replicate n .consumer) = some t ∧ t.consumer = .returned (some x) ∧
    t.popped = s.popped ++ [x] ∧ t.pushed = s.pushed ∧ t.producer = s.producer

/-- A push that ends alone after its next step ends alone before it. -/
theorem PushesAlone.of_step {s t : SpscRingBuffer α} {item : α}
    (hstep : s.producerStep = some t) (hflight : s.producer.inFlight = [])
    (h : PushesAlone t item) : PushesAlone s item := by
  obtain ⟨-, hconsumer, -, hpopped, hpushed⟩ := producerStep_frame hstep
  rw [hflight, List.append_nil] at hpushed
  obtain ⟨n, u, hrun, hret, hpushed', hpopped', hconsumer'⟩ := h
  refine ⟨n + 1, u, (run_cons_eq_some step).mpr ⟨t, hstep, hrun⟩, hret, ?_, ?_, ?_⟩
  · rw [hpushed', hpushed]
  · rw [hpopped', hpopped]
  · rw [hconsumer', hconsumer]

/-- A pop that ends alone after its next step ends alone before it. -/
theorem PopsAlone.of_step {s t : SpscRingBuffer α} (hstep : s.consumerStep = some t)
    (htaken : s.consumer.taken = []) (h : PopsAlone t) : PopsAlone s := by
  obtain ⟨-, hproducer, -, hpushed, hpopped⟩ := consumerStep_frame hstep
  rw [htaken, List.append_nil] at hpopped
  obtain ⟨n, u, x, hrun, hret, hpopped', hpushed', hproducer'⟩ := h
  refine ⟨n + 1, u, x, (run_cons_eq_some step).mpr ⟨t, hstep, hrun⟩, hret, ?_, ?_, ?_⟩
  · rw [hpopped', hpopped]
  · rw [hpushed', hpushed]
  · rw [hproducer', hproducer]

/-- Past its check the producer constructs and publishes. -/
theorem pushesAlone_of_construct {s : SpscRingBuffer α} {item : α} {tail : UInt64}
    (hpc : s.producer = .construct item tail) : PushesAlone s item := by
  refine PushesAlone.of_step (t := { s with
    buffer_ := Function.update s.buffer_ (tail &&& s.mask_) (some item)
    producer := .publish item tail }) ?_ (by rw [hpc]; rfl) ?_
  · rw [producerStep, hpc]
  · exact ⟨1, _, rfl, rfl, rfl, rfl, rfl⟩

/-- Past its check the consumer moves out and publishes. -/
theorem RingInv.popsAlone_of_moveOut {s : SpscRingBuffer α} (h : RingInv s) {head : UInt64}
    (hpc : s.consumer = .moveOut head) : PopsAlone s := by
  obtain ⟨hslot, hlt⟩ := h.buffer_head_slot hpc
  rw [List.getElem?_eq_getElem hlt] at hslot
  refine PopsAlone.of_step (t := { s with
    buffer_ := Function.update s.buffer_ (head &&& s.mask_) none
    consumer := .publish head s.pushed[s.popped.length] }) ?_ (by rw [hpc]; rfl) ?_
  · rw [SpscRingBuffer.consumerStep, hpc]
    dsimp only
    rw [hslot]
    rfl
  · exact ⟨1, _, _, rfl, rfl, rfl, rfl, rfl⟩

/-- **A push that runs alone into a buffer with room succeeds.** -/
theorem RingInv.pushesAlone {s t : SpscRingBuffer α} (h : RingInv s) (hroom : ¬ Full s) {item : α}
    (hstart : s.startPush item = some t) : PushesAlone t item := by
  rw [startPush_eq_some hstart]
  by_cases hcached : s.tail_ - s.head_cached_ ≥ s.capacity_
  · -- the cached head leaves no room, the published one does
    have hcheck : ¬ s.tail_ - s.head_ ≥ s.capacity_ := by
      rw [h.head, h.full_iff (Nat.le_refl _) h.room]
      exact hroom
    refine PushesAlone.of_step (if_pos hcached) rfl ?_
    refine PushesAlone.of_step rfl rfl ?_
    refine PushesAlone.of_step (if_neg hcheck) rfl ?_
    exact pushesAlone_of_construct rfl
  · refine PushesAlone.of_step (if_neg hcached) rfl ?_
    exact pushesAlone_of_construct rfl

/-- **A pop that runs alone from a buffer with an element succeeds.** -/
theorem RingInv.popsAlone {s t : SpscRingBuffer α} (h : RingInv s) (hne : ¬ Empty s)
    (hstart : s.startPop = some t) : PopsAlone t := by
  have ht := h.startPop hstart
  rw [startPop_eq_some hstart] at ht ⊢
  by_cases hcached : s.head_ = s.tail_cached_
  · -- by the cached tail the buffer is empty, by the published one it is not
    have hcheck : s.head_ ≠ s.tail_ := by
      rw [h.tail, Ne, h.empty_iff h.length_popped_le (Nat.le_refl _)]
      exact Ne.symm hne
    have h₁ := ht.consumerStep (if_pos hcached)
    have h₂ := h₁.consumerStep rfl
    refine PopsAlone.of_step (if_pos hcached) rfl ?_
    refine PopsAlone.of_step rfl rfl ?_
    refine PopsAlone.of_step (if_neg hcheck) rfl ?_
    exact (h₂.consumerStep (if_neg hcheck)).popsAlone_of_moveOut rfl
  · refine PopsAlone.of_step (if_neg hcached) rfl ?_
    exact (ht.consumerStep (if_neg hcached)).popsAlone_of_moveOut rfl

/-! ## (8) The buffer refines a bounded queue -/

/-- **`SpscRingBuffer` is a bounded first-in first-out queue.** For every accepted capacity and
every order of the two sides' steps: the run is one of the abstract queue; what was popped is a
prefix of what was pushed; never more than `capacity` elements are inside; the producer constructs
only in raw slots and the consumer moves out only of constructed ones; and a call fails only if the
buffer was full, or empty, at some moment during that call. -/
theorem spsc_refines_fifo {capacity : UInt64} {s₀ s : SpscRingBuffer α}
    (hmake : make capacity = .ok s₀) {es : List (RingEvent α)} (hrun : run step s₀ es = some s) :
    (∃ ops, run (BoundedFifo.step capacity.toNat) {} ops = some s.toFifo) ∧
      s.popped <+: s.pushed ∧
      s.pushed.length ≤ s.popped.length + capacity.toNat ∧
      (∀ item tail, s.producer = .construct item tail → s.buffer_ (tail &&& s.mask_) = none) ∧
      (∀ head, s.consumer = .moveOut head → (s.buffer_ (head &&& s.mask_)).isSome) ∧
      (∀ t, s.producerStep = some t → t.producer = .returned false →
        ∃ fs gs u, es = fs ++ gs ∧ run step s₀ fs = some u ∧ Full u ∧
          AlongRun step (fun v => v.producer.InCall) u gs) ∧
      (∀ t, s.consumerStep = some t → t.consumer = .returned none →
        ∃ fs gs u, es = fs ++ gs ∧ run step s₀ fs = some u ∧ Empty u ∧
          -- the invariant gives the slots, the refinement the order, the histories the failures
          AlongRun step (fun v => v.consumer.InCall) u gs) := by
  have hinv₀ := ringInv_make hmake
  have hidle : s₀.producer = .idle ∧ s₀.consumer = .idle := by
    obtain ⟨-, rfl⟩ := make_eq_ok hmake
    exact ⟨rfl, rfl⟩
  have hinv : RingInv s := run_invariant ringInv_step hinv₀ hrun
  obtain ⟨ops, hops⟩ := refines_boundedFifo hmake hrun
  refine ⟨⟨ops, hops⟩, BoundedFifo.popped_prefix hops, BoundedFifo.length_pushed_le hops, ?_, ?_,
    ?_, ?_⟩
  · intro item tail hpc
    exact hinv.buffer_tail_slot hpc
  · intro head hpc
    obtain ⟨hslot, hlt⟩ := hinv.buffer_head_slot hpc
    rw [hslot, List.getElem?_eq_getElem hlt]
    rfl
  · intro t hstep ht
    exact full_during_refused_push hinv₀ hidle.1 hrun hstep ht
  · intro t hstep ht
    exact empty_during_refused_pop hinv₀ hidle.2 hrun hstep ht

/-- Two pushes and a pop whose steps alternate, in a buffer of two slots. -/
def alternatingRun : List (RingEvent Nat) :=
  [.push 7, .pop, .producer, .consumer, .producer, .producer, .consumer, .consumer, .push 8,
    .consumer, .producer, .consumer, .producer, .producer]

/-- After that run the first element has come out and the second one is inside. -/
theorem popped_prefix_alternatingRun :
    ∃ s₀ s : SpscRingBuffer Nat, make 2 = .ok s₀ ∧ run step s₀ alternatingRun = some s ∧
      s.popped = [7] ∧ s.queued = [8] ∧ s.popped <+: s.pushed :=
  ⟨_, _, rfl, rfl, rfl, rfl, (@spsc_refines_fifo Nat 2 _ _ rfl alternatingRun rfl).2.1⟩

end SpscRingBuffer

end Ironpulse.Ingest
