import Mathlib.Logic.Function.Basic
import Ironpulse.Lib.RingIndex

/-! # The single-producer single-consumer ring buffer

`SpscRingBuffer` (`include/ironpulse/ingest/ring_buffer.hpp`): one thread calls `emplace`, one other
thread calls `pop`, and each access to an index or a slot is a step of its own, so that the steps of
the two calls can fall in any order. Acquire and release make a published index visible together
with the slots written before it.

* **`Emplace`, `Pop`**: where the producer and the consumer are inside a call.
* **`SpscRingBuffer.step`**: one step of either side, or the start of a call. -/

namespace Ironpulse.Ingest

open RingIndex

/-- Where the producer is inside `emplace`, with its local variables. -/
inductive Emplace (α : Type) where
  | idle
  /-- `tail` has been read; the cached head is compared next. -/
  | compare (item : α) (tail : UInt64)
  | reload (item : α) (tail : UInt64)
  | compareReloaded (item : α) (tail : UInt64)
  | construct (item : α) (tail : UInt64)
  | publish (item : α) (tail : UInt64)
  | returned (result : Bool)
  deriving DecidableEq

/-- Where the consumer is inside `pop`, with its local variables. -/
inductive Pop (α : Type) where
  | idle
  /-- `head` has been read; the cached tail is compared next. -/
  | compare (head : UInt64)
  | reload (head : UInt64)
  | compareReloaded (head : UInt64)
  | moveOut (head : UInt64)
  | publish (head : UInt64) (out : α)
  | returned (out : Option α)
  deriving DecidableEq

namespace Emplace

variable {α : Type}

/-- The producer is inside a call. -/
def InCall : Emplace α → Prop
  | .idle | .returned _ => False
  | _ => True

/-- The argument of the call that is going on. -/
def item? : Emplace α → Option α
  | .idle | .returned _ => none
  | .compare item _ | .reload item _ | .compareReloaded item _ | .construct item _
  | .publish item _ => some item

/-- The element that is constructed but not published. -/
def inFlight : Emplace α → List α
  | .publish item _ => [item]
  | _ => []

end Emplace

namespace Pop

variable {α : Type}

/-- The consumer is inside a call. -/
def InCall : Pop α → Prop
  | .idle | .returned _ => False
  | _ => True

/-- The consumer has vacated the slot at the head but not published that. -/
def Vacated : Pop α → Prop
  | .publish _ _ => True
  | _ => False

/-- The element that is moved out but whose slot is not published as free. -/
def taken : Pop α → List α
  | .publish _ out => [out]
  | _ => []

end Pop

/-- The buffer, both sides, and the history of what was pushed and popped. A slot that holds no
element is raw storage. -/
structure SpscRingBuffer (α : Type) where
  capacity_ : UInt64
  mask_ : UInt64 := capacity_ - 1
  buffer_ : UInt64 → Option α := fun _ => none
  tail_ : UInt64 := 0
  head_cached_ : UInt64 := 0
  head_ : UInt64 := 0
  tail_cached_ : UInt64 := 0
  producer : Emplace α := .idle
  consumer : Pop α := .idle
  pushed : List α := []
  popped : List α := []

/-- What happens next: a call starts, or a side inside a call takes its next step. -/
inductive RingEvent (α : Type) where
  | push (item : α)
  | producer
  | pop
  | consumer
  deriving DecidableEq

namespace SpscRingBuffer

variable {α : Type}

/-- The constructor, with the storage allocated. -/
def make (capacity : UInt64) : Except String (SpscRingBuffer α) :=
  if capacity < 2 ∨ capacity &&& (capacity - 1) ≠ 0 then
    .error "SpscRingBuffer capacity must be a power of two and at least 2"
  else .ok { capacity_ := capacity }

/-- `size()` when neither side is running. -/
def size (s : SpscRingBuffer α) : UInt64 := s.tail_ - s.head_

/-- The start of `emplace`: the producer reads its own index. -/
def startPush (s : SpscRingBuffer α) (item : α) : Option (SpscRingBuffer α) :=
  match s.producer with
  | .idle | .returned _ => some { s with producer := .compare item s.tail_ }
  | _ => none

/-- A step of the producer inside `emplace`. -/
def producerStep (s : SpscRingBuffer α) : Option (SpscRingBuffer α) :=
  match s.producer with
  | .idle | .returned _ => none
  | .compare item tail =>
      if tail - s.head_cached_ ≥ s.capacity_ then some { s with producer := .reload item tail }
      else some { s with producer := .construct item tail }
  | .reload item tail =>
      some { s with head_cached_ := s.head_, producer := .compareReloaded item tail }
  | .compareReloaded item tail =>
      if tail - s.head_cached_ ≥ s.capacity_ then some { s with producer := .returned false }
      else some { s with producer := .construct item tail }
  | .construct item tail =>
      some { s with
        buffer_ := Function.update s.buffer_ (tail &&& s.mask_) (some item)
        producer := .publish item tail }
  | .publish item tail =>
      some { s with tail_ := tail + 1, pushed := s.pushed ++ [item], producer := .returned true }

/-- The start of `pop`: the consumer reads its own index. -/
def startPop (s : SpscRingBuffer α) : Option (SpscRingBuffer α) :=
  match s.consumer with
  | .idle | .returned _ => some { s with consumer := .compare s.head_ }
  | _ => none

/-- A step of the consumer inside `pop`. Reading raw storage is undefined: nothing happens then. -/
def consumerStep (s : SpscRingBuffer α) : Option (SpscRingBuffer α) :=
  match s.consumer with
  | .idle | .returned _ => none
  | .compare head =>
      if head = s.tail_cached_ then some { s with consumer := .reload head }
      else some { s with consumer := .moveOut head }
  | .reload head =>
      some { s with tail_cached_ := s.tail_, consumer := .compareReloaded head }
  | .compareReloaded head =>
      if head = s.tail_cached_ then some { s with consumer := .returned none }
      else some { s with consumer := .moveOut head }
  | .moveOut head =>
      (s.buffer_ (head &&& s.mask_)).map fun out =>
        { s with
          buffer_ := Function.update s.buffer_ (head &&& s.mask_) none
          consumer := .publish head out }
  | .publish head out =>
      some { s with
        head_ := head + 1, popped := s.popped ++ [out], consumer := .returned (some out) }

/-- One step of the machine. -/
def step (s : SpscRingBuffer α) : RingEvent α → Option (SpscRingBuffer α)
  | .push item => s.startPush item
  | .producer => s.producerStep
  | .pop => s.startPop
  | .consumer => s.consumerStep

/-- The elements inside: pushed and not popped. -/
def queued (s : SpscRingBuffer α) : List α := s.pushed.drop s.popped.length

end SpscRingBuffer

end Ironpulse.Ingest
