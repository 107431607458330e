import Ironpulse.Core.Chrono
import Ironpulse.Ingest.RingBuffer
import Ironpulse.Ingest.Serializer

/-! # The ingestor

`src/ingest/ingestor.cpp`: a producer submits samples to a ring buffer; a consumer thread drains it,
groups the samples into batches, encodes them and hands the bytes to a sink. Every access to shared
data is a step of its own: those inside the ring buffer, the stop flag, the two index loads of
`empty()`. The clock's readings and whether the sink returns or throws are part of the event.

* **`Ingestor`**: the state, and `Ingestor.make`: the constructor with the checks on the options.
* **`ConsumerPc`**: where the consumer loop is.
* **`Ingestor.step`**: one step of the producer, the consumer or the owner of the ingestor. -/

namespace Ironpulse.Ingest

open Core

/-! ## (1) Options and counters -/

/-- `IngestorOptions`. -/
structure IngestorOptions where
  queue_capacity : UInt64 := 65536
  batch_size : UInt64 := 1000
  flush_interval : Milliseconds := 1000
  deriving DecidableEq

/-- `validate`. -/
def IngestorOptions.validate (options : IngestorOptions) : Except String Unit :=
  let capacity := options.queue_capacity
  if capacity < 2 ∨ capacity &&& (capacity - 1) ≠ 0 then
    .error "ingest: queue_capacity must be a power of two and at least 2"
  else if options.batch_size = 0 ∨ options.batch_size > capacity then
    .error "ingest: batch_size must be between 1 and queue_capacity"
  else if options.flush_interval ≤ 0 then .error "ingest: flush_interval must be positive"
  else .ok ()

/-- `Counters`, each of 64 bits that wrap around. -/
structure Counters where
  ingested : UInt64 := 0
  dropped : UInt64 := 0
  batches_sent : UInt64 := 0
  batches_failed : UInt64 := 0
  deriving DecidableEq

namespace Counters

variable (c : Counters)

/-- `record_ingested`. -/
def record_ingested : Counters := { c with ingested := c.ingested + 1 }

/-- `record_dropped`. -/
def record_dropped : Counters := { c with dropped := c.dropped + 1 }

/-- `record_batch_sent`. -/
def record_batch_sent : Counters := { c with batches_sent := c.batches_sent + 1 }

/-- `record_batch_failed`. -/
def record_batch_failed : Counters := { c with batches_failed := c.batches_failed + 1 }

end Counters

/-! ## (2) The state -/

/-- How a call of the sink ends. -/
inductive SinkOutcome where
  | returns
  | throws
  deriving DecidableEq

/-- Where the consumer thread is inside `consumer_loop`. -/
inductive ConsumerPc where
  | notStarted
  /-- The clock is read for the first time next. -/
  | enter
  | readFlag
  /-- The head of the draining loop. -/
  | drain
  /-- Inside `queue_.pop`. -/
  | popping
  | readClock
  /-- Inside the sink with a batch that was full or due at that time. -/
  | inSink (now : TimePoint)
  | checkStop
  /-- Inside `queue_.empty()`: the head is loaded, then the tail. -/
  | loadHead
  | loadTail (head : UInt64)
  /-- Inside the sink with the last, partial batch. -/
  | inLastSink
  | finished
  deriving DecidableEq

/-- The ingestor, the local variables of its two threads, and the history of what `submit` accepted
and of the bytes that the sink was called with. -/
structure Ingestor where
  options_ : IngestorOptions
  queue_ : SpscRingBuffer TelemetrySample
  counters_ : Counters := {}
  running_ : Bool := false
  stop_requested : Bool := false
  /-- The argument of the `submit` call that is going on. -/
  submitting : Option TelemetrySample := none
  consumer_ : ConsumerPc := .notStarted
  batch : List TelemetrySample := []
  last_flush : TimePoint := 0
  idle_rounds : UInt32 := 0
  stopping : Bool := false
  popped : UInt64 := 0
  accepted : List TelemetrySample := []
  sink_calls : List (List UInt8) := []

/-- One action of the producer, the consumer, the clock, the sink or the owner. -/
inductive IngestEvent where
  | start
  /-- A call of `submit` starts. -/
  | submit (sample : TelemetrySample)
  /-- The producer's next step inside `submit`. -/
  | producer
  /-- The consumer's next step. -/
  | consumer
  /-- The consumer reads the clock. -/
  | clock (now : TimePoint)
  /-- The sink that the consumer has called is done. -/
  | sink (outcome : SinkOutcome)
  /-- `stop()` sets the stop flag; it returns once the consumer has finished. -/
  | stop
  deriving DecidableEq

namespace Ingestor

/-- The constructor. -/
def make (options : IngestorOptions) : Except String Ingestor :=
  match options.validate with
  | .error what => .error what
  | .ok () =>
      match SpscRingBuffer.make options.queue_capacity with
      | .error what => .error what
      | .ok queue => .ok { options_ := options, queue_ := queue }

variable (s : Ingestor)

/-! ## (3) The producer -/

/-- `submit` starts with the push. As its contract says, a call neither overlaps another one nor
comes after `stop()`. -/
def startSubmit (sample : TelemetrySample) : Option Ingestor :=
  if s.submitting = none ∧ ¬ s.stop_requested then
    (s.queue_.startPush sample).map fun queue =>
      { s with queue_ := queue, submitting := some sample }
  else none

/-- The next step inside `submit`: one of the push, or counting its result and returning it. -/
def producerStep : Option Ingestor :=
  match s.submitting with
  | none => none
  | some sample =>
      match s.queue_.producer with
      | .returned true =>
          some { s with
            counters_ := s.counters_.record_ingested
            submitting := none
            accepted := s.accepted ++ [sample] }
      | .returned false =>
          some { s with counters_ := s.counters_.record_dropped, submitting := none }
      | _ => s.queue_.producerStep.map fun queue => { s with queue_ := queue }

/-! ## (4) The consumer -/

/-- `batch.size() >= options_.batch_size`. -/
def batchFull : Bool := UInt64.ofNat s.batch.length ≥ s.options_.batch_size

/-- `!batch.empty() && now - last_flush >= options_.flush_interval`. -/
def batchDue (now : TimePoint) : Bool :=
  !s.batch.isEmpty &&
    now - s.last_flush ≥ milliseconds_to_nanoseconds s.options_.flush_interval

/-- The buffer that batches are encoded into, sized once for the largest one. -/
def encodedSize : UInt64 := required_buffer_size s.options_.batch_size

/-- `send_batch` up to the call of the sink: the batch is encoded and cleared, and the sink gets the
bytes that the encoder wrote. -/
def sendBatch (next : ConsumerPc) : Ingestor :=
  { s with
    batch := []
    sink_calls := s.sink_calls ++ [serialize s.batch s.encodedSize]
    consumer_ := next }

/-- `send_batch` after the sink: an exception counts as a failed batch. -/
def countBatch : SinkOutcome → Counters
  | .returns => s.counters_.record_batch_sent
  | .throws => s.counters_.record_batch_failed

/-- The rounds without a sample, which saturate. -/
def nextIdleRounds : UInt32 :=
  if s.popped = 0 then (if s.idle_rounds < 1024 then s.idle_rounds + 1 else s.idle_rounds) else 0

/-- The consumer's next step, unless it reads the clock or waits for the sink. -/
def consumerStep : Option Ingestor :=
  match s.consumer_ with
  | .readFlag => some { s with stopping := s.stop_requested, popped := 0, consumer_ := .drain }
  | .drain =>
      if s.batchFull then some { s with consumer_ := .readClock }
      else s.queue_.startPop.map fun queue => { s with queue_ := queue, consumer_ := .popping }
  | .popping =>
      match s.queue_.consumer with
      | .returned (some sample) =>
          some { s with batch := s.batch ++ [sample], popped := s.popped + 1, consumer_ := .drain }
      | .returned none => some { s with consumer_ := .readClock }
      | _ => s.queue_.consumerStep.map fun queue => { s with queue_ := queue }
  | .checkStop =>
      if s.stopping then some { s with consumer_ := .loadHead }
      else some { s with idle_rounds := s.nextIdleRounds, consumer_ := .readFlag }
  | .loadHead => some { s with consumer_ := .loadTail s.queue_.head_ }
  | .loadTail head =>
      if s.queue_.tail_ - head = 0 then
        if s.batch.isEmpty then some { s with consumer_ := .finished }
        else some (s.sendBatch .inLastSink)
      else some { s with consumer_ := .readFlag }
  | _ => none

/-- The consumer reads the clock: when the loop is entered, or to see whether a batch is due. -/
def clockStep (now : TimePoint) : Option Ingestor :=
  match s.consumer_ with
  | .enter => some { s with last_flush := now, consumer_ := .readFlag }
  | .readClock =>
      if s.batchFull || s.batchDue now then some (s.sendBatch (.inSink now))
      else some { s with consumer_ := .checkStop }
  | _ => none

/-- The sink returns or throws. -/
def sinkStep (outcome : SinkOutcome) : Option Ingestor :=
  match s.consumer_ with
  | .inSink now =>
      some { s with
        counters_ := s.countBatch outcome
        last_flush := now
        idle_rounds := 0
        consumer_ := .readFlag }
  | .inLastSink => some { s with counters_ := s.countBatch outcome, consumer_ := .finished }
  | _ => none

/-! ## (5) The owner -/

/-- `start()` of an ingestor that was not started before. -/
def startStep : Option Ingestor :=
  if s.consumer_ = .notStarted then some { s with running_ := true, consumer_ := .enter } else none

/-- `stop()` of a running ingestor, once the producer is done. -/
def stopStep : Option Ingestor :=
  if s.running_ ∧ s.submitting = none then
    some { s with running_ := false, stop_requested := true }
  else none

/-- One step of the machine. -/
def step : IngestEvent → Option Ingestor
  | .start => s.startStep
  | .submit sample => s.startSubmit sample
  | .producer => s.producerStep
  | .consumer => s.consumerStep
  | .clock now => s.clockStep now
  | .sink outcome => s.sinkStep outcome
  | .stop => s.stopStep

end Ingestor

end Ironpulse.Ingest
