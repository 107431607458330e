import Ironpulse.Core.Config
import Ironpulse.Ingest.Ingestor
import Ironpulse.Ingest.Segment

/-! # The export of readings

`src/ingest/reading_exporter.cpp`: any number of threads submit readings; they take turns at a mutex
in front of the ingestor, whose consumer thread writes the batches to segments. The owner starts and
stops the exporter. A step inside the mutex is a step of its own, and so is every step of the
ingestor; `write_batch` runs on the consumer's thread alone and is one step.

* **`tags_from_devices`**: tag ids for the configured sensors.
* **`ReadingExporter`**: the state, and `ReadingExporter.make`.
* **`ReadingExporter.step`**: one step of a submitting thread, the consumer or the owner. -/

namespace Ironpulse.Ingest

open Core Storage

/-! ## (1) Tags and readings -/

/-- `tags_from_devices`: the sensors of all devices in order, numbered from one in 32 bits. -/
def tags_from_devices (devices : List ModbusDeviceConfig) : List TagInfo :=
  (devices.flatMap fun device => device.sensors.map fun sensor => (device, sensor)).mapIdx
    fun i (device, sensor) =>
      { id := UInt32.ofNat (i + 1), sensor_id := sensor.id, device_id := device.id
        name := sensor.name, unit := sensor.unit }

/-- The arguments of `submit`; the value is the 64 bits of a `double`. -/
structure Reading where
  sensor_id : String
  value : UInt64
  timestamp : TimePoint
  deriving DecidableEq

/-- Milliseconds since the epoch, zero for earlier times. -/
def timestamp_ms (timestamp : TimePoint) : UInt64 :=
  let ms := duration_cast_milliseconds timestamp
  if ms < 0 then 0 else ms.toUInt64

/-- The sample of a reading of a known sensor. -/
def sampleOf (tag_ids : List (String × UInt32)) (reading : Reading) : Option TelemetrySample :=
  (tag_ids.lookup reading.sensor_id).map fun tag_id =>
    { timestamp_ms := timestamp_ms reading.timestamp, value := reading.value, tag_id := tag_id
      quality := 0 }

/-! ## (2) The state -/

/-- Where a thread is inside `submit`. -/
inductive SubmitPc where
  | idle
  /-- Waiting for the mutex. -/
  | waiting (reading : Reading) (sample : TelemetrySample)
  /-- With the mutex; `accepting_` is read next. -/
  | holding (reading : Reading) (sample : TelemetrySample)
  /-- With the mutex, inside `ingestor_->submit`. -/
  | queueing (reading : Reading)
  deriving DecidableEq

/-- The thread holds the mutex. -/
def SubmitPc.Inside : SubmitPc → Prop
  | .holding _ _ | .queueing _ => True
  | _ => False

/-- Where the owner is. -/
inductive OwnerPc where
  | created
  | running
  /-- `stop()` has ended the intake. -/
  | stopping
  /-- Inside `ingestor_->stop()`, waiting for the consumer. -/
  | joining
  /-- `stop()` has returned. -/
  | stopped
  deriving DecidableEq

/-- The exporter, where its threads are, and the readings for which `submit` returned true, in the
order in which the producers held the mutex. -/
structure ReadingExporter where
  /-- The first tag of a sensor id counts. -/
  tag_ids_ : List (String × UInt32)
  writer_ : SegmentWriter
  ingestor_ : Ingestor
  /-- The thread that holds the mutex. -/
  producer_mutex_ : Option Nat := none
  accepting_ : Bool := false
  unknown_sensor_ : UInt64 := 0
  threads : Nat → SubmitPc := fun _ => .idle
  owner : OwnerPc := .created
  accepted : List Reading := []

/-- One action of a submitting thread, the ingestor or the owner. -/
inductive ExportEvent where
  | start
  /-- A thread calls `submit`. -/
  | submit (thread : Nat) (reading : Reading)
  /-- A waiting thread gets the mutex. -/
  | lock (thread : Nat)
  /-- The next step of the thread that holds the mutex. -/
  | proceed (thread : Nat)
  | consumer
  | clock (now : TimePoint)
  /-- The consumer writes a batch; a new segment is created at the given time. -/
  | sink (created_ms : Int64)
  /-- `stop()` ends the intake. -/
  | stopAccepting
  /-- `stop()` asks the consumer to stop. -/
  | stopIngestor
  /-- `stop()` has joined the consumer and closes the segment. -/
  | finishStop
  deriving DecidableEq

namespace ReadingExporter

/-- The options of the ingestor and of the writer. -/
def ingestorOptions (config : ExportConfig) : IngestorOptions :=
  { queue_capacity := config.queue_capacity
    batch_size := config.batch_size
    flush_interval := Int64.ofNat config.flush_interval_ms.toNat }

/-- The options that the exporter gives its segment writer. -/
def writerOptions (config : ExportConfig) : SegmentWriterOptions :=
  { directory := config.directory
    max_segment_bytes := config.segment_max_mb.toUInt64 * 1024 * 1024
    max_total_bytes := config.max_total_mb.toUInt64 * 1024 * 1024 }

/-- The constructor, in a directory with the given files. -/
def make (json : JsonLibrary) (config : ExportConfig) (tags : List TagInfo) (files : Files) :
    Except String ReadingExporter :=
  (Ingestor.make (ingestorOptions config)).map fun ingestor =>
    { tag_ids_ := tags.map fun tag => (tag.sensor_id, tag.id)
      writer_ := SegmentWriter.make json (writerOptions config) tags files
      ingestor_ := ingestor }

variable (s : ReadingExporter)

/-! ## (3) Submitting -/

/-- Where one thread is changes. -/
def at_thread (thread : Nat) (pc : SubmitPc) : Nat → SubmitPc := Function.update s.threads thread pc

/-- `submit` up to the mutex: a reading of an unknown sensor is counted and refused. -/
def submitStep (thread : Nat) (reading : Reading) : Option ReadingExporter :=
  if s.threads thread = .idle then
    match sampleOf s.tag_ids_ reading with
    | none => some { s with unknown_sensor_ := s.unknown_sensor_ + 1 }
    | some sample => some { s with threads := s.at_thread thread (.waiting reading sample) }
  else none

/-- A thread that waits for the mutex gets it. -/
def lockStep (thread : Nat) : Option ReadingExporter :=
  match s.threads thread with
  | .waiting reading sample =>
      if s.producer_mutex_ = none then
        some { s with
          producer_mutex_ := some thread
          threads := s.at_thread thread (.holding reading sample) }
      else none
  | _ => none

/-- Returning from `submit` gives the mutex back. -/
def returned (thread : Nat) (accepted : List Reading) : ReadingExporter :=
  { s with
    producer_mutex_ := none, threads := s.at_thread thread .idle
    accepted := s.accepted ++ accepted }

/-- A step inside the mutex: `accepting_ && ingestor_->submit(sample)`. -/
def proceedStep (thread : Nat) : Option ReadingExporter :=
  match s.threads thread with
  | .holding reading sample =>
      if s.accepting_ then
        (s.ingestor_.startSubmit sample).map fun ingestor =>
          { s with ingestor_ := ingestor, threads := s.at_thread thread (.queueing reading) }
      else some (s.returned thread [])
  | .queueing reading =>
      s.ingestor_.producerStep.map fun ingestor =>
        let next := { s with ingestor_ := ingestor }
        match s.ingestor_.queue_.producer with
        | .returned true => next.returned thread [reading]
        | .returned false => next.returned thread []
        | _ => next
  | _ => none

/-! ## (4) The consumer and the owner -/

/-- The sink: `write_batch` with file operations succeeding, on the batch that was handed over. -/
def sinkStep (created_ms : Int64) : Option ReadingExporter :=
  match s.ingestor_.sink_calls.getLast? with
  | none => none
  | some batch =>
      let (writer, result) := s.writer_.write_batch created_ms {} batch
      let outcome : SinkOutcome := match result with
        | .ok () => .returns
        | .error _ => .throws
      (s.ingestor_.sinkStep outcome).map fun ingestor =>
        { s with writer_ := writer, ingestor_ := ingestor }

/-- `start()`. -/
def startStep : Option ReadingExporter :=
  if s.owner = .created ∧ s.producer_mutex_ = none then
    s.ingestor_.startStep.map fun ingestor =>
      { s with ingestor_ := ingestor, accepting_ := true, owner := .running }
  else none

/-- `stop` clears `accepting_`, under the mutex. -/
def stopAcceptingStep : Option ReadingExporter :=
  if s.owner = .running ∧ s.producer_mutex_ = none then
    some { s with accepting_ := false, owner := .stopping }
  else none

/-- `stop` stops the ingestor. -/
def stopIngestorStep : Option ReadingExporter :=
  if s.owner = .stopping then
    s.ingestor_.stopStep.map fun ingestor => { s with ingestor_ := ingestor, owner := .joining }
  else none

/-- `stop` returns after the consumer has ended. -/
def finishStopStep : Option ReadingExporter :=
  if s.owner = .joining ∧ s.ingestor_.consumer_ = .finished then
    some { s with writer_ := s.writer_.close, owner := .stopped }
  else none

/-- One step of the machine. -/
def step : ExportEvent → Option ReadingExporter
  | .start => s.startStep
  | .submit thread reading => s.submitStep thread reading
  | .lock thread => s.lockStep thread
  | .proceed thread => s.proceedStep thread
  | .consumer => s.ingestor_.consumerStep.map fun ingestor => { s with ingestor_ := ingestor }
  | .clock now => (s.ingestor_.clockStep now).map fun ingestor => { s with ingestor_ := ingestor }
  | .sink created_ms => s.sinkStep created_ms
  | .stopAccepting => s.stopAcceptingStep
  | .stopIngestor => s.stopIngestorStep
  | .finishStop => s.finishStopStep

end ReadingExporter

end Ironpulse.Ingest
