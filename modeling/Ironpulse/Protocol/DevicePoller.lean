import Ironpulse.Core.Chrono
import Ironpulse.Lib.StepMachine
import Ironpulse.Protocol.ModbusClient
import Ironpulse.Protocol.RegisterDecoder

/-! # `DevicePoller`: the polling cycles of one device as a step machine

`src/protocol/device_poller.cpp`: a cycle connects if needed, reads the planned blocks one after the
other and ends by publishing the readings (`finish_cycle`) or the failure (`fail_cycle`). The client
is an environment: it answers each call once, with any result and at any time, and says at any
moment whether it is connected.

* **`Task`**: what the poller waits for or has queued on its strand.
* **`Answer`**: what the client told the poller, on record as it happens.
* **`read_block`, `finish_cycle`, `fail_cycle`, `schedule_next`, `run_cycle`**: the handlers.
* **`step`**: one event; `start()` is called once and `stop()` at any time, also during a handler. -/

namespace Ironpulse.Protocol

open Core (TimePoint Double SensorConfig ModbusDeviceConfig)

/-! ## (1) State -/

/-- What is published on the event bus. -/
inductive PollerEvent where
  | reading (sensor_id : String) (value : Double) (timestamp : TimePoint)
  | status (device_id : String) (online : Bool) (timestamp : TimePoint)
  | pollError (device_id message : String)
  deriving DecidableEq

/-- A cycle on its way through the blocks: the next block and the values so far (by sensor). -/
structure Progress where
  block_index : Nat
  values : List (Option Double)
  deriving DecidableEq

/-- What the client answers: how its connect ended, or the result of a read that it was asked for. -/
inductive Answer where
  | connect (ok : Bool)
  | block (command : Command) (result : RegistersResult)
  deriving DecidableEq

/-- What the poller waits for, or what is queued on its strand. -/
inductive Task where
  /-- The body of `start()` is posted. -/
  | start
  /-- The client connects; its callback has not run. -/
  | connect
  /-- The callback of a connect is posted on the strand. -/
  | connectDone (ok : Bool)
  /-- The client was asked for a block; its callback has not run. -/
  | request (command : Command) (progress : Progress)
  /-- The callback of a request is posted on the strand. -/
  | result (progress : Progress) (result : RegistersResult)
  /-- The wait for the next tick. -/
  | timer (op : AsyncOp Unit)
  deriving DecidableEq

/-- How a cycle ended. -/
inductive CycleOutcome where
  | finished (timestamp : TimePoint)
  | failed (message : String)
  deriving DecidableEq

/-- A cycle that ended, what the client answered and what was published from its start to its
end. -/
structure CycleEnd where
  cycle : Nat
  outcome : CycleOutcome
  heard : List Answer
  published : List PollerEvent
  deriving DecidableEq

/-- A poller with what it waits for, and the history of its cycles. Times on the steady clock are in
nanoseconds. -/
structure DevicePoller where
  config_ : ModbusDeviceConfig
  blocks_ : List ReadBlock
  next_tick_ : Int := 0
  last_status_ : Option Bool := none
  stopped_ : Bool := false
  started : Bool := false
  tasks : List Task := []
  /-- Cancellations of the timer that `stop()` posted on the strand. -/
  cancels : Nat := 0
  /-- All that was published, in order. -/
  published : List PollerEvent := []
  /-- Cycles started so far. -/
  cycles : Nat := 0
  /-- What the client has answered since the last cycle started, written as it answers. -/
  heard : List Answer := []
  /-- What was published since the last cycle started. -/
  publishedInCycle : List PollerEvent := []
  /-- The cycles that ended, in order. -/
  ends : List CycleEnd := []

/-- What a handler sees of its surroundings while it runs. -/
structure Surroundings where
  /-- `client_->is_connected()`. -/
  connected : Bool
  /-- `steady_clock::now()`. -/
  now : Int
  /-- `system_clock::now()`, for the readings and for a status. -/
  timestamp : TimePoint
  statusTime : TimePoint
  /-- `stop()` is called by another thread after the handler has looked at `stopped_`. -/
  stopDuring : Bool

namespace DevicePoller

/-- A new poller. -/
def create (S : StdSort) (config : ModbusDeviceConfig) : DevicePoller where
  config_ := config
  blocks_ := plan_reads S config.sensors

/-! ## (2) Handlers -/

variable (scaling : Scaling) (env : Surroundings)

/-- `bus_.publish`. -/
def publish (s : DevicePoller) (event : PollerEvent) : DevicePoller :=
  { s with
    published := s.published ++ [event]
    publishedInCycle := s.publishedInCycle ++ [event] }

/-- A status is published when it differs from the last one. -/
def publish_status (s : DevicePoller) (online : Bool) : DevicePoller :=
  if s.last_status_ = some online then s
  else { s with last_status_ := some online }.publish (.status s.config_.id online env.statusTime)

/-- `schedule_next()`: the next tick, skipping the missed ones; the timer is not armed once the
poller is stopped. -/
def schedule_next (s : DevicePoller) : DevicePoller :=
  if s.stopped_ ∨ env.stopDuring then s
  else
    let interval : Int := s.config_.poll_interval_ms.toNat * 1000000
    let next_tick := s.next_tick_ + interval
    { s with
      next_tick_ := if next_tick < env.now then env.now + interval else next_tick
      tasks := s.tasks ++ [.timer .pending] }

/-- The cycle is over. -/
def end_cycle (s : DevicePoller) (outcome : CycleOutcome) : DevicePoller :=
  { s with ends := s.ends ++ [⟨s.cycles, outcome, s.heard, s.publishedInCycle⟩] }

/-- The readings of a cycle: one for every value, with one timestamp. -/
def readings_of (config : ModbusDeviceConfig) (values : List (Option Double))
    (timestamp : TimePoint) : List PollerEvent :=
  (List.range values.length).filterMap fun i =>
    (values.getD i none).map fun value =>
      .reading (sensor_at config.sensors i).id value timestamp

/-- The device is online and its readings are published. -/
def finish_cycle (s : DevicePoller) (progress : Progress) : DevicePoller :=
  let s := s.publish_status env true
  let s := (readings_of s.config_ progress.values env.timestamp).foldl publish s
  (s.end_cycle (.finished env.timestamp)).schedule_next env

/-- The device is as online as its connection; no reading is published. -/
def fail_cycle (s : DevicePoller) (message : String) : DevicePoller :=
  let s := s.publish (.pollError s.config_.id message)
  let s := s.publish_status env env.connected
  (s.end_cycle (.failed message)).schedule_next env

/-- The read that the client is asked for. -/
def block_command (config : ModbusDeviceConfig) (block : ReadBlock) : Command :=
  if block.register_type = .input then
    .read_input_registers config.unit_id block.start_address block.quantity
  else .read_holding_registers config.unit_id block.start_address block.quantity

/-- Requests the next block, or ends the cycle when there is none. -/
def read_block (s : DevicePoller) (progress : Progress) : DevicePoller :=
  if progress.block_index ≥ s.blocks_.length then s.finish_cycle env progress
  else
    let block := s.blocks_.getD progress.block_index {}
    { s with tasks := s.tasks ++ [.request (block_command s.config_ block) progress] }

/-- A cycle before its first block: no sensor has a value. -/
def first_block (s : DevicePoller) : Progress where
  block_index := 0
  values := List.replicate s.config_.sensors.length none

/-- The answer to a block: the values of its sensors. -/
def store_answer (s : DevicePoller) (progress : Progress) (registers : List UInt16) : Progress :=
  let done := s.blocks_.getD progress.block_index {}
  { block_index := progress.block_index + 1
    values := done.sensor_indices.foldl (fun values i =>
      values.set i (extract_value scaling done registers (sensor_at s.config_.sensors i)))
      progress.values }

/-- A cycle starts, with a connect if there is no connection. -/
def run_cycle (s : DevicePoller) : DevicePoller :=
  if s.stopped_ then s
  else
    let s := { s with cycles := s.cycles + 1, heard := [], publishedInCycle := [] }
    if !env.connected then { s with tasks := s.tasks ++ [.connect] }
    else s.read_block env s.first_block

/-- The handler of a connect's result. -/
def connect_done (s : DevicePoller) (ok : Bool) : DevicePoller :=
  if s.stopped_ then s
  else if !ok then
    s.fail_cycle env ("cannot connect to " ++ s.config_.host ++ ":" ++
      toString s.config_.port.toNat)
  else s.read_block env s.first_block

/-- The handler of a request's result. -/
def result_done (s : DevicePoller) (progress : Progress) (result : RegistersResult) :
    DevicePoller :=
  if s.stopped_ then s
  else
    match result with
    | .error error => s.fail_cycle env error.message
    | .ok registers => s.read_block env (s.store_answer scaling progress registers)

/-- `stop()`; the client is closed as well, which shows in what it answers. -/
def stop (s : DevicePoller) : DevicePoller := { s with stopped_ := true, cancels := s.cancels + 1 }

/-! ## (3) Events -/

/-- A call of the poller, an answer of the client, the clock, or a handler that runs. -/
inductive Event where
  | start
  | stop
  /-- The client runs the callback of the connect. -/
  | connectCallback (ok : Bool)
  /-- The client runs the callback of the read that it was asked for. -/
  | requestCallback (command : Command) (progress : Progress) (result : RegistersResult)
  /-- The tick is due. -/
  | timerFires
  /-- The cancellation that `stop()` posted runs. -/
  | runCancel
  /-- A queued handler runs. -/
  | runTask (task : Task) (env : Surroundings)

/-- The body of a queued handler; the others are not queued. -/
def handler (s : DevicePoller) : Task → Option DevicePoller
  | .start => some ({ s with next_tick_ := env.now }.run_cycle env)
  | .connectDone ok => some (s.connect_done env ok)
  | .result progress result => some (s.result_done scaling env progress result)
  | .timer (.completed (.ok ())) => some (s.run_cycle env)
  | .timer (.completed (.error _)) => some s
  | .connect | .request _ _ | .timer .pending => none

/-- A task turns into the next one. -/
def replace (s : DevicePoller) (old new : Task) : Option DevicePoller :=
  if old ∈ s.tasks then some { s with tasks := s.tasks.erase old ++ [new] } else none

/-- The client answers. -/
def hear (s : DevicePoller) (answer : Answer) : DevicePoller :=
  { s with heard := s.heard ++ [answer] }

/-- `timer_.cancel()`. -/
def cancelTask : Task → Task
  | .timer op => .timer op.abort
  | task => task

/-- One event. -/
def step (s : DevicePoller) : Event → Option DevicePoller
  | .start =>
      if s.started then none else some { s with started := true, tasks := s.tasks ++ [.start] }
  | .stop => some s.stop
  | .connectCallback ok =>
      (s.hear (.connect ok)).replace .connect (.connectDone ok)
  | .requestCallback command progress result =>
      (s.hear (.block command result)).replace (.request command progress) (.result progress result)
  | .timerFires => s.replace (.timer .pending) (.timer (.completed (.ok ())))
  | .runCancel =>
      if s.cancels = 0 then none
      else some { s with cancels := s.cancels - 1, tasks := s.tasks.map cancelTask }
  | .runTask task env =>
      if task ∈ s.tasks then
        (handler scaling env { s with tasks := s.tasks.erase task } task).map fun t =>
          if env.stopDuring then t.stop else t
      else none

end DevicePoller

end Ironpulse.Protocol
