import Ironpulse.Asio
import Ironpulse.Core.Chrono
import Ironpulse.Lib.StepMachine
import Ironpulse.Protocol.FrameCodec

/-! # `ModbusClient`: one connection to a device as a step machine

`src/protocol/modbus_client.cpp`: a connect resolves the host and then connects, a request writes its
frame and reads the header and the body of the reply. Each link of these chains is one asynchronous
operation whose handler starts the next; a deadline covers the whole chain. An event is a call of
the user, something the operating system does (an operation completes, the deadline expires, bytes
arrive) or a handler that runs on the strand.

* **`ModbusClient`**: the members of the class, the operation in flight, the waits on the deadline.
* **`arm_deadline`, `disarm_deadline`, `close_socket`, `expire`**: what the handlers share.
* **`connect`, `send_request`, `read_response`, `header_done`, `body_done`**: the chains.
* **`step`**: one event; calls other than `close` are made one at a time. -/

namespace Ironpulse.Protocol

open Core (Milliseconds)

/-! ## (1) State -/

/-- Why a request failed. -/
structure ModbusError where
  message : String
  deriving DecidableEq

/-- `std::variant<std::vector<std::uint16_t>, ModbusError>`. -/
abbrev RegistersResult := Except ModbusError (List UInt16)

/-- A call of the client's user, other than `close`. -/
inductive Command where
  | connect
  | read_holding_registers (unit_id : UInt8) (start_address quantity : UInt16)
  | read_input_registers (unit_id : UInt8) (start_address quantity : UInt16)
  | write_single_register (unit_id : UInt8) (address value : UInt16)
  deriving DecidableEq

/-- The asynchronous operation in flight, with what its handler captured. -/
inductive Operation where
  | resolve (op : AsyncOp Unit)
  | connect (op : AsyncOp Unit)
  | write (request : ModbusRequest) (op : AsyncOp Unit)
  /-- The seven bytes of the MBAP header. -/
  | readHeader (request : ModbusRequest) (op : AsyncOp (List UInt8))
  /-- The rest of the frame. -/
  | readBody (request : ModbusRequest) (remaining : Nat) (op : AsyncOp (List UInt8))
  deriving DecidableEq

namespace Operation

/-- The handler is queued: nothing is left to wait for. -/
def settled : Operation → Bool
  | resolve op => op != .pending
  | connect op => op != .pending
  | write _ op => op != .pending
  | readHeader _ op => op != .pending
  | readBody _ _ op => op != .pending

/-- `resolver_.cancel()`. -/
def cancelResolve : Operation → Operation
  | resolve op => resolve op.abort
  | operation => operation

/-- The effect of closing the socket on the operations that use it. -/
def closeSocket : Operation → Operation
  | resolve op => resolve op
  | connect op => connect op.abort
  | write request op => write request op.abort
  | readHeader request op => readHeader request op.abort
  | readBody request remaining op => readBody request remaining op.abort

end Operation

/-- What a callback received. -/
inductive Outcome where
  | connect (success : Bool)
  | read (request : ModbusRequest) (result : RegistersResult)
  | write (request : ModbusRequest) (success : Bool)
  deriving DecidableEq

/-- A callback that ran: for which call, with what, whether the client was connected then, and the
bytes that the connection had delivered for the call. -/
structure Delivery where
  call : Nat
  outcome : Outcome
  connected : Bool
  stream : List UInt8
  deriving DecidableEq

/-- A wait on the deadline: the generation that its handler captured, and how often the generation
had advanced by then. -/
structure Wait where
  generation : UInt64
  armedAt : Nat
  op : AsyncOp Unit
  deriving DecidableEq

namespace Wait

/-- `deadline_.cancel()` on one wait. -/
def cancel (w : Wait) : Wait := { w with op := w.op.abort }

/-- The deadline passes: a pending wait completes with success. -/
def pass (w : Wait) : Wait :=
  match w.op with
  | .pending => { w with op := .completed (.ok ()) }
  | .completed _ => w

end Wait

/-- A client, its operation in flight and its waits on the deadline, and the bytes that arrived and
were not read yet. The fields from `generations` on are the history of the run: no handler reads
them. -/
structure ModbusClient where
  socketOpen : Bool := false
  connected_ : Bool := false
  timed_out_ : Bool := false
  deadline_generation_ : UInt64 := 0
  next_transaction_id_ : UInt16 := 1
  read_buffer_ : List UInt8 := []
  timeout_ : Milliseconds := 3000
  operation : Option Operation := none
  waits : List Wait := []
  received : List UInt8 := []
  /-- How often the generation has advanced: `deadline_generation_` without wrapping. -/
  generations : Nat := 0
  /-- Calls made so far; the last one is the one in flight. -/
  calls : Nat := 0
  /-- `close()` was called since the last call. -/
  closeCalled : Bool := false
  /-- The bytes that the connection has delivered for the last call: those that nobody had read when
  the call was made, then every byte that arrived. -/
  stream : List UInt8 := []
  /-- The callbacks that ran, in order. -/
  delivered : List Delivery := []
  deriving DecidableEq

namespace ModbusClient

/-- A new client. -/
def create (timeout : Milliseconds) : ModbusClient := { timeout_ := timeout }

/-! ## (2) Deadline and socket -/

/-- `expires_after` cancels the waits that are still pending. -/
def arm_deadline (s : ModbusClient) : ModbusClient :=
  { s with
    timed_out_ := false
    deadline_generation_ := s.deadline_generation_ + 1
    generations := s.generations + 1
    waits := s.waits.map Wait.cancel ++
      [⟨s.deadline_generation_ + 1, s.generations + 1, .pending⟩] }

/-- The generation advances, so that a wait whose handler is queued finds itself stale. -/
def disarm_deadline (s : ModbusClient) : ModbusClient :=
  { s with
    deadline_generation_ := s.deadline_generation_ + 1
    generations := s.generations + 1
    waits := s.waits.map Wait.cancel }

/-- Closing the socket aborts what is pending on it and drops what it received. -/
def close_socket (s : ModbusClient) : ModbusClient :=
  { s with
    socketOpen := false
    connected_ := false
    operation := s.operation.map Operation.closeSocket
    received := [] }

/-- The handler of a wait on the deadline. -/
def expire (s : ModbusClient) (generation : UInt64) (result : Except ErrorCode Unit) :
    ModbusClient :=
  match result with
  | .error _ => s
  | .ok () =>
      if generation ≠ s.deadline_generation_ then s
      else
        { s with
          timed_out_ := true
          operation := s.operation.map Operation.cancelResolve }.close_socket

/-! ## (3) Callbacks -/

/-- The callback of the call in flight runs. -/
def deliver (s : ModbusClient) (outcome : Outcome) : ModbusClient :=
  { s with delivered := s.delivered ++ [⟨s.calls, outcome, s.connected_, s.stream⟩] }

/-- The wrapper of `read_registers` around the user's callback: fewer registers than asked for are
an error. -/
def check_quantity (quantity : UInt16) : RegistersResult → RegistersResult
  | .error error => .error error
  | .ok regs =>
      if regs.length < quantity.toNat then
        .error ⟨"short response: expected " ++ toString quantity.toNat ++ " registers, got " ++
          toString regs.length⟩
      else .ok regs

/-- What the callback that `send_request` was given makes of a result. -/
def outcome (request : ModbusRequest) (result : RegistersResult) : Outcome :=
  match request.function with
  | .write_single_register => .write request result.isOk
  | _ => .read request (check_quantity request.quantity_or_value result)

/-- `callback(result)` of a request. -/
def callback (s : ModbusClient) (request : ModbusRequest) (result : RegistersResult) :
    ModbusClient :=
  s.deliver (outcome request result)

/-- `disarm_deadline(); close_socket(); callback(ModbusError{message})`. -/
def fail (s : ModbusClient) (request : ModbusRequest) (message : String) : ModbusClient :=
  s.disarm_deadline.close_socket.callback request (.error ⟨message⟩)

/-! ## (4) The chains of handlers -/

/-- The body of `connect`. -/
def connect (s : ModbusClient) : ModbusClient :=
  { s.close_socket.arm_deadline with operation := some (.resolve .pending) }

/-- The handler of `async_resolve`; `async_connect` opens the socket anew. -/
def resolve_done (s : ModbusClient) : Except ErrorCode Unit → ModbusClient
  | .error _ => s.disarm_deadline.deliver (.connect false)
  | .ok () => { s with socketOpen := true, operation := some (.connect .pending) }

/-- The handler of `async_connect`. -/
def connect_done (s : ModbusClient) : Except ErrorCode Unit → ModbusClient
  | .error _ => s.disarm_deadline.close_socket.deliver (.connect false)
  | .ok () => { s.disarm_deadline with connected_ := true }.deliver (.connect true)

/-- The deadline covers the write and both reads; without a connection the callback runs at once. -/
def send_request (s : ModbusClient) (request : ModbusRequest) : ModbusClient :=
  if !s.connected_ then s.callback request (.error ⟨"not connected"⟩)
  else
    { s.arm_deadline with operation := some (.write request (AsyncOp.start s.socketOpen)) }

/-- The buffer is cleared and made to hold the header. -/
def read_response (s : ModbusClient) (request : ModbusRequest) : ModbusClient :=
  { s with
    read_buffer_ := List.replicate 7 0
    operation := some (.readHeader request (AsyncOp.start s.socketOpen)) }

/-- The handler of `async_write`. -/
def write_done (s : ModbusClient) (request : ModbusRequest) : Except ErrorCode Unit → ModbusClient
  | .error ec =>
      let reason := if s.timed_out_ then "timed out" else ec
      s.fail request ("write failed: " ++ reason)
  | .ok () => s.read_response request

/-- The handler of the header's `async_read`. -/
def header_done (s : ModbusClient) (request : ModbusRequest) :
    Except ErrorCode (List UInt8) → ModbusClient
  | .error ec =>
      let reason :=
        if s.timed_out_ then "no response within " ++ toString s.timeout_.toInt ++ " ms" else ec
      s.fail request ("read header failed: " ++ reason)
  | .ok header =>
      let s := { s with read_buffer_ := header }
      match expected_frame_length s.read_buffer_ with
      | none => s.fail request "malformed MBAP header"
      | some total_length =>
          if total_length < s.read_buffer_.length + 1 ∨ total_length > 7 + 253 then
            s.fail request "malformed MBAP header"
          else
            let remaining := total_length - s.read_buffer_.length
            { s with
              operation := some (.readBody request remaining (AsyncOp.start s.socketOpen)) }

/-- The handler of the body's `async_read`. -/
def body_done (s : ModbusClient) (request : ModbusRequest) :
    Except ErrorCode (List UInt8) → ModbusClient
  | .error ec =>
      let reason := if s.timed_out_ then "timed out" else ec
      s.fail request ("read body failed: " ++ reason)
  | .ok body =>
      let s := { s.disarm_deadline with read_buffer_ := s.read_buffer_ ++ body }
      match decode_response s.read_buffer_ with
      | none => s.close_socket.callback request (.error ⟨"failed to decode response"⟩)
      | some response =>
          if response.transaction_id ≠ request.transaction_id then
            s.close_socket.callback request (.error ⟨"transaction id mismatch"⟩)
          else if response.is_exception then
            s.callback request
              (.error ⟨"device exception code " ++ toString response.exception_code.toNat⟩)
          else s.callback request (.ok response.registers)

/-! ## (5) Events -/

/-- The request of a call, numbered by the client. -/
def request_of (transaction_id : UInt16) : Command → Option ModbusRequest
  | .connect => none
  | .read_holding_registers unit_id start_address quantity =>
      some ⟨transaction_id, unit_id, .read_holding_registers, start_address, quantity⟩
  | .read_input_registers unit_id start_address quantity =>
      some ⟨transaction_id, unit_id, .read_input_registers, start_address, quantity⟩
  | .write_single_register unit_id address value =>
      some ⟨transaction_id, unit_id, .write_single_register, address, value⟩

/-- What the environment does, or a handler that runs. -/
inductive Event where
  /-- A call's body runs on the strand. -/
  | call (command : Command)
  /-- The body of `close()` runs. -/
  | close
  /-- Bytes arrive from the device. -/
  | arrive (bytes : List UInt8)
  /-- The operation in flight completes and its handler is queued. -/
  | completes (result : Except ErrorCode Unit)
  /-- The queued handler of the operation in flight runs. -/
  | runHandler
  /-- The deadline passes: pending waits complete. -/
  | deadlinePasses
  /-- The queued handler of a wait runs. -/
  | runDeadline (wait : Wait)
  deriving DecidableEq

/-- The body of a call. -/
def call (s : ModbusClient) (command : Command) : ModbusClient :=
  let s := { s with calls := s.calls + 1, closeCalled := false, stream := s.received }
  match request_of s.next_transaction_id_ command with
  | none => s.connect
  | some request =>
      { s with next_transaction_id_ := s.next_transaction_id_ + 1 }.send_request request

/-- A read completes with success once all its bytes have arrived, and takes them. -/
def readCompletes (s : ModbusClient) (wanted : Nat) (result : Except ErrorCode Unit)
    (operation : AsyncOp (List UInt8) → Operation) : Option ModbusClient :=
  match result with
  | .error ec => some { s with operation := some (operation (.completed (.error ec))) }
  | .ok () =>
      if wanted ≤ s.received.length then
        some { s with
          operation := some (operation (.completed (.ok (s.received.take wanted))))
          received := s.received.drop wanted }
      else none

/-- The operation in flight completes. -/
def completes (s : ModbusClient) (result : Except ErrorCode Unit) : Option ModbusClient :=
  match s.operation with
  | some (.resolve .pending) => some { s with operation := some (.resolve (.completed result)) }
  | some (.connect .pending) => some { s with operation := some (.connect (.completed result)) }
  | some (.write request .pending) =>
      some { s with operation := some (.write request (.completed result)) }
  | some (.readHeader request .pending) => s.readCompletes 7 result (.readHeader request)
  | some (.readBody request remaining .pending) =>
      s.readCompletes remaining result (.readBody request remaining)
  | _ => none

/-- The handler of the operation in flight runs. The operation is over then: unless the handler's
body starts another one or runs the callback, nothing ever will. -/
def runHandler (s : ModbusClient) : Option ModbusClient :=
  match s.operation with
  | some (.resolve (.completed result)) => some ({ s with operation := none }.resolve_done result)
  | some (.connect (.completed result)) => some ({ s with operation := none }.connect_done result)
  | some (.write request (.completed result)) =>
      some ({ s with operation := none }.write_done request result)
  | some (.readHeader request (.completed result)) =>
      some ({ s with operation := none }.header_done request result)
  | some (.readBody request _ (.completed result)) =>
      some ({ s with operation := none }.body_done request result)
  | _ => none

/-- The handler of a queued wait runs. -/
def runDeadline (s : ModbusClient) (wait : Wait) : Option ModbusClient :=
  match wait.op with
  | .pending => none
  | .completed result =>
      if wait ∈ s.waits then
        some ({ s with waits := s.waits.erase wait }.expire wait.generation result)
      else none

/-- One event. A call waits for the callback of the one before. -/
def step (s : ModbusClient) : Event → Option ModbusClient
  | .call command => if s.operation.isNone then some (s.call command) else none
  | .close => some { s with closeCalled := true }.disarm_deadline.close_socket
  | .arrive bytes =>
      if s.socketOpen then
        some { s with received := s.received ++ bytes, stream := s.stream ++ bytes }
      else none
  | .completes result => s.completes result
  | .runHandler => s.runHandler
  | .deadlinePasses => some { s with waits := s.waits.map Wait.pass }
  | .runDeadline wait => s.runDeadline wait

end ModbusClient

end Ironpulse.Protocol
