import Ironpulse.Asio

/-! # `WsConnection`: one WebSocket connection as a step machine

The state of an open connection, from the moment its handshake response is written
(`open_ = true`, `read_frame_header()`), and the handlers that run on its strand
(`src/api/ws_server.cpp`). An event is either something the operating system does (bytes arrive, the
pending read or write completes and its handler is queued) or a strand handler that runs.

* **`WsConnection`**: the members of the class, the operations in flight, the bytes that arrived, and
  on record the calls that the handlers made.
* **`close`, `write_next`, `enqueue`, `handle_frame`, `read_done`**: the bodies of the handlers.
* **`step`**: one event; the state machine whose runs are the orders of events. -/

namespace Ironpulse.Api

/-! ## (1) State -/

/-- Frames a client may send us at most. -/
def kMaxIncomingPayload : UInt64 := 64 * 1024

/-- Frames that may wait in the outbox; a client further behind is disconnected. -/
def kMaxQueuedFrames : Nat := 512

/-- A text frame. -/
def kOpText : UInt8 := 0x1

/-- A close frame. -/
def kOpClose : UInt8 := 0x8

/-- A ping. -/
def kOpPing : UInt8 := 0x9

/-- The answer to a ping. -/
def kOpPong : UInt8 := 0xA

/-- An outgoing frame. Two frames with the same bytes are still two `shared_ptr`s, told apart by
`address`. -/
structure Frame where
  address : Nat
  bytes : List UInt8
  deriving DecidableEq

/-- What a handler does with an outgoing frame. -/
inductive Call where
  /-- `outbox_.push_back(frame)`. -/
  | push_back (frame : Frame)
  /-- `asio::async_write(socket_, asio::buffer(*frame), ..)`. -/
  | async_write (frame : Frame)
  deriving DecidableEq

namespace Call

/-- The frame that the call queues. -/
def queued : Call → Option Frame
  | push_back frame => some frame
  | async_write _ => none

/-- The frame that the call hands to the socket. -/
def written : Call → Option Frame
  | push_back _ => none
  | async_write frame => some frame

end Call

/-- Which of the chained reads of the frame loop is in flight. -/
inductive ReadStage where
  /-- The first two bytes of a frame. -/
  | header
  /-- The extended length: two or eight bytes. -/
  | length (opcode : UInt8) (masked : Bool) (size : Nat)
  /-- The four bytes of the mask key. -/
  | mask (opcode : UInt8) (len : UInt64)
  /-- The payload. -/
  | payload (opcode : UInt8) (len : UInt64) (mask_key : List UInt8)
  deriving DecidableEq

/-- How many bytes the read of a stage asks for. -/
def ReadStage.wanted : ReadStage → Nat
  | .header => 2
  | .length _ _ size => size
  | .mask _ _ => 4
  | .payload _ len _ => len.toNat

/-- An open connection, its operations in flight, and the bytes that have arrived from the client and
were not read yet. The last three fields are the history of the handlers; no handler reads them. -/
structure WsConnection where
  outbox_ : List Frame := []
  writing_ : Bool := false
  open_ : Bool := true
  closed_ : Bool := false
  /-- The `async_write` in flight and the frame its handler holds. -/
  write : Option (Frame × AsyncOp Unit) := none
  /-- The `async_read` in flight. -/
  read : Option (ReadStage × AsyncOp (List UInt8)) := some (.header, .pending)
  received : List UInt8 := []
  /-- Frames allocated so far. -/
  allocated : Nat := 0
  /-- `outbox_.pop_front()` was executed on an empty deque, which is undefined behaviour. -/
  popped_empty : Bool := false
  /-- What the handlers did with outgoing frames, first to last. -/
  calls : List Call := []
  /-- The opcodes and payloads of the calls of `handle_frame`, first to last. -/
  handled : List (UInt8 × List UInt8) := []
  /-- The sizes of the payload buffers that were allocated. -/
  buffers : List Nat := []
  deriving DecidableEq

/-- The connection when `start()`'s handler has just begun to read frames. -/
def WsConnection.opened : WsConnection := {}

/-- `make_frame`: FIN and opcode, the length in its shortest form, the payload. -/
def make_frame (opcode : UInt8) (data : List UInt8) : List UInt8 :=
  let len := data.length
  let lengthBytes : List UInt8 :=
    if len ≤ 125 then [UInt8.ofNat len]
    else if len ≤ 0xFFFF then [126, UInt8.ofNat (len >>> 8), UInt8.ofNat len]
    else 127 :: [7, 6, 5, 4, 3, 2, 1, 0].map fun i => UInt8.ofNat (len >>> (i * 8))
  (0x80 ||| opcode) :: lengthBytes ++ data

/-! ## (2) Handlers -/

namespace WsConnection

/-- `close()`: runs once. Closing the socket aborts the operations that are still pending. -/
def close (s : WsConnection) : WsConnection :=
  if s.closed_ then s
  else
    { s with
      closed_ := true
      open_ := false
      outbox_ := []
      write := s.write.map fun (frame, op) => (frame, op.abort)
      read := s.read.map fun (stage, op) => (stage, op.abort) }

/-- `write_next()`: starts the write of the front frame. -/
def write_next (s : WsConnection) : WsConnection :=
  if s.closed_ then { s with writing_ := false }
  else
    match s.outbox_ with
    | [] => { s with writing_ := false }
    | frame :: _ =>
        { s with
          writing_ := true
          write := some (frame, .pending)
          calls := s.calls ++ [.async_write frame] }

/-- The end of `enqueue`: `outbox_.push_back(frame)`, and a write unless one is in flight. -/
def push_back (s : WsConnection) (bytes : List UInt8) : WsConnection :=
  let frame : Frame := { address := s.allocated, bytes := bytes }
  let queued := { s with
    outbox_ := s.outbox_ ++ [frame]
    allocated := s.allocated + 1
    calls := s.calls ++ [.push_back frame] }
  if s.writing_ then queued else queued.write_next

/-- `enqueue(frame)`: a client with a full queue is disconnected. -/
def enqueue (s : WsConnection) (bytes : List UInt8) : WsConnection :=
  if s.closed_ then s
  else if s.outbox_.length ≥ kMaxQueuedFrames then s.close
  else s.push_back bytes

/-- `outbox_.pop_front()`. -/
def pop_front (s : WsConnection) : WsConnection :=
  { s with outbox_ := s.outbox_.tail, popped_empty := s.popped_empty || s.outbox_.isEmpty }

/-- Starts the read of a stage on the socket. -/
def start_read (s : WsConnection) (stage : ReadStage) : WsConnection :=
  { s with read := some (stage, AsyncOp.start !s.closed_) }

/-- `read_frame_header()`. -/
def read_frame_header (s : WsConnection) : WsConnection := s.start_read .header

/-- `handle_frame`: a close frame closes, a ping is answered, anything else is ignored. -/
def handle_frame (s : WsConnection) (payload : List UInt8) (opcode : UInt8) : WsConnection :=
  let s := { s with handled := s.handled ++ [(opcode, payload)] }
  if opcode = kOpClose then s.close
  else if opcode = kOpPing then s.enqueue (make_frame kOpPong (payload.take 125))
  else s

/-- `finish_with_length`: refuses unmasked and over-long frames, else reads the mask key. -/
def finish_with_length (s : WsConnection) (opcode : UInt8) (masked : Bool) (len : UInt64) :
    WsConnection :=
  if !masked || len > kMaxIncomingPayload then s.close else s.start_read (.mask opcode len)

/-- The big-endian number that the bytes of an extended length spell, in 64 bits. -/
def extended_length (ext : List UInt8) : UInt64 :=
  ext.foldl (fun len byte => (len <<< 8) ||| byte.toUInt64) 0

/-- Byte `i` of the payload is unmasked with byte `i % 4` of the key. -/
def unmask (payload mask_key : List UInt8) : List UInt8 :=
  payload.mapIdx fun i byte => byte ^^^ mask_key.getD (i % 4) 0

/-- The completion handler of the read in flight when it succeeded with these bytes. -/
def read_done (s : WsConnection) (stage : ReadStage) (bytes : List UInt8) : WsConnection :=
  match stage with
  | .header =>
      let opcode := bytes.getD 0 0 &&& 0x0F
      let masked := bytes.getD 1 0 &&& 0x80 ≠ 0
      let payload_len := bytes.getD 1 0 &&& 0x7F
      if payload_len = 126 then s.start_read (.length opcode masked 2)
      else if payload_len = 127 then s.start_read (.length opcode masked 8)
      else s.finish_with_length opcode masked payload_len.toUInt64
  | .length opcode masked _ => s.finish_with_length opcode masked (extended_length bytes)
  | .mask opcode len =>
      let s := { s with buffers := s.buffers ++ [len.toNat] }
      if len = 0 then (s.handle_frame [] opcode).read_frame_header
      else s.start_read (.payload opcode len bytes)
  | .payload opcode _ mask_key => (s.handle_frame (unmask bytes mask_key) opcode).read_frame_header

/-- What happens next to a connection. -/
inductive Event where
  /-- Bytes arrive from the client. -/
  | arrive (bytes : List UInt8)
  /-- The pending write completes and its handler is queued. -/
  | writeCompletes (result : Except ErrorCode Unit)
  /-- The pending read completes and its handler is queued. -/
  | readCompletes (result : Except ErrorCode Unit)
  /-- The handler posted by `send_text` runs `enqueue`. -/
  | runText (payload : List UInt8)
  /-- The completion handler of the write runs. -/
  | runWrite
  /-- The completion handler of the read runs. -/
  | runRead
  deriving DecidableEq

/-- The completion handler of the `async_write`. -/
def run_write (s : WsConnection) : Option WsConnection :=
  match s.write with
  | some (_, .completed (.error _)) => some { s with write := none }.close
  | some (_, .completed (.ok ())) => some { s with write := none }.pop_front.write_next
  | _ => none

/-- The completion handler of the `async_read`. -/
def run_read (s : WsConnection) : Option WsConnection :=
  match s.read with
  | some (_, .completed (.error _)) => some { s with read := none }.close
  | some (stage, .completed (.ok bytes)) => some ({ s with read := none }.read_done stage bytes)
  | _ => none

/-- A read completes with success once all its bytes have arrived, and takes them. -/
def read_completes (s : WsConnection) (result : Except ErrorCode Unit) : Option WsConnection :=
  match s.read, result with
  | some (stage, .pending), .error ec => some { s with read := some (stage, .completed (.error ec)) }
  | some (stage, .pending), .ok () =>
      if stage.wanted ≤ s.received.length then
        some { s with
          read := some (stage, .completed (.ok (s.received.take stage.wanted)))
          received := s.received.drop stage.wanted }
      else none
  | _, _ => none

/-- One event. -/
def step (s : WsConnection) : Event → Option WsConnection
  | .arrive bytes => some { s with received := s.received ++ bytes }
  | .writeCompletes result =>
      match s.write with
      | some (frame, .pending) => some { s with write := some (frame, .completed result) }
      | _ => none
  | .readCompletes result => s.read_completes result
  | .runText payload => some (s.enqueue (make_frame kOpText payload))
  | .runWrite => s.run_write
  | .runRead => s.run_read

end WsConnection

end Ironpulse.Api
