import Mathlib.Data.List.OfFn

/-! # Modbus TCP frames

`src/protocol/frame_codec.cpp`: requests are encoded into, and responses decoded from, an MBAP header
(transaction id, protocol id, length, unit id) followed by a PDU that starts with a function code.
Every access to the buffer carries the proof that it lies inside.

* **`encode_request`**: the twelve bytes of a request.
* **`expected_frame_length`**: the length that a header announces.
* **`decode_response`**: a whole frame, or nothing. -/

namespace Ironpulse.Protocol

/-! ## (1) Requests and responses -/

/-- The Modbus function codes that the client uses. -/
inductive FunctionCode where
  | read_holding_registers
  | read_input_registers
  | write_single_register
  deriving DecidableEq

namespace FunctionCode

/-- The byte of a function code. -/
def toByte : FunctionCode → UInt8
  | read_holding_registers => 0x03
  | read_input_registers => 0x04
  | write_single_register => 0x06

/-- The byte as one of the three codes. -/
def ofByte (byte : UInt8) : Option FunctionCode :=
  if byte = 0x03 then some read_holding_registers
  else if byte = 0x04 then some read_input_registers
  else if byte = 0x06 then some write_single_register
  else none

/-- A function code is told from its byte. -/
@[simp] theorem ofByte_toByte (function : FunctionCode) :
    ofByte function.toByte = some function := by
  cases function <;> rfl

/-- The byte that was read is that of the function code. -/
theorem toByte_of_ofByte {byte : UInt8} {function : FunctionCode}
    (h : ofByte byte = some function) : function.toByte = byte := by
  unfold ofByte at h
  split_ifs at h with h3 h4 h6
  all_goals
    rw [← Option.some.inj h]
    symm
    assumption

end FunctionCode

/-- `ModbusRequest`. -/
structure ModbusRequest where
  transaction_id : UInt16
  unit_id : UInt8
  function : FunctionCode
  start_address : UInt16
  quantity_or_value : UInt16
  deriving DecidableEq

/-- A decoded response. -/
structure ModbusResponse where
  transaction_id : UInt16
  unit_id : UInt8
  function : FunctionCode
  is_exception : Bool := false
  exception_code : UInt8 := 0
  registers : List UInt16 := []
  deriving DecidableEq

/-! ## (2) Encoding and decoding -/

/-- `kProtocolId`. -/
def kProtocolId : UInt16 := 0x0000

/-- `kMbapHeaderLength`. -/
def kMbapHeaderLength : Nat := 7

/-- The bit that marks an exception response. -/
def exception_bit : UInt8 := 0x80

/-- The bytes that `push_u16` appends: high byte first. -/
def u16_bytes (value : UInt16) : List UInt8 := [(value >>> 8).toUInt8, (value &&& 0xFF).toUInt8]

/-- A high and a low byte put together. -/
def u16 (high low : UInt8) : UInt16 := (high.toUInt16 <<< 8) ||| low.toUInt16

/-- The bytes at `offset` and after it. -/
def read_u16 (buf : List UInt8) (offset : Nat) (h : offset + 1 < buf.length) : UInt16 :=
  u16 buf[offset] buf[offset + 1]

/-- `encode_request`. -/
def encode_request (request : ModbusRequest) : List UInt8 :=
  let pdu_length : UInt16 := 5
  u16_bytes request.transaction_id ++ u16_bytes kProtocolId ++ u16_bytes (pdu_length + 1) ++
    [request.unit_id, request.function.toByte] ++ u16_bytes request.start_address ++
    u16_bytes request.quantity_or_value

/-- The length of the frame with this header: the unit byte and a PDU of 1 to 253 bytes. -/
def expected_frame_length (header_bytes : List UInt8) : Option Nat :=
  if h : header_bytes.length < kMbapHeaderLength then none
  else
    have hlength : 7 ≤ header_bytes.length := Nat.not_lt.mp h
    if read_u16 header_bytes 2 (by omega) ≠ kProtocolId then none
    else
      let length_field := read_u16 header_bytes 4 (by omega)
      if length_field < 2 ∨ length_field > 254 then none
      else some (6 + length_field.toNat)

/-- A frame has between 8 and 260 bytes. -/
theorem le_of_expected_frame_length {header_bytes : List UInt8} {total : Nat}
    (h : expected_frame_length header_bytes = some total) : 8 ≤ total ∧ total ≤ 260 := by
  unfold expected_frame_length at h
  split at h
  · cases h
  dsimp only at h
  split_ifs at h with hprotocol hrange
  rw [not_or, UInt16.not_lt, gt_iff_lt, UInt16.not_lt, UInt16.le_iff_toNat_le,
    UInt16.le_iff_toNat_le] at hrange
  have hmin : (2 : UInt16).toNat = 2 := rfl
  have hmax : (254 : UInt16).toNat = 254 := rfl
  rw [hmin, hmax] at hrange
  have htotal := Option.some.inj h
  omega

/-- The registers of a read reply. -/
def decode_registers (buffer : List UInt8) : Option (List UInt16) :=
  if h : buffer.length < 9 then none
  else
    let byte_count := buffer[8]
    if hcount : byte_count = 0 ∨ byte_count > 250 ∨ byte_count % 2 ≠ 0 ∨
        buffer.length ≠ 9 + byte_count.toNat then none
    else
      have hlength : buffer.length = 9 + byte_count.toNat := by
        by_contra hne
        exact hcount (.inr (.inr (.inr hne)))
      some (List.ofFn fun i : Fin (byte_count.toNat / 2) =>
        read_u16 buffer (9 + i * 2) (by omega))

/-- **Decoding a response**: `none` unless the buffer is one whole well-formed frame. -/
def decode_response (buffer : List UInt8) : Option ModbusResponse :=
  if h : expected_frame_length buffer = some buffer.length then
    have hlength : 8 ≤ buffer.length := (le_of_expected_frame_length h).1
    let transaction_id := read_u16 buffer 0 (by omega)
    let unit_id := buffer[6]
    let function_byte := buffer[7]
    let is_exception := function_byte &&& exception_bit ≠ 0
    match FunctionCode.ofByte (function_byte &&& ~~~exception_bit) with
    | none => none
    | some function =>
        if is_exception then
          if hexception : buffer.length ≠ 9 then none
          else
            some { transaction_id, unit_id, function, is_exception := true,
                   exception_code := buffer[8] }
        else if function = .write_single_register then
          -- the echo of the address (at 8) is not kept
          if hecho : buffer.length ≠ 12 then none
          else
            some { transaction_id, unit_id, function,
                   registers := [read_u16 buffer 10 (by omega)] }
        else
          (decode_registers buffer).map fun registers =>
            { transaction_id, unit_id, function, registers }
  else none

example : decode_response (u16_bytes 7 ++ [0, 0, 0, 7, 1, 3, 4, 0x12, 0x34, 0xAB, 0xCD]) =
    some { transaction_id := 7, unit_id := 1, function := .read_holding_registers,
           registers := [0x1234, 0xABCD] } := by decide

end Ironpulse.Protocol
