import Ironpulse.Protocol.FrameGrammar
import Mathlib.Data.List.FinRange

/-! # Decoding replies without a read out of range

`src/protocol/frame_codec.cpp` indexes the buffer without a check of its own, and an index past the
end would be undefined. Here every read is a step that can fault, and the decoder is written with
these steps.

* **`Fault`**, **`byte_at`**, **`word_at`**: reads that fault past the end.
* **`run_decode_response`**: the decoder's reads, one after the other.
* **`run_decode_response_eq`**: no run faults, and it ends with `decode_response`'s result.
* **`decode_response_grammar`**: the decoder accepts exactly the grammar of replies. -/

namespace Ironpulse.Protocol

/-! ## (1) Reads that can fault -/

/-- A read at an index that the buffer does not have. -/
structure Fault where
  index : Nat
  size : Nat
  deriving DecidableEq

/-- `buf[index]`. -/
def byte_at (buf : List UInt8) (index : Nat) : Except Fault UInt8 :=
  if h : index < buf.length then .ok buf[index] else .error ⟨index, buf.length⟩

/-- `read_u16` with its two reads. -/
def word_at (buf : List UInt8) (offset : Nat) : Except Fault UInt16 := do
  let high ← byte_at buf offset
  let low ← byte_at buf (offset + 1)
  return u16 high low

/-- A byte inside the buffer is read. -/
@[simp] theorem byte_at_of_lt {buf : List UInt8} {index : Nat} (h : index < buf.length) :
    byte_at buf index = .ok buf[index] :=
  dif_pos h

/-- A word inside the buffer is read. -/
@[simp] theorem word_at_of_lt {buf : List UInt8} {offset : Nat} (h : offset + 1 < buf.length) :
    word_at buf offset = .ok (read_u16 buf offset h) := by
  rw [word_at, byte_at_of_lt (Nat.lt_of_succ_lt h), byte_at_of_lt h]
  rfl

/-- `expected_frame_length` with its reads. -/
def run_expected_frame_length (header_bytes : List UInt8) : Except Fault (Option Nat) := do
  if header_bytes.length < kMbapHeaderLength then return none
  if (← word_at header_bytes 2) ≠ kProtocolId then return none
  let length_field ← word_at header_bytes 4
  if length_field < 2 ∨ length_field > 254 then return none
  return some (6 + length_field.toNat)

/-- The registers of a read reply of `total_length` bytes, with their reads. -/
def run_decode_registers (buffer : List UInt8) (total_length : Nat) :
    Except Fault (Option (List UInt16)) := do
  if total_length < 9 then return none
  let byte_count ← byte_at buffer 8
  if byte_count = 0 ∨ byte_count > 250 ∨ byte_count % 2 ≠ 0 ∨
      total_length ≠ 9 + byte_count.toNat then return none
  return some (← (List.range (byte_count.toNat / 2)).mapM fun i => word_at buffer (9 + i * 2))

/-- `decode_response` with its reads. -/
def run_decode_response (buffer : List UInt8) : Except Fault (Option ModbusResponse) := do
  let some total_length ← run_expected_frame_length buffer | return none
  if buffer.length ≠ total_length then return none
  let transaction_id ← word_at buffer 0
  let unit_id ← byte_at buffer 6
  let function_byte ← byte_at buffer 7
  let some function := FunctionCode.ofByte (function_byte &&& ~~~exception_bit) | return none
  if function_byte &&& exception_bit ≠ 0 then
    if total_length ≠ 9 then return none
    let exception_code ← byte_at buffer 8
    return some { transaction_id, unit_id, function, is_exception := true, exception_code }
  if function = .write_single_register then
    if total_length ≠ 12 then return none
    let value ← word_at buffer 10
    return some { transaction_id, unit_id, function, registers := [value] }
  let some registers ← run_decode_registers buffer total_length | return none
  return some { transaction_id, unit_id, function, registers }

/-! ## (2) No run faults -/

/-- **Looking for the length of a frame never reads outside the header**. -/
@[simp] theorem run_expected_frame_length_eq (header_bytes : List UInt8) :
    run_expected_frame_length header_bytes = .ok (expected_frame_length header_bytes) := by
  unfold run_expected_frame_length expected_frame_length
  by_cases hshort : header_bytes.length < kMbapHeaderLength
  · simp [hshort, pure, Except.pure]
  · have hlength : 7 ≤ header_bytes.length := Nat.not_lt.mp hshort
    rw [word_at_of_lt (show 2 + 1 < header_bytes.length by omega),
      word_at_of_lt (show 4 + 1 < header_bytes.length by omega), if_neg hshort, dif_neg hshort]
    simp only [Except.bind, bind, pure, Except.pure]
    split_ifs <;> rfl

/-- A loop whose steps do not fault does not fault. -/
theorem mapM_of_forall_ok {α β : Type} {f : α → Except Fault β} {g : α → β} {l : List α}
    (h : ∀ x ∈ l, f x = .ok (g x)) : l.mapM f = .ok (l.map g) := by
  induction l with
  | nil => rfl
  | cons x l ih =>
      rw [List.forall_mem_cons] at h
      rw [List.mapM_cons, h.1, ih h.2]
      rfl

/-- Decoding registers never reads outside the buffer. -/
@[simp] theorem run_decode_registers_eq (buffer : List UInt8) :
    run_decode_registers buffer buffer.length = .ok (decode_registers buffer) := by
  unfold run_decode_registers decode_registers
  by_cases hshort : buffer.length < 9
  · rw [if_pos hshort, dif_pos hshort]
    rfl
  · rw [if_neg hshort, dif_neg hshort, byte_at_of_lt (show 8 < buffer.length by omega)]
    simp only [Except.bind, bind, pure, Except.pure]
    split_ifs with hcount
    · rfl
    -- the byte count fits, so the loop stays in the buffer
    have hlength : buffer.length = 9 + buffer[8].toNat := by
      by_contra hne
      exact hcount (.inr (.inr (.inr hne)))
    rw [← List.map_coe_finRange_eq_range, List.mapM_map, List.ofFn_eq_map,
      mapM_of_forall_ok fun i _ => word_at_of_lt (show 9 + i.val * 2 + 1 < buffer.length by omega)]

/-- **No read of the decoder is out of range**, whatever the bytes are. -/
theorem run_decode_response_eq (buffer : List UInt8) :
    run_decode_response buffer = .ok (decode_response buffer) := by
  unfold run_decode_response decode_response
  rw [run_expected_frame_length_eq]
  by_cases hframe : expected_frame_length buffer = some buffer.length
  · -- a frame of its announced length has the bytes that are read
    have hlength : 8 ≤ buffer.length := (le_of_expected_frame_length hframe).1
    rw [dif_pos hframe, hframe, word_at_of_lt (show 0 + 1 < buffer.length by omega),
      byte_at_of_lt (show 6 < buffer.length by omega),
      byte_at_of_lt (show 7 < buffer.length by omega)]
    simp only [Except.bind, bind, pure, Except.pure, ne_eq, not_true_eq_false, if_false]
    cases FunctionCode.ofByte (buffer[7] &&& ~~~exception_bit) with
    | none => rfl
    | some function =>
        dsimp only
        by_cases hexception : buffer[7] &&& exception_bit = 0
        · rw [if_neg (not_not.mpr hexception), if_neg (not_not.mpr hexception)]
          by_cases hwrite : function = .write_single_register
          · rw [if_pos hwrite, if_pos hwrite]
            by_cases htwelve : buffer.length = 12
            · rw [if_neg (not_not.mpr htwelve), dif_neg (not_not.mpr htwelve),
                word_at_of_lt (show 10 + 1 < buffer.length by omega)]
            · rw [if_pos htwelve, dif_pos htwelve]
          · rw [if_neg hwrite, if_neg hwrite, run_decode_registers_eq]
            cases decode_registers buffer <;> rfl
        · rw [if_pos hexception, if_pos hexception]
          by_cases hnine : buffer.length = 9
          · rw [if_neg (not_not.mpr hnine), dif_neg (not_not.mpr hnine),
              byte_at_of_lt (show 8 < buffer.length by omega)]
          · rw [if_pos hnine, dif_pos hnine]
  · rw [dif_neg hframe]
    cases hexpected : expected_frame_length buffer with
    | none => rfl
    | some total_length =>
        -- any other length is rejected before anything is read
        have hne : buffer.length ≠ total_length := fun heq => hframe (heq ▸ hexpected)
        change (if buffer.length ≠ total_length then Except.ok none else _) = _
        rw [if_pos hne]

/-! ## (3) The whole grammar -/

/-- A response as the bytes that the grammar has for it. The address that a write's echo repeats is
not a field of the response. -/
def ModbusResponse.encode (response : ModbusResponse) (address : UInt16) : List UInt8 :=
  let pdu :=
    if response.is_exception then
      [response.function.toByte ||| exception_bit, response.exception_code]
    else if response.function = .write_single_register then
      response.function.toByte :: u16_bytes address ++ response.registers.flatMap u16_bytes
    else
      response.function.toByte :: UInt8.ofNat (2 * response.registers.length) ::
        response.registers.flatMap u16_bytes
  u16_bytes response.transaction_id ++ u16_bytes kProtocolId ++
    u16_bytes (UInt16.ofNat (1 + pdu.length)) ++ response.unit_id :: pdu

/-- The fields of a reply determine its bytes, up to the address of a write. -/
theorem Reply.exists_encode_response (reply : Reply) :
    ∃ address, reply.response.encode address = reply.bytes := by
  obtain ⟨transaction_id, unit_id, pdu⟩ := reply
  cases pdu with
  -- a read reply is the function with its registers; the address is not part of it
  | read function registers hread hnonempty hbounded =>
      refine ⟨0, ?_⟩
      rw [ModbusResponse.encode, Reply.bytes, Reply.response, Pdu.bytes]
      dsimp only
      rw [if_neg Bool.false_ne_true, if_neg hread]
  | writeEcho address value =>
      refine ⟨address, ?_⟩
      rw [ModbusResponse.encode, Reply.bytes, Reply.response, Pdu.bytes]
      dsimp only
      rw [if_neg Bool.false_ne_true, if_pos rfl, List.flatMap_singleton]
  | exception function code =>
      exact ⟨0, rfl⟩

/-- The announced length depends on the header only. -/
theorem expected_frame_length_of_isPrefix {buffer other : List UInt8} (h : buffer <+: other)
    (hlength : 7 ≤ buffer.length) : expected_frame_length other = expected_frame_length buffer := by
  obtain ⟨rest, rfl⟩ := h
  match buffer, hlength with
  | t₁ :: t₂ :: p₁ :: p₂ :: l₁ :: l₂ :: u :: bytes, _ =>
      change expected_frame_length (t₁ :: t₂ :: p₁ :: p₂ :: l₁ :: l₂ :: u :: (bytes ++ rest)) = _
      rw [expected_frame_length_cons, expected_frame_length_cons]

/-- A response that is decoded has the length that its header announced. -/
theorem expected_frame_length_of_decode_response {buffer : List UInt8} {response : ModbusResponse}
    (h : decode_response buffer = some response) :
    expected_frame_length buffer = some buffer.length := by
  by_contra hframe
  rw [decode_response, dif_neg hframe] at h
  cases h

/-- **Accepted frames are not prefixes of each other.** -/
theorem eq_of_prefix_of_decode_response {buffer other : List UInt8}
    {response response' : ModbusResponse} (hstart : buffer <+: other)
    (h : decode_response buffer = some response) (h' : decode_response other = some response') :
    buffer = other := by
  have hframe := expected_frame_length_of_decode_response h
  have hframe' := expected_frame_length_of_decode_response h'
  have hlength : 8 ≤ buffer.length := (le_of_expected_frame_length hframe).1
  rw [expected_frame_length_of_isPrefix hstart (by omega), hframe] at hframe'
  exact hstart.eq_of_length (Option.some.inj hframe')

/-- **`decode_response` accepts exactly the grammar of replies**: it never reads past the end, its
results are the fields of the replies that the bytes spell, they spell the bytes again, and neither
a shorter nor a longer buffer is accepted as well. -/
theorem decode_response_grammar (buffer : List UInt8) :
    run_decode_response buffer = .ok (decode_response buffer) ∧
      (∀ response, decode_response buffer = some response ↔
        ∃ reply : Reply, reply.bytes = buffer ∧ reply.response = response) ∧
      ∀ response, decode_response buffer = some response →
        (∃ address, response.encode address = buffer) ∧
          ∀ other, other <+: buffer ∨ buffer <+: other → other ≠ buffer →
            decode_response other = none := by
  refine ⟨run_decode_response_eq buffer, fun response => decode_response_eq_some_iff, ?_⟩
  intro response h
  constructor
  · obtain ⟨reply, rfl, rfl⟩ := decode_response_eq_some_iff.mp h
    exact reply.exists_encode_response
  · intro other hprefix hne
    by_contra hsome
    obtain ⟨response', h'⟩ := Option.ne_none_iff_exists'.mp hsome
    rcases hprefix with hprefix | hprefix
    · exact hne (eq_of_prefix_of_decode_response hprefix h' h)
    · exact hne (eq_of_prefix_of_decode_response hprefix h h').symm

end Ironpulse.Protocol
