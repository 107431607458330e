import Ironpulse.Protocol.FrameCodec

/-! # The grammar of Modbus TCP replies

A reply is an MBAP header around one of three PDUs: the registers of a read, the echo of a write or
an exception. The decoder accepts exactly the bytes of such replies and returns their fields.

* **`Reply`**: a well-formed reply; a PDU with no registers, or too many, cannot be built.
* **`Reply.bytes`, `Reply.response`**: its bytes and its fields.
* **`decode_response_eq_some_iff`**: the decoder inverts `Reply.bytes` and accepts nothing else. -/

namespace Ironpulse.Protocol

/-! ## (1) Replies -/

/-- What follows the MBAP header of a reply. -/
inductive Pdu where
  | read (function : FunctionCode) (registers : List UInt16)
      (isRead : function ≠ .write_single_register) (nonempty : registers ≠ [])
      (bounded : registers.length ≤ 125)
  | writeEcho (address value : UInt16)
  | exception (function : FunctionCode) (code : UInt8)

namespace Pdu

/-- The function code and what follows it. -/
def bytes : Pdu → List UInt8
  | read function registers _ _ _ =>
      function.toByte :: UInt8.ofNat (2 * registers.length) :: registers.flatMap u16_bytes
  | writeEcho address value =>
      FunctionCode.write_single_register.toByte :: u16_bytes address ++ u16_bytes value
  | exception function code => [function.toByte ||| exception_bit, code]

end Pdu

/-- A reply of the protocol. -/
structure Reply where
  transaction_id : UInt16
  unit_id : UInt8
  pdu : Pdu

namespace Reply

/-- The frame of a reply. -/
def bytes (reply : Reply) : List UInt8 :=
  u16_bytes reply.transaction_id ++ u16_bytes kProtocolId ++
    u16_bytes (UInt16.ofNat (1 + reply.pdu.bytes.length)) ++ reply.unit_id :: reply.pdu.bytes

/-- The fields that the decoder keeps. -/
def response (reply : Reply) : ModbusResponse :=
  match reply.pdu with
  | .read function registers _ _ _ =>
      { transaction_id := reply.transaction_id, unit_id := reply.unit_id, function, registers }
  | .writeEcho _ value =>
      { transaction_id := reply.transaction_id, unit_id := reply.unit_id,
        function := .write_single_register, registers := [value] }
  | .exception function code =>
      { transaction_id := reply.transaction_id, unit_id := reply.unit_id, function,
        is_exception := true, exception_code := code }

/-- The decoded response has the transaction of the reply. -/
@[simp] theorem transaction_id_response (reply : Reply) :
    reply.response.transaction_id = reply.transaction_id := by
  unfold response
  split <;> rfl

/-- The decoded response has the unit of the reply. -/
@[simp] theorem unit_id_response (reply : Reply) : reply.response.unit_id = reply.unit_id := by
  unfold response
  split <;> rfl

end Reply

/-! ## (2) Words -/

/-- A word is its high byte times 256 plus its low byte. -/
theorem toNat_u16 (high low : UInt8) : (u16 high low).toNat = 256 * high.toNat + low.toNat := by
  have hhigh := high.toNat_lt
  have hlow := low.toNat_lt
  have hshift : high.toNat <<< 8 % 2 ^ 16 = high.toNat <<< 8 := by
    rw [Nat.shiftLeft_eq]
    omega
  rw [u16, UInt16.toNat_or, UInt16.toNat_shiftLeft, UInt8.toNat_toUInt16, UInt8.toNat_toUInt16]
  change high.toNat <<< 8 % 2 ^ 16 ||| low.toNat = _
  rw [hshift, ← Nat.shiftLeft_add_eq_or_of_lt hlow, Nat.shiftLeft_eq]
  omega

/-- The high and the low byte of a word. -/
theorem toNat_u16_bytes (value : UInt16) :
    ((value >>> 8).toUInt8).toNat = value.toNat / 256 ∧
      ((value &&& 0xFF).toUInt8).toNat = value.toNat % 256 := by
  have hlt := value.toNat_lt
  constructor
  · rw [UInt16.toNat_toUInt8, UInt16.toNat_shiftRight]
    change value.toNat >>> 8 % 2 ^ 8 = _
    rw [Nat.shiftRight_eq_div_pow]
    omega
  · rw [UInt16.toNat_toUInt8, UInt16.toNat_and]
    change (value.toNat &&& 2 ^ 8 - 1) % 2 ^ 8 = _
    rw [Nat.and_two_pow_sub_one_eq_mod]
    omega

/-- A word is read back from its two bytes. -/
@[simp] theorem u16_u16_bytes (value : UInt16) :
    u16 (value >>> 8).toUInt8 (value &&& 0xFF).toUInt8 = value := by
  obtain ⟨hhigh, hlow⟩ := toNat_u16_bytes value
  apply UInt16.toNat_inj.mp
  rw [toNat_u16, hhigh, hlow]
  omega

/-- Two bytes are written back from their word. -/
theorem u16_bytes_u16 (high low : UInt8) : u16_bytes (u16 high low) = [high, low] := by
  obtain ⟨hhigh, hlow⟩ := toNat_u16_bytes (u16 high low)
  have hword := toNat_u16 high low
  have hlt := low.toNat_lt
  have h1 : (u16 high low >>> 8).toUInt8 = high := by
    apply UInt8.toNat_inj.mp
    omega
  have h2 : (u16 high low &&& 0xFF).toUInt8 = low := by
    apply UInt8.toNat_inj.mp
    omega
  rw [u16_bytes, h1, h2]

/-- The words that pairs of bytes spell. -/
def words : List UInt8 → List UInt16
  | high :: low :: rest => u16 high low :: words rest
  | _ => []

/-- There are half as many words as bytes. -/
theorem length_words (bytes : List UInt8) : (words bytes).length = bytes.length / 2 := by
  induction bytes using words.induct with
  | case1 high low rest ih =>
      rw [words, List.length_cons, ih, List.length_cons, List.length_cons]
      omega
  | case2 bytes hshort =>
      match bytes with
      | [] => rfl
      | [_] => simp [words]
      | high :: low :: rest => exact absurd rfl (hshort high low rest)

/-- Registers are read back from their bytes. -/
theorem words_flatMap (registers : List UInt16) :
    words (registers.flatMap u16_bytes) = registers := by
  induction registers with
  | nil => rfl
  | cons register registers ih =>
      rw [List.flatMap_cons, u16_bytes, List.cons_append, List.cons_append, List.nil_append, words,
        ih, u16_u16_bytes]

/-- An even number of bytes is written back from its words. -/
theorem flatMap_words {bytes : List UInt8} (h : bytes.length % 2 = 0) :
    (words bytes).flatMap u16_bytes = bytes := by
  induction bytes using words.induct with
  | case1 high low rest ih =>
      rw [List.length_cons, List.length_cons] at h
      rw [words, List.flatMap_cons, ih (by omega), u16_bytes_u16]
      rfl
  | case2 bytes hshort =>
      match bytes with
      | [] => rfl
      | [_] => cases h
      | high :: low :: rest => exact absurd rfl (hshort high low rest)

/-- A word is made of the two bytes at its place. -/
theorem getElem_words {bytes : List UInt8} {i : Nat} (h : i < (words bytes).length)
    (hi : 2 * i + 1 < bytes.length) : (words bytes)[i] = u16 bytes[2 * i] bytes[2 * i + 1] := by
  induction bytes using words.induct generalizing i with
  | case1 high low rest ih =>
      cases i with
      | zero => rfl
      | succ i =>
          rw [words, List.length_cons] at h
          rw [List.length_cons, List.length_cons] at hi
          exact ih (Nat.lt_of_succ_lt_succ h) (by omega)
  | case2 bytes hshort =>
      match bytes, hi with
      | high :: low :: rest, _ => exact absurd rfl (hshort high low rest)

/-- Registers take two bytes each. -/
@[simp] theorem length_flatMap_u16_bytes (registers : List UInt16) :
    (registers.flatMap u16_bytes).length = 2 * registers.length := by
  induction registers with
  | nil => rfl
  | cons register registers ih =>
      rw [List.flatMap_cons, List.length_append, ih, List.length_cons]
      change 2 + _ = _
      omega

/-! ## (3) The decoder on the bytes of a frame -/

section Frame

variable (t₁ t₂ p₁ p₂ l₁ l₂ u f : UInt8) (rest : List UInt8)

/-- The length announced by a whole header. -/
theorem expected_frame_length_cons (bytes : List UInt8) :
    expected_frame_length (t₁ :: t₂ :: p₁ :: p₂ :: l₁ :: l₂ :: u :: bytes) =
      if u16 p₁ p₂ = 0 ∧ 2 ≤ (u16 l₁ l₂).toNat ∧ (u16 l₁ l₂).toNat ≤ 254 then
        some (6 + (u16 l₁ l₂).toNat)
      else none := by
  have hlength : ¬ (t₁ :: t₂ :: p₁ :: p₂ :: l₁ :: l₂ :: u :: bytes).length < kMbapHeaderLength := by
    simp only [List.length_cons, kMbapHeaderLength]
    omega
  rw [expected_frame_length, dif_neg hlength]
  -- the code compares in 16 bits, the statement in numbers
  change (if u16 p₁ p₂ ≠ kProtocolId then none
    else if u16 l₁ l₂ < 2 ∨ u16 l₁ l₂ > 254 then none else some (6 + (u16 l₁ l₂).toNat)) = _
  have hlow : u16 l₁ l₂ < 2 ↔ ¬ 2 ≤ (u16 l₁ l₂).toNat := by
    rw [UInt16.lt_iff_toNat_lt]
    exact Nat.not_le.symm
  have hhigh : u16 l₁ l₂ > 254 ↔ ¬ (u16 l₁ l₂).toNat ≤ 254 := by
    rw [gt_iff_lt, UInt16.lt_iff_toNat_lt]
    exact Nat.not_le.symm
  simp only [hlow, hhigh, kProtocolId, ne_eq, ite_not]
  split_ifs <;> grind

/-- The registers of a read reply, from its byte count on. -/
theorem decode_registers_cons (n : UInt8) (bytes : List UInt8) :
    decode_registers (t₁ :: t₂ :: p₁ :: p₂ :: l₁ :: l₂ :: u :: f :: n :: bytes) =
      if n ≠ 0 ∧ n.toNat ≤ 250 ∧ n.toNat % 2 = 0 ∧ bytes.length = n.toNat then some (words bytes)
      else none := by
  have hlength : ¬ (t₁ :: t₂ :: p₁ :: p₂ :: l₁ :: l₂ :: u :: f :: n :: bytes).length < 9 := by
    simp only [List.length_cons]
    omega
  have hzero : n = 0 ↔ n.toNat = 0 := UInt8.toNat_inj.symm
  have hlarge : n > 250 ↔ 250 < n.toNat := UInt8.lt_iff_toNat_lt
  have hodd : n % 2 = 0 ↔ n.toNat % 2 = 0 := by
    rw [← UInt8.toNat_inj, UInt8.toNat_mod]
    rfl
  have hcond : (n = 0 ∨ n > 250 ∨ n % 2 ≠ 0 ∨
      (t₁ :: t₂ :: p₁ :: p₂ :: l₁ :: l₂ :: u :: f :: n :: bytes).length ≠ 9 + n.toNat) ↔
      ¬ (n ≠ 0 ∧ n.toNat ≤ 250 ∧ n.toNat % 2 = 0 ∧ bytes.length = n.toNat) := by
    simp only [List.length_cons, ne_eq, hzero, hlarge, hodd]
    omega
  rw [decode_registers, dif_neg hlength]
  by_cases hok : n ≠ 0 ∧ n.toNat ≤ 250 ∧ n.toNat % 2 = 0 ∧ bytes.length = n.toNat
  · rw [if_pos hok]
    refine (dif_neg (hcond.not.mpr (not_not.mpr hok))).trans (congrArg some ?_)
    obtain ⟨-, -, heven, hbytes⟩ := hok
    apply List.ext_getElem
    · rw [List.length_ofFn, length_words, hbytes]
      rfl
    · intro i hi hi'
      rw [length_words, hbytes] at hi'
      rw [List.getElem_ofFn, getElem_words _ (by omega)]
      -- the registers start behind nine bytes of header, function code and byte count
      have hindex : 9 + i * 2 = 2 * i + 9 := by omega
      simp only [read_u16, hindex]
      rfl
  · rw [if_neg hok]
    exact dif_pos (hcond.mpr hok)

/-- The PDU behind a header that announces its length, by its shape. -/
def decode_pdu (transaction_id : UInt16) : Option ModbusResponse :=
  match FunctionCode.ofByte (f &&& ~~~exception_bit) with
  | none => none
  | some function =>
      if f &&& exception_bit ≠ 0 then
        match rest with
        | [code] =>
            some { transaction_id, unit_id := u, function, is_exception := true,
                   exception_code := code }
        | _ => none
      else if function = .write_single_register then
        match rest with
        | [_, _, v₁, v₂] =>
            some { transaction_id, unit_id := u, function, registers := [u16 v₁ v₂] }
        | _ => none
      else
        match rest with
        | n :: bytes =>
            if n ≠ 0 ∧ n.toNat ≤ 250 ∧ n.toNat % 2 = 0 ∧ bytes.length = n.toNat then
              some { transaction_id, unit_id := u, function, registers := words bytes }
            else none
        | [] => none

/-- **A buffer is decoded by the shape of its PDU** when its header announces exactly its length. -/
theorem decode_response_cons :
    decode_response (t₁ :: t₂ :: p₁ :: p₂ :: l₁ :: l₂ :: u :: f :: rest) =
      if u16 p₁ p₂ = 0 ∧ (u16 l₁ l₂).toNat = rest.length + 2 ∧ rest.length ≤ 252 then
        decode_pdu u f rest (u16 t₁ t₂)
      else none := by
  -- the announced length is the real one exactly when the length field says so
  have hframe : expected_frame_length (t₁ :: t₂ :: p₁ :: p₂ :: l₁ :: l₂ :: u :: f :: rest) =
      some (t₁ :: t₂ :: p₁ :: p₂ :: l₁ :: l₂ :: u :: f :: rest).length ↔
      u16 p₁ p₂ = 0 ∧ (u16 l₁ l₂).toNat = rest.length + 2 ∧ rest.length ≤ 252 := by
    rw [expected_frame_length_cons]
    simp only [List.length_cons]
    split_ifs <;> grind
  by_cases hok : u16 p₁ p₂ = 0 ∧ (u16 l₁ l₂).toNat = rest.length + 2 ∧ rest.length ≤ 252
  · rw [if_pos hok, decode_response, dif_pos (hframe.mpr hok), decode_pdu]
    simp only [List.getElem_cons_succ, List.getElem_cons_zero]
    cases FunctionCode.ofByte (f &&& ~~~exception_bit) with
    | none => rfl
    | some function =>
        dsimp only
        -- the rest of the frame decides the case, by its first few bytes
        by_cases hexception : f &&& exception_bit ≠ 0
        · rw [if_pos hexception, if_pos hexception]
          match rest with
          | [] => rfl
          | [_] => rfl
          | _ :: _ :: _ => rfl
        · rw [if_neg hexception, if_neg hexception]
          by_cases hwrite : function = .write_single_register
          · rw [if_pos hwrite, if_pos hwrite]
            match rest with
            | [] => rfl
            | [_] => rfl
            | [_, _] => rfl
            | [_, _, _] => rfl
            | [_, _, _, _] => rfl
            | _ :: _ :: _ :: _ :: _ :: _ => rfl
          · rw [if_neg hwrite, if_neg hwrite]
            match rest with
            | [] => rfl
            | n :: bytes =>
                rw [decode_registers_cons]
                by_cases hcount : n ≠ 0 ∧ n.toNat ≤ 250 ∧ n.toNat % 2 = 0 ∧ bytes.length = n.toNat
                · rw [if_pos hcount]
                  exact (if_pos hcount).symm
                · rw [if_neg hcount]
                  exact (if_neg hcount).symm
  · rw [if_neg hok, decode_response, dif_neg (hframe.not.mpr hok)]

end Frame

/-! ## (4) The decoder accepts the grammar -/

/-- The exception bit of a function byte and the rest of it. -/
theorem function_byte_cases (f : UInt8) :
    (f &&& exception_bit = 0 ∧ f &&& ~~~exception_bit = f) ∨
      (f &&& exception_bit ≠ 0 ∧ f = (f &&& ~~~exception_bit) ||| exception_bit) := by
  have hall : ∀ n : Fin 256,
      (UInt8.ofFin n &&& exception_bit = 0 ∧ UInt8.ofFin n &&& ~~~exception_bit = UInt8.ofFin n) ∨
        (UInt8.ofFin n &&& exception_bit ≠ 0 ∧
          UInt8.ofFin n = (UInt8.ofFin n &&& ~~~exception_bit) ||| exception_bit) := by
    decide +kernel
  exact hall f.toFin

/-- A function byte is read back, with and without the exception bit. -/
theorem ofByte_function_byte (function : FunctionCode) :
    (function.toByte &&& exception_bit = 0 ∧
      FunctionCode.ofByte (function.toByte &&& ~~~exception_bit) = some function) ∧
    ((function.toByte ||| exception_bit) &&& exception_bit ≠ 0 ∧
      FunctionCode.ofByte ((function.toByte ||| exception_bit) &&& ~~~exception_bit) =
        some function) := by
  cases function <;> decide

/-- A PDU has a function byte and at most 252 bytes behind it. -/
theorem Pdu.exists_bytes_eq (pdu : Pdu) :
    ∃ f rest, pdu.bytes = f :: rest ∧ rest.length ≤ 252 := by
  cases pdu with
  | read function registers _ _ hbounded =>
      refine ⟨_, _, rfl, ?_⟩
      rw [List.length_cons, length_flatMap_u16_bytes]
      omega
  | writeEcho address value => exact ⟨_, _, rfl, by simp [u16_bytes]⟩
  | exception function code => exact ⟨_, _, rfl, by simp⟩

/-- The decoder reads back the PDU of a reply. -/
theorem decode_pdu_bytes (reply : Reply) {f : UInt8} {rest : List UInt8}
    (h : reply.pdu.bytes = f :: rest) :
    decode_pdu reply.unit_id f rest reply.transaction_id = some reply.response := by
  obtain ⟨transaction_id, unit_id, pdu⟩ := reply
  cases pdu with
  -- the count of bytes is twice that of the registers and fits its byte
  | read function registers hread hnonempty hbounded =>
      obtain ⟨rfl, rfl⟩ := List.cons_eq_cons.mp h
      obtain ⟨⟨hflag, hcode⟩, -⟩ := ofByte_function_byte function
      have hpos := List.length_pos_iff.mpr hnonempty
      have hcount : (UInt8.ofNat (2 * registers.length)).toNat = 2 * registers.length :=
        UInt8.toNat_ofNat_of_lt' (show _ < 256 by omega)
      have hzero : UInt8.ofNat (2 * registers.length) ≠ 0 := by
        intro heq
        rw [heq] at hcount
        have : (0 : UInt8).toNat = 0 := rfl
        omega
      have hok : UInt8.ofNat (2 * registers.length) ≠ 0 ∧
          (UInt8.ofNat (2 * registers.length)).toNat ≤ 250 ∧
          (UInt8.ofNat (2 * registers.length)).toNat % 2 = 0 ∧
          (registers.flatMap u16_bytes).length =
            (UInt8.ofNat (2 * registers.length)).toNat := by
        rw [hcount, length_flatMap_u16_bytes]
        exact ⟨hzero, by omega, by omega, rfl⟩
      rw [decode_pdu, hcode]
      dsimp only
      rw [if_neg (not_not.mpr hflag), if_neg hread, if_pos hok, words_flatMap]
      rfl
  | writeEcho address value =>
      obtain ⟨rfl, rfl⟩ := List.cons_eq_cons.mp h
      rw [decode_pdu]
      change some (⟨transaction_id, unit_id, .write_single_register, false, 0,
        [u16 (value >>> 8).toUInt8 (value &&& 0xFF).toUInt8]⟩ : ModbusResponse) = _
      rw [u16_u16_bytes]
      rfl
  | exception function code =>
      obtain ⟨rfl, rfl⟩ := List.cons_eq_cons.mp h
      obtain ⟨-, hflag, hcode⟩ := ofByte_function_byte function
      rw [decode_pdu, hcode]
      dsimp only
      rw [if_pos hflag]
      rfl

/-- What the decoder accepts behind a header is the PDU of a reply. -/
theorem exists_pdu_of_decode_pdu {transaction_id : UInt16} {u f : UInt8} {rest : List UInt8}
    {response : ModbusResponse} (h : decode_pdu u f rest transaction_id = some response) :
    ∃ pdu : Pdu, pdu.bytes = f :: rest ∧
      (⟨transaction_id, u, pdu⟩ : Reply).response = response := by
  unfold decode_pdu at h
  cases hcode : FunctionCode.ofByte (f &&& ~~~exception_bit) with
  | none =>
      rw [hcode] at h
      cases h
  | some function =>
      rw [hcode] at h
      dsimp only at h
      have htoByte := FunctionCode.toByte_of_ofByte hcode
      rcases function_byte_cases f with ⟨hflag, hplain⟩ | ⟨hflag, hplain⟩
      · rw [if_neg (not_not.mpr hflag)] at h
        rw [hplain] at htoByte
        by_cases hwrite : function = .write_single_register
        · -- an echo has exactly four bytes
          rw [if_pos hwrite] at h
          match rest, h with
          | [a₁, a₂, v₁, v₂], h =>
              refine ⟨.writeEcho (u16 a₁ a₂) (u16 v₁ v₂), ?_, ?_⟩
              · rw [Pdu.bytes, u16_bytes_u16, u16_bytes_u16, ← hwrite, htoByte]
                rfl
              · rw [← Option.some.inj h, hwrite]
                rfl
        · -- a read reply counts its bytes, an even number of them and at least two
          rw [if_neg hwrite] at h
          match rest, h with
          | n :: bytes, h =>
              obtain ⟨⟨hzero, hle, heven, hbytes⟩, hresponse⟩ :=
                Option.ite_none_right_eq_some.mp h
              have hpos : 0 < n.toNat := by
                rw [Nat.pos_iff_ne_zero]
                exact fun heq => hzero (UInt8.toNat_inj.mp heq)
              have hlength : 2 * (words bytes).length = n.toNat := by
                rw [length_words, hbytes]
                omega
              refine ⟨.read function (words bytes) hwrite ?_ (by omega), ?_, ?_⟩
              · apply List.ne_nil_of_length_pos
                omega
              · rw [Pdu.bytes, flatMap_words (by omega), hlength, htoByte, UInt8.ofNat_toNat]
              · rw [← Option.some.inj hresponse]
                rfl
      · -- an exception: the flag is the only difference to the function byte
        rw [if_pos hflag] at h
        match rest, h with
        | [code], h =>
            refine ⟨.exception function code, ?_, ?_⟩
            · rw [Pdu.bytes, htoByte, ← hplain]
            · rw [← Option.some.inj h]
              rfl

/-- **The decoder inverts the grammar**: it accepts the bytes of replies, returns their fields and
accepts nothing else. -/
theorem decode_response_eq_some_iff {buffer : List UInt8} {response : ModbusResponse} :
    decode_response buffer = some response ↔
      ∃ reply : Reply, reply.bytes = buffer ∧ reply.response = response := by
  constructor
  · intro h
    -- nothing shorter than a header is accepted
    have hlength : 8 ≤ buffer.length := by
      by_contra hshort
      rw [decode_response, dif_neg] at h
      · cases h
      · intro hframe
        exact hshort (le_of_expected_frame_length hframe).1
    match buffer, hlength with
    | t₁ :: t₂ :: p₁ :: p₂ :: l₁ :: l₂ :: u :: f :: rest, _ =>
        rw [decode_response_cons] at h
        obtain ⟨⟨hprotocol, hannounced, -⟩, hpdu⟩ := Option.ite_none_right_eq_some.mp h
        obtain ⟨pdu, hbytes, hresponse⟩ := exists_pdu_of_decode_pdu hpdu
        refine ⟨⟨u16 t₁ t₂, u, pdu⟩, ?_, hresponse⟩
        -- the length field is the one that encoding writes
        have hfield : UInt16.ofNat (1 + (f :: rest).length) = u16 l₁ l₂ := by
          rw [List.length_cons, show 1 + (rest.length + 1) = (u16 l₁ l₂).toNat by omega,
            UInt16.ofNat_toNat]
        rw [Reply.bytes, hbytes, hfield, kProtocolId, ← hprotocol, u16_bytes_u16, u16_bytes_u16,
          u16_bytes_u16]
        rfl
  · rintro ⟨reply, rfl, rfl⟩
    obtain ⟨f, rest, hbytes, hbounded⟩ := reply.pdu.exists_bytes_eq
    have hlength : (UInt16.ofNat (1 + (f :: rest).length)).toNat = rest.length + 2 := by
      rw [UInt16.toNat_ofNat_of_lt'] <;> rw [List.length_cons]
      · omega
      · exact show _ < 65536 by omega
    rw [Reply.bytes, hbytes]
    -- an encoded frame has its eight bytes in front of the data
    change decode_response (_ :: _ :: _ :: _ :: _ :: _ :: _ :: f :: rest) = _
    rw [decode_response_cons, if_pos, u16_u16_bytes]
    · exact decode_pdu_bytes reply hbytes
    · rw [u16_u16_bytes, u16_u16_bytes, hlength]
      exact ⟨rfl, rfl, hbounded⟩

end Ironpulse.Protocol
