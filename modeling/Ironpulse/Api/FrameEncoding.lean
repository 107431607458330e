import Ironpulse.Api.WsConnection
import Ironpulse.Lib.WebSocketFrame

/-! # The frames that the server sends

`make_frame` (`src/api/ws_server.cpp`) writes a frame that the decoder of RFC 6455 reads back.

* **`decodeFrame_make_frame`**: opcode and payload come back, in the shortest form of the length. -/

namespace Ironpulse.Api

open ByteCodec WebSocketFrame

/-! ## (1) The two first bytes -/

/-- The first byte of a frame has the final bit, no reserved bits and the opcode. -/
theorem first_byte {opcode : UInt8} (h : opcode.toNat < 16) :
    (0x80 ||| opcode) &&& 0x80 ≠ 0 ∧ ((0x80 ||| opcode) >>> 4) &&& 0x07 = 0 ∧
      (0x80 ||| opcode) &&& 0x0F = opcode := by
  have hall : ∀ n < 16, (0x80 ||| UInt8.ofNat n) &&& 0x80 ≠ 0 ∧
      ((0x80 ||| UInt8.ofNat n) >>> 4) &&& 0x07 = 0 ∧
      (0x80 ||| UInt8.ofNat n) &&& 0x0F = UInt8.ofNat n := by decide
  simpa using hall opcode.toNat h

/-- A length below 126 is neither a mask bit nor the sign of an extended length. -/
theorem short_length {n : Nat} (h : n ≤ 125) :
    UInt8.ofNat n &&& 0x80 = 0 ∧ (UInt8.ofNat n &&& 0x7F).toNat = n ∧
      LengthForm.ofField (UInt8.ofNat n &&& 0x7F) = .seven := by
  have hall : ∀ n ≤ 125, UInt8.ofNat n &&& 0x80 = 0 ∧ (UInt8.ofNat n &&& 0x7F).toNat = n ∧
      LengthForm.ofField (UInt8.ofNat n &&& 0x7F) = .seven := by decide
  exact hall n h

/-! ## (2) The extended length -/

/-- Two bytes, most significant first, as the code shifts them. -/
theorem reverse_littleEndian_two (n : Nat) :
    (littleEndian 2 n).reverse = [UInt8.ofNat (n >>> 8), UInt8.ofNat n] := by
  simp [littleEndian, Nat.shiftRight_eq_div_pow]

/-- Eight bytes, most significant first, as the loop of the code shifts them. -/
theorem reverse_littleEndian_eight (n : Nat) :
    (littleEndian 8 n).reverse =
      [7, 6, 5, 4, 3, 2, 1, 0].map fun i => UInt8.ofNat (n >>> (i * 8)) := by
  simp [littleEndian, Nat.shiftRight_eq_div_pow, Nat.div_div_eq_div_mul]

/-- The second byte and the extended length that announce a payload. -/
structure Announces (second : UInt8) (extended : List UInt8) (length : Nat) : Prop where
  unmasked : second &&& 0x80 = 0
  width : extended.length = (LengthForm.ofField (second &&& 0x7F)).width
  shortest : LengthForm.ofField (second &&& 0x7F) = .shortest length
  value : ∀ first, (header first second extended).length = length

/-- A length up to 125 is announced by the second byte alone. -/
theorem announces_short {length : Nat} (h : length ≤ 125) :
    Announces (UInt8.ofNat length) [] length := by
  obtain ⟨hmask, hvalue, hform⟩ := short_length h
  refine ⟨hmask, by rw [hform]; rfl, by rw [hform, LengthForm.shortest, if_pos h], fun first => ?_⟩
  rw [header]
  dsimp only
  rw [hform, if_pos rfl, hvalue]

/-- A length up to 65535 is announced by 126 and two bytes. -/
theorem announces_sixteen {length : Nat} (h : 125 < length) (h' : length ≤ 65535) :
    Announces 126 (littleEndian 2 length).reverse length := by
  refine ⟨by decide, by simp; rfl, ?_, fun first => ?_⟩
  · rw [LengthForm.shortest, if_neg (Nat.not_le.mpr h), if_pos h']
    rfl
  · change natOfBytes (littleEndian 2 length).reverse.reverse = length
    rw [List.reverse_reverse, natOfBytes_littleEndian_of_lt (by omega)]

/-- A longer length is announced by 127 and eight bytes. -/
theorem announces_sixtyFour {length : Nat} (h : 65535 < length) (h' : length < 2 ^ 64) :
    Announces 127 (littleEndian 8 length).reverse length := by
  refine ⟨by decide, by simp; rfl, ?_, fun first => ?_⟩
  · rw [LengthForm.shortest, if_neg (by omega), if_neg (by omega)]
    rfl
  · change natOfBytes (littleEndian 8 length).reverse.reverse = length
    rw [List.reverse_reverse, natOfBytes_littleEndian_of_lt (by omega)]

/-- **The frame that is made**: its first byte, an announcement of the length, the payload. -/
theorem make_frame_announces (opcode : UInt8) {data : List UInt8} (h : data.length < 2 ^ 64) :
    ∃ second extended, make_frame opcode data = (0x80 ||| opcode) :: second :: extended ++ data ∧
      Announces second extended data.length := by
  unfold make_frame
  dsimp only
  -- the three forms of the length: in the second byte, in 16 bits, in 64 bits
  split
  · rename_i hshort
    exact ⟨_, [], rfl, announces_short hshort⟩
  · rename_i hshort
    split
    · rename_i hmedium
      refine ⟨126, _, ?_, announces_sixteen (Nat.not_le.mp hshort) hmedium⟩
      rw [reverse_littleEndian_two]
    · rename_i hmedium
      refine ⟨127, _, ?_, announces_sixtyFour (Nat.not_le.mp hmedium) h⟩
      rw [reverse_littleEndian_eight]

/-! ## (3) The round trip -/

/-- **What the server sends is read back**: one final unmasked frame with this opcode and payload, its
length in the shortest form, and exactly the bytes that follow. -/
theorem decodeFrame_make_frame {opcode : UInt8} {data : List UInt8} (hopcode : opcode.toNat < 16)
    (hdata : data.length < 2 ^ 63) (rest : List UInt8) :
    ∃ h : Header, decodeFrame (make_frame opcode data ++ rest) = some (⟨h, data⟩, rest) ∧
      h.fin = true ∧ h.reserved = 0 ∧ h.opcode = opcode ∧ h.masked = false ∧
      h.length = data.length ∧ h.Canonical := by
  obtain ⟨second, extended, hframe, hannounces⟩ :=
    make_frame_announces opcode (hdata.trans (by decide))
  obtain ⟨hfin, hreserved, hop⟩ := first_byte hopcode
  have hmasked : (header (0x80 ||| opcode) second extended).masked = false := by
    simp [header, hannounces.unmasked]
  refine ⟨header (0x80 ||| opcode) second extended, ?_, by simp [header, hfin], hreserved, hop,
    hmasked, hannounces.value _, ?_, ?_⟩
  · -- a server's frame has no mask, so the payload is what stands behind the header
    have hdec : decodeHeader (make_frame opcode data ++ rest) =
        some (header (0x80 ||| opcode) second extended, [] ++ (data ++ rest)) := by
      rw [hframe, List.append_assoc, decodeHeader_append hannounces.width, List.nil_append]
    have hdecode := decodeFrame_of_header hdec (by rw [hmasked]; rfl) (hannounces.value _).symm
    rwa [unmask_nil] at hdecode
  · rw [hannounces.value]
    exact hannounces.shortest
  · rw [hannounces.value]
    exact hdata

/-- A text frame of two bytes, with the first byte of another frame behind it. -/
theorem decodeFrame_make_frame_text :
    ∃ h : Header, decodeFrame (make_frame kOpText [0x68, 0x69] ++ [0x81]) =
        some (⟨h, [0x68, 0x69]⟩, [0x81]) ∧
      h.fin = true ∧ h.reserved = 0 ∧ h.opcode = kOpText ∧ h.masked = false ∧
      h.length = 2 ∧ h.Canonical :=
  decodeFrame_make_frame (by decide) (by decide) [0x81]

end Ironpulse.Api
