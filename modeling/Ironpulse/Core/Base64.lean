import Ironpulse.Lib.Radix64

/-! # The base 64 encoder

`Base64::encode` (`include/ironpulse/core/base64.hpp`), which writes the accept key of a WebSocket
handshake. It reads the bytes three at a time by their index, and the last one or two in a branch of
their own.

* **`encode`**: the encoder, none where an index leaves the input or the table.
* **`encode_eq`**: it writes the text of the base 64 encoding.
* **`encode_correct`**: length, alphabet, padding, and the bytes that a decoder reads back. -/

namespace Ironpulse.Core.Base64

/-! ## (1) The encoder -/

/-- `kTable`, the 64 digits. -/
def kTable : List Char :=
  "ABCDEFGHIJKLMNOPQRSTUVWXYZabcdefghijklmnopqrstuvwxyz0123456789+/".toList

section Encoder

variable (data : List UInt8) (length : Nat)

/-- `while (i + 3 <= length)`: the whole groups from `i` on, with the index behind the last one. -/
def encode_groups (i : Nat) (out : List Char) : Option (Nat × List Char) :=
  if _h : i + 3 ≤ length then do
    let d0 ← data[i]?
    let d1 ← data[i + 1]?
    let d2 ← data[i + 2]?
    let n := (d0.toUInt32 <<< 16) ||| (d1.toUInt32 <<< 8) ||| d2.toUInt32
    let c0 ← kTable[((n >>> 18) &&& 0x3F).toNat]?
    let c1 ← kTable[((n >>> 12) &&& 0x3F).toNat]?
    let c2 ← kTable[((n >>> 6) &&& 0x3F).toNat]?
    let c3 ← kTable[(n &&& 0x3F).toNat]?
    encode_groups (i + 3) (out ++ [c0, c1, c2, c3])
  else some (i, out)
termination_by length - i

/-- The last one or two bytes. -/
def encode_remaining (i : Nat) (out : List Char) : Option (List Char) :=
  let remaining := length - i
  if remaining = 1 then do
    let d0 ← data[i]?
    let n := d0.toUInt32 <<< 16
    let c0 ← kTable[((n >>> 18) &&& 0x3F).toNat]?
    let c1 ← kTable[((n >>> 12) &&& 0x3F).toNat]?
    return out ++ [c0, c1] ++ ['=', '=']
  else if remaining = 2 then do
    let d0 ← data[i]?
    let d1 ← data[i + 1]?
    let n := (d0.toUInt32 <<< 16) ||| (d1.toUInt32 <<< 8)
    let c0 ← kTable[((n >>> 18) &&& 0x3F).toNat]?
    let c1 ← kTable[((n >>> 12) &&& 0x3F).toNat]?
    let c2 ← kTable[((n >>> 6) &&& 0x3F).toNat]?
    return out ++ [c0, c1, c2] ++ ['=']
  else some out

/-- `base64_encode`, with `none` where it would read beyond its input. -/
def encode : Option (List Char) := do
  let (i, out) ← encode_groups data length 0 []
  encode_remaining data length i out

end Encoder

/-- `encode(const Container&)`. -/
def encode_container (bytes : List UInt8) : Option (List Char) := encode bytes bytes.length

/-! ## (2) Words and their digits -/

/-- The digits of the code are those of the standard. -/
theorem kTable_eq : kTable = Radix64.alphabet := by decide

/-- A byte behind lower bits: `|` puts them together as a sum does. -/
theorem or_eq_add {a b k : Nat} (h : b < 2 ^ k) : a * 2 ^ k ||| b = a * 2 ^ k + b := by
  rw [← Nat.shiftLeft_eq, Nat.shiftLeft_add_eq_or_of_lt h]

/-- Three bytes shifted together are one 24-bit word. -/
theorem toNat_word (a b c : UInt8) :
    ((a.toUInt32 <<< 16) ||| (b.toUInt32 <<< 8) ||| c.toUInt32).toNat = Radix64.word a b c := by
  have ha := a.toNat_lt
  have hb := b.toNat_lt
  have hc := c.toNat_lt
  have hhigh : (a.toUInt32 <<< 16).toNat = a.toNat * 2 ^ 16 := by
    rw [UInt32.toNat_shiftLeft, UInt8.toNat_toUInt32]
    change a.toNat <<< 16 % 2 ^ 32 = _
    rw [Nat.shiftLeft_eq]
    omega
  have hmiddle : (b.toUInt32 <<< 8).toNat = b.toNat * 2 ^ 8 := by
    rw [UInt32.toNat_shiftLeft, UInt8.toNat_toUInt32]
    change b.toNat <<< 8 % 2 ^ 32 = _
    rw [Nat.shiftLeft_eq]
    omega
  -- The bits of the bytes do not overlap, so `|` adds them.
  have hlow : b.toNat * 2 ^ 8 ||| c.toNat = b.toNat * 2 ^ 8 + c.toNat := or_eq_add hc
  have hsum : a.toNat * 2 ^ 16 ||| (b.toNat * 2 ^ 8 + c.toNat) =
      a.toNat * 2 ^ 16 + (b.toNat * 2 ^ 8 + c.toNat) := or_eq_add (by omega)
  rw [UInt32.toNat_or, UInt32.toNat_or, hhigh, hmiddle, UInt8.toNat_toUInt32, Nat.or_assoc, hlow,
    hsum, Radix64.word, Nat.add_assoc]

/-- The word of a last group of two bytes. -/
theorem toNat_word_two (a b : UInt8) :
    ((a.toUInt32 <<< 16) ||| (b.toUInt32 <<< 8)).toNat = Radix64.word a b 0 := by
  have hzero : UInt8.toUInt32 0 = 0 := rfl
  rw [← toNat_word a b 0, hzero, UInt32.or_zero]

/-- The word of a last group of one byte. -/
theorem toNat_word_one (a : UInt8) : (a.toUInt32 <<< 16).toNat = Radix64.word a 0 0 := by
  have hzero : UInt8.toUInt32 0 <<< 8 = 0 := rfl
  rw [← toNat_word_two a 0, hzero, UInt32.or_zero]

/-- The first digit of a word. -/
theorem toNat_shift_18 (n : UInt32) : (n >>> 18).toNat = n.toNat / 2 ^ 18 :=
  Nat.shiftRight_eq_div_pow n.toNat 18

/-- The first two digits of a word. -/
theorem toNat_shift_12 (n : UInt32) : (n >>> 12).toNat = n.toNat / 2 ^ 12 :=
  Nat.shiftRight_eq_div_pow n.toNat 12

/-- The first three digits of a word. -/
theorem toNat_shift_6 (n : UInt32) : (n >>> 6).toNat = n.toNat / 2 ^ 6 :=
  Nat.shiftRight_eq_div_pow n.toNat 6

/-- **The table is never left**: six bits select a character of the alphabet. -/
theorem kTable_low (n : UInt32) :
    kTable[(n &&& 0x3F).toNat]? = some (Radix64.digit n.toNat) := by
  have hbits : (n &&& 0x3F).toNat = n.toNat % 64 := by
    rw [UInt32.toNat_and]
    exact Nat.and_two_pow_sub_one_eq_mod _ 6
  rw [hbits, kTable_eq, Radix64.alphabet_getElem?]

/-! ## (3) The encoder writes the encoding -/

section Runs

variable {data : List UInt8} {i : Nat}

/-- What is read at an index is read in the bytes from `i` on. -/
theorem getElem?_add_of_drop {rest : List UInt8} (h : data.drop i = rest) (k : Nat) :
    data[i + k]? = rest[k]? := by
  rw [← List.getElem?_drop, h]

/-- One round of the loop reads three bytes and appends their group. -/
theorem encode_groups_step {a b c : UInt8} {rest : List UInt8}
    (h : data.drop i = a :: b :: c :: rest) (out : List Char) :
    encode_groups data data.length i out =
      encode_groups data data.length (i + 3)
        (out ++ [Radix64.digit (Radix64.word a b c / 2 ^ 18),
          Radix64.digit (Radix64.word a b c / 2 ^ 12), Radix64.digit (Radix64.word a b c / 2 ^ 6),
          Radix64.digit (Radix64.word a b c)]) := by
  have hlength := congrArg List.length h
  rw [List.length_drop, List.length_cons, List.length_cons, List.length_cons] at hlength
  have ha : data[i]? = some a := getElem?_add_of_drop h 0
  have hb : data[i + 1]? = some b := getElem?_add_of_drop h 1
  have hc : data[i + 2]? = some c := getElem?_add_of_drop h 2
  rw [encode_groups, dif_pos (by omega)]
  simp only [ha, hb, hc, Option.bind_eq_bind, Option.bind_some, kTable_low, toNat_shift_18,
    toNat_shift_12, toNat_shift_6, toNat_word]

/-- The loop ends in front of the last one or two bytes. -/
theorem encode_groups_end (h : data.length - i < 3) (out : List Char) :
    encode_groups data data.length i out = some (i, out) := by
  rw [encode_groups]
  by_cases hlt : i + 3 ≤ data.length
  · omega
  · rw [dif_neg hlt]

/-- What is written from `i` on is the encoding of the bytes from `i` on. -/
theorem encode_from (rest : List UInt8) (i : Nat) (out : List Char) (h : data.drop i = rest) :
    (encode_groups data data.length i out).bind
        (fun (i, out) => encode_remaining data data.length i out) =
      some (out ++ Radix64.encode rest) := by
  have hlength := congrArg List.length h
  rw [List.length_drop] at hlength
  -- along the recursion of the encoder: none, one, two or at least three bytes left
  induction rest using Radix64.encode.induct generalizing i out with
  | case1 =>
      have hzero : data.length - i = 0 := hlength
      rw [encode_groups_end (by omega), Option.bind_some, Radix64.encode, List.append_nil]
      simp only [encode_remaining, hzero]
      rfl
  | case2 a =>
      have hone : data.length - i = 1 := hlength
      have ha : data[i]? = some a := getElem?_add_of_drop h 0
      rw [encode_groups_end (by omega), Option.bind_some, Radix64.encode]
      simp only [encode_remaining, hone, ha, Option.bind_eq_bind, Option.bind_some, kTable_low,
        toNat_shift_18, toNat_shift_12, toNat_word_one, if_true, List.append_assoc]
      rfl
  | case3 a b =>
      have htwo : data.length - i = 2 := hlength
      have ha : data[i]? = some a := getElem?_add_of_drop h 0
      have hb : data[i + 1]? = some b := getElem?_add_of_drop h 1
      rw [encode_groups_end (by omega), Option.bind_some, Radix64.encode]
      simp only [encode_remaining, htwo, ha, hb, Option.bind_eq_bind, Option.bind_some, kTable_low,
        toNat_shift_18, toNat_shift_12, toNat_shift_6, toNat_word_two, List.append_assoc]
      rfl
  | case4 a b c rest ih =>
      have hnext : data.drop (i + 3) = rest := by
        rw [← List.drop_drop, h]
        rfl
      rw [encode_groups_step h, ih _ _ hnext (by rw [← hnext, List.length_drop]), Radix64.encode,
        List.append_assoc]
      rfl

end Runs

/-- **The encoder writes the base 64 text of its input**, and no index leaves the input. -/
theorem encode_eq (data : List UInt8) : encode data data.length = some (Radix64.encode data) :=
  encode_from data 0 [] rfl

/-- **What the encoder writes is decoded to its input.** For every byte string it writes four
characters for each three bytes begun, all of the alphabet except the padding at the end, which has
one sign for each byte that the last group lacks; the decoder of the format reads the bytes back. -/
theorem encode_correct (data : List UInt8) :
    ∃ out, encode data data.length = some out ∧
      out.length = 4 * ((data.length + 2) / 3) ∧
      (∃ body, (∀ c ∈ body, c ∈ Radix64.alphabet) ∧
        out = body ++ List.replicate ((3 - data.length % 3) % 3) '=') ∧
      Radix64.decode out = some data :=
  ⟨Radix64.encode data, encode_eq data, Radix64.length_encode data,
    Radix64.encode_eq_append_pad data, Radix64.decode_encode data⟩

example : encode_container [0x66, 0x6F, 0x6F, 0x62] = some "Zm9vYg==".toList := by
  rw [encode_container, encode_eq]
  decide

end Ironpulse.Core.Base64
