import Mathlib.Algebra.Order.Group.Nat
import Mathlib.Data.List.Basic
import Mathlib.Logic.Equiv.Defs
import Mathlib.Tactic.Ring

/-! # Little-endian numbers and files of fixed-width records

* **`littleEndian w n`** / **`natOfBytes`**: a number as its `w` low bytes, least significant first,
  and back.
* **`RecordCodec α`**: records of type `α` as byte strings of one width; the two round trips are
  fields, so that every codec is a bijection onto the strings of its width.
* **`uint8`** .. **`uint64`**, **`pair`**, **`ofEquiv`**: the codec of a record from those of its
  fields.
* **`encodeAll`** / **`decodeAll`**: a file of records back to back, and the loop that reads whole
  records until fewer bytes than one record are left.
* **`decodeAll_append_encodeAll_iff`**: which records come back when they were appended after a torn
  last record. -/

namespace ByteCodec

/-! ## (1) Little-endian numbers -/

/-- The `w` low bytes of `n`, least significant first. -/
def littleEndian : Nat → Nat → List UInt8
  | 0, _ => []
  | w + 1, n => UInt8.ofNat n :: littleEndian w (n / 256)

/-- The number that a byte string spells, least significant byte first. -/
def natOfBytes (bytes : List UInt8) : Nat :=
  bytes.foldr (fun byte rest => byte.toNat + 256 * rest) 0

/-- No bytes are zero. -/
@[simp] theorem natOfBytes_nil : natOfBytes [] = 0 := rfl

/-- The first byte counts once, the rest 256 times. -/
@[simp] theorem natOfBytes_cons (byte : UInt8) (bytes : List UInt8) :
    natOfBytes (byte :: bytes) = byte.toNat + 256 * natOfBytes bytes := rfl

/-- A number is written in the bytes that were asked for. -/
@[simp] theorem length_littleEndian (w n : Nat) : (littleEndian w n).length = w := by
  induction w generalizing n with
  | zero => rfl
  | succ w ih => rw [littleEndian, List.length_cons, ih]

/-- Reading back the `w` low bytes of `n` gives `n` modulo `256 ^ w`. -/
theorem natOfBytes_littleEndian (w n : Nat) : natOfBytes (littleEndian w n) = n % 256 ^ w := by
  induction w generalizing n with
  | zero => rw [littleEndian, natOfBytes_nil, pow_zero, Nat.mod_one]
  | succ w ih =>
      have hbyte : (UInt8.ofNat n).toNat = n % 256 := UInt8.toNat_ofNat'
      rw [littleEndian, natOfBytes_cons, ih, hbyte, pow_succ, Nat.mul_comm (256 ^ w) 256,
        Nat.mod_mul]

/-- A number that fits in `w` bytes survives the round trip. -/
theorem natOfBytes_littleEndian_of_lt {w n : Nat} (h : n < 256 ^ w) :
    natOfBytes (littleEndian w n) = n := by
  rw [natOfBytes_littleEndian, Nat.mod_eq_of_lt h]

/-- Bytes stand for numbers below the power of 256 of their length. -/
theorem natOfBytes_lt (bytes : List UInt8) : natOfBytes bytes < 256 ^ bytes.length := by
  induction bytes with
  | nil => exact Nat.one_pos
  | cons byte bytes ih =>
      have hbyte := byte.toNat_lt
      rw [natOfBytes_cons, List.length_cons, pow_succ]
      omega

/-- Writing the number that `bytes` spells gives `bytes` back. -/
theorem littleEndian_natOfBytes {w : Nat} {bytes : List UInt8} (h : bytes.length = w) :
    littleEndian w (natOfBytes bytes) = bytes := by
  induction bytes generalizing w with
  | nil =>
      subst h
      rfl
  | cons byte bytes ih =>
      subst h
      have hbyte := byte.toNat_lt
      -- the low byte and the rest come apart again by division
      have hdiv : (byte.toNat + 256 * natOfBytes bytes) / 256 = natOfBytes bytes := by omega
      have hmod : (byte.toNat + 256 * natOfBytes bytes) % 256 = byte.toNat := by omega
      rw [natOfBytes_cons, List.length_cons, littleEndian, hdiv, ih rfl]
      congr 1
      apply UInt8.toNat_inj.mp
      rw [UInt8.toNat_ofNat', hmod]

/-! ## (2) Fixed-width records -/

/-- Records of one width: the two round trips make encoding a bijection between `α` and the byte
strings of length `width`. -/
structure RecordCodec (α : Type*) where
  width : Nat
  width_pos : 0 < width
  encode : α → List UInt8
  decode : List UInt8 → α
  length_encode : ∀ a, (encode a).length = width
  decode_encode : ∀ a, decode (encode a) = a
  encode_decode : ∀ bytes, bytes.length = width → encode (decode bytes) = bytes

namespace RecordCodec

variable {α : Type*} (C : RecordCodec α)

/-- A file of records, back to back. -/
def encodeAll (records : List α) : List UInt8 := records.flatMap C.encode

/-- The reading loop, with `fuel` bounding the number of records: take one record's bytes while they
are there. -/
def decodeLoop : Nat → List UInt8 → List α
  | 0, _ => []
  | fuel + 1, bytes =>
      if bytes.length < C.width then []
      else C.decode (bytes.take C.width) :: decodeLoop fuel (bytes.drop C.width)

/-- All whole records at the start of a file. Each takes at least one byte, so the file's length is
fuel enough. -/
def decodeAll (bytes : List UInt8) : List α := C.decodeLoop bytes.length bytes

/-- No records are no bytes. -/
@[simp] theorem encodeAll_nil : C.encodeAll [] = [] := rfl

/-- Records are encoded one behind the other. -/
@[simp] theorem encodeAll_cons (a : α) (records : List α) :
    C.encodeAll (a :: records) = C.encode a ++ C.encodeAll records := rfl

/-- Two lists of records are encoded one behind the other. -/
@[simp] theorem encodeAll_append (records more : List α) :
    C.encodeAll (records ++ more) = C.encodeAll records ++ C.encodeAll more :=
  List.flatMap_append

/-- Each record takes the width of the codec. -/
@[simp] theorem length_encodeAll (records : List α) :
    (C.encodeAll records).length = records.length * C.width := by
  induction records with
  | nil => rw [encodeAll_nil, List.length_nil, List.length_nil, Nat.zero_mul]
  | cons a records ih =>
      rw [encodeAll_cons, List.length_append, C.length_encode, ih, List.length_cons]
      ring

/-- Fuel beyond the length of the file changes nothing. -/
theorem decodeLoop_eq_of_le {fuel fuel' : Nat} {bytes : List UInt8} (h : bytes.length ≤ fuel)
    (h' : bytes.length ≤ fuel') : C.decodeLoop fuel bytes = C.decodeLoop fuel' bytes := by
  have hpos := C.width_pos
  induction fuel generalizing fuel' bytes with
  | zero =>
      cases fuel' with
      | zero => rfl
      | succ fuel' => rw [decodeLoop, decodeLoop, if_pos (by omega)]
  | succ fuel ih =>
      cases fuel' with
      | zero => rw [decodeLoop, decodeLoop, if_pos (by omega)]
      | succ fuel' =>
          rw [decodeLoop, decodeLoop]
          split
          · rfl
          · -- both loops decode the same record and go on with the same rest
            have hdrop : (bytes.drop C.width).length = bytes.length - C.width := List.length_drop
            rw [@ih fuel' _ (by omega) (by omega)]

/-- Fewer bytes than a record hold no record. -/
theorem decodeAll_of_lt {bytes : List UInt8} (h : bytes.length < C.width) :
    C.decodeAll bytes = [] := by
  unfold decodeAll
  cases hlen : bytes.length with
  | zero => rfl
  | succ n => rw [decodeLoop, if_pos h]

/-- A record's bytes, then the rest. -/
theorem decodeAll_append_of_length {bytes rest : List UInt8} (h : bytes.length = C.width) :
    C.decodeAll (bytes ++ rest) = C.decode bytes :: C.decodeAll rest := by
  have hpos := C.width_pos
  unfold decodeAll
  rw [C.decodeLoop_eq_of_le le_rfl (Nat.le_succ (bytes ++ rest).length), decodeLoop,
    if_neg (by rw [List.length_append]; omega), ← h, List.take_left, List.drop_left]
  rw [C.decodeLoop_eq_of_le (by rw [List.length_append]; omega) le_rfl]

/-- **Whole records in front of a file are read first.** -/
theorem decodeAll_encodeAll_append (records : List α) (rest : List UInt8) :
    C.decodeAll (C.encodeAll records ++ rest) = records ++ C.decodeAll rest := by
  induction records with
  | nil => rfl
  | cons a records ih =>
      rw [encodeAll_cons, List.append_assoc, C.decodeAll_append_of_length (C.length_encode a),
        C.decode_encode, ih, List.cons_append]

/-- **A file of whole records is read back.** -/
theorem decodeAll_encodeAll (records : List α) : C.decodeAll (C.encodeAll records) = records := by
  have h := C.decodeAll_encodeAll_append records []
  have hnil : C.decodeAll [] = [] := C.decodeAll_of_lt C.width_pos
  rwa [List.append_nil, hnil, List.append_nil] at h

/-- The bytes after the last whole record. -/
def torn (bytes : List UInt8) : List UInt8 := bytes.drop (bytes.length / C.width * C.width)

/-- The torn bytes are what is left of the length modulo the width. -/
theorem length_torn (bytes : List UInt8) : (C.torn bytes).length = bytes.length % C.width := by
  rw [torn, List.length_drop, Nat.mod_eq_sub_div_mul]

/-- Fewer bytes are torn than a record has. -/
theorem length_torn_lt (bytes : List UInt8) : (C.torn bytes).length < C.width := by
  rw [C.length_torn]
  exact Nat.mod_lt _ C.width_pos

/-- A file is its whole records followed by the torn bytes. -/
theorem encodeAll_decodeAll_append_torn (bytes : List UInt8) :
    C.encodeAll (C.decodeAll bytes) ++ C.torn bytes = bytes := by
  have hpos := C.width_pos
  -- on the length: a first record, and the rest
  induction hn : bytes.length using Nat.strong_induction_on generalizing bytes with
  | _ n ih =>
      by_cases hlt : bytes.length < C.width
      · rw [C.decodeAll_of_lt hlt, torn, Nat.div_eq_of_lt hlt, Nat.zero_mul, List.drop_zero]
        rfl
      · have hsplit : bytes.take C.width ++ bytes.drop C.width = bytes := List.take_append_drop ..
        have hlen : (bytes.take C.width).length = C.width := by
          rw [List.length_take]
          omega
        have htorn : C.torn bytes = C.torn (bytes.drop C.width) := by
          have hdiv : bytes.length / C.width = (bytes.length - C.width) / C.width + 1 :=
            Nat.div_eq_sub_div hpos (by omega)
          -- the torn bytes are those of the rest
          rw [torn, torn, List.drop_drop, List.length_drop, hdiv]
          congr 1
          ring
        have hrest := ih (bytes.drop C.width).length (by rw [List.length_drop]; omega) _ rfl
        have hread : C.decodeAll bytes =
            C.decode (bytes.take C.width) :: C.decodeAll (bytes.drop C.width) := by
          rw [← C.decodeAll_append_of_length hlen, hsplit]
        rw [hread, htorn, encodeAll_cons, C.encode_decode _ hlen, List.append_assoc, hrest, hsplit]

/-- What is read after appending to a file depends only on its torn bytes. -/
theorem decodeAll_append (bytes rest : List UInt8) :
    C.decodeAll (bytes ++ rest) = C.decodeAll bytes ++ C.decodeAll (C.torn bytes ++ rest) := by
  conv_lhs => rw [← C.encodeAll_decodeAll_append_torn bytes, List.append_assoc]
  rw [C.decodeAll_encodeAll_append]

/-- A whole number of records has no torn bytes. -/
theorem torn_of_dvd {bytes : List UInt8} (h : C.width ∣ bytes.length) : C.torn bytes = [] := by
  rw [← List.length_eq_zero_iff, C.length_torn]
  exact Nat.mod_eq_zero_of_dvd h

/-- A file of whole records is what its records encode to. -/
theorem encodeAll_decodeAll_of_dvd {bytes : List UInt8} (h : C.width ∣ bytes.length) :
    C.encodeAll (C.decodeAll bytes) = bytes := by
  have heq := C.encodeAll_decodeAll_append_torn bytes
  rwa [C.torn_of_dvd h, List.append_nil] at heq

/-- Behind whole records a file is read as if it began there. -/
theorem decodeAll_append_of_dvd {bytes : List UInt8} (h : C.width ∣ bytes.length)
    (rest : List UInt8) : C.decodeAll (bytes ++ rest) = C.decodeAll bytes ++ C.decodeAll rest := by
  rw [C.decodeAll_append, C.torn_of_dvd h, List.nil_append]

/-- The number of records read is the number of whole records. -/
theorem length_decodeAll (bytes : List UInt8) :
    (C.decodeAll bytes).length = bytes.length / C.width := by
  have h := congrArg List.length (C.encodeAll_decodeAll_append_torn bytes)
  rw [List.length_append, C.length_encodeAll, C.length_torn] at h
  have hdiv := Nat.div_add_mod' bytes.length C.width
  exact Nat.eq_of_mul_eq_mul_right C.width_pos (by omega)

/-- **Reading by index**: the records are those at the multiples of the width. -/
theorem decodeAll_eq_map_range (bytes : List UInt8) :
    C.decodeAll bytes = (List.range (bytes.length / C.width)).map fun i =>
      C.decode ((bytes.drop (i * C.width)).take C.width) := by
  have hpos := C.width_pos
  -- on the number of records
  induction hn : bytes.length / C.width generalizing bytes with
  | zero =>
      have hlt := (Nat.div_eq_zero_iff_lt hpos).mp hn
      rw [C.decodeAll_of_lt hlt, List.range_zero, List.map_nil]
  | succ n ih =>
      have hle : C.width ≤ bytes.length := by
        by_contra hlt
        rw [Nat.div_eq_of_lt (Nat.not_le.mp hlt)] at hn
        cases hn
      -- the first record is the one at index zero, the others move down by one
      have htake : (bytes.take C.width).length = C.width := by
        rw [List.length_take]
        omega
      have hrest : (bytes.drop C.width).length / C.width = n := by
        have hdiv := Nat.div_eq_sub_div hpos hle
        rw [List.length_drop]
        omega
      have hsplit : C.decodeAll (bytes.take C.width ++ bytes.drop C.width) = _ :=
        C.decodeAll_append_of_length htake
      rw [List.take_append_drop] at hsplit
      rw [hsplit, ih _ hrest, List.range_succ_eq_map, List.map_cons, List.map_map, Nat.zero_mul,
        List.drop_zero]
      congr 1
      refine List.map_congr_left fun i _ => ?_
      rw [Function.comp_apply, List.drop_drop, Nat.succ_mul, Nat.add_comm C.width]

/-- **Records appended after a torn record.** They are read back unchanged exactly when their bytes
are a prefix of the torn bytes followed by these very bytes. -/
theorem decodeAll_append_encodeAll_iff {tail : List UInt8} (htail : tail.length < C.width)
    (records : List α) :
    C.decodeAll (tail ++ C.encodeAll records) = records ↔
      C.encodeAll records <+: tail ++ C.encodeAll records := by
  constructor
  · intro h
    have hwhole := C.encodeAll_decodeAll_append_torn (tail ++ C.encodeAll records)
    rw [h] at hwhole
    exact ⟨_, hwhole⟩
  · rintro ⟨rest, hrest⟩
    have hlen := congrArg List.length hrest
    rw [List.length_append, List.length_append] at hlen
    rw [← hrest, C.decodeAll_encodeAll_append, C.decodeAll_of_lt (by omega), List.append_nil]

/-- A file of a prefix of the bytes of `records` holds the first records whole. -/
theorem decodeAll_of_prefix {records : List α} {bytes : List UInt8}
    (h : bytes <+: C.encodeAll records) :
    C.decodeAll bytes = records.take (bytes.length / C.width) := by
  have hpre : C.encodeAll (C.decodeAll bytes) <+: C.encodeAll records :=
    List.IsPrefix.trans ⟨_, C.encodeAll_decodeAll_append_torn bytes⟩ h
  obtain ⟨rest, hrest⟩ := hpre
  have hread : C.decodeAll bytes ++ C.decodeAll rest = records := by
    rw [← C.decodeAll_encodeAll_append, hrest, C.decodeAll_encodeAll]
  rw [← C.length_decodeAll, ← hread, List.take_left]

/-! ## (3) Codecs from codecs -/

/-- A byte. -/
def uint8 : RecordCodec UInt8 where
  width := 1
  width_pos := Nat.one_pos
  encode x := [x]
  decode bytes := bytes.headD 0
  length_encode _ := rfl
  decode_encode _ := rfl
  encode_decode bytes h := by
    obtain ⟨byte, rfl⟩ := List.length_eq_one_iff.mp h
    rfl

/-- A 16-bit number in little-endian memory order. -/
def uint16 : RecordCodec UInt16 where
  width := 2
  width_pos := by decide
  encode x := littleEndian 2 x.toNat
  decode bytes := UInt16.ofNat (natOfBytes bytes)
  length_encode _ := length_littleEndian 2 _
  decode_encode x := by rw [natOfBytes_littleEndian_of_lt (UInt16.toNat_lt x), UInt16.ofNat_toNat]
  encode_decode bytes h := by
    have hlt := natOfBytes_lt bytes
    rw [h] at hlt
    rw [UInt16.toNat_ofNat_of_lt' hlt, littleEndian_natOfBytes h]

/-- A 32-bit number in little-endian memory order. -/
def uint32 : RecordCodec UInt32 where
  width := 4
  width_pos := by decide
  encode x := littleEndian 4 x.toNat
  decode bytes := UInt32.ofNat (natOfBytes bytes)
  length_encode _ := length_littleEndian 4 _
  decode_encode x := by rw [natOfBytes_littleEndian_of_lt (UInt32.toNat_lt x), UInt32.ofNat_toNat]
  encode_decode bytes h := by
    have hlt := natOfBytes_lt bytes
    rw [h] at hlt
    rw [UInt32.toNat_ofNat_of_lt' hlt, littleEndian_natOfBytes h]

/-- A 64-bit number in little-endian memory order. -/
def uint64 : RecordCodec UInt64 where
  width := 8
  width_pos := by decide
  encode x := littleEndian 8 x.toNat
  decode bytes := UInt64.ofNat (natOfBytes bytes)
  length_encode _ := length_littleEndian 8 _
  decode_encode x := by rw [natOfBytes_littleEndian_of_lt (UInt64.toNat_lt x), UInt64.ofNat_toNat]
  encode_decode bytes h := by
    have hlt := natOfBytes_lt bytes
    rw [h] at hlt
    rw [UInt64.toNat_ofNat_of_lt' hlt, littleEndian_natOfBytes h]

/-- A byte is decoded to its number. -/
theorem toNat_uint8_decode {bytes : List UInt8} (h : bytes.length ≤ 1) :
    (uint8.decode bytes).toNat = natOfBytes bytes := by
  match bytes, h with
  | [], _ => rfl
  | [byte], _ => exact (Nat.add_zero _).symm

/-- Up to two bytes are decoded to their number. -/
theorem toNat_uint16_decode {bytes : List UInt8} (h : bytes.length ≤ 2) :
    (uint16.decode bytes).toNat = natOfBytes bytes :=
  UInt16.toNat_ofNat_of_lt' ((natOfBytes_lt bytes).trans_le (Nat.pow_le_pow_right (by decide) h))

/-- Up to four bytes are decoded to their number. -/
theorem toNat_uint32_decode {bytes : List UInt8} (h : bytes.length ≤ 4) :
    (uint32.decode bytes).toNat = natOfBytes bytes :=
  UInt32.toNat_ofNat_of_lt' ((natOfBytes_lt bytes).trans_le (Nat.pow_le_pow_right (by decide) h))

/-- Up to eight bytes are decoded to their number. -/
theorem toNat_uint64_decode {bytes : List UInt8} (h : bytes.length ≤ 8) :
    (uint64.decode bytes).toNat = natOfBytes bytes :=
  UInt64.toNat_ofNat_of_lt' ((natOfBytes_lt bytes).trans_le (Nat.pow_le_pow_right (by decide) h))

variable {β : Type*}

/-- Two fields, one after the other. -/
def pair (A : RecordCodec α) (B : RecordCodec β) : RecordCodec (α × β) where
  width := A.width + B.width
  width_pos := Nat.add_pos_left A.width_pos _
  encode x := A.encode x.1 ++ B.encode x.2
  decode bytes := (A.decode (bytes.take A.width), B.decode (bytes.drop A.width))
  length_encode x := by rw [List.length_append, A.length_encode, B.length_encode]
  decode_encode x := by
    rw [List.take_left' (A.length_encode x.1), List.drop_left' (A.length_encode x.1),
      A.decode_encode, B.decode_encode]
  encode_decode bytes h := by
    have htake : (bytes.take A.width).length = A.width := by rw [List.length_take, h]; omega
    have hdrop : (bytes.drop A.width).length = B.width := by rw [List.length_drop, h]; omega
    rw [A.encode_decode _ htake, B.encode_decode _ hdrop, List.take_append_drop]

/-- The same bytes, read as another type. -/
def ofEquiv (e : β ≃ α) : RecordCodec β where
  width := C.width
  width_pos := C.width_pos
  encode b := C.encode (e b)
  decode bytes := e.symm (C.decode bytes)
  length_encode b := C.length_encode (e b)
  decode_encode b := by rw [C.decode_encode, Equiv.symm_apply_apply]
  encode_decode bytes h := by rw [Equiv.apply_symm_apply, C.encode_decode bytes h]

end RecordCodec

end ByteCodec
