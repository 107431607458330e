import Mathlib.Algebra.Group.Nat.Defs
import Mathlib.Data.List.Basic

/-! # Radix-64 encoding

The base 64 encoding of RFC 4648, section 4: three bytes as four characters of six bits each, the
last one or two bytes of a string with padding. The decoder is the strict one: padding only at the
end, and the bits that it cuts off are zero.

* **`alphabet`**, **`digit`**, **`value`**: the characters of the sixty-four values and back.
* **`encode`**, **`decode`**: a byte string as text and back.
* **`decode_encode`**: decoding what was encoded returns the bytes. -/

namespace Radix64

/-! ## (1) The alphabet -/

/-- The characters of the values 0 to 63. -/
def alphabet : List Char :=
  ['A', 'B', 'C', 'D', 'E', 'F', 'G', 'H', 'I', 'J', 'K', 'L', 'M',
    'N', 'O', 'P', 'Q', 'R', 'S', 'T', 'U', 'V', 'W', 'X', 'Y', 'Z',
    'a', 'b', 'c', 'd', 'e', 'f', 'g', 'h', 'i', 'j', 'k', 'l', 'm',
    'n', 'o', 'p', 'q', 'r', 's', 't', 'u', 'v', 'w', 'x', 'y', 'z',
    '0', '1', '2', '3', '4', '5', '6', '7', '8', '9', '+', '/']

/-- The character of the low six bits. -/
def digit (v : Nat) : Char := alphabet.getD (v % 64) '='

/-- The six bits of a character, none outside the alphabet. -/
def value (c : Char) : Option Nat :=
  if 'A' ≤ c ∧ c ≤ 'Z' then some (c.toNat - 65)
  else if 'a' ≤ c ∧ c ≤ 'z' then some (c.toNat - 97 + 26)
  else if '0' ≤ c ∧ c ≤ '9' then some (c.toNat - 48 + 52)
  else if c = '+' then some 62
  else if c = '/' then some 63
  else none

/-- The alphabet has a character for each number of six bits. -/
theorem alphabet_getElem? (v : Nat) : alphabet[v % 64]? = some (digit v) := by
  have hlt : v % 64 < alphabet.length := Nat.mod_lt _ (by decide)
  rw [digit, List.getD_eq_getElem?_getD, List.getElem?_eq_getElem hlt, Option.getD_some]

/-- A digit is a character of the alphabet. -/
theorem digit_mem (v : Nat) : digit v ∈ alphabet :=
  List.mem_of_getElem? (alphabet_getElem? v)

/-- Every character of the alphabet has its index as its value. -/
theorem value_digit (v : Nat) : value (digit v) = some (v % 64) := by
  have htable : ∀ k < 64, value (alphabet.getD k '=') = some k := by decide
  exact htable (v % 64) (Nat.mod_lt _ (by decide))

/-- A digit is not the padding character. -/
theorem digit_ne_pad (v : Nat) : digit v ≠ '=' := by
  intro h
  have hvalue := value_digit v
  rw [h] at hvalue
  cases hvalue

/-! ## (2) Encoding and decoding -/

/-- Three bytes as one number. -/
def word (a b c : UInt8) : Nat := a.toNat * 2 ^ 16 + b.toNat * 2 ^ 8 + c.toNat

/-- The text of a byte string. -/
def encode : List UInt8 → List Char
  | [] => []
  | [a] => [digit (word a 0 0 / 2 ^ 18), digit (word a 0 0 / 2 ^ 12), '=', '=']
  | [a, b] =>
      [digit (word a b 0 / 2 ^ 18), digit (word a b 0 / 2 ^ 12), digit (word a b 0 / 2 ^ 6), '=']
  | a :: b :: c :: rest =>
      digit (word a b c / 2 ^ 18) :: digit (word a b c / 2 ^ 12) :: digit (word a b c / 2 ^ 6) ::
        digit (word a b c) :: encode rest

/-- The three bytes of four characters. -/
def decodeGroup (a b c d : Char) : Option (List UInt8) := do
  let p ← value a
  let q ← value b
  let r ← value c
  let s ← value d
  let n := p * 2 ^ 18 + q * 2 ^ 12 + r * 2 ^ 6 + s
  return [UInt8.ofNat (n / 2 ^ 16), UInt8.ofNat (n / 2 ^ 8), UInt8.ofNat n]

/-- The bytes of the last four characters, up to two of them padding. The bits behind the last byte
are zero. -/
def decodeLast (a b c d : Char) : Option (List UInt8) :=
  if d ≠ '=' then decodeGroup a b c d
  else if c ≠ '=' then do
    let p ← value a
    let q ← value b
    let r ← value c
    let n := p * 2 ^ 10 + q * 2 ^ 4 + r / 2 ^ 2
    if r % 2 ^ 2 = 0 then some [UInt8.ofNat (n / 2 ^ 8), UInt8.ofNat n] else none
  else do
    let p ← value a
    let q ← value b
    if q % 2 ^ 4 = 0 then some [UInt8.ofNat (p * 2 ^ 2 + q / 2 ^ 4)] else none

/-- The bytes of a text, none if it is not a text that `encode` writes. -/
def decode : List Char → Option (List UInt8)
  | [] => some []
  | a :: b :: c :: d :: rest =>
      if rest = [] then decodeLast a b c d
      else do
        let front ← decodeGroup a b c d
        let back ← decode rest
        return front ++ back
  | _ => none

/-! ## (3) The round trip -/

/-- A number is put together from its base 64 digits. -/
theorem digits_word (n : Nat) (h : n < 2 ^ 24) :
    n / 2 ^ 18 % 64 * 2 ^ 18 + n / 2 ^ 12 % 64 * 2 ^ 12 + n / 2 ^ 6 % 64 * 2 ^ 6 + n % 64 = n := by
  omega

/-- Three bytes are 24 bits. -/
theorem word_lt (a b c : UInt8) : word a b c < 2 ^ 24 := by
  have ha := a.toNat_lt
  have hb := b.toNat_lt
  have hc := c.toNat_lt
  unfold word
  omega

/-- The bytes of a word. -/
theorem bytes_word (a b c : UInt8) :
    UInt8.ofNat (word a b c / 2 ^ 16) = a ∧ UInt8.ofNat (word a b c / 2 ^ 8) = b ∧
      UInt8.ofNat (word a b c) = c := by
  have hb := b.toNat_lt
  have hc := c.toNat_lt
  refine ⟨?_, ?_, ?_⟩ <;> apply UInt8.toNat_inj.mp <;> rw [UInt8.toNat_ofNat'] <;> unfold word
  · have ha := a.toNat_lt
    omega
  · omega
  · omega

/-- **Four digits tell the three bytes** they were made from. -/
theorem decodeGroup_digits (a b c : UInt8) :
    decodeGroup (digit (word a b c / 2 ^ 18)) (digit (word a b c / 2 ^ 12))
      (digit (word a b c / 2 ^ 6)) (digit (word a b c)) = some [a, b, c] := by
  obtain ⟨ha, hb, hc⟩ := bytes_word a b c
  simp only [decodeGroup, value_digit, Option.bind_eq_bind, Option.bind_some,
    digits_word _ (word_lt a b c), ha, hb, hc]
  rfl

/-- The last group may be a whole one. -/
theorem decodeLast_digits (a b c : UInt8) :
    decodeLast (digit (word a b c / 2 ^ 18)) (digit (word a b c / 2 ^ 12))
      (digit (word a b c / 2 ^ 6)) (digit (word a b c)) = some [a, b, c] := by
  rw [decodeLast, if_pos (digit_ne_pad _), decodeGroup_digits]

/-- The first two bytes of a word whose last byte is zero. -/
theorem decodeLast_of_mod_eq_zero {n : Nat} (h : n < 2 ^ 24) (hzero : n % 2 ^ 8 = 0) :
    decodeLast (digit (n / 2 ^ 18)) (digit (n / 2 ^ 12)) (digit (n / 2 ^ 6)) '=' =
      some [UInt8.ofNat (n / 2 ^ 16), UInt8.ofNat (n / 2 ^ 8)] := by
  have hcut : n / 2 ^ 6 % 64 % 2 ^ 2 = 0 := by omega
  have hn : n / 2 ^ 18 % 64 * 2 ^ 10 + n / 2 ^ 12 % 64 * 2 ^ 4 + n / 2 ^ 6 % 64 / 2 ^ 2 =
      n / 2 ^ 8 := by omega
  rw [decodeLast, if_neg (not_not.mpr rfl), if_pos (digit_ne_pad _)]
  simp only [value_digit, Option.bind_eq_bind, Option.bind_some, if_pos hcut, hn,
    Nat.div_div_eq_div_mul, ← Nat.pow_add, Nat.reduceAdd]

/-- A last group of two bytes ends in one padding character. -/
theorem decodeLast_two (a b : UInt8) :
    decodeLast (digit (word a b 0 / 2 ^ 18)) (digit (word a b 0 / 2 ^ 12))
      (digit (word a b 0 / 2 ^ 6)) '=' = some [a, b] := by
  have hzero : word a b 0 % 2 ^ 8 = 0 := by
    rw [word, UInt8.toNat_zero]
    omega
  obtain ⟨ha, hb, -⟩ := bytes_word a b 0
  rw [decodeLast_of_mod_eq_zero (word_lt a b 0) hzero, ha, hb]

/-- The first byte of a word whose last two bytes are zero. -/
theorem decodeLast_of_mod_eq_zero' {n : Nat} (h : n < 2 ^ 24) (hzero : n % 2 ^ 16 = 0) :
    decodeLast (digit (n / 2 ^ 18)) (digit (n / 2 ^ 12)) '=' '=' =
      some [UInt8.ofNat (n / 2 ^ 16)] := by
  have hcut : n / 2 ^ 12 % 64 % 2 ^ 4 = 0 := by omega
  have hn : n / 2 ^ 18 % 64 * 2 ^ 2 + n / 2 ^ 12 % 64 / 2 ^ 4 = n / 2 ^ 16 := by omega
  rw [decodeLast, if_neg (not_not.mpr rfl), if_neg (not_not.mpr rfl)]
  simp only [value_digit, Option.bind_eq_bind, Option.bind_some, if_pos hcut, hn]

/-- A last group of one byte ends in two padding characters. -/
theorem decodeLast_one (a : UInt8) :
    decodeLast (digit (word a 0 0 / 2 ^ 18)) (digit (word a 0 0 / 2 ^ 12)) '=' '=' =
      some [a] := by
  have hzero : word a 0 0 % 2 ^ 16 = 0 := by
    rw [word, UInt8.toNat_zero]
    omega
  obtain ⟨ha, -, -⟩ := bytes_word a 0 0
  rw [decodeLast_of_mod_eq_zero' (word_lt a 0 0) hzero, ha]

/-- Only nothing is encoded to nothing. -/
theorem encode_eq_nil {data : List UInt8} : encode data = [] ↔ data = [] := by
  constructor
  · intro h
    unfold encode at h
    split at h
    · rfl
    all_goals cases h
  · rintro rfl
    rfl

/-- **Decoding what was encoded returns the bytes**, group by group. -/
theorem decode_encode (data : List UInt8) : decode (encode data) = some data := by
  induction data using encode.induct with
  | case1 => rfl
  | case2 a => rw [encode, decode, if_pos rfl, decodeLast_one]
  | case3 a b => rw [encode, decode, if_pos rfl, decodeLast_two]
  | case4 a b c rest ih =>
      rw [encode, decode]
      by_cases hrest : rest = []
      · rw [if_pos (encode_eq_nil.mpr hrest), decodeLast_digits, hrest]
      · rw [if_neg (mt encode_eq_nil.mp hrest), decodeGroup_digits, ih]
        rfl

/-! ## (4) The shape of the text -/

/-- Every three bytes, the last ones included, take four characters. -/
theorem length_encode (data : List UInt8) :
    (encode data).length = 4 * ((data.length + 2) / 3) := by
  induction data using encode.induct with
  | case1 => rfl
  | case2 a => simp [encode]
  | case3 a b => simp [encode]
  | case4 a b c rest ih =>
      simp only [encode, List.length_cons, ih]
      omega

/-- **The text is characters of the alphabet and then the padding**, one sign for each byte that the
last group lacks. -/
theorem encode_eq_append_pad (data : List UInt8) :
    ∃ body, (∀ c ∈ body, c ∈ alphabet) ∧
      encode data = body ++ List.replicate ((3 - data.length % 3) % 3) '=' := by
  induction data using encode.induct with
  | case1 => exact ⟨[], by simp, rfl⟩
  | case2 a => exact ⟨[_, _], by simp [digit_mem], rfl⟩
  | case3 a b => exact ⟨[_, _, _], by simp [digit_mem], rfl⟩
  | case4 a b c rest ih =>
      obtain ⟨body, hbody, heq⟩ := ih
      refine ⟨digit (word a b c / 2 ^ 18) :: digit (word a b c / 2 ^ 12) ::
        digit (word a b c / 2 ^ 6) :: digit (word a b c) :: body, ?_, ?_⟩
      · simpa [digit_mem] using hbody
      · -- three more bytes do not change the padding
        have hmod : (rest.length + 1 + 1 + 1) % 3 = rest.length % 3 := Nat.add_mod_right _ 3
        rw [encode, heq, List.length_cons, List.length_cons, List.length_cons, hmod]
        rfl

end Radix64
