import Ironpulse.Core.JsonText
import Ironpulse.Lib.Delimiter

/-! # Query parameters

`query_param` (`src/api/ws_server.cpp`) reads what `_withToken` of the dashboard (`web/js/ws-client.js`)
writes with `encodeURIComponent`. Targets and values are byte strings, the dashboard's strings are
Unicode.

* **`query_param`**: the value of the first pair with a name, with percent decoding.
* **`encodeURIComponent`**, **`query`**: the dashboard's side.
* **`percent_decode_encodeURIComponent`**: decoding inverts encoding.
* **`token_reaches_server`**: the token arrives, whatever other parameters there are. -/

namespace Ironpulse.Api

open Core (utf8)
open Delimiter (splitFirst splitFirst_append)

/-! ## (1) The server -/

/-- `hex_value`: the value of a hexadecimal digit, or -1. -/
def hex_value (c : UInt8) : Int :=
  if '0'.toUInt8 ≤ c ∧ c ≤ '9'.toUInt8 then c.toNat - '0'.toNat
  else if 'a'.toUInt8 ≤ c ∧ c ≤ 'f'.toUInt8 then c.toNat - 'a'.toNat + 10
  else if 'A'.toUInt8 ≤ c ∧ c ≤ 'F'.toUInt8 then c.toNat - 'A'.toNat + 10
  else -1

/-- A byte that is no escape; `+` stands for a blank. -/
def decode_plus (c : UInt8) : UInt8 := if c = '+'.toUInt8 then ' '.toUInt8 else c

/-- An escape needs two hexadecimal digits behind the `%`; anything else is kept. -/
def percent_decode : List UInt8 → List UInt8
  | c :: high :: low :: rest =>
      if c = '%'.toUInt8 ∧ hex_value high ≥ 0 ∧ hex_value low ≥ 0 then
        UInt8.ofNat (hex_value high * 16 + hex_value low).toNat :: percent_decode rest
      else decode_plus c :: percent_decode (high :: low :: rest)
  | c :: rest => decode_plus c :: percent_decode rest
  | [] => []

/-- The loop over the pairs, which are what the `&` after the `?` separate. -/
def find_value (name : List UInt8) : List (List UInt8) → List UInt8
  | [] => []
  | pair :: pairs =>
      let (key, value) : List UInt8 × List UInt8 :=
        match splitFirst '='.toUInt8 pair with
        | some (key, value) => (key, percent_decode value)
        | none => (pair, [])
      if percent_decode key = name then value else find_value name pairs

/-- The value of a query parameter of a request target, empty if there is none. -/
def query_param (target name : List UInt8) : List UInt8 :=
  match splitFirst '?'.toUInt8 target with
  | some (_, query) => find_value name (query.splitOn '&'.toUInt8)
  | none => []

/-! ## (2) The dashboard -/

/-- The characters that `encodeURIComponent` does not escape. -/
def unescaped : List Char :=
  "ABCDEFGHIJKLMNOPQRSTUVWXYZabcdefghijklmnopqrstuvwxyz0123456789-_.!~*'()".toList

/-- An upper-case hexadecimal digit. -/
def hex_digit (n : UInt8) : UInt8 := if n < 10 then '0'.toUInt8 + n else 'A'.toUInt8 + (n - 10)

/-- The percent escape of a byte. -/
def escape (byte : UInt8) : List UInt8 :=
  ['%'.toUInt8, hex_digit (byte >>> 4), hex_digit (byte &&& 0x0F)]

/-- `encodeURIComponent` of one character: its UTF-8 bytes, escaped unless it is unreserved. -/
def encode_char (c : Char) : List UInt8 :=
  if c ∈ unescaped then [c.toUInt8] else (String.utf8EncodeChar c).flatMap escape

/-- `encodeURIComponent`: every byte of every other character is escaped. -/
def encodeURIComponent (text : String) : List UInt8 := text.toList.flatMap encode_char

/-- A parameter in a query: name, equals sign and value. -/
def encode_pair (pair : String × String) : List UInt8 :=
  encodeURIComponent pair.1 ++ '='.toUInt8 :: encodeURIComponent pair.2

/-- A query of pairs, with keys and values encoded. -/
def query (pairs : List (String × String)) : List UInt8 :=
  ['&'.toUInt8].intercalate (pairs.map encode_pair)

/-! ## (3) Decoding inverts encoding -/

/-- Decoding reads an escape as its byte. -/
theorem percent_decode_escape (byte : UInt8) (rest : List UInt8) :
    percent_decode (escape byte ++ rest) = byte :: percent_decode rest := by
  have hall : ∀ n < 256, hex_value (hex_digit (UInt8.ofNat n >>> 4)) ≥ 0 ∧
      hex_value (hex_digit (UInt8.ofNat n &&& 0x0F)) ≥ 0 ∧
      UInt8.ofNat (hex_value (hex_digit (UInt8.ofNat n >>> 4)) * 16 +
        hex_value (hex_digit (UInt8.ofNat n &&& 0x0F))).toNat = UInt8.ofNat n := by decide +kernel
  obtain ⟨hhigh, hlow, hvalue⟩ := hall byte.toNat byte.toNat_lt
  rw [UInt8.ofNat_toNat] at hhigh hlow hvalue
  change percent_decode (_ :: _ :: _ :: rest) = _
  rw [percent_decode, if_pos ⟨rfl, hhigh, hlow⟩, hvalue]

/-- Decoding keeps every other byte but the plus sign. -/
theorem percent_decode_cons {c : UInt8} (h : c ≠ '%'.toUInt8) (hplus : c ≠ '+'.toUInt8)
    (rest : List UInt8) : percent_decode (c :: rest) = c :: percent_decode rest := by
  have hkeep : decode_plus c = c := if_neg hplus
  match rest with
  | [] => exact congrArg (· :: _) hkeep
  | [_] => exact congrArg (· :: _) hkeep
  | _ :: _ :: _ => rw [percent_decode, if_neg (fun hc => h hc.1), hkeep]

/-- The bytes of an encoded text that mean something in a query. -/
def separators : List UInt8 := ['%', '+', '&', '=', '?'].map Char.toUInt8

/-- What is not escaped is ASCII and no separator. -/
theorem encode_unescaped : ∀ c ∈ unescaped,
    String.utf8EncodeChar c = [c.toUInt8] ∧ c.toUInt8 ∉ separators := by
  have hall : unescaped.all fun c =>
      String.utf8EncodeChar c = [c.toUInt8] ∧ c.toUInt8 ∉ separators := by decide +kernel
  exact fun c hc => of_decide_eq_true (List.all_eq_true.mp hall c hc)

/-- Decoding undoes the encoding of one character. -/
theorem percent_decode_encode_char (c : Char) (rest : List UInt8) :
    percent_decode (encode_char c ++ rest) = String.utf8EncodeChar c ++ percent_decode rest := by
  unfold encode_char
  split
  · -- an unescaped character is one byte, and no separator
    rename_i hc
    obtain ⟨hutf8, hsep⟩ := encode_unescaped c hc
    rw [hutf8]
    apply percent_decode_cons
    · rintro h
      exact hsep (h ▸ by decide)
    · rintro h
      exact hsep (h ▸ by decide)
  · -- every other character is the escapes of its bytes, one after another
    generalize String.utf8EncodeChar c = bytes
    induction bytes with
    | nil => rfl
    | cons byte bytes ih =>
        rw [List.flatMap_cons, List.append_assoc, percent_decode_escape, ih, List.cons_append]

/-- **Decoding inverts encoding.** -/
theorem percent_decode_encodeURIComponent (text : String) :
    percent_decode (encodeURIComponent text) = utf8 text.toList := by
  unfold encodeURIComponent utf8
  induction text.toList with
  | nil => rfl
  | cons c chars ih =>
      rw [List.flatMap_cons, percent_decode_encode_char, ih, List.flatMap_cons]

/-! ## (4) No separator in an encoded text -/

/-- An encoded text contains no separator. -/
theorem not_mem_encodeURIComponent {sep : UInt8} (h : sep ∈ ['&', '=', '?'].map Char.toUInt8)
    (text : String) : sep ∉ encodeURIComponent text := by
  have hescape : ∀ n < 256, ∀ s ∈ ['&', '=', '?'].map Char.toUInt8, s ∉ escape (UInt8.ofNat n) := by
    decide +kernel
  intro hmem
  obtain ⟨c, -, hc⟩ := List.mem_flatMap.mp hmem
  unfold encode_char at hc
  split at hc
  · -- a kept character is none of the three
    rename_i hkeep
    have hsep := (encode_unescaped c hkeep).2
    rw [← List.mem_singleton.mp hc] at hsep
    have hincluded : ∀ s ∈ ['&', '=', '?'].map Char.toUInt8, s ∈ separators := by
      simp [separators]
    exact hsep (hincluded sep h)
  · -- an escape has a percent sign and hexadecimal digits only
    obtain ⟨byte, -, hbyte⟩ := List.mem_flatMap.mp hc
    have hnot := hescape byte.toNat byte.toNat_lt sep h
    rw [UInt8.ofNat_toNat] at hnot
    exact hnot hbyte

/-- Two texts with the same bytes are the same. -/
theorem utf8_injective {a b : String} (h : utf8 a.toList = utf8 b.toList) : a = b := by
  have hencode : a.toList.utf8Encode = b.toList.utf8Encode := by
    rw [List.utf8Encode, List.utf8Encode]
    exact congrArg List.toByteArray h
  rw [String.utf8Encode_toList, String.utf8Encode_toList] at hencode
  exact String.toByteArray_inj.mp hencode

/-! ## (5) The value of a key -/

/-- One encoded pair. -/
theorem find_value_pair (name : String) (pair : String × String) (pairs : List (List UInt8)) :
    find_value (utf8 name.toList) (encode_pair pair :: pairs) =
      if pair.1 = name then utf8 pair.2.toList else find_value (utf8 name.toList) pairs := by
  have hsep : '='.toUInt8 ∉ encodeURIComponent pair.1 := not_mem_encodeURIComponent (by decide) _
  rw [find_value, encode_pair, splitFirst_append hsep]
  dsimp only
  rw [percent_decode_encodeURIComponent, percent_decode_encodeURIComponent]
  by_cases hkey : pair.1 = name
  · rw [if_pos hkey, if_pos (by rw [hkey])]
  · rw [if_neg hkey, if_neg fun h => hkey (utf8_injective h)]

/-- The first pair with the key is found. -/
theorem find_value_pairs (name value : String) {before : List (String × String)}
    (hbefore : ∀ pair ∈ before, pair.1 ≠ name) (after : List (String × String)) :
    find_value (utf8 name.toList) ((before ++ (name, value) :: after).map encode_pair) =
      utf8 value.toList := by
  induction before with
  | nil => rw [List.nil_append, List.map_cons, find_value_pair, if_pos rfl]
  | cons pair before ih =>
      obtain ⟨hpair, hbefore⟩ := List.forall_mem_cons.mp hbefore
      rw [List.cons_append, List.map_cons, find_value_pair, if_neg hpair, ih hbefore]

/-- An encoded parameter contains neither `&` nor `?`. -/
theorem not_mem_encode_pair {sep : UInt8} (h : sep ∈ ['&', '?'].map Char.toUInt8)
    (pair : String × String) : sep ∉ encode_pair pair := by
  have hsep : ∀ s ∈ ['&', '?'].map Char.toUInt8,
      s ∈ ['&', '=', '?'].map Char.toUInt8 ∧ s ≠ '='.toUInt8 := by
    simp
    decide
  obtain ⟨hincluded, hne⟩ := hsep sep h
  rw [encode_pair, List.mem_append, List.mem_cons, not_or, not_or]
  exact ⟨not_mem_encodeURIComponent hincluded _, hne, not_mem_encodeURIComponent hincluded _⟩

/-- **The value of a key arrives**, whatever pairs with other keys come before it and whatever comes
after it. -/
theorem query_param_query {path : List UInt8} (hpath : '?'.toUInt8 ∉ path) (name value : String)
    {before : List (String × String)} (hbefore : ∀ pair ∈ before, pair.1 ≠ name)
    (after : List (String × String)) :
    query_param (path ++ '?'.toUInt8 :: query (before ++ (name, value) :: after))
      (utf8 name.toList) = utf8 value.toList := by
  -- encoded parameters hold no `&`, so splitting there gives them back
  have hsplit : (query (before ++ (name, value) :: after)).splitOn '&'.toUInt8 =
      (before ++ (name, value) :: after).map encode_pair := by
    apply List.splitOn_intercalate
    · intro encoded hencoded
      obtain ⟨pair, -, rfl⟩ := List.mem_map.mp hencoded
      exact not_mem_encode_pair (by decide) pair
    · simp
  rw [query_param, splitFirst_append hpath]
  dsimp only
  rw [hsplit, find_value_pairs name value hbefore after]

/-- **The dashboard's token reaches the server.** -/
theorem token_reaches_server {path : List UInt8} (hpath : '?'.toUInt8 ∉ path) (token : String)
    {before : List (String × String)} (hbefore : ∀ pair ∈ before, pair.1 ≠ "token")
    (after : List (String × String)) :
    query_param (path ++ '?'.toUInt8 :: query (before ++ ("token", token) :: after))
      (utf8 "token".toList) = utf8 token.toList :=
  query_param_query hpath "token" token hbefore after

/-- A token with reserved characters between two other parameters. -/
theorem token_reaches_server_reserved :
    query_param (utf8 "/ws/live".toList ++ '?'.toUInt8 ::
        query ([("lang", "en")] ++ ("token", "a+b=100%&c") :: [("x", "1")]))
      (utf8 "token".toList) = utf8 "a+b=100%&c".toList :=
  token_reaches_server (by decide +kernel) _ (by decide) _

end Ironpulse.Api
