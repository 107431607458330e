import Ironpulse.Core.Json

/-! # JSON as text

What the JSON library writes for a value and what its accessors read out of a parsed one, with the
texts of the exceptions that they throw.

* **`Json.dump`**: the text without white space, non-ASCII characters unescaped.
* **`JsonLibrary`**: the parser and the texts of floating-point numbers, which stay parameters.
* **`Json.at_key`**, **`Json.elements`**, **`Json.get_uint32`**, **`Json.get_string_value`**,
  **`Json.value_string`**: the accessors. -/

namespace Ironpulse.Core

/-! ## (1) Writing -/

/-- The bytes of a text. -/
def utf8 (chars : List Char) : List UInt8 := chars.flatMap String.utf8EncodeChar

/-- Every character takes at least one byte. -/
theorem length_le_length_utf8 (chars : List Char) : chars.length ≤ (utf8 chars).length := by
  induction chars with
  | nil => exact Nat.le_refl 0
  | cons c chars ih =>
      have hpos : 0 < (String.utf8EncodeChar c).length := by
        rw [String.length_utf8EncodeChar]
        exact c.utf8Size_pos
      rw [utf8, List.flatMap_cons, List.length_append, List.length_cons]
      have := ih
      rw [utf8] at this
      omega

/-- A character inside a string literal. -/
def dump_char (c : Char) : List Char :=
  if c = '"' then ['\\', '"']
  else if c = '\\' then ['\\', '\\']
  else if c = '\n' then ['\\', 'n']
  else if c = '\r' then ['\\', 'r']
  else if c = '\t' then ['\\', 't']
  else if c.toNat = 8 then ['\\', 'b']
  else if c.toNat = 12 then ['\\', 'f']
  else if c.toNat < 32 then
    ['\\', 'u', '0', '0', Nat.digitChar (c.toNat / 16), Nat.digitChar (c.toNat % 16)]
  else [c]

/-- A dumped text: its escaped characters between quotation marks. -/
def dump_string (s : String) : List Char := '"' :: s.toList.flatMap dump_char ++ ['"']

/-- A dumped text is at least as long as the text. -/
theorem length_le_length_dump_string (s : String) : s.length ≤ (dump_string s).length := by
  have hchar : ∀ c, 1 ≤ (dump_char c).length := by
    intro c
    unfold dump_char
    -- every branch of the escape writes at least one character
    repeat' split
    all_goals exact Nat.le_add_left 1 _
  have hchars : ∀ chars : List Char, chars.length ≤ (chars.flatMap dump_char).length := by
    intro chars
    induction chars with
    | nil => exact Nat.le_refl 0
    | cons c chars ih =>
        have := hchar c
        rw [List.flatMap_cons, List.length_append, List.length_cons]
        omega
  have := hchars s.toList
  rw [String.length_toList] at this
  rw [dump_string, List.length_append, List.length_cons]
  omega

/-- The JSON library: its parser, which fails with the text of an exception, and its shortest texts
of floating-point numbers. -/
structure JsonLibrary where
  parse : List UInt8 → Except String Json
  dump_float : Double → List Char

namespace Json

variable (dump_float : Double → List Char)

mutual

/-- The text of a value. -/
def dumpChars : Json → List Char
  | .null => "null".toList
  | .boolean value => (toString value).toList
  | .number_integer value => (toString value).toList
  | .number_unsigned value => (toString value).toList
  | .number_float value => dump_float value
  | .string value => dump_string value
  | .array elements => '[' :: dumpElements elements ++ [']']
  | .object items => '\x7b' :: dumpItems items ++ ['\x7d']

/-- The elements of a dumped array, with commas between them. -/
def dumpElements : List Json → List Char
  | [] => []
  | [j] => dumpChars j
  | j :: rest => dumpChars j ++ ',' :: dumpElements rest

/-- The fields of a dumped object, with commas between them. -/
def dumpItems : List (String × Json) → List Char
  | [] => []
  | [(key, j)] => dump_string key ++ ':' :: dumpChars j
  | (key, j) :: rest => dump_string key ++ ':' :: dumpChars j ++ ',' :: dumpItems rest

end

/-- `dump()`. -/
def dump (j : Json) : List UInt8 := utf8 (dumpChars dump_float j)

/-! ## (2) Reading -/

/-- `type_name()`, as it stands in the texts of exceptions. -/
def type_name : Json → String
  | .null => "null"
  | .boolean _ => "boolean"
  | .number_integer _ | .number_unsigned _ | .number_float _ => "number"
  | .string _ => "string"
  | .array _ => "array"
  | .object _ => "object"

/-- The text of a `json::type_error`, with the name of the value's type. -/
def type_error (code : Nat) (text : String) (j : Json) : String :=
  "[json.exception.type_error." ++ toString code ++ "] " ++ text ++ j.type_name

/-- `at(key)`. -/
def at_key (j : Json) (key : String) : Except String Json :=
  match j with
  | .object items =>
      match items.lookup key with
      | some value => .ok value
      | none => .error ("[json.exception.out_of_range.403] key '" ++ key ++ "' not found")
  | _ => .error (j.type_error 304 "cannot use at() with ")

/-- The values that a range-based `for` goes through. -/
def elements : Json → List Json
  | .null => []
  | .array elements => elements
  | .object items => items.map Prod.snd
  | j => [j]

/-- `get<std::uint32_t>()`: truncates any number, and takes a boolean. -/
def get_uint32 : Json → Except String UInt32
  | .number_unsigned n => .ok n.toUInt32
  | .number_integer n => .ok n.toUInt64.toUInt32
  | .number_float (.finite d) => .ok (UInt32.ofInt (d.num.tdiv d.den))
  | .number_float _ => .ok 0
  | .boolean b => .ok (if b then 1 else 0)
  | j => .error (j.type_error 302 "type must be number, but is ")

/-- `get<std::string>()`. -/
def get_string_value : Json → Except String String
  | .string s => .ok s
  | j => .error (j.type_error 302 "type must be string, but is ")

/-- `value(key, default)` of a text. -/
def value_string (j : Json) (key fallback : String) : Except String String :=
  match j with
  | .object items =>
      match items.lookup key with
      | some value => value.get_string_value
      | none => .ok fallback
  | _ => .error (j.type_error 306 "cannot use value() with ")

end Json

end Ironpulse.Core
