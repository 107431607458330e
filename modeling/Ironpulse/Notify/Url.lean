import Ironpulse.Core.Config
import Ironpulse.Lib.Delimiter
import Mathlib.Data.List.TakeWhile

/-! # The URLs of the notification channels

`parse_url` (`src/notify/notifier.cpp`) cuts a URL at single delimiters, in a fixed order. What it is
meant to cut are the URLs of RFC 3986 with the schemes `http` and `https`.

* **`parse_url`**: the parser.
* **`HttpUrl`**, **`HttpUrl.text`**, **`HttpUrl.parts`**: a URL by its components, how it is written
  and what it should be parsed into.
* **`parse_url_text_iff`**: which of them are parsed so. -/

namespace Ironpulse.Notify

open Core (isspace stoull)
open Delimiter

/-! ## (1) The parser -/

/-- `Url`, the parts that the HTTP client needs. -/
structure Url where
  scheme : List Char
  host : List Char
  port : UInt16
  path : List Char
  deriving DecidableEq

/-- What comes before and after the first `://`. -/
def find_scheme_end : List Char → Option (List Char × List Char)
  | [] => none
  | ':' :: '/' :: '/' :: rest => some ([], rest)
  | c :: rest => (find_scheme_end rest).map fun (scheme, rest) => (c :: scheme, rest)

/-- The host and the text of the port. -/
def split_authority (authority : List Char) : Option (List Char × List Char) :=
  if authority.head? = some '[' then -- IPv6 literal
    match splitFirst ']' authority with
    | none => none
    | some (front, []) => some (front.tail, [])
    | some (front, ':' :: port_text) => some (front.tail, port_text)
    | some (_, _ :: _) => none
  else
    match splitLast ':' authority with
    | some (host, port_text) => some (host, port_text)
    | none => some (authority, [])

/-- `std::stoul` and how many characters it consumed, none where it throws. -/
def stoul (text : List Char) : Option (UInt64 × Nat) :=
  let blanks := text.takeWhile isspace
  let number := text.dropWhile isspace
  let sign := if number.head? = some '+' ∨ number.head? = some '-' then 1 else 0
  let digits := (number.drop sign).takeWhile Char.isDigit
  (stoull (String.ofList text)).map fun value => (value, blanks.length + sign + digits.length)

/-- `parse_port`: the number, or the scheme's default where there is none. -/
def parse_port (scheme port_text : List Char) : Option UInt16 :=
  if port_text.isEmpty then some (if scheme = "https".toList then 443 else 80)
  else
    match stoul port_text with
    | none => none
    | some (port, consumed) =>
        if consumed ≠ port_text.length ∨ port = 0 ∨ port > 65535 then none
        else some port.toUInt16

/-- The authority and the path. -/
def split_path (rest : List Char) : List Char × List Char :=
  match splitFirst '/' rest with
  | some (authority, path) => (authority, '/' :: path)
  | none => (rest, ['/'])

/-- `parse_url`, with `none` for a text it rejects. -/
def parse_url (text : List Char) : Option Url := do
  let (scheme, rest) ← find_scheme_end text
  if scheme ≠ "http".toList ∧ scheme ≠ "https".toList then none
  else
    let (authority, path) := split_path rest
    -- credentials are not supported
    if authority.isEmpty ∨ '@' ∈ authority then none
    else
      let (host, port_text) ← split_authority authority
      if host.isEmpty then none
      else
        let port ← parse_port scheme port_text
        return { scheme, host, port, path }

/-- What the parser accepts, piece by piece. -/
theorem parse_url_eq_some_iff {text : List Char} {url : Url} :
    parse_url text = some url ↔ ∃ rest authority port_text,
      find_scheme_end text = some (url.scheme, rest) ∧
      (url.scheme = "http".toList ∨ url.scheme = "https".toList) ∧
      split_path rest = (authority, url.path) ∧ authority ≠ [] ∧ '@' ∉ authority ∧
      split_authority authority = some (url.host, port_text) ∧ url.host ≠ [] ∧
      parse_port url.scheme port_text = some url.port := by
  constructor
  · -- the checks of the parser, in its order
    intro h
    obtain ⟨⟨scheme, rest⟩, hscheme, h⟩ := Option.bind_eq_some_iff.mp h
    dsimp only at h
    split at h
    · cases h
    · rename_i hsupported
      cases hpath : split_path rest with | mk authority path => ?_
      rw [hpath] at h
      dsimp only at h
      split at h
      · cases h
      · rename_i hauthority
        obtain ⟨⟨host, port_text⟩, hsplit, h⟩ := Option.bind_eq_some_iff.mp h
        dsimp only at h
        split at h
        · cases h
        · rename_i hhost
          obtain ⟨port, hport, h⟩ := Option.bind_eq_some_iff.mp h
          cases h
          exact ⟨rest, authority, port_text, hscheme, by tauto, hpath, by simp_all, by tauto, hsplit,
            by simpa using hhost, hport⟩
  · rintro ⟨rest, authority, port_text, hscheme, hsupported, hpath, hne, hat, hsplit, hhost, hport⟩
    rw [parse_url, hscheme, Option.bind_eq_bind, Option.bind_some]
    dsimp only
    rw [if_neg (by tauto), hpath]
    dsimp only
    rw [if_neg (by simp [hne, hat]), hsplit, Option.bind_some]
    dsimp only
    rw [if_neg (by simpa using hhost), hport]
    rfl

/-- A question mark of the authority is lost on neither side of the cut. -/
theorem question_mem_of_split_authority {authority host port_text : List Char}
    (h : split_authority authority = some (host, port_text)) (hquestion : '?' ∈ authority) :
    '?' ∈ host ∨ '?' ∈ port_text := by
  rw [split_authority] at h
  split at h
  · rename_i hbracket
    -- the first character of what the bracket ends is not the question mark
    have hfront : ∀ front rest, splitFirst ']' authority = some (front, rest) →
        '?' ∈ front → '?' ∈ front.tail := by
      intro front rest hfirst hmem
      rw [eq_append_of_splitFirst hfirst] at hbracket
      cases front with
      | nil => cases hmem
      | cons c front =>
          obtain rfl : c = '[' := by simpa using hbracket
          simpa using hmem
    split at h
    · cases h
    · rename_i front hfirst
      cases h
      rw [eq_append_of_splitFirst hfirst, List.mem_append, List.mem_singleton] at hquestion
      exact Or.inl (hfront front [] hfirst (hquestion.resolve_right (by decide)))
    · rename_i front port_text' hfirst
      cases h
      rw [eq_append_of_splitFirst hfirst] at hquestion
      simp only [List.mem_append, List.mem_cons] at hquestion
      obtain hmem | hmem | hmem | hmem := hquestion
      · exact Or.inl (hfront front _ hfirst hmem)
      · cases hmem
      · cases hmem
      · exact Or.inr hmem
    · cases h
  · split at h
    · rename_i host' port_text' hlast
      cases h
      rw [eq_append_of_splitLast hlast, List.mem_append, List.mem_cons] at hquestion
      obtain hmem | hmem | hmem := hquestion
      · exact Or.inl hmem
      · cases hmem
      · exact Or.inr hmem
    · cases h
      exact Or.inl hquestion

/-- A sign is no question mark. -/
theorem question_not_mem_sign (number : List Char) :
    '?' ∉ number.take (if number.head? = some '+' ∨ number.head? = some '-' then 1 else 0) := by
  cases number with
  | nil => exact List.not_mem_nil
  | cons c number =>
      split
      · rename_i hsign
        rw [List.take_one, List.head?_cons, Option.toList_some, List.mem_singleton]
        rintro rfl
        simp at hsign
      · exact List.not_mem_nil

/-- `std::stoul` consumes blanks, a sign and digits. -/
theorem consumed_lt_of_question {text : List Char} {value : UInt64} {consumed : Nat}
    (h : stoul text = some (value, consumed)) (hquestion : '?' ∈ text) : consumed < text.length := by
  obtain ⟨value', -, hpair⟩ := Option.map_eq_some_iff.mp h
  obtain ⟨-, rfl⟩ := Prod.mk.inj hpair
  set number := text.dropWhile isspace with hnumber
  set sign := if number.head? = some '+' ∨ number.head? = some '-' then 1 else 0 with hsign
  -- what is left behind the blanks, the sign and the digits
  have htext : text = text.takeWhile isspace ++ (number.take sign ++
      ((number.drop sign).takeWhile Char.isDigit ++ (number.drop sign).dropWhile Char.isDigit)) := by
    rw [List.takeWhile_append_dropWhile, List.take_append_drop, hnumber,
      List.takeWhile_append_dropWhile]
  have hblank : '?' ∉ text.takeWhile isspace := by
    intro hmem
    cases List.mem_takeWhile_imp hmem
  have hdigit : '?' ∉ (number.drop sign).takeWhile Char.isDigit := by
    intro hmem
    cases List.mem_takeWhile_imp hmem
  have hmark : '?' ∉ number.take sign := question_not_mem_sign number
  -- the question mark is none of these, so it is left over
  have hrest : '?' ∈ (number.drop sign).dropWhile Char.isDigit := by
    rw [htext] at hquestion
    simpa only [List.mem_append, hblank, hmark, hdigit, false_or] using hquestion
  have hpos := List.length_pos_of_mem hrest
  have hle : sign ≤ number.length := by
    rw [hsign]
    split
    · rename_i hhead
      cases hnil : number with
      | nil => simp [hnil] at hhead
      | cons c rest => simp
    · exact Nat.zero_le _
  have hlength := congrArg List.length htext
  simp only [List.length_append, List.length_take, Nat.min_eq_left hle] at hlength
  omega

/-- A port with a question mark behind it is refused. -/
theorem parse_port_of_question {port_text : List Char} (scheme : List Char)
    (hquestion : '?' ∈ port_text) : parse_port scheme port_text = none := by
  have hne : ¬port_text.isEmpty = true := by
    rw [List.isEmpty_iff]
    exact List.ne_nil_of_mem hquestion
  rw [parse_port, if_neg hne]
  split
  · rfl
  · rename_i port consumed hstoul
    exact if_pos (Or.inl (Nat.ne_of_lt (consumed_lt_of_question hstoul hquestion)))

/-- A question mark before the first slash ends in the host. -/
theorem question_mem_host {text : List Char} {url : Url} (h : parse_url text = some url)
    {scheme rest : List Char} (hscheme : find_scheme_end text = some (scheme, rest))
    (hquestion : '?' ∈ (split_path rest).1) : '?' ∈ url.host := by
  obtain ⟨rest', authority, port_text, hscheme', -, hpath, -, -, hsplit, -, hport⟩ :=
    parse_url_eq_some_iff.mp h
  obtain ⟨-, rfl⟩ := Prod.mk.inj (Option.some.inj (hscheme.symm.trans hscheme'))
  rw [hpath] at hquestion
  refine (question_mem_of_split_authority hsplit hquestion).resolve_right fun hmem => ?_
  rw [parse_port_of_question _ hmem] at hport
  cases hport

/-! ## (2) The URLs of RFC 3986 -/

/-- `unreserved` of the URI grammar. -/
def unreserved (c : Char) : Prop := c.isAlphanum = true ∨ c ∈ ['-', '.', '_', '~']

/-- `sub-delims` of the URI grammar. -/
def sub_delims (c : Char) : Prop := c ∈ ['!', '$', '&', '\'', '(', ')', '*', '+', ',', ';', '=']

/-- A character of a registered name; `%` begins an escape. -/
def name_char (c : Char) : Prop := unreserved c ∨ sub_delims c ∨ c = '%'

/-- `pchar` of the URI grammar, escapes apart. -/
def pchar (c : Char) : Prop := name_char c ∨ c = ':' ∨ c = '@'

/-- A character of an IPv6 address. -/
def address_char (c : Char) : Prop := c.isDigit = true ∨ c ∈ "abcdefABCDEF".toList ∨ c = ':' ∨ c = '.'

/-- The number that decimal digits spell. -/
def decimal (digits : List Char) : Nat := digits.foldl (fun n c => 10 * n + (c.toNat - '0'.toNat)) 0

/-- A host of the URI grammar. -/
inductive Host where
  /-- A registered name or an IPv4 address. -/
  | name (text : List Char) (nonempty : text ≠ []) (chars : ∀ c ∈ text, name_char c)
  /-- An IPv6 address, written in brackets. -/
  | ipv6 (text : List Char) (nonempty : text ≠ []) (chars : ∀ c ∈ text, address_char c)

namespace Host

/-- The host without brackets. -/
def bare : Host → List Char
  | name text _ _ => text
  | ipv6 text _ _ => text

/-- The host as it is written. -/
def text : Host → List Char
  | name text _ _ => text
  | ipv6 text _ _ => '[' :: (text ++ [']'])

end Host

/-- An absolute URL without user information and fragment. -/
structure HttpUrl where
  secure : Bool
  host : Host
  port : Option (List Char)
  path : List Char
  query : Option (List Char)
  port_valid : ∀ digits ∈ port, (∀ c ∈ digits, c.isDigit = true) ∧
    1 ≤ decimal digits ∧ decimal digits ≤ 65535
  path_valid : path = [] ∨ ∃ rest, path = '/' :: rest ∧ ∀ c ∈ rest, pchar c ∨ c = '/'
  query_valid : ∀ text ∈ query, ∀ c ∈ text, pchar c ∨ c = '/' ∨ c = '?'

namespace HttpUrl

variable (u : HttpUrl)

/-- The scheme as it is written. -/
def scheme : List Char := if u.secure then "https".toList else "http".toList

/-- The query with its question mark. -/
def query_text : List Char :=
  match u.query with
  | some query => '?' :: query
  | none => []

/-- The port as it is written, with its colon. -/
def port_text : List Char :=
  match u.port with
  | some digits => ':' :: digits
  | none => []

/-- The URL as it is written. -/
def text : List Char :=
  u.scheme ++ "://".toList ++ (u.host.text ++ u.port_text ++ (u.path ++ u.query_text))

/-- What the URL is to be parsed into: the path carries the query, and an empty path is `/`. -/
def parts : Url where
  scheme := u.scheme
  host := u.host.bare
  port := match u.port with
    | some digits => UInt16.ofNat (decimal digits)
    | none => if u.secure then 443 else 80
  path := (if u.path = [] then ['/'] else u.path) ++ u.query_text

end HttpUrl

/-! ## (3) What is parsed into its parts -/

/-- A character that breaks a rule is not in a text that keeps it. -/
theorem not_mem_of_forall {P : Char → Prop} {text : List Char} {c : Char} (h : ∀ c ∈ text, P c)
    (hc : ¬P c) : c ∉ text :=
  fun hmem => hc (h c hmem)

/-- The delimiters are not characters of a name. -/
theorem not_name_char {c : Char} (h : c ∈ ['/', '?', '@', ':', '[']) : ¬name_char c := by
  simp only [List.mem_cons, List.not_mem_nil, or_false] at h
  obtain rfl | rfl | rfl | rfl | rfl := h <;> simp [name_char, unreserved, sub_delims]

/-- The delimiters are not characters of an address. -/
theorem not_address_char {c : Char} (h : c ∈ ['/', '?', '@', ']']) : ¬address_char c := by
  simp only [List.mem_cons, List.not_mem_nil, or_false] at h
  obtain rfl | rfl | rfl | rfl := h <;> simp [address_char]

/-- The delimiters are not digits. -/
theorem not_isDigit {c : Char} (h : c ∈ ['/', '?', '@', ':']) : ¬c.isDigit = true := by
  simp only [List.mem_cons, List.not_mem_nil, or_false] at h
  obtain rfl | rfl | rfl | rfl := h <;> decide

/-- A digit is no blank. -/
theorem isspace_of_isDigit {c : Char} (h : c.isDigit = true) : isspace c = false := by
  rw [Char.isDigit, Bool.and_eq_true, decide_eq_true_iff, decide_eq_true_iff] at h
  have hblank : c ≠ ' ' := by
    rintro rfl
    exact absurd h.1 (by decide)
  have hreturn : ¬c ≤ '\r' := fun hle => absurd (UInt32.le_trans h.1 hle) (by decide)
  simp [isspace, hblank, hreturn]

/-- The value and the length of a number that fits in 64 bits. -/
theorem stoul_digits {digits : List Char} (hdigits : ∀ c ∈ digits, c.isDigit = true)
    (hne : digits ≠ []) (hlt : decimal digits < 2 ^ 64) :
    stoul digits = some (UInt64.ofNat (decimal digits), digits.length) := by
  obtain ⟨c, rest, rfl⟩ := List.exists_cons_of_ne_nil hne
  have hc : c.isDigit = true := hdigits c List.mem_cons_self
  -- a digit is no sign and no blank
  have hplus : c ≠ '+' := by
    rintro rfl
    cases hc
  have hminus : c ≠ '-' := by
    rintro rfl
    cases hc
  have hdrop : (c :: rest).dropWhile isspace = c :: rest :=
    List.dropWhile_cons_of_neg (by simp [isspace_of_isDigit hc])
  have htake : (c :: rest).takeWhile Char.isDigit = c :: rest :=
    List.takeWhile_eq_self_iff.mpr hdigits
  have hvalue : stoull (String.ofList (c :: rest)) = some (UInt64.ofNat (decimal (c :: rest))) := by
    rw [stoull, String.toList_ofList, hdrop]
    split
    · rename_i heq
      exact absurd (List.cons.inj heq).1 hplus
    · rename_i heq
      exact absurd (List.cons.inj heq).1 hminus
    · rw [htake, if_neg, if_neg (by simpa using hminus)]
      · rfl
      · rintro (hempty | hge)
        · cases hempty
        · exact absurd hlt (Nat.not_lt.mpr hge)
  have hblanks : (c :: rest).takeWhile isspace = [] :=
    List.takeWhile_cons_of_neg (by simp [isspace_of_isDigit hc])
  rw [stoul, hvalue, hdrop, hblanks, List.head?_cons, if_neg (by simp [hplus, hminus]),
    List.drop_zero, htake]
  simp

namespace Host

/-- A host has no delimiters in it. -/
theorem not_mem_text {c : Char} (h : c ∈ ['/', '?', '@']) (host : Host) : c ∉ host.text := by
  have hsub : c ∈ ['/', '?', '@', ':', '['] ∧ c ∈ ['/', '?', '@', ']'] ∧ c ≠ '[' ∧ c ≠ ']' := by
    simp only [List.mem_cons, List.not_mem_nil, or_false] at h
    obtain rfl | rfl | rfl := h <;> decide
  obtain ⟨hname, haddress, hopen, hclose⟩ := hsub
  cases host with
  | name text nonempty chars => exact not_mem_of_forall chars (not_name_char hname)
  | ipv6 text nonempty chars =>
      have htext := not_mem_of_forall chars (not_address_char haddress)
      simp [Host.text, hopen, hclose, htext]

/-- A host without its brackets has no question mark. -/
theorem question_not_mem_bare (host : Host) : '?' ∉ host.bare := by
  cases host with
  | name text nonempty chars => exact not_mem_of_forall chars (not_name_char (by decide))
  | ipv6 text nonempty chars => exact not_mem_of_forall chars (not_address_char (by decide))

/-- A host is not empty. -/
theorem bare_ne_nil (host : Host) : host.bare ≠ [] := by
  cases host with
  | name text nonempty chars => exact nonempty
  | ipv6 text nonempty chars => exact nonempty

end Host

namespace HttpUrl

variable (u : HttpUrl)

/-- The authority as it is written. -/
def authority : List Char := u.host.text ++ u.port_text

/-- The scheme is one that the code supports. -/
theorem scheme_supported : u.scheme = "http".toList ∨ u.scheme = "https".toList := by
  unfold scheme
  cases u.secure with
  | false => exact Or.inl rfl
  | true => exact Or.inr rfl

/-- The scheme of a written URL is found. -/
theorem find_scheme_end_text :
    find_scheme_end u.text = some (u.scheme, u.authority ++ (u.path ++ u.query_text)) := by
  unfold text scheme
  cases u.secure with
  | false => rfl
  | true => rfl

/-- The authority has no delimiter of the path in it. -/
theorem not_mem_authority {c : Char} (h : c ∈ ['/', '?', '@']) : c ∉ u.authority := by
  have hdelim : c ∈ ['/', '?', '@', ':'] ∧ c ≠ ':' := by
    simp only [List.mem_cons, List.not_mem_nil, or_false] at h
    obtain rfl | rfl | rfl := h <;> decide
  rw [authority, List.mem_append]
  refine not_or_intro (Host.not_mem_text h u.host) ?_
  unfold port_text
  split
  · rename_i digits hport
    rw [List.mem_cons]
    exact not_or_intro hdelim.2
      (not_mem_of_forall (u.port_valid digits hport).1 (not_isDigit hdelim.1))
  · exact List.not_mem_nil

/-- The authority is not empty. -/
theorem authority_ne_nil : u.authority ≠ [] := by
  rw [authority]
  cases u.host with
  | name text nonempty chars => exact List.append_ne_nil_of_left_ne_nil nonempty _
  | ipv6 text nonempty chars => exact List.cons_ne_nil _ _

/-- With a path or without a query, the authority ends where the code looks for its end. -/
theorem split_path_eq (h : u.path ≠ [] ∨ u.query = none) :
    split_path (u.authority ++ (u.path ++ u.query_text)) = (u.authority, u.parts.path) := by
  have hslash : '/' ∉ u.authority := u.not_mem_authority (by decide)
  obtain hpath | ⟨rest, hpath, -⟩ := u.path_valid
  · have hquery : u.query_text = [] := by
      rw [query_text, h.resolve_left (not_not.mpr hpath)]
    rw [parts, hpath, hquery, if_pos rfl, List.append_nil, List.append_nil, split_path,
      splitFirst_of_not_mem hslash]
    rfl
  · rw [parts, hpath, if_neg (List.cons_ne_nil _ _), List.cons_append, split_path,
      splitFirst_append hslash]

/-- The text of the port without its colon. -/
def port_digits : List Char := u.port.getD []

/-- **The authority is split** into its host and its port. -/
theorem split_authority_eq : split_authority u.authority = some (u.host.bare, u.port_digits) := by
  rw [split_authority]
  cases hhost : u.host with
  | name text nonempty chars =>
      -- a name has no colon: the last one, if any, stands in front of the port
      have hcolon : ':' ∉ text := not_mem_of_forall chars (not_name_char (by decide))
      have hname : u.authority = text ++ u.port_text := by rw [authority, hhost, Host.text]
      have hhead : ¬u.authority.head? = some '[' := by
        rw [hname, List.head?_append_of_ne_nil _ nonempty]
        intro hopen
        exact not_mem_of_forall chars (not_name_char (by decide)) (List.mem_of_mem_head? hopen)
      rw [if_neg hhead, hname, port_text, port_digits]
      cases hport : u.port with
      | none => rw [List.append_nil, splitLast_of_not_mem hcolon]; rfl
      | some digits =>
          have hdigits : ':' ∉ digits :=
            not_mem_of_forall (u.port_valid digits hport).1 (not_isDigit (by decide))
          rw [splitLast_append text hdigits]
          rfl
  | ipv6 text nonempty chars =>
      -- an address has colons, so the bracket is looked for
      have hclose : ']' ∉ '[' :: text := by
        rw [List.mem_cons]
        exact not_or_intro (by decide) (not_mem_of_forall chars (not_address_char (by decide)))
      have hbracket : u.authority = '[' :: text ++ ']' :: u.port_text := by
        rw [authority, hhost, Host.text, List.cons_append, List.append_assoc]
        rfl
      have hhead : ('[' :: text ++ ']' :: u.port_text).head? = some '[' := rfl
      rw [hbracket, if_pos hhead, splitFirst_append hclose, port_text, port_digits]
      cases u.port with
      | none => rfl
      | some digits => rfl

/-- The port of a written URL is read. -/
theorem parse_port_eq : parse_port u.scheme u.port_digits = some u.parts.port := by
  rw [parse_port, port_digits, parts]
  cases hport : u.port with
  | none =>
      unfold scheme
      cases u.secure with
      | false => rfl
      | true => rfl
  | some digits =>
      obtain ⟨hdigits, hpos, hle⟩ := u.port_valid digits hport
      have hne : digits ≠ [] := by
        rintro rfl
        cases hpos
      have hnat : (UInt64.ofNat (decimal digits)).toNat = decimal digits :=
        UInt64.toNat_ofNat_of_lt' (Nat.lt_of_le_of_lt hle (by decide))
      -- no comparison is about a truncated number
      have hrange : ¬(UInt64.ofNat (decimal digits) = 0 ∨ UInt64.ofNat (decimal digits) > 65535) := by
        rw [← UInt64.toNat_inj, gt_iff_lt, UInt64.lt_iff_toNat_lt, hnat]
        simp
        omega
      rw [Option.getD_some, if_neg (by simpa using hne), stoul_digits hdigits hne (by omega)]
      dsimp only
      rw [if_neg (by tauto), UInt64.toUInt16_ofNat']

/-- A URL is parsed into its parts exactly when its authority ends with the URL or at a slash: a
query that follows the authority ends in the host, or the URL is refused. -/
theorem parse_url_text_iff : parse_url u.text = some u.parts ↔ u.path ≠ [] ∨ u.query = none := by
  constructor
  · intro h
    by_contra hcondition
    obtain ⟨hpath, hquery⟩ := not_or.mp hcondition
    obtain ⟨query, hquery⟩ := Option.ne_none_iff_exists'.mp hquery
    -- the question mark stands in front of the first slash, if there is one at all
    refine Host.question_not_mem_bare u.host (question_mem_host h u.find_scheme_end_text ?_)
    have hslash : '/' ∉ u.authority := u.not_mem_authority (by decide)
    have htext : u.query_text = '?' :: query := by rw [query_text, hquery]
    rw [not_not.mp hpath, htext, List.nil_append]
    by_cases hmem : '/' ∈ query
    · -- the first slash of the query ends the authority
      obtain ⟨front, rest, rfl, hfront⟩ := List.eq_append_cons_of_mem hmem
      have hnot : '/' ∉ u.authority ++ '?' :: front := by simp [hslash, hfront]
      rw [split_path, ← List.cons_append, ← List.append_assoc, splitFirst_append hnot]
      exact List.mem_append_right _ List.mem_cons_self
    · have hnot : '/' ∉ u.authority ++ '?' :: query := by simp [hslash, hmem]
      rw [split_path, splitFirst_of_not_mem hnot]
      exact List.mem_append_right _ List.mem_cons_self
  · intro h
    exact parse_url_eq_some_iff.mpr ⟨_, _, _, u.find_scheme_end_text, u.scheme_supported,
      u.split_path_eq h, u.authority_ne_nil, u.not_mem_authority (by decide), u.split_authority_eq,
      u.host.bare_ne_nil, u.parse_port_eq⟩

example : parse_url "https://[::1]:08443/a?b=/@".toList =
    some { scheme := "https".toList, host := "::1".toList, port := 8443, path := "/a?b=/@".toList } := by
  decide

/-- `http://host?x=1`. -/
def bare_query : HttpUrl where
  secure := false
  host := Host.name "host".toList (by decide) (by simp [name_char, unreserved])
  port := none
  path := []
  query := some "x=1".toList
  port_valid := nofun
  path_valid := Or.inl rfl
  query_valid := by simp [pchar, name_char, unreserved, sub_delims]

/-- The whole rest of the URL is taken for the host. -/
theorem bare_query_in_host :
    bare_query.text = "http://host?x=1".toList ∧
      parse_url bare_query.text =
        some { scheme := "http".toList, host := "host?x=1".toList, port := 80, path := ['/'] } ∧
      bare_query.parts =
        { scheme := "http".toList, host := "host".toList, port := 80, path := "/?x=1".toList } ∧
      parse_url bare_query.text ≠ some bare_query.parts := by
  decide

end HttpUrl

end Ironpulse.Notify
