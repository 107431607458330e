import Mathlib.Data.List.Nodup

/-! # Comma-separated values

Rows of fields as text, over any alphabet in which four marks have a meaning: fields are joined by
commas, a quoted field doubles its quotes, and a row ends with a line feed or with a carriage return
and a line feed.

* **`parse`**: the rows of a text, none where the text is malformed. A strict parser also refuses a
  carriage return outside quotes that ends no row, the other one keeps it as text.
* **`Quoting`**, **`text`**: a writer that chooses which fields it quotes.
* **`parse_text`**: what both parsers make of every text of such a writer.
* **`parse_text_strict_iff`**, **`parse_text_lenient_iff`**: when the rows come back. -/

namespace Csv

/-- The four characters with a meaning. -/
structure Marks (α : Type*) where
  comma : α
  quote : α
  lf : α
  cr : α
  nodup : [comma, quote, lf, cr].Nodup

/-- The four marks are different characters. -/
theorem Marks.distinct {α : Type*} (marks : Marks α) :
    (marks.comma ≠ marks.quote ∧ marks.comma ≠ marks.lf ∧ marks.comma ≠ marks.cr) ∧
      (marks.quote ≠ marks.lf ∧ marks.quote ≠ marks.cr) ∧ marks.lf ≠ marks.cr := by
  simpa using marks.nodup

variable {α : Type*} [DecidableEq α] (marks : Marks α)

/-! ## (1) The parser -/

/-- Where in a field the parser is: outside quotes, between quotes, behind a quote that may have
closed the field. -/
inductive Mode
  | bare
  | quoted
  | closed

/-- The rows of a text, behind the characters `field` of a field and the fields `row` of a row. -/
def records (strict : Bool) :
    Mode → List α → List (List α) → List α → Option (List (List (List α)))
  | .bare, field, row, [] => if field = [] ∧ row = [] then some [] else some [row ++ [field]]
  | .quoted, _, _, [] => none
  | .closed, field, row, [] => some [row ++ [field]]
  | .quoted, field, row, c :: text =>
      if c = marks.quote then records strict .closed field row text
      else records strict .quoted (field ++ [c]) row text
  | .closed, field, row, c :: text =>
      if c = marks.comma then records strict .bare [] (row ++ [field]) text
      else if c = marks.lf then (records strict .bare [] [] text).map ((row ++ [field]) :: ·)
      else if c = marks.cr ∧ text.head? = some marks.lf then records strict .closed field row text
      else if c = marks.quote then records strict .quoted (field ++ [c]) row text
      else none
  | .bare, field, row, c :: text =>
      if c = marks.comma then records strict .bare [] (row ++ [field]) text
      else if c = marks.lf then (records strict .bare [] [] text).map ((row ++ [field]) :: ·)
      else if c = marks.cr ∧ text.head? = some marks.lf then records strict .bare field row text
      else if c = marks.quote then
        -- a quote opens a field only at its start
        if field = [] then records strict .quoted [] row text else none
      else if c = marks.cr ∧ strict = true then none
      else records strict .bare (field ++ [c]) row text

/-- The rows of a text, or `none` when it is no CSV text. -/
def parse (strict : Bool) (text : List α) : Option (List (List (List α))) :=
  records marks strict .bare [] [] text

/-! ## (2) The writer -/

/-- Which fields are quoted: at least those with a comma, a quote or a line feed. -/
structure Quoting where
  quotes : List α → Bool
  bare : ∀ field, quotes field = false →
    marks.comma ∉ field ∧ marks.quote ∉ field ∧ marks.lf ∉ field

/-- A field with its quotes doubled. -/
def escape (field : List α) : List α :=
  field.flatMap fun c => if c = marks.quote then [marks.quote, marks.quote] else [c]

variable {marks} (quoting : Quoting marks)

/-- A field as it is written: between quotes when the rule asks for them. -/
def field_text (field : List α) : List α :=
  if quoting.quotes field then marks.quote :: (escape marks field ++ [marks.quote]) else field

/-- A row as it is written. -/
def row_text : List (List α) → List α
  | [] => [marks.lf]
  | [field] => field_text quoting field ++ [marks.lf]
  | field :: next :: row => field_text quoting field ++ marks.comma :: row_text (next :: row)

/-- A file as it is written. -/
def text (rows : List (List (List α))) : List α := rows.flatMap (row_text quoting)

/-! ## (3) What is read of what was written -/

variable {strict : Bool} {field : List α} {row : List (List α)} {rest : List α}

/-- What is left of text in front of a line feed. -/
def dropCr (marks : Marks α) (field : List α) : List α :=
  if field.getLast? = some marks.cr then field.dropLast else field

/-- Nothing is dropped in front of a line feed unless a carriage return stands there. -/
theorem dropCr_eq_self_iff : dropCr marks field = field ↔ field.getLast? ≠ some marks.cr := by
  rw [dropCr]
  split
  · rename_i hlast
    have hne : field ≠ [] := by
      rintro rfl
      cases hlast
    have hlength : field.dropLast.length ≠ field.length := by
      rw [List.length_dropLast]
      have := List.length_pos_of_ne_nil hne
      omega
    exact ⟨fun heq => absurd (congrArg List.length heq) hlength, fun h => absurd hlast h⟩
  · rename_i hlast
    exact ⟨fun _ => hlast, fun _ => rfl⟩

/-- The part of a field that stands outside quotes. -/
def outside (field : List α) : List α := if quoting.quotes field then [] else field

/-- A row as it is read. -/
def readRow : List (List α) → List (List α)
  | [] => [[]]
  | [field] => [if quoting.quotes field then field else dropCr marks field]
  | field :: next :: row => field :: readRow (next :: row)

/-- What is read of a row outside quotes. -/
def outsideRow : List (List α) → List α
  | [] => []
  | [field] => dropCr marks (outside quoting field)
  | field :: next :: row => outside quoting field ++ outsideRow (next :: row)

/-- The result of a parser that has read `read` as text outside quotes. -/
def guardCr {β : Type*} (marks : Marks α) (strict : Bool) (read : List α) (result : Option β) :
    Option β :=
  if strict = true ∧ marks.cr ∈ read then none else result

section

variable {β γ : Type*} {read more : List α} {result : Option β}

/-- Nothing read is nothing to guard against. -/
@[simp] theorem guardCr_nil : guardCr marks strict [] result = result :=
  if_neg fun h => List.not_mem_nil h.2

/-- Guarding two pieces of text guards both. -/
theorem guardCr_append :
    guardCr marks strict (read ++ more) result =
      guardCr marks strict read (guardCr marks strict more result) := by
  unfold guardCr
  by_cases hread : strict = true ∧ marks.cr ∈ read
  · rw [if_pos hread, if_pos ⟨hread.1, List.mem_append_left _ hread.2⟩]
  · have hmore : (strict = true ∧ marks.cr ∈ read ++ more) ↔ (strict = true ∧ marks.cr ∈ more) := by
      rw [List.mem_append]
      tauto
    rw [if_neg hread, if_congr hmore rfl rfl]

/-- Guarding commutes with what is made of the result. -/
theorem guardCr_map (f : β → γ) :
    (guardCr marks strict read result).map f = guardCr marks strict read (result.map f) := by
  unfold guardCr
  split
  · rfl
  · rfl

end

/-- Outside quotes a comma ends the field. -/
theorem records_comma (mode : Mode) (h : mode ≠ .quoted) :
    records marks strict mode field row (marks.comma :: rest) =
      records marks strict .bare [] (row ++ [field]) rest := by
  cases mode with
  | bare => exact if_pos rfl
  | quoted => exact absurd rfl h
  | closed => exact if_pos rfl

/-- Outside quotes a line feed ends the row. -/
theorem records_lf (mode : Mode) (h : mode ≠ .quoted) :
    records marks strict mode field row (marks.lf :: rest) =
      (records marks strict .bare [] [] rest).map ((row ++ [field]) :: ·) := by
  have hne : marks.lf ≠ marks.comma := marks.distinct.1.2.1.symm
  cases mode with
  | bare => rw [records, if_neg hne, if_pos rfl]
  | quoted => exact absurd rfl h
  | closed => rw [records, if_neg hne, if_pos rfl]

/-- A character in a bare field that neither ends the field nor belongs to the end of a row. -/
theorem records_bare {c : α} (hcomma : c ≠ marks.comma) (hquote : c ≠ marks.quote)
    (hlf : c ≠ marks.lf) (hend : ¬(c = marks.cr ∧ rest.head? = some marks.lf)) :
    records marks strict .bare field row (c :: rest) =
      guardCr marks strict [c] (records marks strict .bare (field ++ [c]) row rest) := by
  have hread : (c = marks.cr ∧ strict = true) ↔ (strict = true ∧ marks.cr ∈ [c]) := by
    rw [List.mem_singleton, eq_comm, and_comm]
  rw [records, if_neg hcomma, if_neg hlf, if_neg hend, if_neg hquote, guardCr, if_congr hread rfl rfl]

/-- A carriage return in front of a line feed is part of the line's end. -/
theorem records_cr_lf :
    records marks strict .bare field row (marks.cr :: marks.lf :: rest) =
      records marks strict .bare field row (marks.lf :: rest) := by
  obtain ⟨⟨-, -, hcomma⟩, -, hlf⟩ := marks.distinct
  rw [records, if_neg hcomma.symm, if_neg hlf.symm, if_pos ⟨rfl, rfl⟩]

/-- At the beginning of a field a quotation mark opens it. -/
theorem records_quote :
    records marks strict .bare [] row (marks.quote :: rest) =
      records marks strict .quoted [] row rest := by
  obtain ⟨⟨hcomma, -, -⟩, ⟨hlf, hcr⟩, -⟩ := marks.distinct
  rw [records, if_neg hcomma.symm, if_neg hlf, if_neg (fun h => hcr h.1), if_pos rfl, if_pos rfl]

/-- Between quotes every character is read back, a doubled quote as one. -/
theorem records_escape (body : List α) :
    records marks strict .quoted field row (escape marks body ++ marks.quote :: rest) =
      records marks strict .closed (field ++ body) row rest := by
  obtain ⟨⟨hcomma, -, -⟩, ⟨hlf, hcr⟩, -⟩ := marks.distinct
  induction body generalizing field with
  | nil => rw [escape, List.flatMap_nil, List.nil_append, records, if_pos rfl, List.append_nil]
  | cons c body ih =>
      have happend : field ++ c :: body = field ++ [c] ++ body := by simp
      rw [happend, ← ih, escape, List.flatMap_cons, ← escape]
      split
      · -- the first quote seems to close the field, the second one goes on with it
        rename_i hc
        rw [hc, List.cons_append, List.singleton_append, List.cons_append, List.cons_append,
          records, if_pos rfl, records, if_neg hcomma.symm, if_neg hlf, if_neg (fun h => hcr h.1),
          if_pos rfl]
      · rename_i hc
        rw [List.singleton_append, List.cons_append, records, if_neg hc]

/-- Text without a mark, up to a carriage return that ends a row, is read as it stands. -/
theorem records_bare_append (body : List α) (hcomma : marks.comma ∉ body)
    (hquote : marks.quote ∉ body) (hlf : marks.lf ∉ body)
    (hend : rest.head? = some marks.lf → body.getLast? ≠ some marks.cr) :
    records marks strict .bare field row (body ++ rest) =
      guardCr marks strict body (records marks strict .bare (field ++ body) row rest) := by
  induction body generalizing field with
  | nil => rw [guardCr_nil, List.append_nil, List.nil_append]
  | cons c body ih =>
      obtain ⟨hc, hcomma⟩ := List.ne_and_not_mem_of_not_mem_cons hcomma
      obtain ⟨hq, hquote⟩ := List.ne_and_not_mem_of_not_mem_cons hquote
      obtain ⟨hl, hlf⟩ := List.ne_and_not_mem_of_not_mem_cons hlf
      have hnext : ¬(c = marks.cr ∧ (body ++ rest).head? = some marks.lf) := by
        rintro ⟨hcr, hhead⟩
        -- the character behind `c` is the first of `rest` or one of `body`
        cases body with
        | nil => exact hend hhead (congrArg some hcr)
        | cons next body =>
            obtain rfl : next = marks.lf := Option.some.inj hhead
            exact hlf List.mem_cons_self
      have hend' : rest.head? = some marks.lf → body.getLast? ≠ some marks.cr := by
        intro hhead hlast
        refine hend hhead ?_
        rw [List.getLast?_cons, hlast]
        rfl
      rw [List.cons_append, records_bare hc.symm hq.symm hl.symm hnext, ih hcomma hquote hlf hend',
        List.append_assoc, List.singleton_append, ← guardCr_append, List.singleton_append]

/-- A bare field in front of a comma. -/
theorem records_bare_comma (body : List α) (hcomma : marks.comma ∉ body)
    (hquote : marks.quote ∉ body) (hlf : marks.lf ∉ body) :
    records marks strict .bare field row (body ++ marks.comma :: rest) =
      guardCr marks strict body (records marks strict .bare [] (row ++ [field ++ body]) rest) := by
  have hend : (marks.comma :: rest).head? = some marks.lf → body.getLast? ≠ some marks.cr :=
    fun h => absurd (Option.some.inj h) marks.distinct.1.2.1
  rw [records_bare_append body hcomma hquote hlf hend, records_comma .bare nofun]

/-- A bare field in front of a line feed loses a carriage return at its end. -/
theorem records_bare_lf (body : List α) (hcomma : marks.comma ∉ body)
    (hquote : marks.quote ∉ body) (hlf : marks.lf ∉ body) :
    records marks strict .bare field row (body ++ marks.lf :: rest) =
      guardCr marks strict (dropCr marks body)
        ((records marks strict .bare [] [] rest).map
          ((row ++ [field ++ dropCr marks body]) :: ·)) := by
  by_cases hlast : body.getLast? = some marks.cr
  · -- this carriage return is read as the end of the row, and only `init` as text
    obtain ⟨init, rfl⟩ := List.getLast?_eq_some_iff.mp hlast
    have hend : (marks.cr :: marks.lf :: rest).head? = some marks.lf →
        init.getLast? ≠ some marks.cr :=
      fun h => absurd (Option.some.inj h).symm marks.distinct.2.2
    rw [dropCr, if_pos hlast, List.dropLast_concat, List.append_assoc, List.singleton_append,
      records_bare_append init (fun h => hcomma (List.mem_append_left _ h))
        (fun h => hquote (List.mem_append_left _ h)) (fun h => hlf (List.mem_append_left _ h)) hend,
      records_cr_lf, records_lf .bare nofun]
  · rw [dropCr, if_neg hlast, records_bare_append body hcomma hquote hlf (fun _ => hlast),
      records_lf .bare nofun]

/-- A field in front of a comma. -/
theorem records_field_comma (field : List α) :
    records marks strict .bare [] row (field_text quoting field ++ marks.comma :: rest) =
      guardCr marks strict (outside quoting field)
        (records marks strict .bare [] (row ++ [field]) rest) := by
  rw [field_text, outside]
  split
  · -- nothing of a quoted field stands outside quotes
    rw [guardCr_nil, List.cons_append, List.append_assoc, List.singleton_append, records_quote,
      records_escape, List.nil_append, records_comma .closed nofun]
  · rename_i hquotes
    obtain ⟨hcomma, hquote, hlf⟩ := quoting.bare field (eq_false_of_ne_true hquotes)
    rw [records_bare_comma field hcomma hquote hlf, List.nil_append]

/-- The last field of a row. -/
theorem records_field_lf (field : List α) :
    records marks strict .bare [] row (field_text quoting field ++ marks.lf :: rest) =
      guardCr marks strict (dropCr marks (outside quoting field))
        ((records marks strict .bare [] [] rest).map
          ((row ++ [if quoting.quotes field then field else dropCr marks field]) :: ·)) := by
  rw [field_text, outside]
  split
  · have hnil : dropCr marks [] = [] := dropCr_eq_self_iff.mpr nofun
    rw [hnil, guardCr_nil, List.cons_append, List.append_assoc,
      List.singleton_append, records_quote, records_escape, List.nil_append,
      records_lf .closed nofun]
  · rename_i hquotes
    obtain ⟨hcomma, hquote, hlf⟩ := quoting.bare field (eq_false_of_ne_true hquotes)
    rw [records_bare_lf field hcomma hquote hlf, List.nil_append]

/-- A row is read up to its line feed. -/
theorem records_row_text (row : List (List α)) {done : List (List α)} :
    records marks strict .bare [] done (row_text quoting row ++ rest) =
      guardCr marks strict (outsideRow quoting row)
        ((records marks strict .bare [] [] rest).map ((done ++ readRow quoting row) :: ·)) := by
  induction row generalizing done with
  | nil =>
      rw [row_text, List.singleton_append, records_lf .bare nofun, outsideRow, readRow,
        guardCr_nil]
  | cons field row ih =>
      cases row with
      | nil =>
          rw [row_text, List.append_assoc, List.singleton_append, records_field_lf, outsideRow,
            readRow]
      | cons next row =>
          rw [row_text, List.append_assoc, List.cons_append, records_field_comma, ih, outsideRow,
            readRow, List.append_assoc, List.singleton_append, guardCr_append]

/-- What is read of a text: a strict parser refuses it for a carriage return outside quotes, unless
it is the last character of a row. -/
theorem parse_text (rows : List (List (List α))) :
    parse marks strict (text quoting rows) =
      guardCr marks strict (rows.flatMap (outsideRow quoting))
        (some (rows.map (readRow quoting))) := by
  rw [parse]
  induction rows with
  | nil => rw [text, List.flatMap_nil, List.flatMap_nil, guardCr_nil]; rfl
  | cons row rows ih =>
      rw [text, List.flatMap_cons, ← text, records_row_text, ih, List.flatMap_cons, guardCr_append,
        guardCr_map, Option.map_some, List.map_cons, List.nil_append]

/-! ## (4) When the rows come back -/

/-- A row is read back as it was unless its last field ends in an unquoted carriage return. -/
theorem readRow_eq_self_iff {row : List (List α)} (hne : row ≠ []) :
    readRow quoting row = row ↔
      ∀ field ∈ row.getLast?, quoting.quotes field = false → field.getLast? ≠ some marks.cr := by
  induction row with
  | nil => exact absurd rfl hne
  | cons field row ih =>
      -- only the last field of the row can lose a carriage return to the line end
      cases row with
      | nil =>
          simp only [readRow, List.getLast?_singleton, Option.mem_some_iff, forall_eq']
          cases hquotes : quoting.quotes field with
          | true => simp
          | false => simpa using dropCr_eq_self_iff
      | cons next row =>
          rw [readRow, List.getLast?_cons_cons, ← ih (List.cons_ne_nil _ _)]
          exact ⟨fun h => (List.cons.inj h).2, fun h => congrArg (field :: ·) h⟩

/-- Where nothing is dropped and no carriage return is left, there was none. -/
theorem not_mem_dropCr_and_iff :
    (marks.cr ∉ dropCr marks field ∧ dropCr marks field = field) ↔ marks.cr ∉ field := by
  constructor
  · rintro ⟨hmem, heq⟩
    rwa [heq] at hmem
  · intro hmem
    have heq : dropCr marks field = field :=
      dropCr_eq_self_iff.mpr fun hlast => hmem (List.mem_of_getLast? hlast)
    exact ⟨heq.symm ▸ hmem, heq⟩

/-- To a strict reader, a row is read back when no carriage return stands unquoted. -/
theorem readRow_eq_self_and_iff (row : List (List α)) (hne : row ≠ []) :
    (marks.cr ∉ outsideRow quoting row ∧ readRow quoting row = row) ↔
      ∀ field ∈ row, quoting.quotes field = false → marks.cr ∉ field := by
  induction row with
  | nil => exact absurd rfl hne
  | cons field row ih =>
      cases row with
      | nil =>
          -- the last field: what stands in front of the line feed
          simp only [readRow, outsideRow, outside, List.mem_singleton, forall_eq]
          cases hquotes : quoting.quotes field with
          | true => simp [dropCr]
          | false => simpa using not_mem_dropCr_and_iff
      | cons next row =>
          -- an earlier field is read back in any case, so only its carriage returns count
          have hcons : readRow quoting (field :: next :: row) = field :: next :: row ↔
              readRow quoting (next :: row) = next :: row := by
            rw [readRow, List.cons.injEq, and_iff_right rfl]
          have houtside : marks.cr ∉ outside quoting field ↔
              (quoting.quotes field = false → marks.cr ∉ field) := by
            rw [outside]
            cases quoting.quotes field with
            | true => simp
            | false => simp
          rw [hcons, outsideRow, List.mem_append, not_or, and_assoc, ih (List.cons_ne_nil _ _),
            houtside]
          exact (List.forall_mem_cons
            (p := fun field => quoting.quotes field = false → marks.cr ∉ field)).symm

/-- A file is read back when each of its rows is. -/
theorem map_readRow_eq_self_iff {rows : List (List (List α))} :
    rows.map (readRow quoting) = rows ↔ ∀ row ∈ rows, readRow quoting row = row := by
  have h := List.map_eq_map_iff (f := readRow quoting) (g := id) (l := rows)
  rwa [List.map_id] at h

/-- A strict parser recovers the rows exactly when every field with a carriage return is quoted. -/
theorem parse_text_strict_iff {rows : List (List (List α))} (hne : ∀ row ∈ rows, row ≠ []) :
    parse marks true (text quoting rows) = some rows ↔
      ∀ row ∈ rows, ∀ field ∈ row, quoting.quotes field = false → marks.cr ∉ field := by
  have hparse : parse marks true (text quoting rows) = some rows ↔
      marks.cr ∉ rows.flatMap (outsideRow quoting) ∧ rows.map (readRow quoting) = rows := by
    rw [parse_text, guardCr]
    by_cases hmem : marks.cr ∈ rows.flatMap (outsideRow quoting)
    · simp [hmem]
    · rw [if_neg (fun h => hmem h.2), Option.some.injEq, and_iff_right hmem]
  rw [hparse, map_readRow_eq_self_iff, List.mem_flatMap]
  constructor
  · rintro ⟨hmem, hread⟩ row hrow
    exact (readRow_eq_self_and_iff quoting row (hne row hrow)).mp
      ⟨fun h => hmem ⟨row, hrow, h⟩, hread row hrow⟩
  · intro h
    have hrow := fun row hrow => (readRow_eq_self_and_iff quoting row (hne row hrow)).mpr (h row hrow)
    exact ⟨fun ⟨row, hmem, hcr⟩ => (hrow row hmem).1 hcr, fun row hmem => (hrow row hmem).2⟩

/-- A lenient parser recovers the rows exactly when every last field of a row that ends with a
carriage return is quoted. -/
theorem parse_text_lenient_iff {rows : List (List (List α))} (hne : ∀ row ∈ rows, row ≠ []) :
    parse marks false (text quoting rows) = some rows ↔
      ∀ row ∈ rows, ∀ field ∈ row.getLast?,
        quoting.quotes field = false → field.getLast? ≠ some marks.cr := by
  rw [parse_text, guardCr, if_neg (fun h => Bool.false_ne_true h.1), Option.some.injEq,
    map_readRow_eq_self_iff]
  exact forall₂_congr fun row hrow => readRow_eq_self_iff quoting (hne row hrow)

end Csv
