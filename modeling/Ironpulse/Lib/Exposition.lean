import Mathlib.Data.List.Basic
import Mathlib.Data.List.TakeWhile

/-! # The text exposition format of metrics

The line-based text format in which a monitoring system reads metrics: a sample is a metric name, an
optional list of labels in braces, a value and an optional time stamp; blanks may stand between any
of them. Label values are quoted, with escapes for backslash, quote and line feed. Blank lines and
lines that start with a hash are no samples.

* **`parseSample`**, **`parse`**: a sample line and a whole text.
* **`escape`**, **`labelsText`**: label values and labels as they are written.
* **`parseSample_line`**: a written sample is read back, with any label values.
* **`labelsText_inj`**: different lists of labels are written differently.
* **`Reads`**: a part of a text that is read as some samples, whatever comes next. -/

namespace Exposition

/-- A text of the format, character by character. -/
abbrev Text := List Char

/-- Label names with their values, in the order in which they are written. -/
abbrev Labels := List (Text × Text)

/-- A sample line: metric, labels and the text of the value. -/
structure Sample where
  name : Text
  labels : Labels
  value : Text
  timestamp : Option Text := none
  deriving DecidableEq

/-! ## (1) Characters and names -/

/-- Spaces and tabs between the tokens of a line. -/
def isBlank (c : Char) : Bool := c = ' ' || c = '\t'

/-- A character without a meaning in the format. -/
def isPlain (c : Char) : Bool :=
  !isBlank c && c ≠ '\n' && c ≠ '{' && c ≠ '}' && c ≠ '=' && c ≠ '"' && c ≠ ',' && c ≠ '\\' &&
    c ≠ '#'

/-- Which names of metrics and labels are allowed. -/
structure NameRule where
  metric : Text → Bool
  label : Text → Bool

/-- The names of the format: letters, digits and underscores, for metrics also colons, and no digit
in front. -/
def NameRule.standard : NameRule where
  metric
    | [] => false
    | c :: rest => (c.isAlpha || c = '_' || c = ':') &&
        rest.all fun c => c.isAlpha || c.isDigit || c = '_' || c = ':'
  label
    | [] => false
    | c :: rest => (c.isAlpha || c = '_') && rest.all fun c => c.isAlpha || c.isDigit || c = '_'

/-- A metric name: it is not empty, without special characters and allowed. -/
structure MetricName (rule : NameRule) (name : Text) : Prop where
  nonempty : name ≠ []
  plain : name.all isPlain = true
  allowed : rule.metric name = true

/-- A label name: without special characters and allowed. -/
structure LabelName (rule : NameRule) (name : Text) : Prop where
  plain : name.all isPlain = true
  allowed : rule.label name = true

/-- All labels have label names; their values are any text. -/
def LabelNames (rule : NameRule) (labels : Labels) : Prop := ∀ label ∈ labels, LabelName rule label.1

/-! ## (2) The parser -/

variable (rule : NameRule)

/-- The text behind its leading blanks. -/
def skipBlanks (text : Text) : Text := text.dropWhile isBlank

/-- What is behind a mark that comes next. -/
def expect (mark : Char) (text : Text) : Option Text :=
  match skipBlanks text with
  | [] => none
  | c :: rest => if c = mark then some rest else none

/-- A label value and what is behind its closing quote. -/
def readQuoted : Text → Option (Text × Text)
  | [] => none
  | '"' :: rest => some ([], rest)
  | '\\' :: '\\' :: rest => (readQuoted rest).map fun (value, rest) => ('\\' :: value, rest)
  | '\\' :: '"' :: rest => (readQuoted rest).map fun (value, rest) => ('"' :: value, rest)
  | '\\' :: 'n' :: rest => (readQuoted rest).map fun (value, rest) => ('\n' :: value, rest)
  | c :: rest =>
      if c = '\\' ∨ c = '\n' then none
      else (readQuoted rest).map fun (value, rest) => (c :: value, rest)

/-- A label and what is behind it. -/
def readLabel (text : Text) : Option ((Text × Text) × Text) :=
  let name := (skipBlanks text).takeWhile isPlain
  if rule.label name then do
    let rest ← expect '=' ((skipBlanks text).dropWhile isPlain)
    let rest ← expect '"' rest
    let (value, rest) ← readQuoted rest
    return ((name, value), rest)
  else none

/-- The labels behind an opening brace, which may end with a comma, and what is behind the closing
one. -/
def readLabels : Nat → Text → Option (Labels × Text)
  | 0, _ => none
  | fuel + 1, text =>
      match expect '}' text with
      | some rest => some ([], rest)
      | none => do
          let (label, rest) ← readLabel rule text
          match expect ',' rest with
          | some rest => do
              let (labels, rest) ← readLabels fuel rest
              return (label :: labels, rest)
          | none => do
              let rest ← expect '}' rest
              return ([label], rest)

/-- The labels of a sample, if it has any. -/
def readLabelSet (text : Text) : Option (Labels × Text) :=
  match expect '{' text with
  | some rest => readLabels rule rest.length rest
  | none => some ([], text)

/-- The parts of a text between blanks. -/
def tokens (text : Text) : List Text := (text.splitOnP isBlank).filter (· ≠ [])

/-- A sample line. -/
def parseSample (line : Text) : Option Sample :=
  let name := (skipBlanks line).takeWhile isPlain
  if name ≠ [] ∧ rule.metric name = true then do
    let (labels, rest) ← readLabelSet rule ((skipBlanks line).dropWhile isPlain)
    match tokens rest with
    | [value] => if value.all isPlain then some { name, labels, value } else none
    | [value, timestamp] =>
        if value.all isPlain && timestamp.all isPlain then
          some { name, labels, value, timestamp := some timestamp }
        else none
    | _ => none
  else none

/-- A line that is neither blank nor a comment. -/
def isSampleLine (line : Text) : Bool :=
  match skipBlanks line with
  | [] => false
  | c :: _ => c ≠ '#'

/-- The samples of a text, none if a line of it is malformed. -/
def parse (text : Text) : Option (List Sample) :=
  ((text.splitOn '\n').filter isSampleLine).mapM (parseSample rule)

/-! ## (3) The writer -/

/-- A character of a label value: backslash, quotation mark and line feed are escaped. -/
def escapeChar (c : Char) : Text :=
  if c = '\\' then ['\\', '\\'] else if c = '"' then ['\\', '"'] else if c = '\n' then ['\\', 'n']
  else [c]

/-- A label value between its quotes. -/
def escape (value : Text) : Text := value.flatMap escapeChar

/-- A label as it is written. -/
def labelText (label : Text × Text) : Text := label.1 ++ '=' :: '"' :: (escape label.2 ++ ['"'])

/-- The labels in braces, nothing if there are none. -/
def labelsText : Labels → Text
  | [] => []
  | label :: labels =>
      '{' :: (labelText label ++ labels.flatMap (fun label => ',' :: labelText label) ++ ['}'])

/-! ## (4) Reading what was written -/

section Reading

variable {rule} {name value rest : Text} {label : Text × Text} {labels : Labels}

/-- A plain character is no blank. -/
theorem not_isBlank_of_isPlain {c : Char} (h : isPlain c = true) : isBlank c = false := by
  by_contra hblank
  rw [Bool.not_eq_false] at hblank
  simp [isPlain, hblank] at h

/-- In front of another character there is nothing to skip. -/
theorem skipBlanks_cons {c : Char} (h : isBlank c = false) (text : Text) :
    skipBlanks (c :: text) = c :: text := List.dropWhile_cons_of_neg (by simp [h])

/-- A mark is expected of the next character. -/
theorem expect_cons {c : Char} (h : isBlank c = false) (mark : Char) (text : Text) :
    expect mark (c :: text) = if c = mark then some text else none := by
  rw [expect, skipBlanks_cons h]

/-- A name ends at the first special character. -/
theorem takeWhile_name {c : Char} (h : name.all isPlain = true) (hc : isPlain c = false)
    (rest : Text) : (name ++ c :: rest).takeWhile isPlain = name := by
  rw [List.takeWhile_append_of_pos fun a ha => List.all_eq_true.mp h a ha,
    List.takeWhile_cons_of_neg (by simp [hc]), List.append_nil]

/-- A name ends where a character is not plain any more. -/
theorem dropWhile_name {c : Char} (h : name.all isPlain = true) (hc : isPlain c = false)
    (rest : Text) : (name ++ c :: rest).dropWhile isPlain = c :: rest := by
  rw [List.dropWhile_append_of_pos fun a ha => List.all_eq_true.mp h a ha,
    List.dropWhile_cons_of_neg (by simp [hc])]

/-- No blank is skipped in front of a name. -/
theorem skipBlanks_name {c : Char} (h : name.all isPlain = true) (hc : isBlank c = false)
    (rest : Text) : skipBlanks (name ++ c :: rest) = name ++ c :: rest := by
  cases name with
  | nil => exact skipBlanks_cons hc rest
  | cons d name =>
      rw [List.all_cons, Bool.and_eq_true] at h
      exact skipBlanks_cons (not_isBlank_of_isPlain h.1) _

/-- **A label value is read back**, whatever it contains. -/
theorem readQuoted_escape (value rest : Text) :
    readQuoted (escape value ++ '"' :: rest) = some (value, rest) := by
  induction value with
  | nil => rfl
  | cons c value ih =>
      have hcons : escape (c :: value) = escapeChar c ++ escape value := List.flatMap_cons
      rw [hcons, List.append_assoc, escapeChar]
      -- the three escaped characters, then any other
      by_cases hbackslash : c = '\\'
      · subst hbackslash
        simp [readQuoted, ih]
      · by_cases hquote : c = '"'
        · subst hquote
          simp [readQuoted, ih]
        · by_cases hfeed : c = '\n'
          · subst hfeed
            simp [readQuoted, ih]
          · rw [if_neg hbackslash, if_neg hquote, if_neg hfeed]
            simp [readQuoted, hbackslash, hfeed, ih]

/-- A label is read back. -/
theorem readLabel_labelText (h : LabelName rule label.1) (rest : Text) :
    readLabel rule (labelText label ++ rest) = some (label, rest) := by
  have htext : labelText label ++ rest =
      label.1 ++ '=' :: '"' :: (escape label.2 ++ '"' :: rest) := by
    simp [labelText]
  rw [htext, readLabel, skipBlanks_name h.plain rfl]
  simp only [takeWhile_name h.plain (c := '=') rfl, dropWhile_name h.plain (c := '=') rfl, h.allowed,
    if_true, expect_cons (c := '=') rfl, expect_cons (c := '"') rfl, Option.bind_eq_bind,
    Option.bind_some, readQuoted_escape]
  rfl

/-- A label does not start with a closing brace. -/
theorem expect_brace_labelText (h : LabelName rule label.1) (rest : Text) :
    expect '}' (labelText label ++ rest) = none := by
  obtain ⟨name, value⟩ := label
  cases name with
  | nil => rfl
  | cons c name =>
      have hplain := h.plain
      rw [List.all_cons, Bool.and_eq_true] at hplain
      have hne : c ≠ '}' := by
        rintro rfl
        exact absurd hplain.1 (by decide)
      exact (expect_cons (not_isBlank_of_isPlain hplain.1) '}' _).trans (if_neg hne)

/-- **The labels are read back**, and the closing brace ends them. -/
theorem readLabels_flatMap (hlabel : LabelName rule label.1) (hlabels : LabelNames rule labels)
    {fuel : Nat} (hfuel : labels.length < fuel) (rest : Text) :
    readLabels rule fuel
        (labelText label ++ labels.flatMap (fun label => ',' :: labelText label) ++ '}' :: rest) =
      some (label :: labels, rest) := by
  induction labels generalizing label fuel with
  | nil =>
      obtain ⟨fuel, rfl⟩ := Nat.exists_eq_add_of_lt hfuel
      -- No comma follows the last label, so the closing brace does.
      rw [List.flatMap_nil, List.append_nil, readLabels, expect_brace_labelText hlabel,
        readLabel_labelText hlabel]
      rfl
  | cons next labels ih =>
      obtain ⟨hnext, hlabels⟩ := List.forall_mem_cons.mp hlabels
      obtain ⟨fuel, rfl⟩ : ∃ k, fuel = k + 1 := ⟨fuel - 1, by omega⟩
      have hshort : labels.length < fuel := by
        rw [List.length_cons] at hfuel
        omega
      rw [List.flatMap_cons, List.append_assoc, List.cons_append, List.cons_append, readLabels,
        expect_brace_labelText hlabel, readLabel_labelText hlabel]
      simp only [Option.bind_eq_bind, Option.bind_some, expect_cons (c := ',') rfl, if_true]
      rw [ih hnext hlabels hshort]
      rfl

/-- Written labels are at least one character each. -/
theorem length_flatMap_labelText (labels : Labels) :
    labels.length ≤ (labels.flatMap fun label => ',' :: labelText label).length := by
  induction labels with
  | nil => exact Nat.le_refl 0
  | cons label labels ih =>
      rw [List.flatMap_cons, List.length_append, List.length_cons, List.length_cons]
      omega

/-- The labels of a sample are read back in front of its value. -/
theorem readLabelSet_labelsText (h : LabelNames rule labels) (hvalue : value.all isPlain = true)
    (hne : value ≠ []) :
    readLabelSet rule (labelsText labels ++ ' ' :: value) = some (labels, ' ' :: value) := by
  cases labels with
  | nil =>
      obtain ⟨c, value, rfl⟩ := List.exists_cons_of_ne_nil hne
      rw [List.all_cons, Bool.and_eq_true] at hvalue
      -- Without labels the value comes next, which does not start with a brace.
      have hbrace : c ≠ '{' := by
        rintro rfl
        exact absurd hvalue.1 (by decide)
      have hskip : skipBlanks (' ' :: c :: value) = c :: value := by
        rw [skipBlanks, List.dropWhile_cons_of_pos rfl]
        exact skipBlanks_cons (not_isBlank_of_isPlain hvalue.1) value
      have hnone : expect '{' (' ' :: c :: value) = none := by
        rw [expect, hskip]
        exact if_neg hbrace
      rw [labelsText, List.nil_append, readLabelSet, hnone]
  | cons label labels =>
      obtain ⟨hlabel, hlabels⟩ := List.forall_mem_cons.mp h
      have hlength := length_flatMap_labelText labels
      rw [labelsText, List.cons_append, readLabelSet, expect_cons rfl, if_pos rfl, List.append_assoc]
      refine readLabels_flatMap hlabel hlabels ?_ (' ' :: value)
      simp only [List.length_append, List.length_cons]
      omega

/-- A value behind a blank is the only part of its text. -/
theorem tokens_value (hvalue : value.all isPlain = true) (hne : value ≠ []) :
    tokens (' ' :: value) = [value] := by
  have hsplit : (' ' :: value).splitOnP isBlank = [[], value] := by
    have hblank : ∀ c ∈ value, isBlank c = false :=
      fun c hc => not_isBlank_of_isPlain (List.all_eq_true.mp hvalue c hc)
    rw [← List.nil_append (' ' :: value), List.splitOnP_append_cons_of_forall_mem (by simp) ' ' rfl,
      List.splitOnP_eq_singleton hblank]
  simp [tokens, hsplit, hne]

/-- **A sample is read back**: its name, its labels in their order and its value. -/
theorem parseSample_line (hname : MetricName rule name) (hlabels : LabelNames rule labels)
    (hvalue : value.all isPlain = true) (hne : value ≠ []) :
    parseSample rule (name ++ labelsText labels ++ ' ' :: value) = some { name, labels, value } := by
  -- The name ends at the brace of the labels or at the blank in front of the value.
  obtain ⟨c, rest, hspecial, hrest⟩ : ∃ c rest, isPlain c = false ∧
      labelsText labels ++ ' ' :: value = c :: rest := by
    cases labels with
    | nil => exact ⟨' ', value, rfl, rfl⟩
    | cons label labels => exact ⟨'{', _, rfl, rfl⟩
  have hskip : skipBlanks (name ++ c :: rest) = name ++ c :: rest := by
    obtain ⟨d, name, rfl⟩ := List.exists_cons_of_ne_nil hname.nonempty
    have hplain := hname.plain
    rw [List.all_cons, Bool.and_eq_true] at hplain
    exact skipBlanks_cons (not_isBlank_of_isPlain hplain.1) _
  rw [List.append_assoc, hrest, parseSample, hskip]
  simp only [takeWhile_name hname.plain hspecial, dropWhile_name hname.plain hspecial]
  rw [if_pos ⟨hname.nonempty, hname.allowed⟩, ← hrest, readLabelSet_labelsText hlabels hvalue hne]
  simp only [Option.bind_eq_bind, Option.bind_some, tokens_value hvalue hne, hvalue, if_true]

/-- **Different lists of labels are written differently.** -/
theorem labelsText_inj {labels' : Labels} (h : LabelNames rule labels) (h' : LabelNames rule labels')
    (heq : labelsText labels = labelsText labels') : labels = labels' := by
  -- A reader of the two texts, in front of the same value, finds both lists.
  have hread := @readLabelSet_labelsText rule ['0'] labels h rfl (List.cons_ne_nil _ _)
  rw [heq, readLabelSet_labelsText h' rfl (List.cons_ne_nil _ _)] at hread
  cases hread
  rfl

end Reading

/-! ## (5) Lines -/

section Lines

variable {rule} {name value line text : Text} {labels : Labels}

/-- A plain text has no line feed. -/
theorem not_mem_of_plain (h : name.all isPlain = true) : '\n' ∉ name := by
  intro hmem
  exact absurd (List.all_eq_true.mp h _ hmem) (by decide)

/-- An escaped text has no line feed. -/
theorem not_mem_escape (value : Text) : '\n' ∉ escape value := by
  intro hmem
  obtain ⟨c, -, hc⟩ := List.mem_flatMap.mp hmem
  unfold escapeChar at hc
  split at hc
  · revert hc
    decide
  · split at hc
    · revert hc
      decide
    · split at hc
      · revert hc
        decide
      · -- A character that stays as it is was not a line feed.
        rename_i hfeed
        exact hfeed (List.mem_singleton.mp hc).symm

/-- A written label has no line feed. -/
theorem not_mem_labelText {label : Text × Text} (h : LabelName rule label.1) :
    '\n' ∉ labelText label := by
  simp [labelText, not_mem_of_plain h.plain, not_mem_escape]

/-- Written labels have no line feed. -/
theorem not_mem_labelsText (h : LabelNames rule labels) : '\n' ∉ labelsText labels := by
  cases labels with
  | nil => exact List.not_mem_nil
  | cons label labels =>
      obtain ⟨hlabel, hlabels⟩ := List.forall_mem_cons.mp h
      have hrest : '\n' ∉ labels.flatMap fun label => ',' :: labelText label := by
        intro hmem
        obtain ⟨label', hlabel', hc⟩ := List.mem_flatMap.mp hmem
        obtain heq | hc := List.mem_cons.mp hc
        · exact absurd heq (by decide)
        · exact not_mem_labelText (hlabels label' hlabel') hc
      simp only [labelsText, List.mem_cons, List.mem_append, List.not_mem_nil, not_or, or_false]
      exact ⟨by decide, ⟨not_mem_labelText hlabel, hrest⟩, by decide⟩

/-- A written sample in front of other lines. -/
theorem parse_line (hname : MetricName rule name) (hlabels : LabelNames rule labels)
    (hvalue : value.all isPlain = true) (hne : value ≠ []) (text : Text) :
    parse rule (name ++ labelsText labels ++ ' ' :: value ++ '\n' :: text) =
      (parse rule text).map ({ name, labels, value } :: ·) := by
  -- a line feed ends the line and stands nowhere inside it
  have hfeed : '\n' ∉ name ++ labelsText labels ++ ' ' :: value := by
    simp [not_mem_of_plain hname.plain, not_mem_labelsText hlabels, not_mem_of_plain hvalue]
  -- it is no comment, as a name does not begin with the comment sign
  have hsample : isSampleLine (name ++ labelsText labels ++ ' ' :: value) = true := by
    obtain ⟨d, name, rfl⟩ := List.exists_cons_of_ne_nil hname.nonempty
    have hplain := hname.plain
    rw [List.all_cons, Bool.and_eq_true] at hplain
    have hne : d ≠ '#' := by
      rintro rfl
      exact absurd hplain.1 (by decide)
    rw [List.cons_append, List.cons_append, isSampleLine,
      skipBlanks_cons (not_isBlank_of_isPlain hplain.1)]
    exact decide_eq_true hne
  rw [parse, List.splitOn_append_cons_self_of_not_mem hfeed, List.filter_cons_of_pos hsample,
    List.mapM_cons, parseSample_line hname hlabels hvalue hne]
  cases h : parse rule text with
  | none => rw [parse] at h; simp [h]
  | some samples => rw [parse] at h; simp [h]

/-- A comment in front of other lines. -/
theorem parse_comment (h : '\n' ∉ line) (text : Text) :
    parse rule ('#' :: (line ++ '\n' :: text)) = parse rule text := by
  have hfeed : '\n' ∉ '#' :: line := by
    simp [h]
  have hcomment : isSampleLine ('#' :: line) = false := by
    rw [isSampleLine, skipBlanks_cons rfl]
    rfl
  rw [← List.cons_append, parse, List.splitOn_append_cons_self_of_not_mem hfeed,
    List.filter_cons_of_neg (by simp [hcomment])]
  rfl

/-- A part of a text, of whole lines, is read as these samples. -/
def Reads (rule : NameRule) (part : Text) (samples : List Sample) : Prop :=
  ∀ text, parse rule (part ++ text) = (parse rule text).map (samples ++ ·)

/-- An empty text has no samples. -/
theorem reads_nil : Reads rule [] [] := by
  intro text
  cases h : parse rule text <;> simp [h]

/-- Parts are read one after the other. -/
theorem Reads.append {part part' : Text} {samples samples' : List Sample}
    (h : Reads rule part samples) (h' : Reads rule part' samples') :
    Reads rule (part ++ part') (samples ++ samples') := by
  intro text
  rw [List.append_assoc, h, h', Option.map_map]
  congr 1
  funext rest
  exact (List.append_assoc samples samples' rest).symm

/-- **A sample line is read back** with its metric, labels and value. -/
theorem reads_line (hname : MetricName rule name) (hlabels : LabelNames rule labels)
    (hvalue : value.all isPlain = true) (hne : value ≠ []) :
    Reads rule (name ++ labelsText labels ++ ' ' :: value ++ ['\n']) [{ name, labels, value }] := by
  intro text
  rw [List.append_assoc _ ['\n'] text]
  exact parse_line hname hlabels hvalue hne text

/-- A comment has no samples. -/
theorem reads_comment (line : Text) (h : '\n' ∉ line) : Reads rule ('#' :: (line ++ ['\n'])) [] := by
  intro text
  rw [List.cons_append, List.append_assoc]
  refine (parse_comment h text).trans ?_
  cases h : parse rule text <;> simp

/-- A whole text. -/
theorem Reads.parse_eq {samples : List Sample} (h : Reads rule text samples) :
    parse rule text = some samples := by
  have hparse := h []
  rw [List.append_nil] at hparse
  rw [hparse]
  exact congrArg some (List.append_nil samples)

end Lines

end Exposition
