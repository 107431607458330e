import Ironpulse.Ingest.SegmentName
import Ironpulse.Ingest.SegmentReader
import Ironpulse.Lib.Csv

/-! # The command line tool for export segments

What `ironpulse-export` (`src/ingest/export_tool.cpp`) prints as comma-separated values: the tag
table of a segment and the readings of segments.

* **`csv`**, **`csv_text`**: the quoting of a field, and rows of quoted fields.
* **`tags`**, **`dump`**: the two commands.
* **`parse_csv_text_iff`**: which rows a parser of RFC 4180 reads back.
* **`tags_eq`**, **`dump_eq`**: both commands print such rows. -/

namespace Ironpulse.ExportTool

open Core Ingest

/-! ## (1) Rows of fields -/

/-- The characters that `csv` looks for. -/
def special : List Char := [',', '"', '\n']

/-- CSV field quoting per RFC 4180. -/
def csv (field : List Char) : List Char :=
  if field.all (· ∉ special) then field
  else '"' :: (field.flatMap fun c => if c = '"' then [c, '"'] else [c]) ++ ['"']

/-- A row has a field. -/
structure Row where
  fields : List (List Char)
  nonempty : fields ≠ []

/-- A row of a CSV file: the quoted fields with commas between them. -/
def print_row (row : Row) : List Char := [','].intercalate (row.fields.map csv) ++ ['\n']

/-- A CSV file, row by row. -/
def csv_text (rows : List Row) : List Char := rows.flatMap print_row

/-! ## (2) The commands -/

/-- `strftime` with `%Y-%m-%dT%H:%M:%S`. -/
def iso8601_stamp (utc : Tm) : List Char :=
  zero_padded_int 4 utc.year ++ '-' :: zero_padded_int 2 utc.month ++
    '-' :: zero_padded_int 2 utc.day ++ 'T' :: zero_padded_int 2 utc.hour ++
    ':' :: zero_padded_int 2 utc.minute ++ ':' :: zero_padded_int 2 utc.second

/-- `iso8601`: a time in UTC, with milliseconds. -/
def iso8601 (epoch_ms : UInt64) : List Char :=
  iso8601_stamp (gmtime (epoch_ms.toNat / 1000)) ++
    '.' :: zero_padded 3 (epoch_ms.toNat % 1000) ++ ['Z']

example : iso8601 1709210096007 = "2024-02-29T12:34:56.007Z".toList := by decide +kernel

/-- The row of a tag as `tags` prints it. -/
def print_tag (tag : TagInfo) : List Char :=
  Nat.toDigits 10 tag.id.toNat ++ ',' :: csv tag.sensor_id.toList ++ ',' :: csv tag.device_id.toList ++
    ',' :: csv tag.name.toList ++ ',' :: csv tag.unit.toList ++ ['\n']

/-- What the command prints and its exit status. -/
def tags (json : JsonLibrary) (path : String) (file : Option (List UInt8)) : List Char × Nat :=
  let result := read_segment json path file
  if result.error ≠ "" then ([], 1)
  else ("tag_id,sensor_id,device_id,name,unit\n".toList ++ result.tags.flatMap print_tag, 0)

/-- `by_id`: a later tag replaces an earlier one with the same id. -/
def find_tag (tags : List TagInfo) (id : UInt32) : Option TagInfo := tags.reverse.find? (·.id = id)

/-- The sensor of a sample, by the tag table or by its id. -/
def sensor_of (tags : List TagInfo) (sample : TelemetrySample) : String :=
  match find_tag tags sample.tag_id with
  | some tag => tag.sensor_id
  | none => "tag_" ++ toString sample.tag_id

/-- The device of a sample, where the tag table knows it. -/
def device_of (tags : List TagInfo) (sample : TelemetrySample) : String :=
  match find_tag tags sample.tag_id with
  | some tag => tag.device_id
  | none => ""

/-- The unit of a sample, where the tag table knows it. -/
def unit_of (tags : List TagInfo) (sample : TelemetrySample) : String :=
  match find_tag tags sample.tag_id with
  | some tag => tag.unit
  | none => ""

section

variable (to_chars : UInt64 → List Char) (sensor_filter : String)

/-- The line of a reading, whose value is printed by `std::to_chars`. -/
def print_sample (tags : List TagInfo) (sample : TelemetrySample) : List Char :=
  if sensor_filter ≠ "" ∧ sensor_of tags sample ≠ sensor_filter then []
  else
    iso8601 sample.timestamp_ms ++ ',' :: csv (sensor_of tags sample).toList ++
      ',' :: csv (device_of tags sample).toList ++ ',' :: to_chars sample.value ++
      ',' :: csv (unit_of tags sample).toList ++ ',' :: Nat.toDigits 10 sample.quality.toNat ++ ['\n']

/-- What `dump` prints for one segment. -/
def dump_file (result : SegmentReadResult) : List Char :=
  result.delivered.flatMap fun delivery =>
    delivery.samples.flatMap (print_sample to_chars sensor_filter result.tags)

/-- `dump`: the header, the rows of every segment, and the exit code. -/
def dump (json : JsonLibrary) (files : List (String × Option (List UInt8))) : List Char × Nat :=
  let results := files.map fun (path, file) => read_segment json path file
  ("timestamp,sensor_id,device_id,value,unit,quality\n".toList ++
      results.flatMap (dump_file to_chars sensor_filter),
    if results.any (·.error ≠ "") then 1 else 0)

end

/-! ## (3) What is read back -/

/-- The characters with a meaning to a parser. -/
def rfc4180 : Csv.Marks Char where
  comma := ','
  quote := '"'
  lf := '\n'
  cr := '\r'
  nodup := by decide

/-- The fields that `csv` quotes. -/
def csv_quoting : Csv.Quoting rfc4180 where
  quotes field := field.any (· ∈ special)
  bare field h := by
    have hnot : ∀ c ∈ field, c ∉ special := by simpa using h
    exact ⟨fun hc => hnot _ hc (by decide), fun hc => hnot _ hc (by decide),
      fun hc => hnot _ hc (by decide)⟩

/-- A field is left unquoted when it has no special character. -/
theorem quotes_eq_false_iff (field : List Char) :
    csv_quoting.quotes field = false ↔ ¬∃ c ∈ field, c ∈ special := by
  simp [csv_quoting]

/-- `csv` writes a field as the format does under the tool's rule of quoting. -/
theorem csv_eq (field : List Char) : csv field = Csv.field_text csv_quoting field := by
  rw [csv, Csv.field_text]
  by_cases hplain : field.all (· ∉ special) = true
  · -- without a special character the field is written as it is
    have hquotes : csv_quoting.quotes field = false := by simpa [csv_quoting] using hplain
    rw [if_pos hplain, if_neg (by rw [hquotes]; decide)]
  · -- otherwise quoted, with every quotation mark doubled
    have hquotes : csv_quoting.quotes field = true := by simpa [csv_quoting] using hplain
    have hescape : (fun c => if c = '"' then [c, '"'] else [c]) =
        fun c => if c = rfc4180.quote then [rfc4180.quote, rfc4180.quote] else [c] := by
      funext c
      split
      · rename_i hc
        rw [hc]
        rfl
      · rename_i hc
        exact (if_neg hc).symm
    rw [if_neg hplain, if_pos hquotes, Csv.escape, hescape]
    rfl

/-- A row that is not empty is written as the format does. -/
theorem intercalate_eq_row_text (fields : List (List Char)) (hne : fields ≠ []) :
    [','].intercalate (fields.map csv) ++ ['\n'] = Csv.row_text csv_quoting fields := by
  induction fields with
  | nil => exact absurd rfl hne
  | cons field fields ih =>
      cases fields with
      | nil =>
          rw [List.map_singleton, List.intercalate_singleton, Csv.row_text, csv_eq]
          rfl
      | cons next fields =>
          rw [List.map_cons, List.map_cons, List.intercalate_cons_cons, ← List.map_cons,
            List.append_assoc, List.append_assoc, ih (List.cons_ne_nil _ _), csv_eq, Csv.row_text]
          rfl

/-- A file is its first row and the rest. -/
theorem csv_text_cons (row : Row) (rows : List Row) :
    csv_text (row :: rows) = print_row row ++ csv_text rows := List.flatMap_cons

/-- What the tool prints is a CSV text under its rule of quoting. -/
theorem csv_text_eq (rows : List Row) :
    csv_text rows = Csv.text csv_quoting (rows.map Row.fields) := by
  rw [csv_text, Csv.text, List.flatMap_map]
  exact List.flatMap_congr fun row _ => intercalate_eq_row_text row.fields row.nonempty

/-- No row of the tool is empty. -/
theorem ne_nil_of_mem_map_fields {rows : List Row} :
    ∀ fields ∈ rows.map Row.fields, fields ≠ [] := by
  intro fields hmem
  obtain ⟨row, -, rfl⟩ := List.mem_map.mp hmem
  exact row.nonempty

/-- **A strict reader**, to which a bare carriage return is an error, reads the rows back unless one
stands unquoted. -/
theorem parse_strict_iff (rows : List Row) :
    Csv.parse rfc4180 true (csv_text rows) = some (rows.map Row.fields) ↔
      ∀ row ∈ rows, ∀ field ∈ row.fields, '\r' ∈ field → ∃ c ∈ field, c ∈ special := by
  rw [csv_text_eq, Csv.parse_text_strict_iff csv_quoting ne_nil_of_mem_map_fields,
    List.forall_mem_map]
  refine forall₂_congr fun row _ => forall₂_congr fun field _ => ?_
  rw [quotes_eq_false_iff]
  exact not_imp_not

/-- **A lenient reader** reads the rows back unless one ends in an unquoted carriage return. -/
theorem parse_lenient_iff (rows : List Row) :
    Csv.parse rfc4180 false (csv_text rows) = some (rows.map Row.fields) ↔
      ∀ row ∈ rows, ∀ field ∈ row.fields.getLast?,
        field.getLast? = some '\r' → ∃ c ∈ field, c ∈ special := by
  rw [csv_text_eq, Csv.parse_text_lenient_iff csv_quoting ne_nil_of_mem_map_fields,
    List.forall_mem_map]
  refine forall₂_congr fun row _ => forall₂_congr fun field _ => ?_
  rw [quotes_eq_false_iff]
  exact not_imp_not

/-- **The rows come back** to a parser that refuses a carriage return outside quotes exactly when
every field with a carriage return has one of the characters that `csv` looks for; to a parser that
keeps it, exactly when this holds of the last fields that end with a carriage return. -/
theorem parse_csv_text_iff (rows : List Row) :
    (Csv.parse rfc4180 true (csv_text rows) = some (rows.map Row.fields) ↔
      ∀ row ∈ rows, ∀ field ∈ row.fields, '\r' ∈ field → ∃ c ∈ field, c ∈ special) ∧
    (Csv.parse rfc4180 false (csv_text rows) = some (rows.map Row.fields) ↔
      ∀ row ∈ rows, ∀ field ∈ row.fields.getLast?,
        field.getLast? = some '\r' → ∃ c ∈ field, c ∈ special) :=
  ⟨parse_strict_iff rows, parse_lenient_iff rows⟩

/-- The row of a tag whose unit ends with a carriage return. -/
def unit_cr_row : Row where
  fields := ["7".toList, ['s'], ['d'], ['n'], ['C', '\r']]
  nonempty := by decide

/-- The carriage return is taken for a part of the end of the row. -/
theorem unit_cr_lost :
    print_tag { id := 7, sensor_id := "s", device_id := "d", name := "n", unit := "C\r" } =
        csv_text [unit_cr_row] ∧
      Csv.parse rfc4180 true (csv_text [unit_cr_row]) =
        some [["7".toList, ['s'], ['d'], ['n'], ['C']]] ∧
      Csv.parse rfc4180 false (csv_text [unit_cr_row]) =
        some [["7".toList, ['s'], ['d'], ['n'], ['C']]] ∧
      unit_cr_row.fields ≠ ["7".toList, ['s'], ['d'], ['n'], ['C']] := by
  decide

/-! ## (4) The rows of the commands -/

/-- No character that `csv` looks for and no carriage return. -/
def plain (field : List Char) : Prop := ∀ c ∈ field, c ∉ special ∧ c ≠ '\r'

instance (field : List Char) : Decidable (plain field) := List.decidableBAll _ field

/-- A plain field is printed as it is. -/
theorem csv_of_plain {field : List Char} (h : plain field) : csv field = field :=
  if_pos (List.all_eq_true.mpr fun c hc => decide_eq_true (h c hc).1)

/-- A field is plain when all of its characters are. -/
@[simp] theorem plain_cons_iff {c : Char} {field : List Char} :
    plain (c :: field) ↔ (c ∉ special ∧ c ≠ '\r') ∧ plain field :=
  List.forall_mem_cons

/-- Two plain texts are plain together. -/
@[simp] theorem plain_append_iff {front rest : List Char} :
    plain (front ++ rest) ↔ plain front ∧ plain rest :=
  List.forall_mem_append

/-- Decimal digits are plain. -/
@[simp] theorem plain_toDigits (n : Nat) : plain (Nat.toDigits 10 n) := by
  intro c hc
  have hdigit : c.isDigit = true := Nat.isDigit_of_mem_toDigits (by decide) (by decide) hc
  constructor
  · intro hspecial
    simp only [special, List.mem_cons, List.not_mem_nil, or_false] at hspecial
    obtain rfl | rfl | rfl := hspecial <;> cases hdigit
  · rintro rfl
    cases hdigit

/-- Padded digits are plain. -/
@[simp] theorem plain_zero_padded (width n : Nat) : plain (zero_padded width n) := by
  rw [zero_padded, List.leftpad, plain_append_iff]
  refine ⟨fun c hc => ?_, plain_toDigits n⟩
  rw [List.eq_of_mem_replicate hc]
  decide

/-- Padded integers are plain. -/
@[simp] theorem plain_zero_padded_int (width : Nat) (n : Int) : plain (zero_padded_int width n) := by
  rw [zero_padded_int]
  split
  · simp [special]
  · simp

/-- A date and time is plain. -/
theorem plain_iso8601_stamp (utc : Tm) : plain (iso8601_stamp utc) := by
  simp [iso8601_stamp, special]

/-- A printed timestamp is plain. -/
theorem plain_iso8601 (epoch_ms : UInt64) : plain (iso8601 epoch_ms) := by
  rw [iso8601, plain_append_iff, plain_append_iff, plain_cons_iff]
  exact ⟨⟨plain_iso8601_stamp _, by decide, plain_zero_padded _ _⟩, by decide⟩

/-- The header of the list of tags. -/
def tag_header : Row where
  fields := ["tag_id", "sensor_id", "device_id", "name", "unit"].map String.toList
  nonempty := by decide

/-- The fields of a tag. -/
def tag_row (tag : TagInfo) : Row where
  fields := [Nat.toDigits 10 tag.id.toNat, tag.sensor_id.toList, tag.device_id.toList, tag.name.toList,
    tag.unit.toList]
  nonempty := List.cons_ne_nil _ _

/-- `tags` prints a tag as a row. -/
theorem print_tag_eq (tag : TagInfo) : print_tag tag = print_row (tag_row tag) := by
  rw [print_tag, print_row, tag_row]
  simp [List.intercalate_cons_cons, csv_of_plain (plain_toDigits _)]

/-- The tag table is printed as rows of quoted fields. -/
theorem tags_eq (json : JsonLibrary) (path : String) (file : Option (List UInt8))
    (h : (read_segment json path file).error = "") :
    tags json path file =
      (csv_text (tag_header :: (read_segment json path file).tags.map tag_row), 0) := by
  have hheader : "tag_id,sensor_id,device_id,name,unit\n".toList = print_row tag_header := by decide
  rw [tags, if_neg (not_not.mpr h), csv_text, List.flatMap_cons, List.flatMap_map, hheader,
    funext print_tag_eq]

/-- The header of the list of samples. -/
def sample_header : Row where
  fields := ["timestamp", "sensor_id", "device_id", "value", "unit", "quality"].map String.toList
  nonempty := by decide

/-- The header as it stands in the source. -/
theorem print_sample_header :
    print_row sample_header = "timestamp,sensor_id,device_id,value,unit,quality\n".toList := by
  decide +kernel

section

variable (to_chars : UInt64 → List Char) (sensor_filter : String)

/-- The fields of a sample. -/
def sample_row (tags : List TagInfo) (sample : TelemetrySample) : Row where
  fields := [iso8601 sample.timestamp_ms, (sensor_of tags sample).toList,
    (device_of tags sample).toList, to_chars sample.value, (unit_of tags sample).toList,
    Nat.toDigits 10 sample.quality.toNat]
  nonempty := List.cons_ne_nil _ _

/-- The rows of the readings that pass the filter. -/
def sample_rows (tags : List TagInfo) (samples : List TelemetrySample) : List Row :=
  (samples.filter fun sample => sensor_filter = "" ∨ sensor_of tags sample = sensor_filter).map
    (sample_row to_chars tags)

/-- The rows that `dump` prints for one segment. -/
def file_rows (result : SegmentReadResult) : List Row :=
  result.delivered.flatMap fun delivery =>
    sample_rows to_chars sensor_filter result.tags delivery.samples

variable {to_chars} (hplain : ∀ value, plain (to_chars value))

include hplain

/-- A sample that passes the filter is printed as a row. -/
theorem print_sample_eq {tags : List TagInfo} {sample : TelemetrySample}
    (h : sensor_filter = "" ∨ sensor_of tags sample = sensor_filter) :
    print_sample to_chars sensor_filter tags sample = print_row (sample_row to_chars tags sample) := by
  rw [print_sample, if_neg (by tauto), print_row, sample_row]
  simp [List.intercalate_cons_cons, csv_of_plain (plain_iso8601 _), csv_of_plain (hplain _),
    csv_of_plain (plain_toDigits _)]

/-- The samples of a batch are printed as the rows of those that pass the filter. -/
theorem print_samples_eq (tags : List TagInfo) (samples : List TelemetrySample) :
    samples.flatMap (print_sample to_chars sensor_filter tags) =
      csv_text (sample_rows to_chars sensor_filter tags samples) := by
  induction samples with
  | nil => rfl
  | cons sample samples ih =>
      rw [List.flatMap_cons, ih]
      unfold sample_rows
      rw [List.filter_cons]
      split
      · rename_i hpass
        rw [print_sample_eq sensor_filter hplain (of_decide_eq_true hpass), List.map_cons, csv_text,
          csv_text, List.flatMap_cons]
      · rename_i hdrop
        have hskip : sensor_filter ≠ "" ∧ sensor_of tags sample ≠ sensor_filter := by
          simpa using hdrop
        rw [print_sample, if_pos hskip, List.nil_append]

/-- A segment is printed as its rows. -/
theorem dump_file_eq (result : SegmentReadResult) :
    dump_file to_chars sensor_filter result =
      csv_text (file_rows to_chars sensor_filter result) := by
  rw [dump_file, file_rows, csv_text, List.flatMap_assoc]
  exact List.flatMap_congr fun delivery _ =>
    print_samples_eq sensor_filter hplain result.tags delivery.samples

/-- Segments are printed one after the other. -/
theorem dump_files_eq (results : List SegmentReadResult) :
    results.flatMap (dump_file to_chars sensor_filter) =
      csv_text (results.flatMap (file_rows to_chars sensor_filter)) := by
  rw [csv_text, List.flatMap_assoc]
  exact List.flatMap_congr fun result _ => dump_file_eq sensor_filter hplain result

/-- The readings of the files are printed as rows of quoted fields. -/
theorem dump_eq (json : JsonLibrary) (files : List (String × Option (List UInt8))) :
    (dump to_chars sensor_filter json files).1 =
      csv_text (sample_header :: (files.map fun (path, file) => read_segment json path file).flatMap
        (file_rows to_chars sensor_filter)) := by
  set results := files.map fun (path, file) => read_segment json path file
  calc (dump to_chars sensor_filter json files).1
      = "timestamp,sensor_id,device_id,value,unit,quality\n".toList ++
          results.flatMap (dump_file to_chars sensor_filter) := rfl
    _ = print_row sample_header ++ csv_text (results.flatMap (file_rows to_chars sensor_filter)) := by
        rw [print_sample_header, dump_files_eq sensor_filter hplain]
    _ = csv_text (sample_header :: results.flatMap (file_rows to_chars sensor_filter)) :=
        (csv_text_cons _ _).symm

/-- What the readings are printed as is read back by a parser that keeps a carriage return outside
quotes: the last field of every row is a number. -/
theorem parse_dump (json : JsonLibrary) (files : List (String × Option (List UInt8))) :
    ∃ rows, (dump to_chars sensor_filter json files).1 = csv_text rows ∧
      Csv.parse rfc4180 false (csv_text rows) = some (rows.map Row.fields) := by
  refine ⟨_, dump_eq sensor_filter hplain json files, (parse_lenient_iff _).mpr ?_⟩
  intro row hrow field hfield hcr
  exfalso
  -- the header ends with a name, every other row with the quality
  rw [List.mem_cons] at hrow
  obtain rfl | hrow := hrow
  · obtain rfl : "quality".toList = field := Option.some.inj hfield
    exact absurd hcr (by decide)
  · obtain ⟨result, -, hrow⟩ := List.mem_flatMap.mp hrow
    obtain ⟨delivery, -, hrow⟩ := List.mem_flatMap.mp hrow
    obtain ⟨sample, -, rfl⟩ := List.mem_map.mp hrow
    obtain rfl : Nat.toDigits 10 sample.quality.toNat = field := Option.some.inj hfield
    exact (plain_toDigits _ _ (List.mem_of_getLast? hcr)).2 rfl

end

end Ironpulse.ExportTool
