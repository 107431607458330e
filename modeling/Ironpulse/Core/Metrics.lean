import Ironpulse.Lib.Exposition
import Ironpulse.Lib.OrderedMap
import Mathlib.Data.List.Lex
import Mathlib.Data.List.Nodup
import Mathlib.Data.Char

/-! # The registry of metrics

`Metrics` (`src/core/metrics.cpp`): counters and gauges in families, each with its series. A series
is found by the text of its labels, which is also how it is rendered for `GET /metrics`.

* **`render_labels`**, **`Metrics.update`**, **`Metrics.render`**: the key of a series, its update
  and the exposition.
* **`render_labels_inj`**: lists of labels have different keys.
* **`lookup_apply`**: a call changes the series of its own labels and no other.
* **`run_exposition`**: what a reader of the exposition finds after any calls. -/

namespace Ironpulse.Core

open Exposition (Text Labels NameRule MetricName LabelName LabelNames Sample Reads)

/-! ## (1) The registry -/

/-- What the registry needs of a `double`. -/
class MetricValue (F : Type) where
  zero : F
  add : F → F → F
  isnan : F → Bool
  isinf : F → Bool
  positive : F → Bool
  /-- `out << value` with a precision of 17 digits: digits, sign, point and exponent. -/
  print : F → Text
  print_ne_nil : ∀ x, isnan x = false → isinf x = false → print x ≠ []
  print_plain : ∀ x, isnan x = false → isinf x = false →
    (print x).all Exposition.isPlain = true

/-- `MetricType`. -/
inductive MetricType where
  | counter
  | gauge
  deriving DecidableEq

/-- `Family`: a metric with its series. -/
structure Family (F : Type) where
  type : MetricType := .gauge
  help : Text := []
  described : Bool := false
  /-- The value of each series by its rendered labels. -/
  series : OrderedMap Text F := ∅

/-- `Metrics`. Every call holds the mutex, so calls come one after the other. -/
structure Metrics (F : Type) where
  families_ : OrderedMap Text (Family F) := ∅

/-- `escape_label_value`. -/
def escape_label_value (value : Text) : Text :=
  value.foldl (fun out c =>
    match c with
    | '\\' => out ++ ['\\', '\\']
    | '"' => out ++ ['\\', '"']
    | '\n' => out ++ ['\\', 'n']
    | c => out ++ [c]) []

/-- `render_labels`. -/
def render_labels (labels : Labels) : Text :=
  if labels = [] then []
  else
    labels.zipIdx.foldl (fun out (label, i) =>
      let out := if i > 0 then out ++ [','] else out
      out ++ (label.1 ++ ['=', '"'] ++ escape_label_value label.2 ++ ['"'])) ['{'] ++ ['}']

namespace Metrics

open MetricValue

variable {F : Type} [MetricValue F] (m : Metrics F) (name : Text)

/-- `Metrics::describe`. -/
def describe (type : MetricType) (help : Text) : Metrics F :=
  { m with families_ := m.families_.modify {} name fun family =>
      { family with type := type, help := help, described := true } }

/-- `families_[name].series[key]`, updated by `f`. -/
def update (key : Text) (f : F → F) : Metrics F :=
  { m with families_ := m.families_.modify {} name fun family =>
      { family with series := family.series.modify zero key f } }

/-- `Metrics::increment`: a series that is not there yet starts from zero. -/
def increment (labels : Labels) (delta : F) : Metrics F :=
  m.update name (render_labels labels) fun value => add value delta

/-- `Metrics::set`. -/
def set (labels : Labels) (value : F) : Metrics F :=
  m.update name (render_labels labels) fun _ => value

/-- `Metrics::value`: zero for a series that is not there. -/
def value (labels : Labels) : F :=
  match m.families_.find name with
  | none => zero
  | some family => (family.series.find (render_labels labels)).getD zero

/-- The text of a value. -/
def print_value (value : F) : Text :=
  if isnan value then "NaN".toList
  else if isinf value then (if positive value then "+Inf".toList else "-Inf".toList)
  else print value

/-- The line of a series. -/
def render_series (key : Text) (value : F) : Text :=
  name ++ key ++ [' '] ++ print_value value ++ ['\n']

/-- The lines of a metric: help and type when it was described, then its series. -/
def render_family (family : Family F) : Text :=
  if family.series.entries = [] then []
  else
    (if family.described then
      "# HELP ".toList ++ name ++ [' '] ++ family.help ++ ['\n'] ++
        ("# TYPE ".toList ++ name ++ [' '] ++
          (if family.type = .counter then "counter".toList else "gauge".toList) ++ ['\n'])
    else []) ++
      family.series.entries.flatMap fun (key, value) => render_series name key value

/-- `Metrics::render`. -/
def render : Text := m.families_.entries.flatMap fun (name, family) => render_family name family

/-- A call on the registry. -/
inductive Call (F : Type) where
  | describe (name : Text) (type : MetricType) (help : Text)
  | increment (name : Text) (labels : Labels) (delta : F)
  | set (name : Text) (labels : Labels) (value : F)

/-- What a call does to the registry. -/
def apply (m : Metrics F) : Call F → Metrics F
  | .describe name type help => m.describe name type help
  | .increment name labels delta => m.increment name labels delta
  | .set name labels value => m.set name labels value

/-- The registry after calls. -/
def run (calls : List (Call F)) : Metrics F := calls.foldl apply {}

/-! ## (2) Labels -/

/-- The code escapes label values as the format asks for. -/
theorem escape_label_value_eq (value : Text) : escape_label_value value = Exposition.escape value := by
  -- the loop appends the escaped characters one by one
  have hfold : ∀ out : Text, value.foldl (fun out c =>
      match c with
      | '\\' => out ++ ['\\', '\\']
      | '"' => out ++ ['\\', '"']
      | '\n' => out ++ ['\\', 'n']
      | c => out ++ [c]) out = out ++ Exposition.escape value := by
    induction value with
    | nil => intro out; exact (List.append_nil out).symm
    | cons c value ih =>
        intro out
        have hcons : Exposition.escape (c :: value) =
            Exposition.escapeChar c ++ Exposition.escape value := List.flatMap_cons
        rw [List.foldl_cons, ih, hcons, ← List.append_assoc]
        congr 1
        unfold Exposition.escapeChar
        split
        · rfl
        · rfl
        · rfl
        · rename_i h1 h2 h3
          rw [if_neg h1, if_neg h2, if_neg h3]
  exact hfold []

/-- Behind the first label each one follows a comma. -/
theorem foldl_labels (labels : Labels) (i : Nat) (out : Text) :
    (labels.zipIdx (i + 1)).foldl (fun out (label, i) =>
      let out := if i > 0 then out ++ [','] else out
      out ++ (label.1 ++ ['=', '"'] ++ escape_label_value label.2 ++ ['"'])) out =
      out ++ labels.flatMap fun label => ',' :: Exposition.labelText label := by
  induction labels generalizing i out with
  | nil => exact (List.append_nil out).symm
  | cons label labels ih =>
      rw [List.zipIdx_cons, List.foldl_cons, ih, List.flatMap_cons]
      simp [Exposition.labelText, escape_label_value_eq]

/-- The key of a series is the text of its labels. -/
theorem render_labels_eq (labels : Labels) : render_labels labels = Exposition.labelsText labels := by
  cases labels with
  | nil => rfl
  | cons label labels =>
      rw [render_labels, if_neg (List.cons_ne_nil _ _), List.zipIdx_cons, List.foldl_cons,
        foldl_labels]
      simp [Exposition.labelsText, Exposition.labelText, escape_label_value_eq]

/-- **Lists of labels have different keys**, whatever their values are. -/
theorem render_labels_inj {rule : NameRule} {labels labels' : Labels} (h : LabelNames rule labels)
    (h' : LabelNames rule labels') : render_labels labels = render_labels labels' ↔
      labels = labels' := by
  rw [render_labels_eq, render_labels_eq]
  exact ⟨Exposition.labelsText_inj h h', fun heq => heq ▸ rfl⟩

/-! ## (3) What a call changes -/

/-- The value of the series with a key, none if there is no such series. -/
def lookup (m : Metrics F) (name key : Text) : Option F :=
  (m.families_.find name).bind fun family => family.series.find key

/-- A value is what is stored under the name and the rendered labels, or zero. -/
theorem value_eq (m : Metrics F) (name : Text) (labels : Labels) :
    m.value name labels = (m.lookup name (render_labels labels)).getD zero := by
  unfold value lookup
  cases m.families_.find name with
  | none => rfl
  | some family => rfl

/-- **An update changes one series.** -/
theorem lookup_update (m : Metrics F) (name key : Text) (f : F → F) (n k : Text) :
    (m.update name key f).lookup n k =
      if n = name ∧ k = key then some (f ((m.lookup name key).getD zero)) else m.lookup n k := by
  unfold update lookup
  rw [OrderedMap.find_modify]
  by_cases hn : n = name
  · subst hn
    rw [if_pos rfl, Option.bind_some, OrderedMap.find_modify]
    cases m.families_.find n with
    | none => simp
    | some family => simp
  · rw [if_neg hn, if_neg fun h => hn h.1]

omit [MetricValue F] in
/-- Describing a metric changes no series. -/
theorem lookup_describe (m : Metrics F) (name : Text) (type : MetricType) (help n k : Text) :
    (m.describe name type help).lookup n k = m.lookup n k := by
  unfold describe lookup
  rw [OrderedMap.find_modify]
  by_cases hn : n = name
  · subst hn
    rw [if_pos rfl]
    cases m.families_.find n with
    | none => rfl
    | some family => rfl
  · rw [if_neg hn]

/-- The metric and the labels that a call is about. -/
def Call.address : Call F → Option (Text × Labels)
  | .describe _ _ _ => none
  | .increment name labels _ | .set name labels _ => some (name, labels)

/-- The series that a call changes: its family and its key there. -/
def Call.series : Call F → Option (Text × Text)
  | .describe _ _ _ => none
  | .increment name labels _ | .set name labels _ => some (name, render_labels labels)

/-- What a call makes of the value of its series. -/
def Call.change : Call F → F → F
  | .describe _ _ _ => id
  | .increment _ _ delta => fun value => add value delta
  | .set _ _ value => fun _ => value

/-- The names of a call are names of the format, and a help text has one line. -/
def Call.WellNamed (rule : NameRule) : Call F → Prop
  | .describe name _ help => MetricName rule name ∧ '\n' ∉ help
  | .increment name labels _ | .set name labels _ =>
      MetricName rule name ∧ LabelNames rule labels

omit [MetricValue F] in
/-- The series of a call is its address with the labels rendered. -/
theorem Call.series_eq (call : Call F) :
    call.series = call.address.map fun (name, labels) => (name, render_labels labels) := by
  cases call <;> rfl

omit [MetricValue F] in
/-- A well-named call addresses a metric and labels that are well named. -/
theorem Call.wellNamed_address {rule : NameRule} {call : Call F} (h : call.WellNamed rule)
    {name : Text} {labels : Labels} (haddress : call.address = some (name, labels)) :
    MetricName rule name ∧ LabelNames rule labels := by
  cases call with
  | describe => cases haddress
  | increment | set =>
      cases haddress
      exact h

/-- What is known of one list of labels of a metric, after one more call. -/
def record (name : Text) (labels : Labels) (value : Option F) (call : Call F) : Option F :=
  if call.address = some (name, labels) then some (call.change (value.getD zero)) else value

/-- The value of one list of labels of a metric by the calls about it alone, none without any. -/
def recorded (calls : List (Call F)) (name : Text) (labels : Labels) : Option F :=
  calls.foldl (record name labels) none

/-- **A call changes the series of its own labels and no other.** -/
theorem lookup_apply {rule : NameRule} {m : Metrics F} {call : Call F} {labels : Labels}
    (hcall : call.WellNamed rule) (hlabels : LabelNames rule labels) (name : Text) :
    (m.apply call).lookup name (render_labels labels) =
      record name labels (m.lookup name (render_labels labels)) call := by
  have hkey : ∀ n l f, LabelNames rule l →
      (m.update n (render_labels l) f).lookup name (render_labels labels) =
        if some (n, l) = some (name, labels) then
          some (f ((m.lookup name (render_labels labels)).getD zero))
        else m.lookup name (render_labels labels) := by
    intro n l f hl
    rw [lookup_update]
    by_cases hsame : n = name ∧ l = labels
    · obtain ⟨rfl, rfl⟩ := hsame
      rw [if_pos ⟨rfl, rfl⟩, if_pos rfl]
    · -- Another list of labels has another key.
      rw [if_neg fun h => hsame ⟨h.1.symm, (render_labels_inj hl hlabels).mp h.2.symm⟩,
        if_neg (by simpa using hsame)]
  cases call with
  | describe n type help => exact lookup_describe m n type help name _
  | increment n l delta => exact hkey n l _ hcall.2
  | set n l value => exact hkey n l _ hcall.2

/-- **After any calls each list of labels has the value of its own calls.** -/
theorem lookup_run {rule : NameRule} {calls : List (Call F)}
    (hcalls : ∀ call ∈ calls, call.WellNamed rule) {labels : Labels}
    (hlabels : LabelNames rule labels) (name : Text) :
    (run calls).lookup name (render_labels labels) = recorded calls name labels := by
  have hfold : ∀ (m : Metrics F),
      (calls.foldl apply m).lookup name (render_labels labels) =
        calls.foldl (record name labels) (m.lookup name (render_labels labels)) := by
    induction calls with
    | nil => exact fun m => rfl
    | cons call calls ih =>
        obtain ⟨hcall, hcalls⟩ := List.forall_mem_cons.mp hcalls
        intro m
        rw [List.foldl_cons, List.foldl_cons, ih hcalls, lookup_apply hcall hlabels]
  exact hfold {}

/-- A value is known exactly of what some call was about. -/
theorem isSome_recorded (calls : List (Call F)) (name : Text) (labels : Labels) :
    (recorded calls name labels).isSome = true ↔
      ∃ call ∈ calls, call.address = some (name, labels) := by
  have hfold : ∀ value : Option F, (calls.foldl (record name labels) value).isSome = true ↔
      value.isSome = true ∨ ∃ call ∈ calls, call.address = some (name, labels) := by
    induction calls with
    | nil => simp
    | cons call calls ih =>
        intro value
        rw [List.foldl_cons, ih, List.exists_mem_cons_iff, record]
        by_cases haddress : call.address = some (name, labels)
        · simp [haddress]
        · simp [haddress]
  rw [recorded, hfold]
  simp

/-! ## (4) What a reader finds -/

/-- The names and keys of a registry come from calls with good names. -/
structure Named (rule : NameRule) (m : Metrics F) : Prop where
  name : ∀ name family, m.families_.find name = some family →
    MetricName rule name ∧ '\n' ∉ family.help
  key : ∀ name key value, m.lookup name key = some value →
    ∃ labels, LabelNames rule labels ∧ key = render_labels labels

omit [MetricValue F] in
/-- In an empty registry every name is well formed. -/
theorem named_empty (rule : NameRule) : Named rule ({} : Metrics F) where
  name := fun _ _ h => nomatch h
  key := fun _ _ _ h => nomatch h

/-- Updating a well-named series keeps all names well formed. -/
theorem Named.update {rule : NameRule} {m : Metrics F} (h : Named rule m) {name : Text}
    {labels : Labels} (hname : MetricName rule name) (hlabels : LabelNames rule labels)
    (f : F → F) : Named rule (m.update name (render_labels labels) f) where
  name := by
    intro n family hn
    rw [Metrics.update, OrderedMap.find_modify] at hn
    split at hn
    · rename_i heq
      subst heq
      -- A new family has no help text, and an old one keeps its own.
      refine ⟨hname, ?_⟩
      rw [← Option.some.inj hn]
      cases hfind : m.families_.find n with
      | none => exact List.not_mem_nil
      | some old => exact (h.name n old hfind).2
    · exact h.name n family hn
  key := by
    intro n k value hk
    rw [lookup_update] at hk
    split at hk
    · rename_i heq
      exact ⟨labels, hlabels, heq.2⟩
    · exact h.key n k value hk

omit [MetricValue F] in
/-- Describing a well-named metric keeps all names well formed. -/
theorem Named.describe {rule : NameRule} {m : Metrics F} (h : Named rule m) {name help : Text}
    (hname : MetricName rule name) (hhelp : '\n' ∉ help) (type : MetricType) :
    Named rule (m.describe name type help) where
  name := by
    intro n family hn
    rw [Metrics.describe, OrderedMap.find_modify] at hn
    -- only the family of that name changes, and it takes the new help text
    split at hn
    · rename_i heq
      subst heq
      rw [← Option.some.inj hn]
      exact ⟨hname, hhelp⟩
    · exact h.name n family hn
  -- a description adds no series
  key := by
    intro n k value hk
    rw [lookup_describe] at hk
    exact h.key n k value hk

/-- Every call with good names keeps them. -/
theorem Named.apply {rule : NameRule} {m : Metrics F} (h : Named rule m) {call : Call F}
    (hcall : call.WellNamed rule) : Named rule (m.apply call) := by
  cases call with
  | describe name type help => exact h.describe hcall.1 hcall.2 type
  | increment name labels delta => exact h.update hcall.1 hcall.2 _
  | set name labels value => exact h.update hcall.1 hcall.2 _

/-- **After well-named calls all names of the registry are well formed**. -/
theorem named_run {rule : NameRule} {calls : List (Call F)}
    (hcalls : ∀ call ∈ calls, call.WellNamed rule) : Named rule (run calls) := by
  have hfold : ∀ m : Metrics F, Named rule m → Named rule (calls.foldl Metrics.apply m) := by
    induction calls with
    | nil => exact fun m h => h
    | cons call calls ih =>
        obtain ⟨hcall, hcalls⟩ := List.forall_mem_cons.mp hcalls
        exact fun m h => ih hcalls _ (h.apply hcall)
  exact hfold {} (named_empty rule)

/-- A printed value is a token of the format. -/
theorem print_value_spec (value : F) :
    print_value value ≠ [] ∧ (print_value value).all Exposition.isPlain = true := by
  unfold print_value
  split
  · exact ⟨by decide, by decide⟩
  · rename_i hnan
    split
    · split
      · exact ⟨by decide, by decide⟩
      · exact ⟨by decide, by decide⟩
    · rename_i hinf
      exact ⟨print_ne_nil value (Bool.eq_false_iff.mpr hnan) (Bool.eq_false_iff.mpr hinf),
        print_plain value (Bool.eq_false_iff.mpr hnan) (Bool.eq_false_iff.mpr hinf)⟩

/-- All series: the metric, the key and the value. -/
def allSeries (m : Metrics F) : List (Text × Text × F) :=
  m.families_.entries.flatMap fun (name, family) =>
    family.series.entries.map fun (key, value) => (name, key, value)

/-- The samples of some series. -/
structure SamplesOf (rule : NameRule) (series : List (Text × Text × F)) (samples : List Sample) :
    Prop where
  labels : ∀ sample ∈ samples, LabelNames rule sample.labels
  eq : samples.map (fun sample =>
      (sample.name, render_labels sample.labels, sample.value, sample.timestamp)) =
    series.map fun (name, key, value) => (name, key, print_value value, none)

/-- Samples of two lists of series are collected one after the other. -/
theorem SamplesOf.append {rule : NameRule} {series series' : List (Text × Text × F)}
    {samples samples' : List Sample} (h : SamplesOf rule series samples)
    (h' : SamplesOf rule series' samples') :
    SamplesOf rule (series ++ series') (samples ++ samples') where
  labels := List.forall_mem_append.mpr ⟨h.labels, h'.labels⟩
  eq := by rw [List.map_append, List.map_append, h.eq, h'.eq]

/-- The lines of the series of one family. -/
theorem reads_series {rule : NameRule} {name : Text} (hname : MetricName rule name)
    {entries : List (Text × F)}
    (hkeys : ∀ key value, (key, value) ∈ entries →
      ∃ labels, LabelNames rule labels ∧ key = render_labels labels) :
    ∃ samples,
      Reads rule (entries.flatMap fun (key, value) => render_series name key value) samples ∧
      SamplesOf rule (entries.map fun (key, value) => (name, key, value)) samples := by
  induction entries with
  | nil => exact ⟨[], Exposition.reads_nil, fun _ h => absurd h List.not_mem_nil, rfl⟩
  | cons entry entries ih =>
      obtain ⟨key, value⟩ := entry
      obtain ⟨labels, hlabels, rfl⟩ := hkeys key value List.mem_cons_self
      obtain ⟨samples, hreads, hsamples⟩ :=
        ih fun key value h => hkeys key value (List.mem_cons_of_mem _ h)
      -- The line of the first series is read in front of the lines of the others.
      obtain ⟨hne, hplain⟩ := print_value_spec value
      have hline : Reads rule (render_series name (render_labels labels) value)
          [{ name, labels, value := print_value value }] := by
        have hreads := Exposition.reads_line hname hlabels hplain hne
        rw [← render_labels_eq] at hreads
        simpa only [render_series, List.append_assoc, List.cons_append, List.nil_append] using hreads
      have hsample : SamplesOf rule [(name, render_labels labels, value)]
          [{ name, labels, value := print_value value }] :=
        ⟨List.forall_mem_singleton.mpr hlabels, rfl⟩
      exact ⟨_, hline.append hreads, hsample.append hsamples⟩

/-- The lines of one family. -/
theorem reads_family {rule : NameRule} {name : Text} {family : Family F}
    (hname : MetricName rule name) (hhelp : '\n' ∉ family.help)
    (hkeys : ∀ key value, (key, value) ∈ family.series.entries →
      ∃ labels, LabelNames rule labels ∧ key = render_labels labels) :
    ∃ samples, Reads rule (render_family name family) samples ∧
      SamplesOf rule (family.series.entries.map fun (key, value) => (name, key, value)) samples := by
  obtain ⟨samples, hreads, hsamples⟩ := reads_series hname hkeys
  unfold render_family
  -- a metric without series is left out, also its help
  by_cases hempty : family.series.entries = []
  · rw [if_pos hempty, hempty]
    exact ⟨[], Exposition.reads_nil, fun _ h => absurd h List.not_mem_nil, rfl⟩
  · rw [if_neg hempty]
    refine ⟨samples, ?_, hsamples⟩
    have hfeed := Exposition.not_mem_of_plain hname.plain
    by_cases hdescribed : family.described = true
    · rw [if_pos hdescribed]
      have hhelp_line :
          Reads rule ("# HELP ".toList ++ name ++ [' '] ++ family.help ++ ['\n']) [] := by
        have hline : '\n' ∉ " HELP ".toList ++ name ++ [' '] ++ family.help := by
          simp only [List.mem_append, not_or]
          exact ⟨⟨⟨by decide, hfeed⟩, by decide⟩, hhelp⟩
        exact Exposition.reads_comment _ hline
      have htype_line : Reads rule ("# TYPE ".toList ++ name ++ [' '] ++
          (if family.type = .counter then "counter".toList else "gauge".toList) ++ ['\n']) [] := by
        have hline : '\n' ∉ " TYPE ".toList ++ name ++ [' '] ++
            (if family.type = .counter then "counter".toList else "gauge".toList) := by
          simp only [List.mem_append, not_or]
          exact ⟨⟨⟨by decide, hfeed⟩, by decide⟩, by split <;> decide⟩
        exact Exposition.reads_comment _ hline
      exact (hhelp_line.append htype_line).append hreads
    · rw [if_neg hdescribed]
      exact hreads

/-- **The whole exposition is read as all series**, one sample for each. -/
theorem reads_render {rule : NameRule} {m : Metrics F} (h : Named rule m) :
    ∃ samples, Reads rule m.render samples ∧ SamplesOf rule m.allSeries samples := by
  have hfamilies : ∀ name family, (name, family) ∈ m.families_.entries →
      MetricName rule name ∧ '\n' ∉ family.help ∧ ∀ key value,
        (key, value) ∈ family.series.entries →
        ∃ labels, LabelNames rule labels ∧ key = render_labels labels := by
    intro name family hmem
    have hfind := m.families_.mem_entries_iff.mp hmem
    obtain ⟨hname, hhelp⟩ := h.name name family hfind
    refine ⟨hname, hhelp, fun key value hkey => h.key name key value ?_⟩
    rw [lookup, hfind, Option.bind_some]
    exact family.series.mem_entries_iff.mp hkey
  unfold render allSeries
  -- Induction on the entries: what the reader needs of a family no longer refers to the registry.
  generalize m.families_.entries = families at hfamilies ⊢
  induction families with
  | nil => exact ⟨[], Exposition.reads_nil, fun _ h => absurd h List.not_mem_nil, rfl⟩
  | cons entry families ih =>
      obtain ⟨name, family⟩ := entry
      obtain ⟨hname, hhelp, hkeys⟩ := hfamilies name family List.mem_cons_self
      obtain ⟨samples, hreads, hsamples⟩ := reads_family hname hhelp hkeys
      obtain ⟨samples', hreads', hsamples'⟩ :=
        ih fun name family hmem => hfamilies name family (List.mem_cons_of_mem _ hmem)
      rw [List.flatMap_cons, List.flatMap_cons]
      exact ⟨samples ++ samples', hreads.append hreads', hsamples.append hsamples'⟩

omit [MetricValue F] in
/-- The series of a registry are what can be looked up in it. -/
theorem mem_allSeries (m : Metrics F) {name key : Text} {value : F} :
    (name, key, value) ∈ m.allSeries ↔ m.lookup name key = some value := by
  rw [allSeries, List.mem_flatMap, lookup, Option.bind_eq_some_iff]
  constructor
  · rintro ⟨⟨n, family⟩, hfamily, hmem⟩
    obtain ⟨⟨k, v⟩, hseries, heq⟩ := List.mem_map.mp hmem
    cases heq
    exact ⟨family, m.families_.mem_entries_iff.mp hfamily,
      family.series.mem_entries_iff.mp hseries⟩
  · rintro ⟨family, hfamily, hseries⟩
    exact ⟨(name, family), m.families_.mem_entries_iff.mpr hfamily,
      List.mem_map.mpr ⟨(key, value), family.series.mem_entries_iff.mpr hseries, rfl⟩⟩

omit [MetricValue F] in
/-- Each series is there once. -/
theorem nodup_allSeries (m : Metrics F) :
    (m.allSeries.map fun (name, key, _) => (name, key)).Nodup := by
  rw [allSeries, List.map_flatMap, List.nodup_flatMap]
  constructor
  · -- Within one family the keys differ.
    rintro ⟨name, family⟩ -
    rw [List.map_map]
    have hkeys := family.series.nodup_keys.map fun a b (h : (name, a) = (name, b)) =>
      (Prod.mk.inj h).2
    rwa [List.map_map] at hkeys
  · -- Series of two families differ in the name.
    refine m.families_.sorted.imp fun {x y} hlt pair hx hy => ?_
    have hname : ∀ x : Text × Family F,
        pair ∈ (x.2.series.entries.map fun (key, value) => (x.1, key, value)).map
          (fun (name, key, _) => (name, key)) → pair.1 = x.1 := by
      intro x hmem
      rw [List.map_map] at hmem
      obtain ⟨entry, -, rfl⟩ := List.mem_map.mp hmem
      rfl
    exact ne_of_lt hlt ((hname x hx).symm.trans (hname y hy))

section Samples

variable {rule : NameRule} {m : Metrics F} {samples : List Sample}

/-- A sample is one of the series that its name and labels have. -/
theorem SamplesOf.lookup_eq (h : SamplesOf rule m.allSeries samples) {sample : Sample}
    (hsample : sample ∈ samples) :
    ∃ value, m.lookup sample.name (render_labels sample.labels) = some value ∧
      sample.value = print_value value ∧ sample.timestamp = none := by
  have hmem := List.mem_map_of_mem (f := fun sample : Sample =>
    (sample.name, render_labels sample.labels, sample.value, sample.timestamp)) hsample
  rw [h.eq] at hmem
  obtain ⟨⟨name, key, value⟩, hseries, heq⟩ := List.mem_map.mp hmem
  simp only [Prod.mk.injEq] at heq
  obtain ⟨hname, hkey, hvalue, htimestamp⟩ := heq
  rw [hname, hkey] at hseries
  exact ⟨value, m.mem_allSeries.mp hseries, hvalue.symm, htimestamp.symm⟩

/-- A series has a sample. -/
theorem SamplesOf.exists_sample (h : SamplesOf rule m.allSeries samples) {name : Text}
    {labels : Labels} {value : F} (hlabels : LabelNames rule labels)
    (hlookup : m.lookup name (render_labels labels) = some value) :
    (name, labels) ∈ samples.map fun sample => (sample.name, sample.labels) := by
  have hmem := List.mem_map_of_mem (f := fun (x : Text × Text × F) =>
    (x.1, x.2.1, print_value x.2.2, (none : Option Text))) (m.mem_allSeries.mpr hlookup)
  have heq := h.eq
  rw [show (fun x : Text × Text × F => (x.1, x.2.1, print_value x.2.2, (none : Option Text))) =
    fun (name, key, value) => (name, key, print_value value, none) from rfl, ← heq] at hmem
  obtain ⟨sample, hsample, hpair⟩ := List.mem_map.mp hmem
  simp only [Prod.mk.injEq] at hpair
  obtain ⟨hname, hkey, -, -⟩ := hpair
  refine List.mem_map.mpr ⟨sample, hsample, ?_⟩
  rw [hname, (render_labels_inj (h.labels sample hsample) hlabels).mp hkey]

/-- No name and labels have two samples. -/
theorem SamplesOf.nodup (h : SamplesOf rule m.allSeries samples) :
    (samples.map fun sample => (sample.name, sample.labels)).Nodup := by
  have hkeys := congrArg (List.map fun (x : Text × Text × Text × Option Text) => (x.1, x.2.1)) h.eq
  rw [List.map_map, List.map_map] at hkeys
  refine List.Nodup.of_map (fun (x : Text × Labels) => (x.1, render_labels x.2)) ?_
  rw [List.map_map]
  exact hkeys ▸ nodup_allSeries m

end Samples

/-- **Series never collide, and label values survive the exposition.** After any calls whose metric
and label names are names of the format, with any label values: two calls on one metric change the
same series exactly if their lists of labels are equal, so every list of labels has the value of its
own calls; and the exposition is read as one sample for each metric and list of labels that some call
was about, with that metric's name and exactly that list. -/
theorem run_exposition (rule : NameRule) (calls : List (Call F))
    (hcalls : ∀ call ∈ calls, call.WellNamed rule) :
    (∀ call ∈ calls, ∀ call' ∈ calls, ∀ name labels labels',
      call.address = some (name, labels) → call'.address = some (name, labels') →
      (call.series = call'.series ↔ labels = labels')) ∧
    (∀ name labels, LabelNames rule labels →
      (run calls).value name labels = (recorded calls name labels).getD zero) ∧
    ∃ samples, Exposition.parse rule (run calls).render = some samples ∧
      (samples.map fun sample => (sample.name, sample.labels)).Nodup ∧
      (∀ name labels, (name, labels) ∈ samples.map (fun sample => (sample.name, sample.labels)) ↔
        ∃ call ∈ calls, call.address = some (name, labels)) ∧
      ∀ sample ∈ samples, ∃ value, recorded calls sample.name sample.labels = some value ∧
        sample.value = print_value value ∧ sample.timestamp = none := by
  obtain ⟨samples, hreads, hsamples⟩ := reads_render (named_run hcalls)
  refine ⟨?_, ?_, samples, hreads.parse_eq, hsamples.nodup, ?_, ?_⟩
  · -- well-named labels are told from their rendering
    intro call hcall call' hcall' name labels labels' haddress haddress'
    have hlabels := (Call.wellNamed_address (hcalls call hcall) haddress).2
    have hlabels' := (Call.wellNamed_address (hcalls call' hcall') haddress').2
    rw [Call.series_eq, Call.series_eq, haddress, haddress', Option.map_some, Option.map_some,
      Option.some.injEq, Prod.mk.injEq, render_labels_inj hlabels hlabels']
    exact ⟨fun h => h.2, fun h => ⟨rfl, h⟩⟩
  · intro name labels hlabels
    rw [value_eq, lookup_run hcalls hlabels]
  · intro name labels
    rw [← isSome_recorded]
    constructor
    · -- a sample that is read was rendered, so its series has a value
      intro hmem
      obtain ⟨sample, hsample, heq⟩ := List.mem_map.mp hmem
      cases heq
      obtain ⟨value, hlookup, -, -⟩ := hsamples.lookup_eq hsample
      rw [lookup_run hcalls (hsamples.labels sample hsample)] at hlookup
      rw [hlookup]
      rfl
    · -- a recorded value belongs to a series, which is rendered
      intro hsome
      obtain ⟨call, hcall, haddress⟩ := (isSome_recorded calls name labels).mp hsome
      have hlabels := (Call.wellNamed_address (hcalls call hcall) haddress).2
      obtain ⟨value, hvalue⟩ := Option.isSome_iff_exists.mp hsome
      exact hsamples.exists_sample hlabels ((lookup_run hcalls hlabels name).trans hvalue)
  · intro sample hsample
    obtain ⟨value, hlookup, hvalue⟩ := hsamples.lookup_eq hsample
    rw [lookup_run hcalls (hsamples.labels sample hsample)] at hlookup
    exact ⟨value, hlookup, hvalue⟩

/-! ## (5) Whole numbers -/

/-- A digit is a plain character of the format. -/
theorem isPlain_of_isDigit {c : Char} (h : c.isDigit = true) : Exposition.isPlain c = true := by
  by_contra hspecial
  have hcases : c = ' ' ∨ c = '\t' ∨ c = '\n' ∨ c = '{' ∨ c = '}' ∨ c = '=' ∨ c = '"' ∨ c = ',' ∨
      c = '\\' ∨ c = '#' := by
    simp only [Exposition.isPlain, Exposition.isBlank, Bool.and_eq_true, Bool.not_eq_true',
      Bool.or_eq_false_iff, decide_eq_true_eq, decide_eq_false_iff_not] at hspecial
    tauto
  rcases hcases with rfl | rfl | rfl | rfl | rfl | rfl | rfl | rfl | rfl | rfl <;> cases h

/-- Whole numbers, which a `double` prints by their digits up to 17 of them. -/
instance : MetricValue Int where
  zero := 0
  add a b := a + b
  isnan _ := false
  isinf _ := false
  positive n := decide (0 < n)
  print n := (if n < 0 then ['-'] else []) ++ Nat.toDigits 10 n.natAbs
  print_ne_nil n _ _ h := Nat.toDigits_ne_nil (List.append_eq_nil_iff.mp h).2
  print_plain n _ _ := by
    rw [List.all_append, Bool.and_eq_true]
    constructor
    · split <;> rfl
    · rw [List.all_eq_true]
      intro c hc
      exact isPlain_of_isDigit (Nat.isDigit_of_mem_toDigits (by decide) (by decide) hc)

/-- One label whose value looks like two labels, and the two labels, with a backslash, a quote and a
line feed in a value. -/
def quote_calls : List (Call Int) :=
  [.describe ['g'] .counter "Help.".toList,
    .set ['g'] [(['a'], "x\",b=\"y\\\n".toList)] 2,
    .increment ['g'] [(['a'], "x".toList), (['b'], "y\\\n".toList)] 1,
    .increment ['g'] [(['a'], "x\",b=\"y\\\n".toList)] 3]

/-- The first and the last call change one series, the other one a second series, and both are read
back from the exposition. -/
theorem run_exposition_quotes :
    (∀ name labels, LabelNames .standard labels →
      (run quote_calls).value name labels = (recorded quote_calls name labels).getD (0 : Int)) ∧
    ∃ samples, Exposition.parse .standard (run quote_calls).render = some samples ∧
      ∀ name labels, (name, labels) ∈ samples.map (fun sample => (sample.name, sample.labels)) ↔
        ∃ call ∈ quote_calls, call.address = some (name, labels) := by
  have hcalls : ∀ call ∈ quote_calls, call.WellNamed .standard := by
    have hmetric : MetricName .standard ['g'] := ⟨by decide, by decide, by decide⟩
    have ha : LabelName .standard ['a'] := ⟨by decide, by decide⟩
    have hb : LabelName .standard ['b'] := ⟨by decide, by decide⟩
    simp only [quote_calls, List.forall_mem_cons]
    exact ⟨⟨hmetric, by decide⟩, ⟨hmetric, by simp [LabelNames, ha]⟩,
      ⟨hmetric, by simp [LabelNames, ha, hb]⟩, ⟨hmetric, by simp [LabelNames, ha]⟩, by simp⟩
  obtain ⟨-, hvalue, samples, hparse, -, hmem, -⟩ := run_exposition .standard quote_calls hcalls
  exact ⟨hvalue, samples, hparse, hmem⟩

end Metrics

end Ironpulse.Core
