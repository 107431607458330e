import Ironpulse.Core.Config

/-! # The ranges of what the environment overrides

`get_int` checks an integer of the document against both ends of a range. An `IRONPULSE_*` variable
replaces it afterwards by whatever parses and fits the field's type, so that only the checks of
`validate` stand between the environment and the loaded configuration (`src/core/config.cpp`).

* **`AppConfig.InRange`**: the six integers that a variable can replace lie in `get_int`'s ranges.
* **`OverrideWithin`**: a variable that replaces its field does so by at most a bound.
* **`inRange_iff`**: `validate` repeats every bound but the upper ones of three fields, so a loaded
  configuration is in range exactly if their variables are. -/

namespace Ironpulse.Core

/-! ## (1) What an override leaves -/

/-- A variable that parses and fits 32 bits is at most `bound`. -/
def OverrideWithin (getenv : Environment) (name : String) (bound : Nat) : Prop :=
  ∀ parsed : UInt64, (getenv.env name).bind stoull = some parsed →
    parsed.toNat < 2 ^ 32 → parsed.toNat ≤ bound

/-- **An overridden field is within a bound exactly if the override is**, where the field of the
document was. -/
theorem parse_or_le_iff {T : Type} [Unsigned T] {raw : Option String} {fallback : T} {bound : Nat}
    (hfallback : Unsigned.toNat fallback ≤ bound) :
    Unsigned.toNat (parse_or raw fallback) ≤ bound ↔
      ∀ parsed : UInt64, raw.bind stoull = some parsed →
        parsed.toNat < 2 ^ Unsigned.width T → parsed.toNat ≤ bound := by
  have hwidth : 0 < 2 ^ Unsigned.width T := Nat.two_pow_pos _
  unfold parse_or numeric_limits_max
  cases hraw : raw.bind stoull with
  | none =>
      constructor
      · intro _ parsed hparsed
        cases hparsed
      · intro _
        exact hfallback
  | some parsed =>
      simp only [Option.some.injEq, forall_eq']
      by_cases hfits : parsed.toNat < 2 ^ Unsigned.width T
      · rw [if_neg (by omega), Unsigned.toNat_ofNat, Nat.mod_eq_of_lt hfits]
        exact ⟨fun h _ => h, fun h => h hfits⟩
      · -- what does not fit leaves the field of the document
        rw [if_pos (by omega)]
        exact ⟨fun _ h => absurd h hfits, fun _ => hfallback⟩

/-- A bound that the fallback meets is met exactly when the override is in range. -/
theorem parse_or_le_iff_overrideWithin {getenv : Environment} {name : String}
    {fallback : UInt32} {bound : Nat} (hfallback : fallback.toNat ≤ bound) :
    (parse_or (getenv.env name) fallback).toNat ≤ bound ↔
      OverrideWithin getenv name bound :=
  parse_or_le_iff (T := UInt32) hfallback

/-! ## (2) The ranges -/

/-- **The ranges of the document**: every integer that the environment can override lies between the
bounds that `get_int` enforces for it. -/
structure AppConfig.InRange (cfg : AppConfig) : Prop where
  http_port : 1 ≤ cfg.http_port.toNat ∧ cfg.http_port.toNat ≤ 65535
  ws_port : 1 ≤ cfg.ws_port.toNat ∧ cfg.ws_port.toNat ≤ 65535
  worker_threads : 1 ≤ cfg.worker_threads.toNat ∧ cfg.worker_threads.toNat ≤ 256
  retention_hours : 1 ≤ cfg.retention_hours.toNat ∧ cfg.retention_hours.toNat ≤ 87600
  segment_max_mb : 1 ≤ cfg.export_config.segment_max_mb.toNat ∧
    cfg.export_config.segment_max_mb.toNat ≤ 65536
  max_total_mb : cfg.export_config.max_total_mb.toNat ≤ 16777216

/-- What `validate` checks again: both ends for the ports and the threads, else the lower one. -/
theorem checked_of_validate {cfg valid : AppConfig} (h : validate cfg = .ok valid) :
    (1 ≤ cfg.http_port.toNat ∧ 1 ≤ cfg.ws_port.toNat) ∧
      (1 ≤ cfg.worker_threads.toNat ∧ cfg.worker_threads.toNat ≤ 256) ∧
      1 ≤ cfg.retention_hours.toNat ∧ 1 ≤ cfg.export_config.segment_max_mb.toNat := by
  have hexport := validate_export_of_validate h
  simp only [validate, bind_eq_ok, require_eq_ok] at h
  obtain ⟨_, -, _, hports, _, -, _, hthreads, _, hhours, -⟩ := h
  simp only [validate_export, bind_eq_ok, require_eq_ok] at hexport
  obtain ⟨_, -, _, -, _, -, _, hsegment, -⟩ := hexport
  have h256 : (256 : UInt64).toNat = 256 := rfl
  simp only [not_or, ← UInt16.toNat_inj, ← UInt64.toNat_inj, gt_iff_lt, UInt64.lt_iff_toNat_lt,
    h256, ne_eq, ← UInt32.toNat_inj, UInt16.toNat_zero, UInt32.toNat_zero, UInt64.toNat_zero]
    at hports hthreads hhours hsegment
  omega

/-- The export section of a document. -/
theorem export_config_of_parse_sections {getenv : Environment} {j : Json}
    {settings document : AppConfig} (h : parse_sections getenv j settings = .ok document) :
    document.export_config.segment_max_mb.toNat ≤ 65536 ∧
      document.export_config.max_total_mb.toNat ≤ 16777216 := by
  simp only [parse_sections, bind_eq_ok] at h
  obtain ⟨_, -, _, -, e, he, h⟩ := h
  have hexport : document.export_config = e := by
    cases h
    rfl
  rw [hexport]
  unfold get_section at he
  split at he
  · -- without the section the defaults stand; with it each field went through `get_int`
    cases he
    decide
  · simp only [parse_export, bind_eq_ok] at he
    obtain ⟨_, -, _, -, _, -, _, -, _, -, _, -, segment, hsegment, total, htotal, he⟩ := he
    cases he
    exact ⟨(get_int_in_range (by decide) (by decide) hsegment).2,
      (get_int_in_range (by decide) (by decide) htotal).2⟩

/-- **When a loaded configuration is in range.** For every document and environment that load, the
integers that a variable can override lie in the document's ranges if and only if none of the three
variables whose upper bound `validate` does not repeat replaces its field by more. -/
theorem inRange_iff (json_parse : String → Except JsonError Json) (getenv : Environment)
    (json_text : String) (cfg : AppConfig)
    (hload : load_from_string json_parse getenv json_text = .ok cfg) :
    cfg.InRange ↔
      OverrideWithin getenv "IRONPULSE_RETENTION_HOURS" 87600 ∧
        OverrideWithin getenv "IRONPULSE_EXPORT_SEGMENT_MB" 65536 ∧
        OverrideWithin getenv "IRONPULSE_EXPORT_MAX_MB" 16777216 := by
  obtain ⟨_, settings, document, -, hsettings, hdocument, hvalid⟩ := load_eq_ok hload
  obtain ⟨⟨hhttp, hws⟩, hthreads, hhours, hsegment⟩ := checked_of_validate hvalid
  -- the document is checked on its own, so only the overrides can leave the range
  have hperiod : document.retention_hours.toNat ≤ 87600 := by
    rw [retention_hours_of_parse_sections hdocument]
    exact (retention_hours_of_parse_settings hsettings).2
  obtain ⟨hsegment_max, htotal_max⟩ := export_config_of_parse_sections hdocument
  have hperiod_iff := @parse_or_le_iff_overrideWithin getenv "IRONPULSE_RETENTION_HOURS" _ _ hperiod
  have hsegment_iff :=
    @parse_or_le_iff_overrideWithin getenv "IRONPULSE_EXPORT_SEGMENT_MB" _ _ hsegment_max
  have htotal_iff :=
    @parse_or_le_iff_overrideWithin getenv "IRONPULSE_EXPORT_MAX_MB" _ _ htotal_max
  have hport : ∀ port : UInt16, port.toNat ≤ 65535 := fun port => by
    have hlt := UInt16.toNat_lt port
    omega
  rw [validate_eq_ok hvalid]
  constructor
  · intro h
    exact ⟨hperiod_iff.mp h.retention_hours.2, hsegment_iff.mp h.segment_max_mb.2,
      htotal_iff.mp h.max_total_mb⟩
  · rintro ⟨hhours_within, hsegment_within, htotal_within⟩
    exact
      { http_port := ⟨hhttp, hport _⟩
        ws_port := ⟨hws, hport _⟩
        worker_threads := hthreads
        retention_hours := ⟨hhours, hperiod_iff.mpr hhours_within⟩
        segment_max_mb := ⟨hsegment, hsegment_iff.mpr hsegment_within⟩
        max_total_mb := htotal_iff.mpr htotal_within }

/-- The empty document. -/
def emptyDocument : String → Except JsonError Json := fun _ => .ok (.object [])

/-- An environment that sets one variable. -/
def overriding (overridden value : String) : Environment :=
  fun name => if name = overridden then some value else none

/-- Ten years of retention are in range. -/
theorem inRange_of_ten_years :
    AppConfig.InRange { retention_hours := 87600 } := by
  refine (inRange_iff emptyDocument (overriding "IRONPULSE_RETENTION_HOURS" "87600") "{}" _
    (by decide)).mpr ⟨?_, ?_, ?_⟩
  · intro parsed hparsed _
    have h87600 : stoull "87600" = some 87600 := by decide
    cases h87600.symm.trans hparsed
    decide
  -- the other two variables are unset
  · intro parsed hparsed
    cases hparsed
  · intro parsed hparsed
    cases hparsed

/-- **An override of 100000 hours is accepted**, which the document's range is not. -/
theorem not_inRange_of_override :
    ¬ ∀ (json_parse : String → Except JsonError Json) (getenv : Environment) (json_text : String)
        (cfg : AppConfig), load_from_string json_parse getenv json_text = .ok cfg →
      cfg.InRange := by
  intro h
  have hrange := h emptyDocument (overriding "IRONPULSE_RETENTION_HOURS" "100000") "{}"
    { retention_hours := 100000 } (by decide)
  exact absurd hrange.retention_hours.2 (by decide)

end Ironpulse.Core
