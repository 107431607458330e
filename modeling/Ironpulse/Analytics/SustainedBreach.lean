import Ironpulse.Analytics.RuleEngine

/-! # Sustained breaches and the cooldown

An excursion of a sensor is a maximal run of its readings on one side of the limits. The limit check
raises its alert at the first reading of an excursion or not at all: when the cooldown holds it back
there, the rest of the excursion goes unreported however long it lasts.

* **`ReportsSustained`**: an excursion that lasts beyond the cooldown is reported by then.
* **`OutlastsCooldown`**: some excursion begins within the cooldown of the last reported one and
  lasts beyond it.
* **`reportsSustained_iff`**: the first holds exactly when the second does not. -/

namespace Ironpulse.Analytics

open Core (TimePoint Seconds Limits)

variable {D F : Type} [Floating F]

/-! ## (1) Excursions -/

/-- The readings `excursion`, after the readings `before`, are a maximal run up to its last reading
on one side of the limits. -/
structure IsExcursion (limits : Limits F) (before excursion : List (Observation F))
    (side : LimitState) : Prop where
  nonempty : excursion ≠ []
  outside : side ≠ .inside
  on_side : ∀ o ∈ excursion, limit_state_of limits o.value = side
  entered : ∀ o ∈ before.getLast?, limit_state_of limits o.value ≠ side

/-- `now` is at least `cooldown` later than the last alert, or there was none; in seconds and
nanoseconds, without wrapping. -/
def LaterBy (cooldown : Seconds) (last : Option TimePoint) (now : TimePoint) : Prop :=
  ∀ t ∈ last, cooldown.toInt * 10 ^ 9 ≤ now.toInt - t.toInt

instance (cooldown : Seconds) (last : Option TimePoint) (now : TimePoint) :
    Decidable (LaterBy cooldown last now) :=
  -- only the element counts, not all 2 ^ 64 times
  show Decidable (∀ t ∈ last, cooldown.toInt * 10 ^ 9 ≤ now.toInt - t.toInt) from
    Option.decidableForallMem last

/-- When a limit alert of the sensor was last among some alerts. -/
def lastLimitAlert (sensor_id : String) (alerts : List (AnomalyEvent F)) : Option TimePoint :=
  ((limitAlerts sensor_id alerts).getLast?).map AnomalyEvent.timestamp

section Property

variable [AnomalyDetector D F]

/-- Every excursion with a reading at least `cooldown` later than the last limit alert before it has
raised a limit alert by its last reading so far. -/
def ReportsSustained (engine : RuleEngine D F) (sensor_id : String) (limits : Limits F)
    (cooldown : Seconds) (calls : List (Observation F)) : Prop :=
  ∀ before excursion after side, calls = before ++ excursion ++ after →
    IsExcursion limits (readings sensor_id before) (readings sensor_id excursion) side →
    (∃ o ∈ readings sensor_id excursion,
      LaterBy cooldown (lastLimitAlert sensor_id (feed engine before).1) o.timestamp) →
    ∃ a ∈ (feed (feed engine before).2 excursion).1, a.sensor_id = sensor_id ∧ a.kind = .limit

end Property

/-- When the last of a sensor's readings was reported: the readings that enter a side of the limits,
thinned by the cooldown. -/
def lastReported (limits : Limits F) (cooldown : Seconds) (rs : List (Observation F)) :
    Option TimePoint :=
  let T := limitTrigger limits cooldown
  ((EdgeTrigger.thin T.time T.ready none (T.entries .inside rs)).getLast?).map Observation.timestamp

/-- An excursion begins within the cooldown and lasts beyond it. -/
def OutlastsCooldown (limits : Limits F) (cooldown : Seconds) (rs : List (Observation F)) : Prop :=
  ∃ before first rest after side, rs = before ++ first :: rest ++ after ∧
    IsExcursion limits before (first :: rest) side ∧
    ¬ cooled_down (lastReported limits cooldown before) cooldown first.timestamp ∧
    ∃ o ∈ first :: rest, LaterBy cooldown (lastReported limits cooldown before) o.timestamp

/-! ## (2) What the engine raises during an excursion -/

variable {limits : Limits F} {cooldown : Seconds} {side : LimitState}
  {before : List (Observation F)} {first : Observation F} {rest : List (Observation F)}

/-- The trigger remembers the last reported reading. -/
theorem last_after_eq_lastReported (rs : List (Observation F)) :
    ((limitTrigger limits cooldown).after ⟨.inside, none⟩ rs).last =
      lastReported limits cooldown rs := by
  rw [EdgeTrigger.last_after, EdgeTrigger.fired_eq_thin, Option.or_none]
  rfl

/-- At the start of an excursion the trigger is at another level. -/
theorem level_after_ne (h : IsExcursion limits before (first :: rest) side) :
    limit_state_of limits first.value ≠
      ((limitTrigger limits cooldown).after ⟨.inside, none⟩ before).level := by
  have hfirst := h.on_side first List.mem_cons_self
  rw [hfirst, EdgeTrigger.level_after]
  cases hlast : before.getLast? with
  | none => exact h.outside
  | some o => exact (h.entered o hlast).symm

/-- **An excursion is reported at its first reading or not at all.** -/
theorem fired_of_isExcursion (h : IsExcursion limits before (first :: rest) side) :
    (limitTrigger limits cooldown).fired
        ((limitTrigger limits cooldown).after ⟨.inside, none⟩ before) (first :: rest) =
      if cooled_down (lastReported limits cooldown before) cooldown first.timestamp then [first]
      else [] := by
  have hfirst := h.on_side first List.mem_cons_self
  have hidle : limit_state_of limits first.value ≠ .inside := hfirst ▸ h.outside
  have hrest : ∀ o ∈ rest, limit_state_of limits o.value = limit_state_of limits first.value := by
    intro o ho
    rw [hfirst]
    exact h.on_side o (List.mem_cons_of_mem _ ho)
  rw [EdgeTrigger.fired_excursion _ hidle (level_after_ne h) hrest, last_after_eq_lastReported]
  rfl

variable [AnomalyDetector D F] {engine : RuleEngine D F} {sensor_id : String}

omit [Floating F] [AnomalyDetector D F] in
/-- A limit alert of a sensor was raised exactly when one stands among the alerts. -/
theorem limitAlerts_ne_nil {alerts : List (AnomalyEvent F)} :
    limitAlerts sensor_id alerts ≠ [] ↔ ∃ a ∈ alerts, a.sensor_id = sensor_id ∧ a.kind = .limit := by
  rw [Ne, limitAlerts, List.filter_eq_nil_iff]
  simp only [decide_eq_true_eq, not_forall, not_not, exists_prop]

/-- The last limit alert among the published ones is that of the last reported reading. -/
theorem lastLimitAlert_feed (h : Tracks engine sensor_id limits cooldown ⟨.inside, none⟩)
    (calls : List (Observation F)) :
    lastLimitAlert sensor_id (feed engine calls).1 =
      lastReported limits cooldown (readings sensor_id calls) := by
  rw [lastLimitAlert, (limitAlerts_feed calls h).1, List.getLast?_map, Option.map_map,
    EdgeTrigger.fired_eq_thin]
  rfl

/-- **An alert is raised within an excursion exactly when the cooldown is over at its start.** -/
theorem raised_iff (h : Tracks engine sensor_id limits cooldown ⟨.inside, none⟩)
    {before excursion : List (Observation F)}
    (hreadings : readings sensor_id excursion = first :: rest)
    (hexcursion : IsExcursion limits (readings sensor_id before) (first :: rest) side) :
    (∃ a ∈ (feed (feed engine before).2 excursion).1, a.sensor_id = sensor_id ∧ a.kind = .limit) ↔
      cooled_down (lastReported limits cooldown (readings sensor_id before)) cooldown
        first.timestamp = true := by
  have hbefore := (limitAlerts_feed before h).2
  rw [← limitAlerts_ne_nil, (limitAlerts_feed excursion hbefore).1, hreadings,
    fired_of_isExcursion hexcursion]
  split <;> simp_all

/-! ## (3) When sustained breaches are reported -/

omit [Floating F] [AnomalyDetector D F] in
/-- A split of a sensor's readings comes from a split of all calls. -/
theorem exists_split_of_readings {calls before excursion after : List (Observation F)}
    (h : readings sensor_id calls = before ++ excursion ++ after) :
    ∃ before' excursion' after', calls = before' ++ excursion' ++ after' ∧
      readings sensor_id before' = before ∧ readings sensor_id excursion' = excursion := by
  obtain ⟨left, after', rfl, hleft, -⟩ := List.filter_eq_append_iff.mp h
  obtain ⟨before', excursion', rfl, hbefore, hexcursion⟩ := List.filter_eq_append_iff.mp hleft
  exact ⟨before', excursion', after', rfl, hbefore, hexcursion⟩

/-- **Sustained breaches are reported exactly when no excursion begins within the cooldown and
outlasts it**, for every registered sensor and every sequence of calls. -/
theorem reportsSustained_iff (engine : RuleEngine D F) (sensor_id : String) (strategies : List D)
    (options : SensorRuleOptions F) (calls : List (Observation F)) :
    ReportsSustained (register_sensor engine sensor_id strategies options) sensor_id
        options.limits options.cooldown calls ↔
      ¬ OutlastsCooldown options.limits options.cooldown (readings sensor_id calls) := by
  have htracks := tracks_register engine sensor_id strategies options
  constructor
  · -- an excursion that outlasts the cooldown raises an alert only if the cooldown was over when it
    -- began
    rintro hreports ⟨before, first, rest, after, side, hsplit, hexcursion, hcooled, hlater⟩
    obtain ⟨before', excursion', after', hcalls, rfl, hreadings⟩ := exists_split_of_readings hsplit
    rw [← lastLimitAlert_feed htracks] at hlater
    rw [← hreadings] at hlater
    have hraised := hreports before' excursion' after' side hcalls (hreadings ▸ hexcursion) hlater
    exact hcooled ((raised_iff htracks hreadings hexcursion).mp hraised)
  · rintro hnone before excursion after side rfl hexcursion hlater
    cases hreadings : readings sensor_id excursion with
    | nil => exact absurd hreadings hexcursion.nonempty
    | cons first rest =>
        rw [hreadings] at hexcursion hlater
        rw [lastLimitAlert_feed htracks] at hlater
        apply (raised_iff htracks hreadings hexcursion).mpr
        -- an excursion that raises none is one that outlasts the cooldown
        by_contra hcooled
        refine hnone ⟨_, first, rest, readings sensor_id after, side, ?_, hexcursion, hcooled,
          hlater⟩
        rw [← hreadings]
        simp only [readings, List.filter_append]

/-! ## (4) A sustained breach that is never reported -/

/-- A sensor needs no detectors. -/
instance : AnomalyDetector Empty F where
  observe d := d.elim
  name d := d.elim

/-- A reading of the sensor `s`, in whole seconds. -/
def reading_at (value : Rat) (seconds : Int64) : Observation Rat :=
  ⟨"s", value, Core.seconds_to_nanoseconds seconds⟩

/-- A limit of 90 and a cooldown of a minute. -/
def minuteCooldown : SensorRuleOptions Rat := { cooldown := 60, limits := { high := some 90 } }

/-- The value leaves the range again two seconds after an alert and stays outside. -/
def relapse : List (Observation Rat) :=
  [reading_at 91 0, reading_at 89 1, reading_at 91 2, reading_at 92 120]

/-- Two minutes after the only alert the second excursion is still not reported. -/
theorem not_reportsSustained_relapse :
    relapse.Pairwise (fun o p => o.timestamp ≤ p.timestamp) ∧
      ¬ ReportsSustained (register_sensor ({} : RuleEngine Empty Rat) "s" [] minuteCooldown) "s"
        minuteCooldown.limits minuteCooldown.cooldown relapse := by
  refine ⟨by decide, fun hreports => ?_⟩
  have hraised := hreports [reading_at 91 0, reading_at 89 1] [reading_at 91 2, reading_at 92 120]
    [] .above rfl
    ⟨by decide, by decide, by decide, by decide⟩
    ⟨reading_at 92 120, by decide, by decide⟩
  revert hraised
  decide

end Ironpulse.Analytics
