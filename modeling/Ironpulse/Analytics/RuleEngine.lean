import Ironpulse.Core.Chrono
import Ironpulse.Core.Config
import Ironpulse.Lib.EdgeTrigger
import Mathlib.Algebra.Order.Ring.Rat
import Mathlib.Logic.Function.Basic

/-! # Turning readings into alerts

`include/ironpulse/analytics/rule_engine.hpp`: every reading of a sensor runs through its hard
limits and through a vote of its anomaly detectors, and each of the two may raise an alert.

* **`Floating`**: what the engine does with a `double`.
* **`check_limits`, `run_detectors`, `observe`**: one reading.
* **`limitTrigger`**: the limit check as an edge trigger, and `check_limits_eq`, that it is one.
* **`limit_alerts_feed`**: the limit alerts of a sensor over any calls are the events of its trigger
  over its own readings. -/

namespace Ironpulse.Analytics

open Core (TimePoint Seconds Nanoseconds seconds_to_nanoseconds Severity Limits)

/-! ## (1) Numbers and detectors -/

/-- The operations on a `double` that the engine uses; nothing is assumed about them, so that
infinities and NaN are covered. `printf_2f` is `printf`'s `%.2f`. -/
class Floating (F : Type) where
  zero : F
  one : F
  lt : F → F → Bool
  sub : F → F → F
  abs : F → F
  printf_2f : F → String

/-- `std::max`. -/
def max {F : Type} [Floating F] (a b : F) : F := if Floating.lt a b then b else a

/-- A rational number with two decimals, half to even. -/
def print_hundredths (q : Rat) : String :=
  let scaled := |q| * 100
  let down := scaled.floor.toNat
  let rest := scaled - down
  let hundredths := if rest > 1 / 2 ∨ (rest = 1 / 2 ∧ down % 2 = 1) then down + 1 else down
  let decimals := toString (hundredths % 100)
  (if q < 0 then "-" else "") ++ toString (hundredths / 100) ++ "." ++
    (if decimals.length < 2 then "0" ++ decimals else decimals)

/-- Exact arithmetic. -/
instance : Floating Rat where
  zero := 0
  one := 1
  lt a b := decide (a < b)
  sub a b := a - b
  abs a := |a|
  printf_2f := print_hundredths

/-- What a detector says about one reading. -/
structure AnomalyResult (F : Type) where
  is_anomaly : Bool
  score : F
  confidence : F

/-- A detection strategy with its rolling state. -/
class AnomalyDetector (D F : Type) where
  observe : D → F → AnomalyResult F × D
  name : D → String

/-! ## (2) Rules and alerts -/

/-- What raised an alert. -/
inductive AlertKind where
  | statistical
  | limit
  deriving DecidableEq

/-- `AnomalyEvent`, an alert of the engine. -/
structure AnomalyEvent (F : Type) where
  sensor_id : String
  detector_name : String
  message : String
  score : F
  confidence : F
  timestamp : TimePoint
  votes : Nat := 0
  detectors_total : Nat := 0
  kind : AlertKind
  severity : Severity
  value : F
  limit : Option F := none
  above_limit : Bool := false

/-- Alerting options beyond the detector list; no votes required means all of them. -/
structure SensorRuleOptions (F : Type) where
  votes_required : Nat := 0
  cooldown : Seconds := 0
  limits : Limits F := {}

/-- Where a value lies with respect to the limits. -/
inductive LimitState where
  | inside
  | above
  | below
  deriving DecidableEq

/-- `SensorRule`: what a sensor is checked against, and what the checks remember. -/
structure SensorRule (D F : Type) where
  strategies : List D
  votes_required : Nat := 1
  cooldown : Seconds := 0
  limits : Limits F
  limit_state : LimitState := .inside
  last_limit_alert : Option TimePoint := none
  last_statistical_alert : Option TimePoint := none

/-- The rules by sensor id. -/
structure RuleEngine (D F : Type) where
  rules : String → Option (SensorRule D F) := fun _ => none

section Rules

variable {D F : Type}

/-- The rule that `register_sensor` starts a sensor with. -/
def new_rule (strategies : List D) (options : SensorRuleOptions F) : SensorRule D F where
  strategies := strategies
  votes_required :=
    if options.votes_required = 0 then strategies.length else options.votes_required
  cooldown := options.cooldown
  limits := options.limits

/-- A sensor registered again starts anew. -/
def register_sensor (engine : RuleEngine D F) (sensor_id : String) (strategies : List D)
    (options : SensorRuleOptions F) : RuleEngine D F where
  rules := Function.update engine.rules sensor_id (some (new_rule strategies options))

/-- Nanoseconds and seconds are compared in nanoseconds. -/
def cooled_down (last : Option TimePoint) (cooldown : Seconds) (now : TimePoint) : Bool :=
  match last with
  | none => true
  | some last => decide (seconds_to_nanoseconds cooldown ≤ now - last)

/-! ## (3) The limit check -/

variable [Floating F]

/-- `snprintf` into 32 bytes: at most 31 characters and the terminator. -/
def format_number (value : F) : String :=
  String.ofList ((Floating.printf_2f value).toList.take 31)

/-- The side of the limits on which a value lies. -/
def limit_state_of (limits : Limits F) (value : F) : LimitState :=
  if limits.high.any (fun high => Floating.lt high value) then .above
  else if limits.low.any (fun low => Floating.lt value low) then .below
  else .inside

/-- The alert for a value beyond `limit`. -/
def limit_event (sensor_id : String) (value limit : F) (above : Bool) (timestamp : TimePoint) :
    AnomalyEvent F where
  sensor_id := sensor_id
  detector_name := "limit"
  message := "value " ++ format_number value ++ (if above then " above high" else " below low") ++
    " limit " ++ format_number limit
  score := Floating.abs (Floating.sub value limit)
  confidence := Floating.one
  timestamp := timestamp
  kind := .limit
  severity := .critical
  value := value
  limit := some limit
  above_limit := above

/-- The limit check. The state follows the value also when the cooldown holds the alert back. -/
def check_limits (sensor_id : String) (rule : SensorRule D F) (value : F) (timestamp : TimePoint) :
    Option (AnomalyEvent F) × SensorRule D F :=
  let state := limit_state_of rule.limits value
  let entered_breach := state ≠ .inside ∧ state ≠ rule.limit_state
  let rule' := { rule with limit_state := state }
  if ¬ entered_breach ∨ ¬ cooled_down rule'.last_limit_alert rule'.cooldown timestamp then
    (none, rule')
  else
    let above := decide (state = .above)
    -- a value beyond a limit has that limit (`isSome_limit`): the default is never taken
    let limit := (if above then rule.limits.high else rule.limits.low).getD Floating.zero
    (some (limit_event sensor_id value limit above timestamp),
      { rule' with last_limit_alert := some timestamp })

/-- A value is above the range when it passes a high limit that is set. -/
theorem limit_state_of_eq_above {limits : Limits F} {value : F} :
    limit_state_of limits value = .above ↔
      limits.high.any (fun high => Floating.lt high value) = true := by
  unfold limit_state_of
  split_ifs <;> simp_all

/-- A value beyond the limits has the limit that it crossed. -/
theorem isSome_limit {limits : Limits F} {value : F} (h : limit_state_of limits value ≠ .inside) :
    (if limit_state_of limits value = .above then limits.high else limits.low).isSome := by
  by_cases habove : limit_state_of limits value = .above
  · rw [if_pos habove]
    obtain ⟨high, hsome, -⟩ := (Option.any_eq_true ..).mp (limit_state_of_eq_above.mp habove)
    rw [hsome, Option.isSome_some]
  · rw [if_neg habove]
    rw [limit_state_of_eq_above] at habove
    rw [limit_state_of, if_neg habove] at h
    have hlow : limits.low.any (fun low => Floating.lt value low) = true := by
      by_contra hnot
      exact h (if_neg hnot)
    obtain ⟨low, hsome, -⟩ := (Option.any_eq_true ..).mp hlow
    rw [hsome, Option.isSome_some]

/-- The arguments of a call of `observe`. -/
structure Observation (F : Type) where
  sensor_id : String
  value : F
  timestamp : TimePoint
  deriving DecidableEq

/-- The limit check of a sensor, as a trigger over its readings. -/
def limitTrigger (limits : Limits F) (cooldown : Seconds) :
    EdgeTrigger (Observation F) LimitState TimePoint where
  level o := limit_state_of limits o.value
  time o := o.timestamp
  idle := .inside
  ready last now := cooled_down last cooldown now

namespace SensorRule

/-- The trigger that runs in a rule. -/
def trigger (rule : SensorRule D F) : EdgeTrigger (Observation F) LimitState TimePoint :=
  limitTrigger rule.limits rule.cooldown

/-- The trigger's state in a rule. -/
def triggerState (rule : SensorRule D F) : EdgeTrigger.State LimitState TimePoint :=
  ⟨rule.limit_state, rule.last_limit_alert⟩

end SensorRule

/-- The alert for a reading beyond the limits. -/
def limit_alert (limits : Limits F) (o : Observation F) : AnomalyEvent F :=
  let above := decide (limit_state_of limits o.value = .above)
  limit_event o.sensor_id o.value
    ((if above then limits.high else limits.low).getD Floating.zero) above o.timestamp

/-- **The limit check steps the trigger**: an alert exactly when it fires. -/
theorem check_limits_eq (rule : SensorRule D F) (o : Observation F) :
    check_limits o.sensor_id rule o.value o.timestamp =
      (if rule.trigger.fires rule.triggerState o then some (limit_alert rule.limits o) else none,
        { rule with
          limit_state := (rule.trigger.next rule.triggerState o).level
          last_limit_alert := (rule.trigger.next rule.triggerState o).last }) := by
  -- the code tests for the opposite of a firing, in three parts
  have hfires : rule.trigger.fires rule.triggerState o = true ↔
      (limit_state_of rule.limits o.value ≠ .inside ∧
        limit_state_of rule.limits o.value ≠ rule.limit_state) ∧
      cooled_down rule.last_limit_alert rule.cooldown o.timestamp = true := by
    simp [EdgeTrigger.fires, EdgeTrigger.enters, SensorRule.trigger, SensorRule.triggerState,
      limitTrigger]
  rw [EdgeTrigger.next]
  by_cases h : rule.trigger.fires rule.triggerState o
  · obtain ⟨hentered, hcooled⟩ := hfires.mp h
    rw [if_pos h, if_pos h, check_limits, if_neg (by simp [hentered, hcooled])]
    rfl
  · have hnot : ¬ (limit_state_of rule.limits o.value ≠ .inside ∧
        limit_state_of rule.limits o.value ≠ rule.limit_state) ∨
        ¬ cooled_down rule.last_limit_alert rule.cooldown o.timestamp = true :=
      not_and_or.mp fun hboth => h (hfires.mpr hboth)
    rw [if_neg h, if_neg h, check_limits, if_pos hnot]
    rfl

/-! ## (4) The vote of the detectors -/

variable [AnomalyDetector D F]

/-- The names of the detectors that fired, with `+` between them. -/
def join (names : List String) : String := "+".intercalate names

/-- Every strategy sees the value, also when no alert can come of it. -/
def observe_all (strategies : List D) (value : F) : List (AnomalyResult F × D) :=
  strategies.map fun strategy => AnomalyDetector.observe strategy value

/-- The vote of the detectors. -/
def run_detectors (sensor_id : String) (rule : SensorRule D F) (value : F)
    (timestamp : TimePoint) : Option (AnomalyEvent F) × SensorRule D F :=
  if rule.strategies.isEmpty then (none, rule)
  else
    let observed := observe_all rule.strategies value
    let votes := observed.map Prod.fst
    let voting_detector_names :=
      (observed.filter fun p => p.1.is_anomaly).map fun p => AnomalyDetector.name F p.2
    let rule' := { rule with strategies := observed.map Prod.snd }
    if voting_detector_names.length < rule'.votes_required ∨
        ¬ cooled_down rule'.last_statistical_alert rule'.cooldown timestamp then
      (none, rule')
    else
      (some
        { sensor_id
          detector_name := join voting_detector_names
          message := "anomaly confirmed by " ++ toString voting_detector_names.length ++ "/" ++
            toString votes.length ++ " detector(s)"
          score := votes.foldl (fun score v => max score v.score) Floating.zero
          confidence := votes.foldl (fun score v => max score v.confidence) Floating.zero
          timestamp
          votes := voting_detector_names.length
          detectors_total := votes.length
          kind := .statistical
          severity := .warning
          value },
        { rule' with last_statistical_alert := some timestamp })

/-- The vote raises statistical alerts of its sensor only and leaves the limit check alone. -/
theorem run_detectors_frame (sensor_id : String) (rule : SensorRule D F) (value : F)
    (timestamp : TimePoint) :
    (∀ a ∈ (run_detectors sensor_id rule value timestamp).1,
        a.sensor_id = sensor_id ∧ a.kind = .statistical) ∧
      (run_detectors sensor_id rule value timestamp).2.limits = rule.limits ∧
      (run_detectors sensor_id rule value timestamp).2.cooldown = rule.cooldown ∧
      (run_detectors sensor_id rule value timestamp).2.triggerState = rule.triggerState := by
  unfold run_detectors
  split
  · exact ⟨fun a ha => by simp at ha, rfl, rfl, rfl⟩
  · dsimp only
    split
    · exact ⟨fun a ha => by simp at ha, rfl, rfl, rfl⟩
    · refine ⟨?_, rfl, rfl, rfl⟩
      rintro a ⟨⟩
      exact ⟨rfl, rfl⟩

/-! ## (5) Readings of all sensors -/

/-- One reading: the alerts published on the bus, in order, and the engine after it. -/
def observe (engine : RuleEngine D F) (o : Observation F) :
    List (AnomalyEvent F) × RuleEngine D F :=
  match engine.rules o.sensor_id with
  | none => ([], engine)
  | some rule =>
      let limit := check_limits o.sensor_id rule o.value o.timestamp
      let vote := run_detectors o.sensor_id limit.2 o.value o.timestamp
      (limit.1.toList ++ vote.1.toList,
        { rules := Function.update engine.rules o.sensor_id (some vote.2) })

/-- A sequence of calls: all alerts published, in order, and the engine after it. -/
def feed (engine : RuleEngine D F) : List (Observation F) → List (AnomalyEvent F) × RuleEngine D F
  | [] => ([], engine)
  | o :: os =>
      let first := observe engine o
      let rest := feed first.2 os
      (first.1 ++ rest.1, rest.2)

/-- The readings of one sensor. -/
def readings (sensor_id : String) (os : List (Observation F)) : List (Observation F) :=
  os.filter fun o => o.sensor_id = sensor_id

/-- The limit alerts of one sensor. -/
def limitAlerts (sensor_id : String) (alerts : List (AnomalyEvent F)) : List (AnomalyEvent F) :=
  alerts.filter fun a => a.sensor_id = sensor_id ∧ a.kind = .limit

/-! ## (6) The limit alerts of a sensor -/

/-- The sensor is registered with these limits and this cooldown, and its trigger is in the state
`st`. -/
def Tracks (engine : RuleEngine D F) (sensor_id : String) (limits : Limits F) (cooldown : Seconds)
    (st : EdgeTrigger.State LimitState TimePoint) : Prop :=
  ∃ rule, engine.rules sensor_id = some rule ∧ rule.limits = limits ∧ rule.cooldown = cooldown ∧
    rule.triggerState = st

omit [Floating F] [AnomalyDetector D F] in
/-- A sensor that has just been registered is tracked from inside the range, with no alert behind
it. -/
theorem tracks_register (engine : RuleEngine D F) (sensor_id : String) (strategies : List D)
    (options : SensorRuleOptions F) :
    Tracks (register_sensor engine sensor_id strategies options) sensor_id options.limits
      options.cooldown ⟨.inside, none⟩ :=
  ⟨_, Function.update_self .., rfl, rfl, rfl⟩

omit [Floating F] in
/-- The limit alerts of one sensor are collected call by call. -/
theorem limitAlerts_append (sensor_id : String) (as bs : List (AnomalyEvent F)) :
    limitAlerts sensor_id (as ++ bs) = limitAlerts sensor_id as ++ limitAlerts sensor_id bs :=
  List.filter_append ..

omit [Floating F] in
/-- Alerts of other sensors or of another kind are not among a sensor's limit alerts. -/
theorem limitAlerts_eq_nil {sensor_id : String} {as : List (AnomalyEvent F)}
    (h : ∀ a ∈ as, a.sensor_id ≠ sensor_id ∨ a.kind ≠ .limit) : limitAlerts sensor_id as = [] := by
  refine List.filter_eq_nil_iff.mpr fun a ha => ?_
  rw [decide_eq_true_iff, not_and_or]
  exact h a ha

variable {engine : RuleEngine D F} {sensor_id : String} {limits : Limits F} {cooldown : Seconds}
  {st : EdgeTrigger.State LimitState TimePoint}

/-- A reading of the sensor steps its trigger. -/
theorem observe_self {o : Observation F} (hid : o.sensor_id = sensor_id)
    (h : Tracks engine sensor_id limits cooldown st) :
    limitAlerts sensor_id (observe engine o).1 =
        (if (limitTrigger limits cooldown).fires st o then [limit_alert limits o] else []) ∧
      Tracks (observe engine o).2 sensor_id limits cooldown
        ((limitTrigger limits cooldown).next st o) := by
  subst hid
  obtain ⟨rule, hrule, rfl, rfl, rfl⟩ := h
  obtain ⟨halert, hlimits, hcooldown, hstate⟩ := run_detectors_frame o.sensor_id
    (check_limits o.sensor_id rule o.value o.timestamp).2 o.value o.timestamp
  simp only [observe, hrule]
  constructor
  · -- a vote of the detectors is an alert of another kind
    have hvote : limitAlerts o.sensor_id (run_detectors o.sensor_id
        (check_limits o.sensor_id rule o.value o.timestamp).2 o.value o.timestamp).1.toList = [] :=
      limitAlerts_eq_nil fun a ha => .inr (by rw [(halert a (Option.mem_toList.mp ha)).2]; decide)
    rw [limitAlerts_append, hvote, List.append_nil, check_limits_eq]
    change limitAlerts _ (Option.toList (if rule.trigger.fires _ o then _ else _)) =
      if rule.trigger.fires _ o then _ else _
    split
    · exact List.filter_cons_of_pos (by simp [limit_alert, limit_event])
    · rfl
  · refine ⟨_, Function.update_self .., ?_, ?_, ?_⟩
    · rw [hlimits, check_limits_eq]
    · rw [hcooldown, check_limits_eq]
    · rw [hstate, check_limits_eq]
      rfl

/-- Every alert of a reading is one of its sensor. -/
theorem sensor_id_of_observe {o : Observation F} {a : AnomalyEvent F}
    (ha : a ∈ (observe engine o).1) : a.sensor_id = o.sensor_id := by
  unfold observe at ha
  cases hrule : engine.rules o.sensor_id with
  | none =>
      rw [hrule] at ha
      cases ha
  | some rule =>
      rw [hrule] at ha
      obtain ⟨halert, -⟩ := run_detectors_frame o.sensor_id
        (check_limits o.sensor_id rule o.value o.timestamp).2 o.value o.timestamp
      -- the alert is one of the limits or one of the detectors
      rcases List.mem_append.mp ha with ha | ha
      · rw [Option.mem_toList, check_limits_eq] at ha
        obtain ⟨-, halert'⟩ := Option.ite_none_right_eq_some.mp ha
        rw [← Option.some.inj halert']
        rfl
      · exact (halert a (Option.mem_toList.mp ha)).1

/-- A reading of another sensor leaves the rule of this one. -/
theorem rules_observe_of_ne {o : Observation F} (hid : o.sensor_id ≠ sensor_id) :
    (observe engine o).2.rules sensor_id = engine.rules sensor_id := by
  unfold observe
  cases hrule : engine.rules o.sensor_id with
  | none => rfl
  | some rule => exact Function.update_of_ne hid.symm ..

/-- A reading of another sensor changes nothing for this one. -/
theorem observe_other {o : Observation F} (hid : o.sensor_id ≠ sensor_id) :
    limitAlerts sensor_id (observe engine o).1 = [] ∧
      (observe engine o).2.rules sensor_id = engine.rules sensor_id := by
  refine ⟨limitAlerts_eq_nil fun a ha => ?_, rules_observe_of_ne hid⟩
  rw [sensor_id_of_observe ha]
  exact .inl hid

/-- **The limit alerts of a sensor are the events of its trigger over its own readings**, whatever
the other sensors do in between. -/
theorem limitAlerts_feed (os : List (Observation F))
    (h : Tracks engine sensor_id limits cooldown st) :
    limitAlerts sensor_id (feed engine os).1 =
        ((limitTrigger limits cooldown).fired st (readings sensor_id os)).map (limit_alert limits) ∧
      Tracks (feed engine os).2 sensor_id limits cooldown
        ((limitTrigger limits cooldown).after st (readings sensor_id os)) := by
  induction os generalizing engine st with
  | nil => exact ⟨rfl, h⟩
  | cons o os ih =>
      rw [feed, limitAlerts_append]
      -- the trigger sees the readings of its own sensor only
      by_cases hid : o.sensor_id = sensor_id
      · obtain ⟨hfirst, htracks⟩ := observe_self hid h
        obtain ⟨hrest, hafter⟩ := ih htracks
        have hreadings : readings sensor_id (o :: os) = o :: readings sensor_id os :=
          List.filter_cons_of_pos (decide_eq_true hid)
        rw [hreadings, hfirst, hrest, EdgeTrigger.fired_cons]
        refine ⟨?_, hafter⟩
        split <;> rfl
      · obtain ⟨hfirst, hrule⟩ := @observe_other D F _ _ engine sensor_id o hid
        have htracks : Tracks (observe engine o).2 sensor_id limits cooldown st := by
          rwa [Tracks, hrule]
        have hreadings : readings sensor_id (o :: os) = readings sensor_id os :=
          List.filter_cons_of_neg (by simpa using hid)
        rw [hreadings, hfirst, List.nil_append]
        exact ih htracks

end Rules

end Ironpulse.Analytics
