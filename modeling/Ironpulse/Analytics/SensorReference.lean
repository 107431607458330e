import Ironpulse.Analytics.SustainedBreach

/-! # The rule engine against a reference for each sensor

The engine handles both kinds of alerts of all sensors in one pass (`rule_engine.hpp`). The reference
takes one sensor's own readings: the limit alerts are the readings that enter a side of the limits,
thinned by the cooldown, and the statistical alerts are the readings on which a quorum of the
detectors, each run alone, flags an anomaly, thinned by a cooldown of their own.

* **`standalone`, `ballots`**: the detectors run alone over a sensor's readings.
* **`limitReference`, `statisticalReference`**: the alerts of the reference, with the distance of two
  alerts in exact integers.
* **`AsReference`**: the engine's alerts of a sensor are those of the reference.
* **`asReference_iff`**: when they are, for any registrations and calls: the engine computes
  distances in 64 bits, and each distance that the reference needs must come out right there. -/

namespace Ironpulse.Analytics

open Core (TimePoint Seconds Limits seconds_to_nanoseconds toInt_mul_of_fits toInt_sub_of_fits)

variable {D F : Type} [Floating F] [AnomalyDetector D F]

/-! ## (1) The detectors run alone -/

/-- A detector after it has seen some readings. -/
def standalone (before : List (Observation F)) (d : D) : D :=
  before.foldl (fun d o => (AnomalyDetector.observe d o.value).2) d

/-- A reading, and what each detector says of it. -/
structure Ballot (D F : Type) where
  reading : Observation F
  results : List (AnomalyResult F × D)

/-- What the detectors, each run alone over the readings `before`, say of the next reading. -/
def ballot (strategies : List D) (before : List (Observation F)) (o : Observation F) :
    Ballot D F where
  reading := o
  results := observe_all (strategies.map (standalone before)) o.value

/-- The ballots on a sequence of readings, after the readings `before`. -/
def ballots (strategies : List D) : List (Observation F) → List (Observation F) → List (Ballot D F)
  | _, [] => []
  | before, o :: os => ballot strategies before o :: ballots strategies (before ++ [o]) os

namespace Ballot

/-- The time of the reading that was voted on. -/
def time (b : Ballot D F) : TimePoint := b.reading.timestamp

/-- The names of the detectors that flag the reading. -/
def names (b : Ballot D F) : List String :=
  (b.results.filter fun p => p.1.is_anomaly).map fun p => AnomalyDetector.name F p.2

end Ballot

/-- The alert for a reading that the quorum flags. -/
def statistical_alert (b : Ballot D F) : AnomalyEvent F :=
  let votes := b.results.map Prod.fst
  { sensor_id := b.reading.sensor_id
    detector_name := join b.names
    message := "anomaly confirmed by " ++ toString b.names.length ++ "/" ++ toString votes.length ++
      " detector(s)"
    score := votes.foldl (fun score v => max score v.score) Floating.zero
    confidence := votes.foldl (fun score v => max score v.confidence) Floating.zero
    timestamp := b.time
    votes := b.names.length
    detectors_total := votes.length
    kind := .statistical
    severity := .warning
    value := b.reading.value }

/-! ## (2) The reference -/

/-- The arguments of `register_sensor`. -/
structure Registration (D F : Type) where
  sensor_id : String
  strategies : List D
  options : SensorRuleOptions F

namespace Registration

variable (r : Registration D F)

/-- No votes required means all of them. -/
def quorum : Nat :=
  if r.options.votes_required = 0 then r.strategies.length else r.options.votes_required

/-- The quorum flags the reading; without detectors nothing is flagged. -/
def carried (b : Ballot D F) : Bool := !r.strategies.isEmpty && r.quorum ≤ b.names.length

/-- The distance of two alerts in exact integers. -/
def later_by (last : Option TimePoint) (now : TimePoint) : Bool :=
  LaterBy r.options.cooldown last now

/-- The distance of two alerts as the engine computes it. -/
def cooled (last : Option TimePoint) (now : TimePoint) : Bool :=
  cooled_down last r.options.cooldown now

/-- The readings that enter a side of the limits from another one. -/
def entering (rs : List (Observation F)) : List (Observation F) :=
  (limitTrigger r.options.limits r.options.cooldown).entries .inside rs

/-- The readings that the quorum flags. -/
def flagged (rs : List (Observation F)) : List (Ballot D F) :=
  (ballots r.strategies [] rs).filter r.carried

/-- **The limit alerts that a sensor should raise**: one for each entry into the outside of the
range that the cooldown lets through. -/
def limitReference (rs : List (Observation F)) : List (AnomalyEvent F) :=
  (EdgeTrigger.thin Observation.timestamp r.later_by none (r.entering rs)).map
    (limit_alert r.options.limits)

/-- **The statistical alerts that a sensor should raise**: one for each ballot with enough votes
that the cooldown lets through. -/
def statisticalReference (rs : List (Observation F)) : List (AnomalyEvent F) :=
  (EdgeTrigger.thin Ballot.time r.later_by none (r.flagged rs)).map statistical_alert

end Registration

/-- The statistical alerts of one sensor. -/
def statisticalAlerts (sensor_id : String) (alerts : List (AnomalyEvent F)) :
    List (AnomalyEvent F) :=
  alerts.filter fun a => a.sensor_id = sensor_id ∧ a.kind = .statistical

/-- No two of the alerts are closer than the cooldown. -/
def ApartBy (cooldown : Seconds) (alerts : List (AnomalyEvent F)) : Prop :=
  alerts.Pairwise fun a b => cooldown.toInt * 10 ^ 9 ≤ |b.timestamp.toInt - a.timestamp.toInt|

/-- **The engine's alerts of a registered sensor are those of the reference** on the sensor's own
readings. Its detectors have seen just these; an excursion raises at most one limit alert, and two
alerts of one kind are never closer than the cooldown. -/
structure AsReference (engine : RuleEngine D F) (r : Registration D F)
    (calls : List (Observation F)) : Prop where
  limit : limitAlerts r.sensor_id (feed engine calls).1 =
    r.limitReference (readings r.sensor_id calls)
  statistical : statisticalAlerts r.sensor_id (feed engine calls).1 =
    r.statisticalReference (readings r.sensor_id calls)
  detectors : ∃ rule, (feed engine calls).2.rules r.sensor_id = some rule ∧
    rule.strategies = r.strategies.map (standalone (readings r.sensor_id calls))
  once : ∀ before excursion after side, calls = before ++ excursion ++ after →
    IsExcursion r.options.limits (readings r.sensor_id before) (readings r.sensor_id excursion)
      side →
    (limitAlerts r.sensor_id (feed (feed engine before).2 excursion).1).length ≤ 1
  limit_apart : ApartBy r.options.cooldown (limitAlerts r.sensor_id (feed engine calls).1)
  statistical_apart :
    ApartBy r.options.cooldown (statisticalAlerts r.sensor_id (feed engine calls).1)

/-- Every distance that the reference asks for comes out right in 64 bits. -/
structure ComparesExactly (r : Registration D F) (rs : List (Observation F)) : Prop where
  limit : ∀ c ∈ EdgeTrigger.compared Observation.timestamp r.later_by none (r.entering rs),
    r.cooled c.1 c.2 = r.later_by c.1 c.2
  statistical : ∀ c ∈ EdgeTrigger.compared Ballot.time r.later_by none (r.flagged rs),
    r.cooled c.1 c.2 = r.later_by c.1 c.2

/-! ## (3) The vote over a sensor's readings -/

/-- The detectors have seen the readings `before`, and the last statistical alert was at `last`. -/
def Follows (engine : RuleEngine D F) (r : Registration D F) (before : List (Observation F))
    (last : Option TimePoint) : Prop :=
  ∃ rule, engine.rules r.sensor_id = some rule ∧
    rule.strategies = r.strategies.map (standalone before) ∧ rule.votes_required = r.quorum ∧
    rule.cooldown = r.options.cooldown ∧ rule.last_statistical_alert = last

variable {engine : RuleEngine D F} {r : Registration D F} {before : List (Observation F)}
  {last : Option TimePoint}

omit [Floating F] in
/-- A fresh rule follows the reference from the empty history. -/
theorem follows_new_rule (h : engine.rules r.sensor_id = some (new_rule r.strategies r.options)) :
    Follows engine r [] none :=
  ⟨_, h, (List.map_id _).symm, rfl, rfl, rfl⟩

omit [Floating F] in
/-- A further reading takes every detector one step further. -/
theorem map_snd_results (strategies : List D) (o : Observation F) :
    (ballot strategies before o).results.map Prod.snd =
      strategies.map (standalone (before ++ [o])) := by
  rw [ballot, observe_all, List.map_map, List.map_map]
  refine List.map_congr_left fun d _ => ?_
  rw [standalone, List.foldl_append]
  rfl

/-- **The vote raises an alert exactly when the quorum flags the reading and the cooldown is over.**
-/
theorem run_detectors_eq {rule : SensorRule D F} {o : Observation F}
    (hstrategies : rule.strategies = r.strategies.map (standalone before))
    (hquorum : rule.votes_required = r.quorum) (hcooldown : rule.cooldown = r.options.cooldown) :
    run_detectors o.sensor_id rule o.value o.timestamp =
      (if r.carried (ballot r.strategies before o) ∧ r.cooled rule.last_statistical_alert o.timestamp
        then some (statistical_alert (ballot r.strategies before o)) else none,
      { rule with
        strategies := r.strategies.map (standalone (before ++ [o]))
        last_statistical_alert :=
          if r.carried (ballot r.strategies before o) ∧
              r.cooled rule.last_statistical_alert o.timestamp then some o.timestamp
          else rule.last_statistical_alert }) := by
  have hresults : observe_all rule.strategies o.value = (ballot r.strategies before o).results := by
    rw [hstrategies]
    rfl
  unfold run_detectors
  by_cases hempty : r.strategies = []
  · -- no detectors: no state and no vote
    have hnone : rule.strategies = [] := by rw [hstrategies, hempty, List.map_nil]
    have hcarried : ¬ r.carried (ballot r.strategies before o) := by
      simp [Registration.carried, hempty]
    rw [if_pos (by rw [hnone, List.isEmpty_nil]), if_neg fun h => hcarried h.1,
      if_neg fun h => hcarried h.1, hempty, List.map_nil, ← hnone]
  · -- the source refuses where the reference accepts: too few votes, or too early
    have hsome : ¬ rule.strategies.isEmpty := by
      rw [hstrategies, List.isEmpty_map, List.isEmpty_iff]
      exact hempty
    have hcarried : r.carried (ballot r.strategies before o) ↔
        ¬ (ballot r.strategies before o).names.length < rule.votes_required := by
      simp [Registration.carried, hempty, hquorum]
    rw [if_neg hsome]
    dsimp only
    rw [hresults, map_snd_results, hcooldown]
    by_cases hraised : r.carried (ballot r.strategies before o) ∧
        r.cooled rule.last_statistical_alert o.timestamp
    · rw [if_pos hraised, if_pos hraised, if_neg]
      · rfl
      · rintro (hfew | hearly)
        · exact hcarried.mp hraised.1 hfew
        · exact hearly hraised.2
    · rw [if_neg hraised, if_neg hraised, if_pos]
      exact (not_and_or.mp hraised).imp_left fun h => not_not.mp (mt hcarried.mpr h)

omit [AnomalyDetector D F] in
/-- The limit check leaves the vote alone and raises no statistical alert. -/
theorem check_limits_frame (rule : SensorRule D F) (o : Observation F) :
    (∀ a ∈ (check_limits o.sensor_id rule o.value o.timestamp).1, a.kind = .limit) ∧
      (check_limits o.sensor_id rule o.value o.timestamp).2.strategies = rule.strategies ∧
      (check_limits o.sensor_id rule o.value o.timestamp).2.votes_required = rule.votes_required ∧
      (check_limits o.sensor_id rule o.value o.timestamp).2.cooldown = rule.cooldown ∧
      (check_limits o.sensor_id rule o.value o.timestamp).2.last_statistical_alert =
        rule.last_statistical_alert := by
  rw [check_limits_eq]
  refine ⟨?_, rfl, rfl, rfl, rfl⟩
  intro a ha
  obtain ⟨-, halert⟩ := Option.ite_none_right_eq_some.mp ha
  rw [← Option.some.inj halert]
  rfl

omit [Floating F] [AnomalyDetector D F] in
/-- The statistical alerts of one sensor are collected call by call. -/
theorem statisticalAlerts_append (sensor_id : String) (as bs : List (AnomalyEvent F)) :
    statisticalAlerts sensor_id (as ++ bs) =
      statisticalAlerts sensor_id as ++ statisticalAlerts sensor_id bs :=
  List.filter_append ..

omit [Floating F] [AnomalyDetector D F] in
/-- Alerts of other sensors or of another kind are not among a sensor's statistical alerts. -/
theorem statisticalAlerts_eq_nil {sensor_id : String} {as : List (AnomalyEvent F)}
    (h : ∀ a ∈ as, a.sensor_id ≠ sensor_id ∨ a.kind ≠ .statistical) :
    statisticalAlerts sensor_id as = [] := by
  refine List.filter_eq_nil_iff.mpr fun a ha => ?_
  rw [decide_eq_true_iff, not_and_or]
  exact h a ha

/-- **A reading of the sensor is put to the vote**, which remembers its own last alert. -/
theorem observe_vote {o : Observation F} (hid : o.sensor_id = r.sensor_id)
    (h : Follows engine r before last) :
    statisticalAlerts r.sensor_id (observe engine o).1 =
        (if r.carried (ballot r.strategies before o) ∧ r.cooled last o.timestamp then
          [statistical_alert (ballot r.strategies before o)] else []) ∧
      Follows (observe engine o).2 r (before ++ [o])
        (if r.carried (ballot r.strategies before o) ∧ r.cooled last o.timestamp then
          some o.timestamp else last) := by
  obtain ⟨rule, hrule, hstrategies, hquorum, hcooldown, rfl⟩ := h
  -- the limit check comes first and hands on everything that the vote reads
  obtain ⟨hlimit, hframe⟩ := check_limits_frame rule o
  set checked := check_limits o.sensor_id rule o.value o.timestamp with hchecked
  have hvote := run_detectors_eq (o := o) (hframe.1.trans hstrategies)
    (hframe.2.1.trans hquorum) (hframe.2.2.1.trans hcooldown)
  rw [hframe.2.2.2] at hvote
  have hrule' : engine.rules o.sensor_id = some rule := hid ▸ hrule
  have hobserve : observe engine o = (checked.1.toList ++
      (run_detectors o.sensor_id checked.2 o.value o.timestamp).1.toList,
      { rules := Function.update engine.rules o.sensor_id
          (some (run_detectors o.sensor_id checked.2 o.value o.timestamp).2) }) := by
    simp only [observe, hrule', ← hchecked]
  have hself : (observe engine o).2.rules r.sensor_id =
      some (run_detectors o.sensor_id checked.2 o.value o.timestamp).2 := by
    rw [hobserve, ← hid]
    exact Function.update_self ..
  rw [hvote] at hself
  refine ⟨?_, _, hself, rfl, hframe.2.1.trans hquorum, hframe.2.2.1.trans hcooldown, rfl⟩
  · rw [hobserve, hvote, ← hid]
    have hnone : statisticalAlerts o.sensor_id checked.1.toList = [] :=
      statisticalAlerts_eq_nil fun a ha => .inr (by rw [hlimit a (Option.mem_toList.mp ha)]; decide)
    rw [statisticalAlerts_append, hnone, List.nil_append]
    split
    · exact List.filter_cons_of_pos (by simp [statistical_alert, ballot])
    · rfl

/-- **The statistical alerts of a sensor are its flagged readings, thinned by the cooldown**, whatever
the other sensors and the limit check do in between. -/
theorem statisticalAlerts_feed (os : List (Observation F)) (h : Follows engine r before last) :
    statisticalAlerts r.sensor_id (feed engine os).1 =
        (EdgeTrigger.thin Ballot.time r.cooled last
          ((ballots r.strategies before (readings r.sensor_id os)).filter r.carried)).map
          statistical_alert ∧
      ∃ last', Follows (feed engine os).2 r (before ++ readings r.sensor_id os) last' := by
  induction os generalizing engine before last with
  | nil =>
      refine ⟨rfl, last, ?_⟩
      rwa [feed, readings, List.filter_nil, List.append_nil]
  | cons o os ih =>
      rw [feed, statisticalAlerts_append]
      by_cases hid : o.sensor_id = r.sensor_id
      · -- the reading is one more that the detectors have seen
        obtain ⟨hfirst, hfollows⟩ := observe_vote hid h
        obtain ⟨hrest, last', hafter⟩ := ih hfollows
        have hreadings : readings r.sensor_id (o :: os) = o :: readings r.sensor_id os :=
          List.filter_cons_of_pos (decide_eq_true hid)
        rw [hreadings, hfirst, hrest, ballots]
        refine ⟨?_, last', by rwa [List.append_assoc] at hafter⟩
        by_cases hcarried : r.carried (ballot r.strategies before o)
        · rw [List.filter_cons_of_pos hcarried, EdgeTrigger.thin]
          by_cases hcooled : r.cooled last o.timestamp
          · rw [if_pos ⟨hcarried, hcooled⟩, if_pos ⟨hcarried, hcooled⟩, if_pos (by exact hcooled)]
            rfl
          · rw [if_neg fun h => hcooled h.2, if_neg fun h => hcooled h.2,
              if_neg (by exact hcooled)]
            rfl
        · rw [List.filter_cons_of_neg hcarried, if_neg fun h => hcarried h.1,
            if_neg fun h => hcarried h.1]
          rfl
      · -- another sensor's reading neither raises an alert of this one nor changes its rule
        have hfirst : statisticalAlerts r.sensor_id (observe engine o).1 = [] :=
          statisticalAlerts_eq_nil fun a ha => .inl (by rwa [sensor_id_of_observe ha])
        have hfollows : Follows (observe engine o).2 r before last := by
          rwa [Follows, rules_observe_of_ne hid]
        have hreadings : readings r.sensor_id (o :: os) = readings r.sensor_id os :=
          List.filter_cons_of_neg (by simpa using hid)
        rw [hreadings, hfirst, List.nil_append]
        exact ih hfollows

/-! ## (4) Distances -/

omit [Floating F] [AnomalyDetector D F] in
/-- A distance comes out right where neither the conversion nor the subtraction wraps. -/
theorem cooled_eq_later_by {now : TimePoint}
    (hcooldown : -2 ^ 63 ≤ r.options.cooldown.toInt * 10 ^ 9 ∧
      r.options.cooldown.toInt * 10 ^ 9 < 2 ^ 63)
    (hlast : ∀ t ∈ last, -2 ^ 63 ≤ now.toInt - t.toInt ∧ now.toInt - t.toInt < 2 ^ 63) :
    r.cooled last now = r.later_by last now := by
  -- in this range neither the conversion to nanoseconds nor the difference of times wraps
  have hfactor : (1000000000 : Int64).toInt = 10 ^ 9 := by decide
  have hns : (seconds_to_nanoseconds r.options.cooldown).toInt =
      r.options.cooldown.toInt * 10 ^ 9 := by
    rw [seconds_to_nanoseconds, toInt_mul_of_fits, hfactor]
    · rw [hfactor]
      exact hcooldown.1
    · rw [hfactor]
      exact hcooldown.2
  cases last with
  | none =>
      have hlater : LaterBy r.options.cooldown none now :=
        fun t ht => absurd ht (Option.not_mem_none t)
      exact (decide_eq_true hlater).symm
  | some t =>
      obtain ⟨hlo, hhi⟩ := hlast t rfl
      refine decide_eq_decide.mpr ?_
      rw [Int64.le_iff_toInt_le, hns, toInt_sub_of_fits hlo hhi]
      constructor
      · rintro h t' ⟨⟩
        exact h
      · intro h
        exact h t rfl

omit [Floating F] [AnomalyDetector D F] in
/-- Alerts that are thinned by exact distances are apart, also those that are not neighbours. -/
theorem apartBy_thin {α : Type} {time : α → TimePoint} {alert : α → AnomalyEvent F}
    (htime : ∀ x, (alert x).timestamp = time x) (xs : List α) :
    ApartBy r.options.cooldown ((EdgeTrigger.thin time r.later_by none xs).map alert) := by
  have hpairwise : ((EdgeTrigger.thin time r.later_by none xs).map time).Pairwise fun s t =>
      r.options.cooldown.toInt * 10 ^ 9 ≤ |t.toInt - s.toInt| := by
    by_cases hcooldown : 0 ≤ r.options.cooldown.toInt
    · -- a cooldown that is not negative adds up along the alerts
      have hsum := (@EdgeTrigger.pairwise_thin _ _ time r.later_by none xs
        (fun s t => r.options.cooldown.toInt * 10 ^ 9 ≤ t.toInt - s.toInt)
        (fun hst htu => by omega) (fun h => of_decide_eq_true h _ rfl)).2
      exact hsum.imp fun h => h.trans (le_abs_self _)
    · -- a negative one asks for nothing
      refine List.pairwise_of_forall fun s t => ?_
      have habs := abs_nonneg (t.toInt - s.toInt)
      omega
  rw [ApartBy, List.pairwise_map]
  rw [List.pairwise_map] at hpairwise
  exact hpairwise.imp fun h => by rwa [htime, htime]

/-! ## (5) When the alerts are those of the reference -/

/-- **The limit alerts of a whole run** are the thinned entries of the sensor's own readings. -/
theorem limitAlerts_eq (h : engine.rules r.sensor_id = some (new_rule r.strategies r.options))
    (calls : List (Observation F)) :
    limitAlerts r.sensor_id (feed engine calls).1 =
      (EdgeTrigger.thin Observation.timestamp r.cooled none
        (r.entering (readings r.sensor_id calls))).map (limit_alert r.options.limits) := by
  have htracks : Tracks engine r.sensor_id r.options.limits r.options.cooldown ⟨.inside, none⟩ :=
    ⟨_, h, rfl, rfl, rfl⟩
  rw [(limitAlerts_feed calls htracks).1, EdgeTrigger.fired_eq_thin]
  rfl

/-- **A sensor's alerts are those of the reference exactly if the distances come out right.** -/
theorem asReference_iff (h : engine.rules r.sensor_id = some (new_rule r.strategies r.options))
    (calls : List (Observation F)) :
    AsReference engine r calls ↔ ComparesExactly r (readings r.sensor_id calls) := by
  have hlimit := limitAlerts_eq h calls
  obtain ⟨hstatistical, -, rule, hrule, hdetectors, -⟩ :=
    statisticalAlerts_feed calls (follows_new_rule h)
  constructor
  · intro hreference
    -- equal alerts have equal times, and the times of a thinned list determine every comparison
    constructor
    · have htimes := congrArg (List.map AnomalyEvent.timestamp) (hlimit.symm.trans hreference.limit)
      rw [Registration.limitReference, List.map_map, List.map_map] at htimes
      exact EdgeTrigger.map_time_thin_eq_iff.mp htimes
    · have htimes := congrArg (List.map AnomalyEvent.timestamp)
        (hstatistical.symm.trans hreference.statistical)
      rw [Registration.statisticalReference, List.map_map, List.map_map] at htimes
      exact EdgeTrigger.map_time_thin_eq_iff.mp htimes
  · rintro ⟨hexact_limit, hexact_statistical⟩
    have hlimit' : limitAlerts r.sensor_id (feed engine calls).1 =
        r.limitReference (readings r.sensor_id calls) := by
      rw [hlimit, EdgeTrigger.thin_congr hexact_limit]
      rfl
    have hstatistical' : statisticalAlerts r.sensor_id (feed engine calls).1 =
        r.statisticalReference (readings r.sensor_id calls) := by
      rw [hstatistical, Registration.statisticalReference,
        ← EdgeTrigger.thin_congr hexact_statistical]
      rfl
    refine ⟨hlimit', hstatistical', ⟨rule, hrule, hdetectors⟩, ?_, ?_, ?_⟩
    · -- inside an excursion only its first reading can enter the side
      rintro before excursion after side rfl hexcursion
      have htracks : Tracks engine r.sensor_id r.options.limits r.options.cooldown
          ⟨.inside, none⟩ := ⟨_, h, rfl, rfl, rfl⟩
      rw [(limitAlerts_feed excursion (limitAlerts_feed before htracks).2).1, List.length_map]
      cases hreadings : readings r.sensor_id excursion with
      | nil => exact absurd hreadings hexcursion.nonempty
      | cons first rest =>
          rw [hreadings] at hexcursion
          rw [fired_of_isExcursion hexcursion]
          split
          · exact Nat.le_refl 1
          · exact Nat.zero_le 1
    · rw [hlimit']
      exact apartBy_thin (fun _ => rfl) _
    · rw [hstatistical']
      exact apartBy_thin (fun _ => rfl) _

/-! ## (6) Any registrations -/

/-- The engine after some registrations. -/
def register_all (regs : List (Registration D F)) : RuleEngine D F :=
  regs.foldl (fun engine r => register_sensor engine r.sensor_id r.strategies r.options) {}

/-- The registration of a sensor that counts: its last one. -/
def registered (regs : List (Registration D F)) (sensor_id : String) :
    Option (Registration D F) :=
  regs.reverse.find? fun r => r.sensor_id = sensor_id

/-- **The alerts that are published for a sensor are those of the reference**; for one that is not
registered there are none. -/
def MatchesReference (regs : List (Registration D F)) (sensor_id : String)
    (calls : List (Observation F)) : Prop :=
  match registered regs sensor_id with
  | none => ∀ a ∈ (feed (register_all regs) calls).1, a.sensor_id ≠ sensor_id
  | some r => AsReference (register_all regs) r calls

omit [Floating F] [AnomalyDetector D F] in
/-- The rules that the registrations leave. -/
theorem rules_register_all (regs : List (Registration D F)) (sensor_id : String) :
    (register_all regs).rules sensor_id =
      (registered regs sensor_id).map fun r => new_rule r.strategies r.options := by
  -- the last registration is the first that the search finds
  induction regs using List.reverseRecOn with
  | nil => rfl
  | append_singleton regs r ih =>
      rw [register_all, List.foldl_append, List.foldl_cons, List.foldl_nil, ← register_all,
        register_sensor, registered, List.reverse_append, List.reverse_singleton,
        List.singleton_append, List.find?_cons]
      by_cases hid : r.sensor_id = sensor_id
      · rw [decide_eq_true hid, hid]
        exact Function.update_self ..
      · rw [decide_eq_false hid]
        exact (Function.update_of_ne (Ne.symm hid) ..).trans ih

/-- A sensor that is not registered has no alerts. -/
theorem sensor_id_ne_of_feed {sensor_id : String} (h : engine.rules sensor_id = none)
    (calls : List (Observation F)) : ∀ a ∈ (feed engine calls).1, a.sensor_id ≠ sensor_id := by
  induction calls generalizing engine with
  | nil => exact fun a ha => absurd ha List.not_mem_nil
  | cons o os ih =>
      intro a ha
      by_cases hid : o.sensor_id = sensor_id
      · have hobserve : observe engine o = ([], engine) := by
          rw [observe, hid, h]
        rw [feed, hobserve] at ha
        exact ih h a ha
      · rcases List.mem_append.mp ha with ha | ha
        · rwa [sensor_id_of_observe ha]
        · exact ih ((rules_observe_of_ne hid).trans h) a ha

/-- **The engine equals the reference of each sensor.** For every list of registrations, every sensor
and every sequence of calls, interleaved over any sensors, the alerts published for the sensor are
exactly those of the reference on its own readings, if and only if every distance that the reference
asks for comes out right in 64 bits. -/
theorem matchesReference_iff (regs : List (Registration D F)) (sensor_id : String)
    (calls : List (Observation F)) :
    MatchesReference regs sensor_id calls ↔
      ∀ r ∈ registered regs sensor_id, ComparesExactly r (readings sensor_id calls) := by
  have hrules := rules_register_all regs sensor_id
  unfold MatchesReference
  cases hregistered : registered regs sensor_id with
  | none =>
      rw [hregistered] at hrules
      constructor
      · intro _ r hr
        cases hr
      · intro _
        exact sensor_id_ne_of_feed hrules calls
  | some r =>
      -- the registration that was found is one of this sensor
      have hfound := List.find?_some hregistered
      obtain rfl : r.sensor_id = sensor_id := of_decide_eq_true hfound
      rw [hregistered] at hrules
      constructor
      · rintro hreference r' ⟨⟩
        exact (asReference_iff hrules calls).mp hreference
      · intro hexact
        exact (asReference_iff hrules calls).mpr (hexact r rfl)

/-! ## (7) Cooldowns and clocks in use -/

omit [Floating F] in
/-- There is one ballot for each reading, in the order of the readings. -/
theorem map_reading_ballots (strategies : List D) (before os : List (Observation F)) :
    (ballots strategies before os).map Ballot.reading = os := by
  induction os generalizing before with
  | nil => rfl
  | cons o os ih => rw [ballots, List.map_cons, ih, ballot]

omit [AnomalyDetector D F] in
/-- An entry into the outside of the range is one of the readings. -/
theorem entering_subset (r : Registration D F) (rs : List (Observation F)) :
    r.entering rs ⊆ rs := by
  have hentries : ∀ level, (limitTrigger r.options.limits r.options.cooldown).entries level rs ⊆
      rs := by
    intro level
    induction rs generalizing level with
    | nil => exact List.Subset.refl _
    | cons o os ih =>
        rw [EdgeTrigger.entries]
        split
        · exact List.cons_subset_cons _ (ih _)
        · exact List.subset_cons_of_subset _ (ih _)
  exact hentries _

/-- **No distance wraps for a cooldown of up to 292 years and readings from 1970 on.** -/
theorem comparesExactly_of_since_epoch {rs : List (Observation F)}
    (hcooldown : -2 ^ 63 ≤ r.options.cooldown.toInt * 10 ^ 9 ∧
      r.options.cooldown.toInt * 10 ^ 9 < 2 ^ 63)
    (hrs : ∀ o ∈ rs, 0 ≤ o.timestamp.toInt) : ComparesExactly r rs := by
  have hexact : ∀ (last : Option TimePoint) (now : TimePoint),
      (∀ t ∈ last, 0 ≤ t.toInt) → 0 ≤ now.toInt → r.cooled last now = r.later_by last now := by
    intro last now hlast hnow
    -- the difference of two times from 1970 on fits
    refine cooled_eq_later_by hcooldown fun t ht => ?_
    have ht' := hlast t ht
    have hlt := Int64.toInt_lt t
    have hlt' := Int64.toInt_lt now
    omega
  constructor
  · intro c hc
    obtain ⟨hlast, hnow⟩ := EdgeTrigger.mem_compared hc
    have htime : ∀ t ∈ (r.entering rs).map Observation.timestamp, 0 ≤ t.toInt := by
      intro t ht
      obtain ⟨o, ho, rfl⟩ := List.mem_map.mp ht
      exact hrs o (entering_subset r rs ho)
    exact hexact c.1 c.2 (fun t ht => htime t ((hlast t ht).resolve_left (Option.not_mem_none t)))
      (htime c.2 hnow)
  · intro c hc
    obtain ⟨hlast, hnow⟩ := EdgeTrigger.mem_compared hc
    have htime : ∀ t ∈ (r.flagged rs).map Ballot.time, 0 ≤ t.toInt := by
      intro t ht
      obtain ⟨b, hb, rfl⟩ := List.mem_map.mp ht
      have hreading := List.mem_map_of_mem (f := Ballot.reading) (List.mem_of_mem_filter hb)
      rw [map_reading_ballots] at hreading
      exact hrs _ hreading
    exact hexact c.1 c.2 (fun t ht => htime t ((hlast t ht).resolve_left (Option.not_mem_none t)))
      (htime c.2 hnow)

/-! ## (8) A cooldown that wraps -/

/-- A limit of 90 and a cooldown of 292 years and a bit more. -/
def longCooldown : Registration Empty Rat where
  sensor_id := "s"
  strategies := []
  options := { cooldown := 9223372037, limits := { high := some 90 } }

/-- The value leaves the range twice within two seconds. -/
def twoExcursions : List (Observation Rat) :=
  [reading_at 91 0, reading_at 89 1, reading_at 91 2]

/-- **A cooldown of 9223372037 seconds holds nothing back**: in nanoseconds it wraps to a negative
number, and both excursions raise an alert. -/
theorem not_matchesReference_wrapped :
    ¬ ∀ (regs : List (Registration Empty Rat)) (sensor_id : String)
        (calls : List (Observation Rat)), MatchesReference regs sensor_id calls := by
  intro h
  have hreference : AsReference (register_all [longCooldown]) longCooldown twoExcursions :=
    h [longCooldown] "s" twoExcursions
  have hlength := congrArg List.length hreference.limit
  revert hlength
  decide

end Ironpulse.Analytics
