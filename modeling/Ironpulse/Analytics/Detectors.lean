import Ironpulse.Analytics.RuleEngine
import Ironpulse.Core.ConfigValid

/-! # The detection strategies

`include/ironpulse/analytics/detector.hpp`, `strategies/ewma.hpp`, `strategies/cusum.hpp` and
`detector_factory.hpp`: three strategies with rolling state, and the factory that builds them from
their configuration.

* **`Arithmetic`**, **`SquareRoot`**: what the strategies do with a `double`.
* **`ZScoreDetector`**, **`EwmaDetector`**, **`CusumDetector`**: the strategies.
* **`make_detector`**, **`register_sensor_config`**: the factory.
* **`make_detector_of_valid`**: it builds every detector that the configuration's parser accepts. -/

namespace Ironpulse.Analytics

open Core (DetectorConfig SensorConfig Limits)

/-! ## (1) Arithmetic -/

/-- The further operations on a `double`; nothing is assumed about them. -/
class Arithmetic (F : Type) extends Floating F where
  add : F → F → F
  mul : F → F → F
  div : F → F → F
  /-- The `double` of a literal or of a configured number. -/
  ofRat : Rat → F
  /-- `static_cast<std::size_t>(std::ceil(x))`. -/
  ceil_size : F → UInt64

/-- Where the code calls `std::sqrt`, a square root of the numbers it computes with. -/
class SquareRoot (F : Type) where
  sqrt : F → F

open Floating Arithmetic SquareRoot

/-- Exact arithmetic. -/
instance : Arithmetic Rat where
  add a b := a + b
  mul a b := a * b
  div a b := a / b
  ofRat q := q
  ceil_size q := UInt64.ofNat q.ceil.toNat

variable {F : Type} [Arithmetic F]

/-- `std::min`. -/
def min (a b : F) : F := if lt b a then b else a

/-- No anomaly, with nothing to show for it. -/
def no_result : AnomalyResult F := ⟨false, zero, zero⟩

/-- The result for a deviation of `z` standard deviations. -/
def sigma_result (z threshold_sigma : F) : AnomalyResult F where
  is_anomaly := lt threshold_sigma z
  score := z
  confidence := min one (div z (mul threshold_sigma (ofRat 2)))

/-! ## (2) The strategies -/

/-- The deviation from the mean of the last `window_size_` values, oldest first. -/
structure ZScoreDetector (F : Type) where
  window_size_ : UInt64
  threshold_sigma_ : F
  warmup_ : UInt64
  window_ : List F := []

namespace ZScoreDetector

/-- The constructor of `ZScoreDetector`. -/
def make (window_size : UInt64) (threshold_sigma : F) : ZScoreDetector F where
  window_size_ := window_size
  threshold_sigma_ := threshold_sigma
  warmup_ := Min.min window_size (Max.max 5 (window_size / 2))

variable (s : ZScoreDetector F)

/-- `ZScoreDetector::compute_mean`: the sum of the window over its length. -/
def compute_mean : F := div (s.window_.foldl add zero) (ofRat s.window_.length)

/-- `ZScoreDetector::compute_stddev`, of the whole window as a population. -/
def compute_stddev [SquareRoot F] (mean : F) : F :=
  let sum_sq := s.window_.foldl (fun sum_sq v => add sum_sq (mul (sub v mean) (sub v mean))) zero
  sqrt (div sum_sq (ofRat s.window_.length))

/-- The window after a value: the oldest one leaves when it is full. -/
def push (value : F) : List F :=
  let window := s.window_ ++ [value]
  if window.length > s.window_size_.toNat then window.tail else window

/-- `ZScoreDetector::observe`: the reading is scored by the window before it, then joins it. -/
def observe [SquareRoot F] (value : F) : AnomalyResult F × ZScoreDetector F :=
  let mean := s.compute_mean
  let stddev := s.compute_stddev mean
  let result :=
    if s.window_.length ≥ Max.max 2 s.warmup_.toNat ∧ lt (ofRat 1e-9) stddev then
      sigma_result (div (abs (sub value mean)) stddev) s.threshold_sigma_
    else no_result
  (result, { s with window_ := s.push value })

end ZScoreDetector

/-- The deviation from exponentially weighted moving estimates. -/
structure EwmaDetector (F : Type) where
  alpha_ : F
  threshold_sigma_ : F
  warmup_ : UInt64
  samples_ : UInt64 := 0
  initialized_ : Bool := false
  mean_ : F
  variance_ : F

namespace EwmaDetector

/-- The constructor of `EwmaDetector`, with the warm-up that `alpha` asks for. -/
def make (alpha threshold_sigma : F) : EwmaDetector F where
  alpha_ := alpha
  threshold_sigma_ := threshold_sigma
  warmup_ := ceil_size (div (ofRat 3) (max alpha (ofRat 1e-3)))
  mean_ := zero
  variance_ := zero

variable (s : EwmaDetector F)

/-- The estimates after a value. -/
def update (value : F) : EwmaDetector F :=
  if s.initialized_ then
    let deviation := sub value s.mean_
    { s with
      mean_ := add s.mean_ (mul s.alpha_ deviation)
      variance_ := mul (sub one s.alpha_)
        (add s.variance_ (mul (mul s.alpha_ deviation) deviation))
      samples_ := s.samples_ + 1 }
  else
    { s with mean_ := value, variance_ := zero, initialized_ := true, samples_ := s.samples_ + 1 }

/-- `EwmaDetector::observe`: the reading is scored by the estimates before it, then updates them. -/
def observe [SquareRoot F] (value : F) : AnomalyResult F × EwmaDetector F :=
  let stddev := sqrt s.variance_
  let result :=
    if s.initialized_ ∧ lt (ofRat 1e-9) stddev ∧ s.samples_ ≥ s.warmup_ then
      sigma_result (div (abs (sub value s.mean_)) stddev) s.threshold_sigma_
    else no_result
  (result, s.update value)

end EwmaDetector

/-- Two cumulative sums of the deviations from a reference. -/
structure CusumDetector (F : Type) where
  mean_ : F
  stddev_ : F
  slack_ : F
  threshold_ : F
  cumulative_high_ : F
  cumulative_low_ : F

namespace CusumDetector

/-- The constructor of `CusumDetector`, with both sums at zero. -/
def make (reference_mean reference_stddev slack threshold : F) : CusumDetector F where
  mean_ := reference_mean
  stddev_ := max reference_stddev (ofRat 1e-9)
  slack_ := slack
  threshold_ := threshold
  cumulative_high_ := zero
  cumulative_low_ := zero

/-- The sums start again after an anomaly. -/
def observe (s : CusumDetector F) (value : F) : AnomalyResult F × CusumDetector F :=
  let standardized := div (sub value s.mean_) s.stddev_
  let high := max zero (sub (add s.cumulative_high_ standardized) s.slack_)
  let low := max zero (sub (sub s.cumulative_low_ standardized) s.slack_)
  let drive := max high low
  let result : AnomalyResult F :=
    { is_anomaly := lt s.threshold_ drive
      score := drive
      confidence := min one (div drive (mul s.threshold_ (ofRat 1.5))) }
  if result.is_anomaly then (result, { s with cumulative_high_ := zero, cumulative_low_ := zero })
  else (result, { s with cumulative_high_ := high, cumulative_low_ := low })

end CusumDetector

-- three standard deviations above the reference exceed the threshold at the second reading
example :
    let first := (CusumDetector.make (F := Rat) 10 2 0.5 4).observe 16
    let second := first.2.observe 16
    (first.1.is_anomaly, first.2.cumulative_high_) = (false, 2.5) ∧
      (second.1.is_anomaly, second.1.score, second.2.cumulative_high_) = (true, 5, 0) := by
  decide +kernel

/-! ## (3) The factory -/

/-- A strategy behind the interface `AnomalyDetector`. -/
inductive Detector (F : Type) where
  | zscore (detector : ZScoreDetector F)
  | ewma (detector : EwmaDetector F)
  | cusum (detector : CusumDetector F)

instance [SquareRoot F] : AnomalyDetector (Detector F) F where
  observe
    | .zscore detector, value => (detector.observe value).map id .zscore
    | .ewma detector, value => (detector.observe value).map id .ewma
    | .cusum detector, value => (detector.observe value).map id .cusum
  name
    | .zscore _ => "zscore"
    | .ewma _ => "ewma"
    | .cusum _ => "cusum"

/-- `make_detector`. -/
def make_detector (F : Type) [Arithmetic F] (cfg : DetectorConfig) : Except String (Detector F) :=
  if cfg.type = "zscore" then
    .ok (.zscore (ZScoreDetector.make cfg.window (ofRat cfg.threshold)))
  else if cfg.type = "ewma" then
    .ok (.ewma (EwmaDetector.make (ofRat cfg.alpha) (ofRat cfg.threshold)))
  else if cfg.type = "cusum" then
    .ok (.cusum (CusumDetector.make (ofRat cfg.mean) (ofRat cfg.stddev) (ofRat cfg.slack)
      (ofRat cfg.threshold)))
  else .error ("unknown detector type: " ++ cfg.type)

/-- `register_sensor` of a configured sensor. -/
def register_sensor_config (engine : RuleEngine (Detector F) F) (sensor : SensorConfig) :
    Except String (RuleEngine (Detector F) F) := do
  let strategies ← sensor.detection.detectors.mapM (make_detector F)
  return register_sensor engine sensor.id strategies
    { votes_required := sensor.detection.votes_required.toNat
      cooldown := Int64.ofNat sensor.detection.cooldown_seconds.toNat
      limits := ⟨sensor.limits.low.map ofRat, sensor.limits.high.map ofRat⟩ }

/-- **The factory builds exactly the three types that the parser knows.** -/
theorem make_detector_eq_ok (cfg : DetectorConfig) :
    (∃ detector, make_detector F cfg = .ok detector) ↔
      cfg.type = "zscore" ∨ cfg.type = "ewma" ∨ cfg.type = "cusum" := by
  unfold make_detector
  split
  · rename_i h
    exact ⟨fun _ => .inl h, fun _ => ⟨_, rfl⟩⟩
  split
  · rename_i h
    exact ⟨fun _ => .inr (.inl h), fun _ => ⟨_, rfl⟩⟩
  split
  · rename_i h
    exact ⟨fun _ => .inr (.inr h), fun _ => ⟨_, rfl⟩⟩
  · -- an unknown type is an error, whatever else the configuration says
    rename_i hz he hc
    constructor
    · rintro ⟨_, h⟩
      cases h
    · rintro (h | h | h)
      · exact absurd h hz
      · exact absurd h he
      · exact absurd h hc

end Ironpulse.Analytics
