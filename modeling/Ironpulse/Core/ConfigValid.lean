import Ironpulse.Core.Config
import Mathlib.Data.List.Nodup

/-! # What loading promises of the devices

Every section of the document is checked while it is parsed, and the identifiers once more across
all devices at the end (`src/core/config.cpp`). A section that may be absent has a default, which
passes the same checks.

* **`DetectorConfig.Valid`**, **`DetectionConfig.Valid`**, **`SensorConfig.Valid`**,
  **`ModbusDeviceConfig.Valid`**: what a parsed section fulfils.
* **`check_ids_eq_ok`**: the duplicate checks succeed exactly if no identifier occurs twice.
* **`devices_valid_of_load`**: what a loaded configuration fulfils. -/

namespace Ironpulse.Core

/-! ## (1) Valid sections -/

/-- The tuning that the detector's type requires. -/
structure DetectorConfig.Valid (d : DetectorConfig) : Prop where
  type : d.type = "zscore" ∨ d.type = "ewma" ∨ d.type = "cusum"
  window : d.type = "zscore" → 2 ≤ d.window.toNat ∧ d.window.toNat ≤ 100000
  alpha : d.type = "ewma" → 0 < d.alpha ∧ d.alpha ≤ 1
  stddev : d.type = "cusum" → 0 < d.stddev ∧ 0 ≤ d.slack
  threshold : 0 < d.threshold

/-- What the code promises of a parsed `DetectionConfig`. -/
structure DetectionConfig.Valid (d : DetectionConfig) : Prop where
  detectors : ∀ detector ∈ d.detectors, detector.Valid
  votes_required : 1 ≤ d.votes_required.toNat ∧
    d.votes_required.toNat ≤ max 1 d.detectors.length
  cooldown_seconds : d.cooldown_seconds.toNat ≤ 86400

/-- Limits that a value can lie between. -/
def Limits.Ordered (limits : Limits Rat) : Prop :=
  ∀ low ∈ limits.low, ∀ high ∈ limits.high, low < high

/-- What the code promises of a parsed `SensorConfig`. -/
structure SensorConfig.Valid (sensor : SensorConfig) : Prop where
  id : is_valid_id sensor.id = true
  in_table : sensor.address.toNat + (register_count sensor.data_type).toNat ≤ 65536
  scale : sensor.scale ≠ 0
  limits : sensor.limits.Ordered
  detection : sensor.detection.Valid

/-- What the code promises of a parsed `ModbusDeviceConfig`. -/
structure ModbusDeviceConfig.Valid (device : ModbusDeviceConfig) : Prop where
  id : is_valid_id device.id = true
  host : device.host.isEmpty = false
  port : 1 ≤ device.port.toNat
  poll_interval_ms : 50 ≤ device.poll_interval_ms.toNat ∧
    device.poll_interval_ms.toNat ≤ 86400000
  timeout_ms : 100 ≤ device.timeout_ms.toNat ∧ device.timeout_ms.toNat ≤ 60000
  sensors_nonempty : device.sensors ≠ []
  sensors : ∀ sensor ∈ device.sensors, sensor.Valid

/-! ## (2) The sections of a device -/

/-- What holds of every parsed element holds of the elements of a parsed array. -/
theorem forall_of_parse_elements {α : Type} {parse_element : Json → String → Except String α}
    {P : α → Prop} (hparse : ∀ {j path a}, parse_element j path = .ok a → P a) {path : String}
    {list : List Json} {as : List α} (h : parse_elements parse_element path list = .ok as) :
    ∀ a ∈ as, P a :=
  forall_of_mapM_eq_ok (fun _ _ => hparse) h

/-- What one element is promised, every element of a parsed array has. -/
theorem forall_of_parse_array {α : Type} {parse_element : Json → String → Except String α}
    {P : α → Prop} (hparse : ∀ {j path a}, parse_element j path = .ok a → P a)
    {path elements_path : String} {j : Json} {as : List α}
    (h : parse_array parse_element path elements_path j = .ok as) : ∀ a ∈ as, P a := by
  unfold parse_array at h
  split at h
  · exact forall_of_parse_elements hparse h
  · cases h

/-- What holds of the default and of a parsed section holds of the section of an object. -/
theorem of_get_section {α : Type} {obj : Json} {key : String} {absent a : α}
    {parse_section : Json → Except String α} {P : α → Prop} (habsent : P absent)
    (hparse : ∀ {j}, parse_section j = .ok a → P a)
    (h : get_section obj key absent parse_section = .ok a) : P a := by
  unfold get_section at h
  split at h
  · cases h
    exact habsent
  · exact hparse h

variable {j : Json} {path : String}

/-- The tuning of a parsed detector, apart from its threshold. -/
theorem tuning_of_parse_tuning {type : String} {d : DetectorConfig}
    (h : parse_tuning j path type = .ok d) :
    d.type = type ∧ (d.type = "zscore" ∨ d.type = "ewma" ∨ d.type = "cusum") ∧
      (d.type = "zscore" → 2 ≤ d.window.toNat ∧ d.window.toNat ≤ 100000) ∧
      (d.type = "ewma" → 0 < d.alpha ∧ d.alpha ≤ 1) ∧
      (d.type = "cusum" → 0 < d.stddev ∧ 0 ≤ d.slack) := by
  have hze : "zscore" ≠ "ewma" := by decide
  have hzc : "zscore" ≠ "cusum" := by decide
  have hec : "ewma" ≠ "cusum" := by decide
  -- one case for each type, whose own numbers are checked and the others left alone
  unfold parse_tuning at h
  split at h
  · rename_i htype
    subst htype
    simp only [parse_zscore, bind_eq_ok] at h
    obtain ⟨window, hwindow, _, -, h⟩ := h
    cases h
    have hrange := get_int_in_range (by decide) (by decide) hwindow
    exact ⟨rfl, .inl rfl, fun _ => hrange, fun h => absurd h hze, fun h => absurd h hzc⟩
  split at h
  · rename_i htype
    subst htype
    simp only [parse_ewma, bind_eq_ok, require_eq_ok] at h
    obtain ⟨alpha, -, _, -, _, halpha, h⟩ := h
    cases h
    rw [not_or, gt_iff_lt, Rat.not_le, Rat.not_lt] at halpha
    exact ⟨rfl, .inr (.inl rfl), fun h => absurd h hze.symm, fun _ => halpha,
      fun h => absurd h hec⟩
  split at h
  · rename_i htype
    subst htype
    simp only [parse_cusum, bind_eq_ok, require_eq_ok] at h
    obtain ⟨_, -, _, -, stddev, -, slack, -, _, -, _, hstddev, _, hslack, h⟩ := h
    cases h
    exact ⟨rfl, .inr (.inr rfl), fun h => absurd h hzc.symm, fun h => absurd h hec.symm,
      fun _ => ⟨Rat.not_le.mp hstddev, Rat.not_lt.mp hslack⟩⟩
  · cases h

/-- A parsed detector is valid. -/
theorem valid_of_parse_detector {d : DetectorConfig} (h : parse_detector j path = .ok d) :
    d.Valid := by
  simp only [parse_detector, bind_eq_ok, require_eq_ok] at h
  obtain ⟨_, -, type, -, tuned, htuned, _, hthreshold, h⟩ := h
  cases h
  obtain ⟨-, htype, hwindow, halpha, hstddev⟩ := tuning_of_parse_tuning htuned
  exact ⟨htype, hwindow, halpha, hstddev, Rat.not_le.mp hthreshold⟩

/-- **The default detection passes the checks of a parsed one.** -/
theorem valid_default_detection : default_detection.Valid where
  detectors := by
    have hwindow : 2 ≤ (60 : UInt64).toNat ∧ (60 : UInt64).toNat ≤ 100000 := by decide
    intro detector hdetector
    obtain rfl | rfl := List.mem_pair.mp hdetector
    · exact ⟨.inl rfl, fun _ => hwindow, fun h => absurd h (by decide),
        fun h => absurd h (by decide), by decide⟩
    · exact ⟨.inr (.inl rfl), fun h => absurd h (by decide), fun _ => by decide +kernel,
        fun h => absurd h (by decide), by decide⟩
  votes_required := by decide
  cooldown_seconds := by decide

/-- A parsed detection section is valid. -/
theorem valid_of_parse_detection {d : DetectionConfig} (h : parse_detection j path = .ok d) :
    d.Valid := by
  simp only [parse_detection, bind_eq_ok] at h
  obtain ⟨_, -, detectors, hdetectors, cooldown, hcooldown, votes, hvotes, h⟩ := h
  cases h
  refine ⟨?_, ?_, (get_int_in_range (by decide) (by decide) hcooldown).2⟩
  · refine of_get_section (P := fun ds : List DetectorConfig => ∀ d ∈ ds, d.Valid)
      valid_default_detection.detectors ?_ hdetectors
    exact forall_of_parse_array valid_of_parse_detector
  · -- a count from `2 ^ 64` on is taken modulo it, which only lowers the bound
    have hmax : (UInt64.ofNat (max 1 detectors.length)).toNat ≤ max 1 detectors.length :=
      UInt64.toNat_ofNat' ▸ Nat.mod_le _ _
    obtain rfl | ⟨hpos, hle⟩ := get_int_eq_ok (by decide) hvotes
    · exact ⟨Nat.le_refl 1, Nat.le_max_left _ _⟩
    · exact ⟨hpos, Nat.le_trans hle hmax⟩

/-- Parsed limits are in order. -/
theorem ordered_of_parse_limits {limits : Limits Rat} (h : parse_limits path j = .ok limits) :
    limits.Ordered := by
  simp only [parse_limits, bind_eq_ok, require_eq_ok] at h
  obtain ⟨_, -, low, -, high, -, _, hordered, h⟩ := h
  cases h
  intro l hl h hh
  exact Rat.not_le.mp (hordered l hl h hh)

/-- A parsed sensor is valid. -/
theorem valid_of_parse_sensor {sensor : SensorConfig} (h : parse_sensor j path = .ok sensor) :
    sensor.Valid := by
  simp only [parse_sensor, bind_eq_ok, require_eq_ok] at h
  obtain ⟨_, -, id, -, _, hid, _, -, _, -, _, -, _, -, _, -, address, -, _, htable, _, -, _, -, _,
    hscale, limits, hlimits, detection, hdetection, h⟩ := h
  cases h
  refine ⟨hid, Nat.le_of_not_lt htable, hscale, ?_, ?_⟩
  · refine of_get_section (P := Limits.Ordered) ?_ ordered_of_parse_limits hlimits
    intro low hlow
    cases hlow
  · exact of_get_section valid_default_detection valid_of_parse_detection hdetection

/-- **The sensor of a device without a sensor list passes the checks of a parsed one.** -/
theorem valid_shorthand {id : String} (hid : is_valid_id id = true) :
    SensorConfig.Valid { id, name := id, detection := default_detection } where
  id := hid
  in_table := show 0 + 1 ≤ 65536 by decide
  scale := show (1 : Rat) ≠ 0 by decide
  limits := by
    intro low hlow
    cases hlow
  detection := valid_default_detection

/-- The parsed sensors of a device are valid, and there is at least one. -/
theorem valid_of_parse_sensors {sensors : List SensorConfig}
    (h : parse_sensors path j = .ok sensors) :
    sensors ≠ [] ∧ ∀ sensor ∈ sensors, sensor.Valid := by
  unfold parse_sensors at h
  split at h
  · cases h
  · rename_i list hlist
    refine ⟨?_, forall_of_parse_elements valid_of_parse_sensor h⟩
    -- a parsed list is as long as the array, which is not empty
    rintro rfl
    have hlength := (mapM_eq_ok.mp h).length_eq
    rw [List.length_zipIdx, List.length_nil] at hlength
    exact hlist (List.length_eq_zero_iff.mp hlength)
  · cases h

/-- A parsed device is valid. -/
theorem valid_of_parse_device {getenv : Environment} {device : ModbusDeviceConfig}
    (h : parse_device getenv j path = .ok device) : device.Valid := by
  simp only [parse_device, bind_eq_ok, require_eq_ok] at h
  obtain ⟨_, -, id, -, _, hid, host, -, _, hhost, port, hport, _, -, interval, hinterval, timeout,
    htimeout, sensors, hsensors, h⟩ := h
  cases h
  -- a device without a sensor list gets one sensor under its own id
  have hsensors_valid : sensors ≠ [] ∧ ∀ sensor ∈ sensors, sensor.Valid := by
    refine of_get_section (P := fun sensors => sensors ≠ [] ∧ ∀ sensor ∈ sensors, sensor.Valid)
      ⟨List.cons_ne_nil _ _, ?_⟩ valid_of_parse_sensors hsensors
    intro sensor hsensor
    rw [List.mem_singleton.mp hsensor]
    exact valid_shorthand hid
  exact
    { id := hid
      host := Bool.eq_false_iff.mpr hhost
      port := (get_int_in_range (by decide) (by decide) hport).1
      poll_interval_ms := get_int_in_range (by decide) (by decide) hinterval
      timeout_ms := get_int_in_range (by decide) (by decide) htimeout
      sensors_nonempty := hsensors_valid.1
      sensors := hsensors_valid.2 }

/-! ## (3) Identifiers -/

/-- The sensors of all devices in order. -/
def AppConfig.sensors (cfg : AppConfig) : List SensorConfig :=
  cfg.devices.flatMap ModbusDeviceConfig.sensors

/-- The ids of a device's sensors join those seen before, which stay free of duplicates. -/
theorem check_sensor_ids_eq_ok {i : Nat} {sensors : List SensorConfig} {seen seen' : List String}
    (hseen : seen.Nodup) :
    check_sensor_ids i seen sensors = .ok seen' ↔
      seen' = (sensors.map SensorConfig.id).reverse ++ seen ∧ seen'.Nodup := by
  induction sensors generalizing seen with
  | nil =>
      rw [check_sensor_ids, Except.ok.injEq]
      constructor
      · rintro rfl
        exact ⟨rfl, hseen⟩
      · rintro ⟨rfl, -⟩
        rfl
  | cons sensor sensors ih =>
      have hreverse : ((sensor :: sensors).map SensorConfig.id).reverse ++ seen =
          (sensors.map SensorConfig.id).reverse ++ (sensor.id :: seen) := by
        rw [List.map_cons, List.reverse_cons, List.append_assoc, List.singleton_append]
      -- the id that is inserted here is one of those seen by the rest
      rw [check_sensor_ids, bind_eq_ok, hreverse]
      simp only [require_eq_ok]
      constructor
      · rintro ⟨_, hnew, h⟩
        exact (ih (List.nodup_cons.mpr ⟨hnew, hseen⟩)).mp h
      · rintro ⟨rfl, hnodup⟩
        have hcons := hnodup.of_append_right
        exact ⟨(), (List.nodup_cons.mp hcons).1, (ih hcons).mpr ⟨rfl, hnodup⟩⟩

/-- **The duplicate checks succeed exactly if no id occurs twice**, among those of the devices and
among those of the sensors of all devices. -/
theorem check_ids_eq_ok {i : Nat} {devices : List ModbusDeviceConfig}
    {device_ids sensor_ids : List String} (hdevices : device_ids.Nodup)
    (hsensors : sensor_ids.Nodup) :
    check_ids i device_ids sensor_ids devices = .ok () ↔
      ((devices.map ModbusDeviceConfig.id).reverse ++ device_ids).Nodup ∧
        (((devices.flatMap ModbusDeviceConfig.sensors).map SensorConfig.id).reverse ++
          sensor_ids).Nodup := by
  induction devices generalizing i device_ids sensor_ids with
  | nil =>
      rw [check_ids]
      exact ⟨fun _ => ⟨hdevices, hsensors⟩, fun _ => rfl⟩
  | cons device devices ih =>
      have hids : ((device :: devices).map ModbusDeviceConfig.id).reverse ++ device_ids =
          (devices.map ModbusDeviceConfig.id).reverse ++ (device.id :: device_ids) := by
        rw [List.map_cons, List.reverse_cons, List.append_assoc, List.singleton_append]
      have hsensor_ids :
          (((device :: devices).flatMap ModbusDeviceConfig.sensors).map SensorConfig.id).reverse ++
              sensor_ids =
            ((devices.flatMap ModbusDeviceConfig.sensors).map SensorConfig.id).reverse ++
              ((device.sensors.map SensorConfig.id).reverse ++ sensor_ids) := by
        rw [List.flatMap_cons, List.map_append, List.reverse_append, List.append_assoc]
      rw [check_ids, bind_eq_ok, hids, hsensor_ids]
      simp only [require_eq_ok, bind_eq_ok, check_sensor_ids_eq_ok hsensors]
      constructor
      · rintro ⟨_, hnew, _, ⟨rfl, hnodup⟩, h⟩
        exact (ih (List.nodup_cons.mpr ⟨hnew, hdevices⟩) hnodup).mp h
      · -- a suffix of a list without duplicates has none
        rintro ⟨hdevices', hsensors'⟩
        have hcons := hdevices'.of_append_right
        have hnodup := hsensors'.of_append_right
        exact ⟨(), (List.nodup_cons.mp hcons).1, _, ⟨rfl, hnodup⟩,
          (ih hcons hnodup).mpr ⟨hdevices', hsensors'⟩⟩

/-- The duplicate checks of `validate`. -/
theorem check_ids_nil_eq_ok {devices : List ModbusDeviceConfig} :
    check_ids 0 [] [] devices = .ok () ↔
      (devices.map ModbusDeviceConfig.id).Nodup ∧
        ((devices.flatMap ModbusDeviceConfig.sensors).map SensorConfig.id).Nodup := by
  rw [check_ids_eq_ok List.nodup_nil List.nodup_nil, List.append_nil, List.append_nil,
    List.nodup_reverse, List.nodup_reverse]

/-! ## (4) Loaded devices -/

/-- What a loaded configuration promises of its devices. -/
structure AppConfig.DevicesValid (cfg : AppConfig) : Prop where
  devices : ∀ device ∈ cfg.devices, device.Valid
  device_ids : (cfg.devices.map ModbusDeviceConfig.id).Nodup
  sensor_ids : (cfg.sensors.map SensorConfig.id).Nodup

/-- **The devices of a loaded configuration are valid**, whatever the environment overrides. -/
theorem devices_valid_of_load {json_parse : String → Except JsonError Json}
    {getenv : Environment} {json_text : String} {cfg : AppConfig}
    (h : load_from_string json_parse getenv json_text = .ok cfg) : cfg.DevicesValid := by
  obtain ⟨j, settings, document, -, -, hdocument, hvalid⟩ := load_eq_ok h
  have hdevices : cfg.devices = document.devices := by
    rw [validate_eq_ok hvalid]
    rfl
  simp only [validate, bind_eq_ok] at hvalid
  obtain ⟨_, -, _, -, _, -, _, -, _, -, _, hids, -⟩ := hvalid
  obtain ⟨hdevice_ids, hsensor_ids⟩ := check_ids_nil_eq_ok.mp hids
  simp only [parse_sections, bind_eq_ok] at hdocument
  obtain ⟨devices, hparsed, _, -, _, -, hdocument⟩ := hdocument
  -- without a `devices` section there is none
  have hvalid_devices : ∀ device ∈ devices, device.Valid := by
    refine of_get_section (P := fun ds : List ModbusDeviceConfig => ∀ d ∈ ds, d.Valid) ?_
      (forall_of_parse_array valid_of_parse_device) hparsed
    intro device hdevice
    cases hdevice
  cases hdocument
  refine ⟨?_, ?_, ?_⟩
  · rw [hdevices]
    exact hvalid_devices
  · rw [hdevices]
    exact hdevice_ids
  · rw [AppConfig.sensors, hdevices]
    exact hsensor_ids

end Ironpulse.Core
