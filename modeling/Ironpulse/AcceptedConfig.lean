import Ironpulse.Analytics.Detectors
import Ironpulse.Ingest.ExportOnce
import Ironpulse.Protocol.ReadPlan
import Ironpulse.Storage.Wal

/-! # An accepted configuration suits the components

`main` (`src/main.cpp`) builds the exporter, the rule engine, the write-ahead log and the pollers from
the loaded configuration. Each of them has requirements of its own, which the loader checks for all
of them beforehand.

* **`SuitsComponents`**: what the components require of a configuration.
* **`suitsComponents_of_load`**: loading checks all of it.
* **`suitsComponents_and_tags_of_load`**: the tag ids of the export are distinct for up to `2 ^ 32`
  sensors, which is as far as their 32 bits go.
* **`not_distinct_tags`**: a document with one sensor more. -/

namespace Ironpulse

open Core Analytics Ingest Protocol Storage

/-! ## (1) What the components require -/

/-- A file name: an entry of a directory and not a path that leads elsewhere. -/
structure IsFileName (name : String) : Prop where
  nonempty : name ≠ ""
  not_dot : name ≠ "."
  not_dotdot : name ≠ ".."
  no_separator : '/' ∉ name.toList
  no_terminator : '\x00' ∉ name.toList

/-- **What the components require of a configuration.** -/
structure SuitsComponents (cfg : AppConfig) : Prop where
  /-- `validate` of the ingestor accepts its options. -/
  options : (ReadingExporter.ingestorOptions cfg.export_config).validate = .ok ()
  /-- The constructor of the queue accepts the capacity. -/
  queue : ∃ queue : SpscRingBuffer TelemetrySample, SpscRingBuffer.make
    (ReadingExporter.ingestorOptions cfg.export_config).queue_capacity = .ok queue
  /-- The factory builds every detector, whatever the arithmetic. -/
  detectors : ∀ (F : Type) [Arithmetic F], ∀ sensor ∈ cfg.sensors,
    ∀ d ∈ sensor.detection.detectors, ∃ detector, make_detector F d = .ok detector
  votes_required : ∀ sensor ∈ cfg.sensors, 1 ≤ sensor.detection.votes_required.toNat ∧
    sensor.detection.votes_required.toNat ≤ Max.max 1 sensor.detection.detectors.length
  in_table : ∀ device ∈ cfg.devices, InTable device.sensors
  blocks : ∀ (S : StdSort), ∀ device ∈ cfg.devices, ∀ block ∈ plan_reads S device.sensors,
    block.start_address.toNat + block.quantity.toNat ≤ 65536 ∧ block.quantity.toNat ≤ 125
  limits : ∀ sensor ∈ cfg.sensors, sensor.limits.Ordered
  device_ids : (cfg.devices.map ModbusDeviceConfig.id).Nodup
  sensor_ids : (cfg.sensors.map SensorConfig.id).Nodup
  wal_files : (cfg.sensors.map fun sensor => file_for sensor.id).Nodup
  wal_names : ∀ sensor ∈ cfg.sensors, IsFileName (file_for sensor.id)

/-- Distinct sensors have distinct tag ids. -/
def DistinctTags (cfg : AppConfig) : Prop :=
  ((tags_from_devices cfg.devices).map TagInfo.id).Nodup

/-! ## (2) What loading checks -/

/-- The log file of a valid identifier lies in the data directory. -/
theorem isFileName_file_for {id : String} (hid : is_valid_id id = true) :
    IsFileName (file_for id) := by
  have hchars : (file_for id).toList = id.toList ++ ['.', 'w', 'a', 'l'] := by
    rw [file_for, String.toList_append]
    rfl
  have hlength : ∀ name : String, name.toList.length ≤ 3 → file_for id ≠ name := by
    rintro name hname rfl
    rw [hchars, List.length_append] at hname
    exact absurd hname (by simp)
  simp only [is_valid_id, Bool.and_eq_true, List.all_eq_true] at hid
  obtain ⟨-, hallowed⟩ := hid
  -- a character that the check refuses occurs neither in the id nor in the extension
  have hforbidden : ∀ c : Char,
      (('a' ≤ c && c ≤ 'z') || ('A' ≤ c && c ≤ 'Z') || ('0' ≤ c && c ≤ '9') || c = '_' ||
        c = '-' || c = '.') = false → c ∉ ['.', 'w', 'a', 'l'] → c ∉ (file_for id).toList := by
    intro c hrefused hext hmem
    rw [hchars, List.mem_append] at hmem
    obtain hmem | hmem := hmem
    · rw [hallowed c hmem] at hrefused
      cases hrefused
    · exact hext hmem
  exact
    { nonempty := hlength "" (by decide)
      not_dot := hlength "." (by decide)
      not_dotdot := hlength ".." (by decide)
      no_separator := hforbidden '/' (by decide) (by decide)
      no_terminator := hforbidden '\x00' (by decide) (by decide) }

/-- **A loaded configuration suits the components**, whatever the environment overrides. -/
theorem suitsComponents_of_load {json_parse : String → Except JsonError Json}
    {getenv : Environment} {json_text : String} {cfg : AppConfig}
    (hload : load_from_string json_parse getenv json_text = .ok cfg) : SuitsComponents cfg := by
  have hexport := ReadingExporter.validate_ingestorOptions (export_valid_of_load hload)
  obtain ⟨hdevices, hdevice_ids, hsensor_ids⟩ := devices_valid_of_load hload
  -- what holds of the devices holds of all sensors, which are those of the devices
  have hsensors : ∀ sensor ∈ cfg.sensors, sensor.Valid := by
    intro sensor hsensor
    obtain ⟨device, hdevice, hmem⟩ := List.mem_flatMap.mp hsensor
    exact (hdevices device hdevice).sensors sensor hmem
  have htable : ∀ device ∈ cfg.devices, InTable device.sensors :=
    fun device hdevice sensor hsensor => ((hdevices device hdevice).sensors sensor hsensor).in_table
  have hfiles : (cfg.sensors.map fun sensor => file_for sensor.id) =
      (cfg.sensors.map SensorConfig.id).map file_for := by
    rw [List.map_map]
    rfl
  exact
    { options := hexport
      queue := by
        obtain ⟨ingestor, hmake⟩ := Ingestor.exists_make hexport
        obtain ⟨-, queue, hqueue, -⟩ := Ingestor.make_eq_ok hmake
        exact ⟨queue, hqueue⟩
      detectors := fun F _ sensor hsensor d hd =>
        (make_detector_eq_ok d).mpr ((hsensors sensor hsensor).detection.detectors d hd).type
      votes_required := fun sensor hsensor => (hsensors sensor hsensor).detection.votes_required
      in_table := htable
      blocks := by
        intro S device hdevice block hblock
        have hcovers : Covers device.sensors 125 block :=
          (plan_reads_spec (by decide) (by decide) (by decide) (htable device hdevice)).2
            block hblock
        exact ⟨hcovers.in_table, hcovers.bounded⟩
      limits := fun sensor hsensor => (hsensors sensor hsensor).limits
      device_ids := hdevice_ids
      sensor_ids := hsensor_ids
      wal_files := by
        rw [hfiles]
        exact hsensor_ids.map fun _ _ heq => file_for_inj.mp heq
      wal_names := fun sensor hsensor => isFileName_file_for (hsensors sensor hsensor).id }

/-- Every sensor has a tag. -/
theorem length_tags_from_devices (cfg : AppConfig) :
    (tags_from_devices cfg.devices).length = cfg.sensors.length := by
  rw [tags_from_devices, List.length_mapIdx, AppConfig.sensors, List.length_flatMap,
    List.length_flatMap]
  congr 1
  refine List.map_congr_left fun device _ => ?_
  exact List.length_map _

/-- **A loaded configuration suits the components**, and the tags of its sensors are distinct exactly
up to `2 ^ 32` sensors: the export's format numbers them in 32 bits. -/
theorem suitsComponents_and_tags_of_load (json_parse : String → Except JsonError Json)
    (getenv : Environment) (json_text : String) (cfg : AppConfig)
    (hload : load_from_string json_parse getenv json_text = .ok cfg) :
    SuitsComponents cfg ∧ (DistinctTags cfg ↔ cfg.sensors.length ≤ 2 ^ 32) := by
  refine ⟨suitsComponents_of_load hload, ?_⟩
  rw [DistinctTags, nodup_id_tags_from_devices_iff, length_tags_from_devices]

/-! ## (3) A configuration with a sensor -/

/-- No variable is set. -/
def noEnvironment : Environment := fun _ => none

/-- A device that is described by its host and id alone. -/
def shorthandDevice (id : String) : Json := .object [("host", .string "h"), ("id", .string id)]

/-- What the parser makes of it. -/
def shorthandConfig (id : String) : ModbusDeviceConfig :=
  { id, host := "h", sensors := [{ id, name := id, detection := default_detection }] }

/-- A document that lists such devices and nothing else. -/
def shorthandDocument (ids : List String) : String → Except JsonError Json :=
  fun _ => .ok (.object [("devices", .array (ids.map shorthandDevice))])

/-- A device that names its id only gets the defaults for everything else. -/
theorem parse_device_shorthand {id : String} (hid : is_valid_id id = true) (path : String) :
    parse_device noEnvironment (shorthandDevice id) path = .ok (shorthandConfig id) := by
  have hhost : expand_env noEnvironment "h" = "h" := by decide
  unfold parse_device
  simp only [bind_eq_ok, require_eq_ok]
  refine ⟨(), rfl, id, rfl, (), hid, "h", rfl, (), ?_, 502, rfl, 1, rfl, 1000, rfl, 3000, rfl, _,
    rfl, ?_⟩
  · rw [hhost]
    decide
  · rw [hhost]
    rfl

/-- A list of such devices is read element by element. -/
theorem parse_elements_shorthand {ids : List String} (hids : ∀ id ∈ ids, is_valid_id id = true)
    (path : String) :
    parse_elements (parse_device noEnvironment) path (ids.map shorthandDevice) =
      .ok (ids.map shorthandConfig) := by
  have hindexed : ids.map shorthandConfig =
      ids.zipIdx.map fun indexed => shorthandConfig indexed.1 := by
    rw [show (fun indexed : String × Nat => shorthandConfig indexed.1) =
      shorthandConfig ∘ Prod.fst from rfl, ← List.map_map, List.zipIdx_map_fst]
  rw [parse_elements, mapM_eq_ok, List.zipIdx_map, hindexed, List.forall₂_map_left_iff,
    List.forall₂_map_right_iff, List.forall₂_same]
  intro indexed hindexed
  exact parse_device_shorthand (hids _ (List.fst_mem_of_mem_zipIdx hindexed)) _

/-- A configuration of devices alone is valid when their ids are. -/
theorem validate_devices {devices : List ModbusDeviceConfig}
    (h : check_ids 0 [] [] devices = .ok ()) :
    validate { devices } = .ok { devices } := by
  unfold validate
  simp only [bind_eq_ok, require_eq_ok]
  exact ⟨(), by decide, (), by decide, (), by decide, (), by decide, (), by decide, (), h, (),
    by decide, (), by decide, rfl⟩

/-- The ids of the configured sensors. -/
theorem map_id_sensors_shorthand (ids : List String) :
    ((ids.map shorthandConfig).flatMap ModbusDeviceConfig.sensors).map SensorConfig.id = ids := by
  rw [List.flatMap_map, List.map_flatMap]
  exact List.flatMap_singleton' _

/-- **Every list of distinct valid ids is accepted**, however long. -/
theorem load_shorthand {ids : List String} (hids : ∀ id ∈ ids, is_valid_id id = true)
    (hnodup : ids.Nodup) :
    load_from_string (shorthandDocument ids) noEnvironment "" =
      .ok { devices := ids.map shorthandConfig } := by
  have hdevice_ids : (ids.map shorthandConfig).map ModbusDeviceConfig.id = ids := by
    rw [List.map_map]
    exact List.map_id _
  -- a shorthand device has one sensor, named like the device
  have hcheck : check_ids 0 [] [] (ids.map shorthandConfig) = .ok () :=
    check_ids_nil_eq_ok.mpr
      ⟨hdevice_ids.symm ▸ hnodup, (map_id_sensors_shorthand ids).symm ▸ hnodup⟩
  have hparse := parse_elements_shorthand hids "devices"
  unfold load_from_string shorthandDocument
  simp only [parse, bind_eq_ok, require_eq_ok]
  refine ⟨(), rfl, {}, rfl, { devices := ids.map shorthandConfig }, ?_, validate_devices hcheck⟩
  -- only the section of the devices is there; the others keep their defaults
  simp only [parse_sections, bind_eq_ok]
  exact ⟨_, hparse, _, rfl, _, rfl, rfl⟩

/-- More than `2 ^ 32` such devices do not have distinct tags. -/
theorem not_distinctTags_of_lt {ids : List String} (h : 2 ^ 32 < ids.length) :
    ¬ DistinctTags { devices := ids.map shorthandConfig } := by
  have hcount := congrArg List.length (map_id_sensors_shorthand ids)
  rw [List.length_map] at hcount
  rw [DistinctTags, nodup_id_tags_from_devices_iff, length_tags_from_devices, AppConfig.sensors,
    hcount]
  exact Nat.not_le_of_lt h

/-- Two sensors suit the components and have distinct tags. -/
theorem suitsComponents_two : SuitsComponents { devices := ["a", "b"].map shorthandConfig } ∧
    (DistinctTags { devices := ["a", "b"].map shorthandConfig } ↔
      (AppConfig.sensors { devices := ["a", "b"].map shorthandConfig }).length ≤ 2 ^ 32) :=
  suitsComponents_and_tags_of_load (shorthandDocument ["a", "b"]) noEnvironment "" _
    (load_shorthand (by decide) (by decide))

/-! ## (4) More sensors than tags -/

/-- A number as an id of 33 binary digits. -/
def binaryId (n : Nat) : String :=
  String.ofList ((List.range 33).map fun k => if n.testBit k then '1' else '0')

/-- A text of one-byte characters has as many bytes as characters. -/
theorem utf8ByteSize_ofList {chars : List Char} (h : ∀ c ∈ chars, c.utf8Size = 1) :
    (String.ofList chars).utf8ByteSize = chars.length := by
  induction chars with
  | nil => rfl
  | cons c chars ih =>
      obtain ⟨hc, hchars⟩ := List.forall_mem_cons.mp h
      rw [String.ofList_cons, String.utf8ByteSize_append, String.utf8ByteSize_singleton, hc,
        ih hchars, List.length_cons]
      exact Nat.add_comm _ _

/-- The ids spelled in binary digits are valid. -/
theorem is_valid_id_binaryId (n : Nat) : is_valid_id (binaryId n) = true := by
  unfold binaryId
  set digits := (List.range 33).map fun k => if n.testBit k then '1' else '0' with hdigits
  have hlength : digits.length = 33 := by rw [hdigits, List.length_map, List.length_range]
  -- an id in binary digits has no other characters, so each rule is one about `0` and `1`
  have hdigit : ∀ c ∈ digits, c = '0' ∨ c = '1' := by
    intro c hc
    obtain ⟨k, -, rfl⟩ := List.mem_map.mp hc
    by_cases hbit : n.testBit k
    · exact .inr (if_pos hbit)
    · exact .inl (if_neg hbit)
  have hsize : (String.ofList digits).utf8ByteSize = 33 := by
    rw [← hlength]
    apply utf8ByteSize_ofList
    intro c hc
    obtain rfl | rfl := hdigit c hc
    · decide
    · decide
  have hempty : (String.ofList digits).isEmpty = false := by
    rw [Bool.eq_false_iff, Ne, String.isEmpty_iff_utf8ByteSize_eq_zero, hsize]
    decide
  have hdot : digits.head? ≠ some '.' := by
    intro hhead
    obtain h | h := hdigit _ (List.mem_of_head? hhead)
    · cases h
    · cases h
  simp only [is_valid_id, hempty, hsize, String.toList_ofList, decide_eq_true hdot,
    Bool.not_false, Bool.true_and, Bool.and_eq_true, List.all_eq_true]
  refine ⟨⟨by decide, trivial⟩, ?_⟩
  intro c hc
  obtain rfl | rfl := hdigit c hc
  · decide
  · decide

/-- Numbers below `2 ^ 33` have different digits. -/
theorem binaryId_inj {m n : Nat} (hm : m < 2 ^ 33) (hn : n < 2 ^ 33)
    (h : binaryId m = binaryId n) : m = n := by
  have hdigits := List.map_inj_left.mp (String.ofList_inj.mp h)
  apply Nat.eq_of_testBit_eq
  intro k
  by_cases hk : k < 33
  · have hdigit := hdigits k (List.mem_range.mpr hk)
    cases hmk : m.testBit k <;> cases hnk : n.testBit k <;> simp_all
  · have hhigh : 2 ^ 33 ≤ 2 ^ k := Nat.pow_le_pow_right (by decide) (Nat.le_of_not_lt hk)
    rw [Nat.testBit_lt_two_pow (hm.trans_le hhigh), Nat.testBit_lt_two_pow (hn.trans_le hhigh)]

/-- **With `2 ^ 32 + 1` sensors two have one tag**, although the configuration is accepted. -/
theorem not_distinct_tags :
    ¬ ∀ (json_parse : String → Except JsonError Json) (getenv : Environment) (json_text : String)
        (cfg : AppConfig), load_from_string json_parse getenv json_text = .ok cfg →
      SuitsComponents cfg ∧ DistinctTags cfg := by
  intro h
  -- `2 ^ 32 + 1` names, one more than there are tags
  have hnodup : ((List.range (2 ^ 32 + 1)).map binaryId).Nodup := by
    refine List.Nodup.map_on ?_ List.nodup_range
    intro m hm n hn heq
    have hm' := List.mem_range.mp hm
    have hn' := List.mem_range.mp hn
    exact binaryId_inj (by omega) (by omega) heq
  have hids : ∀ id ∈ (List.range (2 ^ 32 + 1)).map binaryId, is_valid_id id = true := by
    intro id hid
    obtain ⟨n, -, rfl⟩ := List.mem_map.mp hid
    exact is_valid_id_binaryId n
  refine not_distinctTags_of_lt ?_ (h _ _ _ _ (load_shorthand hids hnodup)).2
  rw [List.length_map, List.length_range]
  exact Nat.lt_succ_self _

end Ironpulse
