import Ironpulse.Core.Json

/-! # The application's configuration

`src/core/config.cpp`: a JSON document is read field by field into an `AppConfig`, overridden by the
`IRONPULSE_*` environment variables and then validated. The first field that fails ends loading with
a message that names it.

* **`expand_env`, `stoull`, `parse_or`**: what is read from the environment.
* **`parse_device`, `parse_sensor`, `parse_detection`, `parse_export`**: the sections of a document.
* **`apply_env_overrides`, `validate`, `load_from_string`**: the rest of loading.
* **`retention_hours_of_load`**: where the loaded retention period comes from. -/

namespace Ironpulse.Core

/-! ## (1) The configuration -/

/-- Which Modbus table a sensor lives in. -/
inductive RegisterType where
  | holding
  | input
  deriving DecidableEq

/-- How the raw registers of a sensor are interpreted. -/
inductive DataType where
  | uint16
  | int16
  | uint32
  | int32
  | float32
  deriving DecidableEq

/-- Which register of a 32-bit value holds the high word. -/
inductive WordOrder where
  | big
  | little
  deriving DecidableEq

/-- `Severity`. -/
inductive Severity where
  | warning
  | critical
  deriving DecidableEq

/-- Number of 16-bit registers that a value of this type occupies. -/
def register_count : DataType → UInt16
  | .uint16 | .int16 => 1
  | .uint32 | .int32 | .float32 => 2

/-- One anomaly-detection strategy and its tuning. -/
structure DetectorConfig where
  type : String := ""
  window : UInt64 := 60
  alpha : Rat := 0.2
  threshold : Rat := 3
  mean : Rat := 0
  stddev : Rat := 1
  slack : Rat := 0.5
  deriving DecidableEq

/-- `DetectionConfig`: the detectors of a sensor and how they vote. -/
structure DetectionConfig where
  detectors : List DetectorConfig := []
  votes_required : UInt64 := 1
  cooldown_seconds : UInt32 := 30
  deriving DecidableEq

/-- Hard engineering limits, over any type of numbers. -/
structure Limits (F : Type) where
  low : Option F := none
  high : Option F := none
  deriving DecidableEq

/-- One measured quantity on a device. -/
structure SensorConfig where
  id : String := ""
  name : String := ""
  unit : String := ""
  register_type : RegisterType := .holding
  address : UInt16 := 0
  data_type : DataType := .uint16
  word_order : WordOrder := .big
  scale : Rat := 1
  offset : Rat := 0
  limits : Limits Rat := {}
  detection : DetectionConfig := {}
  deriving DecidableEq

/-- `ModbusDeviceConfig`. -/
structure ModbusDeviceConfig where
  id : String := ""
  host : String := ""
  port : UInt16 := 502
  unit_id : UInt8 := 1
  poll_interval_ms : UInt32 := 1000
  timeout_ms : UInt32 := 3000
  sensors : List SensorConfig := []
  deriving DecidableEq

/-- Where alerts are delivered besides the dashboard. `headers` is in key order. -/
structure NotificationChannelConfig where
  type : String := ""
  url : String := ""
  bot_token : String := ""
  chat_id : String := ""
  headers : List (String × String) := []
  deriving DecidableEq

/-- `NotificationsConfig`. -/
structure NotificationsConfig where
  language : String := "ru"
  min_severity : Severity := .warning
  dashboard_url : String := ""
  channels : List NotificationChannelConfig := []
  deriving DecidableEq

/-- Bulk export of every reading to binary segment files. -/
structure ExportConfig where
  enabled : Bool := false
  directory : String := "export"
  queue_capacity : UInt64 := 65536
  batch_size : UInt64 := 1000
  flush_interval_ms : UInt32 := 1000
  segment_max_mb : UInt32 := 64
  max_total_mb : UInt32 := 1024
  deriving DecidableEq

/-- `AppConfig`. -/
structure AppConfig where
  app_name : String := "ironpulse"
  log_level : String := "info"
  log_file : String := ""
  http_port : UInt16 := 8080
  ws_port : UInt16 := 8081
  worker_threads : UInt64 := 4
  web_root : String := "web"
  data_dir : String := "data"
  persistence_enabled : Bool := false
  retention_hours : UInt32 := 168
  api_token : String := ""
  devices : List ModbusDeviceConfig := []
  notifications : NotificationsConfig := {}
  export_config : ExportConfig := {}
  warnings : List String := []
  deriving DecidableEq

/-! ## (2) The environment -/

/-- `getenv`: the value of each variable that is set. -/
abbrev Environment := String → Option String

/-- `env`: an empty variable counts as unset. -/
def Environment.env (getenv : Environment) (name : String) : Option String :=
  (getenv name).filter fun value => !value.isEmpty

/-- `isspace` in the C locale. -/
def isspace (c : Char) : Bool := c = ' ' || ('\t' ≤ c && c ≤ '\r')

/-- `std::stoull` in base 10, none where it throws: leading blanks, an optional sign, digits up to
the first other character. A minus sign negates modulo `2 ^ 64`. -/
def stoull (text : String) : Option UInt64 :=
  let chars := text.toList.dropWhile isspace
  let unsigned : List Char :=
    match chars with
    | '+' :: rest | '-' :: rest => rest
    | rest => rest
  let digits := unsigned.takeWhile Char.isDigit
  let value : Nat := digits.foldl (fun n c => 10 * n + (c.toNat - '0'.toNat)) 0
  if digits.isEmpty ∨ value ≥ 2 ^ 64 then none
  else if chars.head? = some '-' then some (0 - UInt64.ofNat value)
  else some (UInt64.ofNat value)

/-- `parse_or` of an integer: what does not parse or does not fit leaves the fallback. -/
def parse_or {T : Type} [Unsigned T] (raw : Option String) (fallback : T) : T :=
  match raw.bind stoull with
  | none => fallback
  | some parsed =>
      if parsed.toNat > numeric_limits_max T then fallback else Unsigned.ofNat parsed.toNat

/-- `parse_or` of a flag. -/
def parse_or_bool (raw : Option String) (fallback : Bool) : Bool :=
  match raw with
  | none => fallback
  | some raw => raw = "1" || raw = "true" || raw = "TRUE" || raw = "yes"

/-- The text before the first `${` and the text behind it. -/
def find_placeholder : List Char → Option (List Char × List Char)
  | [] => none
  | '$' :: '{' :: rest => some ([], rest)
  | c :: rest => (find_placeholder rest).map fun (before, behind) => (c :: before, behind)

/-- The loop of `expand_env` over the unread text. -/
def expand_from (getenv : Environment) : Nat → List Char → List Char
  | 0, _ => []
  | fuel + 1, text =>
      match find_placeholder text with
      | none => text
      | some (before, behind) =>
          match behind.span (· ≠ '}') with
          | (_, []) => text
          | (name, _ :: rest) =>
              -- the name is passed as a C string, which ends at its first null character
              let value := (getenv (String.ofList (name.takeWhile (· ≠ '\x00')))).getD ""
              before ++ value.toList ++ expand_from getenv fuel rest

/-- `expand_env`: every `${NAME}` becomes the value of the variable, empty if unset. -/
def expand_env (getenv : Environment) (text : String) : String :=
  String.ofList (expand_from getenv text.toList.length text.toList)

-- the texts are `${A}-${B}!${`, where `A` is `y$` and `B` is unset
example : expand_env (fun name => if name = "A" then some "y$" else none)
    "$\x7bA\x7d-$\x7bB\x7d!$\x7b" = "y$-!$\x7b" := by decide

/-! ## (3) The sections of a document -/

/-- A check of the parser: the error of the field if it fails. -/
def require (ok : Prop) [Decidable ok] (path problem : String) : Except String Unit :=
  if ok then .ok () else fail path problem

/-- True for identifiers that are safe as file names and URL path segments. -/
def is_valid_id (id : String) : Bool :=
  !id.isEmpty && id.utf8ByteSize ≤ 64 && id.toList.head? ≠ some '.' &&
    id.toList.all fun c =>
      ('a' ≤ c && c ≤ 'z') || ('A' ≤ c && c ≤ 'Z') || ('0' ≤ c && c ≤ '9') || c = '_' || c = '-' ||
        c = '.'

/-- `is_supported_language`. -/
def is_supported_language (code : String) : Bool :=
  ["ru", "en", "zh", "hi", "es", "fr", "de", "it"].contains code

/-- Parses the elements of an array in order, each under its own path. -/
def parse_elements {α : Type} (parse_element : Json → String → Except String α) (path : String)
    (list : List Json) : Except String (List α) :=
  list.zipIdx.mapM fun (element, i) => parse_element element (path ++ "[" ++ toString i ++ "]")

/-- Parses an array; another value fails at `path`. -/
def parse_array {α : Type} (parse_element : Json → String → Except String α)
    (path elements_path : String) : Json → Except String (List α)
  | .array list => parse_elements parse_element elements_path list
  | _ => fail path "expected an array"

/-- A section of an object that may be absent. -/
def get_section {α : Type} (obj : Json) (key : String) (absent : α)
    (parse_section : Json → Except String α) : Except String α :=
  match obj.find key with
  | none => .ok absent
  | some v => parse_section v

/-- `default_detection`, for a sensor whose configuration names no detectors. -/
def default_detection : DetectionConfig :=
  { detectors := [{ type := "zscore" }, { type := "ewma" }], votes_required := 1 }

/-- The branch `zscore` of `parse_detector`. -/
def parse_zscore (j : Json) (path type : String) : Except String DetectorConfig := do
  let window ← get_int j "window" 60 path 2 100000
  let threshold ← get_number j "threshold" 3 path
  return { type, window, threshold }

/-- The branch `ewma` of `parse_detector`. -/
def parse_ewma (j : Json) (path type : String) : Except String DetectorConfig := do
  let alpha ← get_number j "alpha" 0.2 path
  let threshold ← get_number j "threshold" 3 path
  require (¬ (alpha ≤ 0 ∨ alpha > 1)) (join_path path "alpha") "must be in (0, 1]"
  return { type, alpha, threshold }

/-- The branch `cusum` of `parse_detector`. -/
def parse_cusum (j : Json) (path type : String) : Except String DetectorConfig := do
  require ((j.find "mean").isSome ∧ (j.find "stddev").isSome) path
    "cusum needs the sensor's normal 'mean' and 'stddev'"
  let mean ← get_number j "mean" 0 path
  let stddev ← get_number j "stddev" 1 path
  let slack ← get_number j "slack" 0.5 path
  let threshold ← get_number j "threshold" 5 path
  require (¬ stddev ≤ 0) (join_path path "stddev") "must be greater than 0"
  require (¬ slack < 0) (join_path path "slack") "must not be negative"
  return { type, mean, stddev, slack, threshold }

/-- The fields of a detector, which depend on its type. -/
def parse_tuning (j : Json) (path type : String) : Except String DetectorConfig :=
  if type = "zscore" then parse_zscore j path type
  else if type = "ewma" then parse_ewma j path type
  else if type = "cusum" then parse_cusum j path type
  else
    fail (join_path path "type")
      ("unknown detector '" ++ type ++ "' (expected zscore, ewma or cusum)")

/-- `parse_detector`: the type decides what is read. -/
def parse_detector (j : Json) (path : String) : Except String DetectorConfig := do
  require j.is_object path "expected an object"
  let type ← get_string j "type" "" path
  let d ← parse_tuning j path type
  require (¬ d.threshold ≤ 0) (join_path path "threshold") "must be greater than 0"
  return d

/-- `parse_detection`: at most as many votes as there are detectors. -/
def parse_detection (j : Json) (path : String) : Except String DetectionConfig := do
  let d := default_detection
  require j.is_object path "expected an object"
  let detectors ← get_section j "detectors" d.detectors
    (parse_array parse_detector (join_path path "detectors") (path ++ ".detectors"))
  let cooldown_seconds ← get_int j "cooldown_seconds" d.cooldown_seconds path 0 86400
  let max_votes := UInt64.ofNat (max 1 detectors.length)
  let votes_required ← get_int j "votes_required" 1 path 1 max_votes
  return { detectors, cooldown_seconds, votes_required }

/-- `parse_limits`: the low limit below the high one. -/
def parse_limits (path : String) (limits : Json) : Except String (Limits Rat) := do
  require limits.is_object path "expected an object"
  let low ← get_optional_number limits "low" path
  let high ← get_optional_number limits "high" path
  require (∀ l ∈ low, ∀ h ∈ high, ¬ l ≥ h) path "'low' must be less than 'high'"
  return { low, high }

/-- `parse_sensor`: the sensor's registers lie inside the table. -/
def parse_sensor (j : Json) (path : String) : Except String SensorConfig := do
  require j.is_object path "expected an object"
  let id ← get_string j "id" "" path
  require (is_valid_id id) (join_path path "id")
    ("'" ++ id ++ "' is not a valid id (1-64 characters: letters, digits, '_', '-', '.')")
  let name ← get_string j "name" id path
  let unit ← get_string j "unit" "" path
  let register_type ← get_enum j "register_type" RegisterType.holding path
    [("holding", .holding), ("input", .input)]
  let data_type ← get_enum j "data_type" DataType.uint16 path
    [("uint16", .uint16), ("int16", .int16), ("uint32", .uint32), ("int32", .int32),
      ("float32", .float32)]
  let word_order ← get_enum j "word_order" WordOrder.big path [("big", .big), ("little", .little)]
  let address : UInt16 ← get_int j "address" 0 path 0 65535
  require (¬ address.toNat + (register_count data_type).toNat > 65536) (join_path path "address")
    "value does not fit below register 65535"
  let scale ← get_number j "scale" 1 path
  let offset ← get_number j "offset" 0 path
  require (¬ scale = 0) (join_path path "scale") "must not be 0"
  let limits ← get_section j "limits" {} (parse_limits (join_path path "limits"))
  let detection ← get_section j "detection" default_detection
    (parse_detection · (join_path path "detection"))
  return { id, name, unit, register_type, data_type, word_order, address, scale, offset, limits,
           detection }

/-- The sensors of a device. -/
def parse_sensors (path : String) : Json → Except String (List SensorConfig)
  | .array [] => fail (join_path path "sensors") "expected a non-empty array"
  | .array list => parse_elements parse_sensor (path ++ ".sensors") list
  | _ => fail (join_path path "sensors") "expected a non-empty array"

/-- `parse_device`, with environment variables expanded in the host. -/
def parse_device (getenv : Environment) (d : Json) (path : String) :
    Except String ModbusDeviceConfig := do
  require d.is_object path "expected an object"
  let id ← get_string d "id" "" path
  require (is_valid_id id) (join_path path "id")
    ("'" ++ id ++ "' is not a valid id (1-64 characters: letters, digits, '_', '-', '.')")
  let host := expand_env getenv (← get_string d "host" "" path)
  require (¬ host.isEmpty) (join_path path "host") "is required"
  let port ← get_int d "port" 502 path 1 65535
  let unit_id ← get_int d "unit_id" 1 path 0 255
  let poll_interval_ms ← get_int d "poll_interval_ms" 1000 path 50 86400000
  let timeout_ms ← get_int d "timeout_ms" 3000 path 100 60000
  -- without a sensor list: one uint16 value in holding register 0 under the device's own id
  let shorthand : List SensorConfig := [{ id, name := id, detection := default_detection }]
  let sensors ← get_section d "sensors" shorthand (parse_sensors path)
  return { id, host, port, unit_id, poll_interval_ms, timeout_ms, sensors }

/-- One entry of a channel's `headers`. -/
def parse_header (getenv : Environment) (path : String) (header : String × Json) :
    Except String (String × String) :=
  match header.2 with
  | .string value => .ok (header.1, expand_env getenv value)
  | _ => fail (join_path path ("headers." ++ header.1)) "expected a string"

/-- The `headers` of a channel. -/
def parse_headers (getenv : Environment) (path : String) :
    Json → Except String (List (String × String))
  | .object items => items.mapM (parse_header getenv path)
  | _ => fail (join_path path "headers") "expected an object"

/-- `parse_channel`, with environment variables expanded in every text but the type. -/
def parse_channel (getenv : Environment) (j : Json) (path : String) :
    Except String NotificationChannelConfig := do
  require j.is_object path "expected an object"
  let type ← get_string j "type" "" path
  require (type = "telegram" ∨ type = "slack" ∨ type = "webhook") (join_path path "type")
    ("unknown channel '" ++ type ++ "' (expected telegram, slack or webhook)")
  let url := expand_env getenv (← get_string j "url" "" path)
  let bot_token := expand_env getenv (← get_string j "bot_token" "" path)
  let chat_id := expand_env getenv (← get_string j "chat_id" "" path)
  let headers ← get_section j "headers" [] (parse_headers getenv path)
  return { type, url, bot_token, chat_id, headers }

/-- `parse_notifications`. -/
def parse_notifications (getenv : Environment) (n : Json) : Except String NotificationsConfig := do
  require n.is_object "notifications" "expected an object"
  let language ← get_string n "language" "ru" "notifications"
  let dashboard_url := expand_env getenv (← get_string n "dashboard_url" "" "notifications")
  let min_severity ← get_enum n "min_severity" Severity.warning "notifications"
    [("warning", .warning), ("critical", .critical)]
  let channels ← get_section n "channels" []
    (parse_array (parse_channel getenv) "notifications.channels" "notifications.channels")
  return { language, dashboard_url, min_severity, channels }

/-- `parse_export`. -/
def parse_export (j : Json) : Except String ExportConfig := do
  let path := "export"
  require j.is_object path "expected an object"
  let e : ExportConfig := {}
  let enabled ← get_bool j "enabled" e.enabled path
  let directory ← get_string j "directory" e.directory path
  let queue_capacity ← get_int j "queue_capacity" e.queue_capacity path 16 16777216
  let batch_size ← get_int j "batch_size" e.batch_size path 1 1048576
  let flush_interval_ms ← get_int j "flush_interval_ms" e.flush_interval_ms path 10 3600000
  let segment_max_mb ← get_int j "segment_max_mb" e.segment_max_mb path 1 65536
  let max_total_mb ← get_int j "max_total_mb" e.max_total_mb path 0 16777216
  return { enabled, directory, queue_capacity, batch_size, flush_interval_ms, segment_max_mb,
           max_total_mb }

/-- The settings that stand directly in the document. -/
def parse_settings (getenv : Environment) (j : Json) : Except String AppConfig := do
  let cfg : AppConfig := {}
  let app_name ← get_string j "app_name" cfg.app_name ""
  let log_level ← get_string j "log_level" cfg.log_level ""
  let log_file ← get_string j "log_file" cfg.log_file ""
  let http_port ← get_int j "http_port" cfg.http_port "" 1 65535
  let ws_port ← get_int j "ws_port" cfg.ws_port "" 1 65535
  let worker_threads ← get_int j "worker_threads" cfg.worker_threads "" 1 256
  let web_root ← get_string j "web_root" cfg.web_root ""
  let data_dir ← get_string j "data_dir" cfg.data_dir ""
  let persistence_enabled ← get_bool j "persistence_enabled" cfg.persistence_enabled ""
  let retention_hours ← get_int j "retention_hours" cfg.retention_hours "" 1 87600
  let api_token := expand_env getenv (← get_string j "api_token" "" "")
  return { cfg with app_name, log_level, log_file, http_port, ws_port, worker_threads, web_root,
                    data_dir, persistence_enabled, retention_hours, api_token }

/-- The sections of the document besides its settings. -/
def parse_sections (getenv : Environment) (j : Json) (settings : AppConfig) :
    Except String AppConfig := do
  let devices ← get_section j "devices" [] (parse_array (parse_device getenv) "devices" "devices")
  let notifications ← get_section j "notifications" {} (parse_notifications getenv)
  let export_config ← get_section j "export" {} parse_export
  return { settings with devices, notifications, export_config }

/-! ## (4) Overrides and validation -/

/-- `channel_is_complete`: the channel has all that its type needs. -/
def channel_is_complete (c : NotificationChannelConfig) : Bool :=
  if c.type = "telegram" then !c.bot_token.isEmpty && !c.chat_id.isEmpty else !c.url.isEmpty

/-- The channels that the environment adds to those of the document. -/
def env_channels (getenv : Environment) : List NotificationChannelConfig :=
  ((getenv.env "IRONPULSE_TELEGRAM_BOT_TOKEN").toList.map fun token =>
      { type := "telegram", bot_token := token
        chat_id := (getenv.env "IRONPULSE_TELEGRAM_CHAT_ID").getD "" }) ++
    ((getenv.env "IRONPULSE_SLACK_WEBHOOK_URL").toList.map fun url =>
      { type := "slack", url }) ++
    ((getenv.env "IRONPULSE_WEBHOOK_URL").toList.map fun url => { type := "webhook", url })

/-- `apply_env_overrides`: an integer is replaced by whatever parses and fits its type. -/
def apply_env_overrides (getenv : Environment) (cfg : AppConfig) : AppConfig :=
  let env := getenv.env
  { cfg with
    http_port := parse_or (env "IRONPULSE_HTTP_PORT") cfg.http_port
    ws_port := parse_or (env "IRONPULSE_WS_PORT") cfg.ws_port
    log_level := (env "IRONPULSE_LOG_LEVEL").getD cfg.log_level
    log_file := (env "IRONPULSE_LOG_FILE").getD cfg.log_file
    web_root := (env "IRONPULSE_WEB_ROOT").getD cfg.web_root
    data_dir := (env "IRONPULSE_DATA_DIR").getD cfg.data_dir
    worker_threads := parse_or (env "IRONPULSE_WORKER_THREADS") cfg.worker_threads
    persistence_enabled :=
      parse_or_bool (env "IRONPULSE_PERSISTENCE_ENABLED") cfg.persistence_enabled
    retention_hours := parse_or (env "IRONPULSE_RETENTION_HOURS") cfg.retention_hours
    api_token := (env "IRONPULSE_API_TOKEN").getD cfg.api_token
    notifications :=
      { cfg.notifications with
        language := (env "IRONPULSE_NOTIFY_LANGUAGE").getD cfg.notifications.language
        dashboard_url := (env "IRONPULSE_PUBLIC_URL").getD cfg.notifications.dashboard_url
        channels := cfg.notifications.channels ++ env_channels getenv }
    export_config :=
      { cfg.export_config with
        enabled := parse_or_bool (env "IRONPULSE_EXPORT_ENABLED") cfg.export_config.enabled
        directory := (env "IRONPULSE_EXPORT_DIR").getD cfg.export_config.directory
        max_total_mb := parse_or (env "IRONPULSE_EXPORT_MAX_MB") cfg.export_config.max_total_mb
        segment_max_mb :=
          parse_or (env "IRONPULSE_EXPORT_SEGMENT_MB") cfg.export_config.segment_max_mb } }

/-- The ids of one device's sensors against those already seen. -/
def check_sensor_ids (i : Nat) : List String → List SensorConfig → Except String (List String)
  | seen, [] => .ok seen
  | seen, sensor :: sensors => do
      require (sensor.id ∉ seen) ("devices[" ++ toString i ++ "]")
        ("duplicate sensor id '" ++ sensor.id ++ "'")
      check_sensor_ids i (sensor.id :: seen) sensors

/-- Device ids and sensor ids are each pairwise distinct, from device number `i` on. -/
def check_ids : Nat → List String → List String → List ModbusDeviceConfig → Except String Unit
  | _, _, _, [] => .ok ()
  | i, device_ids, sensor_ids, device :: devices => do
      require (device.id ∉ device_ids) ("devices[" ++ toString i ++ "].id")
        ("duplicate device id '" ++ device.id ++ "'")
      let sensor_ids ← check_sensor_ids i sensor_ids device.sensors
      check_ids (i + 1) (device.id :: device_ids) sensor_ids devices

/-- The checks of `validate` on the export section. -/
def validate_export (exp : ExportConfig) : Except String Unit := do
  require (exp.queue_capacity &&& (exp.queue_capacity - 1) = 0) "export.queue_capacity"
    "must be a power of two (e.g. 4096, 65536)"
  require (¬ exp.batch_size > exp.queue_capacity) "export.batch_size"
    "must not exceed export.queue_capacity"
  require (¬ (exp.enabled ∧ exp.directory.isEmpty)) "export.directory"
    "must not be empty when export is enabled"
  require (exp.segment_max_mb ≠ 0) "export.segment_max_mb" "must be at least 1"
  require (¬ (exp.max_total_mb ≠ 0 ∧ exp.max_total_mb.toNat < 2 * exp.segment_max_mb.toNat))
    "export.max_total_mb"
    ("must be 0 (no limit) or at least twice export.segment_max_mb (" ++
      toString (2 * exp.segment_max_mb.toNat) ++ ")")

/-- `validate`: the checks on the overridden configuration. A channel without credentials is dropped
with a warning. -/
def validate (cfg : AppConfig) : Except String AppConfig := do
  require (cfg.log_level ∈ ["trace", "debug", "info", "warn", "error", "critical"]) "log_level"
    ("unknown value '" ++ cfg.log_level ++
      "' (expected trace, debug, info, warn, error or critical)")
  require (¬ (cfg.http_port = 0 ∨ cfg.ws_port = 0)) "http_port/ws_port"
    "ports must be between 1 and 65535"
  require (cfg.http_port ≠ cfg.ws_port) "ws_port" "must differ from http_port"
  require (¬ (cfg.worker_threads = 0 ∨ cfg.worker_threads > 256)) "worker_threads"
    "must be between 1 and 256"
  require (cfg.retention_hours ≠ 0) "retention_hours" "must be at least 1"
  check_ids 0 [] [] cfg.devices
  require (is_supported_language cfg.notifications.language) "notifications.language"
    ("unsupported language '" ++ cfg.notifications.language ++
      "' (expected ru, en, zh, hi, es, fr, de or it)")
  validate_export cfg.export_config
  let (complete, incomplete) := cfg.notifications.channels.partition channel_is_complete
  return { cfg with
    notifications := { cfg.notifications with channels := complete }
    warnings := cfg.warnings ++ incomplete.map fun c =>
      "notification channel '" ++ c.type ++ "' is missing its URL or credentials and was disabled" }

/-! ## (5) Loading -/

/-- How the JSON library refuses a text: `parse_error`, which the loader rewords, or another
exception such as a number out of range, which passes through. -/
inductive JsonError where
  | parse_error (what : String)
  | other (what : String)
  deriving DecidableEq

/-- `parse`: the configuration that a JSON value describes in an environment. -/
def parse (getenv : Environment) (j : Json) : Except String AppConfig := do
  require j.is_object "(root)" "expected a JSON object"
  let settings ← parse_settings getenv j
  let document ← parse_sections getenv j settings
  validate (apply_env_overrides getenv document)

/-- `AppConfig::load_from_string`, for the library's `json::parse`. -/
def load_from_string (json_parse : String → Except JsonError Json) (getenv : Environment)
    (json_text : String) : Except String AppConfig :=
  match json_parse json_text with
  | .error (.parse_error what) => .error ("config: invalid JSON: " ++ what)
  | .error (.other what) => .error what
  | .ok j => parse getenv j

/-! ## (6) What loading accepts -/

/-- A check is passed exactly when its condition holds. -/
@[simp] theorem require_eq_ok {ok : Prop} [Decidable ok] {path problem : String} {u : Unit} :
    require ok path problem = .ok u ↔ ok := by
  unfold require fail
  by_cases h : ok
  · simp [h]
  · simp [h]

/-- Validation drops channels and adds warnings, and leaves the rest as it is. -/
theorem validate_eq_ok {cfg valid : AppConfig} (h : validate cfg = .ok valid) :
    valid = { cfg with
      notifications :=
        { cfg.notifications with
          channels := cfg.notifications.channels.filter channel_is_complete }
      warnings := valid.warnings } := by
  simp only [validate, bind_eq_ok] at h
  obtain ⟨_, -, _, -, _, -, _, -, _, -, _, -, _, -, _, -, h⟩ := h
  rw [List.partition_eq_filter_filter] at h
  cases h
  rfl

/-- The retention period that the document sets. -/
theorem retention_hours_of_parse_settings {getenv : Environment} {j : Json} {settings : AppConfig}
    (h : parse_settings getenv j = .ok settings) :
    1 ≤ settings.retention_hours.toNat ∧ settings.retention_hours.toNat ≤ 87600 := by
  simp only [parse_settings, bind_eq_ok] at h
  obtain ⟨_, -, _, -, _, -, _, -, _, -, _, -, _, -, _, -, _, -, hours, hhours, _, -, h⟩ := h
  have hsettings : settings.retention_hours = hours := by
    cases h
    rfl
  rw [hsettings]
  exact get_int_in_range (by decide) (by decide) hhours

/-- The sections leave the settings as they are. -/
theorem retention_hours_of_parse_sections {getenv : Environment} {j : Json}
    {settings document : AppConfig} (h : parse_sections getenv j settings = .ok document) :
    document.retention_hours = settings.retention_hours := by
  simp only [parse_sections, bind_eq_ok] at h
  obtain ⟨_, -, _, -, _, -, h⟩ := h
  cases h
  rfl

/-- **What loading goes through**: the settings of the document, its sections, the overrides and the
checks. -/
theorem load_eq_ok {json_parse : String → Except JsonError Json} {getenv : Environment}
    {json_text : String} {cfg : AppConfig}
    (h : load_from_string json_parse getenv json_text = .ok cfg) :
    ∃ j settings document, json_parse json_text = .ok j ∧
      parse_settings getenv j = .ok settings ∧ parse_sections getenv j settings = .ok document ∧
      validate (apply_env_overrides getenv document) = .ok cfg := by
  unfold load_from_string at h
  split at h
  · cases h
  · cases h
  · rename_i j hparse
    simp only [parse, bind_eq_ok] at h
    obtain ⟨_, -, settings, hsettings, document, hdocument, hvalid⟩ := h
    exact ⟨j, settings, document, hparse, hsettings, hdocument, hvalid⟩

/-- **Where the loaded retention period comes from**: the document's, which is within ten years,
unless the environment's parses and fits, which is only known to be positive. -/
theorem retention_hours_of_load {json_parse : String → Except JsonError Json}
    {getenv : Environment} {json_text : String} {cfg : AppConfig}
    (h : load_from_string json_parse getenv json_text = .ok cfg) :
    ∃ hours : UInt32, (1 ≤ hours.toNat ∧ hours.toNat ≤ 87600) ∧
      cfg.retention_hours = parse_or (getenv.env "IRONPULSE_RETENTION_HOURS") hours := by
  obtain ⟨_, settings, document, -, hsettings, hdocument, hvalid⟩ := load_eq_ok h
  refine ⟨settings.retention_hours, retention_hours_of_parse_settings hsettings, ?_⟩
  rw [validate_eq_ok hvalid, ← retention_hours_of_parse_sections hdocument]
  rfl

/-- What loading promises of the `export` section. -/
structure ExportConfig.Valid (e : ExportConfig) : Prop where
  queue_capacity : 16 ≤ e.queue_capacity.toNat ∧ e.queue_capacity.toNat ≤ 16777216
  batch_size : 1 ≤ e.batch_size.toNat ∧ e.batch_size.toNat ≤ 1048576
  flush_interval_ms : 10 ≤ e.flush_interval_ms.toNat ∧ e.flush_interval_ms.toNat ≤ 3600000
  checked : validate_export e = .ok ()

/-- The numbers that neither the environment nor `validate` changes. -/
theorem export_ranges_of_parse_export {j : Json} {e : ExportConfig} (h : parse_export j = .ok e) :
    (16 ≤ e.queue_capacity.toNat ∧ e.queue_capacity.toNat ≤ 16777216) ∧
      (1 ≤ e.batch_size.toNat ∧ e.batch_size.toNat ≤ 1048576) ∧
      (10 ≤ e.flush_interval_ms.toNat ∧ e.flush_interval_ms.toNat ≤ 3600000) := by
  simp only [parse_export, bind_eq_ok] at h
  obtain ⟨_, -, _, -, _, -, capacity, hcapacity, batch, hbatch, flush, hflush, _, -, _, -, h⟩ := h
  cases h
  exact ⟨get_int_in_range (by decide) (by decide) hcapacity,
    get_int_in_range (by decide) (by decide) hbatch,
    get_int_in_range (by decide) (by decide) hflush⟩

/-- A valid configuration has a valid export section. -/
theorem validate_export_of_validate {cfg valid : AppConfig} (h : validate cfg = .ok valid) :
    validate_export cfg.export_config = .ok () := by
  simp only [validate, bind_eq_ok] at h
  obtain ⟨_, -, _, -, _, -, _, -, _, -, _, -, _, -, _, hexport, -⟩ := h
  exact hexport

/-- **A loaded configuration has a valid `export` section.** -/
theorem export_valid_of_load {json_parse : String → Except JsonError Json}
    {getenv : Environment} {json_text : String} {cfg : AppConfig}
    (h : load_from_string json_parse getenv json_text = .ok cfg) : cfg.export_config.Valid := by
  obtain ⟨_, settings, document, -, -, hdocument, hvalid⟩ := load_eq_ok h
  have hchecked := validate_export_of_validate hvalid
  rw [validate_eq_ok hvalid]
  simp only [parse_sections, bind_eq_ok] at hdocument
  obtain ⟨_, -, _, -, e, he, hdocument⟩ := hdocument
  have hranges : (16 ≤ e.queue_capacity.toNat ∧ e.queue_capacity.toNat ≤ 16777216) ∧
      (1 ≤ e.batch_size.toNat ∧ e.batch_size.toNat ≤ 1048576) ∧
      (10 ≤ e.flush_interval_ms.toNat ∧ e.flush_interval_ms.toNat ≤ 3600000) := by
    unfold get_section at he
    -- without the section the defaults stand, which are in range; with it each one was checked
    split at he
    · cases he
      decide
    · exact export_ranges_of_parse_export he
  cases hdocument
  exact ⟨hranges.1, hranges.2.1, hranges.2.2, hchecked⟩

end Ironpulse.Core
