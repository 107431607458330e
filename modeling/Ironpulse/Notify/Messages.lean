import Ironpulse.Analytics.RuleEngine

/-! # Notifications

`src/notify/messages.cpp`: an alert or a change of a device's status is described in a form that any
channel can send.

* **`Wording`**: the localized texts.
* **`describe_alert`, `describe_device_status`**: the notifications. -/

namespace Ironpulse.Notify

open Core (TimePoint Severity)
open Analytics (AnomalyEvent)

/-- What makes a notification readable: "Winding temperature" and not "transformer_temp_01". -/
structure SensorInfo where
  name : String := ""
  unit : String := ""
  device_id : String := ""
  deriving DecidableEq

/-- What a notification is about. -/
inductive NotificationType where
  | alert
  | device_offline
  | device_online
  deriving DecidableEq

/-- An event in a form that does not depend on the channel. -/
structure Notification (F : Type) where
  type : NotificationType := .alert
  severity : Severity := .warning
  /-- One line. -/
  title : String := ""
  /-- The whole message. -/
  text : String := ""
  timestamp : TimePoint := 0
  /-- Empty for device notifications. -/
  sensor_id : String := ""
  device_id : String := ""
  alert : Option (AnomalyEvent F) := none

/-- Title and text of the two kinds of notifications, from the catalog of a language. -/
structure Wording (F : Type) where
  alert : (language : String) → AnomalyEvent F → SensorInfo → (dashboard_url : String) →
    String × String
  device_status : (language : String) → (device_id : String) → (online : Bool) → TimePoint →
    (dashboard_url : String) → String × String

variable {F : Type}

/-- `describe_alert`. -/
def describe_alert (W : Wording F) (alert : AnomalyEvent F) (sensor : SensorInfo)
    (language dashboard_url : String) : Notification F where
  type := .alert
  severity := alert.severity
  title := (W.alert language alert sensor dashboard_url).1
  text := (W.alert language alert sensor dashboard_url).2
  timestamp := alert.timestamp
  sensor_id := alert.sensor_id
  device_id := sensor.device_id
  alert := some alert

/-- `describe_device_status`. -/
def describe_device_status (W : Wording F) (device_id : String) (online : Bool)
    (timestamp : TimePoint) (language dashboard_url : String) : Notification F where
  type := if online then .device_online else .device_offline
  severity := if online then .warning else .critical
  title := (W.device_status language device_id online timestamp dashboard_url).1
  text := (W.device_status language device_id online timestamp dashboard_url).2
  timestamp := timestamp
  device_id := device_id

end Ironpulse.Notify
