import Ironpulse.Lib.DropOldest
import Ironpulse.Lib.StepMachine
import Ironpulse.Notify.Messages
import Mathlib.Data.List.Nodup

/-! # The notifier

`src/notify/notifier.cpp`: threads put notifications into a bounded queue, and a worker takes them out
and delivers each to every channel. A call of a thread is two critical sections, the second one in
`enqueue`; between any two sections the others may run.

* **`Worker`**: what the worker does, with the attempts of a delivery.
* **`Notifier`**, **`Notifier.step`**: the machine whose runs are the interleavings of the threads, the
  worker, the transport and `stop`.
* **`QueueDiscipline`**, **`QueueStep`**: what holds in every state and of every step.
* **`alongRun_queueDiscipline`**: nothing is lost, doubled or reordered but what a full queue drops. -/

namespace Ironpulse.Notify

open Core (TimePoint Seconds Milliseconds milliseconds_to_nanoseconds seconds_to_nanoseconds
  Severity NotificationsConfig NotificationChannelConfig)
open Analytics (AnomalyEvent)
open StepMachine

/-! ## (1) The machine -/

/-- The bound of the queue. -/
def kMaxQueue : Nat := 1000

/-- How often one delivery is tried. -/
def kMaxAttempts : Nat := 3

/-- A queued notification. Two that say the same are told apart by `number`, their place among all
that were queued. -/
structure Entry (F : Type) where
  number : Nat
  notification : Notification F

/-- What the worker does. -/
inductive Worker (F : Type) where
  /-- `start()` started no worker, as there is no channel. -/
  | absent
  /-- It is before or in `cv_.wait`. -/
  | waiting
  /-- The transport runs for the first of the channels. -/
  | attempting (next : Entry F) (channel : NotificationChannelConfig)
      (rest : List NotificationChannelConfig) (attempt : Nat) (backoff : Seconds)
  /-- It waits until `retry_at` before the next attempt. -/
  | backing_off (next : Entry F) (channel : NotificationChannelConfig)
      (rest : List NotificationChannelConfig) (attempt : Nat) (backoff : Seconds)
      (retry_at : TimePoint)
  | exited

/-- The members of the class, the calls in progress, the worker and what it did. -/
structure Notifier (F : Type) where
  config_ : NotificationsConfig
  sensors_ : String → Option SensorInfo
  wording : Wording F
  queue_ : DropOldest (Entry F) := {}
  stopping_ : Bool := false
  drain_deadline_ : TimePoint := 0
  notified_offline_ : String → Bool := fun _ => false
  /-- `steady_clock::now()`. -/
  now : TimePoint := 0
  /-- The calls that are about to run `enqueue`, in the order of their first sections. -/
  calling : List (Notification F) := []
  worker : Worker F
  /-- The calls of `deliver`, first to last. -/
  delivered : List (Entry F × NotificationChannelConfig) := []
  /-- The calls of `on_result_`. -/
  results : List (String × Bool) := []

/-- What happens next. -/
inductive NotifierEvent (F : Type) where
  /-- Time passes. -/
  | tick (now : TimePoint)
  | on_alert (alert : AnomalyEvent F)
  | on_device_status (device_id : String) (online : Bool) (timestamp : TimePoint)
  /-- A call in progress runs `enqueue`. -/
  | enqueue (i : Nat)
  | stop (drain_timeout : Milliseconds)
  /-- The worker passes `cv_.wait`. -/
  | wake
  /-- The transport returns this status. -/
  | respond (status : Int)
  /-- `cv_.wait_for` returns. -/
  | retry

namespace Notifier

variable {F : Type}

/-- There is somebody to notify. -/
def enabled (s : Notifier F) : Bool := !s.config_.channels.isEmpty

/-- `alert.severity < config_.min_severity`. -/
def below_min_severity (s : Notifier F) (severity : Severity) : Bool :=
  severity = .warning ∧ s.config_.min_severity = .critical

/-- An alert below the configured severity is not worth a message. -/
def on_alert (s : Notifier F) (alert : AnomalyEvent F) : Notifier F :=
  if !s.enabled || s.below_min_severity alert.severity then s
  else
    let info := (s.sensors_ alert.sensor_id).getD {}
    { s with calling := s.calling ++
        [describe_alert s.wording alert info s.config_.language s.config_.dashboard_url] }

/-- The first section of `on_device_status`: a status that says nothing new goes no further. -/
def on_device_status (s : Notifier F) (device_id : String) (online : Bool)
    (timestamp : TimePoint) : Notifier F :=
  if !s.enabled then s
  else
    let was_reported_offline := s.notified_offline_ device_id
    if online && !was_reported_offline then s
    else if !online && was_reported_offline then s
    else
      { s with
        notified_offline_ := Function.update s.notified_offline_ device_id (!online)
        calling := s.calling ++ [describe_device_status s.wording device_id online timestamp
          s.config_.language s.config_.dashboard_url] }

/-- The section of `enqueue`. -/
def enqueue (s : Notifier F) (notification : Notification F) : Notifier F :=
  if s.stopping_ then s
  else
    { s with queue_ := s.queue_.push kMaxQueue ⟨s.queue_.entered.length, notification⟩ }

/-- The first call of `stop` sets the deadline; the others change nothing. -/
def stop (s : Notifier F) (drain_timeout : Milliseconds) : Notifier F :=
  if s.stopping_ then s
  else
    { s with
      stopping_ := true
      drain_deadline_ := s.now + milliseconds_to_nanoseconds drain_timeout }

/-- `stopping_ && now() >= drain_deadline_`. -/
def past_deadline (s : Notifier F) : Bool := s.stopping_ && decide (s.drain_deadline_ ≤ s.now)

/-- The loop over the channels: `deliver` is called for the next one, if there is one. -/
def deliver_next (s : Notifier F) (next : Entry F) :
    List NotificationChannelConfig → Notifier F
  | [] => { s with worker := .waiting }
  | channel :: rest =>
      { s with
        worker := .attempting next channel rest 1 1
        delivered := s.delivered ++ [(next, channel)] }

/-- `deliver` returned. -/
def deliver_done (s : Notifier F) (next : Entry F) (channel : NotificationChannelConfig)
    (rest : List NotificationChannelConfig) (ok : Bool) : Notifier F :=
  { s with results := s.results ++ [(channel.type, ok)] }.deliver_next next rest

/-- The worker behind `cv_.wait`, whose predicate holds: it takes the oldest notification or ends. -/
def wake (s : Notifier F) : Option (Notifier F) :=
  match s.worker with
  | .waiting =>
      if s.stopping_ || !s.queue_.items.isEmpty then
        match s.queue_.items with
        | [] => some { s with worker := .exited }
        | next :: _ =>
            if s.past_deadline then some { s with worker := .exited }
            else some ({ s with queue_ := s.queue_.take }.deliver_next next s.config_.channels)
      else none
  | _ => none

/-- `deliver` behind a call of the transport. -/
def respond (s : Notifier F) (status : Int) : Option (Notifier F) :=
  match s.worker with
  | .attempting next channel rest attempt backoff =>
      if 200 ≤ status ∧ status < 300 then some (s.deliver_done next channel rest true)
      else if 400 ≤ status ∧ status < 500 ∧ status ≠ 429 then
        some (s.deliver_done next channel rest false)
      else if attempt = kMaxAttempts then some (s.deliver_done next channel rest false)
      else
        let retry_at := s.now + seconds_to_nanoseconds backoff
        some { s with worker := .backing_off next channel rest attempt backoff retry_at }
  | _ => none

/-- `deliver` behind the wait between two attempts. -/
def retry (s : Notifier F) : Option (Notifier F) :=
  match s.worker with
  | .backing_off next channel rest attempt backoff retry_at =>
      if s.past_deadline then some (s.deliver_done next channel rest false)
      else if retry_at ≤ s.now then
        some { s with worker := .attempting next channel rest (attempt + 1) (backoff * 2) }
      else none
  | _ => none

/-- One event. -/
def step (s : Notifier F) : NotifierEvent F → Option (Notifier F)
  | .tick now => if s.now ≤ now then some { s with now } else none
  | .on_alert alert => some (s.on_alert alert)
  | .on_device_status device_id online timestamp =>
      some (s.on_device_status device_id online timestamp)
  | .enqueue i =>
      s.calling[i]?.map fun notification =>
        { s with calling := s.calling.eraseIdx i }.enqueue notification
  | .stop drain_timeout => some (s.stop drain_timeout)
  | .wake => s.wake
  | .respond status => s.respond status
  | .retry => s.retry

/-- After `start()`: there is a worker if there is a channel. -/
def started (config : NotificationsConfig) (sensors : String → Option SensorInfo)
    (W : Wording F) : Notifier F where
  config_ := config
  sensors_ := sensors
  wording := W
  worker := if config.channels.isEmpty then .absent else .waiting

/-! ## (2) The invariant of the queue -/

/-- The calls of `deliver` that the worker still makes for the notification it has taken. -/
def remaining (s : Notifier F) : List (Entry F × NotificationChannelConfig) :=
  match s.worker with
  | .attempting next _ rest _ _ | .backing_off next _ rest _ _ _ => rest.map fun c => (next, c)
  | _ => []

/-- What the runs of the notifier keep. -/
structure QueueInv (s : Notifier F) : Prop where
  queue : s.queue_.Inv kMaxQueue
  /-- The entries are numbered as they enter. -/
  numbers : s.queue_.entered.map Entry.number = List.range s.queue_.entered.length
  /-- Every notification that was taken is delivered to all channels, in their order. -/
  channels : s.delivered ++ s.remaining =
    s.queue_.taken.flatMap fun next => s.config_.channels.map fun channel => (next, channel)
  /-- The worker ends after `stop()`, with an empty queue or after the deadline. -/
  exited : s.worker = .exited →
    s.stopping_ = true ∧ (s.queue_.items = [] ∨ s.drain_deadline_ ≤ s.now)

variable {s t : Notifier F}

/-- A new notifier has queued nothing. -/
theorem queueInv_started (config : NotificationsConfig) (sensors : String → Option SensorInfo)
    (W : Wording F) : QueueInv (started config sensors W) := by
  refine ⟨DropOldest.inv_empty _, rfl, ?_, ?_⟩
  · unfold remaining started
    by_cases hempty : config.channels.isEmpty
    · simp [hempty]
    · simp [hempty]
  · intro hexited
    unfold started at hexited
    dsimp only at hexited
    split at hexited
    · cases hexited
    · cases hexited

/-- What neither the queue nor the worker sees keeps the invariant. -/
theorem QueueInv.congr (h : QueueInv s) (hconfig : t.config_ = s.config_)
    (hqueue : t.queue_ = s.queue_)
    (hworker : t.worker = s.worker) (hdelivered : t.delivered = s.delivered)
    (hexited : t.worker = .exited →
      t.stopping_ = true ∧ (t.queue_.items = [] ∨ t.drain_deadline_ ≤ t.now)) : QueueInv t := by
  have hremaining : t.remaining = s.remaining := by
    unfold remaining
    rw [hworker]
  exact ⟨hqueue ▸ h.queue, by rw [hqueue]; exact h.numbers,
    by rw [hqueue, hdelivered, hremaining, hconfig]; exact h.channels, hexited⟩

/-- An entry is numbered by the entries before it. -/
theorem queueInv_enqueue (h : QueueInv s) (notification : Notification F) :
    QueueInv (s.enqueue notification) := by
  unfold enqueue
  by_cases hstopping : s.stopping_
  · rwa [if_pos hstopping]
  · rw [if_neg hstopping]
    refine ⟨h.queue.push (by decide), ?_, ?_, ?_⟩
    · simp only [DropOldest.entered_push, List.map_append, List.map_cons, List.map_nil,
        List.length_append, List.length_singleton, List.range_succ, h.numbers]
    · simp only [DropOldest.taken_push]
      exact h.channels
    · intro hexited
      exact absurd (h.exited hexited).1 hstopping

/-- The loop over the channels goes on with the remaining ones. -/
theorem queueInv_deliver_next {next : Entry F} {rest : List NotificationChannelConfig}
    (hqueue : s.queue_.Inv kMaxQueue)
    (hnumbers : s.queue_.entered.map Entry.number = List.range s.queue_.entered.length)
    (hchannels : s.delivered ++ rest.map (fun c => (next, c)) =
      s.queue_.taken.flatMap fun next => s.config_.channels.map fun channel => (next, channel)) :
    QueueInv (s.deliver_next next rest) := by
  cases rest with
  | nil => exact ⟨hqueue, hnumbers, hchannels, fun hexited => by cases hexited⟩
  | cons channel rest =>
      refine ⟨hqueue, hnumbers, ?_, fun hexited => by cases hexited⟩
      exact (List.append_assoc _ _ _).trans hchannels

/-- The end of a delivery. -/
theorem QueueInv.deliver_done {next : Entry F} {channel : NotificationChannelConfig}
    {rest : List NotificationChannelConfig} {ok : Bool} (h : QueueInv s)
    (hremaining : s.remaining = rest.map fun c => (next, c)) :
    QueueInv (s.deliver_done next channel rest ok) := by
  apply queueInv_deliver_next
  · exact h.queue
  · exact h.numbers
  · rw [← hremaining]
    exact h.channels

/-- The worker wakes up: it ends, or takes the oldest notification of the queue. -/
theorem QueueInv.wake (h : QueueInv s) (hstep : s.wake = some t) : QueueInv t := by
  unfold Notifier.wake at hstep
  split at hstep
  · rename_i hworker
    obtain ⟨hpredicate, hstep⟩ := Option.ite_none_right_eq_some.mp hstep
    have hremaining : s.remaining = [] := by
      unfold remaining
      rw [hworker]
    split at hstep
    · -- the queue is empty, so `stop()` was called
      rename_i hempty
      obtain rfl := Option.some.inj hstep
      have hchannels := h.channels
      rw [hremaining] at hchannels
      refine ⟨h.queue, h.numbers, hchannels, fun _ => ⟨?_, .inl hempty⟩⟩
      simpa [hempty] using hpredicate
    · rename_i next items hitems
      split at hstep
      · -- the deadline has passed
        rename_i hpast
        obtain rfl := Option.some.inj hstep
        have hchannels := h.channels
        rw [hremaining] at hchannels
        rw [past_deadline, Bool.and_eq_true, decide_eq_true_iff] at hpast
        exact ⟨h.queue, h.numbers, hchannels, fun _ => ⟨hpast.1, .inr hpast.2⟩⟩
      · -- the oldest notification is taken
        obtain rfl := Option.some.inj hstep
        apply queueInv_deliver_next
        · exact h.queue.take
        · exact h.numbers
        · have hchannels := h.channels
          rw [hremaining, List.append_nil] at hchannels
          simp only [DropOldest.take, hitems, List.take_succ_cons, List.take_zero,
            List.flatMap_append, List.flatMap_singleton, hchannels]
  · cases hstep

/-- A channel responds: the delivery to it ends, or is tried again later. -/
theorem QueueInv.respond {status : Int} (h : QueueInv s) (hstep : s.respond status = some t) :
    QueueInv t := by
  unfold Notifier.respond at hstep
  split at hstep
  · rename_i next channel rest attempt backoff hworker
    have hremaining : s.remaining = rest.map fun c => (next, c) := by
      unfold remaining
      rw [hworker]
    -- sent, refused, given up, or tried again later
    split_ifs at hstep with hok hwrong hlast
    · obtain rfl := Option.some.inj hstep
      exact h.deliver_done hremaining
    · obtain rfl := Option.some.inj hstep
      exact h.deliver_done hremaining
    · obtain rfl := Option.some.inj hstep
      exact h.deliver_done hremaining
    · obtain rfl := Option.some.inj hstep
      have hchannels := h.channels
      rw [hremaining] at hchannels
      exact ⟨h.queue, h.numbers, hchannels, fun hexited => by cases hexited⟩
  · cases hstep

/-- The wait between two attempts ends: the delivery is given up or tried again. -/
theorem QueueInv.retry (h : QueueInv s) (hstep : s.retry = some t) : QueueInv t := by
  unfold Notifier.retry at hstep
  split at hstep
  · -- the attempts are used up, or the wait is over
    rename_i next channel rest attempt backoff retry_at hworker
    have hremaining : s.remaining = rest.map fun c => (next, c) := by
      unfold remaining
      rw [hworker]
    split_ifs at hstep with hpast hdue
    · obtain rfl := Option.some.inj hstep
      exact h.deliver_done hremaining
    · obtain rfl := Option.some.inj hstep
      have hchannels := h.channels
      rw [hremaining] at hchannels
      exact ⟨h.queue, h.numbers, hchannels, fun hexited => by cases hexited⟩
  · cases hstep

/-- **One event keeps the invariant.** -/
theorem queueInv_step {e : NotifierEvent F} (h : QueueInv s) (hstep : s.step e = some t) :
    QueueInv t := by
  cases e with
  | tick now =>
      obtain ⟨hlater, hstep⟩ := Option.ite_none_right_eq_some.mp hstep
      obtain rfl := Option.some.inj hstep
      -- the time only moves on, and the deadline stays behind it
      refine h.congr rfl rfl rfl rfl fun hexited => ?_
      obtain ⟨hstopping, hend⟩ := h.exited hexited
      exact ⟨hstopping, hend.imp_right fun hdeadline => Int64.le_trans hdeadline hlater⟩
  | on_alert alert =>
      obtain rfl := Option.some.inj hstep
      -- describing and remembering a status touch neither the queue nor the worker
      unfold on_alert
      split
      · exact h
      · exact h.congr rfl rfl rfl rfl h.exited
  | on_device_status device_id online timestamp =>
      obtain rfl := Option.some.inj hstep
      unfold on_device_status
      split
      · exact h
      · dsimp only
        split
        · exact h
        · split
          · exact h
          · exact h.congr rfl rfl rfl rfl h.exited
  | enqueue i =>
      obtain ⟨notification, -, rfl⟩ := Option.map_eq_some_iff.mp hstep
      have hcalling : QueueInv { s with calling := s.calling.eraseIdx i } :=
        h.congr rfl rfl rfl rfl h.exited
      exact queueInv_enqueue hcalling notification
  | stop drain_timeout =>
      obtain rfl := Option.some.inj hstep
      unfold stop
      by_cases hstopping : s.stopping_
      · rwa [if_pos hstopping]
      · rw [if_neg hstopping]
        -- before the stop the worker has not exited
        refine h.congr rfl rfl rfl rfl fun hexited => ?_
        exact absurd (h.exited hexited).1 hstopping
  | wake => exact h.wake hstep
  | respond status => exact h.respond hstep
  | retry => exact h.retry hstep

/-- What holds of the queue and the worker in every state: the notifications that were taken are in
the order in which they entered, none twice, and each is handed to `deliver` once for each channel,
in the order of the channels, as far as the worker has come; the queue is bounded; what entered was
taken, was dropped or is still in the queue; and the worker has ended only if `stop()` was called,
with notifications in the queue only if the deadline has passed. -/
structure QueueDiscipline (s : Notifier F) : Prop where
  order : s.queue_.taken.Sublist s.queue_.entered
  once : s.queue_.entered.Nodup
  channels : s.delivered ++ s.remaining =
    s.queue_.taken.flatMap fun next => s.config_.channels.map fun channel => (next, channel)
  bounded : s.queue_.items.length ≤ kMaxQueue
  fate : s.queue_.entered.Perm (s.queue_.taken ++ (s.queue_.dropped ++ s.queue_.items))
  exited : s.worker = .exited →
    s.stopping_ = true ∧ (s.queue_.items = [] ∨ s.drain_deadline_ ≤ s.now)

/-- The invariant is what the discipline promises of a state. -/
theorem QueueInv.queueDiscipline (h : QueueInv s) : QueueDiscipline s where
  order := (List.sublist_append_left _ _).trans h.queue.order
  once := by
    apply List.Nodup.of_map Entry.number
    rw [h.numbers]
    exact List.nodup_range
  channels := h.channels
  bounded := h.queue.bounded
  fate := h.queue.fate
  exited := h.exited

/-! ## (3) What one step does -/

/-- The notifications that an event puts into the queue: one for each `enqueue` that runs before
`stop()`. -/
def enters (s : Notifier F) : NotifierEvent F → List (Notification F)
  | .enqueue i => if s.stopping_ then [] else s.calling[i]?.toList
  | _ => []

/-- What one step may do: an `enqueue` before `stop()` enters its notification and nothing else does,
a notification is dropped only as the oldest one of a full queue, each call of `deliver` starts with
a first attempt, and once the worker has ended nothing changes any more. -/
structure QueueStep (s : Notifier F) (e : NotifierEvent F) (t : Notifier F) : Prop where
  entered : t.queue_.entered.map Entry.notification =
    s.queue_.entered.map Entry.notification ++ s.enters e
  dropped : t.queue_.dropped = s.queue_.dropped ∨
    s.queue_.items.length = kMaxQueue ∧
      t.queue_.dropped = s.queue_.dropped ++ s.queue_.items.take 1
  handed : t.delivered = s.delivered ∨ ∃ next channel rest,
    t.delivered = s.delivered ++ [(next, channel)] ∧ t.worker = .attempting next channel rest 1 1
  ended : s.worker = .exited → t.worker = .exited ∧ t.queue_ = s.queue_

section Steps

variable {e : NotifierEvent F}

/-- A step that leaves the queue and the worker's calls alone. -/
theorem QueueStep.of_queue_eq (henters : s.enters e = []) (hqueue : t.queue_ = s.queue_)
    (hdelivered : t.delivered = s.delivered)
    (hworker : s.worker = .exited → t.worker = .exited) : QueueStep s e t where
  entered := by rw [henters, hqueue, List.append_nil]
  dropped := .inl (by rw [hqueue])
  handed := .inl hdelivered
  ended := fun hexited => ⟨hworker hexited, hqueue⟩

/-- A step of a worker that has not ended. -/
theorem QueueStep.of_working (henters : s.enters e = []) (hworker : s.worker ≠ .exited)
    (hentered : t.queue_.entered = s.queue_.entered)
    (hdropped : t.queue_.dropped = s.queue_.dropped)
    (hhanded : t.delivered = s.delivered ∨ ∃ next channel rest,
      t.delivered = s.delivered ++ [(next, channel)] ∧
        t.worker = .attempting next channel rest 1 1) : QueueStep s e t where
  entered := by rw [henters, hentered, List.append_nil]
  dropped := .inl hdropped
  handed := hhanded
  ended := fun hexited => absurd hexited hworker

/-- The loop over the channels does not touch the queue. -/
theorem queue_deliver_next (s : Notifier F) (next : Entry F)
    (channels : List NotificationChannelConfig) :
    (s.deliver_next next channels).queue_ = s.queue_ := by
  cases channels <;> rfl

/-- The loop over the channels ends or hands the notification to the next one. -/
theorem handed_deliver_next (s : Notifier F) (next : Entry F)
    (channels : List NotificationChannelConfig) :
    (s.deliver_next next channels).delivered = s.delivered ∨ ∃ next' channel rest,
      (s.deliver_next next channels).delivered = s.delivered ++ [(next', channel)] ∧
        (s.deliver_next next channels).worker = .attempting next' channel rest 1 1 := by
  cases channels with
  | nil => exact .inl rfl
  | cons channel rest => exact .inr ⟨next, channel, rest, rfl, rfl⟩

/-- The end of a delivery is a step of the worker. -/
theorem queueStep_deliver_done {next : Entry F} {channel : NotificationChannelConfig}
    {rest : List NotificationChannelConfig} {ok : Bool} (henters : s.enters e = [])
    (hworker : s.worker ≠ .exited) : QueueStep s e (s.deliver_done next channel rest ok) := by
  have hqueue : (s.deliver_done next channel rest ok).queue_ = s.queue_ :=
    queue_deliver_next _ next rest
  exact .of_working henters hworker (by rw [hqueue]) (by rw [hqueue])
    (handed_deliver_next _ next rest)

/-- An alert leads at most to a call. -/
theorem queueStep_on_alert (alert : AnomalyEvent F) :
    QueueStep s (.on_alert alert) (s.on_alert alert) := by
  unfold on_alert
  split
  · exact .of_queue_eq rfl rfl rfl id
  · exact .of_queue_eq rfl rfl rfl id

/-- So does a status. -/
theorem queueStep_on_device_status (device_id : String) (online : Bool) (timestamp : TimePoint) :
    QueueStep s (.on_device_status device_id online timestamp)
      (s.on_device_status device_id online timestamp) := by
  unfold on_device_status
  dsimp only
  split_ifs
  all_goals exact .of_queue_eq rfl rfl rfl id

/-- An `enqueue` enters its notification, for which a full queue drops its oldest one. -/
theorem queueStep_enqueue {i : Nat} {n : Notification F} (h : QueueInv s)
    (hn : s.calling[i]? = some n) :
    QueueStep s (.enqueue i) ({ s with calling := s.calling.eraseIdx i }.enqueue n) := by
  unfold enqueue
  by_cases hstopping : s.stopping_
  · rw [if_pos hstopping]
    exact .of_queue_eq (if_pos hstopping) rfl rfl id
  · rw [if_neg hstopping]
    refine ⟨?_, ?_, .inl rfl, fun hexited => absurd (h.exited hexited).1 hstopping⟩
    · rw [enters, if_neg hstopping, hn, DropOldest.entered_push, List.map_append]
      rfl
    · -- the bound holds before the push, so a full queue has exactly that many entries
      dsimp only
      unfold DropOldest.push
      by_cases hfull : kMaxQueue ≤ s.queue_.items.length
      · rw [if_pos hfull]
        exact .inr ⟨Nat.le_antisymm h.queue.bounded hfull, rfl⟩
      · rw [if_neg hfull]
        exact .inl rfl

/-- `stop()` leaves the queue to the worker. -/
theorem queueStep_stop (drain_timeout : Milliseconds) :
    QueueStep s (.stop drain_timeout) (s.stop drain_timeout) := by
  unfold stop
  split
  · exact .of_queue_eq rfl rfl rfl id
  · exact .of_queue_eq rfl rfl rfl id

/-- The worker wakes up: it ends, or hands the oldest notification to the first channel. -/
theorem queueStep_wake (hstep : s.wake = some t) : QueueStep s .wake t := by
  unfold Notifier.wake at hstep
  split at hstep
  · rename_i hworker
    have hnot : s.worker ≠ .exited := by simp [hworker]
    obtain ⟨-, hstep⟩ := Option.ite_none_right_eq_some.mp hstep
    -- woken by the stop, with nothing queued or the drain time over: the worker leaves
    split at hstep
    · rw [← Option.some.inj hstep]
      exact .of_working rfl hnot rfl rfl (.inl rfl)
    · -- the oldest entry is taken out of the queue and handed over
      rename_i next items hitems
      split at hstep
      · rw [← Option.some.inj hstep]
        exact .of_working rfl hnot rfl rfl (.inl rfl)
      · rw [← Option.some.inj hstep]
        have hqueue := queue_deliver_next { s with queue_ := s.queue_.take } next s.config_.channels
        exact .of_working rfl hnot (by rw [hqueue]; rfl) (by rw [hqueue]; rfl)
          (handed_deliver_next _ next _)
  · cases hstep

/-- The transport returns: the delivery ends or waits for the next attempt. -/
theorem queueStep_respond {status : Int} (hstep : s.respond status = some t) :
    QueueStep s (.respond status) t := by
  unfold Notifier.respond at hstep
  split at hstep
  · rename_i hworker
    have hnot : s.worker ≠ .exited := by simp [hworker]
    split_ifs at hstep with hok hwrong hlast
    · rw [← Option.some.inj hstep]
      exact queueStep_deliver_done rfl hnot
    · -- a status outside 2xx that no repeat would change: given up
      rw [← Option.some.inj hstep]
      exact queueStep_deliver_done rfl hnot
    · rw [← Option.some.inj hstep]
      exact queueStep_deliver_done rfl hnot
    · -- an attempt is left: the worker waits before the next one
      rw [← Option.some.inj hstep]
      exact .of_working rfl hnot rfl rfl (.inl rfl)
  · cases hstep

/-- The wait between two attempts ends: the delivery is given up or tried again. -/
theorem queueStep_retry (hstep : s.retry = some t) : QueueStep s .retry t := by
  unfold Notifier.retry at hstep
  split at hstep
  · rename_i hworker
    have hnot : s.worker ≠ .exited := by simp [hworker]
    split_ifs at hstep with hpast hdue
    · rw [← Option.some.inj hstep]
      exact queueStep_deliver_done rfl hnot
    · rw [← Option.some.inj hstep]
      exact .of_working rfl hnot rfl rfl (.inl rfl)
  · cases hstep

/-- **Every event does to the queue what the discipline allows.** -/
theorem queueStep_of_step (h : QueueInv s) (hstep : s.step e = some t) : QueueStep s e t := by
  cases e with
  | tick now =>
      obtain ⟨-, hstep⟩ := Option.ite_none_right_eq_some.mp hstep
      obtain rfl := Option.some.inj hstep
      exact .of_queue_eq rfl rfl rfl id
  | on_alert alert => exact Option.some.inj hstep ▸ queueStep_on_alert alert
  | on_device_status device_id online timestamp =>
      exact Option.some.inj hstep ▸ queueStep_on_device_status device_id online timestamp
  | enqueue i =>
      obtain ⟨n, hn, rfl⟩ := Option.map_eq_some_iff.mp hstep
      exact queueStep_enqueue h hn
  | stop drain_timeout => exact Option.some.inj hstep ▸ queueStep_stop drain_timeout
  | wake => exact queueStep_wake hstep
  | respond status => exact queueStep_respond hstep
  | retry => exact queueStep_retry hstep

end Steps

/-- **The queue is disciplined in every interleaving**, in its states and in its steps. -/
theorem alongRun_queueDiscipline (config : NotificationsConfig)
    (sensors : String → Option SensorInfo) (W : Wording F) (es : List (NotifierEvent F)) :
    AlongRun step QueueDiscipline (started config sensors W) es ∧
      ∀ s e t, run step (started config sensors W) es = some s → s.step e = some t →
        QueueStep s e t := by
  constructor
  · intro fs s _ hrun
    exact (run_invariant queueInv_step (queueInv_started config sensors W) hrun).queueDiscipline
  · intro s e t hrun hstep
    exact queueStep_of_step (run_invariant queueInv_step (queueInv_started config sensors W) hrun)
      hstep

/-- A channel that is always reached. -/
def webhook : NotificationsConfig := { channels := [{ type := "webhook", url := "http://hook" }] }

/-- No texts. -/
def noWording : Wording Rat := ⟨fun _ _ _ _ => ("", ""), fun _ _ _ _ _ => ("", "")⟩

/-- Two devices go offline, the second one is queued first, and `stop()` is called while the worker
delivers it. -/
def twoOutages : List (NotifierEvent Rat) :=
  [.on_device_status "plc" false 0, .on_device_status "pump" false 0, .enqueue 1, .enqueue 0,
    .wake, .stop 5000, .respond 200, .wake, .respond 404, .wake]

/-- Both are delivered, in the order in which they were queued. -/
theorem alongRun_queueDiscipline_twoOutages :
    (run step (started webhook (fun _ => none) noWording) twoOutages).map
        (fun t => t.delivered.map fun call => (call.1.notification.device_id, call.2.type)) =
      some [("pump", "webhook"), ("plc", "webhook")] ∧
      AlongRun step QueueDiscipline (started webhook (fun _ => none) noWording) twoOutages ∧
      ∀ s e t, run step (started webhook (fun _ => none) noWording) twoOutages = some s →
        s.step e = some t → QueueStep s e t :=
  ⟨by decide +kernel, alongRun_queueDiscipline _ _ _ twoOutages⟩

end Notifier

end Ironpulse.Notify
