import Ironpulse.Notify.Notifier

/-! # Outages and recoveries in the notifier's queue

`on_device_status` decides by a flag for each device what is announced: a recovery only after an
outage. The flag is set when the notification is about to be queued; the worker takes it later, and
only if a full queue has not dropped it by then.

* **`Alternates`**: outages and recoveries, one after the other.
* **`AnnouncedFirst`**: the notifications that the worker takes about a device alternate and start
  with an outage.
* **`KeepsStatus`**: a step that drops no status and does not let one overtake another of its device;
  `announcedFirst_of_keepsStatus`: the runs of such steps announce outages first.
* **`not_announcedFirst_of_flood`**: an outage that a flood of alerts drops is not announced, its
  recovery is. -/

namespace Ironpulse.Notify

open Core (TimePoint NotificationsConfig NotificationChannelConfig)
open Analytics (AnomalyEvent)
open StepMachine

/-! ## (1) Alternating statuses -/

/-- The statuses `l` alternate, the first one is `first` and the one that follows is `next`. -/
def Alternates : (first : Bool) → List Bool → (next : Bool) → Prop
  | first, [], next => first = next
  | first, online :: l, next => online = first ∧ Alternates (!first) l next

/-- Two lists alternate together when the second begins where the first has left. -/
theorem alternates_append {first next : Bool} {l m : List Bool} :
    Alternates first (l ++ m) next ↔ ∃ middle, Alternates first l middle ∧
      Alternates middle m next := by
  induction l generalizing first with
  | nil =>
      constructor
      · intro h
        exact ⟨first, rfl, h⟩
      · rintro ⟨middle, rfl, h⟩
        exact h
  | cons online l ih =>
      rw [List.cons_append, Alternates, ih]
      constructor
      · rintro ⟨honline, middle, hl, hm⟩
        exact ⟨middle, ⟨honline, hl⟩, hm⟩
      · rintro ⟨middle, ⟨honline, hl⟩, hm⟩
        exact ⟨honline, middle, hl, hm⟩

section Statuses

variable {F : Type}

/-- The status of a device that a notification announces, if it is about that device's status. -/
def status_of (device_id : String) (n : Notification F) : Option Bool :=
  match n.type with
  | .alert => none
  | .device_offline => if n.device_id = device_id then some false else none
  | .device_online => if n.device_id = device_id then some true else none

/-- The statuses of a device among queued notifications. -/
def announced (device_id : String) (entries : List (Entry F)) : List Bool :=
  entries.filterMap fun entry => status_of device_id entry.notification

/-- What is announced of a device is announced entry by entry. -/
@[simp] theorem announced_append (device_id : String) (l m : List (Entry F)) :
    announced device_id (l ++ m) = announced device_id l ++ announced device_id m :=
  List.filterMap_append

/-- An alert announces no status. -/
theorem status_of_alert {device_id : String} {n : Notification F} (h : n.type = .alert) :
    status_of device_id n = none := by
  rw [status_of, h]

/-- A status is announced for the device that it names. -/
theorem device_of_status {device_id : String} {n : Notification F} (h : status_of device_id n ≠ none) :
    n.type ≠ .alert ∧ n.device_id = device_id := by
  unfold status_of at h
  split at h
  · exact absurd rfl h
  · rename_i htype
    refine ⟨by simp [htype], ?_⟩
    by_contra hne
    exact h (if_neg hne)
  · rename_i htype
    refine ⟨by simp [htype], ?_⟩
    by_contra hne
    exact h (if_neg hne)

/-- A status notification announces the status of its own device only. -/
theorem status_of_describe (W : Wording F) (device_id device_id' : String) (online : Bool)
    (timestamp : TimePoint) (language dashboard_url : String) :
    status_of device_id
        (describe_device_status W device_id' online timestamp language dashboard_url) =
      if device_id' = device_id then some online else none := by
  cases online <;> rfl

/-- A list of one element is mapped to what the element is mapped to. -/
theorem filterMap_singleton {α β : Type} (f : α → Option β) (x : α) :
    [x].filterMap f = (f x).toList := by
  rw [List.filterMap_cons, List.filterMap_nil]
  cases f x <;> rfl

/-- Taking the first value out of a list moves it to the front. -/
theorem filterMap_eraseIdx {α β : Type} {f : α → Option β} {l : List α} {i : Nat} {x : α}
    (hx : l[i]? = some x) (hfirst : f x ≠ none → ∀ j < i, ∀ y, l[j]? = some y → f y = none) :
    l.filterMap f = (f x).toList ++ (l.eraseIdx i).filterMap f := by
  -- the element taken out is the first one that `f` keeps
  induction l generalizing i with
  | nil => cases hx
  | cons y l ih =>
      cases i with
      | zero =>
          obtain rfl := Option.some.inj hx
          rw [List.eraseIdx_cons_zero, List.filterMap_cons]
          cases f y <;> rfl
      | succ i =>
          have hrest := ih hx fun hne j hj z hz => hfirst hne (j + 1) (Nat.succ_lt_succ hj) z hz
          rw [List.eraseIdx_cons_succ, List.filterMap_cons, List.filterMap_cons, hrest]
          cases hfx : f x with
          | none => rfl
          | some b =>
              have hy := hfirst (by simp [hfx]) 0 (Nat.succ_pos i) y rfl
              rw [hy]

end Statuses

/-! ## (2) Steps that keep the statuses -/

namespace Notifier

variable {F : Type} {s t : Notifier F}

/-- The worker announces a device's outages and recoveries alternately and an outage first. -/
def AnnouncedFirst (s : Notifier F) : Prop :=
  ∀ device_id, ∃ next, Alternates false (announced device_id s.queue_.taken) next

/-- A notification is not queued where a full queue drops a status for it, and no status is queued
before an earlier one of its device. -/
def KeepsStatus (s : Notifier F) (e : NotifierEvent F) : Prop :=
  ∀ i n, e = .enqueue i → s.calling[i]? = some n → s.stopping_ = false →
    (kMaxQueue ≤ s.queue_.items.length →
      ∀ oldest ∈ s.queue_.items.head?, oldest.notification.type = .alert) ∧
    (n.type ≠ .alert → ∀ j < i, ∀ m, s.calling[j]? = some m → m.type ≠ .alert →
      m.device_id ≠ n.device_id)

/-- What the worker took, what is queued and what is about to be queued alternates for each device,
and the flag says what comes next. -/
structure AnnounceInv (s : Notifier F) : Prop where
  kept : ∀ d, ∃ next, Alternates false (announced d (s.queue_.taken ++ s.queue_.items)) next
  flag : s.stopping_ = false → ∀ d, Alternates false
    (announced d (s.queue_.taken ++ s.queue_.items) ++ s.calling.filterMap (status_of d))
    (s.notified_offline_ d)

/-- Before the first call nothing is announced. -/
theorem announceInv_started (config : NotificationsConfig) (sensors : String → Option SensorInfo)
    (W : Wording F) : AnnounceInv (started config sensors W) :=
  ⟨fun _ => ⟨false, rfl⟩, fun _ _ => rfl⟩

/-- What the worker has announced alternates, since what it has still to announce goes on from it. -/
theorem AnnounceInv.announcedFirst (h : AnnounceInv s) : AnnouncedFirst s := by
  intro d
  obtain ⟨next, hnext⟩ := h.kept d
  rw [announced_append, alternates_append] at hnext
  obtain ⟨middle, htaken, -⟩ := hnext
  exact ⟨middle, htaken⟩

/-- What leaves the queue, the calls and the flags alone keeps the invariant. -/
theorem AnnounceInv.congr (h : AnnounceInv s) (hqueue : t.queue_ = s.queue_)
    (hcalling : t.calling = s.calling) (hflag : t.notified_offline_ = s.notified_offline_)
    (hstopping : t.stopping_ = false → s.stopping_ = false) : AnnounceInv t := by
  refine ⟨?_, fun hrunning => ?_⟩
  · rw [hqueue]
    exact h.kept
  · rw [hqueue, hcalling, hflag]
    exact h.flag (hstopping hrunning)

/-- Delivering to the next channel announces nothing. -/
theorem AnnounceInv.deliver_next {next : Entry F} {rest : List NotificationChannelConfig}
    (h : AnnounceInv s) : AnnounceInv (s.deliver_next next rest) := by
  cases rest with
  | nil => exact h.congr rfl rfl rfl id
  | cons channel rest => exact h.congr rfl rfl rfl id

/-- A finished delivery announces nothing. -/
theorem AnnounceInv.deliver_done {next : Entry F} {channel : NotificationChannelConfig}
    {rest : List NotificationChannelConfig} {ok : Bool} (h : AnnounceInv s) :
    AnnounceInv (s.deliver_done next channel rest ok) := by
  have hresults : AnnounceInv { s with results := s.results ++ [(channel.type, ok)] } :=
    h.congr rfl rfl rfl id
  exact hresults.deliver_next

/-- The first section of `on_device_status` announces the status that follows. -/
theorem announceInv_on_device_status (h : AnnounceInv s) (device_id : String) (online : Bool)
    (timestamp : TimePoint) : AnnounceInv (s.on_device_status device_id online timestamp) := by
  unfold on_device_status
  dsimp only
  split_ifs with henabled hon hoff
  · exact h
  · exact h
  · exact h
  · -- the flag says that this status comes next
    have hnext : s.notified_offline_ device_id = online := by
      cases honline : online <;> cases hflag : s.notified_offline_ device_id <;> simp_all
    refine ⟨h.kept, fun hrunning d => ?_⟩
    rw [List.filterMap_append, ← List.append_assoc, alternates_append]
    refine ⟨s.notified_offline_ d, h.flag hrunning d, ?_⟩
    rw [filterMap_singleton, status_of_describe]
    dsimp only
    by_cases hd : device_id = d
    · subst hd
      rw [if_pos rfl, Function.update_self, hnext]
      exact ⟨rfl, rfl⟩
    · rw [if_neg hd, Function.update_of_ne (Ne.symm hd)]
      rfl

/-- The statuses of a queue that takes one more notification, where no status is dropped. -/
theorem announced_push {d : String} {q : DropOldest (Entry F)} {entry : Entry F}
    (hdrop : kMaxQueue ≤ q.items.length →
      ∀ oldest ∈ q.items.head?, oldest.notification.type = .alert) :
    announced d ((q.push kMaxQueue entry).taken ++ (q.push kMaxQueue entry).items) =
      announced d (q.taken ++ q.items) ++ (status_of d entry.notification).toList := by
  have hentry : announced d [entry] = (status_of d entry.notification).toList := by
    rw [announced, filterMap_singleton]
  rw [DropOldest.taken_push, DropOldest.items_push]
  by_cases hfull : kMaxQueue ≤ q.items.length
  · rw [if_pos hfull]
    cases hitems : q.items with
    | nil => simp only [List.tail_nil, List.nil_append, announced_append, hentry, List.append_nil]
    | cons oldest rest =>
        -- what is dropped announces nothing
        have halert : status_of d oldest.notification = none :=
          status_of_alert (hdrop hfull oldest (by rw [hitems]; rfl))
        have hrest : announced d (oldest :: rest) = announced d rest := by
          rw [announced, List.filterMap_cons, halert]
          rfl
        simp only [List.tail_cons, announced_append, hentry, hrest, List.append_assoc]
  · simp only [if_neg hfull, announced_append, hentry, List.append_assoc]

/-- A pending notification enters the queue. It is the first of its device among the pending ones,
and the one that is dropped for it is an alert, so every device's statuses stay in their order. -/
theorem AnnounceInv.enqueue {i : Nat} {n : Notification F} (h : AnnounceInv s)
    (hG : KeepsStatus s (.enqueue i)) (hn : s.calling[i]? = some n) :
    AnnounceInv ({ s with calling := s.calling.eraseIdx i }.enqueue n) := by
  unfold Notifier.enqueue
  by_cases hstopping : s.stopping_ = true
  · rw [if_pos hstopping]
    -- behind the stop nothing is queued, and nothing is promised of the flag
    refine ⟨h.kept, fun hrunning => ?_⟩
    exact absurd (hrunning.symm.trans hstopping) Bool.false_ne_true
  · rw [if_neg hstopping]
    have hrunning := Bool.eq_false_iff.mpr hstopping
    obtain ⟨hdrop, hfirst⟩ := hG i n rfl hn hrunning
    have halternates : ∀ d, Alternates false
        (announced d (s.queue_.taken ++ s.queue_.items) ++ (status_of d n).toList ++
          (s.calling.eraseIdx i).filterMap (status_of d)) (s.notified_offline_ d) := by
      intro d
      -- the call that is queued is the first one about its device
      have hcalling : s.calling.filterMap (status_of d) =
          (status_of d n).toList ++ (s.calling.eraseIdx i).filterMap (status_of d) := by
        refine filterMap_eraseIdx hn fun hne j hj m hm => ?_
        by_contra hsome
        obtain ⟨htype, hdevice⟩ := device_of_status hne
        obtain ⟨htype', hdevice'⟩ := device_of_status hsome
        exact hfirst htype j hj m hm htype' (hdevice'.trans hdevice.symm)
      rw [List.append_assoc, ← hcalling]
      exact h.flag hrunning d
    refine ⟨fun d => ?_, fun _ d => ?_⟩
    · -- the drop takes no status away, so the announcement goes to the end
      rw [announced_push hdrop]
      obtain ⟨middle, hmiddle, -⟩ := alternates_append.mp (halternates d)
      exact ⟨middle, hmiddle⟩
    · rw [announced_push hdrop]
      exact halternates d

/-- Taking an entry announces nothing. -/
theorem AnnounceInv.wake (h : AnnounceInv s) (hstep : s.wake = some t) : AnnounceInv t := by
  unfold Notifier.wake at hstep
  split at hstep
  · obtain ⟨-, hstep⟩ := Option.ite_none_right_eq_some.mp hstep
    split at hstep
    · obtain rfl := Option.some.inj hstep
      exact h.congr rfl rfl rfl id
    · rename_i next items hitems
      split at hstep
      · obtain rfl := Option.some.inj hstep
        exact h.congr rfl rfl rfl id
      · -- the oldest notification moves from the queue to the ones that were taken
        obtain rfl := Option.some.inj hstep
        have hsame : s.queue_.take.taken ++ s.queue_.take.items =
            s.queue_.taken ++ s.queue_.items := by
          simp [DropOldest.take, hitems]
        have htaken : AnnounceInv { s with queue_ := s.queue_.take } := by
          refine ⟨?_, ?_⟩
          · simp only [hsame]
            exact h.kept
          · simp only [hsame]
            exact h.flag
        exact htaken.deliver_next
  · cases hstep

/-- **A step that keeps the statuses keeps the invariant.** -/
theorem announceInv_step {e : NotifierEvent F} (h : AnnounceInv s) (hG : KeepsStatus s e)
    (hstep : s.step e = some t) : AnnounceInv t := by
  cases e with
  | tick now =>
      obtain ⟨-, hstep⟩ := Option.ite_none_right_eq_some.mp hstep
      obtain rfl := Option.some.inj hstep
      exact h.congr rfl rfl rfl id
  | on_alert alert =>
      obtain rfl := Option.some.inj hstep
      unfold on_alert
      split
      · exact h
      · -- an alert is no status
        refine ⟨h.kept, fun hrunning d => ?_⟩
        rw [List.filterMap_append, filterMap_singleton, status_of_alert rfl]
        exact (List.append_nil _).symm ▸ h.flag hrunning d
  | on_device_status device_id online timestamp =>
      obtain rfl := Option.some.inj hstep
      exact announceInv_on_device_status h device_id online timestamp
  | enqueue i =>
      obtain ⟨n, hn, rfl⟩ := Option.map_eq_some_iff.mp hstep
      exact h.enqueue hG hn
  | stop drain_timeout =>
      obtain rfl := Option.some.inj hstep
      unfold stop
      split
      · exact h
      · -- nothing is promised of a notifier that stops
        exact h.congr rfl rfl rfl fun hrunning => by cases hrunning
  | wake => exact h.wake hstep
  | respond status =>
      simp only [step, respond] at hstep
      split at hstep
      · split_ifs at hstep with hok hwrong hlast
        · obtain rfl := Option.some.inj hstep
          exact h.deliver_done
        · obtain rfl := Option.some.inj hstep
          exact h.deliver_done
        · obtain rfl := Option.some.inj hstep
          exact h.deliver_done
        · obtain rfl := Option.some.inj hstep
          exact h.congr rfl rfl rfl id
      · cases hstep
  | retry =>
      simp only [step, retry] at hstep
      split at hstep
      · split_ifs at hstep with hpast hdue
        · obtain rfl := Option.some.inj hstep
          exact h.deliver_done
        · obtain rfl := Option.some.inj hstep
          exact h.congr rfl rfl rfl id
      · cases hstep

/-- **Outages are announced first** in every run whose steps keep the statuses. -/
theorem announcedFirst_of_keepsStatus (config : NotificationsConfig)
    (sensors : String → Option SensorInfo) (W : Wording F) (es : List (NotifierEvent F))
    (h : RunMeets step KeepsStatus (started config sensors W) es) :
    AlongRun step AnnouncedFirst (started config sensors W) es := by
  exact alongRun_of_runMeets AnnounceInv.announcedFirst announceInv_step
    (announceInv_started config sensors W) h

/-- With room in the queue and one call at a time every step keeps the statuses. -/
theorem keepsStatus_of_room (e : NotifierEvent F) (hroom : s.queue_.items.length < kMaxQueue)
    (hone : s.calling.length ≤ 1) : KeepsStatus s e := by
  rintro i n - hn -
  obtain ⟨hi, -⟩ := List.getElem?_eq_some_iff.mp hn
  refine ⟨fun hfull => absurd hroom (Nat.not_lt.mpr hfull), fun _ j hj => ?_⟩
  omega

/-- An alert of a sensor. -/
def sampleAlert : AnomalyEvent Rat where
  sensor_id := "winding_temp"
  detector_name := "limit"
  message := ""
  score := 0
  confidence := 1
  timestamp := 0
  kind := .limit
  severity := .critical
  value := 95

/-- A device goes offline and comes back, and the worker announces both. -/
theorem announcedFirst_of_outage :
    AlongRun step AnnouncedFirst (started webhook (fun _ => none) noWording)
      [.on_device_status "plc" false 0, .enqueue 0, .wake, .respond 200,
        .on_device_status "plc" true 0, .enqueue 0, .wake] := by
  apply announcedFirst_of_keepsStatus
  refine (runMeets_cons_of_step rfl).mpr ⟨keepsStatus_of_room _ (by decide) (by decide), ?_⟩
  refine (runMeets_cons_of_step rfl).mpr ⟨keepsStatus_of_room _ (by decide) (by decide), ?_⟩
  refine (runMeets_cons_of_step rfl).mpr ⟨keepsStatus_of_room _ (by decide) (by decide), ?_⟩
  refine (runMeets_cons_of_step rfl).mpr ⟨keepsStatus_of_room _ (by decide) (by decide), ?_⟩
  refine (runMeets_cons_of_step rfl).mpr ⟨keepsStatus_of_room _ (by decide) (by decide), ?_⟩
  refine (runMeets_cons_of_step rfl).mpr ⟨keepsStatus_of_room _ (by decide) (by decide), ?_⟩
  exact (runMeets_cons_of_step rfl).mpr ⟨keepsStatus_of_room _ (by decide) (by decide),
    runMeets_nil⟩

/-! ## (3) A flood of alerts -/

/-- A queue after `count` alerts with the same notification. -/
def flooded (n : Notification F) : Nat → DropOldest (Entry F) → DropOldest (Entry F)
  | 0, q => q
  | count + 1, q => flooded n count (q.push kMaxQueue ⟨q.entered.length, n⟩)

/-- A flood is as many pushes of the same notification. -/
theorem flooded_eq_foldl (n : Notification F) (count : Nat) (q : DropOldest (Entry F)) :
    ∃ entries : List (Entry F), entries.length = count ∧ (∀ e ∈ entries, e.notification = n) ∧
      flooded n count q = entries.foldl (DropOldest.push kMaxQueue) q := by
  induction count generalizing q with
  | zero => exact ⟨[], rfl, by simp, rfl⟩
  | succ count ih =>
      obtain ⟨entries, hlength, hall, hfold⟩ := ih (q.push kMaxQueue ⟨q.entered.length, n⟩)
      refine ⟨⟨q.entered.length, n⟩ :: entries, ?_, ?_, ?_⟩
      · rw [List.length_cons, hlength]
      · exact List.forall_mem_cons.mpr ⟨rfl, hall⟩
      · rw [List.foldl_cons, ← hfold]
        rfl

/-- A flood takes nothing out. -/
theorem taken_flooded (n : Notification F) (count : Nat) (q : DropOldest (Entry F)) :
    (flooded n count q).taken = q.taken := by
  induction count generalizing q with
  | zero => rfl
  | succ count ih => rw [flooded, ih, DropOldest.taken_push]

/-- As many alerts as fit push out what was queued before. -/
theorem items_flooded (n : Notification F) {q : DropOldest (Entry F)}
    (h : q.items.length ≤ kMaxQueue) :
    ∃ entries : List (Entry F), entries.length = kMaxQueue ∧ (∀ e ∈ entries, e.notification = n) ∧
      (flooded n kMaxQueue q).items = entries := by
  obtain ⟨entries, hlength, hall, hfold⟩ := flooded_eq_foldl n kMaxQueue q
  refine ⟨entries, hlength, hall, ?_⟩
  rw [hfold, DropOldest.items_foldl_push (by decide) entries h, hlength, Nat.add_sub_cancel]
  exact List.drop_left

/-- The only call in progress queues its notification. -/
theorem step_enqueue_only {n : Notification F} (hrunning : s.stopping_ = false)
    (hidle : s.calling = []) : step { s with calling := [n] } (.enqueue 0) =
      some { s with queue_ := s.queue_.push kMaxQueue ⟨s.queue_.entered.length, n⟩ } := by
  simp [step, enqueue, hrunning, ← hidle]

/-- Threads raise alerts, one after the other. -/
theorem run_alerts {alert : AnomalyEvent F} {n : Notification F} (hrunning : s.stopping_ = false)
    (hidle : s.calling = [])
    (halert : ∀ q, { s with queue_ := q }.on_alert alert = { s with queue_ := q, calling := [n] })
    (count : Nat) :
    run step s (List.replicate count [.on_alert alert, .enqueue 0]).flatten =
      some { s with queue_ := flooded n count s.queue_ } := by
  induction count generalizing s with
  | zero => rfl
  -- each alert enters its call, and the enqueue of it ends the call
  | succ count ih =>
      have hcall : s.step (.on_alert alert) = some { s with calling := [n] } :=
        congrArg some (halert s.queue_)
      rw [List.replicate_succ, List.flatten_cons, List.cons_append, run_cons, hcall,
        Option.bind_some, List.cons_append, run_cons, step_enqueue_only hrunning hidle,
        Option.bind_some, List.nil_append]
      exact ih hrunning hidle halert

/-- The worker takes and delivers one notification after the other. -/
theorem run_deliveries {channel : NotificationChannelConfig} (hworker : s.worker = .waiting)
    (hrunning : s.stopping_ = false) (hchannels : s.config_.channels = [channel])
    {items : List (Entry F)} (hitems : s.queue_.items = items) :
    ∃ t, run step s (List.replicate items.length [.wake, .respond 200]).flatten = some t ∧
      t.queue_.taken = s.queue_.taken ++ items := by
  induction items generalizing s with
  | nil => exact ⟨s, rfl, (List.append_nil _).symm⟩
  | cons next items ih =>
      -- one delivery: waking takes the front, the answer finishes it
      obtain ⟨t, ht, htaken⟩ := ih (s := { s with
          queue_ := s.queue_.take
          worker := .waiting
          delivered := s.delivered ++ [(next, channel)]
          results := s.results ++ [(channel.type, true)] })
        rfl hrunning hchannels (by simp [DropOldest.take, hitems])
      have hwake : s.step .wake = some { s with
          queue_ := s.queue_.take
          worker := .attempting next channel [] 1 1
          delivered := s.delivered ++ [(next, channel)] } := by
        simp [step, wake, hworker, hitems, past_deadline, hrunning, hchannels, deliver_next]
      refine ⟨t, ?_, ?_⟩
      · rw [List.length_cons, List.replicate_succ, List.flatten_cons, List.cons_append, run_cons,
          hwake, Option.bind_some, List.cons_append, run_cons]
        exact ht
      · rw [htaken]
        simp [DropOldest.take, hitems]

/-- A device goes offline; before the worker takes this, a thousand alerts are raised; the device
comes back, and the worker takes what is queued. -/
def floodedOutage : List (NotifierEvent Rat) :=
  [.on_device_status "plc" false 0, .enqueue 0] ++
    ((List.replicate kMaxQueue [.on_alert sampleAlert, .enqueue 0]).flatten ++
      ([.on_device_status "plc" true 0, .enqueue 0] ++
        (List.replicate kMaxQueue [.wake, .respond 200]).flatten))

/-- **A recovery is announced without its outage.** The outage is the oldest notification of the full
queue, so the flood drops it; the recovery is taken. -/
theorem not_announcedFirst_of_flood :
    ¬ ∀ (config : NotificationsConfig) (sensors : String → Option SensorInfo) (W : Wording Rat)
      (es : List (NotifierEvent Rat)),
      AlongRun step AnnouncedFirst (started config sensors W) es := by
  intro hall
  let offline := describe_device_status noWording "plc" false 0 "ru" ""
  let note := describe_alert noWording sampleAlert {} "ru" ""
  let online := describe_device_status noWording "plc" true 0 "ru" ""
  let s₁ : Notifier Rat := { started webhook (fun _ => none) noWording with
    notified_offline_ := Function.update (fun _ => false) "plc" true
    queue_ := ({} : DropOldest (Entry Rat)).push kMaxQueue ⟨0, offline⟩ }
  have hoffline : run step (started webhook (fun _ => none) noWording)
      [.on_device_status "plc" false 0, .enqueue 0] = some s₁ := rfl
  -- the queue is full of alerts
  obtain ⟨q, hflood, hnone, hitems⟩ : ∃ q : DropOldest (Entry Rat),
      run step s₁ (List.replicate kMaxQueue [.on_alert sampleAlert, .enqueue 0]).flatten =
          some { s₁ with queue_ := q } ∧
        q.taken = [] ∧ q.items.length = kMaxQueue ∧ ∀ e ∈ q.items, e.notification = note := by
    obtain ⟨entries, hlength, hall, hitems⟩ := items_flooded note (q := s₁.queue_) (by decide)
    refine ⟨_, run_alerts (n := note) rfl rfl (fun _ => rfl) kMaxQueue, ?_, ?_, ?_⟩
    · rw [taken_flooded]
      rfl
    · rw [hitems, hlength]
    · rw [hitems]
      exact hall
  -- the recovery comes behind them
  let s₃ : Notifier Rat := { s₁ with
    notified_offline_ := Function.update s₁.notified_offline_ "plc" false
    queue_ := q.push kMaxQueue ⟨q.entered.length, online⟩ }
  have honline : run step { s₁ with queue_ := q } [.on_device_status "plc" true 0, .enqueue 0] =
      some s₃ := rfl
  have hitems₃ : s₃.queue_.items = q.items.tail ++ [⟨q.entered.length, online⟩] := by
    rw [DropOldest.items_push, if_pos hitems.1.ge]
  have hcount : s₃.queue_.items.length = kMaxQueue := by
    rw [hitems₃, List.length_append, List.length_tail, hitems.1]
    rfl
  obtain ⟨t, ht, htaken⟩ := run_deliveries (s := s₃) rfl rfl rfl rfl
  rw [hcount] at ht
  have hrun : run step (started webhook (fun _ => none) noWording) floodedOutage = some t :=
    (run_append_eq_some step).mpr ⟨s₁, hoffline, (run_append_eq_some step).mpr ⟨_, hflood,
      (run_append_eq_some step).mpr ⟨s₃, honline, ht⟩⟩⟩
  obtain ⟨next, hnext⟩ := hall webhook _ noWording floodedOutage floodedOutage t List.prefix_rfl
    hrun "plc"
  have halerts : announced "plc" q.items.tail = [] := by
    refine List.filterMap_eq_nil_iff.mpr fun e he => ?_
    rw [hitems.2 e (List.mem_of_mem_tail he)]
    rfl
  have htaken₃ : s₃.queue_.taken = [] := by rw [DropOldest.taken_push, hnone]
  rw [htaken, htaken₃, hitems₃, List.nil_append, announced_append, halerts] at hnext
  exact absurd hnext.1 (by decide)

end Notifier

end Ironpulse.Notify
