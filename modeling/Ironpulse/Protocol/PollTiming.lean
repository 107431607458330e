import Ironpulse.Lib.FixedRate
import Ironpulse.Protocol.PollCycles
import Ironpulse.Protocol.ReadPlan

/-! # Polling keeps its rate

`DevicePoller::schedule_next` (`src/protocol/device_poller.cpp`) moves the next tick on by one
interval, and from a tick that has passed to one interval from now. The poller runs with a record of
when its cycles start and end.

* **`TimedPoller`**, **`timedStep`**: the poller with the record.
* **`OnTime`**: a timer's handler begins at the tick for which the timer was set.
* **`TimingInv`**: within a cycle the tick is the cycle's start, between cycles it is the next one.
* **`alongRun_keepsRate`**: spacing, absence of drift and bounded delay along every run on time. -/

namespace Ironpulse.Protocol

open StepMachine FixedRate

open Core (ModbusDeviceConfig)

namespace DevicePoller

/-! ## (1) A poller with a clock -/

/-- The interval in nanoseconds. -/
def interval (config : ModbusDeviceConfig) : Int := config.poll_interval_ms.toNat * 1000000

/-- An event and the steady clock when its handler begins. -/
structure TimedEvent where
  event : Event
  began : Int

/-- The steady clock that the handler reads. -/
def Event.now : Event → Int
  | .runTask _ env => env.now
  | _ => 0

/-- A poller and when its cycles started and ended. -/
structure TimedPoller where
  poller : DevicePoller
  starts : List Int := []
  stops : List Int := []

/-- An event of the poller, with a record of the cycle that it starts and of the one that it ends. -/
def timedStep (scaling : Scaling) (s : TimedPoller) (e : TimedEvent) : Option TimedPoller :=
  (step scaling s.poller e.event).map fun t =>
    { poller := t
      starts := if s.poller.cycles < t.cycles then s.starts ++ [e.began] else s.starts
      stops := if s.poller.ends.length < t.ends.length then s.stops ++ [e.event.now] else s.stops }

/-- The handler of a timer begins at its tick. `start()` reads the clock when it begins. -/
def OnTime (s : TimedPoller) (e : TimedEvent) : Prop :=
  match e.event with
  | .runTask .start env => e.began = env.now
  | .runTask (.timer (.completed (.ok ()))) _ => e.began = s.poller.next_tick_
  | _ => True

instance (s : TimedPoller) (e : TimedEvent) : Decidable (OnTime s e) := by
  unfold OnTime
  split
  · infer_instance
  · infer_instance
  · infer_instance

/-! ## (2) What the handlers do to the tick -/

section Handlers

variable {env : Surroundings} {s t : DevicePoller}

/-- What a handler makes of a cycle, as far as the time is concerned. -/
inductive CycleTiming (env : Surroundings) (s t : DevicePoller) : Prop where
  | waits (task : Task) (inCycle : task.inCycle = true)
      (h : t = { s with tasks := s.tasks ++ [task] })
  | ended (started : t.started = s.started) (cycles : t.cycles = s.cycles)
      (ends : t.ends.length = s.ends.length + 1)
      (tasks : t.tasks = s.tasks ∨ t.tasks = s.tasks ++ [.timer .pending] ∧
        t.next_tick_ = next (interval s.config_) s.next_tick_ env.now)

/-- Inside a cycle no cycle starts. -/
theorem CycleTiming.started_eq (h : CycleTiming env s t) : t.started = s.started := by
  cases h with
  | waits task hinCycle ht => rw [ht]
  | ended hstarted hcycles hends htasks => exact hstarted

/-- Inside a cycle the number of cycles stays. -/
theorem CycleTiming.cycles_eq (h : CycleTiming env s t) : t.cycles = s.cycles := by
  cases h with
  | waits task hinCycle ht => rw [ht]
  | ended hstarted hcycles hends htasks => exact hcycles

/-- Publishing touches neither the tick nor the tasks. -/
theorem publish_status_frame (env : Surroundings) (s : DevicePoller) (online : Bool) :
    ∃ published publishedInCycle last, s.publish_status env online =
      { s with
        published := published
        publishedInCycle := publishedInCycle
        last_status_ := last } := by
  unfold publish_status
  split
  · exact ⟨s.published, s.publishedInCycle, s.last_status_, rfl⟩
  · exact ⟨_, _, _, rfl⟩

/-- Scheduling the next cycle waits for the timer, or for nothing when the poller was stopped. -/
theorem schedule_next_timing (env : Surroundings) (s : DevicePoller) :
    (s.schedule_next env).started = s.started ∧ (s.schedule_next env).cycles = s.cycles ∧
      (s.schedule_next env).ends = s.ends ∧
      ((s.schedule_next env).tasks = s.tasks ∨
        (s.schedule_next env).tasks = s.tasks ++ [.timer .pending] ∧
          (s.schedule_next env).next_tick_ = next (interval s.config_) s.next_tick_ env.now) := by
  unfold schedule_next
  split
  · exact ⟨rfl, rfl, rfl, .inl rfl⟩
  · exact ⟨rfl, rfl, rfl, .inr ⟨rfl, rfl⟩⟩

/-- Finishing a cycle ends it. -/
theorem finish_cycle_timing (env : Surroundings) (s : DevicePoller) (progress : Progress) :
    CycleTiming env s (s.finish_cycle env progress) := by
  obtain ⟨published, publishedInCycle, last, hstatus⟩ := publish_status_frame env s true
  rw [finish_cycle, hstatus, foldl_publish]
  obtain ⟨hstarted, hcycles, hends, htasks⟩ := schedule_next_timing env (end_cycle _ _)
  exact .ended hstarted hcycles (by rw [hends, end_cycle, List.length_append]; rfl) htasks

/-- A failing cycle ends. -/
theorem fail_cycle_timing (env : Surroundings) (s : DevicePoller) (message : String) :
    CycleTiming env s (s.fail_cycle env message) := by
  obtain ⟨published, publishedInCycle, last, hstatus⟩ :=
    publish_status_frame env (s.publish (.pollError s.config_.id message)) env.connected
  rw [fail_cycle, hstatus]
  obtain ⟨hstarted, hcycles, hends, htasks⟩ := schedule_next_timing env (end_cycle _ _)
  exact .ended hstarted hcycles (by rw [hends, end_cycle, List.length_append]; rfl) htasks

/-- Asking for a block goes on with the cycle or ends it. -/
theorem read_block_timing (env : Surroundings) (s : DevicePoller) (progress : Progress) :
    CycleTiming env s (s.read_block env progress) := by
  unfold read_block
  split
  · exact finish_cycle_timing env s progress
  · exact .waits (.request _ progress) rfl rfl

/-- A connect that has completed goes on with the cycle or ends it. -/
theorem connect_done_timing (env : Surroundings) (s : DevicePoller) (ok : Bool) :
    s.connect_done env ok = s ∨ CycleTiming env s (s.connect_done env ok) := by
  unfold connect_done
  split
  · exact .inl rfl
  · split
    · exact .inr (fail_cycle_timing env s _)
    · exact .inr (read_block_timing env s _)

/-- A result goes on with the cycle or ends it. -/
theorem result_done_timing (scaling : Scaling) (env : Surroundings) (s : DevicePoller)
    (progress : Progress) (result : RegistersResult) :
    s.result_done scaling env progress result = s ∨
      CycleTiming env s (s.result_done scaling env progress result) := by
  unfold result_done
  split
  · exact .inl rfl
  · cases result with
    | error error => exact .inr (fail_cycle_timing env s _)
    | ok registers => exact .inr (read_block_timing env s _)

/-- The handler of the timer starts a cycle, or nothing when the poller was stopped. -/
theorem run_cycle_timing (env : Surroundings) (s : DevicePoller) :
    s.run_cycle env = s ∨
      CycleTiming env { s with cycles := s.cycles + 1, heard := [], publishedInCycle := [] }
        (s.run_cycle env) := by
  unfold run_cycle
  split
  · exact .inl rfl
  · dsimp only
    split
    · exact .inr (.waits .connect rfl rfl)
    · exact .inr (read_block_timing env _ _)

end Handlers

/-! ## (3) The invariant -/

/-- What the tick means while the poller waits for a task. -/
def Phase (interval : Int) (s : TimedPoller) : Task → Prop
  | .start => s.starts = [] ∧ s.stops = []
  | .timer _ => Waiting interval s.poller.next_tick_ s.starts s.stops
  | .connect | .connectDone _ | .request _ _ | .result _ _ =>
      Running interval s.poller.next_tick_ s.starts s.stops

/-- Of the poller a phase reads the tick alone. -/
theorem Phase.of_next_tick {interval : Int} {s t : DevicePoller} {starts stops : List Int}
    {task : Task} (htick : t.next_tick_ = s.next_tick_)
    (h : Phase interval ⟨s, starts, stops⟩ task) : Phase interval ⟨t, starts, stops⟩ task := by
  cases task with
  | start => exact h
  | timer op =>
      change Waiting interval t.next_tick_ starts stops
      rw [htick]
      exact h
  | connect | connectDone ok | request command progress | result progress result =>
      change Running interval t.next_tick_ starts stops
      rw [htick]
      exact h

/-- **The invariant of timing**: what is known of the poller, and the times of its cycles so far. -/
structure TimingInv (scaling : Scaling) (config : ModbusDeviceConfig) (blocks : List ReadBlock)
    (s : TimedPoller) : Prop where
  poll : PollInv scaling config blocks s.poller
  table : Timetable (interval config) s.starts s.stops
  fresh : s.poller.started = false → s.starts = [] ∧ s.stops = []
  phase : ∀ task ∈ s.poller.tasks, Phase (interval config) s task

section Invariant

variable {scaling : Scaling} {config : ModbusDeviceConfig} {blocks : List ReadBlock}
  {env : Surroundings}

/-- A task that belongs to a cycle is one of a running cycle. -/
theorem phase_of_inCycle {interval : Int} {s : TimedPoller} {task : Task}
    (h : task.inCycle = true) (hrunning : Running interval s.poller.next_tick_ s.starts s.stops) :
    Phase interval s task := by
  cases task with
  | start => cases h
  | timer op => cases h
  | connect | connectDone ok | request command progress | result progress result =>
      exact hrunning

/-- The record of a cycle that goes on or ends. -/
structure Recorded (interval : Int) (t : DevicePoller) (starts stops : List Int) : Prop where
  table : Timetable interval starts stops
  phase : ∀ task ∈ t.tasks, Phase interval ⟨t, starts, stops⟩ task

/-- **A cycle that goes on keeps the tick, and one that ends moves it on.** -/
theorem recorded_of_cycleTiming {s t : DevicePoller} {starts stops : List Int}
    (hs : Running (interval s.config_) s.next_tick_ starts stops) (htasks : s.tasks = [])
    (h : CycleTiming env s t) :
    Recorded (interval s.config_) t starts
      (if s.ends.length < t.ends.length then stops ++ [env.now] else stops) := by
  cases h with
  -- the cycle goes on: no time is recorded
  | waits task hinCycle ht =>
      subst ht
      rw [if_neg (Nat.lt_irrefl _), htasks]
      refine ⟨hs.table, fun task' htask' => ?_⟩
      rw [List.nil_append, List.mem_singleton] at htask'
      rw [htask']
      exact phase_of_inCycle hinCycle hs
  -- the cycle has ended now, and the next tick follows from the ticks so far
  | ended hstarted hcycles hends hnext =>
      rw [if_pos (by omega)]
      refine ⟨hs.table.append_stop _, fun task htask => ?_⟩
      obtain hsame | ⟨hmore, htick⟩ := hnext
      · rw [hsame, htasks] at htask
        cases htask
      · rw [hmore, htasks, List.nil_append, List.mem_singleton] at htask
        rw [htask]
        change Waiting _ t.next_tick_ _ _
        rw [htick]
        exact hs.finish env.now

/-- A handler that does nothing leaves the record as it is. -/
theorem recorded_of_nil {interval : Int} {t : DevicePoller} {starts stops : List Int}
    (h : Timetable interval starts stops) (htasks : t.tasks = []) :
    Recorded interval t starts stops := by
  refine ⟨h, fun task htask => ?_⟩
  rw [htasks] at htask
  cases htask

/-- The record after a handler: `s` is the poller in which its task is not queued any more. -/
def recordOf (s t : DevicePoller) (began now : Int) (starts stops : List Int) :
    List Int × List Int :=
  (if s.cycles < t.cycles then starts ++ [began] else starts,
    if s.ends.length < t.ends.length then stops ++ [now] else stops)

/-- A cycle that goes on or has been given up. -/
theorem recorded_cycle {s t : DevicePoller} {starts stops : List Int} (began : Int)
    (hs : Running (interval s.config_) s.next_tick_ starts stops) (htasks : s.tasks = [])
    (h : t = s ∨ CycleTiming env s t) :
    Recorded (interval s.config_) t (recordOf s t began env.now starts stops).1
      (recordOf s t began env.now starts stops).2 := by
  obtain rfl | h := h
  · rw [recordOf, if_neg (Nat.lt_irrefl _), if_neg (Nat.lt_irrefl _)]
    exact recorded_of_nil hs.table htasks
  · rw [recordOf, h.cycles_eq, if_neg (Nat.lt_irrefl _)]
    exact recorded_of_cycleTiming hs htasks h

/-- A cycle that starts at the tick, unless the poller was stopped. -/
theorem recorded_run_cycle {s : DevicePoller} {starts stops : List Int}
    (htable : Timetable (interval s.config_) starts stops)
    (hstart : Running (interval s.config_) s.next_tick_ (starts ++ [s.next_tick_]) stops)
    (htasks : s.tasks = []) :
    Recorded (interval s.config_) (s.run_cycle env)
      (recordOf s (s.run_cycle env) s.next_tick_ env.now starts stops).1
      (recordOf s (s.run_cycle env) s.next_tick_ env.now starts stops).2 := by
  obtain hsame | h := run_cycle_timing env s
  · rw [hsame, recordOf, if_neg (Nat.lt_irrefl _), if_neg (Nat.lt_irrefl _)]
    exact recorded_of_nil htable htasks
  · have hcycles : (s.run_cycle env).cycles = s.cycles + 1 := h.cycles_eq
    rw [recordOf, hcycles, if_pos (Nat.lt_succ_self _)]
    exact recorded_of_cycleTiming
      (s := { s with cycles := s.cycles + 1, heard := [], publishedInCycle := [] }) hstart htasks h

/-- A handler inside a cycle starts none. -/
theorem started_of_cycleTiming {s t : DevicePoller} (h : t = s ∨ CycleTiming env s t) :
    t.started = s.started := by
  obtain rfl | h := h
  · rfl
  · exact h.started_eq

/-- The body of a cycle leaves the record of the starts to the handler that runs it. -/
theorem started_run_cycle (env : Surroundings) (s : DevicePoller) :
    (s.run_cycle env).started = s.started := by
  obtain hsame | h := run_cycle_timing env s
  · rw [hsame]
  · have hstarted := h.started_eq
    exact hstarted

/-- **Every handler that begins on time keeps the record.** -/
theorem recorded_handler {s : TimedPoller} {u : DevicePoller} {task : Task} {began : Int}
    (hs : TimingInv scaling config blocks s) (htask : task ∈ s.poller.tasks)
    (hontime : OnTime s ⟨.runTask task env, began⟩)
    (h : handler scaling env { s.poller with tasks := s.poller.tasks.erase task } task = some u) :
    u.started = s.poller.started ∧
      Recorded (interval config) u (recordOf s.poller u began env.now s.starts s.stops).1
        (recordOf s.poller u began env.now s.starts s.stops).2 := by
  have hnil : s.poller.tasks.erase task = [] := by
    rw [hs.poll.tasks_eq htask, List.erase_cons_head]
  have hphase := hs.phase task htask
  have hconfig := hs.poll.config_eq
  rw [hnil] at h
  rw [← hconfig] at hphase ⊢
  have htable : Timetable (interval s.poller.config_) s.starts s.stops := hconfig ▸ hs.table
  cases task with
  | start =>
      obtain ⟨hstarts, hstops⟩ := hphase
      obtain rfl : began = env.now := hontime
      rw [← Option.some.inj h]
      refine ⟨started_run_cycle env _, recorded_run_cycle
        (s := { s.poller with tasks := ([] : List Task), next_tick_ := env.now }) htable ?_ rfl⟩
      rw [hstarts, hstops]
      exact running_first _ _
  | connectDone ok =>
      rw [← Option.some.inj h]
      have hcases := connect_done_timing env { s.poller with tasks := ([] : List Task) } ok
      have hstarted := started_of_cycleTiming hcases
      exact ⟨hstarted, recorded_cycle
        (s := { s.poller with tasks := ([] : List Task) }) began hphase rfl hcases⟩
  | result progress result =>
      rw [← Option.some.inj h]
      have hcases := result_done_timing scaling env { s.poller with tasks := ([] : List Task) }
        progress result
      have hstarted := started_of_cycleTiming hcases
      exact ⟨hstarted, recorded_cycle
        (s := { s.poller with tasks := ([] : List Task) }) began hphase rfl hcases⟩
  | timer op =>
      -- Only a timer that was not cancelled starts a cycle, and it does so at its tick.
      match op, h with
      | .completed (.ok ()), h =>
          obtain rfl : began = s.poller.next_tick_ := hontime
          rw [← Option.some.inj h]
          exact ⟨started_run_cycle env _, recorded_run_cycle
            (s := { s.poller with tasks := ([] : List Task) }) htable hphase.start rfl⟩
      | .completed (.error _), h =>
          rw [← Option.some.inj h]
          refine ⟨rfl, ?_⟩
          rw [recordOf, if_neg (Nat.lt_irrefl _), if_neg (Nat.lt_irrefl _)]
          exact recorded_of_nil htable rfl
  | connect => cases h
  | request command progress => cases h

/-- A task that is replaced by one of the same phase. -/
theorem timingInv_replace {s : TimedPoller} {t : DevicePoller} (old new : Task)
    {heard : List Answer} (hs : TimingInv scaling config blocks s)
    (hpoll : PollInv scaling config blocks t)
    (hphase : Phase (interval config) s old → Phase (interval config) s new)
    (h : ({ s.poller with heard := heard } : DevicePoller).replace old new = some t) :
    TimingInv scaling config blocks ⟨t, s.starts, s.stops⟩ := by
  obtain ⟨hold, ht⟩ := Option.ite_none_right_eq_some.mp h
  obtain rfl := Option.some.inj ht
  refine ⟨hpoll, hs.table, hs.fresh, fun task htask => ?_⟩
  -- There is one task at a time, so the new one is the only one.
  have hnil : s.poller.tasks.erase old = [] := by rw [hs.poll.tasks_eq hold, List.erase_cons_head]
  have hnew : task = new := by
    dsimp only at htask
    rwa [hnil, List.nil_append, List.mem_singleton] at htask
  rw [hnew]
  exact (hphase (hs.phase old hold)).of_next_tick rfl

/-- What no handler does starts and ends no cycle. -/
theorem counts_of_step {s t : DevicePoller} {e : Event} (h : step scaling s e = some t)
    (hevent : ∀ task env, e ≠ .runTask task env) : t.cycles = s.cycles ∧ t.ends = s.ends := by
  cases e with
  | start =>
      obtain ⟨-, ht⟩ := Option.ite_none_left_eq_some.mp h
      rw [← Option.some.inj ht]
      exact ⟨rfl, rfl⟩
  | stop =>
      rw [← Option.some.inj h]
      exact ⟨rfl, rfl⟩
  | connectCallback ok | requestCallback command progress result | timerFires =>
      obtain ⟨-, ht⟩ := Option.ite_none_right_eq_some.mp h
      rw [← Option.some.inj ht]
      exact ⟨rfl, rfl⟩
  | runCancel =>
      obtain ⟨-, ht⟩ := Option.ite_none_left_eq_some.mp h
      rw [← Option.some.inj ht]
      exact ⟨rfl, rfl⟩
  | runTask task env => exact absurd rfl (hevent task env)

/-- An event that runs no handler leaves the record as it is. -/
theorem timingInv_of_record_same {s : TimedPoller} {u : DevicePoller} {event : Event} (began : Int)
    (h : step scaling s.poller event = some u) (hevent : ∀ task env, event ≠ .runTask task env)
    (hu : TimingInv scaling config blocks ⟨u, s.starts, s.stops⟩) :
    TimingInv scaling config blocks
      ⟨u, (recordOf s.poller u began event.now s.starts s.stops).1,
        (recordOf s.poller u began event.now s.starts s.stops).2⟩ := by
  obtain ⟨hcycles, hends⟩ := counts_of_step h hevent
  rwa [recordOf, hcycles, hends, if_neg (Nat.lt_irrefl _), if_neg (Nat.lt_irrefl _)]

/-- The record of a handler is that of the poller behind it. Whether the poller is stopped during
the handler makes no difference. -/
theorem timingInv_of_recorded {v w : DevicePoller} {starts stops : List Int}
    (hw : PollInv scaling config blocks w) (hstop : w = v ∨ w = v.stop)
    (hstarted : v.started = true) (h : Recorded (interval config) v starts stops) :
    TimingInv scaling config blocks ⟨w, starts, stops⟩ := by
  have hframe : w.started = v.started ∧ w.tasks = v.tasks ∧ w.next_tick_ = v.next_tick_ := by
    obtain rfl | rfl := hstop
    · exact ⟨rfl, rfl, rfl⟩
    · exact ⟨rfl, rfl, rfl⟩
  obtain ⟨hsame, htasks, htick⟩ := hframe
  refine ⟨hw, h.table, fun hfresh => ?_, fun task htask => ?_⟩
  · rw [show w.started = true from hsame.trans hstarted] at hfresh
    cases hfresh
  · rw [show w.tasks = v.tasks from htasks] at htask
    exact (h.phase task htask).of_next_tick htick

/-- **Every event on time keeps the invariant.** -/
theorem timingInv_step {s t : TimedPoller} {e : TimedEvent}
    (hs : TimingInv scaling config blocks s) (hontime : OnTime s e)
    (h : timedStep scaling s e = some t) : TimingInv scaling config blocks t := by
  obtain ⟨u, hu, rfl⟩ := Option.map_eq_some_iff.mp h
  have hpoll := pollInv_step hs.poll hu
  obtain ⟨event, began⟩ := e
  cases event with
  | start =>
      refine timingInv_of_record_same began hu (fun _ _ h => nomatch h) ?_
      obtain ⟨hstarted, ht⟩ := Option.ite_none_left_eq_some.mp hu
      obtain rfl := Option.some.inj ht
      have hfresh := hs.fresh (Bool.eq_false_iff.mpr hstarted)
      have hnil := hs.poll.unstarted (Bool.eq_false_iff.mpr hstarted)
      refine ⟨hpoll, hs.table, fun _ => hfresh, fun task htask => ?_⟩
      have hstart : task = .start := by simpa [hnil] using htask
      rw [hstart]
      exact hfresh
  | stop =>
      refine timingInv_of_record_same began hu (fun _ _ h => nomatch h) ?_
      obtain rfl := Option.some.inj hu
      exact ⟨hpoll, hs.table, hs.fresh, fun task htask => (hs.phase task htask).of_next_tick rfl⟩
  | connectCallback ok =>
      exact timingInv_of_record_same began hu (fun _ _ h => nomatch h)
        (timingInv_replace .connect (.connectDone ok) hs hpoll id hu)
  | requestCallback command progress result =>
      exact timingInv_of_record_same began hu (fun _ _ h => nomatch h)
        (timingInv_replace (.request command progress) (.result progress result) hs hpoll id hu)
  | timerFires =>
      exact timingInv_of_record_same began hu (fun _ _ h => nomatch h)
        (timingInv_replace (.timer .pending) (.timer (.completed (.ok ()))) hs hpoll id hu)
  | runCancel =>
      refine timingInv_of_record_same began hu (fun _ _ h => nomatch h) ?_
      obtain ⟨-, ht⟩ := Option.ite_none_left_eq_some.mp hu
      obtain rfl := Option.some.inj ht
      refine ⟨hpoll, hs.table, hs.fresh, fun task htask => ?_⟩
      obtain ⟨task', htask', rfl⟩ := List.mem_map.mp htask
      have hphase := hs.phase task' htask'
      cases task' <;> exact hphase
  | runTask task env =>
      obtain ⟨htask, hrun⟩ := Option.ite_none_right_eq_some.mp hu
      obtain ⟨v, hv, rfl⟩ := Option.map_eq_some_iff.mp hrun
      obtain ⟨hstarted, htable, hphase⟩ := recorded_handler hs htask hontime hv
      -- A poller that was not started has no task.
      have htrue : s.poller.started = true := by
        by_contra hne
        have hnil := hs.poll.unstarted (Bool.eq_false_iff.mpr hne)
        rw [hnil] at htask
        cases htask
      refine timingInv_of_recorded hpoll ?_ (hstarted.trans htrue) ⟨?_, ?_⟩
      · split
        · exact .inr rfl
        · exact .inl rfl
      · split
        · exact htable
        · exact htable
      · split
        · exact hphase
        · exact hphase

end Invariant

/-! ## (4) Runs -/

/-- A new poller that has not started a cycle. -/
def createTimed (S : StdSort) (config : ModbusDeviceConfig) : TimedPoller where
  poller := create S config

/-- **Polling at a fixed rate**: cycles start at least one interval apart; as long as every cycle
ends within one interval of its start, the starts are exact multiples of the interval after the first
one; and after a cycle that took longer, the next one starts within one interval of its end. -/
structure KeepsRate (interval : Int) (s : TimedPoller) : Prop where
  spaced : ∀ k a b, s.starts[k]? = some a → s.starts[k + 1]? = some b → a + interval ≤ b
  steady : ∀ (k : Nat) (first b : Int), s.starts[0]? = some first → s.starts[k]? = some b →
    (∀ j < k, ∀ a e, s.starts[j]? = some a → s.stops[j]? = some e → e ≤ a + interval) →
    b = first + k * interval
  recovers : ∀ k a e b, s.starts[k]? = some a → s.stops[k]? = some e →
    s.starts[k + 1]? = some b → a + interval < e → b ≤ e + interval

/-- **Polling keeps its rate along every run in which timers fire on time**, whatever the cycles
take, whatever the device answers and whenever the poller is stopped. -/
theorem alongRun_keepsRate (scaling : Scaling) (S : StdSort) (config : ModbusDeviceConfig)
    (es : List TimedEvent) (hontime : RunMeets (timedStep scaling) OnTime (createTimed S config) es) :
    AlongRun (timedStep scaling) (KeepsRate (interval config)) (createTimed S config) es := by
  have hstart : TimingInv scaling config (plan_reads S config.sensors) (createTimed S config) :=
    ⟨pollInv_create scaling S config, timetable_of_length_le (Nat.zero_le 1), fun _ => ⟨rfl, rfl⟩,
      fun _ h => absurd h List.not_mem_nil⟩
  refine alongRun_of_runMeets (fun hs => ?_) (fun hs hG h => timingInv_step hs hG h) hstart hontime
  have hinterval : 0 ≤ interval config := by
    unfold interval
    omega
  exact ⟨fun k a b ha hb => hs.table.spaced hinterval ha hb,
    fun k first b hfirst hb hstops => hs.table.steady hfirst hb hstops,
    fun k a e b ha he hb hlate => hs.table.recovers ha he hb hlate⟩

/-- A first cycle from 0 to 1500 ms and a second one that starts at its tick. -/
def clock_events : List TimedEvent :=
  [⟨.start, 0⟩, ⟨.runTask .start (clock_env false 0), 0⟩, ⟨.connectCallback true, 0⟩,
    ⟨.runTask (.connectDone true) (clock_env true 900), 900000000⟩,
    ⟨.requestCallback (.read_holding_registers 1 0 1) ⟨0, [none]⟩ (.ok [7]), 0⟩,
    ⟨.runTask (.result ⟨0, [none]⟩ (.ok [7])) (clock_env true 1500), 1500000000⟩,
    ⟨.timerFires, 0⟩,
    ⟨.runTask (.timer (.completed (.ok ()))) (clock_env true 2500), 2500000000⟩]

/-- The first cycle of the run takes longer than a second, so the second one starts a second after
its end. -/
theorem alongRun_keepsRate_overrun :
    (run (timedStep exactScaling) (createTimed StdSort.stable clock_config) clock_events).map
        TimedPoller.starts = some [0, 2500000000] ∧
      AlongRun (timedStep exactScaling) (KeepsRate (interval clock_config))
        (createTimed StdSort.stable clock_config) clock_events :=
  ⟨by decide +kernel, alongRun_keepsRate _ _ _ _ (by decide +kernel)⟩

end DevicePoller

end Ironpulse.Protocol
