import Ironpulse.Protocol.DevicePoller
import Ironpulse.Protocol.ReadPlan
import Mathlib.Data.List.Chain

/-! # Polling cycles are atomic and the device status is consistent

* **`BusInv`**: the published statuses alternate, and readings are published while online.
* **`GoodEnd`**: what the client has answered and what was published in a cycle that ended.
* **`PollInv`**: the invariant of the poller, with `pollInv_step`.
* **`alongRun_pollCycles`**: what holds along every run. -/

namespace Ironpulse.Protocol

open StepMachine

open Core (TimePoint Double SensorConfig ModbusDeviceConfig)

/-! ## (1) What is published -/

namespace PollerEvent

/-- The event publishes a reading. -/
def isReading : PollerEvent → Bool
  | reading _ _ _ => true
  | _ => false

/-- The status that the event publishes, if it publishes one. -/
def status? : PollerEvent → Option Bool
  | status _ online _ => some online
  | _ => none

end PollerEvent

/-- The published statuses, in order. -/
def statuses (published : List PollerEvent) : List Bool := published.filterMap PollerEvent.status?

/-- The published readings, in order. -/
def readingsIn (published : List PollerEvent) : List PollerEvent :=
  published.filter PollerEvent.isReading

/-- Whenever a reading was published, the last status before it was online. -/
def ReadingsOnline (published : List PollerEvent) : Prop :=
  ∀ n (h : n < published.length), published[n].isReading = true →
    (statuses (published.take n)).getLast? = some true

/-- The statuses alternate, `last` is the last of them, and readings come while online. -/
structure BusInv (published : List PollerEvent) (last : Option Bool) : Prop where
  alternate : (statuses published).IsChain (· ≠ ·)
  last_eq : last = (statuses published).getLast?
  online : ReadingsOnline published

section Bus

variable {published : List PollerEvent} {last : Option Bool} {event : PollerEvent}

/-- The statuses of two parts of a record. -/
theorem statuses_append (as bs : List PollerEvent) :
    statuses (as ++ bs) = statuses as ++ statuses bs := List.filterMap_append

/-- A reading published while the device is online keeps the record in order. -/
theorem readingsOnline_append (h : ReadingsOnline published)
    (hevent : event.isReading = true → (statuses published).getLast? = some true) :
    ReadingsOnline (published ++ [event]) := by
  intro n hn hreading
  rcases Nat.lt_or_ge n published.length with hlt | hge
  · rw [List.getElem_append_left hlt] at hreading
    rw [List.take_append_of_le_length hlt.le]
    exact h n hlt hreading
  · rw [List.length_append, List.length_singleton] at hn
    obtain rfl : n = published.length := by omega
    rw [List.getElem_concat_length rfl] at hreading
    rw [List.take_left]
    exact hevent hreading

/-- Anything but a status, and a reading only while online. -/
theorem BusInv.publish (h : BusInv published last) (hstatus : event.status? = none)
    (hevent : event.isReading = true → last = some true) : BusInv (published ++ [event]) last := by
  have hsame : statuses (published ++ [event]) = statuses published := by
    rw [statuses_append, statuses, statuses, List.filterMap_cons_none hstatus, List.filterMap_nil,
      List.append_nil]
  refine ⟨hsame ▸ h.alternate, hsame ▸ h.last_eq, readingsOnline_append h.online fun hreading => ?_⟩
  rw [← h.last_eq]
  exact hevent hreading

/-- A status different from the last one. -/
theorem BusInv.publish_status (h : BusInv published last) {online : Bool}
    (hne : last ≠ some online) (hstatus : event.status? = some online)
    (hevent : event.isReading = false) : BusInv (published ++ [event]) (some online) := by
  have hmore : statuses (published ++ [event]) = statuses published ++ [online] := by
    rw [statuses_append, statuses, statuses, List.filterMap_cons_some hstatus, List.filterMap_nil]
  rw [h.last_eq] at hne
  refine ⟨?_, ?_, readingsOnline_append h.online fun hreading => ?_⟩
  · rw [hmore, List.isChain_append]
    -- the new status differs from the last one, as the code checks before it publishes
    refine ⟨h.alternate, List.isChain_singleton _, fun x hx y hy => ?_⟩
    rintro rfl
    rw [List.head?_singleton, Option.mem_some_iff] at hy
    rw [hy] at hne
    exact hne hx
  · rw [hmore, List.getLast?_concat]
  · rw [hevent] at hreading
    cases hreading

/-- Readings on top of an online status. -/
theorem BusInv.readings {published : List PollerEvent} (h : BusInv published (some true))
    {events : List PollerEvent} (hevents : ∀ event ∈ events, event.isReading = true) :
    BusInv (published ++ events) (some true) := by
  induction events generalizing published with
  | nil => rwa [List.append_nil]
  | cons event events ih =>
      obtain ⟨hfirst, hrest⟩ := List.forall_mem_cons.mp hevents
      have hstatus : event.status? = none := by
        cases event with
        | reading sensor_id value timestamp => rfl
        | status device_id online timestamp => cases hfirst
        | pollError device_id message => cases hfirst
      rw [List.append_cons]
      exact ih (h.publish hstatus fun _ => rfl) hrest

end Bus

/-! ## (2) The values of a cycle -/

section Values

variable (scaling : Scaling) (sensors : List SensorConfig)

/-- The value of a sensor after the answers to some blocks: what its block's answer holds. -/
def extracted (answered : List (ReadBlock × List UInt16)) (i : Nat) : Option Double :=
  answered.foldl (fun value answer =>
    if i ∈ answer.1.sensor_indices then
      extract_value scaling answer.1 answer.2 (sensor_at sensors i)
    else value) none

/-- The last answer decides the values of its own sensors, and leaves the others as they were. -/
theorem extracted_concat (answered : List (ReadBlock × List UInt16)) (block : ReadBlock)
    (registers : List UInt16) (i : Nat) :
    extracted scaling sensors (answered ++ [(block, registers)]) i =
      if i ∈ block.sensor_indices then
        extract_value scaling block registers (sensor_at sensors i)
      else extracted scaling sensors answered i := by
  rw [extracted, List.foldl_append]
  rfl

/-- One more pair of a list and a shorter one. -/
theorem zip_concat {α β : Type} {as : List α} {bs : List β} (h : bs.length < as.length) (b : β) :
    as.zip (bs ++ [b]) = as.zip bs ++ [(as[bs.length], b)] := by
  induction as generalizing bs with
  | nil => cases h
  | cons a as ih =>
      cases bs with
      | nil => rw [List.zip_nil_right]; cases as <;> rfl
      | cons b' bs =>
          rw [List.cons_append, List.zip_cons_cons, ih (Nat.lt_of_succ_lt_succ h)]
          rfl

/-- Setting the values of some indices. -/
theorem foldl_set_eq_map {α : Type} (f g : Nat → α) (indices : List Nat) (n : Nat) :
    indices.foldl (fun values i => values.set i (f i)) ((List.range n).map g) =
      (List.range n).map fun i => if i ∈ indices then f i else g i := by
  -- along the indices; the later ones overwrite
  induction indices generalizing g with
  | nil => simp
  | cons i indices ih =>
      have hset : ((List.range n).map g).set i (f i) =
          (List.range n).map fun j => if j = i then f i else g j := by
        apply List.ext_getElem
        · simp
        · intro j hj hj'
          rw [List.getElem_set]
          by_cases hji : i = j
          · simp [hji]
          · simp [hji, Ne.symm hji]
      rw [List.foldl_cons, hset, ih]
      refine List.map_congr_left fun j _ => ?_
      by_cases hj : j ∈ indices
      · simp [hj]
      · by_cases hji : j = i
        · simp [hji]
        · simp [hj, hji]

end Values

/-- A task that belongs to a cycle on its way. -/
def Task.inCycle : Task → Bool
  | .connect | .connectDone _ | .request _ _ | .result _ _ => true
  | .start | .timer _ => false

namespace DevicePoller

/-- After a connect, if there was one, the client has answered the reads of the first blocks with
these registers, and nothing else. -/
def Answered (config : ModbusDeviceConfig) (blocks : List ReadBlock) (heard : List Answer)
    (answers : List (List UInt16)) : Prop :=
  ∃ connects, (connects = [] ∨ connects = [.connect true]) ∧
    heard = connects ++ (blocks.zip answers).map fun answer =>
      .block (block_command config answer.1) (.ok answer.2)

/-- The progress of a cycle: the client has answered the blocks before the next one, and the values
are what its answers hold. -/
structure GoodProgress (scaling : Scaling) (s : DevicePoller) (heard : List Answer)
    (progress : Progress) (answers : List (List UInt16)) : Prop where
  count : answers.length = progress.block_index
  bounded : progress.block_index ≤ s.blocks_.length
  values : progress.values = (List.range s.config_.sensors.length).map
    (extracted scaling s.config_.sensors (s.blocks_.zip answers))
  heard : Answered s.config_ s.blocks_ heard answers

/-- Before the first block nothing has been answered. -/
theorem goodProgress_first (scaling : Scaling) (s : DevicePoller) {heard : List Answer}
    (hheard : heard = [] ∨ heard = [.connect true]) :
    GoodProgress scaling s heard s.first_block [] := by
  refine ⟨rfl, Nat.zero_le _, ?_, heard, hheard, ?_⟩
  rotate_left
  · rw [List.zip_nil_right, List.map_nil, List.append_nil]
  have hnone : extracted scaling s.config_.sensors (s.blocks_.zip []) = fun _ => none := by
    rw [List.zip_nil_right]
    rfl
  change List.replicate _ none = List.map (extracted scaling s.config_.sensors (s.blocks_.zip [])) _
  rw [hnone, List.map_const', List.length_range]

/-- One more block is answered: its registers are stored. -/
theorem goodProgress_store {scaling : Scaling} {s : DevicePoller} {heard : List Answer}
    {progress : Progress} {answers : List (List UInt16)}
    (h : GoodProgress scaling s heard progress answers)
    (hlt : progress.block_index < s.blocks_.length) (registers : List UInt16) :
    GoodProgress scaling s
      (heard ++ [.block (block_command s.config_ (s.blocks_.getD progress.block_index {}))
        (.ok registers)])
      (s.store_answer scaling progress registers) (answers ++ [registers]) := by
  have hlt' : answers.length < s.blocks_.length := h.count ▸ hlt
  have hblock : s.blocks_.getD progress.block_index {} = s.blocks_[answers.length] := by
    rw [← h.count, List.getD_eq_getElem?_getD, List.getElem?_eq_getElem hlt',
      Option.getD_some]
  refine ⟨?_, hlt, ?_, ?_⟩
  · rw [store_answer, List.length_append, h.count]
    rfl
  · -- the answer is stored at the sensors of its block, as the extraction asks for
    simp only [store_answer, hblock, zip_concat hlt']
    rw [h.values, foldl_set_eq_map]
    refine List.map_congr_left fun i _ => ?_
    rw [extracted_concat]
  · obtain ⟨connects, hconnects, heq⟩ := h.heard
    refine ⟨connects, hconnects, ?_⟩
    rw [heq, hblock, zip_concat hlt', List.map_append, List.append_assoc]
    rfl

/-! ## (3) How a cycle ends -/

/-- The client's last answer is why a cycle fails with this message. -/
def Refused (config : ModbusDeviceConfig) (heard : List Answer) (message : String) : Prop :=
  (heard = [.connect false] ∧
    message = "cannot connect to " ++ config.host ++ ":" ++ toString config.port.toNat) ∨
  ∃ command, heard.getLast? = some (.block command (.error ⟨message⟩))

/-- A cycle finishes when the client has answered the reads of all blocks, and has then published,
with one timestamp, one reading for each sensor whose value in these answers is a number. A cycle
fails when the client refused something, and has then published none. -/
def GoodEnd (scaling : Scaling) (config : ModbusDeviceConfig) (blocks : List ReadBlock)
    (e : CycleEnd) : Prop :=
  match e.outcome with
  | .finished timestamp => ∃ answers : List (List UInt16), answers.length = blocks.length ∧
      Answered config blocks e.heard answers ∧
      readingsIn e.published = (List.range config.sensors.length).filterMap fun i =>
        (extracted scaling config.sensors (blocks.zip answers) i).map fun value =>
          .reading (sensor_at config.sensors i).id value timestamp
  | .failed message => Refused config e.heard message ∧ readingsIn e.published = []

/-- `t` is `s` after the end of its cycle, which has published all that is new. -/
structure Ended (scaling : Scaling) (s t : DevicePoller) : Prop where
  config : t.config_ = s.config_
  blocks : t.blocks_ = s.blocks_
  stopped : t.stopped_ = s.stopped_
  started : t.started = s.started
  cycles : t.cycles = s.cycles
  tasks : t.tasks = s.tasks ∨ t.tasks = s.tasks ++ [.timer .pending]
  ends : ∃ e, t.ends = s.ends ++ [e] ∧ e.cycle = s.cycles ∧
    t.published = s.published ++ e.published ∧ GoodEnd scaling s.config_ s.blocks_ e
  bus : BusInv t.published t.last_status_

section Handlers

variable {scaling : Scaling} {env : Surroundings} {s : DevicePoller}

/-- `publish_status` publishes at most the new status. -/
theorem publish_status_spec (online : Bool) (hbus : BusInv s.published s.last_status_) :
    ∃ events,
      s.publish_status env online =
        { s with
          published := s.published ++ events
          publishedInCycle := s.publishedInCycle ++ events
          last_status_ := some online } ∧
      BusInv (s.published ++ events) (some online) ∧ readingsIn events = [] := by
  unfold publish_status
  by_cases hsame : s.last_status_ = some online
  · -- the status is the one published last: nothing is sent
    rw [if_pos hsame]
    refine ⟨[], ?_, ?_, rfl⟩
    · rw [← hsame, List.append_nil, List.append_nil]
    · rw [List.append_nil, ← hsame]
      exact hbus
  · rw [if_neg hsame]
    exact ⟨[.status s.config_.id online env.statusTime], rfl,
      hbus.publish_status hsame rfl rfl, rfl⟩

/-- Publishing several events puts them on record, and changes nothing else. -/
theorem foldl_publish (events : List PollerEvent) (s : DevicePoller) :
    events.foldl publish s =
      { s with
        published := s.published ++ events
        publishedInCycle := s.publishedInCycle ++ events } := by
  induction events generalizing s with
  | nil => simp
  | cons event events ih =>
      rw [List.foldl_cons, ih]
      simp [publish]

/-- The timer is armed, or the poller was stopped. -/
theorem schedule_next_spec (s : DevicePoller) :
    ∃ next_tick tasks, s.schedule_next env =
        { s with next_tick_ := next_tick, tasks := tasks } ∧
      (tasks = s.tasks ∨ tasks = s.tasks ++ [.timer .pending]) := by
  unfold schedule_next
  split
  · exact ⟨s.next_tick_, s.tasks, rfl, .inl rfl⟩
  · exact ⟨_, _, rfl, .inr rfl⟩

/-- The end of a cycle in which the client refused something. -/
theorem ended_fail_cycle (hbus : BusInv s.published s.last_status_)
    (hquiet : s.publishedInCycle = []) {message : String}
    (hrefused : Refused s.config_ s.heard message) :
    Ended scaling s (s.fail_cycle env message) := by
  -- the error is no reading, so the bus invariant goes on
  have hbus' : BusInv (s.publish (.pollError s.config_.id message)).published s.last_status_ :=
    hbus.publish rfl fun h => by cases h
  obtain ⟨events, hstatus, hbus'', hreadings⟩ :=
    @publish_status_spec env (s.publish (.pollError s.config_.id message)) env.connected hbus'
  obtain ⟨next_tick, tasks, hnext, htasks⟩ := @schedule_next_spec env
    ((s.publish (.pollError s.config_.id message)).publish_status env env.connected |>.end_cycle
      (.failed message))
  rw [fail_cycle, hnext]
  rw [hstatus] at htasks ⊢
  refine ⟨rfl, rfl, rfl, rfl, rfl, htasks, ⟨_, rfl, rfl, ?_, hrefused, ?_⟩, hbus''⟩
  · change s.published ++ [_] ++ events = s.published ++ (s.publishedInCycle ++ [_] ++ events)
    rw [hquiet, List.nil_append, List.append_assoc]
  · change readingsIn (s.publishedInCycle ++ [_] ++ events) = []
    rw [hquiet, List.nil_append, readingsIn, List.filter_append]
    exact hreadings

/-- The end of a cycle in which every block was answered. -/
theorem ended_finish_cycle (hbus : BusInv s.published s.last_status_)
    (hquiet : s.publishedInCycle = []) {progress : Progress} {answers : List (List UInt16)}
    (hprogress : GoodProgress scaling s s.heard progress answers)
    (hlast : s.blocks_.length ≤ progress.block_index) :
    Ended scaling s (s.finish_cycle env progress) := by
  obtain ⟨events, hstatus, hbus', hreadings⟩ := @publish_status_spec env s true hbus
  -- only readings are published behind the status
  have hevents : ∀ event ∈ readings_of s.config_ progress.values env.timestamp,
      event.isReading = true := by
    intro event hevent
    obtain ⟨i, -, hmap⟩ := List.mem_filterMap.mp hevent
    obtain ⟨value, -, rfl⟩ := Option.map_eq_some_iff.mp hmap
    rfl
  rw [finish_cycle, hstatus, foldl_publish]
  obtain ⟨next_tick, tasks, hnext, htasks⟩ := @schedule_next_spec env
    (end_cycle { s with
      published := s.published ++ events ++ readings_of s.config_ progress.values env.timestamp
      publishedInCycle := s.publishedInCycle ++ events ++
        readings_of s.config_ progress.values env.timestamp
      last_status_ := some true } (.finished env.timestamp))
  rw [hnext]
  refine ⟨rfl, rfl, rfl, rfl, rfl, htasks,
    ⟨_, rfl, rfl, ?_, answers, ?_, hprogress.heard, ?_⟩, hbus'.readings hevents⟩
  · change s.published ++ events ++ _ = s.published ++ (s.publishedInCycle ++ events ++ _)
    rw [hquiet, List.nil_append, List.append_assoc]
  · exact hprogress.count.trans (Nat.le_antisymm hprogress.bounded hlast)
  · -- all that the cycle publishes behind its status are readings
    have hall : readingsIn (readings_of s.config_ progress.values env.timestamp) =
        readings_of s.config_ progress.values env.timestamp := List.filter_eq_self.mpr hevents
    change readingsIn (s.publishedInCycle ++ events ++ _) = _
    rw [hquiet, List.nil_append, readingsIn, List.filter_append]
    change readingsIn events ++ readingsIn _ = _
    rw [hreadings, hall, List.nil_append, readings_of, hprogress.values, List.length_map,
      List.length_range]
    refine List.filterMap_congr fun i hi => ?_
    rw [List.getD_eq_getElem?_getD, List.getElem?_map,
      List.getElem?_range (List.mem_range.mp hi)]
    rfl

/-- What the client has answered when a task is there: a read is asked for with the progress so far,
and a queued result is the client's last answer. -/
def GoodTask (scaling : Scaling) (s : DevicePoller) : Task → Prop
  | .connect => s.heard = []
  | .connectDone ok => s.heard = [.connect ok]
  | .request command progress =>
      (∃ answers, GoodProgress scaling s s.heard progress answers) ∧
        progress.block_index < s.blocks_.length ∧
        command = block_command s.config_ (s.blocks_.getD progress.block_index {})
  | .result progress result =>
      (∃ before answers, GoodProgress scaling s before progress answers ∧
        s.heard = before ++
          [.block (block_command s.config_ (s.blocks_.getD progress.block_index {})) result]) ∧
        progress.block_index < s.blocks_.length
  | .start | .timer _ => True

/-- Progress reads the configuration and the blocks. -/
theorem GoodProgress.congr {scaling : Scaling} {s t : DevicePoller} {heard : List Answer}
    {progress : Progress} {answers : List (List UInt16)}
    (h : GoodProgress scaling s heard progress answers) (hconfig : t.config_ = s.config_)
    (hblocks : t.blocks_ = s.blocks_) : GoodProgress scaling t heard progress answers where
  count := h.count
  bounded := by rw [hblocks]; exact h.bounded
  values := by rw [hconfig, hblocks]; exact h.values
  heard := by rw [hconfig, hblocks]; exact h.heard

/-- A task reads the client's answers as well. -/
theorem GoodTask.congr {scaling : Scaling} {s t : DevicePoller} {task : Task}
    (h : GoodTask scaling s task) (hconfig : t.config_ = s.config_)
    (hblocks : t.blocks_ = s.blocks_) (hheard : t.heard = s.heard) : GoodTask scaling t task := by
  -- what is known of a task depends on the configuration, the blocks and what was heard
  cases task with
  | start | timer op => trivial
  | connect => exact hheard.trans h
  | connectDone ok => exact hheard.trans h
  | request command progress =>
      obtain ⟨⟨answers, hprogress⟩, hlt, hcommand⟩ := h
      refine ⟨⟨answers, hheard ▸ hprogress.congr hconfig hblocks⟩, ?_, ?_⟩
      · rw [hblocks]
        exact hlt
      · rw [hconfig, hblocks]
        exact hcommand
  | result progress result =>
      obtain ⟨⟨before, answers, hprogress, hlast⟩, hlt⟩ := h
      refine ⟨⟨before, answers, hprogress.congr hconfig hblocks, ?_⟩, ?_⟩
      · rw [hheard, hconfig, hblocks]
        exact hlast
      · rw [hblocks]
        exact hlt

/-- What a handler makes of a cycle: it waits for the client or has ended. -/
inductive CycleStep (scaling : Scaling) (s t : DevicePoller) : Prop where
  | waits (task : Task) (inCycle : task.inCycle = true) (good : GoodTask scaling s task)
      (h : t = { s with tasks := s.tasks ++ [task] })
  | ended (h : Ended scaling s t)

/-- The next block is asked for, or all have been answered. -/
theorem cycleStep_read_block (hbus : BusInv s.published s.last_status_)
    (hquiet : s.publishedInCycle = []) {progress : Progress} {answers : List (List UInt16)}
    (hprogress : GoodProgress scaling s s.heard progress answers) :
    CycleStep scaling s (s.read_block env progress) := by
  unfold read_block
  split
  · rename_i hlast
    exact .ended (ended_finish_cycle hbus hquiet hprogress hlast)
  · rename_i hlt
    exact .waits (.request _ progress) rfl ⟨⟨answers, hprogress⟩, Nat.not_le.mp hlt, rfl⟩ rfl

/-- After a connect the cycle goes on or fails, unless the poller was stopped. -/
theorem connect_done_cases (scaling : Scaling) (env : Surroundings)
    (hbus : BusInv s.published s.last_status_)
    (hquiet : s.publishedInCycle = []) {ok : Bool} (hgood : GoodTask scaling s (.connectDone ok)) :
    (s.stopped_ = true ∧ s.connect_done env ok = s) ∨
      CycleStep scaling s (s.connect_done env ok) := by
  unfold connect_done
  split
  · rename_i hstopped
    exact .inl ⟨hstopped, rfl⟩
  · cases ok with
    | false => exact .inr (.ended (ended_fail_cycle hbus hquiet (.inl ⟨hgood, rfl⟩)))
    | true =>
        exact .inr (cycleStep_read_block hbus hquiet (goodProgress_first scaling s (.inr hgood)))

/-- After an answer the cycle goes on or fails, unless the poller was stopped. -/
theorem result_done_cases (env : Surroundings)
    (hbus : BusInv s.published s.last_status_)
    (hquiet : s.publishedInCycle = []) {progress : Progress} {result : RegistersResult}
    (hgood : GoodTask scaling s (.result progress result)) :
    (s.stopped_ = true ∧ s.result_done scaling env progress result = s) ∨
      CycleStep scaling s (s.result_done scaling env progress result) := by
  unfold result_done
  split
  · rename_i hstopped
    exact .inl ⟨hstopped, rfl⟩
  · obtain ⟨⟨before, answers, hprogress, hlast⟩, hlt⟩ := hgood
    cases result with
    | error error =>
        -- the device refused, and that is the last thing heard
        have hrefused : Refused s.config_ s.heard error.message :=
          .inr ⟨_, by rw [hlast, List.getLast?_concat]⟩
        exact .inr (.ended (ended_fail_cycle hbus hquiet hrefused))
    | ok registers =>
        -- the answer is stored, and the next block or the end of the cycle follows
        have hstored := goodProgress_store hprogress hlt registers
        rw [← hlast] at hstored
        exact .inr (cycleStep_read_block hbus hquiet hstored)

/-- A cycle starts, unless the poller was stopped. -/
theorem run_cycle_cases (scaling : Scaling) (env : Surroundings)
    (hbus : BusInv s.published s.last_status_) :
    (s.stopped_ = true ∧ s.run_cycle env = s) ∨
      CycleStep scaling { s with cycles := s.cycles + 1, heard := [], publishedInCycle := [] }
        (s.run_cycle env) := by
  unfold run_cycle
  split
  · -- a tick behind the stop does nothing
    rename_i hstopped
    exact .inl ⟨hstopped, rfl⟩
  · dsimp only
    split
    · exact .inr (.waits .connect rfl rfl rfl)
    · exact .inr (@cycleStep_read_block scaling env
        { s with cycles := s.cycles + 1, heard := [], publishedInCycle := [] } hbus rfl _ _
        (goodProgress_first scaling _ (.inl rfl)))

end Handlers

/-! ## (4) The invariant -/

/-- The cycle on its way. -/
def current (s : DevicePoller) : List Nat :=
  if s.tasks.any Task.inCycle then [s.cycles] else []

/-- The cycles that ended, and those on their way, are among the started ones, in order; as long as
the poller has not been stopped, they are all of them. -/
def Ledger (s : DevicePoller) (current : List Nat) : Prop :=
  (s.ends.map CycleEnd.cycle ++ current).Sublist (List.range' 1 s.cycles) ∧
    (s.stopped_ = false → s.ends.map CycleEnd.cycle ++ current = List.range' 1 s.cycles)

/-- What holds of the poller also while a handler runs. -/
structure Settled (scaling : Scaling) (config : ModbusDeviceConfig) (blocks : List ReadBlock)
    (s : DevicePoller) : Prop where
  config_eq : s.config_ = config
  blocks_eq : s.blocks_ = blocks
  bus : BusInv s.published s.last_status_
  ends : ∀ e ∈ s.ends, GoodEnd scaling config blocks e
  atomic : s.published = (s.ends.map CycleEnd.published).flatten

/-- The invariant: the poller waits for at most one thing. -/
structure PollInv (scaling : Scaling) (config : ModbusDeviceConfig) (blocks : List ReadBlock)
    (s : DevicePoller) : Prop extends Settled scaling config blocks s where
  single : s.tasks.length ≤ 1
  unstarted : s.started = false → s.tasks = []
  good : ∀ task ∈ s.tasks, GoodTask scaling s task
  quiet : s.tasks.any Task.inCycle = true → s.publishedInCycle = []
  ledger : s.Ledger s.current

section Invariant

variable {scaling : Scaling} {config : ModbusDeviceConfig} {blocks : List ReadBlock}
  {env : Surroundings} {s t : DevicePoller}

/-- Without a task no cycle is on its way. -/
theorem pollInv_of_nil (hs : Settled scaling config blocks s) (htasks : s.tasks = [])
    (hledger : s.Ledger []) : PollInv scaling config blocks s where
  toSettled := hs
  single := htasks ▸ Nat.zero_le 1
  unstarted := fun _ => htasks
  good := by rw [htasks]; exact fun _ h => absurd h List.not_mem_nil
  quiet := by rw [htasks]; exact fun h => absurd h Bool.false_ne_true
  ledger := by rw [current, htasks]; exact hledger

/-- The end of a handler that works on a cycle. -/
theorem pollInv_cycleStep (hs : Settled scaling config blocks s) (htasks : s.tasks = [])
    (hstarted : s.started = true) (hledger : s.Ledger [s.cycles])
    (hquiet : s.publishedInCycle = []) (h : CycleStep scaling s t) :
    PollInv scaling config blocks t := by
  cases h with
  -- the cycle waits for a callback: its own task is the only one
  | waits task hinCycle hgood ht =>
      subst ht
      refine ⟨⟨hs.config_eq, hs.blocks_eq, hs.bus, hs.ends, hs.atomic⟩, ?_, ?_, ?_,
        fun _ => hquiet, ?_⟩
      · simp [htasks]
      · simp [hstarted]
      · rw [htasks]
        intro task' htask'
        rw [List.nil_append, List.mem_singleton] at htask'
        rw [htask']
        exact hgood.congr rfl rfl rfl
      · rw [current, htasks, List.nil_append, List.any_cons, hinCycle, Bool.true_or, if_pos rfl]
        exact hledger
  -- the cycle has ended: its record is complete, and the timer may be the only task
  | ended h =>
      obtain ⟨e, hends, hcycle, hpublished, hgood⟩ := h.ends
      rw [hs.config_eq, hs.blocks_eq] at hgood
      have hsettled : Settled scaling config blocks t := by
        refine ⟨h.config.trans hs.config_eq, h.blocks.trans hs.blocks_eq, h.bus, ?_, ?_⟩
        · rw [hends]
          exact List.forall_mem_append.mpr ⟨hs.ends, List.forall_mem_singleton.mpr hgood⟩
        · rw [hpublished, hends, hs.atomic]
          simp
      have hledger' : t.Ledger [] := by
        unfold Ledger
        rw [hends, h.cycles, h.stopped, List.map_append, List.append_nil]
        change (_ ++ [e.cycle]).Sublist _ ∧ (_ → _ ++ [e.cycle] = _)
        rw [hcycle]
        exact hledger
      rcases h.tasks with hsame | hmore
      · exact pollInv_of_nil hsettled (hsame.trans htasks) hledger'
      · rw [htasks, List.nil_append] at hmore
        refine ⟨hsettled, ?_, ?_, ?_, ?_, ?_⟩
        · rw [hmore]; rfl
        · rw [h.started, hstarted]; exact fun h => absurd h.symm Bool.false_ne_true
        · rw [hmore]; exact fun task h => List.mem_singleton.mp h ▸ trivial
        · rw [hmore]; exact fun h => absurd h Bool.false_ne_true
        · rw [current, hmore]; exact hledger'

/-- The cycle that starts is the next one. -/
theorem ledger_next (h : s.Ledger []) :
    ({ s with cycles := s.cycles + 1, heard := [], publishedInCycle := [] } : DevicePoller).Ledger
      [s.cycles + 1] := by
  obtain ⟨hsub, heq⟩ := h
  rw [List.append_nil] at hsub heq
  unfold Ledger
  dsimp only
  rw [List.range'_1_concat, Nat.add_comm 1]
  exact ⟨hsub.append_right _, fun hstopped => by rw [heq hstopped]⟩

/-- A cycle that starts keeps the invariant. -/
theorem pollInv_run_cycle (hs : Settled scaling config blocks s) (htasks : s.tasks = [])
    (hstarted : s.started = true) (hledger : s.Ledger []) :
    PollInv scaling config blocks (s.run_cycle env) := by
  rcases run_cycle_cases scaling env hs.bus with ⟨-, hsame⟩ | hcycle
  · rw [hsame]
    exact pollInv_of_nil hs htasks hledger
  · exact pollInv_cycleStep
      (s := { s with cycles := s.cycles + 1, heard := [], publishedInCycle := [] })
      ⟨hs.config_eq, hs.blocks_eq, hs.bus, hs.ends, hs.atomic⟩ htasks hstarted
      (ledger_next hledger) rfl hcycle

/-! ## (5) Events -/

/-- Other tasks that belong to the same cycle. -/
theorem PollInv.of_tasks (hs : PollInv scaling config blocks s) {tasks : List Task} (cancels : Nat)
    (heard : List Answer) (hlength : tasks.length = s.tasks.length)
    (hgood : ∀ task ∈ tasks, GoodTask scaling { s with heard := heard } task)
    (hcycle : tasks.any Task.inCycle = s.tasks.any Task.inCycle) :
    PollInv scaling config blocks
      { s with tasks := tasks, cancels := cancels, heard := heard } := by
  refine ⟨⟨hs.config_eq, hs.blocks_eq, hs.bus, hs.ends, hs.atomic⟩, ?_, ?_, ?_, ?_, ?_⟩
  · exact hlength.trans_le hs.single
  · intro hstarted
    rw [hs.unstarted hstarted] at hlength
    exact List.eq_nil_of_length_eq_zero hlength
  · exact fun task htask => (hgood task htask).congr rfl rfl rfl
  · intro h
    exact hs.quiet (hcycle.symm.trans h)
  · have hcurrent : ({ s with tasks := tasks, cancels := cancels, heard := heard } :
        DevicePoller).current = s.current := by rw [current, current, hcycle]
    rw [hcurrent]
    exact hs.ledger

/-- `stop()` keeps the invariant: from now on cycles may be given up. -/
theorem PollInv.stop (hs : PollInv scaling config blocks s) :
    PollInv scaling config blocks s.stop where
  config_eq := hs.config_eq
  blocks_eq := hs.blocks_eq
  bus := hs.bus
  ends := hs.ends
  atomic := hs.atomic
  single := hs.single
  unstarted := hs.unstarted
  good := fun task htask => (hs.good task htask).congr rfl rfl rfl
  quiet := hs.quiet
  ledger := ⟨hs.ledger.1, fun h => absurd h.symm Bool.false_ne_true⟩

/-- A task that is there is the only one. -/
theorem PollInv.tasks_eq (hs : PollInv scaling config blocks s) {task : Task}
    (htask : task ∈ s.tasks) : s.tasks = [task] := by
  obtain ⟨task', htask'⟩ := List.length_eq_one_iff.mp
    (Nat.le_antisymm hs.single (List.length_pos_of_mem htask))
  rw [htask', List.mem_singleton] at htask
  rw [htask', htask]

/-- The one task turns into the next one, with what the client has answered. -/
theorem pollInv_replace (hs : PollInv scaling config blocks s) (old new : Task)
    {heard : List Answer}
    (hgood : GoodTask scaling s old → GoodTask scaling { s with heard := heard } new)
    (hcycle : new.inCycle = old.inCycle)
    (h : ({ s with heard := heard } : DevicePoller).replace old new = some t) :
    PollInv scaling config blocks t := by
  obtain ⟨hold, ht⟩ := Option.ite_none_right_eq_some.mp h
  have htasks : s.tasks = [old] := hs.tasks_eq hold
  have hnil : s.tasks.erase old = [] := by rw [htasks, List.erase_cons_head]
  rw [← Option.some.inj ht]
  dsimp only
  rw [hnil, List.nil_append]
  refine hs.of_tasks s.cancels heard (by rw [htasks]; rfl) (fun task htask => ?_) ?_
  · rw [List.mem_singleton.mp htask]
    exact hgood (hs.good old hold)
  · rw [htasks, List.any_cons, List.any_cons, hcycle]

/-- A connect ends: the client has answered it and nothing else. -/
theorem GoodTask.connected {ok : Bool} (h : GoodTask scaling s .connect) :
    GoodTask scaling (s.hear (.connect ok)) (.connectDone ok) := by
  have hnone : s.heard = [] := h
  change s.heard ++ [.connect ok] = [.connect ok]
  rw [hnone, List.nil_append]

/-- The read that was asked for is answered. -/
theorem GoodTask.answered {command : Command} {progress : Progress} {result : RegistersResult}
    (h : GoodTask scaling s (.request command progress)) :
    GoodTask scaling (s.hear (.block command result)) (.result progress result) := by
  obtain ⟨⟨answers, hprogress⟩, hlt, rfl⟩ := h
  exact ⟨⟨s.heard, answers, hprogress.congr rfl rfl, rfl⟩, hlt⟩

/-- Cancelling the timer touches no cycle. -/
theorem pollInv_cancel (hs : PollInv scaling config blocks s) (cancels : Nat) :
    PollInv scaling config blocks
      { s with cancels := cancels, tasks := s.tasks.map cancelTask } := by
  refine hs.of_tasks cancels s.heard (List.length_map ..) ?_ ?_
  · intro task htask
    obtain ⟨task', htask', rfl⟩ := List.mem_map.mp htask
    cases task' with
    | timer op => trivial
    | start | connect | connectDone ok | request command progress | result progress result =>
        exact hs.good _ htask'
  · rw [List.any_map]
    congr 1
    funext task
    cases task <;> rfl

/-- A stopped poller gives a cycle up. -/
theorem Ledger.giveUp {current : List Nat} (h : s.Ledger current) (hstopped : s.stopped_ = true) :
    s.Ledger [] := by
  refine ⟨?_, fun h => absurd (h.symm.trans hstopped) Bool.false_ne_true⟩
  rw [List.append_nil]
  exact (List.sublist_append_left _ _).trans h.1

/-- A handler keeps the invariant: `hs` speaks of the state in which its task is still queued. -/
theorem pollInv_handler {task : Task} (hs : PollInv scaling config blocks s)
    (htask : task ∈ s.tasks)
    (h : handler scaling env { s with tasks := s.tasks.erase task } task = some t) :
    PollInv scaling config blocks t := by
  have htasks := hs.tasks_eq htask
  have hnil : s.tasks.erase task = [] := by rw [htasks, List.erase_cons_head]
  have hstarted : s.started = true := by
    by_contra hne
    rw [hs.unstarted (Bool.eq_false_iff.mpr hne)] at htasks
    cases htasks
  have hcurrent : s.current = if task.inCycle then [s.cycles] else [] := by
    rw [current, htasks, List.any_cons, List.any_nil, Bool.or_false]
  have hledger : s.Ledger (if task.inCycle then [s.cycles] else []) := hcurrent ▸ hs.ledger
  have hsettled : Settled scaling config blocks { s with tasks := ([] : List Task) } :=
    ⟨hs.config_eq, hs.blocks_eq, hs.bus, hs.ends, hs.atomic⟩
  have hquiet : task.inCycle = true → s.publishedInCycle = [] := by
    intro hcycle
    exact hs.quiet (List.any_eq_true.mpr ⟨task, htask, hcycle⟩)
  rw [hnil] at h
  cases task with
  | start =>
      rw [← Option.some.inj h]
      exact pollInv_run_cycle (s := { s with tasks := ([] : List Task), next_tick_ := env.now })
        ⟨hs.config_eq, hs.blocks_eq, hs.bus, hs.ends, hs.atomic⟩ rfl hstarted hledger
  | connectDone ok =>
      rw [← Option.some.inj h]
      have hgood : GoodTask scaling { s with tasks := ([] : List Task) } (.connectDone ok) :=
        (hs.good _ htask).congr rfl rfl rfl
      rcases connect_done_cases scaling env hsettled.bus (hquiet rfl) hgood with
        ⟨hstopped, hsame⟩ | hcycle
      · -- the poller was stopped: the cycle is given up without a trace
        rw [hsame]
        exact pollInv_of_nil hsettled rfl (hledger.giveUp hstopped)
      · exact pollInv_cycleStep hsettled rfl hstarted hledger (hquiet rfl) hcycle
  | result progress result =>
      rw [← Option.some.inj h]
      have hgood : GoodTask scaling { s with tasks := ([] : List Task) }
          (.result progress result) := (hs.good _ htask).congr rfl rfl rfl
      rcases result_done_cases env hsettled.bus (hquiet rfl) hgood with
        ⟨hstopped, hsame⟩ | hcycle
      · rw [hsame]
        exact pollInv_of_nil hsettled rfl (hledger.giveUp hstopped)
      · exact pollInv_cycleStep hsettled rfl hstarted hledger (hquiet rfl) hcycle
  | timer op =>
      match op, h with
      | .completed (.ok ()), h =>
          rw [← Option.some.inj h]
          exact pollInv_run_cycle hsettled rfl hstarted hledger
      | .completed (.error _), h =>
          rw [← Option.some.inj h]
          exact pollInv_of_nil hsettled rfl hledger
  | connect => cases h
  | request command progress => cases h

/-- **Every event keeps the invariant.** -/
theorem pollInv_step {e : Event} (hs : PollInv scaling config blocks s)
    (h : step scaling s e = some t) : PollInv scaling config blocks t := by
  cases e with
  -- a start is only possible where nothing has been done
  | start =>
      obtain ⟨hstarted, ht⟩ := Option.ite_none_left_eq_some.mp h
      have hnil := hs.unstarted (Bool.eq_false_iff.mpr hstarted)
      have hledger : s.Ledger [] := by
        have := hs.ledger
        rwa [current, hnil] at this
      rw [← Option.some.inj ht, hnil]
      refine ⟨⟨hs.config_eq, hs.blocks_eq, hs.bus, hs.ends, hs.atomic⟩, le_rfl, ?_, ?_, ?_, ?_⟩
      · exact fun h => absurd h.symm Bool.false_ne_true
      · intro task htask
        rw [List.nil_append, List.mem_singleton] at htask
        rw [htask]
        trivial
      · exact fun h => absurd h Bool.false_ne_true
      · exact hledger
  | stop =>
      rw [← Option.some.inj h]
      exact hs.stop
  -- a callback turns the waiting task into a ready one
  | connectCallback ok =>
      exact pollInv_replace hs .connect (.connectDone ok) GoodTask.connected rfl h
  | requestCallback command progress result =>
      exact pollInv_replace hs (.request command progress) (.result progress result)
        GoodTask.answered rfl h
  | timerFires =>
      exact pollInv_replace hs (.timer .pending) (.timer (.completed (.ok ())))
        (fun _ => trivial) rfl h
  | runCancel =>
      obtain ⟨-, ht⟩ := Option.ite_none_left_eq_some.mp h
      rw [← Option.some.inj ht]
      exact pollInv_cancel hs _
  -- a handler runs with the worker to itself; a stop from outside may come with it
  | runTask task env =>
      obtain ⟨htask, hrun⟩ := Option.ite_none_right_eq_some.mp h
      obtain ⟨u, hu, rfl⟩ := Option.map_eq_some_iff.mp hrun
      have hinv := pollInv_handler hs htask hu
      split
      · exact hinv.stop
      · exact hinv

end Invariant

/-! ## (6) Runs -/

/-- Connects and requests that have not been answered. -/
def outstanding (s : DevicePoller) : List Task :=
  s.tasks.filter fun task => match task with
    | .connect | .request _ _ => true
    | _ => false

/-- What holds at any time. -/
structure PollCycles (scaling : Scaling) (S : StdSort) (config : ModbusDeviceConfig)
    (s : DevicePoller) : Prop where
  outstanding : s.outstanding.length ≤ 1
  /-- No cycle ends twice, and the one on its way has not ended. -/
  once : (s.ends.map CycleEnd.cycle ++ s.current).Nodup
  /-- Before `stop()` every cycle that was started has ended or is on its way. -/
  ended : s.stopped_ = false → ∀ cycle, 1 ≤ cycle → cycle ≤ s.cycles →
    cycle ∈ s.ends.map CycleEnd.cycle ∨ cycle ∈ s.current
  /-- A cycle publishes all at its end: a failed one, after the client has refused something, no
  reading, and a finished one, after the client has answered every block, one reading for each sensor
  with a value in these answers, all with one timestamp. -/
  readings : ∀ e ∈ s.ends, GoodEnd scaling config (plan_reads S config.sensors) e
  atomic : s.published = (s.ends.map CycleEnd.published).flatten
  alternate : (statuses s.published).IsChain (· ≠ ·)
  online : ReadingsOnline s.published

/-- The invariant is what the cycles promise. -/
theorem PollInv.pollCycles {scaling : Scaling} {S : StdSort} {config : ModbusDeviceConfig}
    {s : DevicePoller} (hs : PollInv scaling config (plan_reads S config.sensors) s) :
    PollCycles scaling S config s where
  outstanding := (List.length_filter_le _ _).trans hs.single
  once := hs.ledger.1.nodup List.nodup_range'
  ended := by
    intro hstopped cycle hpos hle
    rw [← List.mem_append, hs.ledger.2 hstopped, List.mem_range'_1]
    omega
  readings := hs.ends
  atomic := hs.atomic
  alternate := hs.bus.alternate
  online := hs.bus.online

/-- A new poller meets the invariant. -/
theorem pollInv_create (scaling : Scaling) (S : StdSort) (config : ModbusDeviceConfig) :
    PollInv scaling config (plan_reads S config.sensors) (create S config) :=
  pollInv_of_nil ⟨rfl, rfl, ⟨List.isChain_nil, rfl, fun n hn => absurd hn (Nat.not_lt_zero n)⟩,
    fun _ he => absurd he List.not_mem_nil, rfl⟩ rfl ⟨List.Sublist.refl _, fun _ => rfl⟩

/-- **Poll cycles are atomic and the status is consistent**, along every run. -/
theorem alongRun_pollCycles (scaling : Scaling) (S : StdSort) (config : ModbusDeviceConfig)
    (es : List Event) :
    AlongRun (step scaling) (PollCycles scaling S config) (create S config) es := by
  intro fs t _ ht
  exact PollInv.pollCycles
    (run_invariant (fun hs h => pollInv_step hs h) (pollInv_create scaling S config) ht)

/-- One sensor, read every second. -/
def clock_config : ModbusDeviceConfig := { id := "plc", host := "plc", sensors := [{ id := "t" }] }

/-- The surroundings of a handler at a time in milliseconds. -/
def clock_env (connected : Bool) (ms : Int) : Surroundings where
  connected := connected
  now := ms * 1000000
  timestamp := 0
  statusTime := 0
  stopDuring := false

/-- The device answers a first cycle with 7 and refuses the read of a second one. -/
def answeredThenRefused : List Event :=
  [.start, .runTask .start (clock_env false 0), .connectCallback true,
    .runTask (.connectDone true) (clock_env true 0),
    .requestCallback (.read_holding_registers 1 0 1) ⟨0, [none]⟩ (.ok [7]),
    .runTask (.result ⟨0, [none]⟩ (.ok [7])) (clock_env true 1), .timerFires,
    .runTask (.timer (.completed (.ok ()))) (clock_env true 1000),
    .requestCallback (.read_holding_registers 1 0 1) ⟨0, [none]⟩ (.error ⟨"timed out"⟩),
    .runTask (.result ⟨0, [none]⟩ (.error ⟨"timed out"⟩)) (clock_env false 1000)]

/-- The first cycle publishes its reading, the second one that the device is offline. -/
theorem alongRun_pollCycles_answeredThenRefused :
    (run (step exactScaling) (create StdSort.stable clock_config) answeredThenRefused).map
        published = some [.status "plc" true 0, .reading "t" (.finite 7) 0,
          .pollError "plc" "timed out", .status "plc" false 0] ∧
      AlongRun (step exactScaling) (PollCycles exactScaling StdSort.stable clock_config)
        (create StdSort.stable clock_config) answeredThenRefused :=
  ⟨by decide +kernel, alongRun_pollCycles _ _ _ _⟩

end DevicePoller

end Ironpulse.Protocol
