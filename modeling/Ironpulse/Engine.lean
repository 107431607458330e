import Ironpulse.Lib.StepMachine
import Ironpulse.Storage.WriteThrough

/-! # Shutting the engine down

`main` (`src/main.cpp`) with persistence enabled: the I/O threads run the handlers that log
readings, flush and prune, the HTTP server reads histories, and the main thread goes through the
shutdown sequence once a signal has cleared `g_running`. Handlers that do not touch the log are left
out.

* **`Engine`, `step`**: the main thread and the I/O threads, one action at a time.
* **`AllWritten`**: every record that was ever appended has been written.
* **`logs_step`**: what an event does to the log, and when the main thread flushes it.
* **`allWritten_iff`**: when everything is written as `main` returns. -/

namespace Ironpulse

open Core StepMachine Storage Storage.WalWriter

/-! ## (1) The machine -/

/-- A reading that `finish_cycle` publishes and the store appends to the log. -/
structure Reading where
  sensor_id : String
  value : UInt64
  timestamp : TimePoint
  deriving DecidableEq

/-- What an I/O thread does. -/
inductive IoThread where
  /-- It waits for a handler. -/
  | idle
  /-- `finish_cycle` of a poller, with the readings it has not published yet. -/
  | publishing (poller : Nat) (readings : List Reading)
  /-- The maintenance timer's handler, with the calls it has not made yet. -/
  | maintaining (calls : List Call)
  /-- `io_context.run()` has returned. -/
  | exited
  deriving DecidableEq

/-- What the main thread does next. -/
inductive MainStep where
  /-- The loop `while (g_running)`. -/
  | running
  | stopPollers
  | stopHttpServer
  | stopWsServer
  | cancelTimer
  | stopNotifier
  | flushWal
  | resetWorkGuard
  | stopIoContext
  | joinThreads
  | stopExporter
  | returned
  deriving DecidableEq

/-- The main thread has called `flush_all`. -/
def MainStep.flushed : MainStep → Bool
  | .running | .stopPollers | .stopHttpServer | .stopWsServer | .cancelTimer | .stopNotifier
  | .flushWal => false
  | .resetWorkGuard | .stopIoContext | .joinThreads | .stopExporter | .returned => true

/-- The state of `main` with the threads it has started. -/
structure Engine where
  wal : WalWriter
  g_running : Bool := true
  main : MainStep := .running
  /-- The pollers below this number have been stopped. -/
  stopped_pollers : Nat := 0
  http_running : Bool := true
  io_stopped : Bool := false
  io_threads : List IoThread
  /-- All calls on the log so far. -/
  calls : List Call := []

namespace Engine

/-- The settings of a start. -/
structure Settings where
  worker_threads : Nat
  pollers : Nat
  /-- The retention period. -/
  retention : Milliseconds

/-- A call on the log. -/
def logCall (s : Engine) (c : Call) : Engine :=
  { s with wal := s.wal.call c, calls := s.calls ++ [c] }

/-- The engine when it says that it is running: the log has been pruned once. -/
def create (settings : Settings) (files : Files) (now : TimePoint) : Engine :=
  logCall
    { wal := { files := files }
      io_threads := List.replicate settings.worker_threads .idle }
    (.prune_older_than now settings.retention)

/-- One action of one thread, or of the outside. -/
inductive Event where
  /-- SIGINT or SIGTERM. -/
  | signal
  /-- The main thread takes its next step. -/
  | main
  /-- The handler of a poller's last result begins to publish its readings. -/
  | beginCycle (thread poller : Nat) (readings : List Reading)
  /-- The maintenance timer's handler begins; once an hour it also prunes. -/
  | beginMaintenance (thread : Nat) (prune : Option TimePoint)
  /-- A handler takes its next step. -/
  | run (thread : Nat)
  /-- A thread leaves `io_context.run()`. -/
  | exit (thread : Nat)
  /-- A history request of an HTTP client. -/
  | history (sensor_id : String) (since : TimePoint)

variable (settings : Settings)

/-- The main thread. -/
def mainStep (s : Engine) : Option Engine :=
  match s.main with
  | .running => if s.g_running then none else some { s with main := .stopPollers }
  | .stopPollers =>
      some (if s.stopped_pollers < settings.pollers then
        { s with stopped_pollers := s.stopped_pollers + 1 }
      else { s with main := .stopHttpServer })
  | .stopHttpServer => some { s with http_running := false, main := .stopWsServer }
  | .stopWsServer => some { s with main := .cancelTimer }
  | .cancelTimer => some { s with main := .stopNotifier }
  | .stopNotifier => some { s with main := .flushWal }
  | .flushWal => some { s.logCall .flush_all with main := .resetWorkGuard }
  | .resetWorkGuard => some { s with main := .stopIoContext }
  | .stopIoContext => some { s with io_stopped := true, main := .joinThreads }
  | .joinThreads =>
      if ∀ thread ∈ s.io_threads, thread = .exited then some { s with main := .stopExporter }
      else none
  | .stopExporter => some { s with main := .returned }
  | .returned => none

/-- The next step of the handler that a thread runs. -/
def runHandler (s : Engine) (thread : Nat) : Option Engine :=
  match s.io_threads[thread]? with
  | some (.publishing poller (reading :: readings)) =>
      some (logCall { s with io_threads := s.io_threads.set thread (.publishing poller readings) }
        (.append reading.sensor_id reading.value reading.timestamp))
  | some (.maintaining (c :: calls)) =>
      some (logCall { s with io_threads := s.io_threads.set thread (.maintaining calls) } c)
  | some (.publishing _ []) | some (.maintaining []) =>
      some { s with io_threads := s.io_threads.set thread .idle }
  | some .idle | some .exited | none => none

/-- A poller's handlers run on its strand: at most one thread runs one of them. -/
def Publishes (poller : Nat) : IoThread → Prop
  | .publishing p _ => p = poller
  | _ => False

/-- The maintenance timer is armed again at the end of its handler. -/
def Maintains : IoThread → Prop
  | .maintaining _ => True
  | _ => False

instance (poller : Nat) : DecidablePred (Publishes poller)
  | .publishing p _ => inferInstanceAs (Decidable (p = poller))
  | .idle | .maintaining _ | .exited => inferInstanceAs (Decidable False)

instance : DecidablePred Maintains
  | .maintaining _ => inferInstanceAs (Decidable True)
  | .idle | .publishing _ _ | .exited => inferInstanceAs (Decidable False)

/-- A handler can begin on an idle thread until the I/O context is stopped. -/
def Free (s : Engine) (thread : Nat) : Prop :=
  s.io_threads[thread]? = some .idle ∧ s.io_stopped = false

instance (s : Engine) (thread : Nat) : Decidable (s.Free thread) :=
  inferInstanceAs (Decidable (_ ∧ _))

/-- The engine after one action, or `none` when the action cannot be taken. -/
def step (s : Engine) : Event → Option Engine
  | .signal => some { s with g_running := false }
  | .main => mainStep settings s
  | .beginCycle thread poller readings =>
      -- the handler has looked at `stopped_` before it publishes
      if s.Free thread ∧ poller < settings.pollers ∧ s.stopped_pollers ≤ poller ∧
          ∀ other ∈ s.io_threads, ¬ Publishes poller other then
        some { s with io_threads := s.io_threads.set thread (.publishing poller readings) }
      else none
  | .beginMaintenance thread prune =>
      if s.Free thread ∧ s.g_running = true ∧ ∀ other ∈ s.io_threads, ¬ Maintains other then
        some { s with
          io_threads := s.io_threads.set thread (.maintaining (.flush_all ::
            (prune.map fun now => Call.prune_older_than now settings.retention).toList)) }
      else none
  | .run thread => s.runHandler thread
  | .exit thread =>
      if s.io_threads[thread]? = some .idle ∧ s.io_stopped = true then
        some { s with io_threads := s.io_threads.set thread .exited }
      else none
  | .history sensor_id since =>
      if s.http_running then some (s.logCall (.read_since sensor_id since)) else none

/-! ## (2) What is written -/

/-- Every record that was ever appended has been written: each sensor's file is the same as if the
log had buffered nothing. -/
def AllWritten (files : Files) (s : Engine) : Prop :=
  ∀ sensor_id, s.wal.files.content (file_for sensor_id) =
    (s.calls.foldl call (writeThrough files)).files.content (file_for sensor_id)

/-- What one event does to the log: nothing, or one call, which is on record. -/
def Logs (s t : Engine) : Prop :=
  (t.wal = s.wal ∧ t.calls = s.calls) ∨
    ∃ c, t.wal = s.wal.call c ∧ t.calls = s.calls ++ [c]

/-- The log is what the calls so far have made of it. -/
def Replays (files : Files) (s : Engine) : Prop :=
  s.wal = s.calls.foldl call { files := files }

/-- No reading is appended after the `flush_all` of `main`. -/
def QuietSinceFlush (settings : Settings) (files : Files) (now : TimePoint) (events : List Event)
    (t : Engine) : Prop :=
  ∀ before s after, events = before ++ .main :: after →
    run (step settings) (create settings files now) before = some s → s.main = .flushWal →
      ∀ sensor_id value timestamp,
        .append sensor_id value timestamp ∉ t.calls.drop s.calls.length

section Steps

variable {settings : Settings} {files : Files} {s t : Engine}

/-- A handler's next step is a call on the log, or its end. -/
theorem logs_runHandler {thread : Nat} (hstep : s.runHandler thread = some t) : Logs s t := by
  unfold runHandler at hstep
  split at hstep
  · rw [← Option.some.inj hstep]
    exact .inr ⟨_, rfl, rfl⟩
  · rw [← Option.some.inj hstep]
    exact .inr ⟨_, rfl, rfl⟩
  · rw [← Option.some.inj hstep]
    exact .inl ⟨rfl, rfl⟩
  · rw [← Option.some.inj hstep]
    exact .inl ⟨rfl, rfl⟩
  · cases hstep
  · cases hstep
  · cases hstep

/-- The main thread calls `flush_all` once, in the step that is named so. -/
theorem logs_mainStep (hstep : mainStep settings s = some t) :
    Logs s t ∧ (s.main = .flushWal → t.calls = s.calls ++ [.flush_all]) ∧
      (s.main.flushed = false → t.main.flushed = true → s.main = .flushWal) := by
  unfold mainStep at hstep
  cases hmain : s.main with
  | running =>
      rw [hmain] at hstep
      obtain ⟨-, ht⟩ := Option.ite_none_left_eq_some.mp hstep
      rw [← Option.some.inj ht]
      exact ⟨.inl ⟨rfl, rfl⟩, by rintro ⟨⟩, fun _ h => by cases h⟩
  | stopPollers =>
      rw [hmain] at hstep
      rw [← Option.some.inj hstep]
      refine ⟨?_, by rintro ⟨⟩, fun _ h => ?_⟩
      · split <;> exact .inl ⟨rfl, rfl⟩
      · split at h <;> cases h
  | flushWal =>
      rw [hmain] at hstep
      rw [← Option.some.inj hstep]
      exact ⟨.inr ⟨_, rfl, rfl⟩, fun _ => rfl, fun _ _ => rfl⟩
  | joinThreads =>
      rw [hmain] at hstep
      obtain ⟨-, ht⟩ := Option.ite_none_right_eq_some.mp hstep
      rw [← Option.some.inj ht]
      exact ⟨.inl ⟨rfl, rfl⟩, by rintro ⟨⟩, fun h _ => by cases h⟩
  -- main has returned: there is no further step
  | returned => rw [hmain] at hstep; cases hstep
  | stopHttpServer | stopWsServer | cancelTimer | stopNotifier =>
      rw [hmain] at hstep
      rw [← Option.some.inj hstep]
      exact ⟨.inl ⟨rfl, rfl⟩, by rintro ⟨⟩, fun _ h => by cases h⟩
  | resetWorkGuard | stopIoContext | stopExporter =>
      rw [hmain] at hstep
      rw [← Option.some.inj hstep]
      exact ⟨.inl ⟨rfl, rfl⟩, by rintro ⟨⟩, fun h _ => by cases h⟩

/-- A handler leaves the main thread alone. -/
theorem main_runHandler {thread : Nat} (hstep : s.runHandler thread = some t) :
    t.main = s.main := by
  unfold runHandler at hstep
  split at hstep
  all_goals cases hstep
  all_goals rfl

/-- **What an event does to the log and to the main thread**: at most one call, and the main thread
gets behind its `flush_all` by making it. -/
theorem logs_step {e : Event} (hstep : step settings s e = some t) :
    Logs s t ∧ (s.main.flushed = false → t.main.flushed = true →
      e = .main ∧ s.main = .flushWal ∧ t.calls = s.calls ++ [.flush_all]) := by
  -- no other event moves main, so the flush is not behind it
  have hother : t.main = s.main → s.main.flushed = false → t.main.flushed = true →
      e = .main ∧ s.main = .flushWal ∧ t.calls = s.calls ++ [.flush_all] := by
    intro hmain hs ht
    rw [hmain, hs] at ht
    cases ht
  cases e with
  | signal =>
      rw [← Option.some.inj hstep] at hother ⊢
      exact ⟨.inl ⟨rfl, rfl⟩, hother rfl⟩
  | main =>
      obtain ⟨hlogs, hflush, hmain⟩ := logs_mainStep hstep
      exact ⟨hlogs, fun hs ht => ⟨rfl, hmain hs ht, hflush (hmain hs ht)⟩⟩
  | beginCycle thread poller readings =>
      obtain ⟨-, ht⟩ := Option.ite_none_right_eq_some.mp hstep
      rw [← Option.some.inj ht] at hother ⊢
      exact ⟨.inl ⟨rfl, rfl⟩, hother rfl⟩
  | beginMaintenance thread prune =>
      obtain ⟨-, ht⟩ := Option.ite_none_right_eq_some.mp hstep
      rw [← Option.some.inj ht] at hother ⊢
      exact ⟨.inl ⟨rfl, rfl⟩, hother rfl⟩
  | run thread => exact ⟨logs_runHandler hstep, hother (main_runHandler hstep)⟩
  | exit thread =>
      obtain ⟨-, ht⟩ := Option.ite_none_right_eq_some.mp hstep
      rw [← Option.some.inj ht] at hother ⊢
      exact ⟨.inl ⟨rfl, rfl⟩, hother rfl⟩
  | history sensor_id since =>
      obtain ⟨-, ht⟩ := Option.ite_none_right_eq_some.mp hstep
      rw [← Option.some.inj ht] at hother ⊢
      exact ⟨.inr ⟨_, rfl, rfl⟩, hother rfl⟩

/-- The record of the calls is kept by every event. -/
theorem Replays.step {e : Event} (h : Replays files s) (hstep : step settings s e = some t) :
    Replays files t := by
  rcases (logs_step hstep).1 with ⟨hwal, hcalls⟩ | ⟨c, hwal, hcalls⟩
  · rw [Replays, hwal, hcalls]
    exact h
  · rw [Replays, hwal, hcalls, List.foldl_concat, ← h]

/-- So the log is what its calls made of it, at any moment of a run. -/
theorem replays_run {now : TimePoint} {events : List Event}
    (hrun : run (step settings) (create settings files now) events = some t) :
    Replays files t :=
  run_invariant (fun hs h => hs.step h) (show Replays files (create settings files now) from rfl)
    hrun

/-- No call is taken off the record. -/
theorem calls_isPrefixOf_run {events : List Event} (hrun : run (step settings) s events = some t) :
    s.calls <+: t.calls := by
  suffices hkeeps : ∀ {u v : Engine} {e : Event}, s.calls <+: u.calls →
      step settings u e = some v → s.calls <+: v.calls from
    run_invariant hkeeps List.prefix_rfl hrun
  intro u v e hs h
  refine hs.trans ?_
  rcases (logs_step h).1 with ⟨-, hcalls⟩ | ⟨c, -, hcalls⟩
  · rw [hcalls]
  · exact hcalls ▸ List.prefix_append _ _

/-- **On its way to the end the main thread calls `flush_all`.** -/
theorem exists_flush {events : List Event} (hrun : run (step settings) s events = some t)
    (hs : s.main.flushed = false) (ht : t.main.flushed = true) :
    ∃ before u after, events = before ++ .main :: after ∧ run (step settings) s before = some u ∧
      u.main = .flushWal ∧ u.calls ++ [.flush_all] <+: t.calls := by
  induction events generalizing s with
  | nil =>
      cases hrun
      exact absurd (hs.symm.trans ht) (by decide)
  | cons e events ih =>
      obtain ⟨u, hstep, hrest⟩ := (run_cons_eq_some _).mp hrun
      cases hu : u.main.flushed with
      -- this event is the flush of main; what follows only extends the calls
      | true =>
          obtain ⟨rfl, hmain, hcalls⟩ := (logs_step hstep).2 hs hu
          exact ⟨[], s, events, rfl, rfl, hmain, hcalls ▸ calls_isPrefixOf_run hrest⟩
      -- the flush lies in the rest of the run
      | false =>
          obtain ⟨before, v, after, rfl, hbefore, hmain, hcalls⟩ := ih hrest hu
          exact ⟨e :: before, v, after, rfl, (run_cons_eq_some _).mpr ⟨u, hstep, hbefore⟩, hmain,
            hcalls⟩

end Steps

/-- **What a shutdown has written.** When `main` returns, every record that was ever appended has
been written if and only if, for every sensor, the number of records appended since its last flush is
a multiple of the batch of 32. It is enough that none is appended after the `flush_all` of `main`. -/
theorem allWritten_iff (settings : Settings) (files : Files) (now : TimePoint)
    (events : List Event) (t : Engine)
    (hrun : run (step settings) (create settings files now) events = some t)
    (hreturned : t.main = .returned) :
    (AllWritten files t ↔ ∀ sensor_id, 32 ∣ unflushed sensor_id t.calls) ∧
      (QuietSinceFlush settings files now events t → AllWritten files t) := by
  have hreplays := replays_run hrun
  have hiff : AllWritten files t ↔ ∀ sensor_id, 32 ∣ unflushed sensor_id t.calls := by
    refine forall_congr' fun sensor_id => ?_
    rw [hreplays]
    exact content_eq_writeThrough_iff files (by decide) t.calls sensor_id
  refine ⟨hiff, fun hquiet => hiff.mpr fun sensor_id => ?_⟩
  -- behind the flush of `main` nothing is appended
  obtain ⟨before, u, after, hevents, hbefore, hmain, rest, hcalls⟩ :=
    exists_flush hrun rfl (by rw [hreturned]; rfl)
  have hnone := hquiet before u after hevents hbefore hmain
  rw [← hcalls, List.append_assoc, List.drop_left] at hnone
  rw [← hcalls, List.append_assoc, List.singleton_append, unflushed_of_quiet]
  · exact dvd_zero 32
  · exact fun value timestamp hmem =>
      hnone sensor_id value timestamp (List.mem_append_right _ hmem)

/-- One poller and one I/O thread, retention of one week. -/
def onePoller : Settings where
  worker_threads := 1
  pollers := 1
  retention := 604800000

/-- The poller's cycle publishes a reading and ends. -/
def oneCycle : List Event := [.run 0, .run 0]

/-- From the signal to the flush: the poller and the servers are stopped. -/
def untilFlush : List Event := .signal :: List.replicate 8 .main

/-- The rest of the shutdown. -/
def afterFlush : List Event := [.main, .main, .exit 0, .main, .main]

/-- The only reading of the cycle. -/
def oneReading : Reading := ⟨"winding_temp", 0x4052C00000000000, 1700000000000000000⟩

/-- A cycle that ends before the signal is written. -/
theorem allWritten_quietShutdown :
    ∃ t, run (step onePoller) (create onePoller ∅ 1700000000000000000)
        (.beginCycle 0 0 [oneReading] :: oneCycle ++ untilFlush ++ afterFlush) = some t ∧
      AllWritten ∅ t := by
  obtain ⟨t, hrun, hreturned, hcalls⟩ : ∃ t,
      run (step onePoller) (create onePoller ∅ 1700000000000000000)
        (.beginCycle 0 0 [oneReading] :: oneCycle ++ untilFlush ++ afterFlush) = some t ∧
      t.main = .returned ∧ ∀ sensor_id, unflushed sensor_id t.calls = 0 :=
    ⟨_, rfl, rfl, fun _ => rfl⟩
  refine ⟨t, hrun, (allWritten_iff onePoller ∅ _ _ t hrun hreturned).1.mpr fun sensor_id => ?_⟩
  rw [hcalls]
  exact dvd_zero 32

/-- **A reading that arrives after the flush is lost**: the poller's cycle had begun before the
signal and appends its reading between `flush_all` and the end of the I/O threads. -/
theorem not_allWritten_lateReading :
    ¬ ∀ (settings : Settings) (files : Files) (now : TimePoint) (events : List Event) (t : Engine),
      run (step settings) (create settings files now) events = some t → t.main = .returned →
        AllWritten files t := by
  intro h
  obtain ⟨t, hrun, hreturned, hcalls⟩ : ∃ t,
      run (step onePoller) (create onePoller ∅ 1700000000000000000)
        (.beginCycle 0 0 [oneReading] :: untilFlush ++ oneCycle ++ afterFlush) = some t ∧
      t.main = .returned ∧ unflushed "winding_temp" t.calls = 1 := ⟨_, rfl, rfl, rfl⟩
  have hfile := h onePoller ∅ _ _ t hrun hreturned "winding_temp"
  -- the file is short of the reading that is still in the buffer
  rw [replays_run hrun] at hfile
  have hdvd := (content_eq_writeThrough_iff ∅ (by decide) t.calls "winding_temp").mp hfile
  rw [hcalls] at hdvd
  revert hdvd
  decide

end Engine

end Ironpulse
