import Ironpulse.Lib.StepMachine
import Ironpulse.Storage.RingBuffer
import Ironpulse.Storage.SensorLog

/-! # The series in memory and their log, across restarts

`SeriesStore` (`include/ironpulse/storage/series_store.hpp`) with a `WalWriter`, and
`WalReader::replay_into`. Threads record samples of different sensors at the same time, one at a
time for each sensor, so a call of `record` is three steps; between them others take theirs.

* **`replay_into`, `get_or_create`, `recent`**: the functions of the code.
* **`Service`, `step`**: calls on their way, flushes and clean restarts.
* **`SensorHistory`**: what a sensor recorded before and since the last restart.
* **`recent_eq_history`**: what `recent` returns after any run. -/

namespace Ironpulse.Storage

open ByteCodec Core StepMachine

/-! ## (1) The store -/

/-- `WalReader::replay_into`: pushes the records of a file that are not too old. -/
def replay_into (files : Files) (name : String) (max_age : Option Milliseconds) (now : TimePoint)
    (buffer : RingBuffer Sample) : RingBuffer Sample :=
  (read_all files name).foldl (fun buffer record =>
    let ts := milliseconds_to_nanoseconds record.timestamp_ms
    if max_age.any fun age => now - ts > milliseconds_to_nanoseconds age then buffer
    else buffer.push (ts, record.value)) buffer

/-- A store with persistence enabled. -/
structure SeriesStore where
  default_capacity_ : Nat
  series_ : AList fun _ : String => RingBuffer Sample := ∅
  wal_ : WalWriter
  replay_max_age_ : Option Milliseconds

namespace SeriesStore

/-- `get_or_create`: a new series starts with the replayed history. -/
def get_or_create (store : SeriesStore) (now : TimePoint) (sensor_id : String) : SeriesStore :=
  match store.series_.lookup sensor_id with
  | some _ => store
  | none =>
      { store with
        series_ := store.series_.insert sensor_id
          (replay_into store.wal_.files (file_for sensor_id) store.replay_max_age_ now
            (.create store.default_capacity_)) }

/-- `buffer.push` on the series that `get_or_create` returned. -/
def push (store : SeriesStore) (sensor_id : String) (sample : Sample) : SeriesStore :=
  match store.series_.lookup sensor_id with
  | some buffer => { store with series_ := store.series_.insert sensor_id (buffer.push sample) }
  | none => store

/-- The samples of a series, none if it does not exist. -/
def recent (store : SeriesStore) (sensor_id : String) (count : Nat) : List Sample :=
  match store.series_.lookup sensor_id with
  | some buffer => buffer.recent count
  | none => []

end SeriesStore

/-! ## (2) Runs -/

/-- What a call of `record` does next. -/
inductive Stage where
  | push
  | append
  deriving DecidableEq

/-- A store with the calls of `record` on their way, at most one for each sensor. -/
structure Service where
  store : SeriesStore
  recording : AList fun _ : String => Sample × Stage := ∅

namespace Service

/-- The settings of every start. -/
structure Settings where
  capacity : Nat
  flush_batch_size : Nat
  replay_max_age : Option Milliseconds

/-- A start on a directory. -/
def create (settings : Settings) (files : Files) : Service where
  store :=
    { default_capacity_ := settings.capacity
      wal_ := { files := files, flush_batch_size_ := settings.flush_batch_size }
      replay_max_age_ := settings.replay_max_age }

/-- One action of a recording thread, of a reader or of the maintenance, or a restart. -/
inductive Event where
  /-- `record` begins: `get_or_create`, with the time at which a replay would look at ages. -/
  | record (sensor_id : String) (sample : Sample) (now : TimePoint)
  /-- `record` pushes its sample. -/
  | push (sensor_id : String)
  /-- `record` appends to the log and returns. -/
  | append (sensor_id : String)
  | flush_all
  /-- A clean restart: `flush_all` and a new writer and store. -/
  | restart

variable (settings : Settings)

/-- The service after one action, or `none` when the action cannot be taken. -/
def step (s : Service) : Event → Option Service
  | .record id sample now =>
      match s.recording.lookup id with
      | some _ => none
      | none =>
          some { s with
            store := s.store.get_or_create now id
            recording := s.recording.insert id (sample, .push) }
  | .push id =>
      match s.recording.lookup id with
      | some (sample, .push) =>
          some { s with
            store := s.store.push id sample
            recording := s.recording.insert id (sample, .append) }
      | _ => none
  | .append id =>
      match s.recording.lookup id with
      | some (sample, .append) =>
          some { s with
            store :=
              { s.store with wal_ := s.store.wal_.append Io.success id sample.2 sample.1 }
            recording := s.recording.erase id }
      | _ => none
  | .flush_all =>
      some { s with store := { s.store with wal_ := s.store.wal_.flush_all Io.success } }
  | .restart =>
      if s.recording.keys = [] then
        some (create settings (s.store.wal_.flush_all Io.success).files)
      else none

end Service

/-! ## (3) Histories -/

/-- The history of a sensor. -/
structure SensorHistory where
  /-- Recorded before the last restart. -/
  before : List Sample := []
  /-- The time of the first record since then. -/
  replayed_at : Option TimePoint := none
  /-- Recorded since the last restart. -/
  since : List Sample := []

namespace SensorHistory

/-- One more event in the history of a sensor. -/
def next (sensor_id : String) (h : SensorHistory) : Service.Event → SensorHistory
  | .record id sample now =>
      if id = sensor_id then
        { h with replayed_at := h.replayed_at.or (some now), since := h.since ++ [sample] }
      else h
  | .restart => { before := h.before ++ h.since }
  | .push _ | .append _ | .flush_all => h

/-- A sample as the log keeps it, in exact nanoseconds. -/
def logged (sample : Sample) : Int × UInt64 :=
  (truncate_ms sample.1.toInt * 1000000, sample.2)

/-- The logged samples that a replay at a time keeps. -/
def replayed (h : SensorHistory) (max_age : Option Milliseconds) : List (Int × UInt64) :=
  match h.replayed_at with
  | none => []
  | some now =>
      (h.before.map logged).filter fun sample =>
        max_age.all fun age => now.toInt - sample.1 ≤ age.toInt * 1000000

/-- What the series should hold: what was replayed, then what was recorded since the restart. -/
def expected (h : SensorHistory) (max_age : Option Milliseconds) : List (Int × UInt64) :=
  h.replayed max_age ++ h.since.map fun sample => (sample.1.toInt, sample.2)

end SensorHistory

/-- The history of a sensor after some events. -/
def historyOf (sensor_id : String) (events : List Service.Event) : SensorHistory :=
  events.foldl (SensorHistory.next sensor_id) {}

/-! ## (4) Replay -/

/-- The record that `append` writes for a sample. -/
def recordOf (sample : Sample) : WalRecord :=
  { timestamp_ms := duration_cast_milliseconds sample.1, value := sample.2 }

/-- The sample that a replay makes of a record. -/
def sampleOf (record : WalRecord) : Sample :=
  (milliseconds_to_nanoseconds record.timestamp_ms, record.value)

/-- A replayed sample has the time of its record. -/
@[simp] theorem sampleOf_fst (record : WalRecord) :
    (sampleOf record).1 = milliseconds_to_nanoseconds record.timestamp_ms := rfl

/-- A replay keeps a sample that is not too old. -/
def young (max_age : Option Milliseconds) (now : TimePoint) (sample : Sample) : Bool :=
  max_age.all fun age => now - sample.1 ≤ milliseconds_to_nanoseconds age

/-- A replay is a number of pushes. -/
theorem replay_into_eq (files : Files) (name : String) (max_age : Option Milliseconds)
    (now : TimePoint) (buffer : RingBuffer Sample) :
    replay_into files name max_age now buffer =
      (((read_all files name).map sampleOf).filter (young max_age now)).foldl .push buffer := by
  unfold replay_into
  generalize read_all files name = records
  induction records generalizing buffer with
  | nil => rfl
  | cons record records ih =>
      -- the comparison of ages in the code, `now - t > age`, is the negation of `young`
      have hyoung : (max_age.any fun age => now - milliseconds_to_nanoseconds record.timestamp_ms >
          milliseconds_to_nanoseconds age) = !young max_age now (sampleOf record) := by
        cases max_age with
        | none => rw [young, Option.any_none, Option.all_none, Bool.not_true]
        | some age =>
            rw [young, Option.any_some, Option.all_some, sampleOf_fst]
            by_cases hold : now - milliseconds_to_nanoseconds record.timestamp_ms ≤
                milliseconds_to_nanoseconds age
            · rw [decide_eq_true hold, decide_eq_false (Int64.not_lt.mpr hold), Bool.not_true]
            · rw [decide_eq_false hold, decide_eq_true (Int64.not_le.mp hold), Bool.not_false]
      rw [List.foldl_cons, ih, List.map_cons, List.filter_cons]
      dsimp only
      rw [hyoung]
      cases young max_age now (sampleOf record)
      · rfl
      · rfl

/-- Nanoseconds of a difference and of an age fit in 64 bits. -/
def ReplayFits (max_age : Option Milliseconds) (now : TimePoint) (sample : Sample) : Prop :=
  (-2 ^ 63 ≤ now.toInt - truncate_ms sample.1.toInt * 1000000 ∧
      now.toInt - truncate_ms sample.1.toInt * 1000000 < 2 ^ 63) ∧
    ∀ age ∈ max_age, -2 ^ 63 ≤ age.toInt * 1000000 ∧ age.toInt * 1000000 < 2 ^ 63

/-- A replayed sample has the logged timestamp. -/
theorem toInt_sampleOf_recordOf (sample : Sample) :
    (sampleOf (recordOf sample)).1.toInt = truncate_ms sample.1.toInt * 1000000 := by
  have hfactor : (1000000 : Int64).toInt = 1000000 := by decide
  have hms : (recordOf sample).timestamp_ms.toInt = truncate_ms sample.1.toInt :=
    toInt_duration_cast_milliseconds sample.1
  have hfits := truncate_ms_fits (Int64.le_toInt sample.1) (Int64.toInt_lt sample.1)
  rw [sampleOf, milliseconds_to_nanoseconds, toInt_mul_of_fits, hfactor, hms]
  · rw [hfactor, hms]
    exact hfits.1
  · rw [hfactor, hms]
    exact hfits.2

/-- The age that the code compares is the exact one. -/
theorem young_sampleOf_recordOf {max_age : Option Milliseconds} {now : TimePoint} {sample : Sample}
    (h : ReplayFits max_age now sample) :
    young max_age now (sampleOf (recordOf sample)) =
      max_age.all fun age =>
        now.toInt - (SensorHistory.logged sample).1 ≤ age.toInt * 1000000 := by
  cases max_age with
  | none => rw [young, Option.all_none, Option.all_none]
  | some age =>
      obtain ⟨⟨hlo, hhi⟩, hage⟩ := h
      obtain ⟨hage_lo, hage_hi⟩ := hage age rfl
      -- the range says that neither the product nor the difference wraps
      have hfactor : (1000000 : Int64).toInt = 1000000 := by decide
      have hsample := toInt_sampleOf_recordOf sample
      have hnanoseconds : (milliseconds_to_nanoseconds age).toInt = age.toInt * 1000000 := by
        rw [milliseconds_to_nanoseconds, toInt_mul_of_fits, hfactor]
        · rwa [hfactor]
        · rwa [hfactor]
      rw [young, Option.all_some, Option.all_some, decide_eq_decide, Int64.le_iff_toInt_le,
        toInt_sub_of_fits, hsample, hnanoseconds, SensorHistory.logged]
      · rwa [hsample]
      · rwa [hsample]

/-! ## (5) The invariant -/

namespace Service

/-- The sample of a call of `record` on its way. -/
def inFlight (s : Service) (sensor_id : String) : List Sample :=
  match s.recording.lookup sensor_id with
  | some (sample, _) => [sample]
  | none => []

/-- The sample of a call of `record` that has not been pushed. -/
def unpushed (s : Service) (sensor_id : String) : List Sample :=
  match s.recording.lookup sensor_id with
  | some (sample, .push) => [sample]
  | _ => []

/-- A sample in exact nanoseconds. -/
def exact (sample : Sample) : Int × UInt64 := (sample.1.toInt, sample.2)

/-- A series with a number of pushes. -/
structure HasSeries (settings : Settings) (s : Service) (sensor_id : String) (h : SensorHistory) :
    Prop where
  replayed_at : h.replayed_at.isSome
  series : ∃ (buffer : RingBuffer Sample) (pushed : List Sample),
    s.store.series_.lookup sensor_id = some buffer ∧ buffer.capacity_ = settings.capacity ∧
      buffer.Holds pushed ∧
      (pushed ++ s.unpushed sensor_id).map exact = h.expected settings.replay_max_age

/-- A sensor without a record since the restart. -/
structure Untouched (s : Service) (sensor_id : String) (h : SensorHistory) : Prop where
  replayed_at : h.replayed_at = none
  series : s.store.series_.lookup sensor_id = none
  buffer : s.store.wal_.buffer sensor_id = []
  recording : s.recording.lookup sensor_id = none

/-- The invariant of a sensor: the log holds what has been appended of its history, and the series
what has been pushed. -/
structure SensorInv (settings : Settings) (s : Service) (sensor_id : String) (h : SensorHistory) :
    Prop where
  logged : ∃ records : List WalRecord,
    s.store.wal_.recorded sensor_id = walRecord.encodeAll records ∧
      records ++ (s.inFlight sensor_id).map recordOf = (h.before ++ h.since).map recordOf
  untouched : h.since = [] → s.Untouched sensor_id h
  touched : h.since ≠ [] → HasSeries settings s sensor_id h

/-- The store has the settings. -/
structure HasSettings (settings : Settings) (s : Service) : Prop where
  capacity : s.store.default_capacity_ = settings.capacity
  max_age : s.store.replay_max_age_ = settings.replay_max_age

section Steps

variable {settings : Settings} {s t : Service} {sensor_id : String} {h : SensorHistory}

/-- What an event for another sensor leaves alone. -/
structure SameFor (s t : Service) (sensor_id : String) : Prop where
  recorded : t.store.wal_.recorded sensor_id = s.store.wal_.recorded sensor_id
  buffer : s.store.wal_.buffer sensor_id = [] → t.store.wal_.buffer sensor_id = []
  series : t.store.series_.lookup sensor_id = s.store.series_.lookup sensor_id
  recording : t.recording.lookup sensor_id = s.recording.lookup sensor_id

/-- An action that leaves a sensor alone keeps what is known of it. -/
theorem SensorInv.of_same (hs : SensorInv settings s sensor_id h) (hsame : SameFor s t sensor_id) :
    SensorInv settings t sensor_id h := by
  have hflight : t.inFlight sensor_id = s.inFlight sensor_id := by
    rw [inFlight, inFlight, hsame.recording]
  have hunpushed : t.unpushed sensor_id = s.unpushed sensor_id := by
    rw [unpushed, unpushed, hsame.recording]
  refine ⟨?_, fun hnil => ?_, fun hne => ⟨(hs.touched hne).replayed_at, ?_⟩⟩
  · rw [hsame.recorded, hflight]
    exact hs.logged
  · obtain ⟨hreplayed, hseries, hbuffer, hrecording⟩ := hs.untouched hnil
    exact ⟨hreplayed, hsame.series.trans hseries, hsame.buffer hbuffer,
      hsame.recording.trans hrecording⟩
  · rw [hsame.series, hunpushed]
    exact (hs.touched hne).series

/-- The replay of a sensor whose file holds its history. -/
theorem holds_replay (hcapacity : 0 < settings.capacity) {now : TimePoint}
    (hfits : ∀ sample ∈ h.before, ReplayFits settings.replay_max_age now sample)
    (hread : read_all s.store.wal_.files (file_for sensor_id) = h.before.map recordOf) :
    ∃ (buffer : RingBuffer Sample) (pushed : List Sample),
      replay_into s.store.wal_.files (file_for sensor_id) settings.replay_max_age now
        (.create settings.capacity) = buffer ∧
      buffer.capacity_ = settings.capacity ∧ buffer.Holds pushed ∧
      pushed.map exact =
        ({ h with replayed_at := some now } : SensorHistory).replayed settings.replay_max_age := by
  -- the test on the record read back is the test on the sample that was logged
  have hkept : h.before.filter (young settings.replay_max_age now ∘ sampleOf ∘ recordOf) =
      h.before.filter ((fun sample : Int × UInt64 => settings.replay_max_age.all fun age =>
        now.toInt - sample.1 ≤ age.toInt * 1000000) ∘ SensorHistory.logged) := by
    refine List.filter_congr fun sample hsample => ?_
    rw [Function.comp_apply, Function.comp_apply, Function.comp_apply,
      young_sampleOf_recordOf (hfits sample hsample)]
  have hspec : ({ h with replayed_at := some now } : SensorHistory).replayed
        settings.replay_max_age =
      (h.before.map SensorHistory.logged).filter fun sample =>
        settings.replay_max_age.all fun age => now.toInt - sample.1 ≤ age.toInt * 1000000 := rfl
  rw [hspec, List.filter_map, ← hkept, replay_into_eq, hread, List.map_map]
  refine ⟨_, _, rfl, RingBuffer.capacity_foldl_push _ _,
    RingBuffer.holds_foldl_push (RingBuffer.holds_create hcapacity) _, ?_⟩
  rw [List.nil_append, List.filter_map, List.map_map]
  refine List.map_congr_left fun sample _ => ?_
  rw [Function.comp_apply, Function.comp_apply, exact, toInt_sampleOf_recordOf, sampleOf, recordOf,
    SensorHistory.logged]

/-- Creating a series leaves the log alone. -/
@[simp] theorem wal_get_or_create (store : SeriesStore) (now : TimePoint) (a : String) :
    (store.get_or_create now a).wal_ = store.wal_ := by
  unfold SeriesStore.get_or_create
  split <;> rfl

/-- Pushing a sample leaves the log alone. -/
@[simp] theorem wal_push (store : SeriesStore) (a : String) (sample : Sample) :
    (store.push a sample).wal_ = store.wal_ := by
  unfold SeriesStore.push
  split <;> rfl

/-- Creating a series leaves the others alone. -/
theorem series_get_or_create_of_ne {store : SeriesStore} {now : TimePoint} {a : String}
    (hne : sensor_id ≠ a) :
    (store.get_or_create now a).series_.lookup sensor_id = store.series_.lookup sensor_id := by
  unfold SeriesStore.get_or_create
  split
  · rfl
  · exact AList.lookup_insert_ne hne

/-- Pushing a sample leaves the other series alone. -/
theorem series_push_of_ne {store : SeriesStore} {a : String} {sample : Sample}
    (hne : sensor_id ≠ a) :
    (store.push a sample).series_.lookup sensor_id = store.series_.lookup sensor_id := by
  unfold SeriesStore.push
  split
  · exact AList.lookup_insert_ne hne
  · rfl

/-- The settings never change. -/
theorem hasSettings_step {e : Event} (hs : HasSettings settings s)
    (hstep : step settings s e = some t) : HasSettings settings t := by
  have hget : ∀ now a, (s.store.get_or_create now a).default_capacity_ = settings.capacity ∧
      (s.store.get_or_create now a).replay_max_age_ = settings.replay_max_age := by
    intro now a
    unfold SeriesStore.get_or_create
    split <;> exact ⟨hs.capacity, hs.max_age⟩
  have hpush : ∀ a sample, (s.store.push a sample).default_capacity_ = settings.capacity ∧
      (s.store.push a sample).replay_max_age_ = settings.replay_max_age := by
    intro a sample
    unfold SeriesStore.push
    split <;> exact ⟨hs.capacity, hs.max_age⟩
  cases e with
  | record a sample now =>
      rw [step] at hstep
      split at hstep
      · cases hstep
      · rw [← Option.some.inj hstep]
        exact ⟨(hget now a).1, (hget now a).2⟩
  | push a =>
      rw [step] at hstep
      split at hstep
      · rw [← Option.some.inj hstep]
        exact ⟨(hpush a _).1, (hpush a _).2⟩
      · cases hstep
  | append a =>
      rw [step] at hstep
      split at hstep
      · rw [← Option.some.inj hstep]
        exact ⟨hs.capacity, hs.max_age⟩
      · cases hstep
  | flush_all =>
      rw [← Option.some.inj hstep]
      exact ⟨hs.capacity, hs.max_age⟩
  | restart =>
      obtain ⟨-, ht⟩ := Option.ite_none_right_eq_some.mp hstep
      rw [← Option.some.inj ht]
      exact ⟨rfl, rfl⟩

/-- The events of other sensors, and flushing. -/
theorem sameFor_step {e : Event} (hstep : step settings s e = some t)
    (hother : match e with
      | .record a _ _ | .push a | .append a => sensor_id ≠ a
      | .flush_all => True
      | .restart => False) : SameFor s t sensor_id := by
  cases e with
  | record a sample now =>
      rw [step] at hstep
      split at hstep
      · cases hstep
      · rw [← Option.some.inj hstep]
        exact ⟨by rw [wal_get_or_create], fun h => by rwa [wal_get_or_create],
          series_get_or_create_of_ne hother, AList.lookup_insert_ne hother⟩
  | push a =>
      rw [step] at hstep
      split at hstep
      · rw [← Option.some.inj hstep]
        exact ⟨by rw [wal_push], fun h => by rwa [wal_push], series_push_of_ne hother,
          AList.lookup_insert_ne hother⟩
      · cases hstep
  | append a =>
      rw [step] at hstep
      split at hstep
      · rw [← Option.some.inj hstep]
        refine ⟨?_, fun h => ?_, rfl, AList.lookup_erase_ne hother⟩
        · exact (WalWriter.recorded_append ..).trans (if_neg hother)
        · exact (WalWriter.buffer_append_of_ne hother).trans h
      · cases hstep
  | flush_all =>
      rw [← Option.some.inj hstep]
      exact ⟨WalWriter.recorded_flush_all sensor_id,
        fun _ => WalWriter.buffer_flush_all Io.success sensor_id, rfl, rfl⟩
  | restart => cases hother

/-- `record` begins: the first one since the restart replays the log. -/
theorem sensorInv_record (hcapacity : 0 < settings.capacity) (hset : HasSettings settings s)
    (hs : SensorInv settings s sensor_id h) {sample : Sample} {now : TimePoint}
    (hfits : ∀ sample ∈ h.before, ReplayFits settings.replay_max_age now sample)
    (hfree : s.recording.lookup sensor_id = none) :
    SensorInv settings
      { s with
        store := s.store.get_or_create now sensor_id
        recording := s.recording.insert sensor_id (sample, .push) } sensor_id
      { h with replayed_at := h.replayed_at.or (some now), since := h.since ++ [sample] } := by
  have hflight : s.inFlight sensor_id = [] := by rw [inFlight, hfree]
  have hunpushed : s.unpushed sensor_id = [] := by rw [unpushed, hfree]
  obtain ⟨records, hrecorded, hrecords⟩ := hs.logged
  rw [hflight, List.map_nil, List.append_nil] at hrecords
  refine ⟨⟨records, ?_, ?_⟩, fun hnil => ?_, fun _ => ⟨?_, ?_⟩⟩
  · rw [wal_get_or_create, hrecorded]
  · rw [inFlight, AList.lookup_insert]
    dsimp only
    rw [hrecords, ← List.map_append, List.append_assoc]
  · exact absurd hnil (List.append_ne_nil_of_right_ne_nil _ (List.cons_ne_nil _ _))
  · cases h.replayed_at <;> rfl
  · rw [unpushed, AList.lookup_insert]
    dsimp only
    by_cases hnil : h.since = []
    · -- the first record: the file holds the whole history
      obtain ⟨hreplayed, hseries, hbuffer, -⟩ := hs.untouched hnil
      have hread : read_all s.store.wal_.files (file_for sensor_id) = h.before.map recordOf := by
        rw [hnil, List.append_nil] at hrecords
        rw [WalWriter.recorded_of_buffer_nil hbuffer] at hrecorded
        rw [read_all, hrecorded, walRecord.decodeAll_encodeAll, hrecords]
      obtain ⟨buffer, pushed, hbuffer, hcap, hholds, hpushed⟩ := holds_replay hcapacity hfits hread
      refine ⟨buffer, pushed, ?_, hcap, hholds, ?_⟩
      · rw [SeriesStore.get_or_create, hseries]
        dsimp only
        rw [AList.lookup_insert, hset.capacity, hset.max_age, hbuffer]
      · rw [List.map_append, hpushed, hreplayed, hnil]
        rfl
    · obtain ⟨hreplayed, buffer, pushed, hseries, hcap, hholds, hpushed⟩ := hs.touched hnil
      obtain ⟨at_, hat⟩ := Option.isSome_iff_exists.mp hreplayed
      refine ⟨buffer, pushed, ?_, hcap, hholds, ?_⟩
      · rw [SeriesStore.get_or_create, hseries]
        exact hseries
      · rw [hunpushed, List.append_nil] at hpushed
        rw [List.map_append, hpushed, SensorHistory.expected, SensorHistory.expected,
          SensorHistory.replayed, SensorHistory.replayed, hat, List.map_append, List.append_assoc]
        rfl

/-- A call of `record` on its way belongs to a sensor with records since the restart. -/
theorem SensorInv.since_ne_nil (hs : SensorInv settings s sensor_id h) {call : Sample × Stage}
    (hcall : s.recording.lookup sensor_id = some call) : h.since ≠ [] := by
  intro hnil
  rw [(hs.untouched hnil).recording] at hcall
  cases hcall

/-- Pushing the sample of a call brings the series up to date. -/
theorem sensorInv_push (hs : SensorInv settings s sensor_id h) {sample : Sample}
    (hcall : s.recording.lookup sensor_id = some (sample, .push)) :
    SensorInv settings
      { s with
        store := s.store.push sensor_id sample
        recording := s.recording.insert sensor_id (sample, .append) } sensor_id h := by
  -- a push only follows the record of a sample, so the history is not empty
  have hsince := hs.since_ne_nil hcall
  obtain ⟨hreplayed, buffer, pushed, hseries, hcap, hholds, hpushed⟩ := hs.touched hsince
  refine ⟨?_, fun hnil => absurd hnil hsince, fun _ => ⟨hreplayed, ?_⟩⟩
  · rw [wal_push, inFlight, AList.lookup_insert]
    have hlogged := hs.logged
    rwa [inFlight, hcall] at hlogged
  · refine ⟨buffer.push sample, pushed ++ [sample], ?_, hcap, RingBuffer.holds_push hholds sample,
      ?_⟩
    · -- the buffer takes the sample and the log has not got it yet
      rw [SeriesStore.push, hseries]
      exact AList.lookup_insert _
    · rw [unpushed, hcall] at hpushed
      rw [unpushed, AList.lookup_insert]
      dsimp only
      rw [List.append_nil]
      exact hpushed

/-- Appending the sample of a call brings the log up to date. -/
theorem sensorInv_append (hs : SensorInv settings s sensor_id h) {sample : Sample}
    (hcall : s.recording.lookup sensor_id = some (sample, .append)) :
    SensorInv settings
      { s with
        store :=
          { s.store with wal_ := s.store.wal_.append Io.success sensor_id sample.2 sample.1 }
        recording := s.recording.erase sensor_id } sensor_id h := by
  have hsince := hs.since_ne_nil hcall
  obtain ⟨hreplayed, buffer, pushed, hseries, hcap, hholds, hpushed⟩ := hs.touched hsince
  -- the log takes the sample that the buffer already has
  obtain ⟨records, hrecorded, hrecords⟩ := hs.logged
  rw [inFlight, hcall] at hrecords
  refine ⟨⟨records ++ [recordOf sample], ?_, ?_⟩, fun hnil => absurd hnil hsince,
    fun _ => ⟨hreplayed, buffer, pushed, hseries, hcap, hholds, ?_⟩⟩
  · dsimp only
    rw [WalWriter.recorded_append, if_pos rfl, hrecorded, walRecord.encodeAll_append,
      walRecord.encodeAll_cons, walRecord.encodeAll_nil, List.append_nil]
    rfl
  · rw [inFlight, AList.lookup_erase]
    dsimp only
    rw [List.map_nil, List.append_nil]
    exact hrecords
  · rw [unpushed, hcall] at hpushed
    rw [unpushed, AList.lookup_erase]
    exact hpushed

/-- A clean restart: the file holds the history, and nothing is in memory. -/
theorem sensorInv_restart (hs : SensorInv settings s sensor_id h)
    (hidle : s.recording.lookup sensor_id = none) :
    SensorInv settings (create settings (s.store.wal_.flush_all Io.success).files) sensor_id
      { before := h.before ++ h.since } := by
  obtain ⟨records, hrecorded, hrecords⟩ := hs.logged
  rw [inFlight, hidle] at hrecords
  refine ⟨⟨records, ?_, ?_⟩, fun _ => ⟨rfl, rfl, rfl, rfl⟩, fun hne => absurd rfl hne⟩
  · rw [WalWriter.recorded_of_buffer_nil rfl, ← hrecorded,
      ← WalWriter.recorded_flush_all sensor_id,
      WalWriter.recorded_of_buffer_nil (WalWriter.buffer_flush_all Io.success sensor_id)]
    rfl
  · rw [List.append_nil]
    exact hrecords

/-- **Every event keeps the invariant of every sensor.** -/
theorem sensorInv_step (hcapacity : 0 < settings.capacity) (hset : HasSettings settings s)
    {e : Event} (hs : SensorInv settings s sensor_id h)
    (hfits : ∀ sample now, e = .record sensor_id sample now →
      ∀ old ∈ h.before, ReplayFits settings.replay_max_age now old)
    (hstep : step settings s e = some t) :
    SensorInv settings t sensor_id (h.next sensor_id e) := by
  cases e with
  | record a sample now =>
      -- an event of another sensor leaves this one's buffer and log alone
      by_cases ha : a = sensor_id
      · subst ha
        rw [step] at hstep
        split at hstep
        · cases hstep
        · rename_i hfree
          rw [← Option.some.inj hstep, SensorHistory.next, if_pos rfl]
          exact sensorInv_record hcapacity hset hs (hfits sample now rfl) hfree
      · rw [SensorHistory.next, if_neg ha]
        exact hs.of_same (sameFor_step hstep (Ne.symm ha))
  | push a =>
      by_cases ha : a = sensor_id
      · subst ha
        rw [step] at hstep
        split at hstep
        · rename_i sample hcall
          rw [← Option.some.inj hstep]
          exact sensorInv_push hs hcall
        · cases hstep
      · exact hs.of_same (sameFor_step hstep (Ne.symm ha))
  | append a =>
      by_cases ha : a = sensor_id
      · subst ha
        rw [step] at hstep
        split at hstep
        · rename_i sample hcall
          rw [← Option.some.inj hstep]
          exact sensorInv_append hs hcall
        · cases hstep
      · exact hs.of_same (sameFor_step hstep (Ne.symm ha))
  | flush_all => exact hs.of_same (sameFor_step hstep trivial)
  | restart =>
      -- a restart is only possible between two records
      obtain ⟨hidle, ht⟩ := Option.ite_none_right_eq_some.mp hstep
      rw [← Option.some.inj ht]
      refine sensorInv_restart hs (AList.lookup_eq_none.mpr fun hmem => ?_)
      rw [AList.mem_keys, hidle] at hmem
      cases hmem

end Steps

/-! ## (6) Runs -/

/-- All differences between the time of a record and a logged timestamp fit in 64-bit nanoseconds,
and so does the replay's age limit. -/
def TimesFit (max_age : Option Milliseconds) (events : List Event) : Prop :=
  ∀ id sample now id' old now', .record id sample now ∈ events → .record id' old now' ∈ events →
    ReplayFits max_age now old

/-- What a sensor has recorded comes from the events. -/
theorem mem_historyOf {sensor_id : String} {events : List Event} {sample : Sample}
    (h : sample ∈ (historyOf sensor_id events).before ∨
      sample ∈ (historyOf sensor_id events).since) :
    ∃ now, .record sensor_id sample now ∈ events := by
  induction events using List.reverseRecOn with
  | nil =>
      rcases h with h | h
      · cases h
      · cases h
  | append_singleton events e ih =>
      rw [historyOf, List.foldl_concat] at h
      change sample ∈ ((historyOf sensor_id events).next sensor_id e).before ∨
        sample ∈ ((historyOf sensor_id events).next sensor_id e).since at h
      have hearlier : sample ∈ (historyOf sensor_id events).before ∨
          sample ∈ (historyOf sensor_id events).since →
          ∃ now, Event.record sensor_id sample now ∈ events ++ [e] := by
        -- only the record of this sensor enters anything into its history
        intro h
        obtain ⟨now, hnow⟩ := ih h
        exact ⟨now, List.mem_append_left _ hnow⟩
      cases e with
      | record a new now =>
          rw [SensorHistory.next] at h
          by_cases ha : a = sensor_id
          · subst ha
            rw [if_pos rfl, List.mem_append, List.mem_singleton] at h
            rcases h with h | h | rfl
            · exact hearlier (.inl h)
            · exact hearlier (.inr h)
            · exact ⟨now, List.mem_concat_self⟩
          · rw [if_neg ha] at h
            exact hearlier h
      | restart =>
          rcases h with h | h
          · exact hearlier (List.mem_append.mp h)
          · cases h
      | push a => exact hearlier h
      | append a => exact hearlier h
      | flush_all => exact hearlier h

/-- **In every state of a run** the invariant holds for every sensor. -/
theorem sensorInv_run {settings : Settings} (hcapacity : 0 < settings.capacity)
    {events : List Event} (hfits : TimesFit settings.replay_max_age events) {t : Service}
    (hrun : run (step settings) (create settings ∅) events = some t) :
    HasSettings settings t ∧
      ∀ sensor_id, SensorInv settings t sensor_id (historyOf sensor_id events) := by
  induction events using List.reverseRecOn generalizing t with
  | nil =>
      rw [run_nil, Option.some.injEq] at hrun
      rw [← hrun]
      exact ⟨⟨rfl, rfl⟩, fun sensor_id => ⟨⟨[], rfl, rfl⟩, fun _ => ⟨rfl, rfl, rfl, rfl⟩,
        fun hne => absurd rfl hne⟩⟩
  | append_singleton events e ih =>
      obtain ⟨s, hs, hstep⟩ := (run_concat_eq_some _).mp hrun
      have hfits' : TimesFit settings.replay_max_age events := by
        intro id sample now id' old now' hnow hold
        exact hfits id sample now id' old now' (List.mem_append_left _ hnow)
          (List.mem_append_left _ hold)
      obtain ⟨hset, hinv⟩ := ih hfits' hs
      refine ⟨hasSettings_step hset hstep, fun sensor_id => ?_⟩
      rw [historyOf, List.foldl_concat]
      -- a sample is replayed at a later restart, so both belong to the events
      refine sensorInv_step hcapacity hset (hinv sensor_id) ?_ hstep
      rintro sample now rfl old hold
      obtain ⟨now', hnow'⟩ := mem_historyOf (.inl hold)
      exact hfits _ _ _ _ _ now' List.mem_concat_self (List.mem_append_left _ hnow')

/-- **The series in memory agrees with the log.** After any run from an empty directory, with no
call of `record` for the sensor on its way and at least one since the last restart, `recent` returns
the newest of what the replay kept followed by what was recorded since. -/
theorem recent_eq_history {settings : Settings} (hcapacity : 0 < settings.capacity)
    {events : List Event} (hfits : TimesFit settings.replay_max_age events) {t : Service}
    (hrun : run (step settings) (create settings ∅) events = some t) {sensor_id : String}
    (hidle : t.recording.lookup sensor_id = none)
    (hrecorded : (historyOf sensor_id events).since ≠ []) (n : Nat) :
    (t.store.recent sensor_id n).map exact =
      ((historyOf sensor_id events).expected settings.replay_max_age).rtake
        (min n settings.capacity) := by
  have hinv := (sensorInv_run hcapacity hfits hrun).2 sensor_id
  obtain ⟨-, buffer, pushed, hseries, hcap, hholds, hpushed⟩ := hinv.touched hrecorded
  -- between two records nothing is on its way to the buffer
  rw [unpushed, hidle, List.append_nil] at hpushed
  rw [SeriesStore.recent, hseries, ← hpushed, ← hcap]
  dsimp only
  rw [RingBuffer.recent_of_holds hholds, List.rtake.eq_1, List.rtake.eq_1, List.map_drop,
    List.length_map]

/-- One sample before a restart and one after it, a second later. -/
def oneRestart : List Event :=
  [.record "a" (1700000000000000000, 1) 1700000000000000000, .push "a", .append "a", .restart,
    .record "a" (1700000001000000000, 2) 1700000001000000000, .push "a", .append "a"]

/-- A ring of four samples that replays the last hour. -/
def oneHour : Settings where
  capacity := 4
  flush_batch_size := 32
  replay_max_age := some 3600000

/-- The replayed sample comes before the new one. -/
theorem recent_eq_history_oneRestart :
    ∃ t, run (step oneHour) (create oneHour ∅) oneRestart = some t ∧
      (t.store.recent "a" 2).map exact = [(1700000000000000000, 1), (1700000001000000000, 2)] := by
  have hfits : TimesFit oneHour.replay_max_age oneRestart := by
    intro id sample now id' old now' hnow hold
    simp only [oneRestart, List.mem_cons, Event.record.injEq, reduceCtorEq, false_or, or_false,
      List.not_mem_nil] at hnow hold
    refine ⟨?_, ?_⟩
    · rcases hnow with ⟨-, -, rfl⟩ | ⟨-, -, rfl⟩
      · rcases hold with ⟨-, rfl, -⟩ | ⟨-, rfl, -⟩ <;> decide
      · rcases hold with ⟨-, rfl, -⟩ | ⟨-, rfl, -⟩ <;> decide
    · rintro age ⟨⟩
      decide
  obtain ⟨t, hrun, hidle⟩ : ∃ t, run (step oneHour) (create oneHour ∅) oneRestart = some t ∧
      t.recording.lookup "a" = none := ⟨_, rfl, rfl⟩
  refine ⟨t, hrun, ?_⟩
  rw [recent_eq_history (by decide) hfits hrun hidle (List.cons_ne_nil _ _)]
  decide

end Service

end Ironpulse.Storage
