import Mathlib.Data.List.Induction

/-! # Edge-triggered events with a minimum distance

A signal is sampled; each sample has a level and a time. An event is raised at a sample that enters
a level other than the idle one from a different level, unless the last event is too recent for
another. The two conditions share no state: the levels are tracked whether or not an event is
raised.

* **`EdgeTrigger.fired`**: the samples that raise an event, by the running trigger.
* **`EdgeTrigger.entries`, `thin`**: the samples that enter a level, and their greedy thinning.
* **`fired_eq_thin`**: the running trigger raises the thinned entries.
* **`fired_excursion`**: samples that stay at one level raise an event at the first of them or not
  at all.
* **`map_time_thin_eq_iff`**: two rules for the distance thin alike exactly if they agree wherever
  one of them is asked.
* **`pairwise_thin`**: what the rule demands of neighbours holds of all kept elements if it is
  transitive. -/

universe u v w

/-- What a trigger reads off a sample, and when the time of the last event allows another one. -/
structure EdgeTrigger (α : Type u) (σ : Type v) (τ : Type w) where
  level : α → σ
  time : α → τ
  idle : σ
  ready : Option τ → τ → Bool

namespace EdgeTrigger

variable {α : Type u} {σ : Type v} {τ : Type w} [DecidableEq σ] (T : EdgeTrigger α σ τ)

/-! ## (1) The running trigger -/

/-- The level of the previous sample and the time of the last event. -/
@[ext] structure State (σ : Type v) (τ : Type w) where
  level : σ
  last : Option τ

/-- The sample enters a level other than the idle one. -/
def enters (level : σ) (x : α) : Bool := T.level x != T.idle && T.level x != level

/-- The sample raises an event. -/
def fires (s : State σ τ) (x : α) : Bool := T.enters s.level x && T.ready s.last (T.time x)

/-- The state after a sample. -/
def next (s : State σ τ) (x : α) : State σ τ where
  level := T.level x
  last := if T.fires s x then some (T.time x) else s.last

/-- The state after some samples. -/
def after (s : State σ τ) (xs : List α) : State σ τ := xs.foldl T.next s

/-- The samples that raise an event. -/
def fired : State σ τ → List α → List α
  | _, [] => []
  | s, x :: xs => if T.fires s x then x :: fired (T.next s x) xs else fired (T.next s x) xs

/-- After no sample the state is the first one. -/
@[simp] theorem after_nil (s : State σ τ) : T.after s [] = s := rfl

/-- After more samples the state is that of the rest, from the next one. -/
@[simp] theorem after_cons (s : State σ τ) (x : α) (xs : List α) :
    T.after s (x :: xs) = T.after (T.next s x) xs := rfl

/-- No sample fires nothing. -/
@[simp] theorem fired_nil (s : State σ τ) : T.fired s [] = [] := rfl

/-- What the samples fire is what the first one fires and what the rest does. -/
theorem fired_cons (s : State σ τ) (x : α) (xs : List α) :
    T.fired s (x :: xs) =
      if T.fires s x then x :: T.fired (T.next s x) xs else T.fired (T.next s x) xs := rfl

/-- Samples in two parts are taken one part after the other. -/
theorem after_append (s : State σ τ) (xs ys : List α) :
    T.after s (xs ++ ys) = T.after (T.after s xs) ys :=
  List.foldl_append

/-- The level after some samples is the level of the last one. -/
theorem level_after (s : State σ τ) (xs : List α) :
    (T.after s xs).level = ((xs.getLast?).map T.level).getD s.level := by
  induction xs using List.reverseRecOn with
  | nil => rfl
  | append_singleton xs x _ =>
      rw [after_append, List.getLast?_concat]
      rfl

/-- The time of the last event is that of the last sample that raised one. -/
theorem last_after (s : State σ τ) (xs : List α) :
    (T.after s xs).last = (((T.fired s xs).getLast?).map T.time).or s.last := by
  induction xs generalizing s with
  | nil => rfl
  | cons x xs ih =>
      rw [after_cons, ih, fired_cons]
      by_cases hfires : T.fires s x
      · -- the sample's own time is overridden by any later event
        rw [if_pos hfires, List.getLast?_cons, next, if_pos hfires]
        cases (T.fired ⟨T.level x, some (T.time x)⟩ xs).getLast? <;> rfl
      · rw [if_neg hfires, next, if_neg hfires]

/-! ## (2) Thinned entries -/

/-- The samples that enter a level, whether or not they raise an event. -/
def entries : σ → List α → List α
  | _, [] => []
  | level, x :: xs =>
      if T.enters level x then x :: entries (T.level x) xs else entries (T.level x) xs

/-- Greedy thinning: an element is kept when the time of the last one kept allows it. -/
def thin (time : α → τ) (ready : Option τ → τ → Bool) : Option τ → List α → List α
  | _, [] => []
  | last, x :: xs =>
      if ready last (time x) then x :: thin time ready (some (time x)) xs
      else thin time ready last xs

/-- **The running trigger raises an event at the thinned entries.** -/
theorem fired_eq_thin (s : State σ τ) (xs : List α) :
    T.fired s xs = thin T.time T.ready s.last (T.entries s.level xs) := by
  induction xs generalizing s with
  | nil => rfl
  | cons x xs ih =>
      rw [fired_cons, entries, ih]
      by_cases henters : T.enters s.level x
      · rw [if_pos henters, thin]
        -- an entry fires when the time since the last one is long enough
        by_cases hready : T.ready s.last (T.time x)
        · have hfires : T.fires s x := by simp [fires, henters, hready]
          rw [if_pos hfires, if_pos hready, next, if_pos hfires]
        · have hfires : ¬ T.fires s x := by simp [fires, hready]
          rw [if_neg hfires, if_neg hready, next, if_neg hfires]
      · -- no entry: the trigger is silent, and only the level changes
        have hfires : ¬ T.fires s x := by simp [fires, henters]
        rw [if_neg henters, if_neg hfires, next, if_neg hfires]

/-! ## (3) Excursions -/

/-- Samples that stay at the level of the previous one raise nothing and change nothing. -/
theorem fired_eq_nil_of_level {s : State σ τ} {xs : List α}
    (h : ∀ x ∈ xs, T.level x = s.level) : T.fired s xs = [] := by
  induction xs generalizing s with
  | nil => rfl
  | cons x xs ih =>
      obtain ⟨hx, hxs⟩ := List.forall_mem_cons.mp h
      have hfires : ¬ T.fires s x := by simp [fires, enters, hx]
      rw [fired_cons, if_neg hfires]
      apply ih
      intro y hy
      rw [hxs y hy, next, hx]

/-- **An excursion raises an event at its first sample or not at all**: which of the two is decided
by the time of the last event before it. -/
theorem fired_excursion {s : State σ τ} {x : α} {xs : List α} (hidle : T.level x ≠ T.idle)
    (hlevel : T.level x ≠ s.level) (h : ∀ y ∈ xs, T.level y = T.level x) :
    T.fired s (x :: xs) = if T.ready s.last (T.time x) then [x] else [] := by
  have hrest : T.fired (T.next s x) xs = [] := T.fired_eq_nil_of_level h
  have hfires : T.fires s x = T.ready s.last (T.time x) := by
    simp [fires, enters, hidle, hlevel]
  rw [fired_cons, hfires, hrest]

/-! ## (4) What thinning asks -/

section Thinning

variable {time : α → τ} {ready ready' : Option τ → τ → Bool} {last : Option τ} {xs : List α}

/-- What thinning asks: the time of the last element kept, and the time of the next element. -/
def compared (time : α → τ) (ready : Option τ → τ → Bool) : Option τ → List α → List (Option τ × τ)
  | _, [] => []
  | last, x :: xs =>
      (last, time x) ::
        if ready last (time x) then compared time ready (some (time x)) xs
        else compared time ready last xs

/-- The first element kept is one that the time before allows. -/
theorem ready_of_mem_head?_thin {x : α} (h : x ∈ (thin time ready last xs).head?) :
    ready last (time x) = true := by
  induction xs with
  | nil => cases h
  | cons y ys ih =>
      by_cases hready : ready last (time y)
      · rw [thin, if_pos hready] at h
        cases h
        exact hready
      · rw [thin, if_neg hready] at h
        exact ih h

/-- A kept element is not one that the other rule refuses at the same time. -/
theorem cons_ne_map_time_thin {x : α} {ts : List τ} (h : ¬ ready last (time x)) :
    time x :: ts ≠ (thin time ready last xs).map time := by
  intro heq
  cases hthin : thin time ready last xs with
  | nil =>
      rw [hthin] at heq
      cases heq
  | cons y ys =>
      rw [hthin, List.map_cons] at heq
      -- the first time that the thinning keeps was ready
      have hhead : y ∈ (thin time ready last xs).head? := by
        rw [hthin]
        rfl
      have hready := ready_of_mem_head?_thin hhead
      rw [(List.cons.inj heq).1] at h
      exact h hready

/-- **Two rules keep elements of the same times exactly if they agree wherever one is asked.** -/
theorem map_time_thin_eq_iff :
    (thin time ready last xs).map time = (thin time ready' last xs).map time ↔
      ∀ c ∈ compared time ready' last xs, ready c.1 c.2 = ready' c.1 c.2 := by
  induction xs generalizing last with
  | nil => simp [thin, compared]
  | cons x xs ih =>
      rw [thin, thin, compared, List.forall_mem_cons]
      by_cases hx : ready last (time x) <;> by_cases hx' : ready' last (time x)
      · rw [if_pos hx, if_pos hx', if_pos hx', List.map_cons, List.map_cons, List.cons_inj_right, ih]
        simp only [hx, hx', true_and]
      · -- one rule keeps the element, the other one refuses whatever has its time
        rw [if_pos hx, if_neg hx', if_neg hx', List.map_cons]
        simp only [hx, hx', Bool.true_eq_false, false_and, iff_false]
        exact cons_ne_map_time_thin hx'
      · rw [if_neg hx, if_pos hx', if_pos hx', List.map_cons]
        simp only [hx, hx', Bool.false_eq_true, false_and, iff_false]
        exact (cons_ne_map_time_thin hx).symm
      · rw [if_neg hx, if_neg hx', if_neg hx', ih]
        simp only [hx, hx', true_and]

/-- Rules that agree wherever one is asked keep the same elements. -/
theorem thin_congr (h : ∀ c ∈ compared time ready' last xs, ready c.1 c.2 = ready' c.1 c.2) :
    thin time ready last xs = thin time ready' last xs := by
  induction xs generalizing last with
  | nil => rfl
  | cons x xs ih =>
      rw [compared] at h
      obtain ⟨hx, hrest⟩ := List.forall_mem_cons.mp h
      rw [thin, thin, hx]
      by_cases hready : ready' last (time x)
      · rw [if_pos hready] at hrest ⊢
        rw [if_pos hready, ih hrest]
      · rw [if_neg hready] at hrest ⊢
        rw [if_neg hready, ih hrest]

/-- The times asked about are those of the elements, and before the first one that of the start. -/
theorem mem_compared {c : Option τ × τ} (h : c ∈ compared time ready last xs) :
    (∀ t ∈ c.1, t ∈ last ∨ t ∈ xs.map time) ∧ c.2 ∈ xs.map time := by
  induction xs generalizing last with
  | nil => cases h
  | cons x xs ih =>
      rw [compared] at h
      rw [List.map_cons]
      obtain rfl | h := List.mem_cons.mp h
      · exact ⟨fun t ht => .inl ht, List.mem_cons_self⟩
      -- an event that is reported becomes the last one, so its time is compared from then on
      by_cases hready : ready last (time x)
      · rw [if_pos hready] at h
        obtain ⟨hlast, hnow⟩ := ih h
        refine ⟨fun t ht => ?_, List.mem_cons_of_mem _ hnow⟩
        obtain hx | hrest := hlast t ht
        · exact .inr (List.mem_cons.mpr (.inl (Option.some.inj hx).symm))
        · exact .inr (List.mem_cons_of_mem _ hrest)
      · rw [if_neg hready] at h
        obtain ⟨hlast, hnow⟩ := ih h
        refine ⟨fun t ht => ?_, List.mem_cons_of_mem _ hnow⟩
        exact (hlast t ht).imp_right (List.mem_cons_of_mem _)

/-- **What the rule demands of an element and the one kept before it** holds of any two kept ones, if
it is transitive. -/
theorem pairwise_thin {R : τ → τ → Prop} (htrans : ∀ {s t u}, R s t → R t u → R s u)
    (hready : ∀ {s t}, ready (some s) t = true → R s t) :
    (∀ s ∈ last, ∀ t ∈ (thin time ready last xs).map time, R s t) ∧
      ((thin time ready last xs).map time).Pairwise R := by
  induction xs generalizing last with
  | nil => exact ⟨fun _ _ _ ht => absurd ht List.not_mem_nil, List.Pairwise.nil⟩
  | cons x xs ih =>
      by_cases hx : ready last (time x)
      · -- what is kept next comes behind this time
        obtain ⟨hfirst, hrest⟩ := @ih (some (time x))
        rw [thin, if_pos hx, List.map_cons]
        refine ⟨?_, List.pairwise_cons.mpr ⟨hfirst _ rfl, hrest⟩⟩
        rintro s rfl t ht
        obtain rfl | ht := List.mem_cons.mp ht
        · exact hready hx
        · exact htrans (hready hx) (hfirst _ rfl t ht)
      · rw [thin, if_neg hx]
        exact ih

end Thinning

end EdgeTrigger
