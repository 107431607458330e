import Mathlib.Data.List.Basic
import Mathlib.Order.Lattice

/-! # Maps in the order of their keys

A map as the list of its entries, each key once and in order, as a tree map iterates over them.

* **`OrderedMap`**: the entries with the proof of their order.
* **`find`**, **`modify`**: the value of a key, and the update of one value, first created if needed.
* **`find_modify`**, **`mem_entries_iff`**: what is found after an update and in the list. -/

universe u v

/-- A map from ordered keys. -/
structure OrderedMap (κ : Type u) (ν : Type v) [LinearOrder κ] where
  entries : List (κ × ν) := []
  sorted : entries.Pairwise fun x y => x.1 < y.1 := by exact List.Pairwise.nil

namespace OrderedMap

variable {κ : Type u} {ν : Type v} [LinearOrder κ]

instance : EmptyCollection (OrderedMap κ ν) := ⟨{}⟩

/-- The value of a key, none if it is not in the map. -/
def find (m : OrderedMap κ ν) (key : κ) : Option ν := m.entries.lookup key

/-- Applies `f` to the value of a key in a list of entries, or adds an entry with `f default`. -/
def modifyEntries (default : ν) (key : κ) (f : ν → ν) : List (κ × ν) → List (κ × ν)
  | [] => [(key, f default)]
  | (k, v) :: rest =>
      if key < k then (key, f default) :: (k, v) :: rest
      else if key = k then (k, f v) :: rest
      else (k, v) :: modifyEntries default key f rest

section Entries

variable {default : ν} {key : κ} {f : ν → ν} {entries : List (κ × ν)}

/-- Only the key itself can be new. -/
theorem fst_of_mem_modifyEntries {x : κ × ν} (h : x ∈ modifyEntries default key f entries) :
    x.1 = key ∨ ∃ y ∈ entries, y.1 = x.1 := by
  induction entries with
  | nil =>
      obtain rfl := List.mem_singleton.mp h
      exact .inl rfl
  | cons entry rest ih =>
      obtain ⟨k, v⟩ := entry
      rw [modifyEntries] at h
      -- in front of a larger key, at the key itself, or further on
      split at h
      · obtain rfl | hold := List.mem_cons.mp h
        · exact .inl rfl
        · exact .inr ⟨x, hold, rfl⟩
      · split at h
        · obtain rfl | hold := List.mem_cons.mp h
          · exact .inr ⟨(k, v), List.mem_cons_self, rfl⟩
          · exact .inr ⟨x, List.mem_cons_of_mem _ hold, rfl⟩
        · obtain rfl | hold := List.mem_cons.mp h
          · exact .inr ⟨(k, v), List.mem_cons_self, rfl⟩
          · obtain hkey | ⟨y, hy, heq⟩ := ih hold
            · exact .inl hkey
            · exact .inr ⟨y, List.mem_cons_of_mem _ hy, heq⟩

/-- Modifying an entry keeps the keys in order. -/
theorem sorted_modifyEntries (h : entries.Pairwise fun x y => x.1 < y.1) :
    (modifyEntries default key f entries).Pairwise fun x y => x.1 < y.1 := by
  induction entries with
  | nil => exact List.pairwise_singleton _ _
  | cons entry rest ih =>
      obtain ⟨k, v⟩ := entry
      obtain ⟨hfirst, hrest⟩ := List.pairwise_cons.mp h
      rw [modifyEntries]
      split
      · -- A new key in front of all others.
        rename_i hlt
        refine List.pairwise_cons.mpr ⟨fun y hy => ?_, h⟩
        obtain rfl | hold := List.mem_cons.mp hy
        · exact hlt
        · exact lt_trans hlt (hfirst y hold)
      · rename_i hlt
        split
        · exact List.pairwise_cons.mpr ⟨hfirst, hrest⟩
        · rename_i hne
          -- What comes behind the first key is the new key or was there before.
          refine List.pairwise_cons.mpr ⟨fun y hy => ?_, ih hrest⟩
          obtain hkey | ⟨z, hz, heq⟩ := fst_of_mem_modifyEntries hy
          · rw [hkey]
            exact lt_of_le_of_ne (not_lt.mp hlt) (Ne.symm hne)
          · rw [← heq]
            exact hfirst z hz

/-- A key in front of all others is not there. -/
theorem lookup_eq_none_of_lt {k : κ} (h : ∀ x ∈ entries, k < x.1) : entries.lookup k = none := by
  rw [List.lookup_eq_none_iff]
  intro x hx
  exact bne_iff_ne.mpr (ne_of_lt (h x hx))

/-- Looking up after a modification: the modified key, or what was there. -/
theorem lookup_modifyEntries (h : entries.Pairwise fun x y => x.1 < y.1) (k : κ) :
    (modifyEntries default key f entries).lookup k =
      if k = key then some (f ((entries.lookup key).getD default)) else entries.lookup k := by
  induction entries with
  | nil =>
      rw [modifyEntries, List.lookup_cons]
      by_cases hk : k = key
      · simp [hk]
      · simp [hk, beq_false_of_ne hk]
  | cons entry rest ih =>
      obtain ⟨k', v⟩ := entry
      obtain ⟨hfirst, hrest⟩ := List.pairwise_cons.mp h
      rw [modifyEntries]
      split
      · rename_i hlt
        -- All keys of the list are larger than the new one.
        have hnone : ((k', v) :: rest).lookup key = none := by
          refine lookup_eq_none_of_lt fun x hx => ?_
          obtain rfl | hold := List.mem_cons.mp hx
          · exact hlt
          · exact lt_trans hlt (hfirst x hold)
        rw [hnone, List.lookup_cons]
        by_cases hk : k = key
        · simp [hk]
        · simp [hk, beq_false_of_ne hk]
      · split
        · rename_i heq
          subst heq
          rw [List.lookup_cons, List.lookup_cons, List.lookup_cons]
          by_cases hk : k = key
          · simp [hk]
          · simp [hk, beq_false_of_ne hk]
        · rename_i hne
          rw [List.lookup_cons, List.lookup_cons, List.lookup_cons, ih hrest,
            beq_false_of_ne hne]
          by_cases hk : k = k'
          · subst hk
            simp [Ne.symm hne]
          · simp [beq_false_of_ne hk]

end Entries

/-- `map[key]` updated by `f`; a key that is not in the map first gets the default value. -/
def modify (m : OrderedMap κ ν) (default : ν) (key : κ) (f : ν → ν) : OrderedMap κ ν where
  entries := modifyEntries default key f m.entries
  sorted := sorted_modifyEntries m.sorted

/-- Nothing is found in an empty map. -/
@[simp] theorem find_empty (key : κ) : (∅ : OrderedMap κ ν).find key = none := rfl

/-- **An update changes the value of its key and no other.** -/
theorem find_modify (m : OrderedMap κ ν) (default : ν) (key : κ) (f : ν → ν) (k : κ) :
    (m.modify default key f).find k =
      if k = key then some (f ((m.find key).getD default)) else m.find k :=
  lookup_modifyEntries m.sorted k

/-- **The entries are what is found.** -/
theorem mem_entries_iff (m : OrderedMap κ ν) {key : κ} {value : ν} :
    (key, value) ∈ m.entries ↔ m.find key = some value := by
  obtain ⟨entries, hsorted⟩ := m
  unfold find
  induction entries with
  | nil => simp
  | cons entry rest ih =>
      obtain ⟨k, v⟩ := entry
      have hfirst := (List.pairwise_cons.mp hsorted).1
      have ih := ih (List.pairwise_cons.mp hsorted).2
      rw [List.mem_cons, List.lookup_cons]
      by_cases hk : key = k
      · subst hk
        -- the keys increase, so no later entry has this one
        have hnot : (key, value) ∉ rest := fun hmem => lt_irrefl key (hfirst (key, value) hmem)
        simp [hnot, eq_comm]
      · simp only [beq_false_of_ne hk] at ih ⊢
        simp [hk, ih]

/-- No key stands twice. -/
theorem nodup_keys (m : OrderedMap κ ν) : (m.entries.map Prod.fst).Nodup := by
  rw [List.Nodup, List.pairwise_map]
  exact m.sorted.imp fun hlt => ne_of_lt hlt

end OrderedMap
