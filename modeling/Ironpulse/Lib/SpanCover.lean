import Mathlib.Data.List.Perm.Basic

/-! # Covering items of a line with few short spans

Items occupy half-open ranges of natural numbers. A group of items is read as one span, which is at
most `Q` long and leaves no run of more than `G` numbers unused.

* **`Tile`**: a group that fills its span, with `Tile.single` and `Tile.insert`.
* **`Apart`**: two items that no tile holds together, for its length or for a hole.
* **`length_le_of_pairwise_apart`**: the lower bound of every cover by tiles, one tile for each of
  the items that are pairwise apart. -/

namespace Ironpulse.SpanCover

section Tiles

variable {α : Type*} {first stop : α → ℕ} {Q G a b : ℕ} {g : List α} {x y : α}

/-- The items of `g` fill the span from `a` to `b`: it starts with one of them, ends with one of
them, contains them all, is at most `Q` long, and each run of more than `G` of its numbers meets an
item. -/
structure Tile (first stop : α → ℕ) (Q G a b : ℕ) (g : List α) : Prop where
  starts : ∃ x ∈ g, first x = a
  ends : ∃ x ∈ g, stop x = b
  inside : ∀ x ∈ g, a ≤ first x ∧ stop x ≤ b
  short : b ≤ a + Q
  dense : ∀ c n, G < n → a ≤ c → c + n ≤ b → ∃ x ∈ g, ∃ r, c ≤ r ∧ r < c + n ∧
    first x ≤ r ∧ r < stop x

/-! ## (1) Building tiles -/

/-- One short item is a tile. -/
theorem Tile.single (hshort : stop x ≤ first x + Q) :
    Tile first stop Q G (first x) (stop x) [x] where
  starts := ⟨x, List.mem_singleton_self x, rfl⟩
  ends := ⟨x, List.mem_singleton_self x, rfl⟩
  inside := by
    intro y hy
    rw [List.mem_singleton.mp hy]
    exact ⟨Nat.le_refl _, Nat.le_refl _⟩
  short := hshort
  dense := by
    intro c n hn hc hstop
    exact ⟨x, List.mem_singleton_self x, c, Nat.le_refl _, by omega, hc, by omega⟩

/-- **An item that starts inside a tile or at most `G` behind it joins the tile**, when the longer
span is still short. -/
theorem Tile.insert (h : Tile first stop Q G a b g) (hpos : ∀ z ∈ g, first z < stop z)
    (hahead : a ≤ first x) (hgap : first x ≤ b + G) (hshort : max b (stop x) ≤ a + Q) :
    Tile first stop Q G a (max b (stop x)) (g ++ [x]) where
  starts := by
    obtain ⟨z, hz, hfirst⟩ := h.starts
    exact ⟨z, List.mem_append_left _ hz, hfirst⟩
  ends := by
    obtain ⟨z, hz, hstop⟩ := h.ends
    rcases Nat.le_total (stop x) b with hle | hle
    · exact ⟨z, List.mem_append_left _ hz, by omega⟩
    · exact ⟨x, List.mem_append_right _ (List.mem_singleton_self x), by omega⟩
  inside := by
    intro z hz
    rcases List.mem_append.mp hz with hold | hnew
    · have := h.inside z hold
      omega
    · rw [List.mem_singleton.mp hnew]
      omega
  short := hshort
  dense := by
    intro c n hn hc hend
    by_cases hin : c + n ≤ b
    · obtain ⟨z, hz, r, hr⟩ := h.dense c n hn hc hin
      exact ⟨z, List.mem_append_left _ hz, r, hr⟩
    -- the run goes beyond the old end: its last number is used by `x`, or it lies before `x` and
    -- the gap is too short for it to miss the last item of the old tile
    by_cases hlast : first x ≤ c + n - 1
    · exact ⟨x, List.mem_append_right _ (List.mem_singleton_self x), c + n - 1, by omega, by omega,
        hlast, by omega⟩
    · obtain ⟨z, hz, hstop⟩ := h.ends
      have := hpos z hz
      have := h.inside z hz
      refine ⟨z, List.mem_append_left _ hz, b - 1, by omega, by omega, by omega, by omega⟩

/-! ## (2) Items that no tile holds together -/

/-- Among the items `all`, `y` lies so far behind `x` that a span with both is too long, or there is
a hole of more than `G` numbers between them. -/
def Apart (first stop : α → ℕ) (Q G : ℕ) (all : List α) (x y : α) : Prop :=
  first x + Q < stop y ∨
    ∃ c, stop x ≤ c ∧ c + G < first y ∧ ∀ z ∈ all, stop z ≤ c ∨ c + G < first z

/-- **Items that are apart are not in one tile.** -/
theorem Apart.not_mem {all : List α} (h : Apart first stop Q G all x y)
    (htile : Tile first stop Q G a b g) (hall : ∀ z ∈ g, z ∈ all)
    (hpos : ∀ z ∈ g, first z < stop z) (hx : x ∈ g) : y ∉ g := by
  intro hy
  have hxin := htile.inside x hx
  have hyin := htile.inside y hy
  have hxpos := hpos x hx
  have hypos := hpos y hy
  rcases h with hlong | ⟨c, hleft, hright, hhole⟩
  · have := htile.short
    omega
  · -- the hole is a run of `G + 1` numbers of the span that no item uses
    obtain ⟨z, hz, r, hr⟩ := htile.dense c (G + 1) (by omega) (by omega) (by omega)
    rcases hhole z (hall z hz) with hz' | hz'
    · omega
    · omega

end Tiles

/-! ## (3) The lower bound -/

/-- **A cover has as many groups as there are items of which no two share a group.** -/
theorem length_le_of_pairwise_apart {α : Type*} {groups : List (List α)} {items : List α}
    (hmem : ∀ x ∈ items, ∃ g ∈ groups, x ∈ g)
    (hapart : items.Pairwise fun x y => ∀ g ∈ groups, x ∈ g → y ∉ g) :
    items.length ≤ groups.length := by
  induction items generalizing groups with
  | nil => exact Nat.zero_le _
  | cons x items ih =>
      rw [List.pairwise_cons] at hapart
      obtain ⟨g, hg, hxg⟩ := hmem x List.mem_cons_self
      obtain ⟨before, after, rfl⟩ := List.append_of_mem hg
      -- the other items live in the other groups
      have hrest : items.length ≤ (before ++ after).length := by
        apply ih
        · intro y hy
          obtain ⟨k, hk, hyk⟩ := hmem y (List.mem_cons_of_mem _ hy)
          refine ⟨k, ?_, hyk⟩
          rcases List.mem_append.mp hk with hbefore | hcons
          · exact List.mem_append_left _ hbefore
          · rcases List.mem_cons.mp hcons with rfl | hafter
            · exact absurd hyk (hapart.1 y hy k hk hxg)
            · exact List.mem_append_right _ hafter
        · refine hapart.2.imp fun {y z} h k hk => h k ?_
          rcases List.mem_append.mp hk with hbefore | hafter
          · exact List.mem_append_left _ hbefore
          · exact List.mem_append_right _ (List.mem_cons_of_mem _ hafter)
      rw [List.length_append] at hrest
      rw [List.length_append, List.length_cons, List.length_cons]
      omega

end Ironpulse.SpanCover
