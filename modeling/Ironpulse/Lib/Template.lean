import Ironpulse.Lib.Delimiter
import Mathlib.Data.List.Infix

/-! # Texts with placeholders

A text with placeholders between an opening mark of two characters and a closing one is read from
left to right: a placeholder starts at the first opening mark that is not yet read and ends at the
next closing mark. What is behind an opening mark that is never closed is an ordinary text.

* **`Piece`**, **`Reads`**: the pieces of a text, and that a text is read as them.
* **`Reads.unique`**: a text is read in one way only.
* **`substitute`**: the text with a value in the place of each placeholder. -/

namespace Template

variable {α : Type*}

/-- A piece of a text. -/
inductive Piece (α : Type*) where
  | literal (text : List α)
  | placeholder (name : List α)

/-- What a piece becomes: a literal stays as it is. -/
def Piece.value (env : List α → List α) : Piece α → List α
  | .literal text => text
  | .placeholder name => env name

/-- The pieces one after the other, each placeholder by its value. -/
def substitute (env : List α → List α) (pieces : List (Piece α)) : List α :=
  pieces.flatMap (Piece.value env)

/-- A text is read as these pieces, where `a` and `b` open a placeholder and `c` closes it. -/
inductive Reads (a b c : α) : List α → List (Piece α) → Prop
  /-- No opening mark is closed any more. -/
  | rest {text : List α} (h : ∀ before behind, text = before ++ a :: b :: behind → c ∉ behind) :
      Reads a b c text [.literal text]
  /-- The first opening mark, and the first closing one behind it. -/
  | placeholder {before name text : List α} {pieces : List (Piece α)}
      (hfirst : ¬[a, b] <:+: before ++ [a]) (hname : c ∉ name) (h : Reads a b c text pieces) :
      Reads a b c (before ++ a :: b :: (name ++ c :: text))
        (.literal before :: .placeholder name :: pieces)

variable {a b c : α}

/-- An occurrence of a mark is not in front of the first one. -/
theorem length_le_of_first {before before' behind behind' : List α}
    (hfirst : ¬[a, b] <:+: before' ++ [a])
    (h : before ++ a :: b :: behind = before' ++ a :: b :: behind') :
    before'.length ≤ before.length := by
  by_contra hlt
  apply hfirst
  -- The mark behind `before` lies within `before'` and the first character of its mark.
  have htake := congrArg (List.take (before.length + 2)) h
  have hshort : before.length + 2 ≤ (before' ++ [a]).length := by
    rw [List.length_append, List.length_singleton]
    omega
  have hleft : (before ++ a :: b :: behind).take (before.length + 2) = before ++ [a, b] := by
    rw [List.take_length_add_append]
    rfl
  have hright : (before' ++ a :: b :: behind').take (before.length + 2) =
      (before' ++ [a]).take (before.length + 2) := by
    have hcons : before' ++ a :: b :: behind' = (before' ++ [a]) ++ b :: behind' := by
      rw [List.append_assoc]
      rfl
    rw [hcons, List.take_append_of_le_length hshort]
  rw [hleft, hright] at htake
  have hsuffix : [a, b] <:+: (before' ++ [a]).take (before.length + 2) :=
    htake ▸ (List.suffix_append before [a, b]).isInfix
  exact hsuffix.trans (List.take_prefix _ _).isInfix

/-- What is behind an opening mark is behind the first one. -/
theorem mem_behind_first {x : α} {before before' behind behind' : List α}
    (hfirst : ¬[a, b] <:+: before ++ [a])
    (h : before ++ a :: b :: behind = before' ++ a :: b :: behind') (hx : x ∈ behind') :
    x ∈ behind := by
  have hlength := congrArg List.length h
  have hle := length_le_of_first hfirst h.symm
  simp only [List.length_append, List.length_cons] at hlength
  have hsuffix : behind <:+ before ++ a :: b :: behind := ⟨before ++ [a, b], by simp⟩
  have hsuffix' : behind' <:+ before ++ a :: b :: behind := ⟨before' ++ [a, b], by simp [h]⟩
  exact (List.suffix_of_suffix_length_le hsuffix' hsuffix (by omega)).subset hx

/-- **The first opening mark is in one place.** -/
theorem first_unique {before before' behind behind' : List α}
    (hfirst : ¬[a, b] <:+: before ++ [a]) (hfirst' : ¬[a, b] <:+: before' ++ [a])
    (h : before ++ a :: b :: behind = before' ++ a :: b :: behind') :
    before = before' ∧ behind = behind' := by
  have hlength := Nat.le_antisymm (length_le_of_first hfirst h.symm) (length_le_of_first hfirst' h)
  obtain ⟨hbefore, hmark⟩ := List.append_inj h hlength
  cases hmark
  exact ⟨hbefore, rfl⟩

/-- **A text is read in one way only.** -/
theorem Reads.unique [DecidableEq α] {text : List α} {pieces pieces' : List (Piece α)}
    (h : Reads a b c text pieces) (h' : Reads a b c text pieces') : pieces = pieces' := by
  induction h generalizing pieces' with
  | rest hopen =>
      cases h' with
      | rest => rfl
      | placeholder => exact absurd (by simp) (hopen _ _ rfl)
  | @placeholder before name text pieces hfirst hname _ ih =>
      generalize hwhole : before ++ a :: b :: (name ++ c :: text) = whole at h'
      cases h' with
      | rest hopen => exact absurd (by simp) (hopen _ _ hwhole.symm)
      | placeholder hfirst' hname' hrest' =>
          obtain ⟨rfl, hbehind⟩ := first_unique hfirst hfirst' hwhole
          -- Both names end at the first closing mark behind it.
          have hcut := congrArg (Delimiter.splitFirst c) hbehind
          rw [Delimiter.splitFirst_append hname, Delimiter.splitFirst_append hname'] at hcut
          cases hcut
          rw [ih hrest']

/-- Only the values of the names in the text matter. -/
theorem Reads.substitute_congr {text : List α} {pieces : List (Piece α)}
    (h : Reads a b c text pieces) {env env' : List α → List α}
    (henv : ∀ name, name ⊆ text → env name = env' name) :
    substitute env pieces = substitute env' pieces := by
  induction h with
  | rest => rfl
  | @placeholder before name text pieces _ _ _ ih =>
      have hname : env name = env' name := henv name fun x hx => by simp [hx]
      have hrest := ih fun name' hsub => henv name' fun x hx => by simp [hsub hx]
      unfold substitute at hrest ⊢
      simp only [List.flatMap_cons, Piece.value, hname, hrest]

end Template
