import Ironpulse.Core.Config
import Ironpulse.Lib.Template
import Mathlib.Data.List.TakeWhile

/-! # What the expansion of placeholders computes

`expand_env` (`src/core/config.cpp`) replaces the placeholders of a text by the values of environment
variables in one pass.

* **`variable_value`**: the value of a placeholder.
* **`expand_from_eq`**: the loop reads the text as its pieces and appends their values.
* **`expand_env_correct`**: the same of the whole text, for every text and every environment. -/

namespace Ironpulse.Core

open Template

/-! ## (1) The value of a placeholder -/

/-- The text as a C string, which ends at its first null character. -/
def c_str (text : List Char) : List Char := text.takeWhile (· ≠ '\x00')

/-- The value of the variable of this name, empty if unset. -/
def variable_value (getenv : Environment) (name : List Char) : List Char :=
  ((getenv (String.ofList name)).getD "").toList

/-- A text is read as pieces with placeholders between a dollar sign with a brace and a brace. -/
abbrev ReadsText : List Char → List (Piece Char) → Prop := Reads '$' '{' '}'

/-- A text without the null character is its own C string. -/
theorem c_str_eq_self {text : List Char} (h : '\x00' ∉ text) : c_str text = text := by
  apply List.takeWhile_eq_self_iff.mpr
  intro c hc
  exact decide_eq_true fun heq => h (heq ▸ hc)

/-! ## (2) The search for a placeholder -/

section Search

variable {text before behind : List Char}

/-- Where no placeholder is found, none begins. -/
theorem not_infix_of_find_placeholder (h : find_placeholder text = none) :
    ¬['$', '{'] <:+: text := by
  induction text using find_placeholder.induct with
  | case1 => simp
  | case2 rest => cases h
  | case3 c rest hne ih =>
      rw [find_placeholder, Option.map_eq_none_iff] at h
      · rw [List.infix_cons_iff, List.cons_prefix_cons]
        rintro (⟨hc, ⟨tail, htail⟩⟩ | hinfix)
        · exact hne tail hc.symm htail.symm
        · exact ih h hinfix
      · exact hne

/-- **The search stops at the first opening mark.** -/
theorem first_of_find_placeholder (h : find_placeholder text = some (before, behind)) :
    text = before ++ '$' :: '{' :: behind ∧ ¬['$', '{'] <:+: before ++ ['$'] := by
  induction text using find_placeholder.induct generalizing before with
  | case1 => cases h
  | case2 rest =>
      cases h
      exact ⟨rfl, by decide⟩
  | case3 c rest hne ih =>
      rw [find_placeholder] at h
      · obtain ⟨⟨before', behind'⟩, hfind, hpair⟩ := Option.map_eq_some_iff.mp h
        cases hpair
        obtain ⟨hrest, hfirst⟩ := ih hfind
        refine ⟨by rw [hrest, List.cons_append], ?_⟩
        rw [List.cons_append, List.infix_cons_iff, List.cons_prefix_cons]
        rintro (⟨hc, ⟨tail, htail⟩⟩ | hinfix)
        · -- The mark would start at `c`, so the rest of the text starts with the brace.
          cases before' with
          | nil => cases htail
          | cons d before' =>
              cases htail
              exact hne _ hc.symm hrest
        · exact hfirst hinfix
      · exact hne

/-- The name runs to the next closing mark. -/
theorem name_of_span {name rest : List Char} {c : Char}
    (h : behind.span (· ≠ '}') = (name, c :: rest)) :
    behind = name ++ '}' :: rest ∧ '}' ∉ name := by
  rw [List.span_eq_takeWhile_dropWhile] at h
  obtain ⟨hname, hrest⟩ := Prod.mk.inj h
  have hc : c = '}' := by
    have hhead := List.head?_dropWhile_not (· ≠ '}') behind
    rw [hrest, List.head?_cons] at hhead
    simpa using hhead
  constructor
  · rw [← hc, ← hname, ← hrest, List.takeWhile_append_dropWhile]
  · intro hmem
    rw [← hname] at hmem
    simpa using List.mem_takeWhile_imp hmem

/-- A name that goes on to the end of the text meets no closing brace. -/
theorem not_mem_of_span {name : List Char} (h : behind.span (· ≠ '}') = (name, [])) :
    '}' ∉ behind := by
  rw [List.span_eq_takeWhile_dropWhile] at h
  intro hmem
  have hall := List.dropWhile_eq_nil_iff.mp (Prod.mk.inj h).2 '}' hmem
  simp at hall

end Search

/-! ## (3) The loop -/

/-- **The loop reads the text as its pieces**: each round appends a literal piece and the value of a
placeholder and goes on behind it, so as many rounds as there are characters are enough. -/
theorem expand_from_eq (getenv : Environment) (fuel : Nat) (text : List Char)
    (hfuel : text.length ≤ fuel) :
    ∃ pieces, ReadsText text pieces ∧
      expand_from getenv fuel text =
        substitute (fun name => variable_value getenv (c_str name)) pieces := by
  induction fuel generalizing text with
  | zero =>
      obtain rfl := List.length_eq_zero_iff.mp (Nat.le_zero.mp hfuel)
      exact ⟨[.literal []], .rest (by simp), rfl⟩
  | succ fuel ih =>
      rw [expand_from]
      split
      · -- There is no opening mark.
        rename_i hfind
        refine ⟨[.literal text], .rest ?_, (List.append_nil text).symm⟩
        intro before behind htext
        have hinfix : ['$', '{'] <:+: text := ⟨before, behind, by rw [htext]; simp⟩
        exact absurd hinfix (not_infix_of_find_placeholder hfind)
      · rename_i before behind hfind
        obtain ⟨htext, hfirst⟩ := first_of_find_placeholder hfind
        split
        · -- The first opening mark is not closed, and so is no mark behind it.
          rename_i name hspan
          refine ⟨[.literal text], .rest ?_, (List.append_nil text).symm⟩
          intro before' behind' htext' hmem
          exact not_mem_of_span hspan (mem_behind_first hfirst (htext ▸ htext') hmem)
        · -- A placeholder: the loop goes on behind its closing mark.
          rename_i name c rest hspan
          obtain ⟨hbehind, hname⟩ := name_of_span hspan
          have hshort : rest.length ≤ fuel := by
            rw [htext, hbehind] at hfuel
            simp only [List.length_append, List.length_cons] at hfuel
            omega
          obtain ⟨pieces, hreads, hvalue⟩ := ih rest hshort
          refine ⟨.literal before :: .placeholder name :: pieces, ?_, ?_⟩
          · rw [htext, hbehind]
            exact .placeholder hfirst hname hreads
          · rw [hvalue, List.append_assoc]
            rfl

/-- A reading of the text determines what the loop returns. -/
theorem expand_from_of_reads (getenv : Environment) {fuel : Nat} {text : List Char}
    {pieces : List (Piece Char)} (hfuel : text.length ≤ fuel) (h : ReadsText text pieces) :
    expand_from getenv fuel text =
      substitute (fun name => variable_value getenv (c_str name)) pieces := by
  obtain ⟨pieces', h', heq⟩ := expand_from_eq getenv fuel text hfuel
  rw [heq, h.unique h']

/-- **The expansion is one pass of substitution.** Every text has exactly one reading as literal
pieces and placeholders. The result is the literal pieces and the values of the placeholders in that
order, a value as it is. A placeholder stands for the variable that its text up to the first null
character names, which is the whole text where the input has no such character. The loop ends within
as many rounds as the text has characters. -/
theorem expand_env_correct (getenv : Environment) (text : String) :
    (∃! pieces, ReadsText text.toList pieces) ∧
    (∀ pieces, ReadsText text.toList pieces → expand_env getenv text =
      String.ofList (substitute (fun name => variable_value getenv (c_str name)) pieces)) ∧
    ('\x00' ∉ text.toList → ∀ pieces, ReadsText text.toList pieces → expand_env getenv text =
      String.ofList (substitute (variable_value getenv) pieces)) ∧
    (∀ fuel, text.toList.length ≤ fuel →
      String.ofList (expand_from getenv fuel text.toList) = expand_env getenv text) := by
  obtain ⟨pieces, hreads, hvalue⟩ :=
    expand_from_eq getenv text.toList.length text.toList Nat.le.refl
  -- a text has one reading, and the expansion follows it
  refine ⟨⟨pieces, hreads, fun pieces' h' => h'.unique hreads⟩, ?_, ?_, ?_⟩
  · intro pieces' h'
    rw [expand_env, expand_from_of_reads getenv Nat.le.refl h']
  · intro hnull pieces' h'
    rw [expand_env, expand_from_of_reads getenv Nat.le.refl h']
    congr 1
    apply h'.substitute_congr
    -- a name without the null character is looked up in full
    intro name hsub
    rw [c_str_eq_self fun hmem => hnull (hsub hmem)]
  · intro fuel hfuel
    rw [expand_env, expand_from_of_reads getenv hfuel hreads, hvalue]

/-- A name with a null character: no variable has it, but the value of the variable that it starts
with is inserted. -/
theorem expand_env_null_in_name :
    ReadsText "$\x7bA\x00B\x7d".toList [.literal [], .placeholder ['A', '\x00', 'B'], .literal []] ∧
      expand_env (fun name => if name = "A" then some "s" else none) "$\x7bA\x00B\x7d" ≠
        String.ofList (substitute (variable_value fun name => if name = "A" then some "s" else none)
          [.literal [], .placeholder ['A', '\x00', 'B'], .literal []]) := by
  refine ⟨?_, by decide⟩
  change Reads '$' '{' '}' ([] ++ '$' :: '{' :: (['A', '\x00', 'B'] ++ '}' :: [])) _
  exact .placeholder (by decide) (by decide) (.rest (by simp))

end Ironpulse.Core
