import Mathlib.Data.List.TakeWhile
import Mathlib.Tactic

set_option autoImplicit false

/-! # Tokens

A rule of tokens says what the first token of a text may be, and which text it leaves. If every text
but the empty one has exactly one first token, and a token takes at least one symbol, then a text is
a sequence of tokens in exactly one way. Two kinds of token are common: a longest run of symbols
without a stop, and a word out of a set in which no word begins another.
-/

namespace Lib

variable {α τ V : Type}

/-- The text is this sequence of tokens. -/
inductive Tokens (First : List α → τ → List α → Prop) : List α → List τ → Prop
  | nil : Tokens First [] []
  | cons {cs rest : List α} {t : τ} {ts : List τ} (head : First cs t rest)
      (tail : Tokens First rest ts) : Tokens First cs (t :: ts)

/-- Every text but the empty one has exactly one first token, which takes a symbol at least. -/
structure FirstToken (First : List α → τ → List α → Prop) : Prop where
  total : ∀ cs, cs ≠ [] → ∃ t rest, First cs t rest
  unique : ∀ {cs t rest t' rest'}, First cs t rest → First cs t' rest' → t = t' ∧ rest = rest'
  shrinks : ∀ {cs t rest}, First cs t rest → rest.length < cs.length

/-- What is left of a text is shorter if something is taken off. -/
theorem length_lt_of_split {cs source rest : List α} (h : cs = source ++ rest) (hne : source ≠ []) :
    rest.length < cs.length := by
  have hpos := List.length_pos_iff.mpr hne
  rw [h, List.length_append]
  omega

namespace FirstToken

variable {First : List α → τ → List α → Prop} (h : FirstToken First)
include h

theorem ne_nil {cs rest : List α} {t : τ} (hfirst : First cs t rest) : cs ≠ [] := by
  rintro rfl
  exact absurd (h.shrinks hfirst) (Nat.not_lt_zero _)

theorem tokens_unique {cs : List α} {ts ts' : List τ} (hts : Tokens First cs ts)
    (hts' : Tokens First cs ts') : ts = ts' := by
  induction hts generalizing ts' with
  | nil =>
      cases hts' with
      | nil => rfl
      | cons head _ => exact absurd rfl (h.ne_nil head)
  | cons head _ ih =>
      cases hts' with
      | nil => exact absurd rfl (h.ne_nil head)
      | cons head' tail' =>
          obtain ⟨rfl, rfl⟩ := h.unique head head'
          rw [ih tail']

theorem tokens_exists (cs : List α) : ∃ ts, Tokens First cs ts := by
  induction hn : cs.length using Nat.strong_induction_on generalizing cs with
  | h n ih =>
      by_cases hcs : cs = []
      · subst hcs
        exact ⟨[], .nil⟩
      · obtain ⟨t, rest, hfirst⟩ := h.total cs hcs
        obtain ⟨ts, hts⟩ := ih rest.length (hn ▸ h.shrinks hfirst) rest rfl
        exact ⟨t :: ts, .cons hfirst hts⟩

/-- **A text is a sequence of tokens in exactly one way.** -/
theorem existsUnique_tokens (cs : List α) : ∃! ts, Tokens First cs ts := by
  obtain ⟨ts, hts⟩ := h.tokens_exists cs
  exact ⟨ts, hts, fun ts' hts' => h.tokens_unique hts' hts⟩

end FirstToken

/-! ## Runs -/

/-- `run` is the longest beginning of the text without a stop, and there is one. -/
structure LongestRun (stop : α → Bool) (cs run rest : List α) : Prop where
  split : cs = run ++ rest
  nonempty : run ≠ []
  free : ∀ c ∈ run, stop c = false
  stopped : ∀ c ∈ rest.head?, stop c = true

namespace LongestRun

variable {stop : α → Bool} {cs run rest run' rest' : List α}

theorem eq_takeWhile (h : LongestRun stop cs run rest) :
    run = cs.takeWhile (!stop ·) ∧ rest = cs.dropWhile (!stop ·) := by
  have hfree : ∀ c ∈ run, (!stop c) = true := by
    intro c hc
    rw [h.free c hc]
    rfl
  have hstopped : rest.takeWhile (!stop ·) = [] ∧ rest.dropWhile (!stop ·) = rest := by
    cases hrest : rest with
    | nil => exact ⟨rfl, rfl⟩
    | cons c cs' =>
        have hc : stop c = true := h.stopped c (by rw [hrest]; rfl)
        simp only [List.takeWhile_cons, List.dropWhile_cons, hc, Bool.not_true]
        exact ⟨rfl, rfl⟩
  rw [h.split, List.takeWhile_append_of_pos hfree, List.dropWhile_append_of_pos hfree, hstopped.1,
    hstopped.2, List.append_nil]
  exact ⟨rfl, rfl⟩

theorem unique (h : LongestRun stop cs run rest) (h' : LongestRun stop cs run' rest') :
    run = run' ∧ rest = rest' :=
  ⟨h.eq_takeWhile.1.trans h'.eq_takeWhile.1.symm, h.eq_takeWhile.2.trans h'.eq_takeWhile.2.symm⟩

theorem shrinks (h : LongestRun stop cs run rest) : rest.length < cs.length := by
  have hpos := List.length_pos_iff.mpr h.nonempty
  rw [h.split, List.length_append]
  omega

/-- A text that does not begin with a stop begins with a run. -/
theorem exists_of_head {c : α} (hc : stop c = false) (cs : List α) :
    ∃ run rest, LongestRun stop (c :: cs) run rest := by
  refine ⟨c :: cs.takeWhile (!stop ·), cs.dropWhile (!stop ·), ?_, List.cons_ne_nil _ _, ?_, ?_⟩
  · rw [List.cons_append, List.takeWhile_append_dropWhile]
  · intro d hd
    rcases List.mem_cons.mp hd with rfl | hd
    · exact hc
    · simpa using List.mem_takeWhile_imp hd
  · intro d hd
    have hnot := List.head?_dropWhile_not (!stop ·) cs
    rw [hd] at hnot
    simpa using hnot

theorem head_free (h : LongestRun stop cs run rest) {c : α} {cs' : List α} (hcs : cs = c :: cs') :
    stop c = false := by
  cases hrun : run with
  | nil => exact absurd hrun h.nonempty
  | cons d run' =>
      have hsplit := h.split
      rw [hcs, hrun] at hsplit
      obtain ⟨rfl, -⟩ := List.cons.inj hsplit
      exact h.free c (hrun ▸ List.mem_cons_self)

end LongestRun

/-! ## Words -/

/-- No word begins another. -/
def PrefixFree (spelling : V → List α) : Prop := ∀ v v', spelling v <+: spelling v' → v = v'

/-- At most one word begins a text. -/
theorem PrefixFree.unique {spelling : V → List α} (h : PrefixFree spelling) {v v' : V}
    {cs : List α} (hv : spelling v <+: cs) (hv' : spelling v' <+: cs) : v = v' := by
  rcases List.prefix_or_prefix_of_prefix hv hv' with hle | hle
  · exact h v v' hle
  · exact (h v' v hle).symm

/-- So that a text leaves one rest. -/
theorem PrefixFree.unique_append {spelling : V → List α} (h : PrefixFree spelling) {v v' : V}
    {rest rest' : List α} (heq : spelling v ++ rest = spelling v' ++ rest') :
    v = v' ∧ rest = rest' := by
  have hv : spelling v <+: spelling v ++ rest := List.prefix_append _ _
  have hv' : spelling v' <+: spelling v ++ rest := ⟨rest', heq.symm⟩
  obtain rfl := h.unique hv hv'
  exact ⟨rfl, List.append_cancel_left heq⟩

end Lib
