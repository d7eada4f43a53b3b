import IpVault.Lib.Runs
import Mathlib.Tactic

set_option autoImplicit false

/-! # One system read off another

A run of one system does some steps of another: each of its steps contributes the steps that it stands
for. If every step keeps to the other system, a run does, and what is so of the other system in each
contribution is so along the whole of it.
-/

namespace Lib

variable {σ τ ι κ ω υ : Type} {step : ι → σ → ω × σ} {step' : κ → τ → υ × τ}

/-- What the steps of a run contribute, in order. -/
def collect (step : ι → σ → ω × σ) (f : ι → σ → List κ) : List ι → σ → List κ
  | [], _ => []
  | i :: is, s => f i s ++ collect step f is (step i s).2

variable {f : ι → σ → List κ} {I : σ → Prop} {P : ι → σ → Prop}

theorem Along.append {Q : κ → τ → Prop} {ks ls : List κ} {t : τ} (hk : Along step' Q ks t)
    (hl : Along step' Q ls (final step' ks t)) : Along step' Q (ks ++ ls) t := by
  induction ks generalizing t with
  | nil => exact hl
  | cons k ks ih => exact ⟨hk.1, ih hk.2 hl⟩

/-- What each step of a run shows in a state that keeps the invariant is shown along the run. -/
theorem Along.shows {Q : ι → σ → Prop} {is : List ι} {s : σ} (h : Along step P is s) (hs : I s)
    (hkeeps : ∀ i s, P i s → I s → I (step i s).2) (hshows : ∀ i s, P i s → I s → Q i s) :
    Along step Q is s := by
  induction is generalizing s with
  | nil => trivial
  | cons i is ih => exact ⟨hshows i s h.1 hs, ih h.2 (hkeeps i s h.1 hs)⟩

theorem outputs_append (is js : List ι) (s : σ) :
    outputs step (is ++ js) s = outputs step is s ++ outputs step js (final step is s) := by
  induction is generalizing s with
  | nil => rfl
  | cons i is ih => exact congrArg (_ :: ·) (ih _)

/-- What contributes something of a list contributes a part of that list. -/
theorem collect_sublist {α : Type} (h : κ → α) {g : ι → List α}
    (hpart : ∀ i s, ((f i s).map h).Sublist (g i)) (is : List ι) (s : σ) :
    ((collect step f is s).map h).Sublist (is.flatMap g) := by
  induction is generalizing s with
  | nil => exact List.Sublist.refl _
  | cons i is ih =>
      rw [collect, List.map_append, List.flatMap_cons]
      exact (hpart i s).append (ih _)

/-- **Simulation.** The view of a run is the run of what it contributes. -/
theorem Along.simulates (view : σ → τ) {is : List ι} {s : σ} (h : Along step P is s) (hs : I s)
    (hkeeps : ∀ i s, P i s → I s → I (step i s).2)
    (hstep : ∀ i s, P i s → I s → view (step i s).2 = final step' (f i s) (view s)) :
    view (final step is s) = final step' (collect step f is s) (view s) := by
  induction is generalizing s with
  | nil => rfl
  | cons i is ih =>
      rw [final_cons, ih h.2 (hkeeps i s h.1 hs), hstep i s h.1 hs, collect, final_append]

/-- **Along the other system**, what each contribution shows in the state it meets. -/
theorem Along.collected (view : σ → τ) {Q : κ → τ → Prop} {is : List ι} {s : σ}
    (h : Along step P is s) (hs : I s)
    (hkeeps : ∀ i s, P i s → I s → I (step i s).2)
    (hstep : ∀ i s, P i s → I s → view (step i s).2 = final step' (f i s) (view s))
    (hshows : ∀ i s, P i s → I s → Along step' Q (f i s) (view s)) :
    Along step' Q (collect step f is s) (view s) := by
  induction is generalizing s with
  | nil => trivial
  | cons i is ih =>
      have hrest := ih h.2 (hkeeps i s h.1 hs)
      rw [hstep i s h.1 hs] at hrest
      exact (hshows i s h.1 hs).append hrest

/-! ## What a run meets -/

/-- The input `i` of the run finds the state `t`. -/
def Met (step : ι → σ → ω × σ) (is : List ι) (s : σ) (i : ι) (t : σ) : Prop :=
  ∃ before after, is = before ++ i :: after ∧ t = final step before s

theorem Met.mem {is : List ι} {s t : σ} {i : ι} (h : Met step is s i t) : i ∈ is := by
  obtain ⟨before, after, rfl, -⟩ := h
  exact List.mem_append_right _ List.mem_cons_self

theorem Met.cons {is : List ι} {s t : σ} {i : ι} (j : ι) (h : Met step is (step j s).2 i t) :
    Met step (j :: is) s i t := by
  obtain ⟨before, after, rfl, rfl⟩ := h
  exact ⟨j :: before, after, rfl, rfl⟩

/-- What is so along a run is so of all it meets. -/
theorem Along.met {is : List ι} {s t : σ} {i : ι} (h : Along step P is s) (hm : Met step is s i t) :
    P i t := by
  obtain ⟨before, after, rfl, rfl⟩ := hm
  induction before generalizing s with
  | nil => exact h.1
  | cons j before ih => exact ih h.2

/-- **Where something comes from.** What is there after a run, and is brought by a step or was there
before it, was there at the beginning or is brought by a step the run meets. -/
theorem Along.brought {α : Type*} {K : σ → α → Prop} {B : ι → σ → α → Prop} {is : List ι} {s : σ}
    (h : Along step P is s) (hstep : ∀ i t a, P i t → K (step i t).2 a → K t a ∨ B i t a) {a : α}
    (ha : K (final step is s) a) : K s a ∨ ∃ i t, Met step is s i t ∧ B i t a := by
  induction is generalizing s with
  | nil => exact .inl ha
  | cons i is ih =>
      rcases ih h.2 ha with hk | ⟨j, t, hmet, hb⟩
      · rcases hstep i s a h.1 hk with hs | hb
        · exact .inl hs
        · exact .inr ⟨i, s, ⟨[], is, rfl, rfl⟩, hb⟩
      · exact .inr ⟨j, t, hmet.cons i, hb⟩

/-- What a run contributes, some step of it contributes in the state it finds. -/
theorem mem_collect {is : List ι} {s : σ} {k : κ} (h : k ∈ collect step f is s) :
    ∃ i t, Met step is s i t ∧ k ∈ f i t := by
  induction is generalizing s with
  | nil => exact absurd h List.not_mem_nil
  | cons i is ih =>
      rcases List.mem_append.mp h with hi | hrest
      · exact ⟨i, s, ⟨[], is, rfl, rfl⟩, hi⟩
      · obtain ⟨j, t, hm, hk⟩ := ih hrest
        exact ⟨j, t, hm.cons i, hk⟩

/-- **What is seen of a run**, if each of its steps shows what its contribution shows. -/
theorem outputs_collect {α : Type} (view : σ → τ) {step : ι → σ → List α × σ}
    {step' : κ → τ → List α × τ} {f : ι → σ → List κ}
    (hstep : ∀ i s, view (step i s).2 = final step' (f i s) (view s))
    (hout : ∀ i s, (step i s).1 = (outputs step' (f i s) (view s)).flatten) (is : List ι) (s : σ) :
    (outputs step is s).flatten = (outputs step' (collect step f is s) (view s)).flatten := by
  induction is generalizing s with
  | nil => rfl
  | cons i is ih =>
      rw [outputs_cons, List.flatten_cons, ih, hout, collect, outputs_append, List.flatten_append,
        hstep]

end Lib
