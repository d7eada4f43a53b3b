import Mathlib.Tactic

set_option autoImplicit false

/-! # Runs of a system that takes inputs one after the other

A system is a function that takes an input in a state to an output and a next state. A run is a
list of inputs. `Along step P is s` says that each input of the run satisfies `P` in the state it
finds; what such inputs preserve in one step, they preserve over the run.
-/

namespace Lib

variable {σ ι ω : Type} (step : ι → σ → ω × σ)

/-- The state at the end of a run. -/
def final : List ι → σ → σ
  | [], s => s
  | i :: is, s => final is (step i s).2

/-- The outputs of a run, in order. -/
def outputs : List ι → σ → List ω
  | [], _ => []
  | i :: is, s => (step i s).1 :: outputs is (step i s).2

/-- Every input of the run satisfies `P` in the state it finds. -/
def Along (P : ι → σ → Prop) : List ι → σ → Prop
  | [], _ => True
  | i :: is, s => P i s ∧ Along P is (step i s).2

variable {step}

@[simp] theorem final_nil (s : σ) : final step [] s = s := rfl
@[simp] theorem final_cons (i : ι) (is : List ι) (s : σ) :
    final step (i :: is) s = final step is (step i s).2 := rfl
@[simp] theorem outputs_nil (s : σ) : outputs step [] s = [] := rfl
@[simp] theorem outputs_cons (i : ι) (is : List ι) (s : σ) :
    outputs step (i :: is) s = (step i s).1 :: outputs step is (step i s).2 := rfl

theorem final_append (is js : List ι) (s : σ) :
    final step (is ++ js) s = final step js (final step is s) := by
  induction is generalizing s with
  | nil => rfl
  | cons i is ih => exact ih _

instance Along.decide {P : ι → σ → Prop} [∀ i s, Decidable (P i s)] :
    (is : List ι) → (s : σ) → Decidable (Along step P is s)
  | [], _ => .isTrue trivial
  | i :: is, s =>
      have : Decidable (Along step P is (step i s).2) := Along.decide is _
      inferInstanceAs (Decidable (P i s ∧ Along step P is (step i s).2))

/-- Every condition that holds of all inputs holds along every run. -/
theorem Along.of_forall {P : ι → σ → Prop} (is : List ι) (s : σ) (h : ∀ i ∈ is, ∀ t, P i t) :
    Along step P is s := by
  induction is generalizing s with
  | nil => trivial
  | cons i is ih =>
      exact ⟨h i List.mem_cons_self s, ih _ fun j hj => h j (List.mem_cons_of_mem i hj)⟩

theorem Along.mono {P P' : ι → σ → Prop} {is : List ι} {s : σ} (h : Along step P is s)
    (hP : ∀ i t, P i t → P' i t) : Along step P' is s := by
  induction is generalizing s with
  | nil => trivial
  | cons i is ih => exact ⟨hP i s h.1, ih h.2⟩

theorem Along.and {P P' : ι → σ → Prop} {is : List ι} {s : σ} (h : Along step P is s)
    (h' : Along step P' is s) : Along step (fun i t => P i t ∧ P' i t) is s := by
  induction is generalizing s with
  | nil => trivial
  | cons i is ih => exact ⟨⟨h.1, h'.1⟩, ih h.2 h'.2⟩

/-- Along a run every input is one of the run. -/
theorem Along.and_mem {P : ι → σ → Prop} {is : List ι} {s : σ} (h : Along step P is s) :
    Along step (fun i t => P i t ∧ i ∈ is) is s := by
  induction is generalizing s with
  | nil => trivial
  | cons i is ih =>
      exact ⟨⟨h.1, List.mem_cons_self⟩,
        (ih h.2).mono fun j t hj => ⟨hj.1, List.mem_cons_of_mem i hj.2⟩⟩

/-- The inputs of a run are those of the run. -/
theorem Along.of_mem (is : List ι) (s : σ) : Along step (fun i _ => i ∈ is) is s :=
  Along.of_forall is s fun _ hi _ => hi

/-- **Run lemma.** What each step of the run preserves holds at its end. -/
theorem Along.keeps {P : ι → σ → Prop} {I : σ → Prop} {is : List ι} {s : σ}
    (h : Along step P is s) (hs : I s)
    (hstep : ∀ i t, P i t → I t → I (step i t).2) : I (final step is s) := by
  induction is generalizing s with
  | nil => exact hs
  | cons i is ih => exact ih h.2 (hstep i s h.1 hs)

/-- **Run lemma, for the outputs.** What each step of the run shows in a state that keeps the invariant
is shown along the run. -/
theorem Along.outputs {P : ι → σ → Prop} {I : σ → Prop} {O : ω → Prop} {is : List ι} {s : σ}
    (h : Along step P is s) (hs : I s) (hstep : ∀ i t, P i t → I t → I (step i t).2)
    (hout : ∀ i t, P i t → I t → O (step i t).1) : ∀ o ∈ Lib.outputs step is s, O o := by
  induction is generalizing s with
  | nil => exact fun o ho => absurd ho List.not_mem_nil
  | cons i is ih =>
      intro o ho
      rcases List.mem_cons.mp ho with rfl | ho
      · exact hout i s h.1 hs
      · exact ih h.2 (hstep i s h.1 hs) o ho

end Lib
