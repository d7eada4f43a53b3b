import IpVault.Lib.Runs

set_option autoImplicit false

/-! # Systems that come to rest

An input moves a system or leaves it where it is. If every move takes it down a well-founded measure,
no schedule keeps it moving: `stops` finds the input that does not.
-/

namespace Lib

variable {σ ι ω μ : Type} {step : ι → σ → ω × σ}

/-- **No schedule moves the system for ever**, if an invariant lets every move descend. -/
theorem stops {r : μ → μ → Prop} (hwf : WellFounded r) (measure : σ → μ) {I : σ → Prop}
    {Moves : ι → σ → Prop}
    (hkeep : ∀ i s, I s → Moves i s → I (step i s).2)
    (hless : ∀ i s, I s → Moves i s → r (measure (step i s).2) (measure s))
    (s : σ) (hs : I s) (schedule : Stream' ι) :
    ∃ k, ¬ Moves (schedule.get k) (final step (schedule.take k) s) := by
  -- The induction is on the measure of the state the schedule starts in.
  generalize hm : measure s = m
  induction m using hwf.induction generalizing s schedule with
  | _ m ih =>
      subst hm
      by_cases hmove : Moves schedule.head s
      · obtain ⟨k, hk⟩ := ih (measure (step schedule.head s).2) (hless _ _ hs hmove)
          (step schedule.head s).2 (hkeep _ _ hs hmove) schedule.tail rfl
        refine ⟨k + 1, ?_⟩
        rw [Stream'.take_succ, final_cons, ← Stream'.get_tail]
        exact hk
      · exact ⟨0, hmove⟩

end Lib
