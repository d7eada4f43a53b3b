import IpVault.Lib.Prog

set_option autoImplicit false

/-! # A run and what is heard of it

`Meets` says that a run keeps to a condition. Where a run is to be compared with another one, all of it
is wanted: how it ends, the store it leaves, and what an observer hears of its operations on the way.
`Ends` has all three. A run has one such end (`Ends.unique`), and a sequence is heard in sequence.
-/

namespace Lib

variable {I : Iface} {σ ε α β γ : Type}

namespace Prog

/-- Run alone from `s`, the program ends with `r` in the store `s'`, and of its operations `f` hears
`heard`. -/
structure Ends (M : Machine I σ) (f : I.Op → Option γ) (p : Prog I ε α) (s : σ) (r : Except ε α)
    (s' : σ) (heard : List γ) : Prop where
  run : p.run M s = (r, s')
  issued : (p.issued M s).filterMap f = heard

namespace Ends

variable {M : Machine I σ} {f : I.Op → Option γ} {s s' s'' : σ} {heard heard' : List γ}

/-- Every run ends. -/
theorem total (M : Machine I σ) (f : I.Op → Option γ) (p : Prog I ε α) (s : σ) :
    Ends M f p s (p.run M s).1 (p.run M s).2 ((p.issued M s).filterMap f) := ⟨rfl, rfl⟩

/-- It ends in one way. -/
theorem unique {p : Prog I ε α} {r r' : Except ε α} {t t' : σ} (h : Ends M f p s r t heard)
    (h' : Ends M f p s r' t' heard') : r = r' ∧ t = t' ∧ heard = heard' := by
  have hrun : (r, t) = (r', t') := h.run.symm.trans h'.run
  have hheard : heard = heard' := h.issued.symm.trans h'.issued
  exact ⟨congrArg Prod.fst hrun, congrArg Prod.snd hrun, hheard⟩

theorem ret (a : α) : Ends M f (.ret a : Prog I ε α) s (.ok a) s [] := ⟨rfl, rfl⟩

theorem fail (e : ε) : Ends M f (.fail e : Prog I ε α) s (.error e) s [] := ⟨rfl, rfl⟩

theorem op (o : I.Op) :
    Ends M f (Prog.op o : Prog I ε (I.Ans o)) s (.ok (M.answer o s)) (M.after o s) (f o).toList := by
  refine ⟨rfl, ?_⟩
  show [o].filterMap f = (f o).toList
  cases h : f o with
  | none => rw [List.filterMap_cons_none h]; rfl
  | some b => rw [List.filterMap_cons_some h]; rfl

theorem issued_bind (M : Machine I σ) (p : Prog I ε β) (k : β → Prog I ε α) (s : σ) :
    (p >>= k).issued M s = p.issued M s ++
      match p.run M s with
      | (.ok b, t) => (k b).issued M t
      | (.error _, _) => [] := by
  induction p generalizing s with
  | ret b => rfl
  | fail e => rfl
  | ask o next ih => exact congrArg (o :: ·) (ih _ _)

/-- **Sequencing.** -/
theorem bind {p : Prog I ε β} {k : β → Prog I ε α} {b : β} {r : Except ε α}
    (h : Ends M f p s (.ok b) s' heard) (h' : Ends M f (k b) s' r s'' heard') :
    Ends M f (p >>= k) s r s'' (heard ++ heard') := by
  constructor
  · rw [run_bind, h.run]
    exact h'.run
  · rw [issued_bind, h.run, List.filterMap_append, h.issued]
    exact congrArg (heard ++ ·) h'.issued

/-- An error ends the sequence. -/
theorem bind_error {p : Prog I ε β} {k : β → Prog I ε α} {e : ε}
    (h : Ends M f p s (.error e) s' heard) : Ends M f (p >>= k) s (.error e) s' heard := by
  constructor
  · rw [run_bind, h.run]
  · rw [issued_bind, h.run, List.append_nil, h.issued]

theorem require {c : Prop} [Decidable c] {e : ε} (hc : c) :
    Ends M f (Prog.require c e) s (.ok ()) s [] := by
  unfold Prog.require
  rw [if_pos hc]
  exact ret ()

theorem require_error {c : Prop} [Decidable c] {e : ε} (hc : ¬ c) :
    Ends M f (Prog.require c e) s (.error e) s [] := by
  unfold Prog.require
  rw [if_neg hc]
  exact fail e

theorem ofExcept (x : Except ε α) : Ends M f (Prog.ofExcept x) s x s [] := by
  cases x with
  | ok a => exact ret a
  | error e => exact fail e

theorem okOr_some {e : ε} (a : α) : Ends M f (Prog.okOr e (some a)) s (.ok a) s [] := ret a

theorem okOr_none (e : ε) : Ends M f (Prog.okOr e (none : Option α)) s (.error e) s [] := fail e

end Ends

end Prog

end Lib
