import IpVault.Lib.Prog

set_option autoImplicit false

/-! # Two runs side by side

What a program lets its client know of the store is a property of two runs: where two stores differ
only in what the client must not know, the runs have to end alike. `Twins` relates the ends of two
runs, of two programs from two stores. Its rules follow the two programs in step (`Twins.bind`); of
programs that are known to end in a value, or in an error, `Meets` says where (`Twins.of_ended`,
`Twins.of_refused`).
-/

namespace Lib

variable {I : Iface} {σ ε α β γ δ : Type}

namespace Prog

/-- Both runs end in a value and `Q` relates their ends, or both end in an error and `E` does. -/
def Twins (M : Machine I σ) (Q : α → σ → β → σ → Prop) (E : ε → σ → ε → σ → Prop)
    (p : Prog I ε α) (s : σ) (q : Prog I ε β) (t : σ) : Prop :=
  match p.run M s, q.run M t with
  | (.ok a, s'), (.ok b, t') => Q a s' b t'
  | (.error e, s'), (.error e', t') => E e s' e' t'
  | _, _ => False

variable {M : Machine I σ} {Q : α → σ → β → σ → Prop} {E : ε → σ → ε → σ → Prop} {s t : σ}

@[simp] theorem twins_ret (a : α) (b : β) :
    Twins M Q E (.ret a : Prog I ε α) s (.ret b) t ↔ Q a s b t := Iff.rfl

@[simp] theorem twins_fail (e e' : ε) :
    Twins M Q E (.fail e : Prog I ε α) s (.fail e' : Prog I ε β) t ↔ E e s e' t := Iff.rfl

@[simp] theorem twins_op {o o' : I.Op} {Q : I.Ans o → σ → I.Ans o' → σ → Prop} :
    Twins M Q E (Prog.op o : Prog I ε (I.Ans o)) s (Prog.op o') t ↔
      Q (M.answer o s) (M.after o s) (M.answer o' t) (M.after o' t) := Iff.rfl

/-- **Sequencing.** The second programs start where the first ones end. -/
theorem Twins.bind {p : Prog I ε α} {q : Prog I ε β} {f : α → Prog I ε γ} {g : β → Prog I ε δ}
    {R : γ → σ → δ → σ → Prop} (h : Twins M Q E p s q t)
    (hf : ∀ a s' b t', Q a s' b t' → Twins M R E (f a) s' (g b) t') :
    Twins M R E (p >>= f) s (q >>= g) t := by
  unfold Twins at h ⊢
  rw [run_bind, run_bind]
  rcases hp : p.run M s with ⟨_ | a, s'⟩ <;> rcases hq : q.run M t with ⟨_ | b, t'⟩ <;>
    rw [hp, hq] at h
  · exact h
  · exact h.elim
  · exact h.elim
  · exact hf a s' b t' h

/-- Consequence: a weaker relation of the ends follows from a stronger one. -/
theorem Twins.mono {Q' : α → σ → β → σ → Prop} {E' : ε → σ → ε → σ → Prop} {p : Prog I ε α}
    {q : Prog I ε β} (h : Twins M Q E p s q t) (hQ : ∀ a s' b t', Q a s' b t' → Q' a s' b t')
    (hE : ∀ e s' e' t', E e s' e' t' → E' e s' e' t') : Twins M Q' E' p s q t := by
  unfold Twins at h ⊢
  rcases hp : p.run M s with ⟨_ | a, s'⟩ <;> rcases hq : q.run M t with ⟨_ | b, t'⟩ <;>
    rw [hp, hq] at h
  · exact hE _ _ _ _ h
  · exact h.elim
  · exact h.elim
  · exact hQ _ _ _ _ h

theorem twins_ofExcept {x : Except ε α} {y : Except ε β} :
    Twins M Q E (Prog.ofExcept x) s (Prog.ofExcept y) t ↔
      (∀ a b, x = .ok a → y = .ok b → Q a s b t) ∧
        (∀ e e', x = .error e → y = .error e' → E e s e' t) ∧ (x.isOk = true ↔ y.isOk = true) := by
  cases x <;> cases y <;> simp [Prog.ofExcept, Twins, run, Except.isOk, Except.toBool]

/-- The same pure step on both sides. -/
theorem twins_ofExcept_same {x : Except ε α} {Q : α → σ → α → σ → Prop}
    (hQ : ∀ a, x = .ok a → Q a s a t) (hE : ∀ e, x = .error e → E e s e t) :
    Twins M Q E (Prog.ofExcept x) s (Prog.ofExcept x) t := by
  cases x with
  | ok a => exact hQ a rfl
  | error e => exact hE e rfl

/-- The same condition on both sides. -/
theorem twins_require {c d : Prop} [Decidable c] [Decidable d] {e e' : ε}
    {Q : Unit → σ → Unit → σ → Prop} (hcd : c ↔ d) (hQ : c → Q () s () t)
    (hE : ¬ c → E e s e' t) :
    Twins M Q E (Prog.require c e) s (Prog.require d e') t := by
  unfold Prog.require
  by_cases hc : c
  · rw [if_pos hc, if_pos (hcd.mp hc)]
    exact hQ hc
  · rw [if_neg hc, if_neg (fun hd => hc (hcd.mpr hd))]
    exact hE hc

theorem twins_ite {c d : Prop} [Decidable c] [Decidable d] {p p' : Prog I ε α} {q q' : Prog I ε β}
    (hcd : c ↔ d) (hp : c → Twins M Q E p s q t) (hp' : ¬ c → Twins M Q E p' s q' t) :
    Twins M Q E (if c then p else p') s (if d then q else q') t := by
  by_cases hc : c
  · rw [if_pos hc, if_pos (hcd.mp hc)]
    exact hp hc
  · rw [if_neg hc, if_neg (fun hd => hc (hcd.mpr hd))]
    exact hp' hc

/-- Neither run fails. -/
theorem Twins.of_ended {G G' : I.Op → σ → Prop} {P : α → σ → Prop} {P' : β → σ → Prop}
    {p : Prog I ε α} {q : Prog I ε β} (hp : Meets M G P (fun _ _ => False) p s)
    (hq : Meets M G' P' (fun _ _ => False) q t)
    (hQ : ∀ a s' b t', P a s' → P' b t' → Q a s' b t') : Twins M Q E p s q t := by
  unfold Twins
  rcases hps : p.run M s with ⟨e | a, s'⟩
  · exact (hp.run.2 e s' hps).elim
  · rcases hqt : q.run M t with ⟨e' | b, t'⟩
    · exact (hq.run.2 e' t' hqt).elim
    · exact hQ a s' b t' (hp.run.1 a s' hps) (hq.run.1 b t' hqt)

/-- Both runs fail. -/
theorem Twins.of_refused {G G' : I.Op → σ → Prop} {P P' : ε → σ → Prop} {p : Prog I ε α}
    {q : Prog I ε β} (hp : Meets M G (fun _ _ => False) P p s)
    (hq : Meets M G' (fun _ _ => False) P' q t)
    (hE : ∀ e s' e' t', P e s' → P' e' t' → E e s' e' t') : Twins M Q E p s q t := by
  unfold Twins
  rcases hps : p.run M s with ⟨e | a, s'⟩
  · rcases hqt : q.run M t with ⟨e' | b, t'⟩
    · exact hE e s' e' t' (hp.run.2 e s' hps) (hq.run.2 e' t' hqt)
    · exact (hq.run.1 b t' hqt).elim
  · exact (hp.run.1 a s' hps).elim

/-- A run beside itself. -/
theorem Meets.twins_self {G : I.Op → σ → Prop} {P : α → σ → Prop} {P' : ε → σ → Prop}
    {p : Prog I ε α} (h : Meets M G P P' p s) :
    Twins M (fun a s' b t' => a = b ∧ s' = t' ∧ P a s')
      (fun e s' e' t' => e = e' ∧ s' = t' ∧ P' e s') p s p s := by
  unfold Twins
  rcases hp : p.run M s with ⟨e | a, s'⟩
  · exact ⟨rfl, rfl, h.run.2 e s' hp⟩
  · exact ⟨rfl, rfl, h.run.1 a s' hp⟩

/-- What the ends of two runs with equal ends are. -/
theorem Twins.run_eq {Q : α → σ → α → σ → Prop} {p q : Prog I ε α} (h : Twins M Q E p s q t)
    (hQ : ∀ a s' b t', Q a s' b t' → a = b) (hE : ∀ e s' e' t', E e s' e' t' → e = e') :
    (p.run M s).1 = (q.run M t).1 := by
  unfold Twins at h
  rcases hp : p.run M s with ⟨_ | a, s'⟩ <;> rcases hq : q.run M t with ⟨_ | b, t'⟩ <;>
    rw [hp, hq] at h
  · exact congrArg Except.error (hE _ _ _ _ h)
  · exact h.elim
  · exact h.elim
  · exact congrArg Except.ok (hQ _ _ _ _ h)

end Prog

end Lib
