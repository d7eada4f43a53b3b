import IpVault.Lib.Prog
import IpVault.Lib.Runs

set_option autoImplicit false

/-! # Programs that take turns

A pool is a store and any number of programs that work on it. A schedule says whose turn it is; a
turn is one operation of one program, or a change of the store from outside. Between two of its
own operations a program may find that the others have changed the store.

`Among M R A G Q E p s` is the program logic for this. It says of `p`, in the store `s`, that as
long as the others change the store only as `R` allows, each operation that `p` issues satisfies
`G` and the ends satisfy `Q` or `E`, provided its operations meet the assumption `A` in the stores
they find. `Along.among` is the parallel rule: if each turn of a schedule meets the assumption of
its program, and does to the others only what they can bear, every program stays within its
judgement.
-/

namespace Lib

/-- A store, and the programs that work on it. -/
structure Pool (I : Iface) (σ τ ε α : Type) where
  store : σ
  thread : τ → Prog I ε α

/-- Whose turn it is. -/
inductive Turn (τ ω : Type) where
  | of (i : τ)
  | outside (w : ω)

variable {I : Iface} {σ τ ω ε α β : Type}

section Turns

variable [DecidableEq τ] (M : Machine I σ) (outside : ω → σ → σ)

/-- One turn, with the operation that is issued in it. A program that has ended does nothing. -/
def Pool.turn : Turn τ ω → Pool I σ τ ε α → Option I.Op × Pool I σ τ ε α
  | .outside w, P => (none, { P with store := outside w P.store })
  | .of i, P =>
      match P.thread i with
      | .ask o next =>
          (some o, ⟨M.after o P.store, Function.update P.thread i (next (M.answer o P.store))⟩)
      | _ => (none, P)

/-- The operation a program issues when it gets its turn. -/
def Pool.pending (P : Pool I σ τ ε α) (i : τ) : Option I.Op :=
  match P.thread i with
  | .ask o _ => some o
  | _ => none

end Turns

namespace Prog

variable (M : Machine I σ) (R : σ → σ → Prop) (A G : I.Op → σ → Prop) (Q : α → σ → Prop)
variable (E : ε → σ → Prop)

/-- The judgement of a program among others. -/
def Among : Prog I ε α → σ → Prop
  | .ret a, s => ∀ t, R s t → Q a t
  | .fail e, s => ∀ t, R s t → E e t
  | .ask o next, s => ∀ t, R s t → A o t → G o t ∧ Among (next (M.answer o t)) (M.after o t)

variable {M R A G Q E}

/-- **The others do not break a judgement** they are allowed to. -/
theorem Among.stable (htrans : ∀ s t u, R s t → R t u → R s u) {p : Prog I ε α} {s t : σ}
    (h : Among M R A G Q E p s) (hst : R s t) : Among M R A G Q E p t := by
  cases p with
  | ret a => exact fun u htu => h u (htrans s t u hst htu)
  | fail e => exact fun u htu => h u (htrans s t u hst htu)
  | ask o next => exact fun u htu => h u (htrans s t u hst htu)

/-- Consequence. -/
theorem Among.mono {G' : I.Op → σ → Prop} {Q' : α → σ → Prop} {E' : ε → σ → Prop}
    {p : Prog I ε α} {s : σ} (h : Among M R A G Q E p s) (hG : ∀ o t, G o t → G' o t)
    (hQ : ∀ a t, Q a t → Q' a t) (hE : ∀ e t, E e t → E' e t) : Among M R A G' Q' E' p s := by
  induction p generalizing s with
  | ret a => exact fun t ht => hQ a t (h t ht)
  | fail e => exact fun t ht => hE e t (h t ht)
  | ask o next ih =>
      intro t ht ha
      obtain ⟨hg, hnext⟩ := h t ht ha
      exact ⟨hG o t hg, ih _ hnext⟩

/-- A judgement under a weaker assumption is one under a stronger. -/
theorem Among.assuming {A' : I.Op → σ → Prop} {p : Prog I ε α} {s : σ}
    (h : Among M R A G Q E p s) (hA : ∀ o t, A' o t → A o t) : Among M R A' G Q E p s := by
  induction p generalizing s with
  | ret a => exact h
  | fail e => exact h
  | ask o next ih =>
      intro t ht ha
      obtain ⟨hg, hnext⟩ := h t ht (hA o t ha)
      exact ⟨hg, ih _ hnext⟩

/-- A judgement among others who may do more is one among others who may do less. -/
theorem Among.under {R' : σ → σ → Prop} {p : Prog I ε α} {s : σ} (h : Among M R A G Q E p s)
    (hR : ∀ s t, R' s t → R s t) : Among M R' A G Q E p s := by
  induction p generalizing s with
  | ret a => exact fun t ht => h t (hR s t ht)
  | fail e => exact fun t ht => h t (hR s t ht)
  | ask o next ih =>
      intro t ht ha
      obtain ⟨hg, hnext⟩ := h t (hR s t ht) ha
      exact ⟨hg, ih _ hnext⟩

/-- A guarantee that every operation gives. -/
theorem Among.of_guarantee {p : Prog I ε α} {s : σ} (hG : ∀ o t, G o t) (hQ : ∀ a t, Q a t)
    (hE : ∀ e t, E e t) : Among M R A G Q E p s := by
  induction p generalizing s with
  | ret a => exact fun t _ => hQ a t
  | fail e => exact fun t _ => hE e t
  | ask o next ih => exact fun t _ _ => ⟨hG o t, ih _⟩

/-- **Sequencing.** -/
theorem Among.bind (hrefl : ∀ s, R s s) {p : Prog I ε β} {f : β → Prog I ε α} {s : σ}
    (h : Among M R A G (fun b t => Among M R A G Q E (f b) t) E p s) :
    Among M R A G Q E (p >>= f) s := by
  induction p generalizing s with
  | ret b => exact h s (hrefl s)
  | fail e => exact h
  | ask o next ih =>
      intro t ht ha
      obtain ⟨hg, hnext⟩ := h t ht ha
      exact ⟨hg, ih _ hnext⟩

/-- An error that is caught. -/
theorem Among.result {ε' : Type} {E' : ε' → σ → Prop} {Q : Except ε α → σ → Prop}
    {p : Prog I ε α} {s : σ}
    (h : Among M R A G (fun a t => Q (.ok a) t) (fun e t => Q (.error e) t) p s) :
    Among M R A G Q E' p.result s := by
  induction p generalizing s with
  | ret a => exact h
  | fail e => exact h
  | ask o next ih =>
      intro t ht ha
      obtain ⟨hg, hnext⟩ := h t ht ha
      exact ⟨hg, ih _ hnext⟩

theorem Among.ofExcept {x : Except ε α} {s : σ} (hok : ∀ a, x = .ok a → ∀ t, R s t → Q a t)
    (herr : ∀ e, x = .error e → ∀ t, R s t → E e t) : Among M R A G Q E (Prog.ofExcept x) s := by
  cases x with
  | ok a => exact hok a rfl
  | error e => exact herr e rfl

end Prog

/-! ## The parallel rule -/

section Parallel

variable [DecidableEq τ] {M : Machine I σ} {outside : ω → σ → σ}
variable {R : τ → σ → σ → Prop} {A G : τ → I.Op → σ → Prop}
variable {Q : τ → α → σ → Prop} {E : τ → ε → σ → Prop}

/-- Every program of the pool is within its judgement. -/
def Pool.Among (M : Machine I σ) (R : τ → σ → σ → Prop) (A G : τ → I.Op → σ → Prop)
    (Q : τ → α → σ → Prop) (E : τ → ε → σ → Prop) (P : Pool I σ τ ε α) : Prop :=
  ∀ i, (P.thread i).Among M (R i) (A i) (G i) (Q i) (E i) P.store

/-- What a turn must be like: the operation issued meets the assumption of its program, and, if it
keeps its guarantee, the others can bear it; a change from outside all of them can bear. -/
def Pool.Fair (M : Machine I σ) (outside : ω → σ → σ) (R : τ → σ → σ → Prop)
    (A G : τ → I.Op → σ → Prop) : Turn τ ω → Pool I σ τ ε α → Prop
  | .outside w, P => ∀ i, R i P.store (outside w P.store)
  | .of i, P => ∀ o, P.pending i = some o →
      A i o P.store ∧ (G i o P.store → ∀ j, j ≠ i → R j P.store (M.after o P.store))

/-- **One turn.** -/
theorem Pool.Among.turn (hrefl : ∀ i s, R i s s) (htrans : ∀ i s t u, R i s t → R i t u → R i s u)
    {P : Pool I σ τ ε α} (h : P.Among M R A G Q E) {w : Turn τ ω}
    (hw : P.Fair M outside R A G w) : (P.turn M outside w).2.Among M R A G Q E := by
  cases w with
  | outside w => exact fun i => (h i).stable (htrans i) (hw i)
  | of i =>
      cases hp : P.thread i with
      | ret a =>
          have hsame : (P.turn M outside (.of i)).2 = P := by simp only [Pool.turn, hp]
          rwa [hsame]
      | fail e =>
          have hsame : (P.turn M outside (.of i)).2 = P := by simp only [Pool.turn, hp]
          rwa [hsame]
      | ask o next =>
          have hturn : (P.turn M outside (.of i)).2 = ⟨M.after o P.store,
              Function.update P.thread i (next (M.answer o P.store))⟩ := by
            simp only [Pool.turn, hp]
          have hpending : P.pending i = some o := by simp only [Pool.pending, hp]
          obtain ⟨ha, hothers⟩ := hw o hpending
          have hi := h i
          rw [hp] at hi
          obtain ⟨hg, hnext⟩ := hi P.store (hrefl i _) ha
          rw [hturn]
          intro j
          by_cases hj : j = i
          · subst hj
            show (Function.update P.thread j _ j).Among M _ _ _ _ _ _
            rw [Function.update_self]
            exact hnext
          · show (Function.update P.thread i _ j).Among M _ _ _ _ _ _
            rw [Function.update_of_ne hj]
            exact (h j).stable (htrans j) (hothers hg j hj)

/-- **The parallel rule.** -/
theorem Along.among (hrefl : ∀ i s, R i s s) (htrans : ∀ i s t u, R i s t → R i t u → R i s u)
    {schedule : List (Turn τ ω)} {P : Pool I σ τ ε α}
    (hfair : Along (Pool.turn M outside) (fun w P => Pool.Fair M outside R A G w P) schedule P)
    (h : P.Among M R A G Q E) : (final (Pool.turn M outside) schedule P).Among M R A G Q E :=
  hfair.keeps (I := fun P => P.Among M R A G Q E) h fun _ _ hw hP => hP.turn hrefl htrans hw

omit [DecidableEq τ] in
/-- A program that has ended in a value is where its judgement says. -/
theorem Pool.Among.ended (hrefl : ∀ i s, R i s s) {P : Pool I σ τ ε α}
    (h : P.Among M R A G Q E) {i : τ} {a : α} (hi : P.thread i = .ret a) : Q i a P.store := by
  have hjudged := h i
  rw [hi] at hjudged
  exact hjudged P.store (hrefl i _)

end Parallel

end Lib
