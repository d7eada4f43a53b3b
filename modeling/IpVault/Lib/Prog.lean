import Mathlib.Tactic

set_option autoImplicit false

/-! # Programs over a shared store

A request handler is a program that talks to a store it does not own: it issues one
operation, waits for the answer, and decides from it what to issue next. Between two of its
operations the store may change under it. `Prog I ε α` is such a program, over an interface
`I` that lists the operations and the type of answer each one gets. It ends in a value of
type `α` or gives up with an error of type `ε`.

What an operation does is said apart, by a `Machine`: the answer it gives and the store it
leaves. `Prog.run` executes a program alone from start to end. `Meets` is the matching
program logic: it says of a run that every operation it issues is admitted where it is
issued, and where the run ends. Runs in which several programs take turns are the subject of
`Lib/Interleave.lean`.
-/

namespace Lib

/-- The operations a program may issue, with the type of answer each one gets. -/
structure Iface where
  Op : Type
  Ans : Op → Type

/-- A program: a value, an error, or one operation and what to do with its answer. -/
inductive Prog (I : Iface) (ε α : Type) where
  | ret (a : α)
  | fail (e : ε)
  | ask (op : I.Op) (next : I.Ans op → Prog I ε α)

/-- What the operations of an interface do to a store of type `σ`. -/
structure Machine (I : Iface) (σ : Type) where
  answer : (op : I.Op) → σ → I.Ans op
  after : I.Op → σ → σ

variable {I : Iface} {σ ε α β : Type}

namespace Prog

/-- Run `p`, then `f` on its value. An error of `p` ends the whole program. -/
def bind : Prog I ε α → (α → Prog I ε β) → Prog I ε β
  | .ret a, f => f a
  | .fail e, _ => .fail e
  | .ask op next, f => .ask op fun r => (next r).bind f

instance : Monad (Prog I ε) where
  pure := .ret
  bind := Prog.bind

/-- The program of a single operation. -/
def op (o : I.Op) : Prog I ε (I.Ans o) := .ask o .ret

/-- Go on only if `c` holds. -/
def require (c : Prop) [Decidable c] (e : ε) : Prog I ε Unit :=
  if c then .ret () else .fail e

/-- Lift a pure computation that may refuse. -/
def ofExcept : Except ε α → Prog I ε α
  | .ok a => .ret a
  | .error e => .fail e

/-- Go on with the value of an option that must be there. -/
def okOr (e : ε) : Option α → Prog I ε α
  | some a => .ret a
  | none => .fail e

/-- The same program, with its error as a value. -/
def result {ε' : Type} : Prog I ε α → Prog I ε' (Except ε α)
  | .ret a => .ret (.ok a)
  | .fail e => .ret (.error e)
  | .ask o next => .ask o fun r => (next r).result

@[simp] theorem pure_eq (a : α) : (pure a : Prog I ε α) = .ret a := rfl
@[simp] theorem ret_bind (a : α) (f : α → Prog I ε β) : (Prog.ret a >>= f) = f a := rfl
@[simp] theorem fail_bind (e : ε) (f : α → Prog I ε β) :
    ((Prog.fail e : Prog I ε α) >>= f) = .fail e := rfl
@[simp] theorem ask_bind (o : I.Op) (next : I.Ans o → Prog I ε α) (f : α → Prog I ε β) :
    (Prog.ask o next >>= f) = .ask o fun r => next r >>= f := rfl

/-- Execute a program alone: its value or error, and the store it leaves. -/
def run (M : Machine I σ) : Prog I ε α → σ → Except ε α × σ
  | .ret a, s => (.ok a, s)
  | .fail e, s => (.error e, s)
  | .ask o next, s => (next (M.answer o s)).run M (M.after o s)

/-- The operations a run of `p` from `s` issues, in order. -/
def issued (M : Machine I σ) : Prog I ε α → σ → List I.Op
  | .ret _, _ => []
  | .fail _, _ => []
  | .ask o next, s => o :: (next (M.answer o s)).issued M (M.after o s)

theorem run_bind (M : Machine I σ) (p : Prog I ε α) (f : α → Prog I ε β) (s : σ) :
    (p >>= f).run M s =
      match p.run M s with
      | (.ok a, s') => (f a).run M s'
      | (.error e, s') => (.error e, s') := by
  induction p generalizing s with
  | ret a => rfl
  | fail e => rfl
  | ask o next ih => exact ih _ _

theorem run_result {ε' : Type} (M : Machine I σ) (p : Prog I ε α) (s : σ) :
    (p.result : Prog I ε' (Except ε α)).run M s = (.ok (p.run M s).1, (p.run M s).2) := by
  induction p generalizing s with
  | ret a => rfl
  | fail e => rfl
  | ask o next ih => exact ih _ _

/-! ## The operations of a program

`Issues P p` says that every operation `p` can come to issue, whatever answers it gets,
satisfies `P`. -/

def Issues (P : I.Op → Prop) : Prog I ε α → Prop
  | .ret _ => True
  | .fail _ => True
  | .ask o next => P o ∧ ∀ r, Issues P (next r)

namespace Issues

variable {P : I.Op → Prop}

theorem bind {p : Prog I ε α} {f : α → Prog I ε β} (hp : Issues P p) (hf : ∀ a, Issues P (f a)) :
    Issues P (p >>= f) := by
  induction p with
  | ret a => exact hf a
  | fail e => trivial
  | ask o next ih => exact ⟨hp.1, fun r => ih r (hp.2 r)⟩

theorem ofExcept (x : Except ε α) : Issues P (Prog.ofExcept x : Prog I ε α) := by
  cases x <;> trivial

theorem okOr (e : ε) (x : Option α) : Issues P (Prog.okOr e x : Prog I ε α) := by
  cases x <;> trivial

/-- Only a value that there is needs an answer. -/
theorem known {x : Except ε α} {f : α → Prog I ε β} (h : ∀ a, x = .ok a → Issues P (f a)) :
    Issues P (Prog.ofExcept x >>= f) := by
  cases x with
  | error e => trivial
  | ok a => exact h a rfl

theorem found {e : ε} {x : Option α} {f : α → Prog I ε β} (h : ∀ a, x = some a → Issues P (f a)) :
    Issues P (Prog.okOr e x >>= f) := by
  cases x with
  | none => trivial
  | some a => exact h a rfl

theorem require (c : Prop) [Decidable c] (e : ε) : Issues P (Prog.require c e : Prog I ε Unit) := by
  unfold Prog.require
  split <;> trivial

theorem ite {c : Prop} [Decidable c] {p q : Prog I ε α} (hp : Issues P p) (hq : Issues P q) :
    Issues P (if c then p else q) := by
  split <;> assumption

theorem op {o : I.Op} (ho : P o) : Issues P (Prog.op o : Prog I ε (I.Ans o)) :=
  ⟨ho, fun _ => trivial⟩

theorem mono {P' : I.Op → Prop} {p : Prog I ε α} (h : Issues P p) (hP : ∀ o, P o → P' o) :
    Issues P' p := by
  induction p with
  | ret a => trivial
  | fail e => trivial
  | ask o next ih => exact ⟨hP o h.1, fun r => ih r (h.2 r)⟩

end Issues

/-! ## Sequential runs

`Meets M G Q E p s` speaks of the run of `p` alone from `s`. Each operation it issues is
admitted by `G` in the store that operation finds; if the run ends in a value, `Q` holds of
it and of the final store; if it ends in an error, `E` does. -/

variable (M : Machine I σ) (G : I.Op → σ → Prop) (Q : α → σ → Prop) (E : ε → σ → Prop)

def Meets : Prog I ε α → σ → Prop
  | .ret a, s => Q a s
  | .fail e, s => E e s
  | .ask o next, s => G o s ∧ Meets (next (M.answer o s)) (M.after o s)

variable {M G Q E}

@[simp] theorem meets_ret (a : α) (s : σ) : Meets M G Q E (.ret a) s ↔ Q a s := Iff.rfl
@[simp] theorem meets_fail (e : ε) (s : σ) :
    Meets M G Q E (.fail e : Prog I ε α) s ↔ E e s := Iff.rfl
@[simp] theorem meets_ask (o : I.Op) (next : I.Ans o → Prog I ε α) (s : σ) :
    Meets M G Q E (.ask o next) s ↔
      G o s ∧ Meets M G Q E (next (M.answer o s)) (M.after o s) := Iff.rfl

@[simp] theorem meets_op (o : I.Op) (Q : I.Ans o → σ → Prop) (s : σ) :
    Meets M G Q E (Prog.op o) s ↔ G o s ∧ Q (M.answer o s) (M.after o s) := Iff.rfl

/-- **Sequencing.** The second program starts where the first one ends. -/
@[simp] theorem meets_bind (p : Prog I ε α) (f : α → Prog I ε β) (Q : β → σ → Prop) (s : σ) :
    Meets M G Q E (p >>= f) s ↔ Meets M G (fun a s' => Meets M G Q E (f a) s') E p s := by
  induction p generalizing s with
  | ret a => rfl
  | fail e => rfl
  | ask o next ih => exact and_congr_right fun _ => ih _ _

@[simp] theorem meets_require (c : Prop) [Decidable c] (e : ε) (Q : Unit → σ → Prop) (s : σ) :
    Meets M G Q E (Prog.require c e) s ↔ (c → Q () s) ∧ (¬ c → E e s) := by
  unfold Prog.require
  by_cases hc : c
  · simp [hc]
  · simp [hc]

@[simp] theorem meets_ofExcept (x : Except ε α) (s : σ) :
    Meets M G Q E (Prog.ofExcept x) s ↔
      (∀ a, x = .ok a → Q a s) ∧ (∀ e, x = .error e → E e s) := by
  cases x with
  | ok a => simp [Prog.ofExcept]
  | error e => simp [Prog.ofExcept]

@[simp] theorem meets_okOr (e : ε) (x : Option α) (s : σ) :
    Meets M G Q E (Prog.okOr e x) s ↔ (∀ a, x = some a → Q a s) ∧ (x = none → E e s) := by
  cases x with
  | none => simp [Prog.okOr]
  | some a => simp [Prog.okOr]

/-- Consequence: a weaker admission and weaker ends follow from stronger ones. -/
theorem Meets.mono {G' : I.Op → σ → Prop} {Q' : α → σ → Prop} {E' : ε → σ → Prop}
    {p : Prog I ε α} {s : σ} (h : Meets M G Q E p s)
    (hG : ∀ o t, G o t → G' o t) (hQ : ∀ a t, Q a t → Q' a t) (hE : ∀ e t, E e t → E' e t) :
    Meets M G' Q' E' p s := by
  induction p generalizing s with
  | ret a => exact hQ _ _ h
  | fail e => exact hE _ _ h
  | ask o next ih => exact ⟨hG _ _ h.1, ih _ h.2⟩

/-- A weaker end. -/
theorem Meets.imp {Q' : α → σ → Prop} {p : Prog I ε α} {s : σ} (h : Meets M G Q E p s)
    (hQ : ∀ a t, Q a t → Q' a t) : Meets M G Q' E p s :=
  h.mono (fun _ _ h => h) hQ fun _ _ h => h

/-- **The rule of sequencing.** -/
theorem Meets.bind {p : Prog I ε α} {f : α → Prog I ε β} {R : β → σ → Prop} {s : σ}
    (hp : Meets M G Q E p s) (hf : ∀ a t, Q a t → Meets M G R E (f a) t) :
    Meets M G R E (p >>= f) s :=
  (meets_bind p f R s).mpr (hp.imp hf)

/-- Two judgements about one run hold together. -/
theorem Meets.and {G' : I.Op → σ → Prop} {Q' : α → σ → Prop} {E' : ε → σ → Prop}
    {p : Prog I ε α} {s : σ} (h : Meets M G Q E p s) (h' : Meets M G' Q' E' p s) :
    Meets M (fun o t => G o t ∧ G' o t) (fun a t => Q a t ∧ Q' a t)
      (fun e t => E e t ∧ E' e t) p s := by
  induction p generalizing s with
  | ret a => exact ⟨h, h'⟩
  | fail e => exact ⟨h, h'⟩
  | ask o next ih => exact ⟨⟨h.1, h'.1⟩, ih _ h.2 h'.2⟩

/-- What a program can issue at all it issues in every run. -/
theorem Issues.meets {P : I.Op → Prop} {p : Prog I ε α} (h : Issues P p) (s : σ) :
    Meets M (fun o _ => P o) (fun _ _ => True) (fun _ _ => True) p s := by
  induction p generalizing s with
  | ret a => trivial
  | fail e => trivial
  | ask o next ih => exact ⟨h.1, ih _ (h.2 _) _⟩

/-- What all operations of a program keep holds wherever it ends. -/
theorem Issues.keeps {P : I.Op → Prop} {Inv : σ → Prop} {p : Prog I ε α} {s : σ}
    (h : Issues P p) (hs : Inv s) (step : ∀ o t, P o → Inv t → Inv (M.after o t)) :
    Meets M (fun _ _ => True) (fun _ t => Inv t) (fun _ t => Inv t) p s := by
  induction p generalizing s with
  | ret a => exact hs
  | fail e => exact hs
  | ask o next ih => exact ⟨trivial, ih _ (h.2 _) (step o s h.1 hs)⟩

/-- The judgement read off the run itself. -/
theorem Meets.run {p : Prog I ε α} {s : σ} (h : Meets M G Q E p s) :
    (∀ a s', p.run M s = (.ok a, s') → Q a s') ∧
    (∀ e s', p.run M s = (.error e, s') → E e s') := by
  induction p generalizing s with
  | ret a =>
      refine ⟨fun a' s' h' => ?_, fun e s' h' => by simp [Prog.run] at h'⟩
      simp only [Prog.run, Prod.mk.injEq, Except.ok.injEq] at h'
      obtain ⟨rfl, rfl⟩ := h'
      exact h
  | fail e =>
      refine ⟨fun a' s' h' => by simp [Prog.run] at h', fun e' s' h' => ?_⟩
      simp only [Prog.run, Prod.mk.injEq, Except.error.injEq] at h'
      obtain ⟨rfl, rfl⟩ := h'
      exact h
  | ask o next ih => exact ih _ h.2

/-- **Invariants.** A property that every admitted operation keeps holds at the end of the
run, however it ends. -/
theorem Meets.keeps {Inv : σ → Prop} {p : Prog I ε α} {s : σ}
    (h : Meets M G Q E p s) (hs : Inv s)
    (step : ∀ o t, G o t → Inv t → Inv (M.after o t)) : Inv (p.run M s).2 := by
  induction p generalizing s with
  | ret a => exact hs
  | fail e => exact hs
  | ask o next ih => exact ih _ h.2 (step _ _ h.1 hs)

/-- Every operation a run issues is admitted in some store. -/
theorem Meets.issued {p : Prog I ε α} {s : σ} (h : Meets M G Q E p s) :
    ∀ o ∈ p.issued M s, ∃ t, G o t := by
  induction p generalizing s with
  | ret a => simp [Prog.issued]
  | fail e => simp [Prog.issued]
  | ask o next ih =>
      intro o' ho'
      simp only [Prog.issued, List.mem_cons] at ho'
      rcases ho' with rfl | ho'
      · exact ⟨s, h.1⟩
      · exact ih _ h.2 o' ho'

end Prog

end Lib
