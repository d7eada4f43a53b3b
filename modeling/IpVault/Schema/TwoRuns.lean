import IpVault.Lib.Twin
import IpVault.Schema.Stmt

set_option autoImplicit false

/-! # Reading two stores

`ReadsAlike v w Q p q`: the handler `p` run from `v` and the handler `q` run from `w` both leave the
store alone, and end in the same error or in values that `Q` relates.
-/

namespace IpVault

open Lib

/-- One statement on each side. -/
theorem twins_exec {l m : Stmt} {Q : l.Reply → Vault → m.Reply → Vault → Prop}
    {E : AppError → Vault → AppError → Vault → Prop} {v w : Vault}
    (h : Prog.Twins database Q E (Prog.ofExcept (l.answer v.toWorld)) (v.after l)
      (Prog.ofExcept (m.answer w.toWorld)) (w.after m)) :
    Prog.Twins database Q E (exec l) v (exec m) w :=
  Prog.Twins.bind (Q := fun a v' b w' => a = l.answer v.toWorld ∧ v' = v.after l ∧
      b = m.answer w.toWorld ∧ w' = w.after m) (Prog.twins_op.mpr ⟨rfl, rfl, rfl, rfl⟩) <| by
    rintro a v' b w' ⟨rfl, rfl, rfl, rfl⟩
    exact h

/-- Both handlers read, and end alike. -/
def ReadsAlike {α β : Type} (v w : Vault) (Q : α → β → Prop) (p : Handler α) (q : Handler β) :
    Prop :=
  Prog.Twins database (fun a v' b w' => v' = v ∧ w' = w ∧ Q a b)
    (fun e v' e' w' => v' = v ∧ w' = w ∧ e = e') p v q w

namespace ReadsAlike

variable {α β γ δ : Type} {v w : Vault} {Q : α → β → Prop}

theorem bind {p : Handler α} {q : Handler β} {f : α → Handler γ} {g : β → Handler δ}
    {R : γ → δ → Prop} (h : ReadsAlike v w Q p q)
    (hf : ∀ a b, Q a b → ReadsAlike v w R (f a) (g b)) :
    ReadsAlike v w R (p >>= f) (q >>= g) := by
  refine Prog.Twins.bind h ?_
  rintro a _ b _ ⟨rfl, rfl, hab⟩
  exact hf a b hab

theorem pure {a : α} {b : β} (h : Q a b) : ReadsAlike v w Q (.ret a) (.ret b) := ⟨rfl, rfl, h⟩

theorem fail (e : AppError) : ReadsAlike v w Q (.fail e) (.fail e) := ⟨rfl, rfl, rfl⟩

theorem select {q q' : Query} {Q : q.Reply → q'.Reply → Prop}
    (h : Q (q.eval v.toWorld) (q'.eval w.toWorld)) :
    ReadsAlike v w Q (IpVault.select q) (IpVault.select q') :=
  twins_exec (l := .query q) (m := .query q') ⟨rfl, rfl, h⟩

/-- Both handlers go on from the same reply. -/
theorem select_bind {q : Query} {f : q.Reply → Handler γ} {g : q.Reply → Handler δ}
    {R : γ → δ → Prop} {a : q.Reply} (hv : q.eval v.toWorld = a) (hw : q.eval w.toWorld = a)
    (h : ReadsAlike v w R (f a) (g a)) :
    ReadsAlike v w R (IpVault.select q >>= f) (IpVault.select q >>= g) := by
  refine bind (select (Q := fun x y => x = a ∧ y = a) ⟨hv, hw⟩) ?_
  rintro _ _ ⟨rfl, rfl⟩
  exact h

/-- Another relation of the values, which the one proved implies. -/
theorem imp {Q' : α → β → Prop} {p : Handler α} {q : Handler β} (h : ReadsAlike v w Q p q)
    (hQ : ∀ a b, Q a b → Q' a b) : ReadsAlike v w Q' p q :=
  Prog.Twins.mono h (fun a _ b _ hab => ⟨hab.1, hab.2.1, hQ a b hab.2.2⟩) fun _ _ _ _ he => he

theorem ofExcept {x : Except AppError α} {Q : α → α → Prop} (hQ : ∀ a, x = .ok a → Q a a) :
    ReadsAlike v w Q (Prog.ofExcept x) (Prog.ofExcept x) :=
  Prog.twins_ofExcept_same (fun a ha => ⟨rfl, rfl, hQ a ha⟩) fun _ _ => ⟨rfl, rfl, rfl⟩

theorem require {c d : Prop} [Decidable c] [Decidable d] {e : AppError} {Q : Unit → Unit → Prop}
    (hcd : c ↔ d) (hQ : c → Q () ()) :
    ReadsAlike v w Q (Prog.require c e) (Prog.require d e) :=
  Prog.twins_require hcd (fun hc => ⟨rfl, rfl, hQ hc⟩) fun _ => ⟨rfl, rfl, rfl⟩

theorem ite {c d : Prop} [Decidable c] [Decidable d] {p p' : Handler α} {q q' : Handler β}
    (hcd : c ↔ d) (hp : c → ReadsAlike v w Q p q) (hp' : ¬ c → ReadsAlike v w Q p' q') :
    ReadsAlike v w Q (if c then p else p') (if d then q else q') :=
  Prog.twins_ite hcd hp hp'

section Bind

variable {R : γ → δ → Prop}

theorem okOr_bind {e : AppError} {x : Option α} {f : α → Handler γ} {g : α → Handler δ}
    (h : ∀ a, x = some a → ReadsAlike v w R (f a) (g a)) :
    ReadsAlike v w R (Prog.okOr e x >>= f) (Prog.okOr e x >>= g) := by
  cases x with
  | none => exact fail e
  | some a => exact h a rfl

theorem ofExcept_bind {x : Except AppError α} {f : α → Handler γ} {g : α → Handler δ}
    (h : ∀ a, x = .ok a → ReadsAlike v w R (f a) (g a)) :
    ReadsAlike v w R (Prog.ofExcept x >>= f) (Prog.ofExcept x >>= g) := by
  cases x with
  | error e => exact fail e
  | ok a => exact h a rfl

theorem require_bind {c : Prop} [Decidable c] {e : AppError} {f : Unit → Handler γ}
    {g : Unit → Handler δ} (h : c → ReadsAlike v w R (f ()) (g ())) :
    ReadsAlike v w R (Prog.require c e >>= f) (Prog.require c e >>= g) := by
  refine bind (require (Q := fun _ _ => c) Iff.rfl fun hc => hc) ?_
  intro _ _ hc
  exact h hc

end Bind

/-- The same answer. -/
theorem answer_eq {p q : Handler α} (h : ReadsAlike v w Eq p q) :
    (p.run database v).1 = (q.run database w).1 :=
  Prog.Twins.run_eq h (fun _ _ _ _ hab => hab.2.2) fun _ _ _ _ he => he.2.2

end ReadsAlike

/-- The handler run from `v` is refused, with an error of which `E` holds. -/
def RefusedWith {α : Type} (v : Vault) (E : AppError → Prop) (p : Handler α) : Prop :=
  Prog.Meets database (fun _ _ => True) (fun _ _ => False) (fun e _ => E e) p v

namespace RefusedWith

variable {α β : Type} {v w : Vault} {E : AppError → Prop}

theorem fail {e : AppError} (h : E e) : RefusedWith v E (.fail e : Handler α) := h

theorem bind {p : Handler α} {f : α → Handler β} (h : RefusedWith v E p) :
    RefusedWith v E (p >>= f) :=
  (Prog.meets_bind p f _ v).mpr (Prog.Meets.mono h (fun _ _ h => h) (fun _ _ h => h.elim)
    fun _ _ h => h)

/-- After a part that ends in a value, where that part leaves the store. -/
theorem after {G : Stmt → Vault → Prop} {Q : α → Vault → Prop} {p : Handler α} {f : α → Handler β}
    (h : Prog.Meets database G Q (fun _ _ => False) p v)
    (hf : ∀ a v', Q a v' → RefusedWith v' E (f a)) : RefusedWith v E (p >>= f) :=
  (Prog.meets_bind p f _ v).mpr (h.mono (fun _ _ _ => trivial) hf fun _ _ h => h.elim)

theorem select {q : Query} {f : q.Reply → Handler α}
    (h : RefusedWith v E (f (q.eval v.toWorld))) : RefusedWith v E (IpVault.select q >>= f) :=
  (Prog.meets_bind _ f _ v).mpr (meets_select.mpr ⟨trivial, h⟩)

theorem okOr {e : AppError} {a : α} {x : Option α} {f : α → Handler β} (hx : x = some a)
    (h : RefusedWith v E (f a)) : RefusedWith v E (Prog.okOr e x >>= f) := by
  subst hx
  exact h

theorem okOr_none {e : AppError} {x : Option α} {f : α → Handler β} (hx : x = none) (h : E e) :
    RefusedWith v E (Prog.okOr e x >>= f) := by
  subst hx
  exact h

theorem ofExcept {x : Except AppError α} {a : α} {f : α → Handler β} (hx : x = .ok a)
    (h : RefusedWith v E (f a)) : RefusedWith v E (Prog.ofExcept x >>= f) := by
  subst hx
  exact h

theorem require {c : Prop} [Decidable c] {e : AppError} {f : Unit → Handler α} (hc : c)
    (h : RefusedWith v E (f ())) : RefusedWith v E (Prog.require c e >>= f) := by
  unfold Prog.require
  rw [if_pos hc]
  exact h

theorem require_not {c : Prop} [Decidable c] {e : AppError} {f : Unit → Handler α} (hc : ¬ c)
    (h : E e) : RefusedWith v E (Prog.require c e >>= f) := by
  unfold Prog.require
  rw [if_neg hc]
  exact h

/-- Two readers that are refused with the same error. -/
theorem alike {p : Handler α} {q : Handler β} {e : AppError} {Q : α → β → Prop}
    (hp : RefusedWith v (· = e) p) (hq : RefusedWith w (· = e) q) (reads : OnlyReads p)
    (reads' : OnlyReads q) : ReadsAlike v w Q p q := by
  have left := (reads.meets (G := fun _ _ => True) (fun _ _ => trivial) v).and hp
  have right := (reads'.meets (G := fun _ _ => True) (fun _ _ => trivial) w).and hq
  refine Prog.Twins.of_refused
    (left.imp fun _ _ h => h.2)
    (right.imp fun _ _ h => h.2) ?_
  rintro _ _ _ _ ⟨hv, rfl⟩ ⟨hw, rfl⟩
  exact ⟨hv, hw, rfl⟩

end RefusedWith

end IpVault
