import IpVault.Schema.Stmt

set_option autoImplicit false

/-! # Following a handler

The rules for a judgement that admits every query: what each part of a handler finds and leaves, when
the handler is executed alone and nothing is said of its errors.
-/

namespace IpVault

open Lib

/-- Each statement that `p` issues from `v` on is one that `G` admits, and `Q` holds where `p` ends, if
it does not fail. -/
abbrev Admits {α : Type} (G : Stmt → Vault → Prop) (p : Handler α) (v : Vault)
    (Q : α → Vault → Prop) : Prop :=
  Prog.Meets database G Q (fun _ _ => True) p v

namespace Admits

variable {G : Stmt → Vault → Prop} {v : Vault} {α β : Type}

theorem bind {p : Handler α} {f : α → Handler β} {Q : α → Vault → Prop} {R : β → Vault → Prop}
    (hp : Admits G p v Q) (hf : ∀ a v', Q a v' → Admits G (f a) v' R) : Admits G (p >>= f) v R :=
  Prog.Meets.bind hp hf

theorem imp {p : Handler α} {Q R : α → Vault → Prop} (hp : Admits G p v Q)
    (h : ∀ a v', Q a v' → R a v') : Admits G p v R :=
  Prog.Meets.imp hp h

/-- A reader, about which something is known under another judgement. -/
theorem of_reader {G' : Stmt → Vault → Prop} {p : Handler α} {Q : α → Vault → Prop}
    (hp : OnlyReads p) (hG : ∀ q w, G (.query q) w) (h : Admits G' p v Q) : Admits G p v Q := by
  refine (Prog.Meets.and h (hp.meets (G := fun l _ => ∃ q, l = .query q) (fun q _ => ⟨q, rfl⟩) v)).mono
    ?_ (fun _ _ hq => hq.1) fun _ _ _ => trivial
  rintro l w ⟨-, q, rfl⟩
  exact hG q w

theorem reads {p : Handler α} (hp : OnlyReads p) (hG : ∀ q w, G (.query q) w) :
    Admits G p v fun _ v' => v = v' :=
  (hp.meets hG v).mono (fun _ _ h => h) (fun _ _ h => h.symm) fun _ _ _ => trivial

theorem select {q : Query} (hG : ∀ q w, G (.query q) w) :
    Admits G (select q) v fun a v' => v = v' ∧ a = q.eval v.toWorld :=
  meets_select.mpr ⟨hG q v, rfl, rfl⟩

theorem exec {l : Stmt} (hl : G l v) : Admits G (exec l) v fun a v' =>
    v' = v.after l ∧ ∃ w, l.txn v.toWorld = .ok (a, w) :=
  meets_exec.mpr ⟨hl, fun _ w h => ⟨rfl, w, h⟩, fun _ _ => trivial⟩

theorem require {c : Prop} [Decidable c] {e : AppError} :
    Admits G (Prog.require c e) v fun _ v' => v = v' ∧ c :=
  (Prog.meets_require c e _ v).mpr ⟨fun h => ⟨rfl, h⟩, fun _ => trivial⟩

theorem ofExcept {x : Except AppError α} :
    Admits G (Prog.ofExcept x) v fun a v' => v = v' ∧ x = .ok a :=
  (Prog.meets_ofExcept x v).mpr ⟨fun _ h => ⟨rfl, h⟩, fun _ _ => trivial⟩

theorem okOr {e : AppError} {x : Option α} :
    Admits G (Prog.okOr e x) v fun a v' => v = v' ∧ x = some a :=
  (Prog.meets_okOr e x v).mpr ⟨fun _ h => ⟨rfl, h⟩, fun _ => trivial⟩

/-- What can be issued at all, if all of it is admitted everywhere. -/
theorem of_issues {p : Handler α} (h : p.Issues fun l : Stmt => ∀ w, G l w) :
    Admits G p v fun _ _ => True :=
  (Prog.Issues.meets h v).mono (fun _ w hl => hl w) (fun _ _ h => h) fun _ _ h => h

end Admits

end IpVault
