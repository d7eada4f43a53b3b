import IpVault.Lib.Interleave

set_option autoImplicit false

/-! # Programs that remember what they have read

Whether a turn of a pool does harm often depends on what its program has read before: the store may
have changed since. `Prog.recalling` is the same program with the answers it has got so far written on
each of its operations. Assumptions and guarantees of a judgement, and conditions on a schedule, may
then compare what a program has read with what it now writes to.
-/

namespace Lib

variable {I : Iface} {σ τ ω ε α β : Type}

/-- The operations a program has issued, with the answers it got. -/
abbrev Past (I : Iface) := List (Σ o : I.Op, I.Ans o)

/-- Operations with a past. -/
def Iface.recalling (I : Iface) : Iface := ⟨I.Op × Past I, fun x => I.Ans x.1⟩

/-- The past of an operation does not matter to the store. -/
def Machine.recalling (M : Machine I σ) : Machine I.recalling σ where
  answer x s := M.answer x.1 s
  after x s := M.after x.1 s

namespace Prog

/-- The program that remembers, and returns what it remembers. -/
def recalling : Past I → Prog I ε α → Prog I.recalling ε (α × Past I)
  | past, .ret a => .ret (a, past)
  | _, .fail e => .fail e
  | past, .ask o next => .ask (o, past) fun r => (next r).recalling (past ++ [⟨o, r⟩])

theorem recalling_bind (p : Prog I ε β) (f : β → Prog I ε α) (past : Past I) :
    (p >>= f).recalling past = p.recalling past >>= fun r => (f r.1).recalling r.2 := by
  induction p generalizing past with
  | ret b => rfl
  | fail e => rfl
  | ask o next ih =>
      show Prog.ask (I := I.recalling) (o, past) _ = Prog.ask (I := I.recalling) (o, past) _
      exact congrArg _ (funext fun r => ih r _)

/-! ## The judgement -/

variable (M : Machine I σ) (R : σ → σ → Prop) (A G : I.recalling.Op → σ → Prop)
variable (Q : α → Past I → σ → Prop) (E : ε → σ → Prop)

/-- The judgement of a program that remembers, among others. -/
def Recalls (past : Past I) (p : Prog I ε α) (s : σ) : Prop :=
  (p.recalling past).Among M.recalling R A G (fun r t => Q r.1 r.2 t) E s

variable {M R A G Q E} {past : Past I} {s : σ}

/-- Consequence. -/
theorem Recalls.mono {G' : I.recalling.Op → σ → Prop} {Q' : α → Past I → σ → Prop}
    {E' : ε → σ → Prop} {p : Prog I ε α} (h : Recalls M R A G Q E past p s)
    (hG : ∀ o t, G o t → G' o t) (hQ : ∀ a past' t, Q a past' t → Q' a past' t)
    (hE : ∀ e t, E e t → E' e t) : Recalls M R A G' Q' E' past p s :=
  Among.mono h hG (fun r t hr => hQ r.1 r.2 t hr) hE

/-- **Sequencing.** The second program remembers what the first has read. -/
theorem Recalls.bind (hrefl : ∀ s, R s s) {p : Prog I ε β} {f : β → Prog I ε α}
    (h : Recalls M R A G (fun b past' t => Recalls M R A G Q E past' (f b) t) E past p s) :
    Recalls M R A G Q E past (p >>= f) s := by
  unfold Recalls
  rw [recalling_bind]
  exact Among.bind hrefl h

/-- One operation. -/
theorem Recalls.op {o : I.Op} {Q : I.Ans o → Past I → σ → Prop}
    (h : ∀ t, R s t → A (o, past) t → G (o, past) t ∧
      ∀ u, R (M.after o t) u → Q (M.answer o t) (past ++ [⟨o, M.answer o t⟩]) u) :
    Recalls M R A G Q E past (Prog.op o) s := h

theorem Recalls.require {c : Prop} [Decidable c] {e : ε} {Q : Unit → Past I → σ → Prop}
    (hc : c → ∀ t, R s t → Q () past t) (hn : ¬ c → ∀ t, R s t → E e t) :
    Recalls M R A G Q E past (Prog.require c e) s := by
  unfold Prog.require
  by_cases h : c
  · rw [if_pos h]
    exact hc h
  · rw [if_neg h]
    exact hn h

theorem Recalls.ofExcept {x : Except ε α} (hok : ∀ a, x = .ok a → ∀ t, R s t → Q a past t)
    (herr : ∀ e, x = .error e → ∀ t, R s t → E e t) :
    Recalls M R A G Q E past (Prog.ofExcept x) s := by
  cases x with
  | ok a => exact hok a rfl
  | error e => exact herr e rfl

theorem Recalls.okOr {e : ε} {x : Option α} (hsome : ∀ a, x = some a → ∀ t, R s t → Q a past t)
    (hnone : x = none → ∀ t, R s t → E e t) : Recalls M R A G Q E past (Prog.okOr e x) s := by
  cases x with
  | some a => exact hsome a rfl
  | none => exact hnone rfl

/-- A program whose operations are all admitted only adds to what it remembers. -/
theorem Issues.recalls {P : I.Op → Prop} {p : Prog I ε α} (h : p.Issues P)
    (hG : ∀ o past t, P o → G (o, past) t) (past : Past I) (s : σ) :
    Recalls M R A G (fun _ past' _ => past <+: past') (fun _ _ => True) past p s := by
  induction p generalizing past s with
  | ret a => exact fun _ _ => List.prefix_rfl
  | fail e => exact fun _ _ => trivial
  | ask o next ih =>
      intro t _ _
      refine ⟨hG o past t h.1, ?_⟩
      have hnext := ih (M.answer o t) (h.2 _)
        (past ++ [(⟨o, M.answer o t⟩ : Σ o : I.Op, I.Ans o)]) (M.after o t)
      exact hnext.mono (fun _ _ hg => hg) (fun _ _ _ hr => (List.prefix_append past _).trans hr)
        fun _ _ he => he

end Prog

/-! ## What every turn guarantees -/

section Parallel

variable [DecidableEq τ] {M : Machine I σ} {outside : ω → σ → σ}
variable {R : τ → σ → σ → Prop} {A G : τ → I.Op → σ → Prop}
variable {Q : τ → α → σ → Prop} {E : τ → ε → σ → Prop}

/-- **Guarantees.** In a fair schedule each operation is issued where its program says. -/
theorem Along.guaranteed (hrefl : ∀ i s, R i s s) (htrans : ∀ i s t u, R i s t → R i t u → R i s u)
    {schedule : List (Turn τ ω)} {P : Pool I σ τ ε α}
    (hfair : Along (Pool.turn M outside) (fun w P => Pool.Fair M outside R A G w P) schedule P)
    (h : P.Among M R A G Q E) :
    Along (Pool.turn M outside) (fun w P => P.Among M R A G Q E ∧
      ∀ i o, w = .of i → P.pending i = some o → G i o P.store) schedule P := by
  induction schedule generalizing P with
  | nil => trivial
  | cons w schedule ih =>
      refine ⟨⟨h, ?_⟩, ih hfair.2 (h.turn hrefl htrans hfair.1)⟩
      rintro i o rfl hpending
      have hi := h i
      cases hp : P.thread i with
      | ret a => simp [Pool.pending, hp] at hpending
      | fail e => simp [Pool.pending, hp] at hpending
      | ask o' next =>
          obtain rfl : o' = o := by simpa [Pool.pending, hp] using hpending
          rw [hp] at hi
          exact (hi P.store (hrefl i _) (hfair.1 o' hpending).1).1

end Parallel

/-! ## How much a program can remember -/

section Length

variable [DecidableEq τ] {M : Machine I σ} {outside : ω → σ → σ} {n : Nat}

/-- The programs of the pool remember at most `n` operations each. -/
def Pool.Remembers (n : Nat) (P : Pool I.recalling σ τ ε (α × Past I)) : Prop :=
  ∀ i, ∃ (p : Prog I ε α) (past : Past I), P.thread i = p.recalling past ∧ past.length ≤ n

/-- A turn adds one. -/
theorem Pool.Remembers.turn {P : Pool I.recalling σ τ ε (α × Past I)} (h : P.Remembers n)
    (w : Turn τ ω) : (P.turn M.recalling outside w).2.Remembers (n + 1) := by
  have idle : P.Remembers (n + 1) := fun j => by
    obtain ⟨p, past, hp, hlen⟩ := h j
    exact ⟨p, past, hp, by omega⟩
  cases w with
  | outside w => exact idle
  | of i =>
      obtain ⟨p, past, hp, hlen⟩ := h i
      cases p with
      | ret a =>
          have hsame : (P.turn M.recalling outside (.of i)).2 = P := by
            simp only [Pool.turn, hp, Prog.recalling]
          rwa [hsame]
      | fail e =>
          have hsame : (P.turn M.recalling outside (.of i)).2 = P := by
            simp only [Pool.turn, hp, Prog.recalling]
          rwa [hsame]
      | ask o next =>
          intro j
          simp only [Pool.turn, hp, Prog.recalling]
          by_cases hj : j = i
          · subst hj
            rw [Function.update_self]
            refine ⟨next (M.answer o P.store), past ++ [⟨o, M.answer o P.store⟩], rfl, ?_⟩
            rw [List.length_append]
            exact Nat.add_le_add_right hlen 1
          · rw [Function.update_of_ne hj]
            exact idle j

/-- **Pasts are short.** An operation of a schedule has a past shorter than the schedule. -/
theorem Along.remembers {schedule : List (Turn τ ω)} {P : Pool I.recalling σ τ ε (α × Past I)}
    (h : P.Remembers n) :
    Along (Pool.turn M.recalling outside) (fun _ P => ∀ i o, P.pending i = some o →
      o.2.length < n + schedule.length) schedule P := by
  induction schedule generalizing n P with
  | nil => trivial
  | cons w schedule ih =>
      refine ⟨fun i o ho => ?_, ?_⟩
      · obtain ⟨p, past, hp, hlen⟩ := h i
        cases p with
        | ret a => simp [Pool.pending, hp, Prog.recalling] at ho
        | fail e => simp [Pool.pending, hp, Prog.recalling] at ho
        | ask o' next =>
            rw [Pool.pending, hp] at ho
            obtain rfl := Option.some.inj ho
            show past.length < n + (schedule.length + 1)
            omega
      · have hturn : (P.turn M.recalling outside w).2.Remembers (n + 1) := h.turn w
        refine (ih hturn).mono fun w' P' hshort i o ho => ?_
        have hlt := hshort i o ho
        rw [List.length_cons]
        omega

end Length

end Lib
