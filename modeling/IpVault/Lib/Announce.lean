import IpVault.Lib.Recall

set_option autoImplicit false

/-! # Announcements after the commit

A program commits a change, and only then, as an operation of its own, sends a message that says what the
committed state is. Several such programs take turns. A `Topic` is one fact about the store, with the
operations that change it and those that announce it. The last message sent is true at the end if no
turn makes the fact change while another program has still to send its message (`Along.announced`).
-/

namespace Lib

variable {I : Iface} {σ τ ω ε α β : Type}

/-- The first operation of a program. -/
def Prog.first : Prog I ε α → Option I.Op
  | .ask o _ => some o
  | _ => none

/-- What a recalling program remembers; one that has failed remembers nothing. -/
def Prog.remembered : Prog I.recalling ε (α × Past I) → Past I
  | .ret a => a.2
  | .fail _ => []
  | .ask o _ => o.2

/-- A fact about the store, and what is said of it. -/
structure Topic (M : Machine I σ) where
  fact : σ → Prop
  /-- What the last message says. -/
  said : σ → Option Bool
  /-- There is room for another message. -/
  room : σ → Prop
  /-- The operations the programs may issue. -/
  admitted : I.Op → Prop
  /-- What an operation announces. -/
  announces : I.Op → Option Bool
  /-- The operation, with this answer, commits a change of the fact. -/
  commits : (o : I.Op) → I.Ans o → Prop
  fact_kept : ∀ o s, admitted o → ¬ commits o (M.answer o s) → (fact (M.after o s) ↔ fact s)
  said_kept : ∀ o s, admitted o → announces o = none → said (M.after o s) = said s
  said_announced : ∀ o s b, announces o = some b → room s → said (M.after o s) = some b

namespace Topic

variable {M : Machine I σ} (T : Topic M)

/-- What comes next after an operation: the announcement of what has been committed, and no announcement
if nothing has. -/
structure Follows (o : I.Op) (s : σ) (p : Prog I ε α) : Prop where
  announced : T.commits o (M.answer o s) →
    ∃ o' b, p.first = some o' ∧ T.announces o' = some b ∧ (b = true ↔ T.fact (M.after o s))
  silent : ¬ T.commits o (M.answer o s) → ∀ o', p.first = some o' → T.announces o' = none

/-- A program that announces each change it commits, and nothing else. -/
def Announcing : Prog I ε α → Prop
  | .ret _ => True
  | .fail _ => True
  | .ask o next => T.admitted o ∧ ∀ s, T.Follows o s (next (M.answer o s)) ∧
      Announcing (next (M.answer o s))

/-- The program does not begin with an announcement. -/
def Silent (p : Prog I ε α) : Prop := ∀ o, p.first = some o → T.announces o = none

/-- A program that announces each change it commits, and nothing before. -/
structure Orderly (p : Prog I ε α) : Prop where
  announcing : T.Announcing p
  silent : T.Silent p

variable {T}

theorem Follows.bind {o : I.Op} {s : σ} {p : Prog I ε β} {f : β → Prog I ε α}
    (h : T.Follows o s p) (hf : ∀ b, T.Silent (f b)) : T.Follows o s (p >>= f) := by
  constructor
  · intro hc
    obtain ⟨o', b, hfirst, hannounces⟩ := h.announced hc
    cases p with
    | ret b => cases hfirst
    | fail e => cases hfirst
    | ask o'' next => exact ⟨o', b, hfirst, hannounces⟩
  · intro hc
    have hsilent := h.silent hc
    cases p with
    | ret b => exact hf b
    | fail e => exact hsilent
    | ask o'' next => exact hsilent

/-- **Sequencing.** -/
theorem Orderly.bind {p : Prog I ε β} {f : β → Prog I ε α} (hp : T.Orderly p)
    (hf : ∀ b, T.Orderly (f b)) : T.Orderly (p >>= f) := by
  have announcing : ∀ p : Prog I ε β, T.Announcing p → T.Announcing (p >>= f) := by
    intro p ha
    induction p with
    | ret b => exact (hf b).announcing
    | fail e => trivial
    | ask o next ih =>
        refine ⟨ha.1, fun s => ?_⟩
        obtain ⟨hfollows, hnext⟩ := ha.2 s
        exact ⟨hfollows.bind fun b => (hf b).silent, ih _ hnext⟩
  refine ⟨announcing p hp.announcing, ?_⟩
  have hsilent := hp.silent
  cases p with
  | ret b => exact (hf b).silent
  | fail e => exact fun o hfirst => nomatch hfirst
  | ask o next => exact hsilent

/-- A program of operations that neither commit nor announce. -/
theorem Orderly.of_issues {P : I.Op → Prop} {p : Prog I ε α} (h : p.Issues P)
    (hP : ∀ o, P o → T.admitted o ∧ T.announces o = none ∧ ∀ r, ¬ T.commits o r) : T.Orderly p := by
  have silent : ∀ p : Prog I ε α, p.Issues P → T.Silent p := by
    intro p hp o hfirst
    cases p with
    | ret a => cases hfirst
    | fail e => cases hfirst
    | ask o' next =>
        obtain rfl := Option.some.inj hfirst
        exact (hP o' hp.1).2.1
  refine ⟨?_, silent p h⟩
  induction p with
  | ret a => trivial
  | fail e => trivial
  | ask o next ih =>
      obtain ⟨hadmitted, -, hcommits⟩ := hP o h.1
      refine ⟨hadmitted, fun s => ⟨⟨fun hc => absurd hc (hcommits _), fun _ => ?_⟩, ih _ (h.2 _)⟩⟩
      exact silent _ (h.2 _)

/-! ## The pool -/

section Pools

variable (T)

/-- The program has committed a change. -/
def Committed (p : Prog I.recalling ε (α × Past I)) : Prop :=
  ∃ x ∈ p.remembered, T.commits x.1 x.2

/-- The program is about to send this message. -/
def Owing (p : Prog I.recalling ε (α × Past I)) (b : Bool) : Prop :=
  ∃ x : I.Op × Past I, p.first = some x ∧ T.announces x.1 = some b

/-- What every turn keeps: each message about to be sent is true, and so is the last one sent, unless
another is about to be sent or nothing has been committed. -/
structure Kept (P : Pool I.recalling σ τ ε (α × Past I)) : Prop where
  announcing : ∀ i, ∃ p past, P.thread i = Prog.recalling past p ∧ T.Announcing p
  owed : ∀ i b, T.Owing (P.thread i) b → (b = true ↔ T.fact P.store)
  said : (∃ i, T.Committed (P.thread i)) → (∃ i b, T.Owing (P.thread i) b) ∨
    ∃ b, T.said P.store = some b ∧ (b = true ↔ T.fact P.store)

variable {T}

theorem owing_recalling {p : Prog I ε α} {past : Past I} {b : Bool} :
    T.Owing (p.recalling past) b ↔ ∃ o, p.first = some o ∧ T.announces o = some b := by
  cases p with
  | ret a =>
      constructor
      · rintro ⟨x, hfirst, -⟩
        cases hfirst
      · rintro ⟨o, hfirst, -⟩
        cases hfirst
  | fail e =>
      constructor
      · rintro ⟨x, hfirst, -⟩
        cases hfirst
      · rintro ⟨o, hfirst, -⟩
        cases hfirst
  | ask o next =>
      constructor
      · rintro ⟨x, hfirst, hannounces⟩
        obtain rfl := Option.some.inj hfirst
        exact ⟨o, rfl, hannounces⟩
      · rintro ⟨o', hfirst, hannounces⟩
        obtain rfl := Option.some.inj hfirst
        exact ⟨(o, past), rfl, hannounces⟩

theorem remembered_recalling {p : Prog I ε α} {past : Past I} {x : Σ o : I.Op, I.Ans o}
    (h : x ∈ (p.recalling past).remembered) : x ∈ past := by
  cases p with
  | ret a => exact h
  | fail e => exact absurd h List.not_mem_nil
  | ask o next => exact h

/-- The programs begin. -/
theorem Kept.start {s : σ} {thread : τ → Prog I ε α}
    (h : ∀ i, T.Orderly (thread i)) : T.Kept ⟨s, fun i => (thread i).recalling []⟩ where
  announcing i := ⟨thread i, [], rfl, (h i).announcing⟩
  owed i b howing := by
    obtain ⟨o, hfirst, hannounces⟩ := owing_recalling.mp howing
    rw [(h i).silent o hfirst] at hannounces
    cases hannounces
  said := by
    rintro ⟨i, x, hx, -⟩
    exact absurd (remembered_recalling hx) List.not_mem_nil

section Turns

variable [DecidableEq τ] {P : Pool I.recalling σ τ ε (α × Past I)} {i : τ} {o : I.Op}
variable {next : I.Ans o → Prog I ε α} {past : Past I}

/-- The pool after the turn of a program. -/
def moved (M : Machine I σ) (P : Pool I.recalling σ τ ε (α × Past I)) (i : τ) (o : I.Op)
    (next : I.Ans o → Prog I ε α) (past : Past I) : Pool I.recalling σ τ ε (α × Past I) :=
  ⟨M.after o P.store, Function.update P.thread i
    ((next (M.answer o P.store)).recalling (past ++ [⟨o, M.answer o P.store⟩]))⟩

theorem moved_self : (moved M P i o next past).thread i =
    (next (M.answer o P.store)).recalling (past ++ [⟨o, M.answer o P.store⟩]) :=
  Function.update_self ..

theorem moved_of_ne {j : τ} (hj : j ≠ i) : (moved M P i o next past).thread j = P.thread j :=
  Function.update_of_ne hj ..

theorem announcing_moved (h : T.Kept P) (ha : T.Announcing (.ask o next)) (j : τ) :
    ∃ p past', (moved M P i o next past).thread j = Prog.recalling past' p ∧ T.Announcing p := by
  by_cases hj : j = i
  · subst hj
    exact ⟨_, _, moved_self, (ha.2 P.store).2⟩
  · rw [moved_of_ne hj]
    exact h.announcing j

/-- A turn that commits. -/
theorem Kept.commit (h : T.Kept P) (ha : T.Announcing (.ask o next))
    (hc : T.commits o (M.answer o P.store))
    (hdisturbs : (T.fact (M.after o P.store) ↔ T.fact P.store) ∨
      ∀ j b, j ≠ i → ¬ T.Owing (P.thread j) b) : T.Kept (moved M P i o next past) where
  announcing := announcing_moved h ha
  owed j b howing := by
    obtain ⟨o', b', hfirst', hannounces', htrue⟩ := (ha.2 P.store).1.announced hc
    by_cases hj : j = i
    · subst hj
      rw [moved_self] at howing
      obtain ⟨o'', hfirst, hannounces⟩ := owing_recalling.mp howing
      obtain rfl := Option.some.inj (hfirst.symm.trans hfirst')
      obtain rfl := Option.some.inj (hannounces.symm.trans hannounces')
      exact htrue
    · rw [moved_of_ne hj] at howing
      rcases hdisturbs with hsame | hnone
      · exact (h.owed j b howing).trans hsame.symm
      · exact absurd howing (hnone j b hj)
  said _ := by
    obtain ⟨o', b, hfirst, hannounces, -⟩ := (ha.2 P.store).1.announced hc
    refine .inl ⟨i, b, ?_⟩
    rw [moved_self]
    exact owing_recalling.mpr ⟨o', hfirst, hannounces⟩

/-- A turn that does not commit: nobody owes more than before, and the fact is kept. -/
theorem Kept.other (h : T.Kept P) (hp : P.thread i = Prog.recalling past (.ask o next))
    (ha : T.Announcing (.ask o next)) (hc : ¬ T.commits o (M.answer o P.store))
    (hroom : T.room P.store) : T.Kept (moved M P i o next past) := by
  have hfact : T.fact (M.after o P.store) ↔ T.fact P.store := T.fact_kept o P.store ha.1 hc
  have hsilent := (ha.2 P.store).1.silent hc
  have committed_before : ∀ j, T.Committed ((moved M P i o next past).thread j) →
      T.Committed (P.thread j) := by
    rintro j ⟨x, hx, hcx⟩
    by_cases hj : j = i
    · subst hj
      rw [moved_self] at hx
      rcases List.mem_append.mp (remembered_recalling hx) with hx | hx
      · exact ⟨x, by rw [hp]; exact hx, hcx⟩
      · obtain rfl := List.mem_singleton.mp hx
        exact absurd hcx hc
    · rw [moved_of_ne hj] at hx
      exact ⟨x, hx, hcx⟩
  refine ⟨announcing_moved h ha, fun j b howing => ?_, ?_⟩
  · by_cases hj : j = i
    · subst hj
      rw [moved_self] at howing
      obtain ⟨o', hfirst, hannounces⟩ := owing_recalling.mp howing
      rw [hsilent o' hfirst] at hannounces
      cases hannounces
    · rw [moved_of_ne hj] at howing
      exact (h.owed j b howing).trans hfact.symm
  · rintro ⟨j, hcommitted⟩
    cases hannounces : T.announces o with
    | some b =>
        -- the message of `i` is sent
        have howing : T.Owing (P.thread i) b := by
          rw [hp]
          exact owing_recalling.mpr ⟨o, rfl, hannounces⟩
        exact .inr ⟨b, T.said_announced o P.store b hannounces hroom,
          (h.owed i b howing).trans hfact.symm⟩
    | none =>
        rcases h.said ⟨j, committed_before j hcommitted⟩ with ⟨k, b, howing⟩ | ⟨b, hsaid, htrue⟩
        · have hk : k ≠ i := by
            rintro rfl
            rw [hp] at howing
            obtain ⟨o', hfirst, hsome⟩ := owing_recalling.mp howing
            obtain rfl := Option.some.inj hfirst
            rw [hannounces] at hsome
            cases hsome
          refine .inl ⟨k, b, ?_⟩
          rw [moved_of_ne hk]
          exact howing
        · exact .inr ⟨b, (T.said_kept o P.store ha.1 hannounces).trans hsaid, htrue.trans hfact.symm⟩

variable {outside : ω → σ → σ}

variable (T) in
/-- The fact does not change in this turn while another program has still to send its message, and there
is room for a message. -/
def Undisturbed (outside : ω → σ → σ) (w : Turn τ ω) (P : Pool I.recalling σ τ ε (α × Past I)) :
    Prop :=
  ∃ i, w = .of i ∧ T.room P.store ∧
    ((T.fact (P.turn M.recalling outside w).2.store ↔ T.fact P.store) ∨
      ∀ j b, j ≠ i → ¬ T.Owing (P.thread j) b)

/-- **One turn.** -/
theorem Kept.turn (h : T.Kept P) {w : Turn τ ω} (hw : T.Undisturbed outside w P) :
    T.Kept (P.turn M.recalling outside w).2 := by
  obtain ⟨i, rfl, hroom, hdisturbs⟩ := hw
  obtain ⟨p, past, hp, ha⟩ := h.announcing i
  cases p with
  | ret a =>
      have hsame : (P.turn M.recalling outside (.of i)).2 = P := by
        simp only [Pool.turn, hp, Prog.recalling]
      rwa [hsame]
  | fail e =>
      have hsame : (P.turn M.recalling outside (.of i)).2 = P := by
        simp only [Pool.turn, hp, Prog.recalling]
      rwa [hsame]
  | ask o next =>
      have hmoved : (P.turn M.recalling outside (.of i)).2 = moved M P i o next past := by
        simp only [Pool.turn, hp, Prog.recalling]
        rfl
      rw [hmoved] at hdisturbs ⊢
      by_cases hc : T.commits o (M.answer o P.store)
      · exact h.commit ha hc hdisturbs
      · exact h.other hp ha hc hroom

/-- **The last message is true** once all programs have ended, if one of them has committed a change. -/
theorem Kept.announced {schedule : List (Turn τ ω)} (h : T.Kept P)
    (hrun : Along (Pool.turn M.recalling outside) (T.Undisturbed outside) schedule P)
    (hended : ∀ i, ((final (Pool.turn M.recalling outside) schedule P).thread i).first = none)
    (hdone : ∃ i, T.Committed ((final (Pool.turn M.recalling outside) schedule P).thread i)) :
    ∃ b, T.said (final (Pool.turn M.recalling outside) schedule P).store = some b ∧
      (b = true ↔ T.fact (final (Pool.turn M.recalling outside) schedule P).store) := by
  have hkept := hrun.keeps (I := T.Kept) h fun w P hw hP => hP.turn hw
  rcases hkept.said hdone with ⟨i, b, x, hfirst, -⟩ | hsaid
  · rw [hended i] at hfirst
    cases hfirst
  · exact hsaid

end Turns

end Pools

end Topic

end Lib
