import IpVault.Lib.Prog

set_option autoImplicit false

/-! # Programs that keep books

A program changes a store and records that it did, by two different operations. When an operation
between the two fails, the change is there and its record is not.

`Books` says which operations are changes and which are records, and which answers report a
failure. `Prog.faulty` is a run in which some operations fail without effect. A program that is
`Booked` gives up when a change or a record fails, does not end in a value between a change and its
record, and does neither after the record. `Booked.settles` is the theorem: a run that is `Unbroken`,
that is not stopped between its first change and its record, leaves both or neither.
-/

namespace Lib

variable {I : Iface} {σ ε α β : Type}

namespace Books

/-- What an operation is to the books. -/
inductive Kind where
  | other
  | change
  | record
  deriving DecidableEq

/-- How far a program has come: it has changed nothing yet, or it has changed something, or it has
recorded what it did. -/
inductive Phase where
  | clean
  | dirty
  | recorded
  deriving DecidableEq

/-- The phase after an operation that has taken effect. -/
def Phase.next : Phase → Kind → Phase
  | ph, .other => ph
  | .recorded, .change => .recorded
  | _, .change => .dirty
  | _, .record => .recorded

end Books

open Books (Kind Phase)

/-- The books of an interface: the kind of each operation, the answers that say it has failed, and the
records that belong in these books. -/
structure Books (I : Iface) where
  kind : I.Op → Kind
  failed : (o : I.Op) → I.Ans o → Bool
  proper : I.Op → Prop

/-- Which operations of a run fail, counted from the first one: what they answer then. -/
abbrev Faults (I : Iface) : Type := Nat → (o : I.Op) → Option (I.Ans o)

namespace Prog

/-- Execute a program alone, the operations in `faults` failing. `n` operations have been issued
before. -/
def faulty (M : Machine I σ) (faults : Faults I) : Prog I ε α → Nat → σ → Except ε α × σ
  | .ret a, _, s => (.ok a, s)
  | .fail e, _, s => (.error e, s)
  | .ask o next, n, s =>
      match faults n o with
      | some r => (next r).faulty M faults (n + 1) s
      | none => (next (M.answer o s)).faulty M faults (n + 1) (M.after o s)

/-- The operations of such a run, each with whether it has taken effect. -/
def carried (M : Machine I σ) (B : Books I) (faults : Faults I) :
    Prog I ε α → Nat → σ → List (I.Op × Bool)
  | .ret _, _, _ => []
  | .fail _, _, _ => []
  | .ask o next, n, s =>
      match faults n o with
      | some r => (o, false) :: (next r).carried M B faults (n + 1) s
      | none => (o, !B.failed o (M.answer o s)) ::
          (next (M.answer o s)).carried M B faults (n + 1) (M.after o s)

/-- From phase `ph` on, no operation fails and the program does not give up once it has changed
something, until it has recorded that it did. -/
def Unbroken (M : Machine I σ) (B : Books I) (faults : Faults I) :
    Prog I ε α → Nat → σ → Phase → Prop
  | .ret _, _, _, _ => True
  | .fail _, _, _, ph => ph ≠ .dirty
  | .ask o next, n, s, ph =>
      match faults n o with
      | some r => ph ≠ .dirty ∧ (next r).Unbroken M B faults (n + 1) s ph
      | none =>
          if B.failed o (M.answer o s) then
            ph ≠ .dirty ∧ (next (M.answer o s)).Unbroken M B faults (n + 1) (M.after o s) ph
          else (next (M.answer o s)).Unbroken M B faults (n + 1) (M.after o s)
            (ph.next (B.kind o))

/-- Without faults, it is the run. -/
theorem faulty_none (M : Machine I σ) (p : Prog I ε α) (n : Nat) (s : σ) :
    p.faulty M (fun _ _ => none) n s = p.run M s := by
  induction p generalizing n s with
  | ret a => rfl
  | fail e => rfl
  | ask o next ih => exact ih _ _ _

/-- What every operation preserves, a run with faults preserves. -/
theorem faulty_keeps {M : Machine I σ} {R : σ → σ → Prop} (refl : ∀ s, R s s)
    (trans : ∀ s t u, R s t → R t u → R s u) (step : ∀ o s, R s (M.after o s)) (faults : Faults I)
    (p : Prog I ε α) (n : Nat) (s : σ) : R s (p.faulty M faults n s).2 := by
  induction p generalizing n s with
  | ret a => exact refl s
  | fail e => exact refl s
  | ask o next ih =>
      cases hfault : faults n o with
      | some r =>
          simp only [faulty, hfault]
          exact ih r (n + 1) s
      | none =>
          simp only [faulty, hfault]
          exact trans _ _ _ (step o s) (ih _ (n + 1) _)

/-! ## Keeping books -/

/-- `p` keeps its books from phase `ph` on, and where it ends in a value, `Q` holds of the value and
the phase it has come to. -/
def Booked (B : Books I) (Q : α → Phase → Prop) : Prog I ε α → Phase → Prop
  | .ret a, ph => Q a ph
  | .fail _, _ => True
  | .ask o next, ph =>
      (B.kind o = .other → ∀ r, Booked B Q (next r) ph) ∧
        (B.kind o ≠ .other → ph ≠ .recorded ∧ B.proper o ∧ ∀ r,
          if B.failed o r then ∃ e, next r = .fail e else Booked B Q (next r) (ph.next (B.kind o)))

/-- A program that keeps its books to its end. -/
def Closed (_ : α) (ph : Phase) : Prop := ph ≠ .dirty

namespace Booked

variable {B : Books I} {Q : α → Phase → Prop} {ph : Phase}

/-- The rest of a program may be another one that keeps its books as well, and fails where it
fails. -/
theorem ask {o : I.Op} {next : I.Ans o → Prog I ε α} {next' : I.Ans o → Prog I ε β}
    {R : β → Phase → Prop} (hp : Booked B Q (.ask o next) ph)
    (hrest : ∀ r ph, Booked B Q (next r) ph → Booked B R (next' r) ph)
    (hfails : ∀ r e, next r = .fail e → next' r = .fail e) : Booked B R (.ask o next') ph := by
  refine ⟨fun ho r => hrest r ph (hp.1 ho r), fun ho => ⟨(hp.2 ho).1, (hp.2 ho).2.1, fun r => ?_⟩⟩
  have hr := (hp.2 ho).2.2 r
  by_cases hfail : B.failed o r = true
  · rw [if_pos hfail] at hr ⊢
    exact hr.imp fun e he => hfails r e he
  · rw [if_neg hfail] at hr ⊢
    exact hrest r _ hr

/-- Sequencing. -/
theorem bind {p : Prog I ε α} {f : α → Prog I ε β} {R : β → Phase → Prop} (hp : Booked B Q p ph)
    (hf : ∀ a ph', Q a ph' → Booked B R (f a) ph') : Booked B R (p >>= f) ph := by
  induction p generalizing ph with
  | ret a => exact hf a ph hp
  | fail e => trivial
  | ask o next ih =>
      refine hp.ask (fun r _ hr => ih r hr) fun r e he => ?_
      show next r >>= f = .fail e
      rw [he]
      rfl

/-- A program that neither changes nor records stays in its phase. -/
theorem of_other {p : Prog I ε α} (hp : p.Issues fun o => B.kind o = .other) :
    Booked B (fun _ ph' => ph' = ph) p ph := by
  induction p with
  | ret a => rfl
  | fail e => trivial
  | ask o next ih => exact ⟨fun _ r => ih r (hp.2 r), fun ho => absurd hp.1 ho⟩

/-- A weaker end. -/
theorem imp {p : Prog I ε α} {R : α → Phase → Prop} (hp : Booked B Q p ph)
    (h : ∀ a ph', Q a ph' → R a ph') : Booked B R p ph := by
  induction p generalizing ph with
  | ret a => exact h a ph hp
  | fail e => trivial
  | ask o next ih => exact hp.ask (fun r _ hr => ih r hr) fun _ _ he => he

end Booked

end Prog

/-! ## Both or neither -/

namespace Books

/-- What the operations do to a store: `Idle` holds across one that is no matter of the books or
has failed, `Writes` across one that records nothing, `Records` across a record. -/
structure Sound (B : Books I) (M : Machine I σ) (Idle Writes Records : σ → σ → Prop) : Prop where
  idle_refl : ∀ s, Idle s s
  idle_trans : ∀ s t u, Idle s t → Idle t u → Idle s u
  writes_trans : ∀ s t u, Writes s t → Writes t u → Writes s u
  writes_of_idle : ∀ s t, Idle s t → Writes s t
  other : ∀ o s, B.kind o = .other → Idle s (M.after o s)
  failed : ∀ o s, B.failed o (M.answer o s) = true → Idle s (M.after o s)
  change : ∀ o s, B.kind o = .change → Writes s (M.after o s)
  record : ∀ o s, B.kind o = .record → B.proper o → B.failed o (M.answer o s) = false →
    Records s (M.after o s)

/-- From `s` to `u` everything that was to be changed has been, and it has been recorded. -/
structure Both (B : Books I) (Idle Writes Records : σ → σ → Prop) (steps : List (I.Op × Bool))
    (s u : σ) : Prop where
  recorded : ∃ t t', Writes s t ∧ Records t t' ∧ Idle t' u
  carried : ∀ step ∈ steps, B.kind step.1 ≠ .other → step.2 = true

/-- The faults are answers that say that an operation has failed. -/
def Admits (B : Books I) (faults : Faults I) : Prop :=
  ∀ n o r, faults n o = some r → B.failed o r = true

end Books

namespace Prog

variable {M : Machine I σ} {B : Books I} {Idle Writes Records : σ → σ → Prop} {faults : Faults I}
  {Q : α → Phase → Prop}

theorem both_cons (sound : B.Sound M Idle Writes Records) {steps : List (I.Op × Bool)}
    {step : I.Op × Bool} {s t u : σ} (h : B.Both Idle Writes Records steps t u)
    (hs : Writes s t) (hstep : B.kind step.1 ≠ .other → step.2 = true) :
    B.Both Idle Writes Records (step :: steps) s u := by
  obtain ⟨⟨x, y, hx, hy, hu⟩, hsteps⟩ := h
  exact ⟨⟨x, y, sound.writes_trans _ _ _ hs hx, hy, hu⟩, List.forall_mem_cons.mpr ⟨hstep, hsteps⟩⟩

/-- After the record, nothing that concerns the books is done. -/
theorem Booked.idle_of_recorded (sound : B.Sound M Idle Writes Records) (faults : Faults I)
    {p : Prog I ε α} (hp : Booked B Q p .recorded) (n : Nat) (s : σ) :
    Idle s (p.faulty M faults n s).2 ∧
      ∀ step ∈ p.carried M B faults n s, B.kind step.1 = .other := by
  induction p generalizing n s with
  | ret a => exact ⟨sound.idle_refl s, by simp [carried]⟩
  | fail e => exact ⟨sound.idle_refl s, by simp [carried]⟩
  | ask o next ih =>
      have ho : B.kind o = .other := by
        by_contra ho
        exact (hp.2 ho).1 rfl
      cases hfault : faults n o with
      | some r =>
          obtain ⟨hidle, hrest⟩ := ih r (hp.1 ho r) (n + 1) s
          simp only [faulty, carried, hfault]
          exact ⟨hidle, List.forall_mem_cons.mpr ⟨ho, hrest⟩⟩
      | none =>
          obtain ⟨hidle, hrest⟩ := ih _ (hp.1 ho (M.answer o s)) (n + 1) (M.after o s)
          simp only [faulty, carried, hfault]
          exact ⟨sound.idle_trans _ _ _ (sound.other o s ho) hidle,
            List.forall_mem_cons.mpr ⟨ho, hrest⟩⟩

/-- **Both or neither.** A run that is not stopped between its first change and its record leaves
the store as it was, or has carried out every change it set about and recorded it. -/
theorem Booked.settles (sound : B.Sound M Idle Writes Records) (hfaults : B.Admits faults)
    {p : Prog I ε α} {ph : Phase} (hp : Booked B Closed p ph) (hph : ph ≠ .recorded) {n : Nat}
    {s : σ} (h : p.Unbroken M B faults n s ph) :
    (ph = .clean ∧ Idle s (p.faulty M faults n s).2) ∨
      B.Both Idle Writes Records (p.carried M B faults n s) s (p.faulty M faults n s).2 := by
  have clean : ∀ {ph : Phase}, ph ≠ .recorded → ph ≠ .dirty → ph = .clean := by
    intro ph hr hd
    cases ph with
    | clean => rfl
    | dirty => exact absurd rfl hd
    | recorded => exact absurd rfl hr
  induction p generalizing ph n s with
  | ret a => exact .inl ⟨clean hph hp, sound.idle_refl s⟩
  | fail e => exact .inl ⟨clean hph h, sound.idle_refl s⟩
  | ask o next ih =>
      -- After an operation without effect the run goes on in the same phase, or ends.
      have quiet : ∀ (r : I.Ans o) (t : σ) (done : Bool), Idle s t →
          (B.kind o ≠ .other → ph = .clean ∧ ∃ e, next r = .fail e) →
          (B.kind o = .other → (next r).Unbroken M B faults (n + 1) t ph) →
          (ph = .clean ∧ Idle s ((next r).faulty M faults (n + 1) t).2) ∨
            B.Both Idle Writes Records ((o, done) :: (next r).carried M B faults (n + 1) t) s
              ((next r).faulty M faults (n + 1) t).2 := by
        intro r t done hst hends hgoes
        by_cases ho : B.kind o = .other
        · rcases ih r (hp.1 ho r) hph (hgoes ho) with ⟨hclean, hidle⟩ | hboth
          · exact .inl ⟨hclean, sound.idle_trans _ _ _ hst hidle⟩
          · exact .inr (both_cons sound hboth (sound.writes_of_idle _ _ hst) fun hc => absurd ho hc)
        · obtain ⟨hclean, e, he⟩ := hends ho
          rw [he]
          exact .inl ⟨hclean, hst⟩
      have gives_up : ∀ r, B.failed o r = true → B.kind o ≠ .other → ∃ e, next r = .fail e := by
        intro r hfail ho
        have hr := (hp.2 ho).2.2 r
        rwa [if_pos hfail] at hr
      cases hfault : faults n o with
      | some r =>
          simp only [Unbroken, hfault] at h
          simp only [faulty, carried, hfault]
          exact quiet r s false (sound.idle_refl s)
            (fun ho => ⟨clean hph h.1, gives_up r (hfaults n o r hfault) ho⟩) fun _ => h.2
      | none =>
          simp only [Unbroken, hfault] at h
          simp only [faulty, carried, hfault]
          cases hfail : B.failed o (M.answer o s) with
          | true =>
              rw [if_pos hfail] at h
              exact quiet _ _ _ (sound.failed o s hfail)
                (fun ho => ⟨clean hph h.1, gives_up _ hfail ho⟩) fun _ => h.2
          | false =>
              rw [if_neg (by rw [hfail]; exact Bool.false_ne_true)] at h
              have booked : B.kind o ≠ .other →
                  Booked B Closed (next (M.answer o s)) (ph.next (B.kind o)) := by
                intro ho
                have hr := (hp.2 ho).2.2 (M.answer o s)
                rwa [if_neg (by rw [hfail]; exact Bool.false_ne_true)] at hr
              cases hkind : B.kind o with
              | other =>
                  rw [hkind] at h
                  have hnext : ph.next .other = ph := by cases ph <;> rfl
                  rw [hnext] at h
                  exact quiet _ _ _ (sound.other o s hkind) (fun ho => absurd hkind ho) fun _ => h
              | change =>
                  have hnext : ph.next .change = .dirty := by
                    cases ph with
                    | clean => rfl
                    | dirty => rfl
                    | recorded => exact absurd rfl hph
                  have hp' := booked (by rw [hkind]; decide)
                  rw [hkind, hnext] at h hp'
                  rcases ih _ hp' (by decide) h with ⟨hclean, -⟩ | hboth
                  · cases hclean
                  · exact .inr (both_cons sound hboth (sound.change o s hkind) fun _ => rfl)
              | record =>
                  have hnext : ph.next .record = .recorded := by cases ph <;> rfl
                  have ho : B.kind o ≠ .other := by
                    rw [hkind]
                    decide
                  have hp' := booked ho
                  rw [hkind, hnext] at hp'
                  obtain ⟨hidle, hrest⟩ :=
                    hp'.idle_of_recorded sound faults (n + 1) (M.after o s)
                  refine .inr ⟨⟨s, M.after o s, sound.writes_of_idle _ _ (sound.idle_refl s),
                    sound.record o s hkind (hp.2 ho).2.1 hfail, hidle⟩, ?_⟩
                  exact List.forall_mem_cons.mpr
                    ⟨fun _ => rfl, fun step hstep hc => absurd (hrest step hstep) hc⟩

end Prog

end Lib
