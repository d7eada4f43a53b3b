import IpVault.Lib.Runs

set_option autoImplicit false

/-! # Letting each thing through once a window

A guard is asked, at some instant, whether it lets an id through, and remembers the ids it let
through for one window. `RemembersFor` says this of the state of a guard, whatever it is made of and
whatever it throws away on the way. The plainest guard is a ledger that throws nothing away
(`let_through`). Asked the same questions at instants that do not decrease, any two such guards give the
same answers (`RemembersFor.outputs_eq`).
-/

namespace Lib

variable {ι τ σ σ' : Type}

/-- A guard with the test `spent` lets through what is not spent, and what it lets through is spent
until one window later. -/
structure RemembersFor [LE τ] [LT τ] [Add τ] (window : τ) (step : τ × ι → σ → Bool × σ)
    (spent : σ → ι → τ → Prop) (Valid : σ → Prop) : Prop where
  valid : ∀ {s : σ} (i : τ × ι), Valid s → Valid (step i s).2
  answer : ∀ {s : σ} (now : τ) (id : ι), Valid s →
    ((step (now, id) s).1 = true ↔ ¬ spent s id now)
  after : ∀ {s : σ} (now : τ) (id : ι), Valid s → ∀ (id' : ι) (t : τ), now ≤ t →
    (spent (step (now, id) s).2 id' t ↔
      spent s id' t ∨ (step (now, id) s).1 = true ∧ id' = id ∧ t < now + window)

/-- **Guards that remember for the same window answer alike**, if they agree on the instants to
come. -/
theorem RemembersFor.outputs_eq [LE τ] [LT τ] [Add τ] {window : τ}
    {step : τ × ι → σ → Bool × σ} {step' : τ × ι → σ' → Bool × σ'} {spent : σ → ι → τ → Prop}
    {spent' : σ' → ι → τ → Prop} {Valid : σ → Prop} {Valid' : σ' → Prop}
    (h : RemembersFor window step spent Valid) (h' : RemembersFor window step' spent' Valid')
    {calls : List (τ × ι)} (hcalls : calls.Pairwise fun c c' => c.1 ≤ c'.1) {s : σ} {s' : σ'}
    (hs : Valid s) (hs' : Valid' s')
    (hagree : ∀ c ∈ calls, ∀ id, spent s id c.1 ↔ spent' s' id c.1) :
    outputs step calls s = outputs step' calls s' := by
  induction calls generalizing s s' with
  | nil => rfl
  | cons c rest ih =>
      obtain ⟨now, id⟩ := c
      have hlater : ∀ c ∈ rest, now ≤ c.1 := (List.pairwise_cons.mp hcalls).1
      have hfirst : spent s id now ↔ spent' s' id now := hagree (now, id) List.mem_cons_self id
      have hanswer : (step (now, id) s).1 = (step' (now, id) s').1 :=
        Bool.eq_iff_iff.mpr (by rw [h.answer now id hs, h'.answer now id hs', hfirst])
      have hrest : outputs step rest (step (now, id) s).2 =
          outputs step' rest (step' (now, id) s').2 := by
        refine ih (List.pairwise_cons.mp hcalls).2 (h.valid _ hs) (h'.valid _ hs') fun c hc id' => ?_
        rw [h.after now id hs id' c.1 (hlater c hc), h'.after now id hs' id' c.1 (hlater c hc),
          hagree c (List.mem_cons_of_mem _ hc) id', hanswer]
      rw [outputs_cons, outputs_cons, hanswer, hrest]

/-! ## The ledger -/

section Ledger

variable [DecidableEq ι] [LinearOrder τ] [Add τ]

/-- The ledger has a use of the id less than one window ago. -/
def Spent (window : τ) (ledger : List (ι × τ)) (id : ι) (now : τ) : Prop :=
  ∃ use ∈ ledger, use.1 = id ∧ now < use.2 + window

instance (window : τ) (ledger : List (ι × τ)) (id : ι) (now : τ) :
    Decidable (Spent window ledger id now) :=
  inferInstanceAs (Decidable (∃ use ∈ ledger, use.1 = id ∧ now < use.2 + window))

/-- The ledger lets through what it has no such use of, and writes every use down for ever. -/
def let_through (window : τ) (call : τ × ι) (ledger : List (ι × τ)) : Bool × List (ι × τ) :=
  if Spent window ledger call.2 call.1 then (false, ledger)
  else (true, (call.2, call.1) :: ledger)

omit [DecidableEq ι] in
theorem spent_cons {window : τ} {ledger : List (ι × τ)} {use : ι × τ} {id : ι} {t : τ} :
    Spent window (use :: ledger) id t ↔ Spent window ledger id t ∨ id = use.1 ∧ t < use.2 + window := by
  unfold Spent
  rw [List.exists_mem_cons_iff, or_comm, eq_comm]

theorem admit_remembersFor (window : τ) :
    RemembersFor window (let_through (ι := ι) window) (Spent window) fun _ => True where
  valid _ _ := trivial
  answer := by
    intro ledger now id _
    unfold let_through
    split
    · rename_i hspent
      simpa using hspent
    · rename_i hfresh
      simpa using hfresh
  after := by
    intro ledger now id _ id' t _
    unfold let_through
    split
    · simp
    · simpa using spent_cons

end Ledger

end Lib
