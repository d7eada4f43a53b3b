import IpVault.Lib.Interleave
import IpVault.Lib.Simulate

set_option autoImplicit false

/-! # What a pool does, in order

The operations of a pool have effects, which count where they take place and in which order. `Pool.log`
is the list of all of them, each with the program that had it. Two things are said of it. If each
operation does to an abstract state what its effects say, so does the pool with its log, whatever the
order of the turns: `Pool.log_refines`. And what a program has in the log is what it would have alone, in
the stores that its turns find: `Tallies` is the judgement about one program, and `Pool.Tallied.log`
carries it over.
-/

namespace Lib

variable {I : Iface} {σ τ ω ε α β κ : Type}

/-- The effects of an operation, in the store it finds, and of a change from outside. -/
structure Effects (I : Iface) (σ ω κ : Type) where
  of_op : I.Op → σ → List κ
  of_outside : ω → σ → List κ

namespace Pool

section Log

variable [DecidableEq τ] (M : Machine I σ) (outside : ω → σ → σ) (F : Effects I σ ω κ)

/-- The effects of one turn, each with its program, or none if it comes from outside. -/
def effects (F : Effects I σ ω κ) : Turn τ ω → Pool I σ τ ε α → List (Option τ × κ)
  | .outside w, P => (F.of_outside w P.store).map (none, ·)
  | .of i, P =>
      match P.pending i with
      | some o => (F.of_op o P.store).map (some i, ·)
      | none => []

/-- The effects of a schedule. -/
def log : List (Turn τ ω) → Pool I σ τ ε α → List (Option τ × κ)
  | [], _ => []
  | t :: ts, P => P.effects F t ++ log ts (P.turn M outside t).2

/-- The effects one program has had. -/
def of_program (i : τ) (l : List (Option τ × κ)) : List κ :=
  (l.filter fun e => e.1 = some i).map Prod.snd

theorem of_program_append (i : τ) (l l' : List (Option τ × κ)) :
    of_program i (l ++ l') = of_program i l ++ of_program i l' := by
  unfold of_program
  rw [List.filter_append, List.map_append]

/-- The effects of one program, seen from it, and from another one. -/
theorem of_program_map (i j : τ) (ks : List κ) :
    of_program i (ks.map (some j, ·)) = if i = j then ks else [] := by
  unfold of_program
  rw [List.filter_map, List.map_map]
  by_cases h : i = j
  · subst h
    simp [Function.comp_def]
  · simp [Function.comp_def, h, Ne.symm h]

theorem of_program_outside (i : τ) (ks : List κ) : of_program i (ks.map (none, ·)) = [] := by
  unfold of_program
  simp [List.filter_map, Function.comp_def]

end Log

/-! ## Refinement -/

section Refinement

variable [DecidableEq τ] {M : Machine I σ} {outside : ω → σ → σ} {F : Effects I σ ω κ}
variable {A : I.Op → Prop} {γ : Type} {exec : γ → κ → γ}

/-- Every operation the programs can come to issue is admissible. -/
def Issues (A : I.Op → Prop) (P : Pool I σ τ ε α) : Prop := ∀ i, (P.thread i).Issues A

theorem Issues.turn {P : Pool I σ τ ε α} (h : P.Issues A) (t : Turn τ ω) :
    (P.turn M outside t).2.Issues A := by
  cases t with
  | outside w => exact h
  | of i =>
      have hi := h i
      cases hp : P.thread i with
      | ret a =>
          simp only [Pool.turn, hp]
          exact h
      | fail e =>
          simp only [Pool.turn, hp]
          exact h
      | ask o next =>
          rw [hp] at hi
          simp only [Pool.turn, hp]
          intro j
          show (Function.update P.thread i _ j).Issues A
          by_cases hj : j = i
          · subst hj
            rw [Function.update_self]
            exact hi.2 _
          · rw [Function.update_of_ne hj]
            exact h j

omit [DecidableEq τ] in
theorem Issues.pending {P : Pool I σ τ ε α} (h : P.Issues A) {i : τ} {o : I.Op}
    (ho : P.pending i = some o) : A o := by
  have hi := h i
  unfold Pool.pending at ho
  cases hp : P.thread i with
  | ret a => simp [hp] at ho
  | fail e => simp [hp] at ho
  | ask o' next =>
      rw [hp] at ho hi
      obtain rfl := Option.some.inj ho
      exact hi.1

/-- The store after a turn of a program. -/
theorem store_turn (P : Pool I σ τ ε α) (i : τ) : (P.turn M outside (.of i)).2.store =
    (P.pending i).elim P.store fun o => M.after o P.store := by
  cases hp : P.thread i <;> simp only [Pool.turn, Pool.pending, hp, Option.elim]

/-- **Refinement.** If each operation does to the view of the store what its effects say, a schedule does
to it what its log says. -/
theorem log_refines (view : σ → γ)
    (hop : ∀ o s, A o → view (M.after o s) = (F.of_op o s).foldl exec (view s))
    (houtside : ∀ w s, view (outside w s) = (F.of_outside w s).foldl exec (view s))
    (schedule : List (Turn τ ω)) {P : Pool I σ τ ε α} (h : P.Issues A) :
    view (final (Pool.turn M outside) schedule P).store =
      ((P.log M outside F schedule).map Prod.snd).foldl exec (view P.store) := by
  induction schedule generalizing P with
  | nil => rfl
  | cons t ts ih =>
      have hturn : view (P.turn M outside t).2.store =
          ((P.effects F t).map Prod.snd).foldl exec (view P.store) := by
        cases t with
        | outside w =>
            simp only [effects, List.map_map, Function.comp_def, List.map_id']
            exact houtside w P.store
        | of i =>
            rw [store_turn]
            cases ho : P.pending i with
            | none => simp only [effects, ho]; rfl
            | some o =>
                simp only [effects, ho, List.map_map, Function.comp_def, List.map_id']
                exact hop o P.store (h.pending ho)
      rw [final_cons, ih (h.turn t), hturn, log, List.map_append, List.foldl_append]

end Refinement

end Pool

/-! ## The share of one program -/

namespace Prog

variable (M : Machine I σ) (S : σ → Prop) (F : Effects I σ ω κ) (L : List κ → Prop)
variable (Q : α → List κ → Prop)

/-- Whatever stores of `S` its operations find, the effects `p` has had are `L` all the way, and `Q` when
it ends in a value. It has had `ks` before. -/
def Tallies : Prog I ε α → List κ → Prop
  | .ret a, ks => L ks ∧ Q a ks
  | .fail _, ks => L ks
  | .ask o next, ks => L ks ∧ ∀ s, S s → Tallies (next (M.answer o s)) (ks ++ F.of_op o s)

namespace Tallies

variable {M S F L Q} {ks : List κ}

theorem so_far {p : Prog I ε α} (h : Tallies M S F L Q p ks) : L ks := by
  cases p with
  | ret a => exact h.1
  | fail e => exact h
  | ask o next => exact h.1

/-- Sequencing. -/
theorem bind {p : Prog I ε β} {f : β → Prog I ε α} {R : β → List κ → Prop}
    (hp : Tallies M S F L R p ks) (hf : ∀ b ks', R b ks' → Tallies M S F L Q (f b) ks') :
    Tallies M S F L Q (p >>= f) ks := by
  induction p generalizing ks with
  | ret b => exact hf b ks hp.2
  | fail e => exact hp
  | ask o next ih => exact ⟨hp.1, fun s hs => ih _ (hp.2 s hs)⟩

/-- A weaker end. -/
theorem imp {p : Prog I ε α} {R : α → List κ → Prop} (hp : Tallies M S F L R p ks)
    (h : ∀ a ks', L ks' → R a ks' → Q a ks') : Tallies M S F L Q p ks := by
  induction p generalizing ks with
  | ret a => exact ⟨hp.1, h a ks hp.1 hp.2⟩
  | fail e => exact hp
  | ask o next ih => exact ⟨hp.1, fun s hs => ih _ (hp.2 s hs)⟩

/-- A program without effects. -/
theorem quiet {P : I.Op → Prop} {p : Prog I ε α} (hp : p.Issues P)
    (hquiet : ∀ o s, P o → F.of_op o s = []) (hL : L ks) :
    Tallies M S F L (fun _ ks' => ks' = ks) p ks := by
  induction p with
  | ret a => exact ⟨hL, rfl⟩
  | fail e => exact hL
  | ask o next ih =>
      refine ⟨hL, fun s _ => ?_⟩
      rw [hquiet o s hp.1, List.append_nil]
      exact ih _ (hp.2 _)

end Tallies

end Prog

namespace Pool

variable [DecidableEq τ] {M : Machine I σ} {outside : ω → σ → σ} {F : Effects I σ ω κ}
variable {S : τ → σ → Prop} {L : τ → List κ → Prop} {Q : τ → α → List κ → Prop}

/-- Every program of a pool is within its judgement, after what it has had. -/
def Tallied (M : Machine I σ) (S : τ → σ → Prop) (F : Effects I σ ω κ) (L : τ → List κ → Prop)
    (Q : τ → α → List κ → Prop) (P : Pool I σ τ ε α) (had : τ → List κ) : Prop :=
  ∀ i, (P.thread i).Tallies M (S i) F (L i) (Q i) (had i)

/-- The stores that the turns of a program find in a schedule. -/
def Finds (M : Machine I σ) (outside : ω → σ → σ) (schedule : List (Turn τ ω)) (P : Pool I σ τ ε α)
    (i : τ) (s : σ) : Prop :=
  ∃ P', Met (Pool.turn M outside) schedule P (.of i) P' ∧ P'.store = s

theorem Tallied.turn {P : Pool I σ τ ε α} {had : τ → List κ} (h : P.Tallied M S F L Q had)
    {t : Turn τ ω} (hs : ∀ i, t = .of i → S i P.store) : (P.turn M outside t).2.Tallied M S F L Q
      fun i => had i ++ of_program i (P.effects F t) := by
  cases t with
  | outside w =>
      intro i
      show (P.thread i).Tallies M (S i) F (L i) (Q i) (had i ++ of_program i (List.map _ _))
      rw [of_program_outside, List.append_nil]
      exact h i
  | of j =>
      have hj := h j
      cases hp : P.thread j with
      | ret a =>
          simp only [Pool.turn, effects, Pool.pending, hp]
          exact fun i => by simpa [of_program] using h i
      | fail e =>
          simp only [Pool.turn, effects, Pool.pending, hp]
          exact fun i => by simpa [of_program] using h i
      | ask o next =>
          rw [hp] at hj
          simp only [Pool.turn, effects, Pool.pending, hp]
          intro i
          show (Function.update P.thread j _ i).Tallies M (S i) F (L i) (Q i)
            (had i ++ of_program i (List.map _ _))
          rw [of_program_map]
          by_cases hi : i = j
          · subst hi
            rw [Function.update_self, if_pos rfl]
            exact hj.2 _ (hs i rfl)
          · rw [Function.update_of_ne hi, if_neg hi, List.append_nil]
            exact h i

/-- **The share of each program** in the log of a schedule is what its judgement says, if its turns find
only stores that it is about. -/
theorem Tallied.log (schedule : List (Turn τ ω)) {P : Pool I σ τ ε α} {had : τ → List κ}
    (h : P.Tallied M S F L Q had) (hfinds : ∀ i s, P.Finds M outside schedule i s → S i s) :
    (final (Pool.turn M outside) schedule P).Tallied M S F L Q
      fun i => had i ++ of_program i (P.log M outside F schedule) := by
  induction schedule generalizing P had with
  | nil => exact fun i => by simpa [Pool.log, of_program] using h i
  | cons t ts ih =>
      have hfirst : ∀ i, t = .of i → S i P.store := by
        rintro i rfl
        exact hfinds i P.store ⟨P, ⟨[], ts, rfl, rfl⟩, rfl⟩
      have hlater : ∀ i s, (P.turn M outside t).2.Finds M outside ts i s → S i s :=
        fun i s ⟨P', hmet, hs⟩ => hfinds i s ⟨P', hmet.cons t, hs⟩
      intro i
      have hrest := ih (h.turn hfirst) hlater i
      beta_reduce at hrest ⊢
      rwa [List.append_assoc, ← of_program_append] at hrest

end Pool

end Lib
