import Mathlib.Tactic

set_option autoImplicit false

/-! # Steps that commit or leave nothing

A `StateT σ (Except ε)` computation runs on a state and either commits, with a value and a new
state, or fails and leaves the old state in force. `Yields m s Q` says that if `m` commits from
`s`, what it commits satisfies `Q`; `Keeps R m` says that wherever `m` starts, the state it
commits is related to the one it started in.
-/

namespace Lib

variable {σ ε α β γ δ : Type}

/-- A sequence of computations that may refuse succeeds if each of them does. -/
theorem except_bind_ok {x : Except ε α} {f : α → Except ε β} {b : β} :
    (x >>= f) = .ok b ↔ ∃ a, x = .ok a ∧ f a = .ok b := by
  cases x with
  | error e => simp [Bind.bind, Except.bind]
  | ok a => simp [Bind.bind, Except.bind]

/-- Two sequences whose first halves look alike under `p`, and whose second halves do under `q`
whatever the first halves give, look alike under `q`. -/
theorem except_map_bind_congr {x x' : Except ε α} {f f' : α → Except ε β} {p : α → γ} {q : β → δ}
    (hx : x.map p = x'.map p) (hf : ∀ a a', p a = p a' → (f a).map q = (f' a').map q) :
    (x >>= f).map q = (x' >>= f').map q := by
  cases x with
  | error e =>
      cases x' with
      | error e' =>
          obtain rfl : e = e' := by simpa [Except.map] using hx
          rfl
      | ok a' => simp [Except.map] at hx
  | ok a =>
      cases x' with
      | error e' => simp [Except.map] at hx
      | ok a' => exact hf a a' (by simpa [Except.map] using hx)

theorem except_map_bind_same (x : Except ε α) {f f' : α → Except ε β} {q : β → δ}
    (hf : ∀ a, (f a).map q = (f' a).map q) : (x >>= f).map q = (x >>= f').map q := by
  refine except_map_bind_congr (p := id) rfl fun a a' h => ?_
  obtain rfl : a = a' := h
  exact hf a

theorem atomic_bind_ok {m : StateT σ (Except ε) α} {f : α → StateT σ (Except ε) β} {s s'' : σ}
    {b : β} :
    (m >>= f) s = .ok (b, s'') ↔ ∃ a s', m s = .ok (a, s') ∧ f a s' = .ok (b, s'') := by
  show (m s >>= fun p => f p.1 p.2) = _ ↔ _
  cases h : m s with
  | error e => simp [Bind.bind, Except.bind]
  | ok p =>
      obtain ⟨a, s'⟩ := p
      simp only [Bind.bind, Except.bind, Except.ok.injEq, Prod.mk.injEq]
      constructor
      · intro h'
        exact ⟨a, s', ⟨rfl, rfl⟩, h'⟩
      · rintro ⟨a', t, ⟨rfl, rfl⟩, h'⟩
        exact h'

theorem atomic_bind_error {m : StateT σ (Except ε) α} {f : α → StateT σ (Except ε) β} {s : σ}
    {e : ε} :
    (m >>= f) s = .error e ↔ m s = .error e ∨ ∃ a s', m s = .ok (a, s') ∧ f a s' = .error e := by
  show (m s >>= fun p => f p.1 p.2) = _ ↔ _
  cases h : m s with
  | error e' => simp [Bind.bind, Except.bind]
  | ok p =>
      obtain ⟨a, s'⟩ := p
      simp only [Bind.bind, Except.bind, reduceCtorEq, false_or, Except.ok.injEq, Prod.mk.injEq]
      constructor
      · intro h'
        exact ⟨a, s', ⟨rfl, rfl⟩, h'⟩
      · rintro ⟨a', t, ⟨rfl, rfl⟩, h'⟩
        exact h'

theorem atomic_pure_ok {a b : α} {s s' : σ} :
    (pure a : StateT σ (Except ε) α) s = .ok (b, s') ↔ a = b ∧ s = s' := by
  show (Except.ok (a, s) : Except ε (α × σ)) = _ ↔ _
  simp

/-- `m` commits from `s`. -/
def Commits (m : StateT σ (Except ε) α) (s : σ) : Prop := ∃ a s', m s = .ok (a, s')

theorem Commits.pure (a : α) (s : σ) : Commits (Pure.pure a : StateT σ (Except ε) α) s :=
  ⟨a, s, rfl⟩

/-- Once the first step has committed, the second one decides. -/
theorem Commits.bind {m : StateT σ (Except ε) α} {f : α → StateT σ (Except ε) β} {s s' : σ} {a : α}
    (hm : m s = .ok (a, s')) (hf : Commits (f a) s') : Commits (m >>= f) s := by
  obtain ⟨b, s'', hf⟩ := hf
  exact ⟨b, s'', atomic_bind_ok.mpr ⟨a, s', hm, hf⟩⟩

/-- If `m` commits from `s`, its value and the new state satisfy `Q`. -/
def Yields (m : StateT σ (Except ε) α) (s : σ) (Q : α → σ → Prop) : Prop :=
  ∀ a s', m s = .ok (a, s') → Q a s'

namespace Yields

@[simp] theorem pure_iff {a : α} {s : σ} {Q : α → σ → Prop} :
    Yields (pure a : StateT σ (Except ε) α) s Q ↔ Q a s := by
  constructor
  · intro h
    exact h a s rfl
  · intro h b s' e
    obtain ⟨rfl, rfl⟩ := atomic_pure_ok.mp e
    exact h

/-- Sequencing: the second step starts in the state the first one commits. -/
@[simp] theorem bind_iff {m : StateT σ (Except ε) α} {f : α → StateT σ (Except ε) β} {s : σ}
    {Q : β → σ → Prop} :
    Yields (m >>= f) s Q ↔ Yields m s fun a s' => Yields (f a) s' Q := by
  constructor
  · intro h a s' hm b s'' hf
    exact h b s'' (atomic_bind_ok.mpr ⟨a, s', hm, hf⟩)
  · intro h b s'' e
    obtain ⟨a, s', hm, hf⟩ := atomic_bind_ok.mp e
    exact h a s' hm b s'' hf

end Yields

/-- Whatever state `m` starts in, the state it commits is related to it by `R`. -/
def Keeps (R : σ → σ → Prop) (m : StateT σ (Except ε) α) : Prop :=
  ∀ s, Yields m s fun _ s' => R s s'

namespace Keeps

variable {R : σ → σ → Prop}

theorem pure (hR : ∀ s, R s s) (a : α) : Keeps R (Pure.pure a : StateT σ (Except ε) α) :=
  fun s => Yields.pure_iff.mpr (hR s)

theorem bind (hR : ∀ s t u, R s t → R t u → R s u) {m : StateT σ (Except ε) α}
    {f : α → StateT σ (Except ε) β} (hm : Keeps R m) (hf : ∀ a, Keeps R (f a)) :
    Keeps R (m >>= f) := by
  intro s
  rw [Yields.bind_iff]
  intro a s' hs b s'' hs'
  exact hR s s' s'' (hm s a s' hs) (hf a s' b s'' hs')

end Keeps

/-- Wherever `m` starts, what it fails with satisfies `P`. -/
def Errs (P : ε → Prop) (m : StateT σ (Except ε) α) : Prop := ∀ s e, m s = .error e → P e

namespace Errs

variable {P : ε → Prop}

theorem pure (a : α) : Errs P (Pure.pure a : StateT σ (Except ε) α) := by
  intro s e h
  cases h

theorem bind {m : StateT σ (Except ε) α} {f : α → StateT σ (Except ε) β} (hm : Errs P m)
    (hf : ∀ a, Errs P (f a)) : Errs P (m >>= f) := by
  intro s e h
  rcases atomic_bind_error.mp h with he | ⟨a, s', -, he⟩
  · exact hm s e he
  · exact hf a s' e he

end Errs

end Lib
