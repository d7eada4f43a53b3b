import IpVault.Auth.Replay
import IpVault.Lib.Interleave

set_option autoImplicit false

/-! # The replay guard under concurrent calls

`Auth/Replay.lean` runs a call of `check_and_record` as if it were alone. Here a call is the sections
its locks protect, under the instant it captured when it began, and the sections of any number of
calls come in any order. A slow call may sweep and record with an old instant after newer ones.
While all instants lie within one window no entry the calls have made is expired for any of them,
and so each signature is accepted once.
-/

namespace IpVault

open Lib

namespace ReplayGuard

/-- The sections the locks protect. -/
inductive Section where
  | over_capacity
  | reschedule (over_capacity : Bool) (now : Int)
  | retain (now : Int)
  | record (id : SignatureId) (now : Int)

/-- What a section returns. -/
@[reducible] def Section.Reply : Section → Type
  | over_capacity => Bool
  | reschedule _ _ => Bool
  | retain _ => Unit
  | record _ _ => Bool

/-- The interface of the locks. -/
abbrev Locks : Iface := ⟨Section, Section.Reply⟩

/-- The sections on the shared guard. -/
def shared : Machine Locks ReplayGuard where
  answer
    | .over_capacity, g => g.over_capacity
    | .reschedule full now, g => (g.reschedule full now).1
    | .retain _, _ => ()
    | .record id now, g => (g.record id now).1
  after
    | .over_capacity, g => g
    | .reschedule full now, g => (g.reschedule full now).2
    | .retain now, g => g.retain now
    | .record id now, g => (g.record id now).2

/-- A call, as a program. It does not fail. -/
abbrev Sections (α : Type) := Prog Locks Empty α

namespace Sections

/-- One section. -/
def take (o : Section) : Sections o.Reply := Prog.op (I := Locks) o

/-- `check_and_record` once it is known whether a sweep is due. -/
def sweep_and_record (now : Int) (id : SignatureId) (due : Bool) : Sections Bool :=
  if due then do
    take (.retain now)
    take (.record id now)
  else take (.record id now)

/-- `check_and_record` at the instant `now`, which it captured when it began. -/
def check_and_record (now : Int) (id : SignatureId) : Sections Bool := do
  let over_capacity ← take .over_capacity
  let due ← take (.reschedule over_capacity now)
  sweep_and_record now id due

/-- A call that is alone is the function. -/
theorem run_check_and_record (g : ReplayGuard) (now : Int) (id : SignatureId) :
    (check_and_record now id).run shared g =
      (.ok (g.check_and_record now id).1, (g.check_and_record now id).2) := by
  show (sweep_and_record now id (g.reschedule g.over_capacity now).1).run shared
    (g.reschedule g.over_capacity now).2 = _
  unfold ReplayGuard.check_and_record prune_if_due sweep_and_record
  cases hdue : (g.reschedule g.over_capacity now).1 with
  | false => simp only [hdue, Bool.false_eq_true, if_false]; rfl
  | true => simp only [hdue, if_true]; rfl

/-- Where a call may stand between two of its sections. -/
inductive Stage (now : Int) (id : SignatureId) : Sections Bool → Prop
  | begun : Stage now id (check_and_record now id)
  | measured (over_capacity : Bool) : Stage now id (.ask (.reschedule over_capacity now)
      fun due => sweep_and_record now id due)
  | due : Stage now id (.ask (.retain now) fun _ => take (.record id now))
  | ready : Stage now id (take (.record id now))
  | returned (first_use : Bool) : Stage now id (.ret first_use)

end Sections

/-! ## What a section does to the entries -/

/-- A sweep keeps what is still alive at its instant. -/
theorem holds_retain {g : ReplayGuard} {id : SignatureId} {now t : Int} (h : g.Holds id t)
    (hlt : now < t) : (g.retain now).Holds id t := by
  obtain ⟨e, he, hid, hle⟩ := h
  refine ⟨e, Table.mem_filter.mpr ⟨he, ?_⟩, hid, hle⟩
  rw [decide_eq_true_eq]
  omega

theorem remembers_of_holds {g : ReplayGuard} {id : SignatureId} {now t : Int} (h : g.Holds id t)
    (hlt : now < t) : g.remembers id now = true := by
  obtain ⟨e, he, hid, hle⟩ := h
  exact remembers_iff.mpr ⟨e, he, hid, by omega⟩

theorem record_refused {g : ReplayGuard} {id : SignatureId} {now : Int}
    (h : g.remembers id now = true) : g.record id now = (false, g) := if_pos h

theorem record_accepted {g : ReplayGuard} {id : SignatureId} {now : Int}
    (h : ¬ g.remembers id now = true) : g.record id now =
      (true, { g with seen := (g.seen.filter fun e => e.id ≠ id).insert ⟨id, now + g.window⟩ }) :=
  if_neg h

/-- The entries after an acceptance: the new one, and those of other signatures. -/
theorem mem_record {g : ReplayGuard} {id : SignatureId} {now : Int} {e : SeenEntry}
    (h : ¬ g.remembers id now = true) : e ∈ (g.record id now).2.seen ↔
      (e ∈ g.seen ∧ e.id ≠ id) ∨ e = ⟨id, now + g.window⟩ := by
  have hfree : (g.seen.filter fun e => e.id ≠ id).has id = false :=
    Table.has_eq_false.mpr fun e he => by simpa using (Table.mem_filter.mp he).2
  rw [record_accepted h]
  show e ∈ (g.seen.filter fun e => e.id ≠ id).insert _ ↔ _
  rw [Table.mem_insert, Table.mem_filter, decide_eq_true_eq, and_iff_right hfree]

/-! ## Calls that take turns -/

section Race

variable {τ : Type} [DecidableEq τ]

/-- Calls by their signatures and the instants they have captured. -/
structure Calls (τ : Type) where
  id : τ → SignatureId
  now : τ → Int

variable (C : Calls τ)

/-- The calls have begun, on the guard `g`. -/
def Calls.begin (g : ReplayGuard) : Pool Locks ReplayGuard τ Empty Bool :=
  ⟨g, fun i => Sections.check_and_record (C.now i) (C.id i)⟩

/-- A call has been accepted. -/
def Accepted (P : Pool Locks ReplayGuard τ Empty Bool) (i : τ) : Prop := P.thread i = .ret true

/-- What holds between any two sections: `window` is the window of the guard. -/
structure Raced (window : Int) (P : Pool Locks ReplayGuard τ Empty Bool) : Prop where
  window_eq : P.store.window = window
  stage : ∀ i, Sections.Stage (C.now i) (C.id i) (P.thread i)
  held : ∀ i, Accepted P i → P.store.Holds (C.id i) (C.now i + window)
  once : ∀ i j, Accepted P i → Accepted P j → C.id i = C.id j → i = j
  refused : ∀ i, P.thread i = .ret false → ∃ j, Accepted P j ∧ C.id j = C.id i
  seen : ∀ e ∈ P.store.seen, ∀ i k, e.id = C.id i → C.now k < e.expires_at →
    ∃ j, Accepted P j ∧ C.id j = C.id i

variable {C} {window : Int} {P : Pool Locks ReplayGuard τ Empty Bool}

/-- The calls after one that is not at its end takes a section other than its last. -/
theorem Raced.goes_on (h : Raced C window P) {i : τ} {g : ReplayGuard} {p : Sections Bool}
    (hp : ∀ b, p ≠ .ret b) (hi : ∀ b, P.thread i ≠ .ret b) (hwindow : g.window = P.store.window)
    (hstage : Sections.Stage (C.now i) (C.id i) p)
    (hheld : ∀ id t, C.now i < t → P.store.Holds id t → g.Holds id t)
    (hseen : ∀ e ∈ g.seen, e ∈ P.store.seen)
    (hnear : ∀ j k, C.now j < C.now k + window) :
    Raced C window ⟨g, Function.update P.thread i p⟩ := by
  have same : ∀ j b, Function.update P.thread i p j = .ret b ↔ P.thread j = .ret b := by
    intro j b
    by_cases hj : j = i
    · subst hj
      rw [Function.update_self]
      exact iff_of_false (hp b) (hi b)
    · rw [Function.update_of_ne hj]
  constructor
  · exact hwindow.trans h.window_eq
  · intro j
    by_cases hj : j = i
    · subst hj
      show Sections.Stage _ _ (Function.update P.thread j p j)
      rw [Function.update_self]
      exact hstage
    · show Sections.Stage _ _ (Function.update P.thread i p j)
      rw [Function.update_of_ne hj]
      exact h.stage j
  · intro j hj
    exact hheld _ _ (hnear i j) (h.held j ((same j true).mp hj))
  · intro j k hj hk
    exact h.once j k ((same j true).mp hj) ((same k true).mp hk)
  · intro j hj
    obtain ⟨k, hk, hid⟩ := h.refused j ((same j false).mp hj)
    exact ⟨k, (same k true).mpr hk, hid⟩
  · intro e he j k hid hlt
    obtain ⟨l, hl, hid'⟩ := h.seen e (hseen e he) j k hid hlt
    exact ⟨l, (same l true).mpr hl, hid'⟩

theorem update_ret_of_ne {f : τ → Sections Bool} {i j : τ} (hj : j ≠ i) {b c : Bool} :
    Function.update f i (.ret b) j = .ret c ↔ f j = .ret c := by
  rw [Function.update_of_ne hj]

theorem update_ret_self {f : τ → Sections Bool} {i : τ} {b c : Bool} :
    Function.update f i (.ret b) i = .ret c ↔ b = c := by
  rw [Function.update_self]
  exact ⟨fun heq => by cases heq; rfl, fun heq => by rw [heq]⟩

/-- A call that has returned is at its end, and the others are where they were. -/
theorem Raced.stage_returned (h : Raced C window P) (i : τ) (b : Bool) (j : τ) :
    Sections.Stage (C.now j) (C.id j) (Function.update P.thread i (.ret b) j) := by
  by_cases hj : j = i
  · subst hj
    rw [Function.update_self]
    exact .returned b
  · rw [Function.update_of_ne hj]
    exact h.stage j

/-- A call is refused: the entry that is remembered is one of the calls' own. -/
theorem Raced.refuses (h : Raced C window P) {i : τ} (hi : ∀ b, P.thread i ≠ .ret b)
    (hrem : P.store.remembers (C.id i) (C.now i) = true) :
    Raced C window ⟨P.store, Function.update P.thread i (.ret false)⟩ := by
  obtain ⟨e, he, hid, hlt⟩ := remembers_iff.mp hrem
  have accepted : ∀ j, Accepted ⟨P.store, Function.update P.thread i (.ret false)⟩ j ↔
      Accepted P j := by
    intro j
    by_cases hj : j = i
    · subst hj
      exact iff_of_false (fun heq => by cases update_ret_self.mp heq) (hi true)
    · exact update_ret_of_ne hj
  refine ⟨h.window_eq, h.stage_returned i false, ?_, ?_, ?_, ?_⟩
  · intro j hj
    exact h.held j ((accepted j).mp hj)
  · intro j k hj hk
    exact h.once j k ((accepted j).mp hj) ((accepted k).mp hk)
  · intro j hj
    by_cases hji : j = i
    · obtain ⟨k, hk, hid'⟩ := h.seen e he i i hid hlt
      exact ⟨k, (accepted k).mpr hk, hji ▸ hid'⟩
    · obtain ⟨k, hk, hid'⟩ := h.refused j ((update_ret_of_ne hji).mp hj)
      exact ⟨k, (accepted k).mpr hk, hid'⟩
  · intro e' he' j k hid' hlt'
    obtain ⟨l, hl, hid''⟩ := h.seen e' he' j k hid' hlt'
    exact ⟨l, (accepted l).mpr hl, hid''⟩

/-- A call is accepted: none of its signature has been accepted before. -/
theorem Raced.accepts (h : Raced C window P) {i : τ} (hnear : ∀ j k, C.now j < C.now k + window)
    (hrem : ¬ P.store.remembers (C.id i) (C.now i) = true) :
    Raced C window ⟨(P.store.record (C.id i) (C.now i)).2,
      Function.update P.thread i (.ret true)⟩ := by
  have hfirst : ∀ j, Accepted P j → C.id j ≠ C.id i := by
    intro j hj hid
    exact hrem (remembers_of_holds (hid ▸ h.held j hj) (hnear i j))
  have accepted : ∀ {j}, Accepted ⟨(P.store.record (C.id i) (C.now i)).2,
      Function.update P.thread i (.ret true)⟩ j ↔ j = i ∨ Accepted P j := by
    intro j
    by_cases hj : j = i
    · exact iff_of_true (by rw [hj]; exact update_ret_self.mpr rfl) (.inl hj)
    · exact (update_ret_of_ne hj).trans ⟨.inr, fun hor => hor.resolve_left hj⟩
  refine ⟨?_, h.stage_returned i true, ?_, ?_, ?_, ?_⟩
  · show (P.store.record (C.id i) (C.now i)).2.window = window
    rw [record_accepted hrem]
    exact h.window_eq
  · intro j hj
    rcases accepted.mp hj with rfl | hj
    · refine ⟨_, (mem_record hrem).mpr (.inr rfl), rfl, ?_⟩
      rw [h.window_eq]
    · obtain ⟨e, he, hid, hle⟩ := h.held j hj
      exact ⟨e, (mem_record hrem).mpr (.inl ⟨he, hid ▸ hfirst j hj⟩), hid, hle⟩
  · intro j k hj hk hid
    rcases accepted.mp hj with hji | hj' <;> rcases accepted.mp hk with hki | hk'
    · rw [hji, hki]
    · exact absurd (hid.symm.trans (congrArg C.id hji)) (hfirst k hk')
    · exact absurd (hid.trans (congrArg C.id hki)) (hfirst j hj')
    · exact h.once j k hj' hk' hid
  · intro j hj
    have hji : j ≠ i := by
      rintro rfl
      cases update_ret_self.mp hj
    obtain ⟨k, hk, hid⟩ := h.refused j ((update_ret_of_ne hji).mp hj)
    exact ⟨k, accepted.mpr (.inr hk), hid⟩
  · intro e he j k hid hlt
    rcases (mem_record hrem).mp he with ⟨he, -⟩ | rfl
    · obtain ⟨l, hl, hid'⟩ := h.seen e he j k hid hlt
      exact ⟨l, accepted.mpr (.inr hl), hid'⟩
    · exact ⟨i, accepted.mpr (.inl rfl), hid⟩

/-- The last section of a call. -/
theorem Raced.returns (h : Raced C window P) {i : τ} (hi : ∀ b, P.thread i ≠ .ret b)
    (hnear : ∀ j k, C.now j < C.now k + window) :
    Raced C window ⟨(P.store.record (C.id i) (C.now i)).2,
      Function.update P.thread i (.ret (P.store.record (C.id i) (C.now i)).1)⟩ := by
  by_cases hrem : P.store.remembers (C.id i) (C.now i) = true
  · rw [record_refused hrem]
    exact h.refuses hi hrem
  · have htrue : (P.store.record (C.id i) (C.now i)).1 = true := by rw [record_accepted hrem]
    rw [htrue]
    exact h.accepts hnear hrem

/-- **One turn.** -/
theorem Raced.turn (h : Raced C window P) (hnear : ∀ j k, C.now j < C.now k + window)
    (outside : Empty → ReplayGuard → ReplayGuard) (w : Turn τ Empty) :
    Raced C window (P.turn shared outside w).2 := by
  cases w with
  | outside w => exact w.elim
  | of i =>
      have hstage := h.stage i
      generalize hthread : P.thread i = p at hstage
      cases hstage with
      | begun =>
          have hnot : ∀ b, P.thread i ≠ .ret b := fun b heq => by rw [hthread] at heq; cases heq
          have hturn : (P.turn shared outside (.of i)).2 = ⟨P.store,
              Function.update P.thread i (.ask (.reschedule P.store.over_capacity (C.now i))
                fun due => Sections.sweep_and_record (C.now i) (C.id i) due)⟩ := by
            simp only [Pool.turn, hthread]
            rfl
          rw [hturn]
          exact h.goes_on (fun b heq => by cases heq) hnot rfl (.measured _) (fun _ _ _ hh => hh)
            (fun _ he => he) hnear
      | measured full =>
          have hnot : ∀ b, P.thread i ≠ .ret b := fun b heq => by rw [hthread] at heq; cases heq
          have hturn : (P.turn shared outside (.of i)).2 =
              ⟨(P.store.reschedule full (C.now i)).2, Function.update P.thread i
                (Sections.sweep_and_record (C.now i) (C.id i)
                  (P.store.reschedule full (C.now i)).1)⟩ := by
            simp only [Pool.turn, hthread]
            rfl
          rw [hturn]
          have hseen := reschedule_seen P.store full (C.now i)
          have hnext : Sections.Stage (C.now i) (C.id i) (Sections.sweep_and_record (C.now i)
              (C.id i) (P.store.reschedule full (C.now i)).1) ∧ ∀ b,
              Sections.sweep_and_record (C.now i) (C.id i) (P.store.reschedule full (C.now i)).1 ≠
                .ret b := by
            cases (P.store.reschedule full (C.now i)).1 with
            | true => exact ⟨.due, fun b heq => by cases heq⟩
            | false => exact ⟨.ready, fun b heq => by cases heq⟩
          refine h.goes_on hnext.2 hnot (reschedule_window _ _ _) hnext.1 ?_ ?_ hnear
          · rintro id t - ⟨e, he, hrest⟩
            exact ⟨e, by rwa [hseen], hrest⟩
          · intro e he
            rwa [hseen] at he
      | due =>
          have hnot : ∀ b, P.thread i ≠ .ret b := fun b heq => by rw [hthread] at heq; cases heq
          have hturn : (P.turn shared outside (.of i)).2 = ⟨P.store.retain (C.now i),
              Function.update P.thread i (Sections.take (.record (C.id i) (C.now i)))⟩ := by
            simp only [Pool.turn, hthread]
            rfl
          rw [hturn]
          exact h.goes_on (fun b heq => by cases heq) hnot rfl .ready
            (fun _ _ hlt hh => holds_retain hh hlt) (fun e he => (Table.mem_filter.mp he).1) hnear
      | ready =>
          have hnot : ∀ b, P.thread i ≠ .ret b := fun b heq => by rw [hthread] at heq; cases heq
          have hturn : (P.turn shared outside (.of i)).2 =
              ⟨(P.store.record (C.id i) (C.now i)).2, Function.update P.thread i
                (.ret (P.store.record (C.id i) (C.now i)).1)⟩ := by
            simp only [Pool.turn, hthread]
            rfl
          rw [hturn]
          exact h.returns hnot hnear
      | returned b =>
          have hturn : (P.turn shared outside (.of i)).2 = P := by
            simp only [Pool.turn, hthread]
          rw [hturn]
          exact h

omit [DecidableEq τ] in
/-- The guard remembers none of the signatures when the calls begin. -/
theorem Raced.begin {g : ReplayGuard} (hfresh : ∀ i j, g.remembers (C.id i) (C.now j) = false) :
    Raced C g.window (C.begin g) := by
  have running : ∀ i b, (C.begin g).thread i ≠ .ret b := fun i b heq => by cases heq
  refine ⟨rfl, fun i => .begun, ?_, ?_, ?_, ?_⟩
  · intro i hi
    exact absurd hi (running i true)
  · intro i j hi
    exact absurd hi (running i true)
  · intro i hi
    exact absurd hi (running i false)
  · intro e he i k hid hlt
    have hrem : g.remembers (C.id i) (C.now k) = true := remembers_iff.mpr ⟨e, he, hid, hlt⟩
    rw [hfresh i k] at hrem
    cases hrem

/-- **One winner.** Calls whose instants lie within less than one window of each other, on a guard
that remembers none of their signatures: whatever the order of their sections, once a call has
returned, exactly one call of its signature has been accepted. -/
theorem one_winner (C : Calls τ) (g : ReplayGuard)
    (hfresh : ∀ i j, g.remembers (C.id i) (C.now j) = false)
    (hnear : ∀ i j, C.now i < C.now j + g.window) (schedule : List (Turn τ Empty)) (i : τ)
    (b : Bool) (hret : (final (Pool.turn shared fun w : Empty => w.elim) schedule
      (C.begin g)).thread i = .ret b) :
    ∃! j, C.id j = C.id i ∧
      (final (Pool.turn shared fun w : Empty => w.elim) schedule (C.begin g)).thread j =
        .ret true := by
  have hall : Along (Pool.turn shared fun w : Empty => w.elim) (fun _ _ => True) schedule
      (C.begin g) := Along.of_forall _ _ fun _ _ _ => trivial
  have hraced : Raced C g.window
      (final (Pool.turn shared fun w : Empty => w.elim) schedule (C.begin g)) :=
    hall.keeps (I := Raced C g.window) (.begin hfresh) fun w P _ hP => hP.turn hnear _ w
  cases b with
  | true =>
      refine ⟨i, ⟨rfl, hret⟩, ?_⟩
      rintro j ⟨hid, hj⟩
      exact hraced.once j i hj hret hid
  | false =>
      obtain ⟨k, hk, hid⟩ := hraced.refused i hret
      refine ⟨k, ⟨hid, hk⟩, ?_⟩
      rintro j ⟨hid', hj⟩
      exact hraced.once j k hj hk (hid'.trans hid.symm)

end Race

/-- Two calls of one signature; the second captured its instant later. -/
def Calls.twice : Calls Bool := ⟨fun _ => ⟨1, [7]⟩, fun late => if late then 5 else 0⟩

/-- They take turns, and the earlier one records first. -/
def Calls.turns : List (Turn Bool Empty) :=
  [.of true, .of false, .of true, .of false, .of false, .of true]

theorem one_winner_twice :
    ∃! j, Calls.twice.id j = Calls.twice.id true ∧
      (final (Pool.turn shared fun w : Empty => w.elim) Calls.turns
        (Calls.twice.begin (.new 300 0))).thread j = .ret true :=
  one_winner Calls.twice (.new 300 0) (fun _ _ => rfl)
    (by intro i j; cases i <;> cases j <;> decide) Calls.turns true false rfl

end ReplayGuard

end IpVault
