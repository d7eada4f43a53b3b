import IpVault.Auth.Master
import IpVault.Env
import IpVault.Lib.Interleave

set_option autoImplicit false

/-! # Resolving the master, step by step

`Auth/Master.lean` runs a call of `MasterPin` as if it were alone. Here a call is the steps it
takes, any number of calls take turns, and between two steps the column `is_master` and the index
may be edited behind the back of the service. The cell is written once, but a call that finds it
written after it has read the table returns what it has read and not what the cell holds. So the
process has one master as long as no call loses the race with another answer than the winner's.
-/

namespace IpVault

open Lib

namespace MasterPin

/-- The steps of `MasterPin`. -/
inductive Step where
  /-- `cell.get()`. -/
  | get
  /-- The query of `sole_master`. -/
  | masters
  /-- `db::has_index`. -/
  | has_index
  /-- `cell.set(id)`. -/
  | set (id : Uuid)

/-- What a step returns. -/
@[reducible] def Step.Reply : Step → Type
  | get => Option Uuid
  | masters => Except DbErr (List Uuid)
  | has_index => Except DbErr Bool
  | set _ => Unit

/-- The cell, and what the database answers at this moment. -/
structure Shared where
  pin : MasterPin
  view : MasterView

/-- The steps on the shared state. A cell that is written is not written again. -/
def shared : Machine ⟨Step, Step.Reply⟩ Shared where
  answer
    | .get, s => s.pin.cell
    | .masters, s => s.view.masters
    | .has_index, s => s.view.has_index
    | .set _, _ => ()
  after
    | .set id, s => { s with pin := ⟨s.pin.cell.or (some id)⟩ }
    | _, s => s

/-- A call, as a program. -/
abbrev Steps (ε α : Type) := Prog ⟨Step, Step.Reply⟩ ε α

namespace Steps

/-- One step. -/
def take {ε : Type} (o : Step) : Steps ε o.Reply := Prog.op (I := ⟨Step, Step.Reply⟩) o

/-- `MasterPin::pin_at_boot`. The two checks read the part of a `MasterView` they are given. -/
def pin_at_boot : Steps MasterPinError Uuid := do
  let cell ← take .get
  match cell with
  | some pinned => pure pinned
  | none => do
      let masters ← take .masters
      let pinned ← Prog.ofExcept (sole_master ⟨masters, .ok true⟩)
      let has_index ← take .has_index
      Prog.ofExcept (check_index ⟨.ok [], has_index⟩)
      let _ ← take (.set pinned)
      pure pinned

/-- `MasterPin::resolve`. -/
def resolve {ε : Type} : Steps ε (Option Uuid) := do
  let pinned ← pin_at_boot.result
  pure pinned.toOption

/-- `MasterPin::authenticate`: the identifier it has resolved, if the key says that it is master,
and the effective principal. -/
def authenticate {ε : Type} (key : ApiKey) : Steps ε (Option Uuid × ApiKey) :=
  if !key.is_master then pure (none, key)
  else do
    let pinned ← resolve
    if pinned = some key.id then pure (pinned, key)
    else pure (pinned, { key with is_master := false })

/-! ## Alone -/

/-- Run alone, the steps are the function of `Auth/Master.lean`. -/
theorem pin_at_boot_run (s : Shared) :
    pin_at_boot.run shared s =
      ((s.pin.pin_at_boot s.view).1, { s with pin := (s.pin.pin_at_boot s.view).2 }) := by
  obtain ⟨⟨cell⟩, ⟨masters, has_index⟩⟩ := s
  cases cell with
  | some id => rfl
  | none =>
      rcases masters with e | _ | ⟨only, _ | ⟨other, rest⟩⟩
      · rfl
      · rfl
      · rcases has_index with e | _ | _ <;> rfl
      · rfl

theorem resolve_run {ε : Type} (s : Shared) :
    (resolve : Steps ε _).run shared s =
      (.ok (s.pin.resolve s.view).1, { s with pin := (s.pin.resolve s.view).2 }) := by
  unfold resolve
  rw [Prog.run_bind, Prog.run_result, pin_at_boot_run]
  unfold MasterPin.resolve
  generalize s.pin.pin_at_boot s.view = r
  obtain ⟨_ | id, pin⟩ := r <;> rfl

theorem authenticate_run {ε : Type} (key : ApiKey) (s : Shared) :
    (((authenticate key : Steps ε _).run shared s).1.map Prod.snd,
        ((authenticate key : Steps ε _).run shared s).2) =
      (.ok (s.pin.authenticate s.view key).1,
        { s with pin := (s.pin.authenticate s.view key).2 }) := by
  unfold authenticate MasterPin.authenticate
  cases hm : key.is_master with
  | false => rfl
  | true =>
      simp only [Bool.not_true, Bool.false_eq_true, if_false]
      rw [Prog.run_bind, resolve_run]
      simp only
      split <;> rfl

end Steps

/-! ## Among others -/

/-- The calls. -/
inductive Call where
  | pin_at_boot
  | resolve
  | authenticate (key : ApiKey)

/-- What a call returns. -/
inductive Outcome where
  | booted (result : Except MasterPinError Uuid)
  | resolved (pinned : Option Uuid)
  | authenticated (pinned : Option Uuid) (key : ApiKey)

/-- The identifier a call has returned as that of the master. -/
def Outcome.master : Outcome → Option Uuid
  | booted result => result.toOption
  | resolved pinned => pinned
  | authenticated pinned _ => pinned

/-- The key a call has left with `is_master`. -/
def Outcome.left_master : Outcome → Option Uuid
  | authenticated _ key => if key.is_master then some key.id else none
  | _ => none

/-- A call, as a program of a pool. -/
def Call.steps : Call → Steps Empty Outcome
  | pin_at_boot => do
      let r ← Steps.pin_at_boot.result
      pure (.booted r)
  | resolve => do
      let r ← Steps.resolve
      pure (.resolved r)
  | authenticate key => do
      let r ← Steps.authenticate key
      pure (.authenticated r.1 r.2)

/-- An edit of the database from outside. -/
def edit (view : MasterView) (s : Shared) : Shared := { s with view }

/-- The calls begin. -/
def calling {τ : Type} (calls : τ → Call) (s : Shared) :
    Pool ⟨Step, Step.Reply⟩ Shared τ Empty Outcome :=
  ⟨s, fun i => (calls i).steps⟩

/-- One turn of the process. -/
abbrev turn {τ : Type} [DecidableEq τ] : Turn τ MasterView →
    Pool ⟨Step, Step.Reply⟩ Shared τ Empty Outcome →
      Option Step × Pool ⟨Step, Step.Reply⟩ Shared τ Empty Outcome :=
  Pool.turn shared edit

/-- A call about to write the cell finds it empty, or finds there what it has read itself. -/
def Unbeaten {τ : Type} (w : Turn τ MasterView)
    (P : Pool ⟨Step, Step.Reply⟩ Shared τ Empty Outcome) : Prop :=
  ∀ i id, w = .of i → P.pending i = some (.set id) →
    P.store.pin.cell = none ∨ P.store.pin.cell = some id

section Judgement

/-- The others may write the cell, once. -/
def PinKept (s t : Shared) : Prop := ∀ id, s.pin.cell = some id → t.pin.cell = some id

/-- The cell is written with what it holds, or for the first time. -/
def Writes (o : Step) (s : Shared) : Prop :=
  ∀ id, o = .set id → s.pin.cell = none ∨ s.pin.cell = some id

theorem PinKept.refl (s : Shared) : PinKept s s := fun _ h => h

theorem PinKept.trans (s t u : Shared) (hst : PinKept s t) (htu : PinKept t u) : PinKept s u :=
  fun id h => htu id (hst id h)

theorem PinKept.after (o : Step) (s : Shared) : PinKept s (shared.after o s) := by
  intro id h
  cases o with
  | set id' =>
      show s.pin.cell.or (some id') = some id
      rw [h]
      rfl
  | _ => exact h

/-- A program whose value is right wherever the cell may go. -/
abbrev Judged {ε α : Type} (Q : α → Shared → Prop) (p : Steps ε α) (s : Shared) : Prop :=
  p.Among shared PinKept Writes (fun _ _ => True) Q (fun _ _ => True) s

/-- A step of a judged program. -/
theorem take_judged {ε : Type} {o : Step} {Q : o.Reply → Shared → Prop} {s : Shared}
    (h : ∀ t, PinKept s t → Writes o t →
      ∀ u, PinKept (shared.after o t) u → Q (shared.answer o t) u) :
    Judged Q (Steps.take o : Steps ε _) s :=
  fun t hst hwrites => ⟨trivial, h t hst hwrites⟩

theorem pin_at_boot_judged (s : Shared) :
    Judged (fun id t => t.pin.cell = some id) Steps.pin_at_boot s := by
  refine Prog.Among.bind PinKept.refl (take_judged fun t _ _ u hu => ?_)
  -- What `get` has brought is the cell as it was at `t`.
  generalize hcell : (shared.answer .get t : Option Uuid) = cell
  cases cell with
  | some pinned => exact fun x hx => hx pinned (hu pinned hcell)
  | none =>
      refine Prog.Among.bind PinKept.refl (take_judged fun t _ _ u _ => ?_)
      refine Prog.Among.bind PinKept.refl
        (Prog.Among.ofExcept (fun pinned _ t _ => ?_) fun _ _ _ _ => trivial)
      refine Prog.Among.bind PinKept.refl (take_judged fun t _ _ u _ => ?_)
      refine Prog.Among.bind PinKept.refl
        (Prog.Among.ofExcept (fun _ _ t _ => ?_) fun _ _ _ _ => trivial)
      refine Prog.Among.bind PinKept.refl (take_judged fun t _ hwrites u hu x hx => ?_)
      -- The cell holds the identifier now, whoever has written it.
      have hset : (shared.after (.set pinned) t).pin.cell = some pinned := by
        show t.pin.cell.or (some pinned) = some pinned
        rcases hwrites pinned rfl with hnone | hsome
        · rw [hnone]
          rfl
        · rw [hsome]
          rfl
      exact hx pinned (hu pinned hset)

theorem pin_at_boot_result_judged {ε : Type} (s : Shared) :
    Judged (fun r t => ∀ id, r = .ok id → t.pin.cell = some id)
      (Steps.pin_at_boot.result : Steps ε (Except MasterPinError Uuid)) s := by
  refine Prog.Among.result ((pin_at_boot_judged s).mono (fun _ _ h => h) ?_ ?_)
  · intro id t hid id' h
    obtain rfl : id = id' := Except.ok.inj h
    exact hid
  · intro e t _ id' h
    cases h

theorem resolve_judged {ε : Type} (s : Shared) :
    Judged (fun r t => ∀ id, r = some id → t.pin.cell = some id) (Steps.resolve : Steps ε _) s := by
  refine Prog.Among.bind PinKept.refl ((pin_at_boot_result_judged s).mono (fun _ _ h => h) ?_
    fun _ _ h => h)
  intro r t hr u hu id h
  refine hu id (hr id ?_)
  cases r with
  | ok id' => exact congrArg _ (Option.some.inj h)
  | error e => cases h

theorem authenticate_judged {ε : Type} (key : ApiKey) (s : Shared) :
    Judged (fun r t => (∀ id, r.1 = some id → t.pin.cell = some id) ∧
        (r.2.is_master = true → t.pin.cell = some r.2.id))
      (Steps.authenticate key : Steps ε _) s := by
  unfold Steps.authenticate
  cases hm : key.is_master with
  | false =>
      refine fun t _ => ⟨fun id h => (by cases h), fun h => ?_⟩
      cases hm.symm.trans h
  | true =>
      refine Prog.Among.bind PinKept.refl ((resolve_judged s).mono (fun _ _ h => h) ?_
        fun _ _ h => h)
      intro r t hr
      by_cases hpinned : r = some key.id
      · show Judged _ (if r = some key.id then _ else _) t
        rw [if_pos hpinned]
        intro u hu
        exact ⟨fun id h => hu id (hr id h), fun _ => hu key.id (hr key.id hpinned)⟩
      · show Judged _ (if r = some key.id then _ else _) t
        rw [if_neg hpinned]
        intro u hu
        exact ⟨fun id h => hu id (hr id h), fun h => by cases h⟩

/-- What a call returns is in the cell. -/
theorem Call.judged (c : Call) (s : Shared) :
    Judged (fun r t => (∀ id, r.master = some id → t.pin.cell = some id) ∧
      ∀ id, r.left_master = some id → t.pin.cell = some id) c.steps s := by
  cases c with
  | pin_at_boot =>
      refine Prog.Among.bind PinKept.refl ((pin_at_boot_result_judged s).mono (fun _ _ h => h) ?_
        fun _ _ h => h)
      intro r t hr u hu
      refine ⟨fun id h => hu id (hr id ?_), fun id h => by cases h⟩
      cases r with
      | ok id' => exact congrArg _ (Option.some.inj h)
      | error e => cases h
  | resolve =>
      refine Prog.Among.bind PinKept.refl ((resolve_judged s).mono (fun _ _ h => h) ?_
        fun _ _ h => h)
      intro r t hr u hu
      exact ⟨fun id h => hu id (hr id h), fun id h => by cases h⟩
  | authenticate key =>
      refine Prog.Among.bind PinKept.refl ((authenticate_judged key s).mono (fun _ _ h => h) ?_
        fun _ _ h => h)
      intro r t hr u hu
      refine ⟨fun id h => hu id (hr.1 id h), fun id h => ?_⟩
      have hmaster : r.2.is_master = true := by
        by_contra hm
        simp [Outcome.left_master, hm] at h
      have hid : r.2.id = id := by simpa [Outcome.left_master, hmaster] using h
      exact hid ▸ hu _ (hr.2 hmaster)

end Judgement

/-- **One master per process.** In every schedule of any number of calls and edits in which no call
is beaten to the cell by another answer, all identifiers the calls have returned as the master are
equal, and so are those of the keys they have left with `is_master`. -/
theorem one_master_per_process {τ : Type} [DecidableEq τ] (calls : τ → Call) (s : Shared)
    (schedule : List (Turn τ MasterView))
    (h : Along turn Unbeaten schedule (calling calls s)) :
    (∀ i j a b, (final turn schedule (calling calls s)).thread i = .ret a →
      (final turn schedule (calling calls s)).thread j = .ret b →
        ∀ id id', a.master = some id → b.master = some id' → id = id') ∧
    ∀ i j a b, (final turn schedule (calling calls s)).thread i = .ret a →
      (final turn schedule (calling calls s)).thread j = .ret b →
        ∀ id id', a.left_master = some id → b.left_master = some id' → id = id' := by
  have start : (calling calls s).Among shared (fun _ => PinKept) (fun _ => Writes)
      (fun _ _ _ => True) (fun _ r t => (∀ id, r.master = some id → t.pin.cell = some id) ∧
        ∀ id, r.left_master = some id → t.pin.cell = some id) (fun _ _ _ => True) :=
    fun i => (calls i).judged s
  have fair : Along turn (Pool.Fair shared edit (fun _ => PinKept) (fun _ => Writes)
      (fun _ _ _ => True)) schedule (calling calls s) := by
    refine h.mono fun w P hw => ?_
    cases w with
    | outside view => exact fun _ id hid => hid
    | of i =>
        intro o ho
        refine ⟨fun id heq => hw i id rfl (heq ▸ ho), fun _ j _ => PinKept.after o P.store⟩
  have judged := fair.among (fun _ => PinKept.refl) (fun _ => PinKept.trans) start
  constructor
  · intro i j a b hi hj id id' ha hb
    have hcell := (judged.ended (fun _ => PinKept.refl) hi).1 id ha
    have hcell' := (judged.ended (fun _ => PinKept.refl) hj).1 id' hb
    exact Option.some.inj (hcell.symm.trans hcell')
  · intro i j a b hi hj id id' ha hb
    have hcell := (judged.ended (fun _ => PinKept.refl) hi).2 id ha
    have hcell' := (judged.ended (fun _ => PinKept.refl) hj).2 id' hb
    exact Option.some.inj (hcell.symm.trans hcell')

/-- A call at boot, and a request of the key 2 that claims to be master. -/
def boot_and_claim : Fin 2 → Call
  | 0 => .pin_at_boot
  | 1 => .authenticate { ApiKey.sample 2 with is_master := true }

/-- The process starts. The key 1 is the one master of the table. -/
def starting : Shared := ⟨.new, ⟨.ok [1], .ok true⟩⟩

/-- The call at boot has read the table when the column moves from the key 1 to the key 2. The
request resolves the master, and the call at boot finds the cell written. -/
def overtaken : List (Turn (Fin 2) MasterView) :=
  [.of 0, .of 0, .outside ⟨.ok [2], .ok true⟩, .of 1, .of 1, .of 1, .of 1, .of 0, .of 0]

/-- Two masters: 1 for the call at boot, 2 for the request. -/
theorem two_masters_in_one_process :
    ¬ ∀ (τ : Type) [DecidableEq τ] (calls : τ → Call) (s : Shared)
      (schedule : List (Turn τ MasterView)) (i j : τ) (a b : Outcome),
      (final turn schedule (calling calls s)).thread i = .ret a →
      (final turn schedule (calling calls s)).thread j = .ret b →
        ∀ id id', a.master = some id → b.master = some id' → id = id' := by
  intro all
  have hboot : (final turn overtaken (calling boot_and_claim starting)).thread 0 =
      .ret (.booted (.ok 1)) := rfl
  have hclaim : (final turn overtaken (calling boot_and_claim starting)).thread 1 =
      .ret (.authenticated (some 2) { ApiKey.sample 2 with is_master := true }) := rfl
  have heq : (1 : Uuid) = 2 := all (Fin 2) _ _ _ _ _ _ _ hboot hclaim 1 2 rfl rfl
  exact absurd heq (by decide)

/-- The column moves after the call at boot has written the cell. The request is an ordinary one. -/
def settled : List (Turn (Fin 2) MasterView) :=
  [.of 0, .of 0, .of 0, .of 0, .outside ⟨.ok [2], .ok true⟩, .of 1]

theorem unbeaten_settled :
    Along turn Unbeaten settled (calling boot_and_claim starting) := by
  refine ⟨?_, ?_, ?_, ?_, ?_, ?_, trivial⟩
  all_goals
    intro i id hw hp
    cases hw
  · cases hp
  · cases hp
  · cases hp
  · exact .inl rfl
  · cases hp

theorem one_master_when_settled :
    (final turn settled (calling boot_and_claim starting)).thread 1 =
        .ret (.authenticated (some 1) (ApiKey.sample 2)) ∧ (1 : Uuid) = 1 :=
  ⟨rfl, (one_master_per_process boot_and_claim starting settled unbeaten_settled).1
    0 1 (.booted (.ok 1)) (.authenticated (some 1) (ApiKey.sample 2)) rfl rfl 1 1 rfl rfl⟩

end MasterPin

end IpVault
