import IpVault.Auth.Replay
import IpVault.Lib.Window

set_option autoImplicit false

/-! # The replay guard is a ledger

The guard sweeps on two schedules, keeps expired entries until a sweep comes by and replaces them
when their signature is used again. None of this is seen from outside: an entry counts while it is
alive, a sweep drops none that is alive now or later (`remembers_prune`), and replacing an entry that
has expired takes nothing away (`remembers_record`). What the guard answers is therefore what a
ledger answers that is never swept.
-/

namespace IpVault

open Lib

namespace ReplayGuard

variable {g : ReplayGuard} {now t : Int} {id id' : SignatureId}

/-- A sweep changes nothing of what is remembered from its instant on. -/
theorem remembers_prune (hle : now ≤ t) :
    (g.prune_if_due now).remembers id t = true ↔ g.remembers id t = true := by
  rw [remembers_iff, remembers_iff]
  constructor
  · rintro ⟨e, he, hid, hlt⟩
    exact ⟨e, mem_of_mem_prune he, hid, hlt⟩
  · rintro ⟨e, he, hid, hlt⟩
    exact ⟨e, mem_prune he (by omega), hid, hlt⟩

/-- The answer of the last section. -/
theorem record_answer : (g.record id now).1 = !g.remembers id now := by
  unfold record
  cases g.remembers id now <;> rfl

/-- What is remembered after the last section, from its instant on: what was, and the signature if it
was let through. -/
theorem remembers_record (hle : now ≤ t) :
    (g.record id now).2.remembers id' t = true ↔
      g.remembers id' t = true ∨
        (g.record id now).1 = true ∧ id' = id ∧ t < now + g.window := by
  unfold record
  by_cases hspent : g.remembers id now = true
  · simp [hspent]
  · rw [if_neg hspent]
    -- The entry that is replaced, if there is one, has expired.
    have hexpired : ∀ e ∈ g.seen, e.id = id → e.expires_at ≤ now := by
      intro e he hid
      by_contra hlive
      exact hspent (remembers_iff.mpr ⟨e, he, hid, by omega⟩)
    have hfree : (g.seen.filter fun e => e.id ≠ id).has id = false := by
      rw [Table.has_eq_false]
      intro e he
      simpa using (Table.mem_filter.mp he).2
    rw [remembers_iff, remembers_iff]
    constructor
    · rintro ⟨e, he, rfl, hlt⟩
      rcases Table.mem_insert.mp he with he | ⟨-, rfl⟩
      · exact .inl ⟨e, (Table.mem_filter.mp he).1, rfl, hlt⟩
      · exact .inr ⟨rfl, rfl, hlt⟩
    · rintro (⟨e, he, rfl, hlt⟩ | ⟨-, rfl, hlt⟩)
      · have hother : e.id ≠ id := by
          intro hid
          have := hexpired e he hid
          omega
        exact ⟨e, Table.mem_insert_of_mem (Table.mem_filter.mpr ⟨he, by simpa using hother⟩),
          rfl, hlt⟩
      · exact ⟨⟨id', now + g.window⟩, Table.mem_insert.mpr (.inr ⟨hfree, rfl⟩), rfl, hlt⟩

/-- The guard, asked for one signature after the other. -/
def ask (call : Int × SignatureId) (g : ReplayGuard) : Bool × ReplayGuard :=
  g.check_and_record call.1 call.2

/-- The guard remembers for its window, whatever it sweeps. -/
theorem ask_remembersFor (window : Int) :
    RemembersFor window ask (fun g id t => g.remembers id t = true) fun g => g.window = window where
  valid := by
    rintro g ⟨now, id⟩ rfl
    exact check_window g now id
  answer := by
    intro g now id _
    show ((g.prune_if_due now).record id now).1 = true ↔ _
    rw [record_answer, ← @remembers_prune g now now id (le_refl now)]
    simp
  after := by
    rintro g now id rfl id' t hle
    show ((g.prune_if_due now).record id now).2.remembers id' t = true ↔ _
    rw [remembers_record hle, remembers_prune hle, prune_window]
    rfl

/-- **The guard equals a ledger that never forgets.** -/
theorem answers_eq_ledger (window_seconds started : Int) (calls : List (Int × SignatureId))
    (hcalls : calls.Pairwise fun c c' => c.1 ≤ c'.1) :
    outputs ask calls (new window_seconds started) =
      outputs (let_through (new window_seconds started).window) calls [] := by
  refine (ask_remembersFor _).outputs_eq (admit_remembersFor _) hcalls rfl trivial fun c _ id => ?_
  rw [remembers_iff]
  constructor
  · rintro ⟨e, he, -⟩
    cases he
  · rintro ⟨use, huse, -⟩
    cases huse

/-- One signature at the first instant, the last one it is remembered at, and the one after, twice. -/
def boundary_calls : List (Int × SignatureId) :=
  [(0, ⟨1, [7]⟩), (299999999999, ⟨1, [7]⟩), (300000000000, ⟨1, [7]⟩), (300000000000, ⟨1, [7]⟩)]

/-- It is let through twice, by either. -/
theorem answers_eq_ledger_boundary :
    outputs ask boundary_calls (new 300 0) = outputs (let_through (300 * second)) boundary_calls [] ∧
      outputs ask boundary_calls (new 300 0) = [true, false, true, false] :=
  ⟨answers_eq_ledger 300 0 boundary_calls (by decide), by decide⟩

end ReplayGuard

end IpVault
