import IpVault.Lib.Table
import IpVault.Schema.Entities

set_option autoImplicit false

/-! # The replay guard (`replay.rs`)

The map of accepted signatures and the schedule of its sweeps. `check_and_record` is the
composition of the sections its locks protect: it reads the size of the map, decides from the
schedule whether a sweep is due, sweeps, and last looks up and records the signature.
-/

namespace IpVault

open Lib

/-- `SignatureId`: an accepted signature. -/
structure SignatureId where
  key_id : Uuid
  digest : List UInt8
  deriving DecidableEq

/-- One entry of the map: a signature and the instant it stops being remembered. -/
structure SeenEntry where
  id : SignatureId
  expires_at : Int
  deriving DecidableEq

/-- `ReplayGuard`, with its `PruneSchedule`. -/
structure ReplayGuard where
  seen : Table SeenEntry.id
  next : Int
  next_capacity : Int
  window : Int
  prune_interval : Int
  capacity_backoff : Int

namespace ReplayGuard

def PRUNE_INTERVAL_DIVISOR : Int := 4
def CAPACITY_BACKOFF_DIVISOR : Int := 16
def MAX_TRACKED_SIGNATURES : Nat := 100000

/-- The nanoseconds of a second. -/
def second : Int := 1000000000

/-- `ReplayGuard::new`, at the instant `now`. -/
def new (window_seconds : Int) (now : Int) : ReplayGuard :=
  let window := max 1 (min 3600 window_seconds) * second
  { seen := .empty
    next := now + window / PRUNE_INTERVAL_DIVISOR
    next_capacity := now
    window := window
    prune_interval := window / PRUNE_INTERVAL_DIVISOR
    capacity_backoff := window / CAPACITY_BACKOFF_DIVISOR }

/-- First section of `prune_if_due`: whether the map has reached its ceiling. -/
def over_capacity (g : ReplayGuard) : Bool := decide (MAX_TRACKED_SIGNATURES ≤ g.seen.rows.length)

/-- Second section: whether a sweep is due, and the schedule after the decision. -/
def reschedule (g : ReplayGuard) (over_capacity : Bool) (now : Int) : Bool × ReplayGuard :=
  let routine_due := decide (g.next ≤ now)
  let capacity_due := over_capacity && decide (g.next_capacity ≤ now)
  if !routine_due && !capacity_due then (false, g)
  else
    (true,
      { g with
        next := now + g.prune_interval
        next_capacity := if capacity_due then now + g.capacity_backoff else g.next_capacity })

/-- Third section: the sweep. -/
def retain (g : ReplayGuard) (now : Int) : ReplayGuard :=
  { g with seen := g.seen.filter fun e => now < e.expires_at }

/-- `prune_if_due`. -/
def prune_if_due (g : ReplayGuard) (now : Int) : ReplayGuard :=
  let (due, g) := g.reschedule g.over_capacity now
  if due then g.retain now else g

/-- Whether the map holds a live entry for the signature. -/
def remembers (g : ReplayGuard) (id : SignatureId) (now : Int) : Bool :=
  (g.seen.find? id).any fun e => now < e.expires_at

/-- Last section: look up, then insert or refuse. `HashMap::insert` replaces an entry that is
there. -/
def record (g : ReplayGuard) (id : SignatureId) (now : Int) : Bool × ReplayGuard :=
  if g.remembers id now then (false, g)
  else
    (true,
      { g with seen := (g.seen.filter fun e => e.id ≠ id).insert ⟨id, now + g.window⟩ })

/-- `check_and_record`: whether this is the first use of the signature. -/
def check_and_record (g : ReplayGuard) (now : Int) (id : SignatureId) : Bool × ReplayGuard :=
  (g.prune_if_due now).record id now

/-! ## What one call does -/

/-- The guard holds an entry for `id` that lives at least until `t`. -/
def Holds (g : ReplayGuard) (id : SignatureId) (t : Int) : Prop :=
  ∃ e ∈ g.seen, e.id = id ∧ t ≤ e.expires_at

@[simp] theorem reschedule_seen (g : ReplayGuard) (b : Bool) (now : Int) :
    (g.reschedule b now).2.seen = g.seen := by
  unfold reschedule
  simp only
  split <;> rfl

@[simp] theorem reschedule_window (g : ReplayGuard) (b : Bool) (now : Int) :
    (g.reschedule b now).2.window = g.window := by
  unfold reschedule
  simp only
  split <;> rfl

@[simp] theorem prune_window (g : ReplayGuard) (now : Int) :
    (g.prune_if_due now).window = g.window := by
  unfold prune_if_due
  simp only
  split
  · exact reschedule_window g _ now
  · exact reschedule_window g _ now

@[simp] theorem check_window (g : ReplayGuard) (now : Int) (id : SignatureId) :
    (g.check_and_record now id).2.window = g.window := by
  unfold check_and_record record
  split
  · exact prune_window g now
  · exact prune_window g now

/-- A sweep drops nothing that is still alive. -/
theorem mem_prune {g : ReplayGuard} {now : Int} {e : SeenEntry} (he : e ∈ g.seen)
    (h : now < e.expires_at) : e ∈ (g.prune_if_due now).seen := by
  unfold prune_if_due
  simp only
  split
  · exact Table.mem_filter.mpr ⟨by rwa [reschedule_seen], by simpa using h⟩
  · rwa [reschedule_seen]

theorem mem_of_mem_prune {g : ReplayGuard} {now : Int} {e : SeenEntry}
    (he : e ∈ (g.prune_if_due now).seen) : e ∈ g.seen := by
  unfold prune_if_due at he
  simp only at he
  split at he
  · have := (Table.mem_filter.mp he).1
    rwa [reschedule_seen] at this
  · rwa [reschedule_seen] at he

theorem remembers_iff {g : ReplayGuard} {id : SignatureId} {now : Int} :
    g.remembers id now = true ↔ ∃ e ∈ g.seen, e.id = id ∧ now < e.expires_at := by
  unfold remembers
  rw [Option.any_eq_true]
  constructor
  · rintro ⟨e, he, hlt⟩
    obtain ⟨hm, hid⟩ := Table.find?_eq_some.mp he
    exact ⟨e, hm, hid, by simpa using hlt⟩
  · rintro ⟨e, he, rfl, hlt⟩
    exact ⟨e, Table.find?_key he, by simpa using hlt⟩

/-- A signature the guard still holds is refused. -/
theorem refused_of_holds {g : ReplayGuard} {id : SignatureId} {now t : Int} (h : g.Holds id t)
    (hlt : now < t) : (g.check_and_record now id).1 = false := by
  obtain ⟨e, he, hid, hle⟩ := h
  have hrem : (g.prune_if_due now).remembers id now = true :=
    remembers_iff.mpr ⟨e, mem_prune he (by omega), hid, by omega⟩
  unfold check_and_record record
  rw [if_pos hrem]

/-- What the guard holds until `t` it still holds after a call made before `t`. -/
theorem holds_after {g : ReplayGuard} {id id' : SignatureId} {now t : Int} (h : g.Holds id t)
    (hlt : now < t) : (g.check_and_record now id').2.Holds id t := by
  obtain ⟨e, he, hid, hle⟩ := h
  have he' : e ∈ (g.prune_if_due now).seen := mem_prune he (by omega)
  unfold check_and_record record
  by_cases hr : (g.prune_if_due now).remembers id' now = true
  · rw [if_pos hr]
    exact ⟨e, he', hid, hle⟩
  · rw [if_neg hr]
    refine ⟨e, Table.mem_insert_of_mem (Table.mem_filter.mpr ⟨he', ?_⟩), hid, hle⟩
    have hne : e.id ≠ id' := by
      rintro rfl
      exact hr (remembers_iff.mpr ⟨e, he', rfl, by omega⟩)
    simpa using hne

/-- An accepted signature is held for one window. -/
theorem holds_accepted {g : ReplayGuard} {id : SignatureId} {now : Int}
    (h : (g.check_and_record now id).1 = true) :
    (g.check_and_record now id).2.Holds id (now + g.window) := by
  unfold check_and_record record at h ⊢
  by_cases hr : (g.prune_if_due now).remembers id now = true
  · rw [if_pos hr] at h
    cases h
  · rw [if_neg hr]
    refine ⟨⟨id, now + (g.prune_if_due now).window⟩, ?_, rfl, by simp⟩
    refine Table.mem_insert.mpr (.inr ⟨?_, rfl⟩)
    rw [Table.has_eq_false]
    intro e he
    simpa using (Table.mem_filter.mp he).2

/-- A guard that holds nothing alive for a signature accepts it. -/
theorem accepted_of_expired {g : ReplayGuard} {id : SignatureId} {now : Int}
    (h : ∀ e ∈ g.seen, e.id = id → e.expires_at ≤ now) : (g.check_and_record now id).1 = true := by
  unfold check_and_record record
  rw [if_neg]
  intro hr
  obtain ⟨e, he, hid, hlt⟩ := remembers_iff.mp hr
  have := h e (mem_of_mem_prune he) hid
  omega

end ReplayGuard

end IpVault
