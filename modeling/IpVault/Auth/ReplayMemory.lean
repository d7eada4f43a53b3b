import IpVault.Auth.Ledger

set_option autoImplicit false

/-! # What the replay guard remembers

The guard keeps an entry until a sweep that comes after its expiry. Each sweep, whichever schedule it
is on, puts the next routine one off by a quarter of the window, so that `next` is never more than that
away and no entry has expired more than that before it (`Bounded`). A sweep on the routine schedule does
not come before `next`, and one on account of the capacity not before `next_capacity`; neither deadline
ever moves back.
-/

namespace IpVault

open Lib

namespace ReplayGuard

variable {g : ReplayGuard} {now : Int} {id : SignatureId}

/-- A sweep: when, and whether the ceiling was the reason. -/
structure Sweep where
  at_instant : Int
  by_capacity : Bool
  deriving DecidableEq

/-- `capacity_due`, in a call at `now`. -/
def capacity_due (g : ReplayGuard) (now : Int) : Bool :=
  g.over_capacity && decide (g.next_capacity ≤ now)

/-- The sweep of a call at `now`, if it makes one. -/
def sweep_at (g : ReplayGuard) (now : Int) : Option Sweep :=
  if (g.reschedule g.over_capacity now).1 then some ⟨now, g.capacity_due now⟩ else none

/-- The sweeps of a run, in order. -/
def sweeps : List (Int × SignatureId) → ReplayGuard → List Sweep
  | [], _ => []
  | call :: rest, g => (g.sweep_at call.1).toList ++ sweeps rest (ask call g).2

/-- The calls of a run that recorded their signature, in order. -/
def recorded : List (Int × SignatureId) → ReplayGuard → List (Int × SignatureId)
  | [], _ => []
  | call :: rest, g =>
      if (ask call g).1 then call :: recorded rest (ask call g).2 else recorded rest (ask call g).2

/-! ## One call -/

/-- **What a call does with the schedules.** It leaves them, before either deadline; or it sweeps. -/
theorem prune_cases (g : ReplayGuard) (now : Int) :
    (g.sweep_at now = none ∧ now < g.next ∧ g.prune_if_due now = g) ∨
      (g.sweep_at now = some ⟨now, g.capacity_due now⟩ ∧
        (g.next ≤ now ∨ g.capacity_due now = true) ∧
        g.prune_if_due now = { g with
          seen := g.seen.filter fun e => now < e.expires_at
          next := now + g.prune_interval
          next_capacity :=
            if g.capacity_due now then now + g.capacity_backoff else g.next_capacity }) := by
  have hcapacity : (g.over_capacity && decide (g.next_capacity ≤ now)) = g.capacity_due now := rfl
  unfold sweep_at prune_if_due reschedule retain
  rw [hcapacity]
  by_cases hroutine : g.next ≤ now
  · refine .inr ⟨?_, .inl hroutine, ?_⟩ <;> simp [hroutine]
  · cases hdue : g.capacity_due now with
    | true => refine .inr ⟨?_, .inr rfl, ?_⟩ <;> simp [hroutine]
    | false => refine .inl ⟨?_, by omega, ?_⟩ <;> simp [hroutine]

/-- The last section, seen from outside: the schedules are as they were, and the entries are old ones
or the one it records. -/
theorem mem_of_record {e : SeenEntry} (h : e ∈ (g.record id now).2.seen) :
    e ∈ g.seen ∨ (g.record id now).1 = true ∧ e = ⟨id, now + g.window⟩ := by
  unfold record at h ⊢
  split at h
  · exact .inl h
  · rw [if_neg ‹_›]
    rcases Table.mem_insert.mp h with h | ⟨-, rfl⟩
    · exact .inl (Table.mem_filter.mp h).1
    · exact .inr ⟨rfl, rfl⟩

theorem record_schedule (g : ReplayGuard) (id : SignatureId) (now : Int) :
    (g.record id now).2.next = g.next ∧ (g.record id now).2.next_capacity = g.next_capacity ∧
      (g.record id now).2.capacity_backoff = g.capacity_backoff := by
  unfold record
  split <;> exact ⟨rfl, rfl, rfl⟩

/-- An entry after a call is one from before, or the call recorded it. -/
theorem mem_ask {call : Int × SignatureId} {e : SeenEntry} (h : e ∈ (ask call g).2.seen) :
    e ∈ g.seen ∨ (ask call g).1 = true ∧ e = ⟨call.2, call.1 + g.window⟩ := by
  rcases mem_of_record h with h | ⟨hanswer, rfl⟩
  · exact .inl (mem_of_mem_prune h)
  · exact .inr ⟨hanswer, by rw [prune_window]⟩

/-! ## The invariant -/

/-- The intervals of a guard. -/
structure Paced (g : ReplayGuard) : Prop where
  positive : 0 < g.capacity_backoff
  quarter : g.prune_interval = 4 * g.capacity_backoff
  whole : g.window = 16 * g.capacity_backoff

/-- At the instant `now` the next routine sweep is at most a quarter of the window away, and no entry
had expired a quarter of the window before it. -/
structure Bounded (g : ReplayGuard) (now : Int) : Prop extends Paced g where
  next : g.next ≤ now + g.prune_interval
  entries : ∀ e ∈ g.seen, g.next < e.expires_at + g.prune_interval

theorem new_bounded (window_seconds started : Int) : (new window_seconds started).Bounded started where
  positive := by
    show 0 < max 1 (min 3600 window_seconds) * 1000000000 / 16
    omega
  quarter := by
    show max 1 (min 3600 window_seconds) * 1000000000 / 4 =
      4 * (max 1 (min 3600 window_seconds) * 1000000000 / 16)
    omega
  whole := by
    show max 1 (min 3600 window_seconds) * 1000000000 =
      16 * (max 1 (min 3600 window_seconds) * 1000000000 / 16)
    omega
  next := le_refl _
  entries e he := by cases he

theorem Bounded.prune {before : Int} (h : g.Bounded before) (hle : before ≤ now) :
    (g.prune_if_due now).Bounded now ∧ now < (g.prune_if_due now).next := by
  have hpositive := h.positive
  have hquarter := h.quarter
  have hnext := h.next
  rcases prune_cases g now with ⟨-, hearly, heq⟩ | ⟨-, -, heq⟩
  · rw [heq]
    exact ⟨⟨h.toPaced, by omega, h.entries⟩, hearly⟩
  · rw [heq]
    refine ⟨⟨⟨h.positive, h.quarter, h.whole⟩, le_refl _, fun e he => ?_⟩, ?_⟩
    · have hlive : now < e.expires_at := by simpa using (Table.mem_filter.mp he).2
      show now + g.prune_interval < e.expires_at + g.prune_interval
      omega
    · show now < now + g.prune_interval
      omega

theorem Bounded.record (h : g.Bounded now) (id : SignatureId) :
    (g.record id now).2.Bounded now := by
  have hpositive := h.positive
  have hquarter := h.quarter
  have hwhole := h.whole
  have hnext := h.next
  unfold ReplayGuard.record
  split
  · exact h
  · refine ⟨⟨hpositive, hquarter, hwhole⟩, hnext, fun e he => ?_⟩
    show g.next < e.expires_at + g.prune_interval
    rcases Table.mem_insert.mp he with he | ⟨-, rfl⟩
    · exact h.entries e (Table.mem_filter.mp he).1
    · show g.next < now + g.window + g.prune_interval
      omega

/-- **A call keeps the invariant**, and the next routine sweep is still to come. -/
theorem Bounded.after_ask {before : Int} (h : g.Bounded before) {call : Int × SignatureId}
    (hle : before ≤ call.1) :
    (ask call g).2.Bounded call.1 ∧ call.1 < (ask call g).2.next := by
  obtain ⟨hpruned, hearly⟩ := h.prune hle
  obtain ⟨hnext, -, -⟩ := record_schedule (g.prune_if_due call.1) call.2 call.1
  exact ⟨hpruned.record call.2, hearly.trans_eq hnext.symm⟩

/-! ## Runs -/

/-- Instants that do not decrease, from `started` on. -/
def Chronological (started : Int) (calls : List (Int × SignatureId)) : Prop :=
  (started :: calls.map Prod.fst).Pairwise (· ≤ ·)

instance (started : Int) (calls : List (Int × SignatureId)) :
    Decidable (Chronological started calls) :=
  inferInstanceAs (Decidable (List.Pairwise _ _))

theorem Chronological.cons {started : Int} {call : Int × SignatureId}
    {rest : List (Int × SignatureId)} (h : Chronological started (call :: rest)) :
    started ≤ call.1 ∧ Chronological call.1 rest :=
  ⟨(List.pairwise_cons.mp h).1 _ List.mem_cons_self, (List.pairwise_cons.mp h).2⟩

theorem ask_window (call : Int × SignatureId) (g : ReplayGuard) :
    (ask call g).2.window = g.window := check_window g call.1 call.2

theorem final_window (calls : List (Int × SignatureId)) (g : ReplayGuard) :
    (final ask calls g).window = g.window := by
  induction calls generalizing g with
  | nil => rfl
  | cons call rest ih => exact (ih _).trans (ask_window call g)

/-- Every entry after a run was there before, or has been recorded in it, one window before it
expires. -/
theorem mem_final {calls : List (Int × SignatureId)} {e : SeenEntry}
    (h : e ∈ (final ask calls g).seen) :
    e ∈ g.seen ∨ ∃ t, (t, e.id) ∈ recorded calls g ∧ e.expires_at = t + g.window := by
  induction calls generalizing g with
  | nil => exact .inl h
  | cons call rest ih =>
      rcases ih h with h | ⟨t, hmem, ht⟩
      · rcases mem_ask h with h | ⟨hanswer, rfl⟩
        · exact .inl h
        · refine .inr ⟨call.1, ?_, rfl⟩
          rw [recorded, if_pos hanswer]
          exact List.mem_cons_self
      · refine .inr ⟨t, ?_, by rw [ht, ask_window]⟩
        rw [recorded]
        split
        · exact List.mem_cons_of_mem _ hmem
        · exact hmem

/-- After a run that ends with a call, the next routine sweep is still to come. -/
theorem final_bounded {started : Int} {calls : List (Int × SignatureId)} {call : Int × SignatureId}
    (h : g.Bounded started) (hcalls : Chronological started (calls ++ [call])) :
    (final ask (calls ++ [call]) g).Bounded call.1 ∧
      call.1 < (final ask (calls ++ [call]) g).next := by
  induction calls generalizing g started with
  | nil => exact h.after_ask hcalls.cons.1
  | cons first rest ih => exact ih (h.after_ask hcalls.cons.1).1 hcalls.cons.2

/-- Neither deadline moves back, and a sweep puts off the one it is on. -/
structure PutOff (g g' : ReplayGuard) (sweep : Option Sweep) : Prop where
  next : g.next ≤ g'.next
  next_capacity : g.next_capacity ≤ g'.next_capacity
  backoff : g'.capacity_backoff = g.capacity_backoff
  routine : ∀ s ∈ sweep, s.by_capacity = false →
    g.next ≤ s.at_instant ∧ g'.next = s.at_instant + 4 * g.capacity_backoff
  capacity : ∀ s ∈ sweep, s.by_capacity = true →
    g.next_capacity ≤ s.at_instant ∧ g'.next_capacity = s.at_instant + g.capacity_backoff

theorem Bounded.put_off {before : Int} (h : g.Bounded before) {call : Int × SignatureId}
    (hle : before ≤ call.1) : g.PutOff (ask call g).2 (g.sweep_at call.1) := by
  obtain ⟨hnext, hcapacity, hbackoff⟩ := record_schedule (g.prune_if_due call.1) call.2 call.1
  have hpositive := h.positive
  have hquarter := h.quarter
  have hdeadline := h.next
  have hdue : g.capacity_due call.1 = true → g.next_capacity ≤ call.1 := by
    intro hdue
    exact of_decide_eq_true (Bool.and_eq_true_iff.mp hdue).2
  rcases prune_cases g call.1 with ⟨hsweep, -, heq⟩ | ⟨hsweep, hwhy, heq⟩
  · have hnext : (ReplayGuard.ask call g).2.next = g.next := hnext.trans (by rw [heq])
    have hcapacity : (ReplayGuard.ask call g).2.next_capacity = g.next_capacity :=
      hcapacity.trans (by rw [heq])
    rw [hsweep]
    exact ⟨hnext.ge, hcapacity.ge, hbackoff.trans (by rw [heq]), fun s hs => (by cases hs),
      fun s hs => (by cases hs)⟩
  · have hnext : (ReplayGuard.ask call g).2.next = call.1 + g.prune_interval :=
      hnext.trans (by rw [heq])
    have hcapacity : (ReplayGuard.ask call g).2.next_capacity =
        if g.capacity_due call.1 then call.1 + g.capacity_backoff else g.next_capacity :=
      hcapacity.trans (by rw [heq])
    rw [hsweep]
    refine ⟨by omega, ?_, hbackoff.trans (by rw [heq]), ?_, ?_⟩
    · rw [hcapacity]
      split
      · have := hdue ‹_›
        omega
      · exact le_refl _
    · intro s hs hroutine
      obtain rfl := Option.some.inj hs
      have hnot : g.capacity_due call.1 = false := hroutine
      rw [hnot] at hwhy
      refine ⟨hwhy.resolve_right Bool.false_ne_true, ?_⟩
      rw [hnext, hquarter]
    · intro s hs hby
      obtain rfl := Option.some.inj hs
      have hcap : g.capacity_due call.1 = true := hby
      rw [hcap, if_pos rfl] at hcapacity
      exact ⟨hdue hcap, hcapacity⟩

/-- No sweep of a run comes before the deadline it is on. -/
theorem sweeps_not_early {started : Int} {calls : List (Int × SignatureId)} (h : g.Bounded started)
    (hcalls : Chronological started calls) {s : Sweep} (hs : s ∈ sweeps calls g) :
    (s.by_capacity = false → g.next ≤ s.at_instant) ∧
      (s.by_capacity = true → g.next_capacity ≤ s.at_instant) := by
  induction calls generalizing g started with
  | nil => cases hs
  | cons call rest ih =>
      have hput := h.put_off hcalls.cons.1
      rcases List.mem_append.mp hs with hs | hs
      · have hs := Option.mem_toList.mp hs
        exact ⟨fun hr => (hput.routine s hs hr).1, fun hc => (hput.capacity s hs hc).1⟩
      · obtain ⟨hroutine, hcapacity⟩ := ih (h.after_ask hcalls.cons.1).1 hcalls.cons.2 hs
        exact ⟨fun hr => hput.next.trans (hroutine hr),
          fun hc => hput.next_capacity.trans (hcapacity hc)⟩

/-- **Sweeps are apart**: by a quarter of the window on the routine schedule, by a sixteenth on account
of the capacity. -/
theorem sweeps_apart {started : Int} {calls : List (Int × SignatureId)} (h : g.Bounded started)
    (hcalls : Chronological started calls) :
    (sweeps calls g).Pairwise fun s s' =>
      (s.by_capacity = false → s'.by_capacity = false →
        s.at_instant + 4 * g.capacity_backoff ≤ s'.at_instant) ∧
      (s.by_capacity = true → s'.by_capacity = true →
        s.at_instant + g.capacity_backoff ≤ s'.at_instant) := by
  induction calls generalizing g started with
  | nil => exact .nil
  | cons call rest ih =>
      have hput := h.put_off hcalls.cons.1
      have hrest := ih (h.after_ask hcalls.cons.1).1 hcalls.cons.2
      rw [hput.backoff] at hrest
      refine List.pairwise_append.mpr ⟨?_, hrest, fun s hs s' hs' => ?_⟩
      · cases g.sweep_at call.1 with
        | none => exact .nil
        | some s => exact List.pairwise_singleton _ s
      · have hs := Option.mem_toList.mp hs
        obtain ⟨hroutine, hcapacity⟩ :=
          sweeps_not_early (h.after_ask hcalls.cons.1).1 hcalls.cons.2 hs'
        exact ⟨fun hr hr' => (hput.routine s hs hr).2 ▸ hroutine hr',
          fun hc hc' => (hput.capacity s hs hc).2 ▸ hcapacity hc'⟩

/-- **The memory of the guard is bounded.** After each call every entry was recorded less than five
quarters of the window before it, and sweeps on one schedule are apart. -/
theorem memory_bounded (window_seconds started : Int) (calls : List (Int × SignatureId))
    (hcalls : Chronological started calls) :
    (∀ earlier call later, calls = earlier ++ call :: later →
      ∀ e ∈ (final ask (earlier ++ [call]) (new window_seconds started)).seen,
        ∃ t, (t, e.id) ∈ recorded (earlier ++ [call]) (new window_seconds started) ∧
          e.expires_at = t + (new window_seconds started).window ∧
          4 * (call.1 - t) < 5 * (new window_seconds started).window) ∧
    (sweeps calls (new window_seconds started)).Pairwise fun s s' =>
      (s.by_capacity = false → s'.by_capacity = false →
        (new window_seconds started).window ≤ 4 * (s'.at_instant - s.at_instant)) ∧
      (s.by_capacity = true → s'.by_capacity = true →
        (new window_seconds started).window ≤ 16 * (s'.at_instant - s.at_instant)) := by
  have start := new_bounded window_seconds started
  have hwhole := start.whole
  constructor
  · intro earlier call later hsplit e he
    have hsome : Chronological started (earlier ++ [call]) := by
      rw [hsplit] at hcalls
      refine hcalls.sublist (List.Sublist.cons_cons started (List.Sublist.map _ ?_))
      exact List.Sublist.append_left ((List.nil_sublist later).cons_cons call) earlier
    obtain ⟨hbounded, hearly⟩ := final_bounded start hsome
    have hentry := hbounded.entries e he
    have hquarter := hbounded.quarter
    have hwindow := hbounded.whole
    rw [final_window] at hwindow
    rcases mem_final he with hold | ⟨t, hmem, ht⟩
    · cases hold
    · refine ⟨t, hmem, ht, ?_⟩
      omega
  · refine (sweeps_apart start hcalls).imp fun {s s'} h => ⟨fun hr hr' => ?_, fun hc hc' => ?_⟩
    · have := h.1 hr hr'
      omega
    · have := h.2 hc hc'
      omega

/-- The boundary calls, and one a window and a quarter after the first. -/
def late_calls : List (Int × SignatureId) := boundary_calls ++ [(375000000000, ⟨1, [8]⟩)]

/-- After the last of them, two entries are left, and there have been two sweeps. -/
theorem memory_bounded_late :
    ((sweeps late_calls (new 300 0)).Pairwise fun s s' =>
      (s.by_capacity = false → s'.by_capacity = false →
        (new 300 0).window ≤ 4 * (s'.at_instant - s.at_instant)) ∧
      (s.by_capacity = true → s'.by_capacity = true →
        (new 300 0).window ≤ 16 * (s'.at_instant - s.at_instant))) ∧
      (sweeps late_calls (new 300 0)).map Sweep.at_instant = [299999999999, 375000000000] ∧
      (final ask late_calls (new 300 0)).seen.rows.length = 2 :=
  ⟨(memory_bounded 300 0 late_calls (by decide)).2, by decide, by decide⟩

end ReplayGuard

end IpVault
