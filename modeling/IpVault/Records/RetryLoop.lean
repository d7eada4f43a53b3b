import IpVault.Records.Visibility

set_option autoImplicit false

/-! # The retry loop of ban and whitelist

`handle_ip_upsert` looks its address up and inserts the record where there is none. If the insert meets
the unique constraint, another request has just inserted the address, and the loop tries again. Under
repeatable read this need not help: every read of the transaction is answered from the snapshot its first
read takes, while the constraint sees what is committed. `upsert_loop_returns_iff` says under which
commits of other requests the loop ends.
-/

namespace IpVault

open Lib

/-! ## The loop -/

/-- Where the loop stands: before the read of an attempt, before its insert, or behind the loop, with the
record and the rows it wrote, or an error. -/
inductive LoopPhase where
  | find
  | insert
  | returned (result : Except AppError (Uuid × World))

/-- The committed rows, the snapshot of the transaction, and the place in the loop. -/
structure LoopState where
  committed : World
  snapshot : Option World
  phase : LoopPhase

/-- One database call of the loop. A read is answered from the snapshot, which the first one takes. -/
def UpsertTxn.loop_step (t : UpsertTxn) (s : LoopState) : LoopState :=
  match s.phase with
  | .find =>
      let snapshot := s.snapshot.getD s.committed
      let phase : LoopPhase :=
        match snapshot.record_at t.normalized_address with
        | some record =>
            if record.is_locked then
              .returned (.error (.Forbidden "This IP is protected and cannot be modified"))
            else .returned ((do
              let updated ← Txn.update_record record.id (t.change record)
              pure updated.id : Txn Uuid) s.committed)
        | none => .insert
      { s with snapshot := some snapshot, phase := phase }
  | .insert =>
      match Txn.insert_record t.fresh_record s.committed with
      | .error (.DbError .unique_constraint_violation) => { s with phase := .find }
      | result => { s with phase := .returned result }
  | .returned _ => s

/-- What happens next: a call of the loop, or the commit of another request, which inserts the address
or deletes it. -/
inductive LoopEvent where
  | upsert
  | inserted (record : IpRecord)
  | deleted
  deriving DecidableEq

/-- The committed rows after an event. The loop commits nothing. An insert of an address that is there
fails. -/
def LoopEvent.commit (address : String) : LoopEvent → World → World
  | .upsert, w => w
  | .inserted record, w =>
      match Txn.insert_record { record with target_address := address } w with
      | .ok (_, w') => w'
      | .error _ => w
  | .deleted, w =>
      match Txn.delete_records_where (fun r => r.target_address = address) w with
      | .ok (_, w') => w'
      | .error _ => w

namespace UpsertTxn

/-- The state after an event. -/
def loop_event (t : UpsertTxn) (s : LoopState) (event : LoopEvent) : LoopState :=
  if event = .upsert then t.loop_step s
  else { s with committed := event.commit t.normalized_address s.committed }

section Runs

variable (t : UpsertTxn) (w : World) (schedule : Nat → LoopEvent)

/-- The state after `n` events. -/
def loop_state : Nat → LoopState
  | 0 => ⟨w, none, .find⟩
  | n + 1 => t.loop_event (loop_state n) (schedule n)

/-- What the other requests have committed after `n` events. -/
def committed_by : Nat → World
  | 0 => w
  | n + 1 => (schedule n).commit t.normalized_address (committed_by n)

/-- The calls of the loop among the first `n` events. -/
def calls : Nat → Nat
  | 0 => 0
  | n + 1 => if schedule n = .upsert then calls n + 1 else calls n

/-- The address is committed after `n` events. -/
def Committed (n : Nat) : Prop :=
  ((t.committed_by w schedule n).record_at t.normalized_address).isSome = true

instance (n : Nat) : Decidable (t.Committed w schedule n) :=
  inferInstanceAs (Decidable (_ = true))

/-- The event is a call of the loop that ends it: the first read, if it finds the address, or an insert
that does not. Reads and inserts take turns. -/
def Free (n : Nat) : Prop :=
  schedule n = .upsert ∧
    ((calls schedule n = 0 ∧ t.Committed w schedule n) ∨
      (calls schedule n % 2 = 1 ∧ ¬ t.Committed w schedule n))

/-- The loop has ended. -/
def Returns (n : Nat) : Prop := ∃ result, (t.loop_state w schedule n).phase = .returned result

/-- The loop goes on: reads and inserts take turns, and the snapshot, once taken, lacks the address. -/
structure Retrying (n : Nat) : Prop where
  committed : (t.loop_state w schedule n).committed = t.committed_by w schedule n
  snapshot : calls schedule n = 0 ∧ (t.loop_state w schedule n).snapshot = none ∨
    calls schedule n ≠ 0 ∧ ∃ s, (t.loop_state w schedule n).snapshot = some s ∧
      s.record_at t.normalized_address = none
  phase : calls schedule n % 2 = 0 ∧ (t.loop_state w schedule n).phase = .find ∨
    calls schedule n % 2 = 1 ∧ (t.loop_state w schedule n).phase = .insert

end Runs

section Steps

variable {t : UpsertTxn} {w : World} {schedule : Nat → LoopEvent} {n : Nat}

theorem retrying_zero : t.Retrying w schedule 0 :=
  ⟨rfl, .inl ⟨rfl, rfl⟩, .inl ⟨rfl, rfl⟩⟩

theorem loop_state_call (h : schedule n = .upsert) :
    t.loop_state w schedule (n + 1) = t.loop_step (t.loop_state w schedule n) ∧
      t.committed_by w schedule (n + 1) = t.committed_by w schedule n ∧
      calls schedule (n + 1) = calls schedule n + 1 := by
  refine ⟨if_pos h, ?_, if_pos h⟩
  show (schedule n).commit _ _ = _
  rw [h]
  rfl

/-- A commit of another request leaves the loop where it is. -/
theorem Retrying.commit (h : t.Retrying w schedule n) (hevent : schedule n ≠ .upsert) :
    t.Retrying w schedule (n + 1) := by
  have hstate : t.loop_state w schedule (n + 1) = { t.loop_state w schedule n with
      committed := (schedule n).commit t.normalized_address
        (t.loop_state w schedule n).committed } := if_neg hevent
  have hcalls : calls schedule (n + 1) = calls schedule n := if_neg hevent
  refine ⟨?_, ?_, ?_⟩
  · rw [hstate]
    show (schedule n).commit _ _ = (schedule n).commit _ _
    rw [h.committed]
  · rw [hstate, hcalls]
    exact h.snapshot
  · rw [hstate, hcalls]
    exact h.phase

/-- A read: the first one takes the snapshot, and ends the loop if it finds the address. -/
theorem loop_step_find {s : LoopState} (hphase : s.phase = .find) :
    (t.loop_step s).committed = s.committed ∧
      (t.loop_step s).snapshot = some (s.snapshot.getD s.committed) ∧
      (((s.snapshot.getD s.committed).record_at t.normalized_address = none →
        (t.loop_step s).phase = .insert) ∧
      ∀ record, (s.snapshot.getD s.committed).record_at t.normalized_address = some record →
        ∃ result, (t.loop_step s).phase = .returned result) := by
  unfold loop_step
  rw [hphase]
  refine ⟨rfl, rfl, fun hnone => ?_, fun record hrecord => ?_⟩
  · simp only [hnone]
  · simp only [hrecord]
    by_cases hlocked : record.is_locked = true
    · rw [if_pos hlocked]
      exact ⟨_, rfl⟩
    · rw [if_neg hlocked]
      exact ⟨_, rfl⟩

/-- An insert: it ends the loop unless the address is committed. -/
theorem loop_step_insert {s : LoopState} (hphase : s.phase = .insert) :
    ((s.committed.record_at t.normalized_address).isSome = true →
      t.loop_step s = { s with phase := .find }) ∧
      ((s.committed.record_at t.normalized_address).isSome = false →
        ∃ result, (t.loop_step s).phase = .returned result) := by
  unfold loop_step
  rw [hphase]
  refine ⟨fun hsome => ?_, fun hnone => ?_⟩
  · have hviolation : Txn.insert_record t.fresh_record s.committed =
        .error (.DbError .unique_constraint_violation) := if_pos hsome
    simp only [hviolation]
  · have hinsert : ∃ result, Txn.insert_record t.fresh_record s.committed = .ok result :=
      ⟨_, if_neg (by rw [show t.fresh_record.target_address = t.normalized_address from rfl, hnone]
                     exact Bool.false_ne_true)⟩
    obtain ⟨result, hresult⟩ := hinsert
    simp only [hresult]
    exact ⟨_, rfl⟩

/-- A read goes on to an insert if the snapshot lacks the address. -/
theorem Retrying.read (h : t.Retrying w schedule n) (hevent : schedule n = .upsert)
    (hphase : (t.loop_state w schedule n).phase = .find) (heven : calls schedule n % 2 = 0)
    (hlacks : ((t.loop_state w schedule n).snapshot.getD
      (t.loop_state w schedule n).committed).record_at t.normalized_address = none) :
    t.Retrying w schedule (n + 1) := by
  obtain ⟨hstate, hcommitted, hcalls⟩ := @loop_state_call t w schedule n hevent
  obtain ⟨hsame, hsnapshot, hnext, -⟩ := @loop_step_find t _ hphase
  refine ⟨?_, .inr ⟨by omega, _, hstate ▸ hsnapshot, hlacks⟩, .inr ⟨by omega, ?_⟩⟩
  · rw [hstate, hcommitted, hsame]
    exact h.committed
  · rw [hstate]
    exact hnext hlacks

/-- A call of the loop ends it if the way is free, and else the loop goes on. -/
theorem Retrying.call (h : t.Retrying w schedule n) (hevent : schedule n = .upsert) :
    (t.Free w schedule n → t.Returns w schedule (n + 1)) ∧
      (¬ t.Free w schedule n → t.Retrying w schedule (n + 1)) := by
  obtain ⟨hstate, hcommitted, hcalls⟩ := @loop_state_call t w schedule n hevent
  rcases h.phase with ⟨heven, hphase⟩ | ⟨hodd, hphase⟩
  · rcases h.snapshot with ⟨hzero, hnone⟩ | ⟨hpos, s, hsome, hlacks⟩
    · -- The first read takes the snapshot of what is committed.
      have hread : (t.loop_state w schedule n).snapshot.getD
          (t.loop_state w schedule n).committed = t.committed_by w schedule n := by
        rw [hnone, h.committed]
        rfl
      refine ⟨fun hfree => ?_, fun hfree => h.read hevent hphase heven ?_⟩
      · obtain ⟨-, ⟨-, hthere⟩ | ⟨hodd, -⟩⟩ := hfree
        · obtain ⟨record, hrecord⟩ := Option.isSome_iff_exists.mp hthere
          unfold Returns
          rw [hstate]
          exact (loop_step_find hphase).2.2.2 record (by rw [hread, hrecord])
        · omega
      · rw [hread]
        by_contra hthere
        exact hfree ⟨hevent, .inl ⟨hzero, Option.isSome_iff_ne_none.mpr hthere⟩⟩
    · -- A later read is answered from the snapshot.
      refine ⟨fun hfree => ?_, fun _ => h.read hevent hphase heven ?_⟩
      · obtain ⟨-, ⟨hzero, -⟩ | ⟨hodd, -⟩⟩ := hfree
        · exact absurd hzero hpos
        · omega
      · rw [hsome]
        exact hlacks
  · -- The insert sees what is committed, not the snapshot.
    obtain ⟨hagain, hdone⟩ := @loop_step_insert t _ hphase
    rw [h.committed] at hagain hdone
    refine ⟨fun hfree => ?_, fun hfree => ?_⟩
    · obtain ⟨-, ⟨hzero, -⟩ | ⟨-, habsent⟩⟩ := hfree
      · omega
      · unfold Returns
        rw [hstate]
        exact hdone (Bool.eq_false_iff.mpr habsent)
    · have hthere : t.Committed w schedule n := by
        by_contra habsent
        exact hfree ⟨hevent, .inr ⟨hodd, habsent⟩⟩
      -- It fails, and the loop is back at its read, with the snapshot it had.
      have hfind := hagain hthere
      refine ⟨?_, ?_, .inl ⟨by omega, ?_⟩⟩
      · rw [hstate, hcommitted, hfind]
      · obtain ⟨hzero, -⟩ | ⟨hpos, s, hsome, hlacks⟩ := h.snapshot
        · omega
        · refine .inr ⟨by omega, s, ?_, hlacks⟩
          rw [hstate, hfind]
          exact hsome
      · rw [hstate, hfind]

/-- As long as the way is not free, the loop goes on. -/
theorem retrying_of_not_free (h : ∀ m < n, ¬ t.Free w schedule m) : t.Retrying w schedule n := by
  induction n with
  | zero => exact retrying_zero
  | succ n ih =>
      have hbefore := ih fun m hm => h m (Nat.lt_succ_of_lt hm)
      by_cases hevent : schedule n = .upsert
      · exact (hbefore.call hevent).2 (h n (Nat.lt_succ_self n))
      · exact hbefore.commit hevent

theorem Retrying.not_returns (h : t.Retrying w schedule n) : ¬ t.Returns w schedule n := by
  rintro ⟨result, hresult⟩
  rcases h.phase with ⟨-, hphase⟩ | ⟨-, hphase⟩
  · rw [hphase] at hresult
    cases hresult
  · rw [hphase] at hresult
    cases hresult

/-- Alone with the database, the loop does what `record_id` does. -/
theorem loop_alone (t : UpsertTxn) (w : World) :
    (t.loop_state w (fun _ => .upsert) 2).phase = .returned (t.record_id w) := by
  show (t.loop_step (t.loop_step ⟨w, none, .find⟩)).phase = _
  cases hrecord : w.record_at t.normalized_address with
  | none =>
      have hfirst : t.loop_step ⟨w, none, .find⟩ = ⟨w, some w, .insert⟩ := by
        unfold loop_step
        simp only [Option.getD_none, hrecord]
      have hinsert : ∃ result, Txn.insert_record t.fresh_record w = .ok result := by
        refine ⟨_, if_neg ?_⟩
        rw [show t.fresh_record.target_address = t.normalized_address from rfl, hrecord]
        exact Bool.false_ne_true
      obtain ⟨result, hresult⟩ := hinsert
      have hdirect : t.record_id w = .ok result := by
        rw [← hresult]
        simp only [record_id, bind, StateT.bind, Txn.read, Except.bind, hrecord]
      rw [hfirst, hdirect]
      unfold loop_step
      simp only [hresult]
  | some record =>
      have hdirect : t.record_id w = (if record.is_locked = true then
          Txn.refuse (.Forbidden "This IP is protected and cannot be modified")
        else do
          let updated ← Txn.update_record record.id (t.change record)
          pure updated.id : Txn Uuid) w := by
        simp only [record_id, bind, StateT.bind, Txn.read, Except.bind, hrecord]
      have hfirst : (t.loop_step ⟨w, none, .find⟩).phase = .returned (t.record_id w) := by
        rw [hdirect]
        unfold loop_step
        simp only [Option.getD_none, hrecord]
        by_cases hlocked : record.is_locked = true
        · rw [if_pos hlocked, if_pos hlocked]
          rfl
        · rw [if_neg hlocked, if_neg hlocked]
      generalize t.loop_step ⟨w, none, .find⟩ = s at hfirst ⊢
      unfold loop_step
      rw [hfirst]
      exact hfirst

end Steps

end UpsertTxn

/-- **The retry loop** ends if and only if at some event the way is free: the transaction takes its
snapshot when the address is committed, or an insert comes when it is not. -/
theorem upsert_loop_returns_iff (t : UpsertTxn) (w : World) (schedule : Nat → LoopEvent) :
    (∃ n, t.Returns w schedule n) ↔ ∃ n, t.Free w schedule n := by
  constructor
  · rintro ⟨n, hreturns⟩
    by_contra hnever
    have hretrying := UpsertTxn.retrying_of_not_free fun m (_ : m < n) hfree => hnever ⟨m, hfree⟩
    exact hretrying.not_returns hreturns
  · intro hfree
    classical
    have hfirst := Nat.find_spec hfree
    have hretrying := UpsertTxn.retrying_of_not_free fun m hm => Nat.find_min hfree hm
    exact ⟨_, (hretrying.call hfirst.1).1 hfirst⟩

/-- A request bans an address that is new. -/
def UpsertTxn.new_ban : UpsertTxn := .sample 5 "203.0.113.7" 2 "bans"

/-- Another request commits the address between the first read and the first insert. -/
def overtaken : Nat → LoopEvent
  | 1 => .inserted UpsertTxn.new_ban.fresh_record
  | _ => .upsert

/-- The loop is scheduled again and again, and never ends. -/
theorem overtaken_retries_forever :
    (∀ n, ∃ m ≥ n, overtaken m = .upsert) ∧
      ∀ n, ¬ UpsertTxn.new_ban.Returns Vault.sample.toWorld overtaken n := by
  refine ⟨fun n => ⟨n + 2, Nat.le_add_right n 2, rfl⟩, fun n => ?_⟩
  refine (UpsertTxn.retrying_of_not_free fun m _ => ?_).not_returns
  have hcommitted : ∀ k, UpsertTxn.new_ban.Committed Vault.sample.toWorld overtaken (k + 2) := by
    intro k
    induction k with
    | zero => decide +kernel
    | succ k ih => exact ih
  have hcalls : ∀ k, UpsertTxn.calls overtaken (k + 2) = k + 1 := by
    intro k
    induction k with
    | zero => rfl
    | succ k ih => exact congrArg (· + 1) ih
  rintro ⟨hevent, hfree⟩
  rcases m with _ | _ | k
  · rcases hfree with ⟨-, hthere⟩ | ⟨hodd, -⟩
    · revert hthere
      decide +kernel
    · cases hodd
  · cases hevent
  · rw [hcalls] at hfree
    rcases hfree with ⟨hzero, -⟩ | ⟨-, habsent⟩
    · omega
    · exact habsent (hcommitted k)

end IpVault
