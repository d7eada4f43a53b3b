import IpVault.Access.Records
import IpVault.Records.Outcome

set_option autoImplicit false

/-! # Tombstones

A record that is deleted says so in three columns. In every store that requests and sweeps lead to from
one whose records are consistent, each record has all three or none (`IpRecord.Consistent`), and no purge
takes a record that is live.
-/

namespace IpVault

open Lib

/-- The three deletion columns agree. -/
structure IpRecord.Consistent (r : IpRecord) : Prop where
  deleted_at : r.is_deleted = true ↔ r.deleted_at.isSome = true
  deleted_by : r.is_deleted = true ↔ r.deleted_by.isSome = true

instance (r : IpRecord) : Decidable r.Consistent :=
  decidable_of_iff ((r.is_deleted = true ↔ r.deleted_at.isSome = true) ∧
      (r.is_deleted = true ↔ r.deleted_by.isSome = true))
    ⟨fun h => ⟨h.1, h.2⟩, fun h => ⟨h.deleted_at, h.deleted_by⟩⟩

/-- The deletion columns of every record agree. -/
def World.Consistent (w : World) : Prop := ∀ r ∈ w.records, r.Consistent

/-! ## Updates and insertions -/

/-- An update moves the three columns together. -/
theorem Txn.RecordChange.consistent (c : Txn.RecordChange) {r : IpRecord} (h : r.Consistent) :
    (c.apply r).Consistent := by
  unfold Txn.RecordChange.apply
  cases c.tombstone with
  | keep => exact ⟨h.deleted_at, h.deleted_by⟩
  | clear => exact ⟨by simp, by simp⟩
  | bury t who => exact ⟨by simp, by simp⟩

theorem UpsertTxn.fresh_record_consistent (t : UpsertTxn) : t.fresh_record.Consistent :=
  ⟨by simp [fresh_record], by simp [fresh_record]⟩

/-- What a batch inserts is deleted in three columns or in none, whatever the entry says. -/
theorem BatchTxn.fresh_record_consistent (t : BatchTxn) (address : String)
    (input : BatchRecordInput) : (t.fresh_record address input).Consistent := by
  unfold BatchTxn.fresh_record
  cases input.is_deleted.getD false with
  | false => exact ⟨by simp, by simp⟩
  | true => exact ⟨by simp, by simp⟩

theorem consistent_insert_record {r : IpRecord} (hr : r.Consistent) :
    Keeps (fun w w' => w.Consistent → w'.Consistent) (Txn.insert_record r) := by
  intro w id w' heq hw
  obtain ⟨-, -, rfl⟩ := Txn.insert_record_ok heq
  intro r' hr'
  rcases Table.mem_of_mem_insert hr' with hold | rfl
  · exact hw r' hold
  · exact ⟨hr.deleted_at, hr.deleted_by⟩

theorem consistent_update_record (id : Uuid) (c : Txn.RecordChange) :
    Keeps (fun w w' => w.Consistent → w'.Consistent) (Txn.update_record id c) := by
  intro w r w' heq hw
  obtain ⟨-, -, -, -, rfl⟩ := Txn.update_record_ok heq
  intro r' hr'
  rcases (Table.mem_modify c.apply_id).mp hr' with ⟨hold, -⟩ | ⟨r₀, hr₀, -, rfl⟩
  · exact hw r' hold
  · exact c.consistent (hw r₀ hr₀)

/-- A write that leaves the records alone. -/
theorem consistent_of_records {α : Type} {m : Txn α}
    (h : Keeps (fun w w' => w'.records = w.records) m) :
    Keeps (fun w w' => w.Consistent → w'.Consistent) m := by
  intro w a w' heq hw r hr
  rw [h w a w' heq] at hr
  exact hw r hr

/-- The writes of the record transactions. -/
theorem consistent_record_writes :
    RecordWrites IpRecord.Consistent (fun w w' => w.Consistent → w'.Consistent) where
  refl _ hw := hw
  trans _ _ _ h h' hw := h' (h hw)
  insert_record _ hr := consistent_insert_record hr
  update_record := consistent_update_record
  link record_id group_id := consistent_of_records fun w a w' heq => by
    obtain ⟨-, -, -, rfl⟩ := Txn.link_ok heq
    rfl
  unlink record_id group_id := consistent_of_records fun w a w' heq => by
    cases heq
    rfl
  insert_audit a := consistent_of_records fun w u w' heq => by
    obtain ⟨-, rfl⟩ := Txn.insert_audit_ok heq
    rfl

/-! ## Statements and runs -/

/-- **Every statement keeps the columns together.** -/
theorem Stmt.consistent_after (l : Stmt) {w : World} (hw : w.Consistent) :
    (l.after w).Consistent := by
  have removed : ∀ p : IpRecord → Bool, ∀ r ∈ w.records.filter p, r.Consistent :=
    fun p r hr => hw r (Table.mem_filter.mp hr).1
  have kept : ∀ l : Stmt, Keeps (fun w w' => w.Consistent → w'.Consistent) l.txn →
      (l.after w).Consistent :=
    fun l hl => after_of_keeps (R := fun w w' => w.Consistent → w'.Consistent) hl (fun _ h => h) w hw
  cases l with
  | upsert_txn t => exact kept _ (consistent_record_writes.upsert t t.fresh_record_consistent)
  | delete_ip_txn t => exact kept _ (consistent_record_writes.delete_ip t)
  | batch_txn t => exact kept _ (consistent_record_writes.batch t t.fresh_record_consistent)
  | update_record id c => exact kept _ (consistent_update_record id c)
  | delete_record id => exact removed _
  | purge threshold => exact removed _
  | _ =>
      intro r hr
      rw [(frame _ w).records rfl] at hr
      exact hw r hr

/-- No purge takes a live record. -/
theorem Stmt.purge_keeps_live (threshold : Int) {w : World} {r : IpRecord} (hr : r ∈ w.records)
    (hlive : r.is_deleted = false) : r ∈ ((purge threshold).after w).records := by
  refine Table.mem_filter.mpr ⟨hr, ?_⟩
  simp [Txn.expired, hlive]

/-- One request or sweep. -/
theorem World.Consistent.step {v : Vault} (h : v.toWorld.Consistent) (S : Service)
    (e : Service.Event) : (S.step e v).2.toWorld.Consistent := by
  cases e with
  | request req =>
      exact S.handle_keeps req v (I := fun v => v.toWorld.Consistent) h
        fun _ _ _ l w _ hw => l.consistent_after hw
  | sweep now =>
      exact S.sweep_keeps (I := fun v => v.toWorld.Consistent) h
        fun threshold => (Stmt.purge threshold).consistent_after h

/-- **Tombstones are consistent.** In every store that requests and sweeps lead to from one without
inconsistent records, the three deletion columns of every record agree, and a purge, whatever its window
and whenever it runs, leaves every live record. -/
theorem tombstones_consistent (S : Service) (run : List Service.Event) (v : Vault)
    (h : ∀ r ∈ v.records, r.Consistent) :
    (∀ r ∈ (final S.step run v).records, r.Consistent) ∧
      ∀ (now retention_days : Int), ∀ r ∈ (final S.step run v).records, r.is_deleted = false →
        r ∈ ((purge_expired_ip_records now retention_days).run database
          (final S.step run v)).2.records := by
  constructor
  · have hall : Along S.step (fun _ _ => True) run v := .of_forall run v fun _ _ _ => trivial
    exact hall.keeps (I := fun v => v.toWorld.Consistent) h fun e v _ hv => hv.step S e
  · intro now retention_days r hr hlive
    unfold purge_expired_ip_records
    split
    · exact hr
    · exact Stmt.purge_keeps_live _ hr hlive

/-- A ban, a deletion and a sweep, from a store without records. -/
theorem tombstones_consistent_sample : (∀ r ∈ Vault.sample.records, r.Consistent) ∧
    ∀ r ∈ (final Service.sample.step
      [.request (.sample 1 5 (.handle_ban { target_address := "9.9.9.9", group_name := some "bans" })),
        .request (.sample 0 6 (.delete_ip_record 3 none)), .sweep 7] Vault.sample).records,
      r.Consistent :=
  ⟨by decide, (tombstones_consistent .sample _ .sample (by decide)).1⟩

end IpVault
