import IpVault.Records.DeletionAuthority

set_option autoImplicit false

/-! # The date of a deletion

A record keeps the date it was soft-deleted at as long as it stays soft-deleted, whatever is asked of
the API: `delete_ip_record` leaves an already deleted record alone, a ban or a restoration makes it
live, a sweep passes over it. The one request that dates a deletion anew is a batch whose entry
marks a deleted record as deleted.
-/

namespace IpVault

open Lib

variable {S : Service} {req : Request} {v : Vault} {ctx : Ctx}

namespace Service

/-- Every record that is soft-deleted before and after the request has kept its date. -/
def KeepsDates (S : Service) (req : Request) (v : Vault) : Prop :=
  ∀ r ∈ v.records, r.is_deleted = true → ∀ r' ∈ (S.handle req v).2.records, r'.id = r.id →
    r'.is_deleted = true → r'.deleted_at = r.deleted_at

/-- Every entry of an admitted batch that marks a soft-deleted, unlocked record as deleted comes to
the date the record has: its own `deleted_at`, or else the time of the request. -/
def MarksKeepDates (S : Service) (req : Request) (v : Vault) : Prop :=
  ∀ key, v.keys.find? req.key_id = some key → ∀ payload group normalized,
    req.call = .batch_records payload →
    BatchAdmitted (S.ctx req key) payload v.toWorld group normalized →
    ∀ e ∈ normalized, e.2.is_deleted = some true → ∀ r ∈ v.records, r.target_address = e.1 →
      r.is_deleted = true → r.is_locked = false →
      r.deleted_at = some (e.2.deleted_at.getD req.now)

end Service

/-! ## What a write makes of a date -/

/-- A batch that leaves a deleted record deleted has not touched it, or an entry marks it. -/
theorem BatchTxn.outcome_redates {t : BatchTxn} {w : World} {r : IpRecord}
    (hdel : r.is_deleted = true) (h : (t.outcome w r).is_deleted = true) :
    (t.outcome w r).deleted_at = r.deleted_at ∨
      (r.is_locked = false ∧ ∃ e ∈ t.normalized, e.1 = r.target_address ∧
        e.2.is_deleted = some true ∧
        (t.outcome w r).deleted_at = some (e.2.deleted_at.getD t.now)) := by
  rcases t.outcome_cases w r with hsame | ⟨homit, -⟩ | ⟨hlock, e, he, hadr, hout⟩
  · rw [hsame]
    exact Or.inl rfl
  · -- the sweep looks at live records only
    have hlive := (omits_iff.mp homit).2.2.1
    rw [hdel] at hlive
    cases hlive
  · rw [hout] at h ⊢
    have hburied := change_buries h
    exact Or.inr ⟨hlock, e, he, hadr, hburied.1, hburied.2⟩

/-- **One write.** A record that was deleted when the request began and is deleted after a write has
its old date, or it is not what was written, or a batch marks it. -/
theorem Permits.redates {call : Call} {start w : Vault} {l : Stmt}
    (hl : Permits ctx call start l w) {r r' : IpRecord} (hr : r ∈ start.records)
    (hdel : r.is_deleted = true) (hr' : r' ∈ (l.after w.toWorld).records) (hid : r'.id = r.id)
    (hdel' : r'.is_deleted = true) :
    r' ∈ w.records ∨ r'.deleted_at = r.deleted_at ∨
      ∃ payload group normalized, call = .batch_records payload ∧
        BatchAdmitted ctx payload start.toWorld group normalized ∧
        ∃ e ∈ normalized, e.2.is_deleted = some true ∧ r.target_address = e.1 ∧
          r.is_locked = false ∧ r'.deleted_at = some (e.2.deleted_at.getD ctx.now) := by
  rcases Stmt.mem_records_after w.wf hl.seen_nodup hr' with
    h | ⟨id, c, r₀, rfl, hr₀, hid₀, rfl⟩ | ⟨b, hb, hout⟩
  · exact Or.inl h
  · obtain ⟨rfl, r₁, hr₁, hid₁, ⟨-, -, -, rfl⟩ | ⟨-, -, hlive, -⟩⟩ := hl
    · rw [Txn.RecordChange.apply_is_deleted] at hdel'
      cases hdel'
    · -- `delete_ip_record` writes to live records only
      rw [Txn.RecordChange.apply_id, hid₀, ← hid₁] at hid
      rw [Table.eq_of_key hr₁ hr hid, hdel] at hlive
      cases hlive
  · have houtcome := hl.outcome_of_batch hb hr hid hout
    rw [houtcome] at hdel' ⊢
    rcases BatchTxn.outcome_redates hdel hdel' with hkept | ⟨hlock, e, he, hadr, hmark, hdate⟩
    · exact Or.inr (Or.inl hkept)
    · cases l with
      | upsert_txn t =>
          cases hb
          obtain rfl := List.mem_singleton.mp he
          cases hmark
      | batch_txn t =>
          cases hb
          obtain ⟨-, -, payload, group, normalized, hcall, hadmitted, -, rfl⟩ := hl
          exact Or.inr (Or.inr ⟨payload, group, normalized, hcall, hadmitted, e, he, hmark,
            hadr.symm, hlock, hdate⟩)
      | _ => cases hb

theorem Service.MarksKeepDates.keeps_dates (h : S.MarksKeepDates req v) : S.KeepsDates req v := by
  intro r hr hdel
  refine S.handle_keeps req v (I := fun w => ∀ r' ∈ w.records, r'.id = r.id →
    r'.is_deleted = true → r'.deleted_at = r.deleted_at) ?_ ?_
  · intro r' hr' hid _
    rw [Table.eq_of_key hr' hr hid]
  · intro key hkey hid l w hl hw r' hr' hid' hdel'
    have hfound : v.keys.find? req.key_id = some key := hid ▸ Table.find?_key hkey
    rcases hl.redates hr hdel hr' hid' hdel' with
      hold | hkept | ⟨payload, group, normalized, hcall, hadmitted, e, he, hmark, hadr, hlock, hdate⟩
    · exact hw r' hold hid' hdel'
    · exact hkept
    · rw [hdate, h key hfound payload group normalized hcall hadmitted e he hmark r hr hadr hdel
        hlock]
      rfl

/-! ## What a batch makes of it -/

/-- A batch that marks a deleted record dates the deletion. -/
theorem Service.KeepsDates.marks_keep_dates (h : S.KeepsDates req v) : S.MarksKeepDates req v := by
  intro key hkey payload group normalized hcall hadmitted e he hmark r hr hadr hdel hlock
  have hwritten := S.named_record_changed hkey hcall hadmitted he hr hadr hlock
  have hburied := Txn.RecordChange.apply_deleted_at
    ((batch_transaction (S.ctx req key) payload group normalized).change e.2 r) r
  have hkept := h r hr hdel _ hwritten (Txn.RecordChange.apply_id _ r) (by
    rw [Txn.RecordChange.apply_is_deleted, BatchTxn.change, BatchTxn.tombstone_of_marked hmark])
  rw [← hkept, hburied, BatchTxn.change, BatchTxn.tombstone_of_marked hmark]
  rfl

/-- **The retention clock, exactly.** Whatever a caller requests, each record that is soft-deleted
before and after has kept its date, if and only if each mark of an admitted batch on a soft-deleted,
unlocked record comes to the date the record has. -/
theorem dates_kept_iff (S : Service) (req : Request) (v : Vault) :
    S.KeepsDates req v ↔ S.MarksKeepDates req v :=
  ⟨Service.KeepsDates.marks_keep_dates, Service.MarksKeepDates.keeps_dates⟩

/-! ## A batch that marks twice -/

/-- The sample store once a batch has marked the banned address, at the instant 9. -/
def Vault.marked : Vault := (Service.sample.handle (.sample 1 9 .marking) .banned).2

/-- Its record, buried at an instant. -/
def IpRecord.buried_sample (deleted_at : Int) : IpRecord where
  id := 3
  target_address := "203.0.113.7"
  cause := none
  is_locked := false
  created_at := 7
  updated_at := deleted_at
  last_seen_at := deleted_at
  is_deleted := true
  deleted_at := some deleted_at
  deleted_by := some (Uuid.to_string 1)

/-- The same batch a second time, at the instant 20, dates the deletion anew. -/
theorem batch_redates_deletion :
    ¬ ∀ (S : Service) (req : Request) (v : Vault), S.KeepsDates req v := by
  intro h
  have hkept := h .sample (.sample 1 20 .marking) .marked (.buried_sample 9) (by decide) rfl
    (.buried_sample 20) (by decide) rfl rfl
  exact absurd hkept (by decide)

end IpVault
