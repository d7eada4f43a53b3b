import IpVault.Records.BatchRun

set_option autoImplicit false

/-! # Who may soft-delete a record

An ordinary key soft-deletes a record only if it has `can_delete` on a group of the record; the one
way round is an entry of a batch that says `is_deleted`, for which `can_write` is enough.
-/

namespace IpVault

open Lib

variable {S : Service} {req : Request} {v : Vault} {ctx : Ctx}

namespace Service

/-- Every live record the request soft-deletes is one the requester may delete. -/
def DeletesOwn (S : Service) (req : Request) (v : Vault) : Prop :=
  ∀ r ∈ v.records, r.is_deleted = false → ∀ r' ∈ (S.handle req v).2.records, r'.id = r.id →
    r'.is_deleted = true → MayDelete req.key_id r.id v.toWorld

/-- Every live, unlocked record that an admitted batch marks as deleted is one the requester may
delete. -/
def MarksOwn (S : Service) (req : Request) (v : Vault) : Prop :=
  ∀ key, v.keys.find? req.key_id = some key → ∀ payload group normalized,
    req.call = .batch_records payload →
    BatchAdmitted (S.ctx req key) payload v.toWorld group normalized →
    ∀ e ∈ normalized, e.2.is_deleted = some true → ∀ r ∈ v.records, r.target_address = e.1 →
      r.is_deleted = false → r.is_locked = false → MayDelete req.key_id r.id v.toWorld

end Service

/-! ## Every soft deletion is authorized, or marked -/

theorem UpsertTxn.outcome_live {t : UpsertTxn} {w : World} {r : IpRecord}
    (hlive : r.is_deleted = false) : (t.as_batch.outcome w r).is_deleted = false := by
  by_contra h
  rcases BatchTxn.outcome_buries hlive (by simpa using h) with homit | ⟨-, e, he, -, hdel⟩
  · simp [BatchTxn.omits, as_batch] at homit
  · obtain rfl := List.mem_singleton.mp he
    cases hdel

/-- A caller may write to the group of its batch, or the group is new. -/
theorem BatchAdmitted.can_delete {payload : BatchRecordsPayload} {w : World} {group : IpGroup}
    {normalized : List (String × BatchRecordInput)} (hw : w.Wf)
    (h : BatchAdmitted ctx payload w group normalized) (hm : ctx.key.is_master = false)
    (hmode : payload.mode = .FullReplace) {record_id : Uuid}
    (hmember : w.member record_id group.id) : MayDelete ctx.key.id record_id w := by
  rcases h.target with ⟨-, hmaster | hguard⟩ | ⟨-, -, rfl⟩
  · rw [hm] at hmaster
    cases hmaster
  · obtain ⟨⟨⟩, -, hdelete⟩ := except_bind_ok.mp hguard
    cases hp : w.permission ctx.key.id group.id with
    | none => simp [hmode, hp] at hdelete
    | some p =>
        obtain ⟨hmem, hkey, hgroup⟩ := World.permission_eq_some.mp hp
        have hcan : p.can_delete = true := by
          by_contra hf
          simp [hmode, hp, hf] at hdelete
        exact ⟨p, hmem, hkey, hcan, hgroup ▸ hmember⟩
  · obtain ⟨m, hm, -, hgroup⟩ := hmember
    exact absurd (hgroup ▸ hw.no_member_of_new_group hm) (Nat.lt_irrefl _)

/-- **One write.** A record that was live when the request began and is deleted after a write was
deleted before it, or the caller may delete it, or a batch marks it. -/
theorem Permits.buries {call : Call} {start w : Vault} {l : Stmt}
    (hl : Permits ctx call start l w) (hm : ctx.key.is_master = false) {r r' : IpRecord}
    (hr : r ∈ start.records) (hlive : r.is_deleted = false)
    (hr' : r' ∈ (l.after w.toWorld).records) (hid : r'.id = r.id) (hdel : r'.is_deleted = true) :
    r' ∈ w.records ∨ MayDelete ctx.key.id r.id start.toWorld ∨
      ∃ payload group normalized, call = .batch_records payload ∧
        BatchAdmitted ctx payload start.toWorld group normalized ∧
        ∃ e ∈ normalized, e.2.is_deleted = some true ∧ r.target_address = e.1 ∧
          r.is_locked = false := by
  rcases Stmt.mem_records_after w.wf hl.seen_nodup hr' with
    h | ⟨id, c, r₀, rfl, hr₀, hid₀, rfl⟩ | ⟨b, hb, hout⟩
  · exact .inl h
  · obtain ⟨rfl, r₁, -, -, ⟨-, hmaster, -⟩ | ⟨-, -, -, rfl, hmaster | hmay⟩⟩ := hl
    · rw [hm] at hmaster
      cases hmaster
    · rw [hm] at hmaster
      cases hmaster
    · rw [Txn.RecordChange.apply_id, hid₀] at hid
      exact .inr (.inl (hid ▸ hmay))
  · have hmemberships := (hl.batch_untouched hb).2
    have houtcome := hl.outcome_of_batch hb hr hid hout
    rw [houtcome] at hdel
    cases l with
    | upsert_txn t =>
        cases hb
        rw [UpsertTxn.outcome_live hlive] at hdel
        cases hdel
    | batch_txn t =>
        cases hb
        obtain ⟨-, -, payload, group, normalized, hcall, hadmitted, -, rfl⟩ := hl
        rcases BatchTxn.outcome_buries hlive hdel with homit | ⟨hlock, e, he, hadr, hmark⟩
        · obtain ⟨hmode, ⟨m, hmem, hmr, hmg⟩, -⟩ := BatchTxn.omits_iff.mp homit
          exact .inr (.inl (hadmitted.can_delete start.wf hm hmode
            ⟨m, hmemberships ▸ hmem, hmr, hmg⟩))
        · exact .inr (.inr ⟨payload, group, normalized, hcall, hadmitted, e, he, hmark,
            hadr.symm, hlock⟩)
    | _ => cases hb

theorem Service.MarksOwn.deletes_own (ordinary : S.NonMaster req v) (h : S.MarksOwn req v) :
    S.DeletesOwn req v := by
  intro r hr hlive
  refine S.handle_keeps req v (I := fun w => ∀ r' ∈ w.records, r'.id = r.id →
    r'.is_deleted = true → MayDelete req.key_id r.id v.toWorld) ?_ ?_
  · intro r' hr' hid hdel
    rw [Table.eq_of_key hr' hr hid, hlive] at hdel
    cases hdel
  · intro key hkey hid l w hl hw r' hr' hid' hdel
    have hfound : v.keys.find? req.key_id = some key := hid ▸ Table.find?_key hkey
    rcases hl.buries (ordinary key hfound) hr hlive hr' hid' hdel with
      hold | hmay | ⟨payload, group, normalized, hcall, hadmitted, e, he, hmark, hadr, hlock⟩
    · exact hw r' hold hid' hdel
    · exact hid ▸ hmay
    · exact h key hfound payload group normalized hcall hadmitted e he hmark r hr hadr hlive hlock

/-- A batch that marks a record deletes it. -/
theorem Service.DeletesOwn.marks_own (h : S.DeletesOwn req v) : S.MarksOwn req v := by
  intro key hkey payload group normalized hcall hadmitted e he hmark r hr hadr hlive hlock
  refine h r hr hlive _ (S.named_record_changed hkey hcall hadmitted he hr hadr hlock)
    (Txn.RecordChange.apply_id _ r) ?_
  rw [Txn.RecordChange.apply_is_deleted, BatchTxn.change, BatchTxn.tombstone_of_marked hmark]

/-- **Deletion authority, exactly.** Whatever an ordinary key requests, each live record it
soft-deletes belongs to a group on which the key has `can_delete`, if and only if that holds of
each live, unlocked record that an admitted batch marks as deleted. -/
theorem deletion_authority_iff (S : Service) (req : Request) (v : Vault)
    (ordinary : S.NonMaster req v) : S.DeletesOwn req v ↔ S.MarksOwn req v :=
  ⟨Service.DeletesOwn.marks_own, Service.MarksOwn.deletes_own ordinary⟩

/-! ## A batch that marks -/

/-- The sample store once the sensor has banned an address. -/
def Vault.banned : Vault :=
  (Service.sample.handle (.sample 1 7 (.handle_ban
    { target_address := "203.0.113.7", group_name := some "bans" })) .sample).2

/-- A batch of one entry that says `is_deleted`. -/
def Call.marking : Call :=
  .batch_records
    { group_name := "bans", records := [{ target_address := "203.0.113.7", is_deleted := some true }] }

/-- The same store once the sensor may delete. -/
def Vault.deleting : Vault := Vault.banned.after (.upsert_permission ⟨1, 2, true, true, true, false, 8⟩)

theorem deletion_authority_marking :
    Service.sample.DeletesOwn (.sample 1 9 .marking) .deleting ∧
      (Service.sample.handle (.sample 1 9 .marking) .deleting).2.records.rows.map
        IpRecord.is_deleted = [true] := by
  refine ⟨(deletion_authority_iff .sample _ .deleting (by decide)).mpr ?_, by decide⟩
  intro key _ payload group normalized _ _ e _ _ r hr _ _ _
  have hid : ∀ r ∈ Vault.deleting.records.rows, r.id = 3 := by decide
  refine ⟨⟨1, 2, true, true, true, false, 0⟩, by decide, rfl, rfl, ⟨3, 2⟩, by decide, ?_, rfl⟩
  exact (hid r hr).symm

/-- The sensor, which has no `can_delete` anywhere, deletes the record. -/
theorem sensor_deletes_record :
    ¬ ∀ (S : Service) (req : Request) (v : Vault), S.NonMaster req v → S.DeletesOwn req v := by
  intro h
  have hmay := h .sample (.sample 1 9 .marking) .banned (by decide)
    { id := 3, target_address := "203.0.113.7", cause := none, is_locked := false, created_at := 7
      updated_at := 7, last_seen_at := 7, is_deleted := false, deleted_at := none
      deleted_by := none } (by decide) rfl
    { id := 3, target_address := "203.0.113.7", cause := none, is_locked := false, created_at := 7
      updated_at := 9, last_seen_at := 9, is_deleted := true, deleted_at := some 9
      deleted_by := some (Uuid.to_string 1) } (by decide) rfl rfl
  obtain ⟨p, hp, -, hdelete, -⟩ := hmay
  have hnone : ∀ p ∈ Vault.banned.permissions.rows, p.can_delete = false := by decide
  rw [hnone p hp] at hdelete
  cases hdelete

end IpVault
