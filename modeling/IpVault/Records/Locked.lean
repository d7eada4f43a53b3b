import IpVault.Access.Records
import IpVault.Records.After

set_option autoImplicit false

/-! # Locked records

No ban, batch or deletion touches a locked record. Restoration and purge do not look at the lock.
-/

namespace IpVault

open Lib

variable {S : Service} {v : Vault} {r : IpRecord}

namespace Service

/-- The event is a restoration of the record by the master. -/
def Restores (S : Service) (v : Vault) (r : IpRecord) (e : Event) : Prop :=
  ∃ req, e = .request req ∧ req.call = .restore_ip_record r.id ∧ S.IsMaster req v ∧
    r.is_deleted = true

/-- The event is a retention sweep, or a purge by the master, that finds the record expired. -/
inductive Purges (S : Service) (v : Vault) (r : IpRecord) : Event → Prop
  | sweep (now : Int) (hpos : 0 < S.env.retention_days)
      (he : Txn.expired (now - S.env.retention_days * day) r = true) : Purges S v r (.sweep now)
  | request (req : Request) (body : OptionalBody (Option Int)) (older_than_days : Option Int)
      (hcall : req.call = .purge_ip_records body) (hm : S.IsMaster req v)
      (hbody : body.payload none = .ok older_than_days)
      (hvalid : older_than_days.all (0 < ·) = true)
      (hpos : 0 < older_than_days.getD S.env.retention_days)
      (he : Txn.expired (req.now - older_than_days.getD S.env.retention_days * day) r = true) :
      Purges S v r (.request req)

end Service

/-! ## What is left alone -/

/-- The batches a caller may issue name no address twice. -/
theorem Permits.seen_nodup {ctx : Ctx} {call : Call} {start w : Vault} {l : Stmt}
    (hl : Permits ctx call start l w) (b : BatchTxn) (hb : l.as_batch = some b) :
    b.seen.Nodup := by
  cases l with
  | upsert_txn t =>
      cases hb
      simp [BatchTxn.seen, UpsertTxn.as_batch]
  | batch_txn t =>
      cases hb
      obtain ⟨-, -, payload, group, normalized, -, hadmitted, -, rfl⟩ := hl
      exact hadmitted.seen_nodup
  | _ => cases hb

/-- A batch comes before anything else that could touch the records. -/
theorem Permits.batch_untouched {ctx : Ctx} {call : Call} {start w : Vault} {l : Stmt}
    (hl : Permits ctx call start l w) {b : BatchTxn} (hb : l.as_batch = some b) :
    Permits.records_untouched start w := by
  cases l with
  | upsert_txn t => exact hl.1
  | batch_txn t => exact hl.1
  | _ => cases hb

/-- Of a record that the request has found, a batch leaves its outcome. -/
theorem Permits.outcome_of_batch {ctx : Ctx} {call : Call} {start w : Vault} {l : Stmt}
    (hl : Permits ctx call start l w) {b : BatchTxn} (hb : l.as_batch = some b) {r r' : IpRecord}
    (hr : r ∈ start.records) (hid : r'.id = r.id)
    (hout : (∃ r₀ ∈ w.records, r' = b.outcome w.toWorld r₀) ∨
      ∃ e ∈ b.normalized, w.record_at e.1 = none ∧ w.next_uuid ≤ r'.id ∧
        r' = { b.fresh_record e.1 e.2 with id := r'.id }) :
    r' = b.outcome w.toWorld r := by
  have hrecords := (hl.batch_untouched hb).1
  rcases hout with ⟨r₀, hr₀, rfl⟩ | ⟨e, -, -, hnew, -⟩
  · rw [BatchTxn.outcome_id] at hid
    rw [Table.eq_of_key (hrecords ▸ hr₀) hr hid]
  · -- A record that the batch creates has an id that none had before.
    rw [hid] at hnew
    exact absurd (w.wf.record_fresh r (hrecords ▸ hr)) (Nat.not_lt.mpr hnew)

/-- **One write.** Of a locked record only a restoration and a purge change anything. -/
theorem Permits.locked_kept {ctx : Ctx} {call : Call} {start w : Vault} {l : Stmt}
    (hl : Permits ctx call start l w) (hr : r ∈ w.records) (hlock : r.is_locked = true) :
    r ∈ (l.after w.toWorld).records ∨
      (w = start ∧ call = .restore_ip_record r.id ∧ ctx.key.is_master = true ∧
        r.is_deleted = true) ∨
      ∃ threshold, Permits.purge ctx call start threshold w ∧ Txn.expired threshold r = true := by
  rcases Stmt.record_after w.wf hl.seen_nodup hr with
    h | ⟨c, rfl, -⟩ | ⟨b, -, h⟩ | rfl | ⟨threshold, rfl, he⟩
  · exact .inl h
  · obtain ⟨hw, r', hr', hid, ⟨hcall, hm, hdeleted, -⟩ | ⟨-, hunlocked, -⟩⟩ := hl
    · obtain rfl := Table.eq_of_key hr' hr hid
      exact .inr (.inl ⟨hw, hcall, hm, hdeleted⟩)
    · obtain rfl := Table.eq_of_key hr' hr hid
      exact nomatch hlock.symm.trans hunlocked
  · rw [BatchTxn.outcome_of_locked hlock] at h
    exact .inl h
  · obtain ⟨-, -, -, r', hr', hid, hunlocked⟩ := hl
    obtain rfl := Table.eq_of_key hr' hr hid
    exact nomatch hlock.symm.trans hunlocked
  · exact .inr (.inr ⟨threshold, hl, he⟩)

namespace Service

theorem isMaster_of_key {req : Request} {key : ApiKey} (hkey : key ∈ v.keys)
    (hid : key.id = req.key_id) (hm : (S.effective key).is_master = true) : S.IsMaster req v :=
  ⟨key, hid ▸ Table.find?_key hkey, hm⟩

theorem handle_keeps_locked {req : Request} (hr : r ∈ v.records) (hlock : r.is_locked = true)
    (hrestore : ¬ S.Restores v r (.request req)) (hpurge : ¬ S.Purges v r (.request req)) :
    r ∈ (S.handle req v).2.records := by
  refine S.handle_keeps req v (I := fun w => r ∈ w.records) hr fun key hkey hid l w hl hw => ?_
  rcases hl.locked_kept hw hlock with h | ⟨-, hcall, hm, hdeleted⟩ | ⟨threshold, hl, he⟩
  · exact h
  · exact absurd ⟨req, rfl, hcall, isMaster_of_key hkey hid hm, hdeleted⟩ hrestore
  · obtain ⟨-, hm, body, days, hcall, hbody, hvalid, hpos, rfl⟩ := hl
    exact absurd (.request req body days hcall (isMaster_of_key hkey hid hm) hbody hvalid hpos he)
      hpurge

theorem sweep_records (now : Int) : (S.sweep now v).records =
    if S.env.retention_days ≤ 0 then v.records
    else v.records.filter fun r => !Txn.expired (now - S.env.retention_days * day) r := by
  unfold sweep purge_expired_ip_records
  by_cases h : S.env.retention_days ≤ 0
  · rw [if_pos h, if_pos h]
    rfl
  · rw [if_neg h, if_neg h]
    rfl

/-! ## What is not -/

/-- The audit row and the response that end a handler leave the records alone. -/
theorem audit_then_records {α : Type} {ctx : Ctx} {action : String}
    {address names details : Option String} {a : α} {P : Vault → Prop} {w : Vault} (hw : P w)
    (hP : ∀ w w', w'.records = w.records → P w → P w') :
    Prog.Meets database (fun _ _ => True) (fun _ => P) (fun _ => P)
      (do create_audit_log ctx action address names details; pure a) w := by
  have issues : Prog.Issues (fun l : Stmt => l.writes_records = false)
      (do create_audit_log ctx action address names details; (pure a : Handler α)) :=
    .bind (.bind (.op rfl) .ofExcept) fun _ => trivial
  exact issues.keeps hw fun l w hl => hP w (w.after l) ((l.frame w.toWorld).records hl)

/-- A restoration changes the record. -/
theorem Restores.changes {e : Event} (hr : r ∈ v.records) (h : S.Restores v r e) :
    r ∉ (S.step e v).2.records := by
  obtain ⟨req, rfl, hcall, ⟨key, hkey, hm⟩, hdeleted⟩ := h
  refine S.handle_of_meets (G := fun _ _ => True) (P := fun w => r ∉ w.records) ?_
  refine S.serve_of_key hkey trivial ?_
  rw [hcall]
  show Prog.Meets _ _ _ _ (restore_ip_record _ _) v
  unfold restore_ip_record
  rw [Prog.meets_bind, Prog.meets_require]
  refine ⟨fun _ => ?_, fun hn => absurd hm hn⟩
  rw [Prog.meets_bind, meets_select]
  refine ⟨trivial, ?_⟩
  have hfound : (Query.record_by_id r.id).eval v.toWorld = some r := Table.find?_key hr
  rw [Prog.meets_bind, Prog.meets_okOr, hfound]
  refine ⟨fun r' hr' => ?_, fun hn => nomatch hn⟩
  obtain rfl : r = r' := Option.some.inj hr'
  rw [Prog.meets_bind, Prog.meets_require]
  refine ⟨fun _ => ?_, fun hn => absurd hdeleted hn⟩
  rw [Prog.meets_bind, meets_exec]
  -- The only row with the identifier is the restored one, which is live.
  refine ⟨trivial, fun restored w _ => ?_, fun e he => ?_⟩
  · refine audit_then_records ?_ fun w w' hw => by rw [hw]; exact id
    intro hmem
    rw [Vault.after_toWorld, Stmt.after_update_record] at hmem
    rcases (Table.mem_modify (restoration _).apply_id).mp hmem with ⟨-, hne⟩ | ⟨r₀, -, -, heq⟩
    · exact hne rfl
    · rw [heq] at hdeleted
      cases hdeleted
  · cases (Txn.update_record_of_mem hr).symm.trans he

/-- A purge removes the record. -/
theorem Purges.removes {e : Event} (h : S.Purges v r e) : r ∉ (S.step e v).2.records := by
  cases h with
  | sweep now hpos he =>
      show r ∉ (S.sweep now v).records
      rw [sweep_records, if_neg (by omega), Table.mem_filter]
      simp [he]
  | request req body days hcall hm hbody hvalid hpos he =>
      obtain ⟨key, hkey, hm⟩ := hm
      refine S.handle_of_meets (G := fun _ _ => True) (P := fun w => r ∉ w.records) ?_
      refine S.serve_of_key hkey trivial ?_
      rw [hcall]
      show Prog.Meets _ _ _ _ (purge_ip_records _ _) v
      unfold purge_ip_records
      rw [Prog.meets_bind, Prog.meets_require]
      refine ⟨fun _ => ?_, fun hn => absurd hm hn⟩
      rw [Prog.meets_bind, Prog.meets_ofExcept, hbody]
      refine ⟨fun days' hdays => ?_, fun _ hn => nomatch hn⟩
      obtain rfl : days = days' := Except.ok.inj hdays
      rw [Prog.meets_bind, Prog.meets_require]
      refine ⟨fun _ => ?_, fun hn => absurd hvalid hn⟩
      rw [Prog.meets_bind]
      have hwindow : ¬ days.getD (S.ctx req key).env.retention_days ≤ 0 := Int.not_le.mpr hpos
      rw [purge_expired_ip_records, if_neg hwindow]
      refine (meets_exec (l := .purge _)).mpr ⟨trivial, fun purged w _ => ?_, fun e he => nomatch he⟩
      refine audit_then_records ?_ fun w w' hw => by rw [hw]; exact id
      intro hmem
      have hkept : (!Txn.expired (req.now - days.getD S.env.retention_days * day) r) = true :=
        (Table.mem_filter.mp hmem).2
      rw [he] at hkept
      cases hkept

/-- **Locked records, exactly.** An event leaves a locked record as it is, in all its fields, unless
it is a restoration of it by the master or a purge that finds it expired. -/
theorem locked_kept_iff (S : Service) (e : Event) (v : Vault) {r : IpRecord}
    (hr : r ∈ v.records) (hlock : r.is_locked = true) :
    r ∈ (S.step e v).2.records ↔ ¬ (S.Restores v r e ∨ S.Purges v r e) := by
  constructor
  · rintro hmem (h | h)
    · exact h.changes hr hmem
    · exact h.removes hmem
  · intro h
    obtain ⟨hrestore, hpurge⟩ := not_or.mp h
    cases e with
    | request req => exact handle_keeps_locked hr hlock hrestore hpurge
    | sweep now =>
        show r ∈ (S.sweep now v).records
        rw [sweep_records]
        split
        · exact hr
        · rename_i hpos
          refine Table.mem_filter.mpr ⟨hr, ?_⟩
          by_contra he
          exact hpurge (.sweep now (by omega) (by simpa using he))

end Service

/-! ## A locked record in the trash -/

/-- The safeguard set by hand: nothing in the API sets it. -/
def lock_record (r : IpRecord) : IpRecord := { r with is_locked := true }

/-- The store after an administrator has locked a record in the database. -/
def Vault.lock (v : Vault) (id : Uuid) : Vault where
  toWorld := { v.toWorld with records := v.records.modify id lock_record fun _ => rfl }
  wf := Txn.wf_modify_record v.wf fun _ => rfl

/-- The sample store after the sensor has banned an address, the master has soft-deleted the
record at the instant 10, and somebody has locked it. -/
def Vault.locked_trash : Vault :=
  (final Service.sample.step
    [.request (.sample 1 7 (.handle_ban
        { target_address := "203.0.113.7", group_name := some "bans" })),
      .request (.sample 0 10 (.delete_ip_record 3 none))] .sample).lock 3

/-- Its record. -/
def IpRecord.locked_sample : IpRecord where
  id := 3
  target_address := "203.0.113.7"
  cause := none
  is_locked := true
  created_at := 7
  updated_at := 10
  last_seen_at := 7
  is_deleted := true
  deleted_at := some 10
  deleted_by := some (Uuid.to_string 0)

/-- The master restores it, locked as it is. -/
theorem locked_record_restored :
    ¬ ∀ (S : Service) (e : Service.Event) (v : Vault) (r : IpRecord), r ∈ v.records →
      r.is_locked = true → r ∈ (S.step e v).2.records := by
  intro h
  have := h .sample (.request (.sample 0 20 (.restore_ip_record 3))) .locked_trash .locked_sample
    (by decide) rfl
  exact absurd this (by decide)

/-- A request of the master that is no restoration leaves it alone. -/
theorem locked_kept_iff_soft_delete :
    IpRecord.locked_sample ∈ (Service.sample.step
      (.request (.sample 0 20 (.delete_ip_record 3 (some true)))) .locked_trash).2.records :=
  (Service.locked_kept_iff .sample _ .locked_trash (by decide) rfl).mpr <| by
    rintro (⟨req, hreq, hcall, -⟩ | h)
    · cases hreq
      cases hcall
    · cases h with
      | request req body days hcall => cases hcall

end IpVault
