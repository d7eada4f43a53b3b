import IpVault.Access.Handlers

set_option autoImplicit false

/-! # The record endpoints keep to what they may issue

With them every request does (`serve_meets`).
-/

namespace IpVault

open Lib

variable {ctx : Ctx} {call : Call} {start v : Vault}

/-! ## Groups that do not exist yet -/

/-- The store after the conflict-tolerant insert of a group. -/
theorem after_insert_group_or_ignore (g : IpGroup) (w : World) :
    (Stmt.insert_group_or_ignore g).after w =
      if (w.group_named g.name).isSome then w
      else { w with
        groups := w.groups.insert { g with id := w.next_uuid }
        next_uuid := w.next_uuid + 1 } := by
  unfold Stmt.after Stmt.txn Txn.insert_group_or_ignore
  by_cases h : (w.group_named g.name).isSome = true
  · simp [h]
  · simp [h]

/-- Under a name nobody had, the group found after the insert is the one inserted. -/
theorem group_after_insert {w : World} {g g' : IpGroup} (hn : w.group_named g.name = none)
    (h : ((Stmt.insert_group_or_ignore g).after w).group_named g.name = some g') :
    g' = { g with id := w.next_uuid } := by
  rw [after_insert_group_or_ignore, hn] at h
  obtain ⟨hmem, hname⟩ := World.mem_of_group_named h
  rcases Table.mem_of_mem_insert hmem with hold | rfl
  · exact absurd hname (World.group_named_eq_none.mp hn g' hold)
  · rfl

/-- A group inserted under a name nobody has is the group of that name. -/
theorem group_named_after_insert (v : Vault) {g : IpGroup} (hn : v.group_named g.name = none) :
    (v.after (.insert_group_or_ignore g)).group_named g.name =
      some { g with id := v.next_uuid } := by
  refine (v.after (.insert_group_or_ignore g)).wf.group_named_eq_some.mpr ⟨?_, rfl⟩
  have hcase : ¬ (v.group_named g.name).isSome = true := by
    rw [hn]
    decide
  rw [Vault.after_toWorld, after_insert_group_or_ignore, if_neg hcase]
  refine Table.mem_insert.mpr (.inr ⟨Table.has_eq_false.mpr fun g' hg' hid => ?_, rfl⟩)
  have hlt := v.wf.group_fresh g' hg'
  exact absurd hid (Nat.ne_of_lt hlt)

theorem resolve_group_ref_only_reads (group_id : Option Uuid) (group_name : Option String) :
    OnlyReads (resolve_group_ref group_id group_name) := by
  unfold resolve_group_ref
  split
  · trivial
  · trivial
  · exact .select _
  · exact .select _

/-- One reference is given, and it is looked up. -/
theorem resolve_group_ref_obeys (group_id : Option Uuid) (group_name : Option String) :
    Obeys ctx call start (resolve_group_ref group_id group_name) v fun found v' =>
      v = v' ∧ found = v.group_ref group_id group_name ∧
        (group_name = none ∨ group_id = none) := by
  unfold resolve_group_ref
  split
  · trivial
  · trivial
  · exact obeys_select.imp fun _ _ ⟨hv, hfound⟩ => ⟨hv, hfound, .inl rfl⟩
  · exact obeys_select.imp fun _ _ ⟨hv, hfound⟩ => ⟨hv, hfound, .inr rfl⟩

/-! ## Ban and whitelist -/

/-- What the guards of the records have in common: the master passes, any other caller if its row on
the group does. -/
def row_guard (ctx : Ctx) (check : Option GroupPermission → Except AppError Unit) (group_id : Uuid) :
    Handler Unit :=
  if ctx.key.is_master then pure ()
  else do
    let perm ← select (.permission ctx.key.id group_id)
    Prog.ofExcept (check perm)

theorem row_guard_only_reads (check : Option GroupPermission → Except AppError Unit)
    (group_id : Uuid) : OnlyReads (row_guard ctx check group_id) := by
  unfold row_guard
  split
  · trivial
  · exact .bind (.select _) fun _ => .ofExcept _

theorem row_guard_obeys (check : Option GroupPermission → Except AppError Unit) (group_id : Uuid) :
    Obeys ctx call start (row_guard ctx check group_id) v fun _ v' =>
      v = v' ∧ (ctx.key.is_master = true ∨ check (v.permission ctx.key.id group_id) = .ok ()) := by
  unfold row_guard
  split
  · rename_i hm
    exact ⟨rfl, .inl hm⟩
  · refine obeys_select.bind fun perm _ ⟨rfl, hperm⟩ => ?_
    refine obeys_ofExcept.imp fun _ _ ⟨hv, hguard⟩ => ⟨hv, .inr ?_⟩
    rwa [hperm] at hguard

theorem upsert_guard_only_reads (group_id : Uuid) : OnlyReads (upsert_guard ctx group_id) :=
  row_guard_only_reads guard_can_write group_id

theorem delete_ip_guard_only_reads (group_id : Uuid) :
    OnlyReads (delete_ip_guard ctx group_id) :=
  row_guard_only_reads guard_can_delete group_id

theorem upsert_new_group_obeys {is_whitelist : Bool} {name : String}
    (hn : v.group_named name = none) :
    Obeys ctx call v (upsert_new_group ctx is_whitelist name) v fun g v' =>
      Permits.records_untouched v v' ∧ v'.group_named name = some g := by
  refine obeys_require.bind fun _ _ ⟨rfl, hc⟩ => ?_
  refine (get_or_create_group_obeys hc).bind fun g w ⟨hw, hg⟩ => ?_
  have hfresh : v.next_uuid ≤ g.id := by
    subst hw
    rw [group_after_insert hn hg]
  have huntouched : Permits.records_untouched v w := by
    subst hw
    exact ⟨(Stmt.frame _ _).records rfl, (Stmt.frame _ _).memberships rfl⟩
  have provision : Obeys ctx call v (provision_caller ctx g.id) w fun _ v' =>
      Permits.records_untouched v v' ∧ v'.groups = w.groups := by
    unfold provision_caller
    split
    · exact ⟨huntouched, rfl⟩
    · rename_i hm
      have hm : ctx.key.is_master = false := by simpa using hm
      refine Obeys.imp (obeys_exec ⟨hm, rfl, hfresh⟩) fun _ v' ⟨hv', _⟩ => ?_
      subst hv'
      exact ⟨⟨((Stmt.frame _ _).records rfl).trans huntouched.1,
        ((Stmt.frame _ _).memberships rfl).trans huntouched.2⟩, (Stmt.frame _ _).groups rfl⟩
  refine provision.bind fun _ v' ⟨h, hgroups⟩ => ⟨h, ?_⟩
  unfold World.group_named at hg ⊢
  rwa [hgroups]

theorem upsert_group_obeys (payload : BanWhitePayload) (is_whitelist : Bool) :
    Obeys ctx call v (upsert_group ctx payload is_whitelist) v fun g v' =>
      Permits.records_untouched v v' ∧
        v'.group_ref payload.group_id payload.group_name = some g := by
  refine (resolve_group_ref_obeys _ _).bind fun found _ ⟨rfl, hfound, hone⟩ => ?_
  split
  · refine (obeys_of_reads (upsert_guard_only_reads _)).bind fun _ w hw => ?_
    subst hw
    refine obeys_ofExcept.bind fun _ _ ⟨rfl, _⟩ => ?_
    exact ⟨⟨rfl, rfl⟩, hfound.symm⟩
  · rename_i name hname _
    have hid : payload.group_id = none := hone.resolve_left (by simp [hname])
    rw [hname, hid] at hfound ⊢
    exact upsert_new_group_obeys hfound.symm
  · trivial

/-- **A ban or a whitelisting** ends with its transaction carried out, in a store where the group it
names exists. -/
theorem handle_ip_upsert_obeys (payload : BanWhitePayload) (is_whitelist : Bool)
    (hcall : call = if is_whitelist then .handle_white payload else .handle_ban payload) :
    Obeys ctx call v (handle_ip_upsert ctx payload is_whitelist) v fun _ v' =>
      ∃ (g : IpGroup) (w : Vault) (action : String) (w' : World), Permits.records_untouched v w ∧
        w.group_ref payload.group_id payload.group_name = some g ∧
        (upsert_transaction ctx payload is_whitelist g).run w.toWorld = .ok (action, w') ∧
        v'.keys = w'.keys ∧ v'.groups = w'.groups ∧ v'.records = w'.records ∧
        v'.memberships = w'.memberships := by
  refine obeys_okOr.bind fun network _ ⟨rfl, hnetwork⟩ => ?_
  refine obeys_ofExcept.bind fun _ _ ⟨rfl, _⟩ => ?_
  refine (upsert_group_obeys payload is_whitelist).bind fun g w ⟨huntouched, hg⟩ => ?_
  have parses : (ctx.env.parse_network payload.target_address).isSome = true := by
    rw [hnetwork]
    rfl
  have permitted : Permits ctx call v
      (.upsert_txn (upsert_transaction ctx payload is_whitelist g)) w :=
    ⟨huntouched, payload, is_whitelist, g, hcall, parses, rfl⟩
  refine (obeys_exec permitted).bind fun action w₁ ⟨hw₁, w', hrun⟩ => ?_
  refine Obeys.bind (obeys_exec trivial) fun _ w₂ ⟨hw₂, _⟩ => ?_
  have hafter : w₁.toWorld = w' := by
    subst hw₁
    exact Stmt.after_of_ok hrun
  subst hw₂ hafter
  have frame := Stmt.frame (.enqueue
    { action
      address := (upsert_transaction ctx payload is_whitelist g).normalized_address
      is_whitelist
      group_id := some g.id
      group_name := some g.name
      cause := payload.cause }) w₁.toWorld
  exact ⟨g, w, action, w₁.toWorld, huntouched, hg, hrun, frame.keys rfl, frame.groups rfl,
    frame.records rfl, frame.memberships rfl⟩

/-! ## Deletion, restoration, purge -/

theorem caller_may_delete_record_obeys (id : Uuid) :
    Obeys ctx call start (caller_may_delete_record ctx.key id) v fun may v' =>
      v = v' ∧ (may = true → ctx.key.is_master = true ∨ MayDelete ctx.key.id id v.toWorld) := by
  unfold caller_may_delete_record
  split
  · rename_i hm
    exact ⟨rfl, fun _ => .inl hm⟩
  · refine obeys_select.bind fun memberships _ ⟨rfl, hmem⟩ => ?_
    simp only
    split
    · refine ⟨rfl, fun h => ?_⟩
      cases h
    · refine obeys_select.bind fun rows _ ⟨rfl, hrows⟩ => ?_
      refine ⟨rfl, fun h => .inr ?_⟩
      subst hmem hrows
      obtain ⟨p, hp, hgrant⟩ := List.any_eq_true.mp h
      simp only [Query.eval, List.mem_filter, decide_eq_true_eq] at hp
      simp only [Bool.and_eq_true, List.contains_iff_mem, List.mem_map, Query.eval,
        List.mem_filter, decide_eq_true_eq] at hgrant
      obtain ⟨⟨m, ⟨hm, hid⟩, hgroup⟩, hdelete⟩ := hgrant
      exact ⟨p, hp.1, hp.2, hdelete, m, hm, hid, hgroup⟩

theorem delete_ip_record_obeys (id : Uuid) (hard : Option Bool) :
    Obeys ctx (.delete_ip_record id hard) v (delete_ip_record ctx id hard) v fun _ _ => True := by
  refine obeys_select.bind fun found _ ⟨rfl, hfound⟩ => ?_
  refine obeys_okOr.bind fun record _ ⟨rfl, hrecord⟩ => ?_
  refine (caller_may_delete_record_obeys id).bind fun may _ ⟨rfl, hmay⟩ => ?_
  refine obeys_require.bind fun _ _ ⟨rfl, htrue⟩ => ?_
  refine obeys_require.bind fun _ _ ⟨rfl, hlock⟩ => ?_
  refine obeys_require.bind fun _ _ ⟨rfl, hmaster⟩ => ?_
  obtain ⟨hmem, hid⟩ := Table.find?_eq_some.mp (hfound.symm.trans hrecord)
  split
  · rename_i hhard
    have hcall : Call.delete_ip_record id hard = .delete_ip_record record.id (some true) := by
      rw [hid]
      cases hard with
      | none => cases hhard
      | some b => exact congrArg (Call.delete_ip_record id ∘ some) hhard
    refine Obeys.bind (obeys_exec ⟨hcall, hmaster hhard, rfl, record, hmem, rfl, hlock⟩)
      fun _ _ _ => ?_
    exact obeys_audit_then
  · unfold soft_delete_record
    simp only
    split
    · trivial
    · rename_i hlive
      have hlive : record.is_deleted = false := by simpa using hlive
      refine Obeys.bind (obeys_exec ⟨rfl, record, hmem, rfl,
        .inr ⟨⟨hard, by rw [hid]⟩, hlock, hlive, rfl, ?_⟩⟩) fun _ _ _ => obeys_audit_then
      rw [hid]
      exact hmay htrue

theorem restore_ip_record_obeys (id : Uuid) :
    Obeys ctx (.restore_ip_record id) v (restore_ip_record ctx id) v fun _ _ => True := by
  refine obeys_require.bind fun _ _ ⟨rfl, hmaster⟩ => ?_
  refine obeys_select.bind fun found _ ⟨rfl, hfound⟩ => ?_
  refine obeys_okOr.bind fun record _ ⟨rfl, hrecord⟩ => ?_
  refine obeys_require.bind fun _ _ ⟨rfl, hdeleted⟩ => ?_
  obtain ⟨hmem, hid⟩ := Table.find?_eq_some.mp (hfound.symm.trans hrecord)
  refine Obeys.bind (obeys_exec ⟨rfl, record, hmem, hid, .inl ⟨rfl, hmaster, hdeleted, rfl⟩⟩)
    fun restored _ _ => ?_
  exact obeys_audit_then

theorem purge_ip_records_obeys (body : OptionalBody (Option Int)) :
    Obeys ctx (.purge_ip_records body) v (purge_ip_records ctx body) v fun _ _ => True := by
  refine obeys_require.bind fun _ _ ⟨rfl, hmaster⟩ => ?_
  refine obeys_ofExcept.bind fun older_than_days _ ⟨rfl, hbody⟩ => ?_
  refine obeys_require.bind fun _ _ ⟨rfl, hvalid⟩ => ?_
  have purge : Obeys ctx (.purge_ip_records body) v (purge_expired_ip_records ctx.now
      (older_than_days.getD ctx.env.retention_days)) v fun _ _ => True := by
    unfold purge_expired_ip_records
    split
    · trivial
    · rename_i hpos
      exact Obeys.imp (obeys_exec ⟨rfl, hmaster, body, older_than_days, rfl, hbody, hvalid,
        by omega, rfl⟩) fun _ _ _ => trivial
  exact purge.bind fun _ _ _ => obeys_audit_then

/-! ## Removal from one group -/

theorem delete_ip_guard_obeys (group_id : Uuid) :
    Obeys ctx call start (delete_ip_guard ctx group_id) v fun _ v' =>
      v = v' ∧ (ctx.key.is_master = true ∨
        guard_can_delete (v.permission ctx.key.id group_id) = .ok ()) :=
  row_guard_obeys guard_can_delete group_id

theorem delete_ip_obeys (query_params : DeleteIpQuery) (body : OptionalBody DeleteIpQuery) :
    Obeys ctx (.delete_ip query_params body) v (delete_ip ctx query_params body) v
      fun _ _ => True := by
  refine obeys_ofExcept.bind fun body_params _ ⟨rfl, hbody⟩ => ?_
  refine obeys_okOr.bind fun target_address _ ⟨rfl, htarget⟩ => ?_
  refine (resolve_group_ref_obeys _ _).bind fun found _ ⟨rfl, hfound, _⟩ => ?_
  refine obeys_okOr.bind fun group _ ⟨rfl, hgroup⟩ => ?_
  refine (delete_ip_guard_obeys _).bind fun _ _ ⟨rfl, hguard⟩ => ?_
  have admitted : RemovalAdmitted ctx query_params body v.toWorld group target_address :=
    ⟨⟨body_params, hbody, (Option.filter_eq_some_iff.mp htarget).1, hfound.symm.trans hgroup⟩,
      hguard⟩
  refine Obeys.bind (obeys_exec ⟨rfl, query_params, body, group, target_address, rfl, admitted,
    rfl⟩) fun record _ _ => ?_
  exact Obeys.bind (obeys_exec trivial) fun _ _ _ => trivial

/-! ## Batches -/

/-- What canonicalisation returns: every entry with its canonical address, none twice. -/
theorem normalize_entries_ok {env : Env} {records : List BatchRecordInput}
    {acc normalized : List (String × BatchRecordInput)}
    (h : normalize_entries env records acc = .ok normalized) (hacc : (acc.map Prod.fst).Nodup) :
    normalized =
        acc ++ records.map (fun r => (normalize_ip_or_cidr env r.target_address, r)) ∧
      (normalized.map Prod.fst).Nodup := by
  induction records generalizing acc with
  | nil =>
      cases h
      exact ⟨by simp, hacc⟩
  | cons r rest ih =>
      unfold normalize_entries at h
      cases hp : env.parse_network r.target_address with
      | none => simp [hp] at h
      | some net =>
          simp only [hp] at h
          split at h
          · cases h
          · rename_i hnew
            have hnew : normalize_ip_or_cidr env r.target_address ∉ acc.map Prod.fst := by
              simpa using hnew
            obtain ⟨heq, hnodup⟩ := ih h (by
              rw [List.map_append, List.nodup_append]
              refine ⟨hacc, by simp, fun a ha b hb => ?_⟩
              rintro rfl
              simp only [List.map_cons, List.map_nil, List.mem_singleton] at hb
              exact hnew (hb ▸ ha))
            exact ⟨by rw [heq]; simp, hnodup⟩

/-- An admitted batch names no address twice. -/
theorem BatchAdmitted.seen_nodup {payload : BatchRecordsPayload} {w : World} {group : IpGroup}
    {normalized : List (String × BatchRecordInput)}
    (h : BatchAdmitted ctx payload w group normalized) :
    (batch_transaction ctx payload group normalized).seen.Nodup :=
  (normalize_entries_ok h.entries (by simp)).2

theorem batch_guard_obeys (mode : BatchMode) (group_id : Uuid) :
    Obeys ctx call start (batch_guard ctx mode group_id) v fun _ v' =>
      v = v' ∧ (ctx.key.is_master = true ∨
        guard_batch mode (v.permission ctx.key.id group_id) = .ok ()) :=
  row_guard_obeys (guard_batch mode) group_id

/-- The group of a batch, as `BatchAdmitted` has it, exists when the batch is written. -/
theorem batch_group_obeys (payload : BatchRecordsPayload) :
    Obeys ctx call v (batch_group ctx payload) v fun g v' =>
      Permits.records_untouched v v' ∧ v'.keys = v.keys ∧ v'.groups.has g.id = true ∧
        ((v.group_named payload.group_name = some g ∧ (ctx.key.is_master = true ∨
            guard_batch payload.mode (v.permission ctx.key.id g.id) = .ok ())) ∨
          (v.group_named payload.group_name = none ∧
            (ctx.key.is_master = true ∨ ctx.key.can_create_groups = true) ∧
            g = { new_group payload.group_name "banlist" (resource_owner ctx.key) ctx.now with
              id := v.next_uuid })) := by
  refine obeys_select.bind fun existing _ ⟨rfl, hexisting⟩ => ?_
  split
  · rename_i g _
    refine (batch_guard_obeys _ _).bind fun _ _ ⟨rfl, hguard⟩ => ?_
    have hnamed : v.group_named payload.group_name = some g := hexisting.symm
    have hmem := (World.mem_of_group_named hnamed).1
    exact ⟨⟨rfl, rfl⟩, rfl, Table.has_iff.mpr ⟨g, hmem, rfl⟩, .inl ⟨hnamed, hguard⟩⟩
  · refine obeys_require.bind fun _ _ ⟨rfl, hc⟩ => ?_
    refine (get_or_create_group_obeys hc).imp fun g w ⟨hw, hg⟩ => ?_
    subst hw
    have hn : v.group_named payload.group_name = none := hexisting.symm
    have hmem := (World.mem_of_group_named hg).1
    exact ⟨⟨(Stmt.frame _ _).records rfl, (Stmt.frame _ _).memberships rfl⟩,
      (Stmt.frame _ _).keys rfl, Table.has_iff.mpr ⟨g, hmem, rfl⟩,
      .inr ⟨hn, hc, group_after_insert (g := new_group _ _ _ _) hn hg⟩⟩

theorem enqueue_all_obeys (events : List WebhookEvent) :
    Obeys ctx call start (enqueue_all events) v fun _ _ => True := by
  induction events generalizing v with
  | nil => trivial
  | cons e es ih => exact Obeys.bind (obeys_exec trivial) fun _ _ _ => ih

/-- A batch that is carried out was admitted. -/
theorem batch_records_obeys (payload : BatchRecordsPayload) :
    Obeys ctx (.batch_records payload) v (batch_records ctx payload) v fun _ _ =>
      ∃ group normalized, BatchAdmitted ctx payload v.toWorld group normalized := by
  refine obeys_require.bind fun _ _ ⟨rfl, hlength⟩ => ?_
  refine obeys_ofExcept.bind fun normalized _ ⟨rfl, hnorm⟩ => ?_
  refine (batch_group_obeys payload).bind fun group w ⟨huntouched, hkeys, hhas, hgroup⟩ => ?_
  refine obeys_ofExcept.bind fun _ _ ⟨rfl, haddr⟩ => ?_
  have admitted : BatchAdmitted ctx payload v.toWorld group normalized :=
    ⟨hlength, hnorm, hgroup, fun h => by rwa [if_pos h] at haddr⟩
  refine Obeys.bind (obeys_exec ⟨huntouched, hkeys, payload, group, normalized, rfl, admitted,
    hhas, rfl⟩) fun st _ _ => ?_
  exact (enqueue_all_obeys _).bind fun _ _ _ => ⟨group, normalized, admitted⟩

/-! ## Every request -/

theorem Call.obeys (call : Call) : Obeys ctx call v (call.handler ctx) v fun _ _ => True := by
  cases call with
  | handle_ban payload => exact (handle_ip_upsert_obeys payload false rfl).imp fun _ _ _ => trivial
  | handle_white payload =>
      exact (handle_ip_upsert_obeys payload true rfl).imp fun _ _ _ => trivial
  | batch_records payload => exact (batch_records_obeys payload).imp fun _ _ _ => trivial
  | delete_ip query_params body => exact delete_ip_obeys query_params body
  | delete_ip_record id hard => exact delete_ip_record_obeys id hard
  | restore_ip_record id => exact restore_ip_record_obeys id
  | purge_ip_records body => exact purge_ip_records_obeys body
  | create_ip_group payload => exact create_ip_group_obeys payload
  | delete_ip_group id => exact delete_ip_group_obeys id
  | reassign_group_owner id payload => exact reassign_group_owner_obeys id payload
  | create_api_key payload => exact create_api_key_obeys payload
  | update_api_key id payload => exact update_api_key_obeys id payload
  | delete_api_key id resolutions => exact (delete_api_key_obeys id resolutions).imp fun _ _ _ => trivial
  | rotate_api_key id => exact rotate_api_key_obeys id
  | rotate_signing_secret id => exact rotate_signing_secret_obeys id
  | update_key_group_permissions id payload => exact update_key_group_permissions_obeys id payload
  | revoke_key_group_permission id identifier => exact revoke_key_group_permission_obeys id identifier
  | create_webhook payload => exact create_webhook_obeys payload
  | update_webhook id payload => exact update_webhook_obeys id payload
  | clone_webhook id name => exact clone_webhook_obeys id name
  | delete_webhook id => exact delete_webhook_obeys id
  | reassign_webhook_owner id payload => exact reassign_webhook_owner_obeys id payload
  | test_webhook id delivery => exact test_webhook_obeys id delivery
  | delete_webhook_execution id => exact delete_webhook_execution_obeys id
  | read body only => exact (obeys_of_reads (only ctx)).imp fun _ _ _ => trivial
  | rejected e => trivial

/-- **Every request keeps to what its caller may issue.** The key it was signed with is read
first; a request whose key is gone issues nothing else. -/
theorem serve_meets (S : Service) (req : Request) (v : Vault) :
    Prog.Meets database
      (fun l w => (∃ q, l = .query q) ∨
        ∃ key ∈ v.keys, key.id = req.key_id ∧ Permits (S.ctx req key) req.call v l w)
      (fun _ _ => True) (fun _ _ => True) (S.serve req) v := by
  unfold Service.serve
  rw [Prog.meets_bind, meets_select]
  refine ⟨.inl ⟨_, rfl⟩, ?_⟩
  rw [Prog.meets_bind, Prog.meets_okOr]
  refine ⟨fun key hkey => ?_, fun _ => trivial⟩
  obtain ⟨hmem, hid⟩ := Table.find?_eq_some.mp hkey
  exact (Call.obeys req.call).mono (fun l w h => .inr ⟨key, hmem, hid, h⟩)
    (fun _ _ h => h) fun _ _ h => h

/-- **Where a request that succeeds ends**: where its handler says it does. -/
theorem Service.outcome {S : Service} {req : Request} {v : Vault} (h : S.Succeeds req v)
    {Q : ApiKey → Response → Vault → Prop}
    (hobeys : ∀ key ∈ v.keys, key.id = req.key_id →
      Obeys (S.ctx req key) req.call v (req.call.handler (S.ctx req key)) v (Q key)) :
    ∃ key ∈ v.keys, key.id = req.key_id ∧ Q key (S.handle req v).1 (S.handle req v).2 := by
  have served : Prog.Meets database (fun _ _ => True)
      (fun response w => ∃ key ∈ v.keys, key.id = req.key_id ∧ Q key response w)
      (fun _ _ => True) (S.serve req) v := by
    unfold Service.serve
    rw [Prog.meets_bind, meets_select]
    refine ⟨trivial, ?_⟩
    rw [Prog.meets_bind, Prog.meets_okOr]
    refine ⟨fun key hkey => ?_, fun _ => trivial⟩
    obtain ⟨hmem, hid⟩ := Table.find?_eq_some.mp hkey
    exact (hobeys key hmem hid).mono (fun _ _ _ => trivial)
      (fun _ _ hq => ⟨key, hmem, hid, hq⟩) fun _ _ _ => trivial
  have hrun := served.run.1
  unfold Service.Succeeds at h
  unfold Service.handle
  generalize (S.serve req).run database v = r at h hrun ⊢
  obtain ⟨_ | response, w⟩ := r
  · cases h
  · exact hrun response w rfl

/-- **Invariants of a request.** What every write the caller may issue keeps, the request
keeps. -/
theorem Service.handle_keeps (S : Service) (req : Request) (v : Vault) {I : Vault → Prop}
    (hv : I v)
    (step : ∀ key ∈ v.keys, key.id = req.key_id → ∀ l w, Permits (S.ctx req key) req.call v l w →
      I w → I (w.after l)) : I (S.handle req v).2 := by
  have h := (serve_meets S req v).keeps hv fun l w hl hw => by
    rcases hl with ⟨q, rfl⟩ | ⟨key, hmem, hid, hl⟩
    · exact hw
    · exact step key hmem hid l w hl hw
  unfold Service.handle
  generalize (S.serve req).run database v = r at h ⊢
  obtain ⟨_ | _, v'⟩ := r <;> exact h

end IpVault
