import IpVault.Access.Footprint
import IpVault.Schema.Failures

set_option autoImplicit false

/-! # Refused requests

A request that is answered with a 4xx should have changed nothing. `Careful` follows a handler with
that in mind: as long as it may still refuse, the store is as the request found it. All handlers
are careful but three, which create the group they are given the name of and go on to checks that
may fail. `LateRefusal` says when they do.
-/

namespace IpVault

open Lib

variable {ctx : Ctx} {start v : Vault} {α β : Type}

/-- The answer is a 4xx. -/
def Response.Refused (r : Response) : Prop := 400 ≤ r.status ∧ r.status < 500

instance (r : Response) : Decidable r.Refused :=
  inferInstanceAs (Decidable (_ ∧ _))

/-- If the answer is a 4xx, the store is as it was at the `start`. -/
def Harmless (start : Vault) (r : Response) (w : Vault) : Prop := r.Refused → w = start

theorem harmless_of_lt {r : Response} (h : r.status < 400) : Harmless start r v := by
  intro hr
  have hge : 400 ≤ r.status := hr.1
  omega

/-- An error of the database is the server's. -/
theorem harmless_db_error (d : DbErr) : Harmless start (AppError.DbError d).into_response v := by
  intro hr
  cases d <;> exact absurd hr (by decide)

theorem harmless_internal : Harmless start AppError.Internal.into_response v :=
  fun hr => absurd hr (by decide)

/-- `p`, in a request that began in `start` and has come to `v`, refuses only where nothing has
changed. -/
abbrev Careful (start : Vault) (p : Handler α) (v : Vault) (Q : α → Vault → Prop) : Prop :=
  Prog.Meets database (fun _ _ => True) Q (fun e w => Harmless start e.into_response w) p v

/-! ## Rules -/

/-- Sequencing. -/
theorem Careful.bind {p : Handler α} {f : α → Handler β} {Q : α → Vault → Prop}
    {R : β → Vault → Prop} (hp : Careful start p v Q)
    (hf : ∀ a w, Q a w → Careful start (f a) w R) : Careful start (p >>= f) v R :=
  Prog.Meets.bind hp hf

/-- A weaker end. -/
theorem Careful.imp {p : Handler α} {Q R : α → Vault → Prop} (hp : Careful start p v Q)
    (h : ∀ a w, Q a w → R a w) : Careful start p v R :=
  Prog.Meets.imp hp h

/-- What does not fail, or fails where nothing has changed, is careful. -/
theorem Careful.of_meets {p : Handler α} {Q : α → Vault → Prop} {E : AppError → Vault → Prop}
    (hp : Prog.Meets database (fun _ _ => True) Q E p v) (hE : ∀ e w, E e w → w = start) :
    Careful start p v Q :=
  hp.mono (fun _ _ h => h) (fun _ _ h => h) fun e w h _ => hE e w h

theorem careful_of_reads {p : Handler α} (hp : OnlyReads p) : Careful v p v fun _ w => v = w :=
  (hp.meets (fun _ _ => trivial) v).mono (fun _ _ h => h) (fun _ _ h => h.symm) fun _ _ h _ => h

theorem careful_select {q : Query} : Careful start (select q) v fun a w =>
    v = w ∧ a = q.eval v.toWorld :=
  meets_select.mpr ⟨trivial, rfl, rfl⟩

theorem careful_require {c : Prop} [Decidable c] {e : AppError} :
    Careful v (Prog.require c e) v fun _ w => v = w ∧ c :=
  (Prog.meets_require c e _ v).mpr ⟨fun h => ⟨rfl, h⟩, fun _ _ => rfl⟩

/-- A check that is known to pass. -/
theorem careful_require_of {c : Prop} [Decidable c] {e : AppError} (hc : c) :
    Careful start (Prog.require c e) v fun _ w => v = w :=
  (Prog.meets_require c e _ v).mpr ⟨fun _ => rfl, fun hn => absurd hc hn⟩

theorem careful_ofExcept {x : Except AppError α} :
    Careful v (Prog.ofExcept x) v fun a w => v = w ∧ x = .ok a :=
  (Prog.meets_ofExcept x v).mpr ⟨fun _ h => ⟨rfl, h⟩, fun _ _ _ => rfl⟩

theorem careful_okOr {e : AppError} {x : Option α} :
    Careful v (Prog.okOr e x) v fun a w => v = w ∧ x = some a :=
  (Prog.meets_okOr e x v).mpr ⟨fun _ h => ⟨rfl, h⟩, fun _ _ => rfl⟩

/-- A value that is known to be there. -/
theorem careful_okOr_of {e : AppError} {x : Option α} {a : α} (ha : x = some a) :
    Careful start (Prog.okOr e x) v fun b w => v = w ∧ a = b := by
  subst ha
  exact ⟨rfl, rfl⟩

/-- The first write: if it fails, nothing has changed. -/
theorem careful_exec {l : Stmt} : Careful v (exec l) v fun a w =>
    w = v.after l ∧ ∃ w', l.txn v.toWorld = .ok (a, w') :=
  meets_exec.mpr ⟨trivial, fun _ w h => ⟨rfl, w, h⟩,
    fun _ h _ => Vault.ext_world (Stmt.after_of_error h)⟩

/-- A later write: its errors are those of the database. -/
theorem careful_exec_plain {l : Stmt} (hl : Plain l.txn) : Careful start (exec l) v fun a w =>
    w = v.after l ∧ ∃ w', l.txn v.toWorld = .ok (a, w') := by
  refine meets_exec.mpr ⟨trivial, fun _ w h => ⟨rfl, w, h⟩, fun e h => ?_⟩
  obtain ⟨d, rfl⟩ := hl _ e h
  exact harmless_db_error d

theorem careful_audit {action : String} {address names details : Option String} :
    Careful start (create_audit_log ctx action address names details) v fun _ _ => True :=
  (careful_exec_plain (l := .insert_audit _) (Txn.plain_insert_audit _)).imp fun _ _ _ => trivial

/-- The audit row and the response that ends most handlers. -/
theorem careful_audit_then {action : String} {address names details : Option String}
    {r : Response} (hr : r.status < 400) :
    Careful start (do create_audit_log ctx action address names details; pure r) v
      (Harmless start) :=
  careful_audit.bind fun _ _ _ => harmless_of_lt hr

theorem json_status (j : Json) : (json j).status < 400 := by
  show 200 < 400
  omega

theorem no_content_status : no_content.status < 400 := by decide

theorem ok_empty_status : ok_empty.status < 400 := by decide

/-! ## Keys -/

theorem create_api_key_careful (payload : CreateApiKeyPayload) :
    Careful v (create_api_key ctx payload) v (Harmless v) := by
  refine careful_require.bind fun _ _ ⟨rfl, _⟩ => ?_
  refine careful_ofExcept.bind fun _ _ ⟨rfl, _⟩ => ?_
  refine careful_ofExcept.bind fun _ _ ⟨rfl, _⟩ => ?_
  refine careful_ofExcept.bind fun stored _ ⟨rfl, _⟩ => ?_
  exact careful_exec.bind fun _ _ _ => careful_audit_then (json_status _)

theorem update_api_key_careful (id : Uuid) (payload : UpdateApiKeyPayload) :
    Careful v (update_api_key ctx id payload) v (Harmless v) := by
  refine careful_require.bind fun _ _ ⟨rfl, _⟩ => ?_
  refine (careful_of_reads (find_administrable_key_only_reads _ _)).bind fun target _ hv => ?_
  subst hv
  refine careful_ofExcept.bind fun _ _ ⟨rfl, _⟩ => ?_
  refine careful_ofExcept.bind fun _ _ ⟨rfl, _⟩ => ?_
  refine careful_ofExcept.bind fun _ _ ⟨rfl, _⟩ => ?_
  refine careful_ofExcept.bind fun _ _ ⟨rfl, _⟩ => ?_
  refine careful_exec.bind fun updated _ _ => ?_
  refine careful_audit.bind fun _ _ _ => ?_
  -- The summary is read back, which does not fail.
  have summary : ∀ w, Careful v (full_api_key_summary updated) w fun _ _ => True :=
    fun w => ⟨trivial, trivial⟩
  exact (summary _).bind fun _ _ _ => harmless_of_lt (json_status _)

theorem rotate_api_key_careful (id : Uuid) :
    Careful v (rotate_api_key ctx id) v (Harmless v) := by
  refine (careful_of_reads (rotation_target_only_reads _ _)).bind fun target _ hv => ?_
  subst hv
  refine careful_ofExcept.bind fun _ _ ⟨rfl, _⟩ => ?_
  exact careful_exec.bind fun _ _ _ => careful_audit_then (json_status _)

theorem rotate_signing_secret_careful (id : Uuid) :
    Careful v (rotate_signing_secret ctx id) v (Harmless v) := by
  refine (careful_of_reads (rotation_target_only_reads _ _)).bind fun target _ hv => ?_
  subst hv
  refine careful_ofExcept.bind fun _ _ ⟨rfl, _⟩ => ?_
  exact careful_exec.bind fun _ _ _ => careful_audit_then (json_status _)

/-- The writes of a resolution map leave the keys alone. -/
theorem apply_resolutions_careful (entries : List ResolutionEntry) (rest : List OwnedEntity) :
    Careful start (apply_resolutions entries rest) v fun _ w => w.keys = v.keys := by
  induction rest generalizing v with
  | nil => exact (rfl : v.keys = v.keys)
  | cons e es ih =>
      have okOr : Careful start (Prog.okOr .Internal (resolution_of entries e.key)) v
          fun _ w => v = w :=
        (Prog.meets_okOr _ _ v).mpr ⟨fun _ _ => rfl, fun _ => harmless_internal⟩
      refine okOr.bind fun resolution _ hv => ?_
      subst hv
      have plain : Plain (resolution_stmt e resolution).txn := by
        refine Stmt.plain (fun t h => ?_) fun t h => ?_
        · unfold resolution_stmt at h
          split at h <;> cases h
        · unfold resolution_stmt at h
          split at h <;> cases h
      refine (careful_exec_plain plain).bind fun _ w ⟨hw, _⟩ => ih.imp fun _ w' hkeys => ?_
      have hframe : (resolution_stmt e resolution).writes_keys = false := by
        unfold resolution_stmt
        split <;> rfl
      rw [hkeys, hw]
      exact (Stmt.frame _ v.toWorld).keys hframe

theorem delete_api_key_careful (id : Uuid) (resolutions : List ResolutionEntry) :
    Careful v (delete_api_key ctx id resolutions) v (Harmless v) := by
  refine careful_require.bind fun _ _ ⟨rfl, _⟩ => ?_
  refine careful_require.bind fun _ _ ⟨rfl, _⟩ => ?_
  have target : Careful v (find_administrable_key ctx.key id) v fun k w =>
      v = w ∧ k ∈ v.keys ∧ k.id = id := by
    refine careful_select.bind fun found _ ⟨rfl, hfound⟩ => ?_
    refine careful_okOr.bind fun k _ ⟨rfl, hk⟩ => ?_
    refine (careful_of_reads (caller_can_administer_key_only_reads _ _)).bind fun may w hw => ?_
    subst hw
    refine careful_require.bind fun _ _ ⟨rfl, _⟩ => ?_
    exact ⟨rfl, Table.find?_eq_some.mp (hfound.symm.trans hk)⟩
  refine target.bind fun target _ ⟨rfl, htarget, hid⟩ => ?_
  refine careful_ofExcept.bind fun _ _ ⟨rfl, _⟩ => ?_
  refine careful_ofExcept.bind fun _ _ ⟨rfl, _⟩ => ?_
  refine Careful.bind (collect_key_subtree_meets fun _ => trivial) fun subtree _ ⟨hv, hlineage⟩ => ?_
  subst hv
  refine careful_require.bind fun _ _ ⟨rfl, _⟩ => ?_
  refine Careful.bind (inventory_owned_entities_meets (fun _ => trivial) _)
    fun inventory _ ⟨hv, _⟩ => ?_
  subst hv
  refine careful_ofExcept.bind fun _ _ ⟨rfl, _⟩ => ?_
  refine (Careful.of_meets (validate_targets_meets (fun _ => trivial) _ _)
    fun _ _ h => h.symm).bind fun _ _ ⟨hv, _⟩ => ?_
  subst hv
  refine (apply_resolutions_careful resolutions inventory).bind fun _ w hkeys => ?_
  refine (careful_exec_plain (l := .delete_keys subtree) fun _ _ h => by cases h).bind
    fun rows_affected w₁ ⟨_, w₂, hrows⟩ => ?_
  -- The target is in its own subtree, and still there.
  have hpos : rows_affected ≠ 0 := by
    have hmem : target ∈ w.keys.rows.filter fun k => subtree.contains k.id := by
      rw [List.mem_filter, hkeys]
      refine ⟨htarget, List.contains_iff_mem.mpr ((hlineage target.id).mpr ?_)⟩
      rw [hid]
      exact .refl
    have hlen := List.length_pos_of_mem hmem
    have heq : (w.keys.rows.filter fun k => subtree.contains k.id).length = rows_affected := by
      cases hrows
      rfl
    rw [← heq]
    exact Nat.ne_of_gt hlen
  refine (careful_require_of hpos).bind fun _ _ hv => ?_
  subst hv
  exact careful_audit_then no_content_status

/-! ## Permission rows -/

theorem revoke_key_group_permission_careful (id : Uuid) (group_identifier : String) :
    Careful v (revoke_key_group_permission ctx id group_identifier) v (Harmless v) := by
  refine (careful_of_reads (guard_may_administer_any_group_only_reads _)).bind fun _ _ hv => ?_
  subst hv
  refine (careful_of_reads (resolve_group_by_identifier_only_reads _ _)).bind fun found _ hv => ?_
  subst hv
  refine careful_okOr.bind fun group _ h => ?_
  obtain ⟨rfl, -⟩ := h
  refine careful_select.bind fun grant _ h => ?_
  obtain ⟨rfl, hgrant⟩ := h
  refine careful_require.bind fun _ _ h => ?_
  obtain ⟨rfl, hsome⟩ := h
  refine careful_select.bind fun caller_perm _ h => ?_
  obtain ⟨rfl, -⟩ := h
  refine careful_ofExcept.bind fun _ _ h => ?_
  obtain ⟨rfl, -⟩ := h
  obtain ⟨p, hp⟩ := Option.isSome_iff_exists.mp hsome
  have hperm : v.permission id group.id = some p := hgrant.symm.trans hp
  refine careful_exec.bind fun rows_affected w h => ?_
  obtain ⟨hw, w', hrows⟩ := h
  have hpos : rows_affected ≠ 0 := by
    have hhas : v.permissions.has (id, group.id) = true := by
      obtain ⟨hmem, hkey, hgroup⟩ := World.permission_eq_some.mp hperm
      exact Table.has_iff.mpr ⟨p, hmem, Prod.ext hkey hgroup⟩
    simp only [Stmt.txn, Txn.delete_permission, hhas, if_true, Except.ok.injEq,
      Prod.mk.injEq] at hrows
    exact hrows.1 ▸ Nat.one_ne_zero
  refine (careful_require_of hpos).bind fun _ _ hv => ?_
  subst hv
  refine careful_select.bind fun target _ h => ?_
  obtain ⟨rfl, htarget⟩ := h
  -- The row that is gone had a key, by its foreign key.
  obtain ⟨k, hk⟩ : ∃ k, target = some k := by
    obtain ⟨hmem, hkey, -⟩ := World.permission_eq_some.mp hperm
    obtain ⟨k, hk, hid⟩ := Table.has_iff.mp (v.wf.permission_key p hmem)
    have hkeys : w.keys = v.keys := by
      rw [hw]
      exact (Stmt.frame _ v.toWorld).keys rfl
    refine ⟨k, htarget.trans ?_⟩
    show w.keys.find? id = some k
    rw [hkeys]
    exact Table.find?_eq_some.mpr ⟨hk, hid.trans hkey⟩
  refine (careful_okOr_of hk).bind fun _ _ h => ?_
  have hv := h.1
  exact careful_audit_then no_content_status

/-! ## Groups -/

theorem create_ip_group_careful (payload : CreateIpGroupPayload) :
    Careful v (create_ip_group ctx payload) v (Harmless v) := by
  refine careful_require.bind fun _ _ ⟨rfl, _⟩ => ?_
  have inserted : Careful v (attempt (.insert_group
      (new_group payload.name payload.resolved_type (resource_owner ctx.key) ctx.now))) v
      fun a w => ∀ e, a = .error e → w = v := by
    refine ⟨trivial, fun e he => ?_⟩
    change Stmt.answer _ v.toWorld = .error e at he
    unfold Stmt.answer at he
    generalize hr : (Stmt.insert_group _).txn v.toWorld = r at he
    cases r with
    | ok p => cases he
    | error e' => exact Vault.ext_world (Stmt.after_of_error hr)
  refine inserted.bind fun inserted w hw => ?_
  have id : Careful v (Prog.ofExcept (inserted.mapError (group_insert_error payload.name))) w
      fun _ _ => True := by
    refine (Prog.meets_ofExcept _ w).mpr ⟨fun _ _ => trivial, fun e he _ => ?_⟩
    cases inserted with
    | ok a => cases he
    | error e' => exact hw e' rfl
  refine id.bind fun id w₁ _ => ?_
  have provision : Careful v (provision_creator ctx id) w₁ fun _ _ => True := by
    unfold provision_creator
    split
    · trivial
    · exact (careful_exec_plain (Stmt.plain (fun _ h => by cases h) fun _ h => by cases h)).imp
        fun _ _ _ => trivial
  exact provision.bind fun _ _ _ => careful_audit_then (json_status _)

theorem delete_ip_group_careful (id : Uuid) :
    Careful v (delete_ip_group ctx id) v (Harmless v) := by
  refine careful_select.bind fun found _ ⟨rfl, hfound⟩ => ?_
  refine careful_okOr.bind fun group _ ⟨rfl, hgroup⟩ => ?_
  refine careful_ofExcept.bind fun _ _ ⟨rfl, _⟩ => ?_
  refine careful_exec.bind fun rows_affected w ⟨hw, w', hrows⟩ => ?_
  have hpos : rows_affected ≠ 0 := by
    obtain ⟨hmem, hid⟩ := Table.find?_eq_some.mp (hfound.symm.trans hgroup)
    have hhas : v.groups.has id = true := Table.has_iff.mpr ⟨group, hmem, hid⟩
    simp only [Stmt.txn, Txn.delete_group, hhas, if_true, Except.ok.injEq, Prod.mk.injEq] at hrows
    exact hrows.1 ▸ Nat.one_ne_zero
  refine (careful_require_of hpos).bind fun _ _ hv => ?_
  exact careful_audit_then no_content_status

/-- A check after a write whose refusal is an error of the database. -/
theorem careful_require_db {c : Prop} [Decidable c] {d : DbErr} :
    Careful start (Prog.require c (.DbError d)) v fun _ _ => True :=
  (Prog.meets_require c _ _ v).mpr ⟨fun _ => trivial, fun _ => harmless_db_error d⟩

theorem reassign_group_owner_careful (id : Uuid) (payload : ReassignOwnerPayload) :
    Careful v (reassign_group_owner ctx id payload) v (Harmless v) := by
  refine careful_require.bind fun _ _ ⟨rfl, _⟩ => ?_
  refine careful_select.bind fun found _ ⟨rfl, _⟩ => ?_
  refine careful_okOr.bind fun group _ ⟨rfl, _⟩ => ?_
  refine (careful_of_reads (resolve_owner_assignment_only_reads _)).bind fun owner _ hv => ?_
  subst hv
  refine careful_exec.bind fun rows_affected w _ => ?_
  refine careful_require_db.bind fun _ _ _ => ?_
  exact careful_audit_then (json_status _)

/-! ## Webhooks -/

theorem create_webhook_careful (payload : CreateWebhookPayload) :
    Careful v (create_webhook ctx payload) v (Harmless v) := by
  refine careful_require.bind fun _ _ ⟨rfl, _⟩ => ?_
  refine (careful_of_reads (webhook_group_guard_only_reads _)).bind fun _ _ hv => ?_
  subst hv
  refine careful_ofExcept.bind fun _ _ ⟨rfl, _⟩ => ?_
  refine careful_ofExcept.bind fun _ _ ⟨rfl, _⟩ => ?_
  refine careful_ofExcept.bind fun mode _ ⟨rfl, _⟩ => ?_
  refine careful_ofExcept.bind fun _ _ ⟨rfl, _⟩ => ?_
  exact careful_exec.bind fun _ _ _ => careful_audit_then (json_status _)

theorem update_webhook_careful (id : Uuid) (payload : UpdateWebhookPayload) :
    Careful v (update_webhook ctx id payload) v (Harmless v) := by
  refine (careful_of_reads (find_own_webhook_only_reads _)).bind fun target _ hv => ?_
  subst hv
  refine careful_ofExcept.bind fun _ _ ⟨rfl, _⟩ => ?_
  refine careful_ofExcept.bind fun _ _ ⟨rfl, _⟩ => ?_
  refine careful_ofExcept.bind fun _ _ ⟨rfl, _⟩ => ?_
  refine (careful_of_reads (update_group_guard_only_reads _ _)).bind fun _ _ hv => ?_
  subst hv
  refine careful_ofExcept.bind fun requested _ ⟨rfl, _⟩ => ?_
  refine careful_ofExcept.bind fun _ _ ⟨rfl, _⟩ => ?_
  exact careful_exec.bind fun _ _ _ => careful_audit_then (json_status _)

theorem clone_webhook_careful (id : Uuid) (name : String) :
    Careful v (clone_webhook ctx id name) v (Harmless v) := by
  refine (careful_of_reads (find_own_webhook_only_reads _)).bind fun source _ hv => ?_
  subst hv
  refine (careful_of_reads (webhook_group_guard_only_reads _)).bind fun _ _ hv => ?_
  subst hv
  refine careful_require.bind fun _ _ ⟨rfl, _⟩ => ?_
  refine careful_exec.bind fun _ _ _ => careful_audit_then ?_
  show 201 < 400
  omega

theorem delete_webhook_careful (id : Uuid) :
    Careful v (delete_webhook ctx id) v (Harmless v) := by
  have found : Careful v (find_own_webhook ctx id) v fun h w =>
      v = w ∧ h ∈ v.webhooks ∧ h.id = id := by
    refine careful_require.bind fun _ _ ⟨rfl, _⟩ => ?_
    refine careful_select.bind fun found _ ⟨rfl, hfound⟩ => ?_
    refine careful_okOr.bind fun h _ ⟨rfl, hh⟩ => ?_
    refine careful_require.bind fun _ _ ⟨rfl, _⟩ => ?_
    exact ⟨rfl, Table.find?_eq_some.mp (hfound.symm.trans hh)⟩
  refine found.bind fun h _ ⟨rfl, hmem, hid⟩ => ?_
  refine careful_exec.bind fun rows_affected w ⟨hw, w', hrows⟩ => ?_
  have hpos : rows_affected ≠ 0 := by
    have hhas : v.webhooks.has id = true := Table.has_iff.mpr ⟨h, hmem, hid⟩
    simp only [Stmt.txn, Txn.delete_webhook, hhas, if_true, Except.ok.injEq,
      Prod.mk.injEq] at hrows
    exact hrows.1 ▸ Nat.one_ne_zero
  refine (careful_require_of hpos).bind fun _ _ _ => ?_
  exact careful_audit_then no_content_status

theorem reassign_webhook_owner_careful (id : Uuid) (payload : ReassignOwnerPayload) :
    Careful v (reassign_webhook_owner ctx id payload) v (Harmless v) := by
  refine careful_require.bind fun _ _ ⟨rfl, _⟩ => ?_
  refine careful_select.bind fun found _ ⟨rfl, _⟩ => ?_
  refine careful_okOr.bind fun webhook _ ⟨rfl, _⟩ => ?_
  refine (careful_of_reads (resolve_owner_assignment_only_reads _)).bind fun owner _ hv => ?_
  subst hv
  refine careful_exec.bind fun rows_affected w _ => ?_
  refine careful_require_db.bind fun _ _ _ => ?_
  exact careful_audit_then (json_status _)

theorem test_webhook_careful (id : Uuid) (delivery : TestDelivery) :
    Careful v (test_webhook ctx id delivery) v (Harmless v) := by
  refine (careful_of_reads (find_own_webhook_only_reads _)).bind fun target _ hv => ?_
  subst hv
  refine careful_select.bind fun _ _ ⟨rfl, _⟩ => ?_
  have log : Careful v (log_execution id delivery.logged) v fun _ _ => True := by
    unfold log_execution
    split
    · trivial
    · exact ⟨trivial, trivial⟩
  exact log.bind fun _ _ _ => careful_audit_then (json_status _)

theorem delete_webhook_execution_careful (id : Uuid) :
    Careful v (delete_webhook_execution ctx id) v (Harmless v) := by
  refine careful_require.bind fun _ _ ⟨rfl, _⟩ => ?_
  refine careful_select.bind fun found _ ⟨rfl, hfound⟩ => ?_
  refine careful_okOr.bind fun execution _ ⟨rfl, hexecution⟩ => ?_
  refine (careful_of_reads (execution_guard_only_reads _)).bind fun _ _ hv => ?_
  subst hv
  refine careful_exec.bind fun rows_affected w ⟨hw, w', hrows⟩ => ?_
  have hpos : rows_affected ≠ 0 := by
    obtain ⟨hmem, hid⟩ := Table.find?_eq_some.mp (hfound.symm.trans hexecution)
    have hhas : v.executions.has id = true := Table.has_iff.mpr ⟨execution, hmem, hid⟩
    simp only [Stmt.txn, Txn.delete_execution, hhas, if_true, Except.ok.injEq,
      Prod.mk.injEq] at hrows
    exact hrows.1 ▸ Nat.one_ne_zero
  refine (careful_require_of hpos).bind fun _ _ _ => ?_
  exact careful_audit_then no_content_status

end IpVault
