import IpVault.Access.Records

set_option autoImplicit false

/-! # The footprint of an endpoint

Which statements each endpoint can issue, whatever the database answers: of which kind, and, where it
deletes a group, a webhook or an execution, of which row. A proof about all endpoints that is about one
table has to look at those only that can write it.
-/

namespace IpVault

open Lib

/-- The statements an endpoint can issue. What the deletion of a key takes along, its map says. -/
def Call.footprint (call : Call) (l : Stmt) : Bool :=
  match l with
  | .query _ => true
  | .insert_audit _ => match call with
      | .read _ _ | .rejected _ => false
      | _ => true
  | .insert_group_or_ignore _ => match call with
      | .handle_ban _ | .handle_white _ | .batch_records _ | .update_key_group_permissions _ _ => true
      | _ => false
  | .insert_permission_or_ignore _ | .upsert_txn _ => match call with
      | .handle_ban _ | .handle_white _ => true
      | _ => false
  | .batch_txn _ => match call with
      | .batch_records _ => true
      | _ => false
  | .delete_ip_txn _ => match call with
      | .delete_ip _ _ => true
      | _ => false
  | .enqueue _ => match call with
      | .handle_ban _ | .handle_white _ | .batch_records _ | .delete_ip _ _ => true
      | _ => false
  | .update_record _ _ => match call with
      | .delete_ip_record _ _ | .restore_ip_record _ => true
      | _ => false
  | .delete_record _ => match call with
      | .delete_ip_record _ _ => true
      | _ => false
  | .purge _ => match call with
      | .purge_ip_records _ => true
      | _ => false
  | .insert_group _ | .insert_permission _ => match call with
      | .create_ip_group _ => true
      | _ => false
  | .delete_group group_id => match call with
      | .delete_ip_group id => group_id == id
      | .delete_api_key _ resolutions =>
          resolution_of resolutions (EntityType.group.as_str, group_id) == some .Delete
      | _ => false
  | .set_group_owner _ _ => match call with
      | .reassign_group_owner _ _ | .delete_api_key _ _ => true
      | _ => false
  | .insert_key _ => match call with
      | .create_api_key _ => true
      | _ => false
  | .update_key _ _ => match call with
      | .update_api_key _ _ | .rotate_api_key _ | .rotate_signing_secret _ => true
      | _ => false
  | .delete_keys _ => match call with
      | .delete_api_key _ _ => true
      | _ => false
  | .upsert_permission _ => match call with
      | .update_key_group_permissions _ _ => true
      | _ => false
  | .delete_permission _ _ => match call with
      | .revoke_key_group_permission _ _ => true
      | _ => false
  | .insert_webhook _ => match call with
      | .create_webhook _ | .clone_webhook _ _ => true
      | _ => false
  | .update_webhook _ _ => match call with
      | .update_webhook _ _ => true
      | _ => false
  | .set_webhook_owner _ _ => match call with
      | .reassign_webhook_owner _ _ | .delete_api_key _ _ => true
      | _ => false
  | .delete_webhook webhook_id => match call with
      | .delete_webhook id => webhook_id == id
      | .delete_api_key _ resolutions =>
          resolution_of resolutions (EntityType.webhook.as_str, webhook_id) == some .Delete
      | _ => false
  | .insert_execution _ => match call with
      | .test_webhook _ _ => true
      | _ => false
  | .delete_execution execution_id => match call with
      | .delete_webhook_execution id => execution_id == id
      | _ => false

/-- The handler `p` stays within what the endpoint can issue. -/
abbrev Within {α : Type} (call : Call) (p : Handler α) : Prop :=
  p.Issues fun l : Stmt => call.footprint l = true

section Rules

variable {ctx : Ctx} {call : Call} {α : Type}

theorem within_reads {p : Handler α} (h : OnlyReads p) : Within call p :=
  Prog.Issues.mono h fun _ ⟨_, hq⟩ => hq ▸ rfl

theorem within_exec {l : Stmt} (h : call.footprint l = true) : Within call (exec l) :=
  .bind (.op h) fun _ => .ofExcept _

/-- The end of most handlers. -/
theorem within_audit_then {action : String} {address names details : Option String} {a : α}
    (h : ∀ row, call.footprint (.insert_audit row) = true) :
    Within call (do create_audit_log ctx action address names details; pure a) :=
  .bind (within_exec (h _)) fun _ => trivial

end Rules

variable {ctx : Ctx} {call : Call}

/-! ## Records -/

theorem get_or_create_group_within (name default_group_type : String) (owner : Option Uuid)
    (h : ∀ g, call.footprint (.insert_group_or_ignore g) = true) :
    Within call (get_or_create_group ctx name default_group_type owner) :=
  .bind (within_exec (h _)) fun _ => .bind (within_reads (.select _)) fun _ => .okOr _ _

/-- Bans and whitelistings, for either endpoint. -/
theorem handle_ip_upsert_within (payload : BanWhitePayload) (is_whitelist : Bool)
    (hgroup : ∀ g, call.footprint (.insert_group_or_ignore g) = true)
    (hrow : ∀ p, call.footprint (.insert_permission_or_ignore p) = true)
    (hwrite : ∀ t, call.footprint (.upsert_txn t) = true)
    (hsend : ∀ e, call.footprint (.enqueue e) = true) :
    Within call (handle_ip_upsert ctx payload is_whitelist) := by
  have existing : ∀ g, Within call (upsert_existing_group ctx is_whitelist g) := by
    intro g
    exact .bind (within_reads (upsert_guard_only_reads _)) fun _ => .bind (.ofExcept _) fun _ => trivial
  have provision : ∀ id, Within call (provision_caller ctx id) := by
    intro id
    unfold provision_caller
    split
    · trivial
    · exact within_exec (hrow _)
  have new : ∀ name, Within call (upsert_new_group ctx is_whitelist name) := by
    intro name
    refine .bind (.require _ _) fun _ => ?_
    refine .bind (get_or_create_group_within _ _ _ hgroup) fun g => ?_
    exact .bind (provision g.id) fun _ => trivial
  have group : Within call (upsert_group ctx payload is_whitelist) := by
    refine .bind (within_reads (resolve_group_ref_only_reads _ _)) fun found => ?_
    split
    · exact existing _
    · exact new _
    · trivial
  refine .bind (.okOr _ _) fun network => .bind (.ofExcept _) fun _ => .bind group fun g => ?_
  exact .bind (within_exec (hwrite _)) fun action => .bind (within_exec (hsend _)) fun _ => trivial

theorem batch_guard_only_reads (mode : BatchMode) (group_id : Uuid) :
    OnlyReads (batch_guard ctx mode group_id) :=
  row_guard_only_reads (guard_batch mode) group_id

theorem batch_records_within (payload : BatchRecordsPayload) :
    Within (.batch_records payload) (batch_records ctx payload) := by
  have group : Within (.batch_records payload) (batch_group ctx payload) := by
    refine .bind (within_reads (.select _)) fun existing => ?_
    split
    · exact .bind (within_reads (batch_guard_only_reads _ _)) fun _ => trivial
    · refine .bind (.require _ _) fun _ => ?_
      exact get_or_create_group_within _ _ _ fun _ => rfl
  have enqueued : ∀ events, Within (.batch_records payload) (enqueue_all events) := by
    intro events
    induction events with
    | nil => trivial
    | cons e es ih => exact .bind (within_exec rfl) fun _ => ih
  refine .bind (.require _ _) fun _ => .bind (.ofExcept _) fun normalized => .bind group fun g => ?_
  refine .bind (.ofExcept _) fun _ => .bind (within_exec rfl) fun st => ?_
  exact .bind (enqueued _) fun _ => trivial

theorem delete_ip_within (query_params : DeleteIpQuery) (body : OptionalBody DeleteIpQuery) :
    Within (.delete_ip query_params body) (delete_ip ctx query_params body) := by
  refine .bind (.ofExcept _) fun body_params => .bind (.okOr _ _) fun target_address => ?_
  refine .bind (within_reads (resolve_group_ref_only_reads _ _)) fun found => ?_
  refine .bind (.okOr _ _) fun group => ?_
  refine .bind (within_reads (delete_ip_guard_only_reads _)) fun _ => ?_
  exact .bind (within_exec rfl) fun record => .bind (within_exec rfl) fun _ => trivial

theorem caller_may_delete_record_only_reads (key : ApiKey) (record_id : Uuid) :
    OnlyReads (caller_may_delete_record key record_id) := by
  unfold caller_may_delete_record
  split
  · trivial
  · refine .bind (.select _) fun memberships => ?_
    dsimp only
    split
    · trivial
    · exact .bind (.select _) fun _ => trivial

theorem delete_ip_record_within (id : Uuid) (hard : Option Bool) :
    Within (.delete_ip_record id hard) (delete_ip_record ctx id hard) := by
  refine .bind (within_reads (.select _)) fun found => .bind (.okOr _ _) fun record => ?_
  refine .bind (within_reads (caller_may_delete_record_only_reads _ _)) fun may => ?_
  refine .bind (.require _ _) fun _ => .bind (.require _ _) fun _ => .bind (.require _ _) fun _ => ?_
  refine .ite ?_ ?_
  · exact .bind (within_exec rfl) fun _ => within_audit_then fun _ => rfl
  · unfold soft_delete_record
    dsimp only
    split
    · trivial
    · exact .bind (within_exec rfl) fun _ => within_audit_then fun _ => rfl

theorem restore_ip_record_within (id : Uuid) :
    Within (.restore_ip_record id) (restore_ip_record ctx id) := by
  refine .bind (.require _ _) fun _ => .bind (within_reads (.select _)) fun found => ?_
  refine .bind (.okOr _ _) fun record => .bind (.require _ _) fun _ => ?_
  exact .bind (within_exec rfl) fun restored => within_audit_then fun _ => rfl

theorem purge_ip_records_within (body : OptionalBody (Option Int)) :
    Within (.purge_ip_records body) (purge_ip_records ctx body) := by
  have purge : ∀ days,
      Within (.purge_ip_records body) (purge_expired_ip_records ctx.now days) := by
    intro days
    unfold purge_expired_ip_records
    split
    · trivial
    · exact within_exec rfl
  refine .bind (.require _ _) fun _ => .bind (.ofExcept _) fun days => .bind (.require _ _) fun _ => ?_
  exact .bind (purge _) fun purged => within_audit_then fun _ => rfl

/-! ## Groups -/

theorem create_ip_group_within (payload : CreateIpGroupPayload) :
    Within (.create_ip_group payload) (create_ip_group ctx payload) := by
  have provision : ∀ id, Within (.create_ip_group payload) (provision_creator ctx id) := by
    intro id
    unfold provision_creator
    split
    · trivial
    · exact within_exec rfl
  refine .bind (.require _ _) fun _ => .bind (.op rfl) fun inserted => .bind (.ofExcept _) fun id => ?_
  exact .bind (provision id) fun _ => within_audit_then fun _ => rfl

theorem delete_ip_group_within (id : Uuid) :
    Within (.delete_ip_group id) (delete_ip_group ctx id) := by
  refine .bind (within_reads (.select _)) fun found => .bind (.okOr _ _) fun group => ?_
  refine .bind (.ofExcept _) fun _ => ?_
  refine .bind (within_exec (beq_self_eq_true id)) fun rows => .bind (.require _ _) fun _ => ?_
  exact within_audit_then fun _ => rfl

theorem resolve_owner_assignment_only_reads (requested : Option Uuid) :
    OnlyReads (resolve_owner_assignment requested) := by
  unfold resolve_owner_assignment
  split
  · trivial
  · exact .bind (.select _) fun _ => .bind (.okOr _ _) fun _ => .bind (.require _ _) fun _ => trivial

theorem reassign_group_owner_within (id : Uuid) (payload : ReassignOwnerPayload) :
    Within (.reassign_group_owner id payload) (reassign_group_owner ctx id payload) := by
  refine .bind (.require _ _) fun _ => .bind (within_reads (.select _)) fun found => ?_
  refine .bind (.okOr _ _) fun group => ?_
  refine .bind (within_reads (resolve_owner_assignment_only_reads _)) fun owner => ?_
  refine .bind (within_exec rfl) fun rows => .bind (.require _ _) fun _ => ?_
  exact within_audit_then fun _ => rfl

/-! ## Keys -/

theorem create_api_key_within (payload : CreateApiKeyPayload) :
    Within (.create_api_key payload) (create_api_key ctx payload) := by
  refine .bind (.require _ _) fun _ => .bind (.ofExcept _) fun _ => .bind (.ofExcept _) fun _ => ?_
  refine .bind (.ofExcept _) fun stored => .bind (within_exec rfl) fun id => ?_
  exact within_audit_then fun _ => rfl

theorem find_administrable_key_only_reads (caller : ApiKey) (target : Uuid) :
    OnlyReads (find_administrable_key caller target) := by
  refine .bind (.select _) fun found => .bind (.okOr _ _) fun key => ?_
  refine .bind (caller_can_administer_key_only_reads _ _) fun may => ?_
  exact .bind (.require _ _) fun _ => trivial

theorem update_api_key_within (id : Uuid) (payload : UpdateApiKeyPayload) :
    Within (.update_api_key id payload) (update_api_key ctx id payload) := by
  refine .bind (.require _ _) fun _ => ?_
  refine .bind (within_reads (find_administrable_key_only_reads _ _)) fun target => ?_
  refine .bind (.ofExcept _) fun _ => .bind (.ofExcept _) fun _ => .bind (.ofExcept _) fun _ => ?_
  refine .bind (.ofExcept _) fun _ => .bind (within_exec rfl) fun updated => ?_
  refine .bind (within_exec rfl) fun _ => ?_
  exact .bind (within_reads (full_api_key_summary_only_reads _)) fun _ => trivial

theorem rotation_target_only_reads (id : Uuid) (operation : String) :
    OnlyReads (rotation_target ctx id operation) := by
  refine .bind (.require _ _) fun _ => .bind (find_administrable_key_only_reads _ _) fun target => ?_
  exact .bind (.ofExcept _) fun _ => .bind (.ofExcept _) fun _ => trivial

theorem rotate_api_key_within (id : Uuid) :
    Within (.rotate_api_key id) (rotate_api_key ctx id) := by
  refine .bind (within_reads (rotation_target_only_reads _ _)) fun target => ?_
  refine .bind (.ofExcept _) fun stored => .bind (within_exec rfl) fun _ => ?_
  exact within_audit_then fun _ => rfl

theorem rotate_signing_secret_within (id : Uuid) :
    Within (.rotate_signing_secret id) (rotate_signing_secret ctx id) := by
  refine .bind (within_reads (rotation_target_only_reads _ _)) fun target => ?_
  refine .bind (.ofExcept _) fun stored => .bind (within_exec rfl) fun _ => ?_
  exact within_audit_then fun _ => rfl

theorem inventory_owned_entities_only_reads (subtree : List Uuid) :
    OnlyReads (inventory_owned_entities subtree) :=
  .bind (.select _) fun _ => .bind (.select _) fun _ => .bind (.select _) fun _ => trivial

theorem validate_targets_only_reads (doomed : List Uuid) (entries : List ResolutionEntry) :
    OnlyReads (validate_targets doomed entries) := by
  induction entries with
  | nil => trivial
  | cons e es ih =>
      unfold validate_targets
      split
      · exact ih
      · refine .bind (resolve_owner_assignment_only_reads _) fun _ => ?_
        exact .bind (.require _ _) fun _ => ih

/-- The write for an entity is what the map says of it. -/
theorem resolution_stmt_footprint (id : Uuid) {resolutions : List ResolutionEntry} {e : OwnedEntity}
    {resolution : Resolution} (h : resolution_of resolutions e.key = some resolution) :
    (Call.delete_api_key id resolutions).footprint (resolution_stmt e resolution) = true := by
  obtain ⟨entity_type, entity_id, name, owner, owner_name⟩ := e
  cases resolution with
  | Delete =>
      -- A deletion must be the map's own, of the row that is deleted.
      cases entity_type <;> exact beq_iff_eq.mpr h
  | Reassign owner_key_id => cases entity_type <;> rfl

theorem apply_resolutions_within (id : Uuid) (resolutions : List ResolutionEntry)
    (inventory : List OwnedEntity) :
    Within (.delete_api_key id resolutions) (apply_resolutions resolutions inventory) := by
  induction inventory with
  | nil => trivial
  | cons e es ih =>
      refine .found fun resolution hresolution => ?_
      exact .bind (within_exec (resolution_stmt_footprint id hresolution)) fun _ => ih

theorem delete_api_key_within (id : Uuid) (resolutions : List ResolutionEntry) :
    Within (.delete_api_key id resolutions) (delete_api_key ctx id resolutions) := by
  refine .bind (.require _ _) fun _ => .bind (.require _ _) fun _ => ?_
  refine .bind (within_reads (find_administrable_key_only_reads _ _)) fun target => ?_
  refine .bind (.ofExcept _) fun _ => .bind (.ofExcept _) fun _ => ?_
  refine .bind (within_reads (collect_key_subtree_only_reads _)) fun subtree => ?_
  refine .bind (.require _ _) fun _ => ?_
  refine .bind (within_reads (inventory_owned_entities_only_reads _)) fun inventory => ?_
  refine .bind (.ofExcept _) fun _ => ?_
  refine .bind (within_reads (validate_targets_only_reads _ _)) fun _ => ?_
  refine .bind (apply_resolutions_within id resolutions inventory) fun _ => ?_
  refine .bind (within_exec rfl) fun rows => .bind (.require _ _) fun _ => ?_
  exact within_audit_then fun _ => rfl

/-! ## Permission rows -/

theorem update_key_group_permissions_within (id : Uuid) (payload : GroupPermInput) :
    Within (.update_key_group_permissions id payload)
      (update_key_group_permissions ctx id payload) := by
  have group : Within (.update_key_group_permissions id payload) (permission_group ctx payload) := by
    refine .bind (within_reads (resolve_group_ref_flexible_only_reads _ _ _)) fun found => ?_
    split
    · trivial
    · refine .bind (.require _ _) fun _ => ?_
      exact get_or_create_group_within _ _ _ fun _ => rfl
    · trivial
  refine .bind (within_reads (guard_may_administer_any_group_only_reads _)) fun _ => ?_
  refine .bind (within_reads (.select _)) fun found => .bind (.okOr _ _) fun target => ?_
  refine .bind (.require _ _) fun _ => .bind (.require _ _) fun _ => .bind group fun g => ?_
  refine .bind (within_reads (.select _)) fun caller_perm => ?_
  refine .bind (within_reads (.select _)) fun target_perm => .bind (.ofExcept _) fun _ => ?_
  exact .bind (within_exec rfl) fun _ => within_audit_then fun _ => rfl

theorem revoke_key_group_permission_within (id : Uuid) (group_identifier : String) :
    Within (.revoke_key_group_permission id group_identifier)
      (revoke_key_group_permission ctx id group_identifier) := by
  refine .bind (within_reads (guard_may_administer_any_group_only_reads _)) fun _ => ?_
  refine .bind (within_reads (resolve_group_by_identifier_only_reads _ _)) fun found => ?_
  refine .bind (.okOr _ _) fun group => .bind (within_reads (.select _)) fun grant => ?_
  refine .bind (.require _ _) fun _ => .bind (within_reads (.select _)) fun caller_perm => ?_
  refine .bind (.ofExcept _) fun _ => .bind (within_exec rfl) fun rows => ?_
  refine .bind (.require _ _) fun _ => .bind (within_reads (.select _)) fun found => ?_
  exact .bind (.okOr _ _) fun target => within_audit_then fun _ => rfl

/-! ## Webhooks -/

theorem create_webhook_within (payload : CreateWebhookPayload) :
    Within (.create_webhook payload) (create_webhook ctx payload) := by
  refine .bind (.require _ _) fun _ => ?_
  refine .bind (within_reads (webhook_group_guard_only_reads _)) fun _ => ?_
  refine .bind (.ofExcept _) fun _ => .bind (.ofExcept _) fun _ => .bind (.ofExcept _) fun mode => ?_
  refine .bind (.ofExcept _) fun _ => .bind (within_exec rfl) fun id => ?_
  exact within_audit_then fun _ => rfl

theorem update_webhook_within (id : Uuid) (payload : UpdateWebhookPayload) :
    Within (.update_webhook id payload) (update_webhook ctx id payload) := by
  refine .bind (within_reads (find_own_webhook_only_reads id)) fun target => ?_
  refine .bind (.ofExcept _) fun _ => .bind (.ofExcept _) fun _ => .bind (.ofExcept _) fun _ => ?_
  refine .bind (within_reads (update_group_guard_only_reads target _)) fun _ => ?_
  refine .bind (.ofExcept _) fun requested => .bind (.ofExcept _) fun _ => ?_
  exact .bind (within_exec rfl) fun updated => within_audit_then fun _ => rfl

theorem clone_webhook_within (id : Uuid) (name : String) :
    Within (.clone_webhook id name) (clone_webhook ctx id name) := by
  refine .bind (within_reads (find_own_webhook_only_reads id)) fun source => ?_
  refine .bind (within_reads (webhook_group_guard_only_reads _)) fun _ => ?_
  refine .bind (.require _ _) fun _ => .bind (within_exec rfl) fun new_id => ?_
  exact within_audit_then fun _ => rfl

theorem delete_webhook_within (id : Uuid) :
    Within (.delete_webhook id) (delete_webhook ctx id) := by
  refine .bind (within_reads (find_own_webhook_only_reads id)) fun _ => ?_
  refine .bind (within_exec (beq_self_eq_true id)) fun rows => .bind (.require _ _) fun _ => ?_
  exact within_audit_then fun _ => rfl

theorem reassign_webhook_owner_within (id : Uuid) (payload : ReassignOwnerPayload) :
    Within (.reassign_webhook_owner id payload) (reassign_webhook_owner ctx id payload) := by
  refine .bind (.require _ _) fun _ => .bind (within_reads (.select _)) fun found => ?_
  refine .bind (.okOr _ _) fun webhook => ?_
  refine .bind (within_reads (resolve_owner_assignment_only_reads _)) fun owner => ?_
  refine .bind (within_exec rfl) fun rows => .bind (.require _ _) fun _ => ?_
  exact within_audit_then fun _ => rfl

theorem test_webhook_within (id : Uuid) (delivery : TestDelivery) :
    Within (.test_webhook id delivery) (test_webhook ctx id delivery) := by
  have log : Within (.test_webhook id delivery) (log_execution id delivery.logged) := by
    unfold log_execution
    split
    · trivial
    · exact .bind (.op rfl) fun _ => trivial
  refine .bind (within_reads (find_own_webhook_only_reads id)) fun target => ?_
  refine .bind (within_reads (.select _)) fun _ => .bind log fun _ => ?_
  exact within_audit_then fun _ => rfl

theorem execution_guard_only_reads (execution : WebhookExecution) :
    OnlyReads (execution_guard ctx execution) := by
  unfold execution_guard
  split
  · trivial
  · exact .bind (.select _) fun _ => .require _ _

theorem delete_webhook_execution_within (id : Uuid) :
    Within (.delete_webhook_execution id) (delete_webhook_execution ctx id) := by
  refine .bind (.require _ _) fun _ => .bind (within_reads (.select _)) fun found => ?_
  refine .bind (.okOr _ _) fun execution => ?_
  refine .bind (within_reads (execution_guard_only_reads _)) fun _ => ?_
  refine .bind (within_exec (beq_self_eq_true id)) fun rows => .bind (.require _ _) fun _ => ?_
  exact within_audit_then fun _ => rfl

/-! ## Every endpoint -/

/-- **Footprints.** No endpoint issues a statement outside its footprint. -/
theorem Call.within (call : Call) : Within call (call.handler ctx) := by
  cases call with
  | handle_ban payload =>
      exact handle_ip_upsert_within payload false (fun _ => rfl) (fun _ => rfl) (fun _ => rfl)
        fun _ => rfl
  | handle_white payload =>
      exact handle_ip_upsert_within payload true (fun _ => rfl) (fun _ => rfl) (fun _ => rfl)
        fun _ => rfl
  | batch_records payload => exact batch_records_within payload
  | delete_ip query_params body => exact delete_ip_within query_params body
  | delete_ip_record id hard => exact delete_ip_record_within id hard
  | restore_ip_record id => exact restore_ip_record_within id
  | purge_ip_records body => exact purge_ip_records_within body
  | create_ip_group payload => exact create_ip_group_within payload
  | delete_ip_group id => exact delete_ip_group_within id
  | reassign_group_owner id payload => exact reassign_group_owner_within id payload
  | create_api_key payload => exact create_api_key_within payload
  | update_api_key id payload => exact update_api_key_within id payload
  | delete_api_key id resolutions => exact delete_api_key_within id resolutions
  | rotate_api_key id => exact rotate_api_key_within id
  | rotate_signing_secret id => exact rotate_signing_secret_within id
  | update_key_group_permissions id payload => exact update_key_group_permissions_within id payload
  | revoke_key_group_permission id identifier => exact revoke_key_group_permission_within id identifier
  | create_webhook payload => exact create_webhook_within payload
  | update_webhook id payload => exact update_webhook_within id payload
  | clone_webhook id name => exact clone_webhook_within id name
  | delete_webhook id => exact delete_webhook_within id
  | reassign_webhook_owner id payload => exact reassign_webhook_owner_within id payload
  | test_webhook id delivery => exact test_webhook_within id delivery
  | delete_webhook_execution id => exact delete_webhook_execution_within id
  | read body only => exact within_reads (only ctx)
  | rejected e => trivial

/-- A request stays within the footprint of its endpoint. -/
theorem Service.within (S : Service) (req : Request) :
    (S.serve req).Issues fun l : Stmt => req.call.footprint l = true :=
  .bind (within_reads (.select _)) fun _ => .bind (.okOr _ _) fun _ => req.call.within

/-- **Invariants of a request**, if it may rely on the kinds of its statements, too. -/
theorem Service.handle_keeps_within (S : Service) (req : Request) (v : Vault) {I : Vault → Prop}
    (hv : I v)
    (hstep : ∀ key ∈ v.keys, key.id = req.key_id → ∀ l w,
      Permits (S.ctx req key) req.call v l w → req.call.footprint l = true → I w → I (w.after l)) : I (S.handle req v).2 := by
  have h := ((serve_meets S req v).and ((S.within req).meets v)).keeps hv fun l w hl hw => by
    obtain ⟨⟨q, rfl⟩ | ⟨key, hkey, hid, hpermits⟩, hfoot⟩ := hl
    · exact hw
    · exact hstep key hkey hid l w hpermits hfoot hw
  unfold Service.handle
  generalize (S.serve req).run database v = r at h ⊢
  obtain ⟨_ | _, v'⟩ := r <;> exact h

end IpVault
