import IpVault.Access.AuditTrail
import IpVault.Access.Footprint

set_option autoImplicit false

/-! # Every endpoint keeps its books

An endpoint that succeeds after it has changed one of the audited tables has written an audit row for
the key of the request, as its last write. That is a matter of the order of its statements, whatever
the database answers to them.
-/

namespace IpVault

open Lib Books Prog

/-- The answer of a statement that has failed. -/
def failed_answer {α : Type} : Except AppError α → Bool
  | .ok _ => false
  | .error _ => true

/-- The books of the requests of a key: their audit rows name it. -/
def audit_books (key_id : Uuid) : Books Db where
  kind l := Stmt.kind l
  failed _ r := failed_answer r
  proper l := ∀ named, Stmt.auditor l = some named → named = some key_id

section Rules

variable {key_id : Uuid} {α β : Type} {ph : Phase} {R : β → Phase → Prop}

/-- Reads go by. -/
theorem booked_reads {p : Handler α} (hp : OnlyReads p) :
    Booked (audit_books key_id) (fun _ ph' => ph' = ph) p ph := by
  refine Booked.of_other (hp.mono fun l hl => ?_)
  obtain ⟨q, rfl⟩ := hl
  rfl

theorem booked_reads_then {p : Handler α} {f : α → Handler β} (hp : OnlyReads p)
    (hf : ∀ a, Booked (audit_books key_id) R (f a) ph) :
    Booked (audit_books key_id) R (p >>= f) ph := by
  refine (booked_reads hp).bind fun a ph' h => ?_
  rw [h]
  exact hf a

/-- A statement that changes one of the tables, or adds the audit row. -/
theorem booked_exec {l : Stmt} (hl : l.kind ≠ .other) (hph : ph ≠ .recorded)
    (hproper : (audit_books key_id).proper l) :
    Booked (audit_books key_id) (fun _ ph' => ph' = ph.next l.kind) (exec l) ph := by
  refine ⟨fun ho => absurd ho hl, fun _ => ⟨hph, hproper, fun r => ?_⟩⟩
  cases r with
  | ok a => exact rfl
  | error e => exact ⟨e, rfl⟩

theorem next_change (hph : ph ≠ .recorded) : ph.next .change = .dirty := by
  cases ph with
  | clean => rfl
  | dirty => rfl
  | recorded => exact absurd rfl hph

theorem proper_change {l : Stmt} (hl : l.kind = .change) : (audit_books key_id).proper l := by
  intro named hnamed
  rw [Stmt.kind, hnamed] at hl
  cases hl

theorem booked_change {l : Stmt} (hl : l.kind = .change) (hph : ph ≠ .recorded) :
    Booked (audit_books key_id) (fun _ ph' => ph' = .dirty) (exec l) ph := by
  refine (booked_exec (by rw [hl]; decide) hph (proper_change hl)).imp fun _ ph' h => ?_
  rw [h, hl, next_change hph]

theorem booked_change_then {l : Stmt} {f : l.Reply → Handler β} (hl : l.kind = .change)
    (hph : ph ≠ .recorded) (hf : ∀ a, Booked (audit_books key_id) R (f a) .dirty) :
    Booked (audit_books key_id) R (exec l >>= f) ph := by
  refine (booked_change hl hph).bind fun a ph' h => ?_
  rw [h]
  exact hf a

/-- The same, with the error worded by the endpoint. -/
theorem booked_attempt_then {l : Stmt} {word : AppError → AppError} {f : l.Reply → Handler β}
    (hl : l.kind = .change) (hph : ph ≠ .recorded)
    (hf : ∀ a, Booked (audit_books key_id) R (f a) .dirty) :
    Booked (audit_books key_id) R
      (do let r ← attempt l; let a ← Prog.ofExcept (r.mapError word); f a) ph := by
  have hnext : ph.next (Stmt.kind l) = .dirty := by rw [hl, next_change hph]
  refine ⟨fun ho => ?_, fun _ => ⟨hph, proper_change hl, fun r => ?_⟩⟩
  · cases hl.symm.trans ho
  · cases r with
    | error e => exact ⟨word e, rfl⟩
    | ok a =>
        show Booked (audit_books key_id) R (f a) (ph.next (Stmt.kind l))
        rw [hnext]
        exact hf a

/-- The statement that adds the audit row. After it, only what is no matter of the books. -/
theorem booked_record_then {l : Stmt} {f : l.Reply → Handler β} {named : Uuid}
    (hl : l.auditor = some (some named)) (hnamed : named = key_id) (hph : ph ≠ .recorded)
    (hf : ∀ a, (f a).Issues fun l => (audit_books key_id).kind l = .other) :
    Booked (audit_books key_id) Closed (exec l >>= f) ph := by
  have hkind : l.kind = .record := by
    rw [Stmt.kind, hl]
    rfl
  have hproper : (audit_books key_id).proper l := by
    intro named' h
    rw [hl] at h
    rw [← Option.some.inj h, hnamed]
  refine (booked_exec (by rw [hkind]; decide) hph hproper).bind fun a ph' h => ?_
  refine (Booked.of_other (hf a)).imp fun _ ph'' h' => ?_
  rw [h', h, hkind]
  have hnext : ph.next .record = .recorded := by cases ph <;> rfl
  rw [hnext]
  show Phase.recorded ≠ .dirty
  decide

end Rules

variable {ctx : Ctx} {ph : Phase}

/-- `p` keeps the books of the request to its end. -/
abbrev KeepsBooks (ctx : Ctx) (p : Handler Response) (ph : Phase) : Prop :=
  Booked (audit_books ctx.key.id) Closed p ph

/-- The audit row and the response that ends most handlers. -/
theorem books_audit_then {action : String} {address names details : Option String} {r : Response}
    (hph : ph ≠ .recorded) :
    KeepsBooks ctx (do create_audit_log ctx action address names details; pure r) ph :=
  booked_record_then (l := .insert_audit (audit_row ctx.caller ctx.now action address names details))
    rfl rfl hph fun _ => trivial

/-- What only reads has nothing to book. -/
theorem books_of_reads {p : Handler Response} (hp : OnlyReads p) : KeepsBooks ctx p .clean :=
  (booked_reads hp).imp fun _ _ h => h ▸ (show Phase.clean ≠ .dirty by decide)

/-! ## Records -/

theorem get_or_create_group_booked {key_id : Uuid} (name default_group_type : String)
    (owner : Option Uuid) (hph : ph ≠ .recorded) :
    Booked (audit_books key_id) (fun _ ph' => ph' = .dirty)
      (get_or_create_group ctx name default_group_type owner) ph :=
  booked_change_then rfl hph fun _ => booked_reads (.bind (.select _) fun _ => .okOr _ _)

theorem upsert_group_booked {key_id : Uuid} (payload : BanWhitePayload) (is_whitelist : Bool) :
    Booked (audit_books key_id) (fun _ ph' => ph' ≠ .recorded)
      (upsert_group ctx payload is_whitelist) .clean := by
  have existing : ∀ g, OnlyReads (upsert_existing_group ctx is_whitelist g) := by
    intro g
    exact .bind (upsert_guard_only_reads _) fun _ => .bind (.ofExcept _) fun _ => trivial
  have provision : ∀ id, Booked (audit_books key_id) (fun _ ph' => ph' = .dirty)
      (provision_caller ctx id) .dirty := by
    intro id
    unfold provision_caller
    split
    · rfl
    · exact booked_change rfl (by decide)
  have new : ∀ name, Booked (audit_books key_id) (fun _ ph' => ph' ≠ .recorded)
      (upsert_new_group ctx is_whitelist name) .clean := by
    intro name
    refine booked_reads_then (.require _ _) fun _ => ?_
    refine (get_or_create_group_booked _ _ _ (by decide)).bind fun g ph' h => ?_
    rw [h]
    refine (provision g.id).bind fun _ ph'' h' => ?_
    rw [h']
    show Phase.dirty ≠ .recorded
    decide
  refine booked_reads_then (resolve_group_ref_only_reads _ _) fun found => ?_
  split
  · exact (booked_reads (existing _)).imp fun _ ph' h => h ▸ (by decide)
  · exact new _
  · trivial

theorem issues_enqueue {key_id : Uuid} {α : Type} (e : WebhookEvent) {a : α} :
    (do exec (.enqueue e); pure a : Handler α).Issues
      fun l => (audit_books key_id).kind l = .other :=
  .bind (.bind (.op rfl) fun _ => .ofExcept _) fun _ => trivial

theorem handle_ip_upsert_booked (payload : BanWhitePayload) (is_whitelist : Bool) :
    KeepsBooks ctx (handle_ip_upsert ctx payload is_whitelist) .clean := by
  refine booked_reads_then (.okOr _ _) fun network => booked_reads_then (.ofExcept _) fun _ => ?_
  refine (upsert_group_booked payload is_whitelist).bind fun g ph' hph' => ?_
  exact booked_record_then (l := .upsert_txn _) rfl rfl hph' fun _ => issues_enqueue _

theorem batch_records_booked (payload : BatchRecordsPayload) :
    KeepsBooks ctx (batch_records ctx payload) .clean := by
  have group : Booked (audit_books ctx.key.id) (fun _ ph' => ph' ≠ .recorded)
      (batch_group ctx payload) .clean := by
    refine booked_reads_then (.select _) fun existing => ?_
    split
    · refine booked_reads_then (batch_guard_only_reads _ _) fun _ => ?_
      show Phase.clean ≠ .recorded
      decide
    · refine booked_reads_then (.require _ _) fun _ => ?_
      refine (get_or_create_group_booked _ _ _ (by decide)).imp fun _ _ h => ?_
      rw [h]
      decide
  have enqueued : ∀ events,
      (enqueue_all events).Issues fun l => (audit_books ctx.key.id).kind l = .other := by
    intro events
    induction events with
    | nil => trivial
    | cons e es ih => exact .bind (.bind (.op rfl) fun _ => .ofExcept _) fun _ => ih
  refine booked_reads_then (.require _ _) fun _ => booked_reads_then (.ofExcept _) fun normalized => ?_
  refine group.bind fun g ph' hph' => booked_reads_then (.ofExcept _) fun _ => ?_
  refine booked_record_then (l := .batch_txn _) rfl rfl hph' fun st => ?_
  exact .bind (enqueued _) fun _ => trivial

theorem delete_ip_booked (query_params : DeleteIpQuery) (body : OptionalBody DeleteIpQuery) :
    KeepsBooks ctx (delete_ip ctx query_params body) .clean := by
  refine booked_reads_then (.ofExcept _) fun body_params => booked_reads_then (.okOr _ _) fun _ => ?_
  refine booked_reads_then (resolve_group_ref_only_reads _ _) fun found => ?_
  refine booked_reads_then (.okOr _ _) fun group => ?_
  refine booked_reads_then (delete_ip_guard_only_reads _) fun _ => ?_
  exact booked_record_then (l := .delete_ip_txn _) rfl rfl (by decide) fun _ => issues_enqueue _

theorem delete_ip_record_booked (id : Uuid) (hard : Option Bool) :
    KeepsBooks ctx (delete_ip_record ctx id hard) .clean := by
  refine booked_reads_then (.select _) fun found => booked_reads_then (.okOr _ _) fun record => ?_
  refine booked_reads_then (caller_may_delete_record_only_reads _ _) fun may => ?_
  refine booked_reads_then (.require _ _) fun _ => booked_reads_then (.require _ _) fun _ => ?_
  refine booked_reads_then (.require _ _) fun _ => ?_
  split
  · exact booked_change_then rfl (by decide) fun _ => books_audit_then (by decide)
  · unfold soft_delete_record
    dsimp only
    split
    · show Phase.clean ≠ .dirty
      decide
    · exact booked_change_then rfl (by decide) fun _ => books_audit_then (by decide)

theorem restore_ip_record_booked (id : Uuid) :
    KeepsBooks ctx (restore_ip_record ctx id) .clean := by
  refine booked_reads_then (.require _ _) fun _ => booked_reads_then (.select _) fun found => ?_
  refine booked_reads_then (.okOr _ _) fun record => booked_reads_then (.require _ _) fun _ => ?_
  exact booked_change_then rfl (by decide) fun _ => books_audit_then (by decide)

theorem purge_ip_records_booked (body : OptionalBody (Option Int)) :
    KeepsBooks ctx (purge_ip_records ctx body) .clean := by
  have purge : ∀ days, Booked (audit_books ctx.key.id) (fun _ ph' => ph' ≠ .recorded)
      (purge_expired_ip_records ctx.now days) .clean := by
    intro days
    unfold purge_expired_ip_records
    split
    · show Phase.clean ≠ .recorded
      decide
    · exact (booked_change rfl (by decide)).imp fun _ _ h => h ▸ (by decide)
  refine booked_reads_then (.require _ _) fun _ => booked_reads_then (.ofExcept _) fun days => ?_
  refine booked_reads_then (.require _ _) fun _ => (purge _).bind fun purged ph' hph' => ?_
  exact books_audit_then hph'

/-! ## Groups -/

theorem create_ip_group_booked (payload : CreateIpGroupPayload) :
    KeepsBooks ctx (create_ip_group ctx payload) .clean := by
  have provision : ∀ id, Booked (audit_books ctx.key.id) (fun _ ph' => ph' = .dirty)
      (provision_creator ctx id) .dirty := by
    intro id
    unfold provision_creator
    split
    · rfl
    · exact booked_change rfl (by decide)
  refine booked_reads_then (.require _ _) fun _ => ?_
  refine booked_attempt_then rfl (by decide) fun id => (provision id).bind fun _ ph' h => ?_
  rw [h]
  exact books_audit_then (by decide)

theorem delete_ip_group_booked (id : Uuid) :
    KeepsBooks ctx (delete_ip_group ctx id) .clean := by
  refine booked_reads_then (.select _) fun found => booked_reads_then (.okOr _ _) fun group => ?_
  refine booked_reads_then (.ofExcept _) fun _ => booked_change_then rfl (by decide) fun rows => ?_
  exact booked_reads_then (.require _ _) fun _ => books_audit_then (by decide)

theorem reassign_group_owner_booked (id : Uuid) (payload : ReassignOwnerPayload) :
    KeepsBooks ctx (reassign_group_owner ctx id payload) .clean := by
  refine booked_reads_then (.require _ _) fun _ => booked_reads_then (.select _) fun found => ?_
  refine booked_reads_then (.okOr _ _) fun group => ?_
  refine booked_reads_then (resolve_owner_assignment_only_reads _) fun owner => ?_
  refine booked_change_then rfl (by decide) fun rows => ?_
  exact booked_reads_then (.require _ _) fun _ => books_audit_then (by decide)

/-! ## Keys -/

theorem create_api_key_booked (payload : CreateApiKeyPayload) :
    KeepsBooks ctx (create_api_key ctx payload) .clean := by
  refine booked_reads_then (.require _ _) fun _ => booked_reads_then (.ofExcept _) fun _ => ?_
  refine booked_reads_then (.ofExcept _) fun _ => booked_reads_then (.ofExcept _) fun stored => ?_
  exact booked_change_then rfl (by decide) fun id => books_audit_then (by decide)

theorem update_api_key_booked (id : Uuid) (payload : UpdateApiKeyPayload) :
    KeepsBooks ctx (update_api_key ctx id payload) .clean := by
  refine booked_reads_then (.require _ _) fun _ => ?_
  refine booked_reads_then (find_administrable_key_only_reads _ _) fun target => ?_
  refine booked_reads_then (.ofExcept _) fun _ => booked_reads_then (.ofExcept _) fun _ => ?_
  refine booked_reads_then (.ofExcept _) fun _ => booked_reads_then (.ofExcept _) fun _ => ?_
  refine booked_change_then rfl (by decide) fun updated => ?_
  refine booked_record_then (l := .insert_audit _) rfl rfl (by decide) fun _ => ?_
  refine .bind ((full_api_key_summary_only_reads _).mono fun l hl => ?_) fun _ => trivial
  obtain ⟨q, rfl⟩ := hl
  rfl

theorem rotate_api_key_booked (id : Uuid) : KeepsBooks ctx (rotate_api_key ctx id) .clean := by
  refine booked_reads_then (rotation_target_only_reads _ _) fun target => ?_
  refine booked_reads_then (.ofExcept _) fun stored => ?_
  exact booked_change_then rfl (by decide) fun _ => books_audit_then (by decide)

theorem rotate_signing_secret_booked (id : Uuid) :
    KeepsBooks ctx (rotate_signing_secret ctx id) .clean := by
  refine booked_reads_then (rotation_target_only_reads _ _) fun target => ?_
  refine booked_reads_then (.ofExcept _) fun stored => ?_
  exact booked_change_then rfl (by decide) fun _ => books_audit_then (by decide)

theorem apply_resolutions_booked {key_id : Uuid} (resolutions : List ResolutionEntry)
    (inventory : List OwnedEntity) (hph : ph ≠ .recorded) :
    Booked (audit_books key_id) (fun _ ph' => ph' ≠ .recorded)
      (apply_resolutions resolutions inventory) ph := by
  induction inventory generalizing ph with
  | nil => exact hph
  | cons e es ih =>
      have hkind : ∀ resolution, (resolution_stmt e resolution).kind = .change := by
        intro resolution
        unfold resolution_stmt
        split <;> rfl
      refine booked_reads_then (.okOr _ _) fun resolution => ?_
      exact booked_change_then (hkind resolution) hph fun _ => ih (by decide)

theorem delete_api_key_booked (id : Uuid) (resolutions : List ResolutionEntry) :
    KeepsBooks ctx (delete_api_key ctx id resolutions) .clean := by
  refine booked_reads_then (.require _ _) fun _ => booked_reads_then (.require _ _) fun _ => ?_
  refine booked_reads_then (find_administrable_key_only_reads _ _) fun target => ?_
  refine booked_reads_then (.ofExcept _) fun _ => booked_reads_then (.ofExcept _) fun _ => ?_
  refine booked_reads_then (collect_key_subtree_only_reads _) fun subtree => ?_
  refine booked_reads_then (.require _ _) fun _ => ?_
  refine booked_reads_then (inventory_owned_entities_only_reads _) fun inventory => ?_
  refine booked_reads_then (.ofExcept _) fun _ => ?_
  refine booked_reads_then (validate_targets_only_reads _ _) fun _ => ?_
  refine (apply_resolutions_booked resolutions inventory (by decide)).bind fun _ ph' hph' => ?_
  refine booked_change_then rfl hph' fun rows => booked_reads_then (.require _ _) fun _ => ?_
  exact books_audit_then (by decide)

/-! ## Permission rows -/

theorem update_key_group_permissions_booked (id : Uuid) (payload : GroupPermInput) :
    KeepsBooks ctx (update_key_group_permissions ctx id payload) .clean := by
  have group : Booked (audit_books ctx.key.id) (fun _ ph' => ph' ≠ .recorded)
      (permission_group ctx payload) .clean := by
    refine booked_reads_then (resolve_group_ref_flexible_only_reads _ _ _) fun found => ?_
    split
    · show Phase.clean ≠ .recorded
      decide
    · refine booked_reads_then (.require _ _) fun _ => ?_
      refine (get_or_create_group_booked _ _ _ (by decide)).imp fun _ _ h => ?_
      rw [h]
      decide
    · trivial
  refine booked_reads_then (guard_may_administer_any_group_only_reads _) fun _ => ?_
  refine booked_reads_then (.select _) fun found => booked_reads_then (.okOr _ _) fun target => ?_
  refine booked_reads_then (.require _ _) fun _ => booked_reads_then (.require _ _) fun _ => ?_
  refine group.bind fun g ph' hph' => booked_reads_then (.select _) fun caller_perm => ?_
  refine booked_reads_then (.select _) fun target_perm => booked_reads_then (.ofExcept _) fun _ => ?_
  exact booked_change_then rfl hph' fun _ => books_audit_then (by decide)

theorem revoke_key_group_permission_booked (id : Uuid) (group_identifier : String) :
    KeepsBooks ctx (revoke_key_group_permission ctx id group_identifier) .clean := by
  refine booked_reads_then (guard_may_administer_any_group_only_reads _) fun _ => ?_
  refine booked_reads_then (resolve_group_by_identifier_only_reads _ _) fun found => ?_
  refine booked_reads_then (.okOr _ _) fun group => booked_reads_then (.select _) fun grant => ?_
  refine booked_reads_then (.require _ _) fun _ => booked_reads_then (.select _) fun caller_perm => ?_
  refine booked_reads_then (.ofExcept _) fun _ => booked_change_then rfl (by decide) fun rows => ?_
  refine booked_reads_then (.require _ _) fun _ => booked_reads_then (.select _) fun found => ?_
  exact booked_reads_then (.okOr _ _) fun target => books_audit_then (by decide)

/-! ## Webhooks -/

theorem create_webhook_booked (payload : CreateWebhookPayload) :
    KeepsBooks ctx (create_webhook ctx payload) .clean := by
  refine booked_reads_then (.require _ _) fun _ => ?_
  refine booked_reads_then (webhook_group_guard_only_reads _) fun _ => ?_
  refine booked_reads_then (.ofExcept _) fun _ => booked_reads_then (.ofExcept _) fun _ => ?_
  refine booked_reads_then (.ofExcept _) fun mode => booked_reads_then (.ofExcept _) fun _ => ?_
  exact booked_change_then rfl (by decide) fun id => books_audit_then (by decide)

theorem update_webhook_booked (id : Uuid) (payload : UpdateWebhookPayload) :
    KeepsBooks ctx (update_webhook ctx id payload) .clean := by
  refine booked_reads_then (find_own_webhook_only_reads id) fun target => ?_
  refine booked_reads_then (.ofExcept _) fun _ => booked_reads_then (.ofExcept _) fun _ => ?_
  refine booked_reads_then (.ofExcept _) fun _ => ?_
  refine booked_reads_then (update_group_guard_only_reads target _) fun _ => ?_
  refine booked_reads_then (.ofExcept _) fun requested => booked_reads_then (.ofExcept _) fun _ => ?_
  exact booked_change_then rfl (by decide) fun updated => books_audit_then (by decide)

theorem clone_webhook_booked (id : Uuid) (name : String) :
    KeepsBooks ctx (clone_webhook ctx id name) .clean := by
  refine booked_reads_then (find_own_webhook_only_reads id) fun source => ?_
  refine booked_reads_then (webhook_group_guard_only_reads _) fun _ => ?_
  refine booked_reads_then (.require _ _) fun _ => booked_change_then rfl (by decide) fun new_id => ?_
  exact books_audit_then (by decide)

theorem delete_webhook_booked (id : Uuid) : KeepsBooks ctx (delete_webhook ctx id) .clean := by
  refine booked_reads_then (find_own_webhook_only_reads id) fun _ => ?_
  refine booked_change_then rfl (by decide) fun rows => booked_reads_then (.require _ _) fun _ => ?_
  exact books_audit_then (by decide)

theorem reassign_webhook_owner_booked (id : Uuid) (payload : ReassignOwnerPayload) :
    KeepsBooks ctx (reassign_webhook_owner ctx id payload) .clean := by
  refine booked_reads_then (.require _ _) fun _ => booked_reads_then (.select _) fun found => ?_
  refine booked_reads_then (.okOr _ _) fun webhook => ?_
  refine booked_reads_then (resolve_owner_assignment_only_reads _) fun owner => ?_
  refine booked_change_then rfl (by decide) fun rows => booked_reads_then (.require _ _) fun _ => ?_
  exact books_audit_then (by decide)

/-- Executions are no matter of the books. -/
theorem test_webhook_booked (id : Uuid) (delivery : TestDelivery) :
    KeepsBooks ctx (test_webhook ctx id delivery) .clean := by
  have logged : (log_execution id delivery.logged).Issues
      fun l => (audit_books ctx.key.id).kind l = .other := by
    unfold log_execution
    split
    · trivial
    · exact .bind (.op rfl) fun _ => trivial
  refine booked_reads_then (find_own_webhook_only_reads id) fun target => ?_
  refine booked_reads_then (.select _) fun _ => (Booked.of_other logged).bind fun _ ph' h => ?_
  rw [h]
  exact books_audit_then (by decide)

theorem delete_webhook_execution_booked (id : Uuid) :
    KeepsBooks ctx (delete_webhook_execution ctx id) .clean := by
  have deleted : (exec (.delete_execution id)).Issues
      fun l => (audit_books ctx.key.id).kind l = .other := .bind (.op rfl) fun _ => .ofExcept _
  refine booked_reads_then (.require _ _) fun _ => booked_reads_then (.select _) fun found => ?_
  refine booked_reads_then (.okOr _ _) fun execution => ?_
  refine booked_reads_then (execution_guard_only_reads _) fun _ => ?_
  refine (Booked.of_other deleted).bind fun rows ph' h => booked_reads_then (.require _ _) fun _ => ?_
  rw [h]
  exact books_audit_then (by decide)

/-! ## Every endpoint -/

/-- **Every endpoint keeps its books.** -/
theorem Call.booked (call : Call) : KeepsBooks ctx (call.handler ctx) .clean := by
  cases call with
  | handle_ban payload => exact handle_ip_upsert_booked payload false
  | handle_white payload => exact handle_ip_upsert_booked payload true
  | batch_records payload => exact batch_records_booked payload
  | delete_ip query_params body => exact delete_ip_booked query_params body
  | delete_ip_record id hard => exact delete_ip_record_booked id hard
  | restore_ip_record id => exact restore_ip_record_booked id
  | purge_ip_records body => exact purge_ip_records_booked body
  | create_ip_group payload => exact create_ip_group_booked payload
  | delete_ip_group id => exact delete_ip_group_booked id
  | reassign_group_owner id payload => exact reassign_group_owner_booked id payload
  | create_api_key payload => exact create_api_key_booked payload
  | update_api_key id payload => exact update_api_key_booked id payload
  | delete_api_key id resolutions => exact delete_api_key_booked id resolutions
  | rotate_api_key id => exact rotate_api_key_booked id
  | rotate_signing_secret id => exact rotate_signing_secret_booked id
  | update_key_group_permissions id payload => exact update_key_group_permissions_booked id payload
  | revoke_key_group_permission id identifier => exact revoke_key_group_permission_booked id identifier
  | create_webhook payload => exact create_webhook_booked payload
  | update_webhook id payload => exact update_webhook_booked id payload
  | clone_webhook id name => exact clone_webhook_booked id name
  | delete_webhook id => exact delete_webhook_booked id
  | reassign_webhook_owner id payload => exact reassign_webhook_owner_booked id payload
  | test_webhook id delivery => exact test_webhook_booked id delivery
  | delete_webhook_execution id => exact delete_webhook_execution_booked id
  | read body only => exact books_of_reads (only ctx)
  | rejected e => trivial

end IpVault
