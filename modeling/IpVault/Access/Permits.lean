import IpVault.Keys.Resolution
import IpVault.Schema.Admission
import IpVault.Service

set_option autoImplicit false

/-! # What a request may issue

`Permits ctx call start` is the authorization model of the service on the level of statements:
which write the request `call` of the caller of `ctx`, begun in the store `start`, may issue in
which store. It says of a write the facts that the guards in front of it have established, in
terms of the store the write meets, and it says them once for all endpoints. That the endpoints
keep to it is proved in `Access/Handlers.lean`; what follows for the store is proved from it alone.
-/

namespace IpVault

open Lib

/-- A permission row with write or delete also has read. -/
def GroupPermission.coherent (p : GroupPermission) : Prop :=
  p.can_write = true ∨ p.can_delete = true → p.can_read = true

/-- A key has `can_delete` on a group that holds the record. -/
def MayDelete (key_id record_id : Uuid) (w : World) : Prop :=
  ∃ p ∈ w.permissions, p.api_key_id = key_id ∧ p.can_delete = true ∧ w.member record_id p.group_id

/-- The group `resolve_group_ref` finds. -/
def World.group_ref (w : World) (group_id : Option Uuid) (group_name : Option String) :
    Option IpGroup :=
  match group_id, group_name with
  | some id, none => w.groups.find? id
  | none, some name => w.group_named name
  | _, _ => none

/-- **The batches `batch_records` admits**, with the group it resolves and the entries it makes of
the payload: an existing group the caller may write to in this mode, or a banlist it may create. -/
structure BatchAdmitted (ctx : Ctx) (payload : BatchRecordsPayload) (w : World) (group : IpGroup)
    (normalized : List (String × BatchRecordInput)) : Prop where
  length : payload.records.length ≤ MAX_BATCH_RECORDS
  entries : normalize_entries ctx.env payload.records [] = .ok normalized
  target : (w.group_named payload.group_name = some group ∧ (ctx.key.is_master = true ∨
      guard_batch payload.mode (w.permission ctx.key.id group.id) = .ok ())) ∨
    (w.group_named payload.group_name = none ∧
      (ctx.key.is_master = true ∨ ctx.key.can_create_groups = true) ∧
      group = { new_group payload.group_name "banlist" (resource_owner ctx.key) ctx.now with
        id := w.next_uuid })
  addresses : group.group_type ≠ "whitelist" → guard_batch_addresses ctx.env normalized = .ok ()

/-- **The removals `delete_ip` admits**, with the group and the address it resolves. -/
structure RemovalAdmitted (ctx : Ctx) (query_params : DeleteIpQuery)
    (body : OptionalBody DeleteIpQuery) (w : World) (group : IpGroup) (target_address : String) :
    Prop where
  params : ∃ body_params, body.payload {} = .ok body_params ∧
    (query_params.merge body_params).target_address = some target_address ∧
    w.group_ref (query_params.merge body_params).group_id
      (query_params.merge body_params).group_name = some group
  guard : ctx.key.is_master = true ∨
    guard_can_delete (w.permission ctx.key.id group.id) = .ok ()

/-- A caller may have a webhook watch the group: it is the master, or it reads there. -/
def MayWatch (ctx : Ctx) (group_id : Uuid) (w : World) : Prop :=
  ctx.key.is_master = true ∨ (w.permission ctx.key.id group_id).any (·.can_read) = true

/-- **The updates `update_webhook` admits**, with the edit it works out. -/
structure UpdateAdmitted (ctx : Ctx) (id : Uuid) (payload : UpdateWebhookPayload) (w : World)
    (e : WebhookEdit) : Prop where
  target : e.target ∈ w.webhooks
  target_id : e.target.id = id
  payload_eq : e.payload = payload
  requested : requested_mode payload = .ok e.requested
  owner : ctx.key.is_master = true ∨
    ctx.key.can_manage_webhooks = true ∧ e.target.owner_key_id = some ctx.key.id
  target_url : validate_opt (validate_target_url ctx.env) payload.target_url = .ok ()
  events : validate_opt validate_events payload.events = .ok ()
  hmac_template : validate_opt validate_hmac_template payload.hmac_template = .ok ()
  group : ∀ g, payload.group_id = some g → g ≠ e.target.group_id → MayWatch ctx g w
  valid : e.validate ctx.key ctx.entropy.signing_secret = .ok ()

/-- The secret `clone_webhook` gives a copy. -/
def clone_secret (ctx : Ctx) (source : WebhookConfig) : String :=
  if (AuthMode.from_stored source.auth_mode).requires_secret then ctx.entropy.signing_secret else ""

namespace Permits

variable (ctx : Ctx) (call : Call) (start : Vault)

/-- A new key: its payload passed the guards, and nobody but the master gives it a scope. -/
def insert_key (k : ApiKey) : Prop :=
  ∃ payload stored, k = new_api_key ctx payload stored ∧
    guard_scope_elevation ctx.key payload.scopes ⟨false, false, false⟩ = .ok () ∧
    validate_bound_ips ctx.env payload.bound_ips = .ok ()

/-- The columns of a rotation. -/
def rotation (c : Txn.KeyChange) : Prop :=
  c.name = none ∧ c.bound_ips = none ∧ c.can_manage_keys = none ∧
    c.can_manage_webhooks = none ∧ c.can_create_groups = none

/-- A change of a key: an update that passed the guards against the row it meets, or a
rotation. -/
def update_key (id : Uuid) (c : Txn.KeyChange) (v : Vault) : Prop :=
  ∃ target ∈ v.keys, target.id = id ∧ guard_master_target ctx.key target = .ok () ∧
    ((∃ payload : UpdateApiKeyPayload, c = payload.change ctx.now ∧
        guard_master_update ctx.key target payload = .ok () ∧
        guard_scope_elevation ctx.key payload.scopes target.scopes = .ok () ∧
        validate_bound_ips ctx.env payload.bound_ips = .ok ()) ∨
      (target.is_master = false ∧ rotation c))

/-- The keys a deletion takes, in a store where its map has been carried out. -/
def delete_keys (ids : List Uuid) (v : Vault) : Prop :=
  ∃ id resolutions, call = .delete_api_key id resolutions ∧
    DeletionAdmitted ctx id resolutions start.toWorld ids ∧
    Settled resolutions (start.owned_entities ids) start.toWorld v.toWorld

/-- The row of a creator, on a group this request has created. -/
def creator_row (p : GroupPermission) : Prop :=
  ctx.key.is_master = false ∧ p = creator_permission ctx.key.id p.group_id ctx.now ∧
    start.next_uuid ≤ p.group_id

/-- A granted row: coherent, on an ordinary key, and within the verbs the target or the caller
has on the group. -/
def upsert_permission (p : GroupPermission) (v : Vault) : Prop :=
  p.coherent ∧ (∃ k ∈ v.keys, k.id = p.api_key_id ∧ k.is_master = false) ∧
    ∃ payload name, p = GroupPermInput.row payload p.api_key_id p.group_id ctx.now ∧
      guard_permission_change ctx.key (v.permission ctx.key.id p.group_id)
        (v.permission p.api_key_id p.group_id) name payload = .ok ()

/-- A new group belongs to its creator, or to nobody if that is the master. -/
def insert_group (g : IpGroup) : Prop :=
  (ctx.key.is_master = true ∨ ctx.key.can_create_groups = true) ∧
    g.owner_key_id = resource_owner ctx.key

/-- A new owner is nobody, or an ordinary key. -/
def set_owner (owner : Option Uuid) (v : Vault) : Prop :=
  ∀ id, owner = some id → ∃ k ∈ v.keys, k.id = id ∧ k.is_master = false

/-- A new webhook: one that is asked for, or the copy of one the caller may act on. -/
def insert_webhook (h : WebhookConfig) : Prop :=
  (∃ payload mode, call = .create_webhook payload ∧ h = new_webhook ctx payload mode ∧
      validate_new_credentials mode payload = .ok ()) ∨
    ∃ id name, call = .clone_webhook id name ∧ ∃ source ∈ start.webhooks, source.id = id ∧
      (source.is_privileged = false ∨ ctx.key.is_master = true) ∧
      h = cloned_webhook ctx source name (clone_secret ctx source)

/-- A change of a webhook, worked out from the row it meets. -/
def update_webhook (id : Uuid) (c : Txn.WebhookChange) (v : Vault) : Prop :=
  v = start ∧ ∃ payload e, call = .update_webhook id payload ∧
    UpdateAdmitted ctx id payload v.toWorld e ∧ c = e.change ctx.entropy.signing_secret

/-- The request has not touched records or memberships yet. -/
def records_untouched (v : Vault) : Prop :=
  v.records = start.records ∧ v.memberships = start.memberships

/-- The updates outside a transaction of a record: the master restores it, or somebody who may
soft-deletes it. -/
def update_record (id : Uuid) (c : Txn.RecordChange) (v : Vault) : Prop :=
  v = start ∧ ∃ r ∈ v.records, r.id = id ∧
    ((call = .restore_ip_record id ∧ ctx.key.is_master = true ∧ r.is_deleted = true ∧
        c = restoration ctx) ∨
      ((∃ hard, call = .delete_ip_record id hard) ∧ r.is_locked = false ∧ r.is_deleted = false ∧
        c = soft_delete ctx ∧ (ctx.key.is_master = true ∨ MayDelete ctx.key.id id v.toWorld)))

/-- A record is removed by the master only. -/
def delete_record (id : Uuid) (v : Vault) : Prop :=
  call = .delete_ip_record id (some true) ∧ ctx.key.is_master = true ∧ v = start ∧
    ∃ r ∈ v.records, r.id = id ∧ r.is_locked = false

/-- A purge on demand is the master's, too, and its window is positive. -/
def purge (threshold : Int) (v : Vault) : Prop :=
  v = start ∧ ctx.key.is_master = true ∧ ∃ body older_than_days,
    call = .purge_ip_records body ∧ body.payload none = .ok older_than_days ∧
    older_than_days.all (0 < ·) = true ∧ 0 < older_than_days.getD ctx.env.retention_days ∧
    threshold = ctx.now - older_than_days.getD ctx.env.retention_days * day

/-- The transaction of a ban or a whitelisting of an address that parses. -/
def upsert_txn (t : UpsertTxn) (v : Vault) : Prop :=
  records_untouched start v ∧ ∃ payload is_whitelist group,
    call = (if is_whitelist then .handle_white payload else .handle_ban payload) ∧
    (ctx.env.parse_network payload.target_address).isSome = true ∧
    t = upsert_transaction ctx payload is_whitelist group

/-- The transaction of a removal from a group. -/
def delete_ip_txn (t : DeleteIpTxn) (v : Vault) : Prop :=
  v = start ∧ ∃ query_params body group target_address, call = .delete_ip query_params body ∧
    RemovalAdmitted ctx query_params body start.toWorld group target_address ∧
    t = delete_ip_transaction ctx target_address group

/-- The transaction of a batch, in a store where its group exists. -/
def batch_txn (t : BatchTxn) (v : Vault) : Prop :=
  records_untouched start v ∧ v.keys = start.keys ∧ ∃ payload group normalized,
    call = .batch_records payload ∧
    BatchAdmitted ctx payload start.toWorld group normalized ∧
    v.groups.has group.id = true ∧
    t = batch_transaction ctx payload group normalized

/-- An audit row names the caller. -/
def insert_audit (a : AuditLog) : Prop := a.api_key_id = some ctx.key.id

end Permits

open Permits in
/-- **What a request may issue.** -/
def Permits (ctx : Ctx) (call : Call) (start : Vault) : Stmt → Vault → Prop
  | .insert_key k, _ => insert_key ctx k
  | .update_key id c, v => update_key ctx id c v
  | .delete_keys ids, v => delete_keys ctx call start ids v
  | .insert_permission p, _ => creator_row ctx start p
  | .insert_permission_or_ignore p, _ => creator_row ctx start p
  | .upsert_permission p, v => upsert_permission ctx p v
  | .insert_group g, _ => insert_group ctx g
  | .insert_group_or_ignore g, _ => insert_group ctx g
  | .set_group_owner _ owner, v => set_owner owner v
  | .update_record id c, v => update_record ctx call start id c v
  | .delete_record id, v => delete_record ctx call start id v
  | .purge threshold, v => purge ctx call start threshold v
  | .insert_webhook h, _ => insert_webhook ctx call start h
  | .update_webhook id c, v => Permits.update_webhook ctx call start id c v
  | .set_webhook_owner _ owner, v => set_owner owner v
  | .upsert_txn t, v => upsert_txn ctx call start t v
  | .delete_ip_txn t, v => delete_ip_txn ctx call start t v
  | .batch_txn t, v => batch_txn ctx call start t v
  | .insert_audit a, _ => insert_audit ctx a
  | _, _ => True

/-- The request `call` of the caller of `ctx`, begun in `start` and now running `p` from `v`, keeps
to what it may issue, and ends in `Q` if it does not fail. -/
abbrev Obeys {α : Type} (ctx : Ctx) (call : Call) (start : Vault) (p : Handler α) (v : Vault)
    (Q : α → Vault → Prop) : Prop :=
  Prog.Meets database (Permits ctx call start) Q (fun _ _ => True) p v

@[simp] theorem permits_query (ctx : Ctx) (call : Call) (start : Vault) (q : Query) (v : Vault) :
    Permits ctx call start (.query q) v := trivial

section Rules

variable {ctx : Ctx} {call : Call} {start v : Vault} {α β : Type}

/-- Sequencing. -/
theorem Obeys.bind {p : Handler α} {f : α → Handler β} {Q : α → Vault → Prop}
    {R : β → Vault → Prop} (hp : Obeys ctx call start p v Q)
    (hf : ∀ a v', Q a v' → Obeys ctx call start (f a) v' R) : Obeys ctx call start (p >>= f) v R :=
  Admits.bind hp hf

/-- A weaker end. -/
theorem Obeys.imp {p : Handler α} {Q R : α → Vault → Prop} (hp : Obeys ctx call start p v Q)
    (h : ∀ a v', Q a v' → R a v') : Obeys ctx call start p v R :=
  Admits.imp hp h

/-- A reader keeps to it, and leaves the store alone. -/
theorem obeys_of_reads {p : Handler α} (hp : OnlyReads p) :
    Obeys ctx call start p v fun _ v' => v = v' :=
  Admits.reads hp (permits_query ctx call start)

/-- A query. -/
theorem obeys_select {q : Query} : Obeys ctx call start (select q) v fun a v' =>
    v = v' ∧ a = q.eval v.toWorld :=
  Admits.select (permits_query ctx call start)

/-- Issuing one statement. -/
theorem obeys_exec {l : Stmt} (hl : Permits ctx call start l v) :
    Obeys ctx call start (exec l) v fun a v' => v' = v.after l ∧ ∃ w, l.txn v.toWorld = .ok (a, w) :=
  Admits.exec hl

/-- Issuing one statement, and looking at its error. -/
theorem obeys_attempt {l : Stmt} (hl : Permits ctx call start l v) :
    Obeys ctx call start (attempt l) v fun a v' => v' = v.after l ∧ a = l.answer v.toWorld :=
  ⟨hl, rfl, rfl⟩

/-- A check. -/
theorem obeys_require {c : Prop} [Decidable c] {e : AppError} :
    Obeys ctx call start (Prog.require c e) v fun _ v' => v = v' ∧ c :=
  Admits.require

/-- A computation that may refuse. -/
theorem obeys_ofExcept {x : Except AppError α} :
    Obeys ctx call start (Prog.ofExcept x) v fun a v' => v = v' ∧ x = .ok a :=
  Admits.ofExcept

/-- A value that must be there. -/
theorem obeys_okOr {e : AppError} {x : Option α} :
    Obeys ctx call start (Prog.okOr e x) v fun a v' => v = v' ∧ x = some a :=
  Admits.okOr

/-- The audit row of a request. -/
theorem obeys_audit {action : String} {address names details : Option String} :
    Obeys ctx call start (create_audit_log ctx action address names details) v fun _ v' =>
      ∃ row, v' = v.after (.insert_audit row) := by
  have permitted : Permits ctx call start
      (.insert_audit (audit_row ctx.caller ctx.now action address names details)) v := rfl
  exact (obeys_exec permitted).imp fun _ _ ⟨hv, _⟩ => ⟨_, hv⟩

/-- The audit row and the response that ends most handlers. -/
theorem obeys_audit_then {action : String} {address names details : Option String} {a : α} :
    Obeys ctx call start
      (do create_audit_log ctx action address names details; pure a) v fun _ _ => True :=
  obeys_audit.bind fun _ _ _ => trivial

end Rules

end IpVault
