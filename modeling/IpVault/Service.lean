import IpVault.Api.Keys
import IpVault.Api.Listing
import IpVault.Api.Records
import IpVault.Api.Webhooks
import IpVault.Auth.Master
import IpVault.Lib.Runs

set_option autoImplicit false

/-! # The service

One request past authentication, and the runs of the service in which each request is executed
from start to end before the next one. The endpoints that write are listed one by one; those that
only read are any handler that issues nothing but queries, `list_ips` among them.

The retention sweep runs beside the requests.
-/

namespace IpVault

open Lib

/-- The endpoints, with the payload of each. -/
inductive Call where
  | handle_ban (payload : BanWhitePayload)
  | handle_white (payload : BanWhitePayload)
  | batch_records (payload : BatchRecordsPayload)
  | delete_ip (query_params : DeleteIpQuery) (body : OptionalBody DeleteIpQuery)
  | delete_ip_record (id : Uuid) (hard : Option Bool)
  | restore_ip_record (id : Uuid)
  | purge_ip_records (body : OptionalBody (Option Int))
  | create_ip_group (payload : CreateIpGroupPayload)
  | delete_ip_group (id : Uuid)
  | reassign_group_owner (id : Uuid) (payload : ReassignOwnerPayload)
  | create_api_key (payload : CreateApiKeyPayload)
  | update_api_key (id : Uuid) (payload : UpdateApiKeyPayload)
  | delete_api_key (id : Uuid) (resolutions : List ResolutionEntry)
  | rotate_api_key (id : Uuid)
  | rotate_signing_secret (id : Uuid)
  | update_key_group_permissions (id : Uuid) (payload : GroupPermInput)
  | revoke_key_group_permission (id : Uuid) (group_identifier : String)
  | create_webhook (payload : CreateWebhookPayload)
  | update_webhook (id : Uuid) (payload : UpdateWebhookPayload)
  | clone_webhook (id : Uuid) (name : String)
  | delete_webhook (id : Uuid)
  | reassign_webhook_owner (id : Uuid) (payload : ReassignOwnerPayload)
  | test_webhook (id : Uuid) (delivery : TestDelivery)
  | delete_webhook_execution (id : Uuid)
  /-- An endpoint that only reads. -/
  | read (body : Ctx → Handler Response) (only : ∀ ctx, OnlyReads (body ctx))
  /-- A payload the extractors refuse. -/
  | rejected (e : AppError)

/-- The handler behind an endpoint. -/
def Call.handler (ctx : Ctx) : Call → Handler Response
  | handle_ban payload => IpVault.handle_ban ctx payload
  | handle_white payload => IpVault.handle_white ctx payload
  | batch_records payload => IpVault.batch_records ctx payload
  | delete_ip query_params body => IpVault.delete_ip ctx query_params body
  | delete_ip_record id hard => IpVault.delete_ip_record ctx id hard
  | restore_ip_record id => IpVault.restore_ip_record ctx id
  | purge_ip_records body => IpVault.purge_ip_records ctx body
  | create_ip_group payload => IpVault.create_ip_group ctx payload
  | delete_ip_group id => IpVault.delete_ip_group ctx id
  | reassign_group_owner id payload => IpVault.reassign_group_owner ctx id payload
  | create_api_key payload => IpVault.create_api_key ctx payload
  | update_api_key id payload => IpVault.update_api_key ctx id payload
  | delete_api_key id resolutions => IpVault.delete_api_key ctx id resolutions
  | rotate_api_key id => IpVault.rotate_api_key ctx id
  | rotate_signing_secret id => IpVault.rotate_signing_secret ctx id
  | update_key_group_permissions id payload => IpVault.update_key_group_permissions ctx id payload
  | revoke_key_group_permission id group_identifier =>
      IpVault.revoke_key_group_permission ctx id group_identifier
  | create_webhook payload => IpVault.create_webhook ctx payload
  | update_webhook id payload => IpVault.update_webhook ctx id payload
  | clone_webhook id name => IpVault.clone_webhook ctx id name
  | delete_webhook id => IpVault.delete_webhook ctx id
  | reassign_webhook_owner id payload => IpVault.reassign_webhook_owner ctx id payload
  | test_webhook id delivery => IpVault.test_webhook ctx id delivery
  | delete_webhook_execution id => IpVault.delete_webhook_execution ctx id
  | read body _ => body ctx
  | rejected e => .fail e

/-- A request whose signature has been verified: the key it was signed with, the address it comes
from, when it is handled, and the random values it draws. -/
structure Request where
  key_id : Uuid
  client_ip : String
  now : Int
  entropy : Entropy
  call : Call

/-- A running service: its environment, and the master it pinned when it started. -/
structure Service where
  env : Env
  pinned : Uuid

namespace Service

variable (S : Service)

/-- The key as the handlers see it: `MasterPin::authenticate` has run. -/
def effective (key : ApiKey) : ApiKey :=
  { key with is_master := key.is_master && key.id == S.pinned }

@[simp] theorem effective_id (key : ApiKey) : (S.effective key).id = key.id := rfl

/-- `effective` is what the middleware computes under a pin that is set. -/
theorem authenticate_eq_effective (view : MasterView) (key : ApiKey) :
    (MasterPin.authenticate ⟨some S.pinned⟩ view key).1 = S.effective key := by
  obtain ⟨id, _, _, _, _, _, is_master, _⟩ := key
  unfold MasterPin.authenticate MasterPin.resolve MasterPin.pin_at_boot effective
  cases is_master with
  | false => simp
  | true =>
      by_cases hp : S.pinned = id
      · simp [hp]
      · have hne : id ≠ S.pinned := fun h => hp h.symm
        simp [hp, hne]

/-- What the handler of a request is given. -/
def ctx (req : Request) (key : ApiKey) : Ctx where
  env := S.env
  caller := ⟨S.effective key, req.client_ip⟩
  now := req.now
  entropy := req.entropy

/-- One request: the key is read, and its handler runs. -/
def serve (req : Request) : Handler Response := do
  let found ← select (.key_by_id req.key_id)
  let key ← Prog.okOr (.Unauthorized "Invalid API Key") found
  req.call.handler (S.ctx req key)

/-- The response to a request executed alone, and the store it leaves. -/
def handle (req : Request) (v : Vault) : Response × Vault :=
  match (S.serve req).run database v with
  | (.ok response, v') => (response, v')
  | (.error e, v') => (e.into_response, v')

/-- The request is carried out: its handler ends with a response and no refusal. -/
def Succeeds (req : Request) (v : Vault) : Prop :=
  ((S.serve req).run database v).1.isOk = true

instance (req : Request) (v : Vault) : Decidable (S.Succeeds req v) :=
  inferInstanceAs (Decidable (_ = true))

/-- One sweep of the retention worker. -/
def sweep (now : Int) (v : Vault) : Vault :=
  ((purge_expired_ip_records now S.env.retention_days).run database v).2

/-- What every purge keeps, a sweep keeps. -/
theorem sweep_keeps {I : Vault → Prop} {now : Int} {v : Vault} (hv : I v)
    (step : ∀ threshold, I (v.after (.purge threshold))) : I (S.sweep now v) := by
  unfold sweep purge_expired_ip_records
  split
  · exact hv
  · exact step _

/-- What happens to the service. -/
inductive Event where
  | request (req : Request)
  | sweep (now : Int)

/-- When it happens. -/
def Event.now : Event → Int
  | request req => req.now
  | sweep now => now

/-- One step of a run: the response, if there is a client, and the store. -/
def step : Event → Vault → Option Response × Vault
  | .request req, v => (some (S.handle req v).1, (S.handle req v).2)
  | .sweep now, v => (none, S.sweep now v)

/-- The requester is not the master: its row does not say so, or it is not the pinned one. -/
def NonMaster (req : Request) (v : Vault) : Prop :=
  ∀ key, v.keys.find? req.key_id = some key → (S.effective key).is_master = false

instance (req : Request) (v : Vault) : Decidable (S.NonMaster req v) :=
  decidable_of_iff
    ((v.keys.find? req.key_id).all fun key => (S.effective key).is_master == false) <| by
      unfold NonMaster
      cases v.keys.find? req.key_id with
      | none => simp
      | some key => simp

/-- The requester is the master. -/
def IsMaster (req : Request) (v : Vault) : Prop :=
  ∃ key, v.keys.find? req.key_id = some key ∧ (S.effective key).is_master = true

instance (req : Request) (v : Vault) : Decidable (S.IsMaster req v) :=
  decidable_of_iff
    ((v.keys.find? req.key_id).any fun key => (S.effective key).is_master) <| by
      unfold IsMaster
      cases v.keys.find? req.key_id with
      | none => simp
      | some key => simp

/-- Where a request leads, read off a judgement about its program. -/
theorem handle_of_meets {req : Request} {v : Vault} {G : Stmt → Vault → Prop} {P : Vault → Prop}
    (h : Prog.Meets database G (fun _ w => P w) (fun _ w => P w) (S.serve req) v) :
    P (S.handle req v).2 := by
  have hrun := h.run
  unfold handle
  generalize hr : (S.serve req).run database v = r at hrun ⊢
  obtain ⟨_ | _, v'⟩ := r
  · exact hrun.2 _ v' rfl
  · exact hrun.1 _ v' rfl

/-- A request of a key that is there is its handler. -/
theorem serve_of_key {req : Request} {v : Vault} {key : ApiKey}
    (hkey : v.keys.find? req.key_id = some key) {G : Stmt → Vault → Prop}
    {Q : Response → Vault → Prop} {E : AppError → Vault → Prop}
    (hG : G (.query (.key_by_id req.key_id)) v)
    (h : Prog.Meets database G Q E (req.call.handler (S.ctx req key)) v) :
    Prog.Meets database G Q E (S.serve req) v := by
  unfold serve
  rw [Prog.meets_bind, meets_select]
  refine ⟨hG, ?_⟩
  rw [Prog.meets_bind, Prog.meets_okOr]
  constructor
  · intro key' hkey'
    obtain rfl : key = key' := Option.some.inj (hkey.symm.trans hkey')
    exact h
  · intro hnone
    cases hkey.symm.trans hnone

end Service

/-! ## A small service -/

/-- The service that runs on `Env.sample`, with key 0 as its master. -/
def Service.sample : Service := ⟨.sample, 0⟩

/-- Its store: the master is key 0, the sensor is key 1 and may create groups, and the banlist
`bans` is group 2, in which the sensor reads and writes. -/
def Vault.sample : Vault :=
  .build 8
    [.insert_key { ApiKey.sample 0 with name := "master", key_hash := "m", is_master := true },
      .insert_key { ApiKey.sample 1 with can_create_groups := true },
      .insert_group (new_group "bans" "banlist" none 0),
      .insert_permission ⟨1, 2, true, true, false, false, 0⟩]

/-- A request of key `key_id` at `now`. -/
def Request.sample (key_id : Uuid) (now : Int) (call : Call) : Request where
  key_id := key_id
  client_ip := "203.0.113.9"
  now := now
  entropy := ⟨"vault-key", "s3cret", []⟩
  call := call

/-! ## Listing is reading -/

theorem list_ips_only_reads (ctx : Ctx) (order : RowOrder) (f : QueryFilters) :
    OnlyReads (list_ips ctx order f) := by
  have readable : OnlyReads (readable_groups ctx) := by
    unfold readable_groups
    split
    · trivial
    · exact .bind (.select _) fun _ => trivial
  have named : OnlyReads (named_groups f) :=
    .bind (.select _) fun _ => by split <;> trivial
  have typed : ∀ status, OnlyReads (typed_groups status) := by
    intro status
    cases status with
    | none => trivial
    | some t => exact .bind (.select _) fun _ => trivial
  have page : ∀ threshold ids, OnlyReads (list_page .time ctx order f threshold ids) :=
    fun _ _ => .bind (.select _) fun _ => .bind (.select _) fun _ =>
      .ite trivial (.ite trivial trivial)
  refine .bind readable fun accessible => ?_
  split
  · trivial
  · refine .bind named fun n => .bind (.ofExcept _) fun status => .bind (typed status) fun t => ?_
    simp only
    split
    · trivial
    · exact .bind (.ofExcept _) fun threshold => page _ _

end IpVault
