import IpVault.Api.Groups

set_option autoImplicit false

/-! # Record endpoints that write (`api/records.rs`, `retention.rs`) -/

namespace IpVault

open Lib

/-! ## Ban and whitelist -/

/-- `BanWhitePayload`. -/
structure BanWhitePayload where
  target_address : String
  group_id : Option Uuid := none
  group_name : Option String := none
  cause : Option String := none

/-- `guard_bannable_address`. -/
def guard_bannable_address (network : IpNetwork) : Except AppError Unit :=
  let ip := network.network
  if ip.is_loopback || ip.is_unspecified then
    .error (.InvalidInput "Cannot ban loopback or unspecified addresses")
  else match ip with
    | .v4 v4 =>
        if is_private v4 || is_link_local v4 then
          .error (.InvalidInput "Cannot ban private or link-local IPv4 addresses")
        else .ok ()
    | .v6 v6 =>
        if segment0 v6 &&& 0xffc0#16 == 0xfe80#16 || segment0 v6 &&& 0xfe00#16 == 0xfc00#16 then
          .error (.InvalidInput "Cannot ban link-local or unique-local IPv6 addresses")
        else .ok ()

/-- The write permission `handle_ip_upsert` and `batch_records` ask for. -/
def guard_can_write (perm : Option GroupPermission) : Except AppError Unit :=
  match perm with
  | none => .error (.Forbidden
      "Permission denied: You have no access strictly mapped to this group")
  | some p =>
      if p.can_write then .ok ()
      else .error (.Forbidden "Permission denied: You do not have write access to this group")

/-- The group type a ban or a whitelisting must match. -/
def guard_group_type (is_whitelist : Bool) (g : IpGroup) : Except AppError Unit :=
  if is_whitelist && g.group_type == "banlist" then
    .error (.InvalidInput
      (s!"Cannot whitelist IP into group '{g.name}': group type is 'banlist'. Use /api/ban or " ++
       s!"target a whitelist group."))
  else if !is_whitelist && g.group_type == "whitelist" then
    .error (.InvalidInput
      (s!"Cannot ban IP into group '{g.name}': group type is 'whitelist'. Use /api/white or " ++
       s!"target a banlist group."))
  else .ok ()

/-- The type of a group a ban or a whitelisting creates. -/
def default_group_type (is_whitelist : Bool) : String :=
  if is_whitelist then "whitelist" else "banlist"

/-- The check of `handle_ip_upsert` on the caller. -/
def upsert_guard (ctx : Ctx) (group_id : Uuid) : Handler Unit :=
  if ctx.key.is_master then pure ()
  else do
    let perm ← select (.permission ctx.key.id group_id)
    Prog.ofExcept (guard_can_write perm)

/-- `handle_ip_upsert`, a group that exists: permission first, type second. -/
def upsert_existing_group (ctx : Ctx) (is_whitelist : Bool) (g : IpGroup) : Handler IpGroup := do
  upsert_guard ctx g.id
  Prog.ofExcept (guard_group_type is_whitelist g)
  pure g

/-- The row `handle_ip_upsert` gives its caller on a group it found absent. -/
def provision_caller (ctx : Ctx) (group_id : Uuid) : Handler Unit :=
  if ctx.key.is_master then pure ()
  else exec (.insert_permission_or_ignore (creator_permission ctx.key.id group_id ctx.now))

/-- `handle_ip_upsert`, a name no group has: the group is created, and the caller gets a row on
whatever group now has the name. -/
def upsert_new_group (ctx : Ctx) (is_whitelist : Bool) (group_name : String) :
    Handler IpGroup := do
  Prog.require (ctx.key.is_master ∨ ctx.key.can_create_groups) (.Forbidden
    "Permission denied: Target group does not exist and you cannot create groups")
  let group ← get_or_create_group ctx group_name (default_group_type is_whitelist)
    (resource_owner ctx.key)
  provision_caller ctx group.id
  pure group

/-- `handle_ip_upsert`, group resolution. -/
def upsert_group (ctx : Ctx) (payload : BanWhitePayload) (is_whitelist : Bool) :
    Handler IpGroup := do
  let existing_group ← resolve_group_ref payload.group_id payload.group_name
  match existing_group, payload.group_name with
  | some g, _ => upsert_existing_group ctx is_whitelist g
  | none, some group_name => upsert_new_group ctx is_whitelist group_name
  | none, none => .fail .NotFound

/-- The transaction of `handle_ip_upsert`. -/
def upsert_transaction (ctx : Ctx) (payload : BanWhitePayload) (is_whitelist : Bool)
    (group : IpGroup) : UpsertTxn where
  caller := ctx.caller
  now := ctx.now
  normalized_address := normalize_ip_or_cidr ctx.env payload.target_address
  cause := payload.cause
  target_group_id := group.id
  resolved_group_name := group.name
  is_whitelist := is_whitelist

/-- `handle_ip_upsert`. -/
def handle_ip_upsert (ctx : Ctx) (payload : BanWhitePayload) (is_whitelist : Bool) :
    Handler Response := do
  let network ← Prog.okOr (.InvalidInput "Invalid IP or CIDR format")
    (ctx.env.parse_network payload.target_address)
  Prog.ofExcept (if is_whitelist then .ok () else guard_bannable_address network)
  let group ← upsert_group ctx payload is_whitelist
  let t := upsert_transaction ctx payload is_whitelist group
  let action ← exec (.upsert_txn t)
  exec (.enqueue
    { action
      address := t.normalized_address
      is_whitelist
      group_id := some group.id
      group_name := some group.name
      cause := payload.cause })
  pure ok_empty

/-- `handle_ban`. -/
def handle_ban (ctx : Ctx) (payload : BanWhitePayload) : Handler Response :=
  handle_ip_upsert ctx payload false

/-- `handle_white`. -/
def handle_white (ctx : Ctx) (payload : BanWhitePayload) : Handler Response :=
  handle_ip_upsert ctx payload true

/-! ## Deletion, restoration, purge -/

/-- `caller_may_delete_record`: a row with `can_delete` on some group that holds the record. -/
def caller_may_delete_record (key : ApiKey) (record_id : Uuid) : Handler Bool :=
  if key.is_master then pure true
  else do
    let memberships ← select (.memberships_of record_id)
    let group_ids := memberships.map Membership.group_id
    if group_ids = [] then pure false
    else do
      let rows ← select (.permissions_of key.id)
      pure (rows.any fun p => group_ids.contains p.group_id && p.can_delete)

/-- The body of `delete_ip_record` after its checks, for a permanent deletion. -/
def hard_delete_record (ctx : Ctx) (record : IpRecord) : Handler Response := do
  let _ ← exec (.delete_record record.id)
  create_audit_log ctx "IP_HARD_DELETE" (some record.target_address) none
    (some "Permanently deleted")
  pure (json (.obj [("id", .uuid record.id), ("target_address", .str record.target_address),
    ("deleted", .str "permanent")]))

/-- The columns a soft delete sets. -/
def soft_delete (ctx : Ctx) : Txn.RecordChange where
  updated_at := ctx.now
  tombstone := .bury ctx.now (Uuid.to_string ctx.key.id)

/-- The body of `delete_ip_record` after its checks, for a soft delete. -/
def soft_delete_record (ctx : Ctx) (record : IpRecord) : Handler Response := do
  let reply (already_deleted : Bool) : Response :=
    json (.obj [("id", .uuid record.id), ("target_address", .str record.target_address),
      ("deleted", .str "soft"), ("already_deleted", .bool already_deleted)])
  if record.is_deleted then pure (reply true)
  else do
    let _ ← exec (.update_record record.id (soft_delete ctx))
    create_audit_log ctx "IP_SOFT_DELETE" (some record.target_address) none
      (some s!"Soft-deleted by key {format_key_reference ctx.key.name ctx.key.id}")
    pure (reply false)

/-- `delete_ip_record`. -/
def delete_ip_record (ctx : Ctx) (id : Uuid) (hard : Option Bool) : Handler Response := do
  let found ← select (.record_by_id id)
  let record ← Prog.okOr .NotFound found
  let may ← caller_may_delete_record ctx.key id
  Prog.require (may = true) (.Forbidden
    "Permission denied: you have no delete access to any group holding this record")
  Prog.require (record.is_locked = false) (.Forbidden "Protected records cannot be deleted")
  let hard := hard.getD false
  Prog.require (hard → ctx.key.is_master)
    (.Forbidden "Only a master key can permanently delete an IP record")
  if hard then hard_delete_record ctx record
  else soft_delete_record ctx record

/-- The columns a restoration sets. -/
def restoration (ctx : Ctx) : Txn.RecordChange where
  updated_at := ctx.now
  tombstone := .clear

/-- `restore_ip_record`. -/
def restore_ip_record (ctx : Ctx) (id : Uuid) : Handler Response := do
  Prog.require (ctx.key.is_master = true)
    (.Forbidden "Only a master key can restore a deleted IP record")
  let found ← select (.record_by_id id)
  let record ← Prog.okOr .NotFound found
  Prog.require (record.is_deleted = true)
    (.InvalidInput "This IP record is not deleted; nothing to restore")
  let restored ← exec (.update_record id (restoration ctx))
  create_audit_log ctx "IP_RESTORE" (some record.target_address) none
    (some "Restored from soft delete")
  pure (json (.obj [("id", .uuid restored.id), ("target_address", .str record.target_address),
    ("is_deleted", .bool false), ("restored", .bool true)]))

/-- The nanoseconds of a day. -/
def day : Int := 86400 * 1000000000

/-- `purge_expired_ip_records`: nothing unless the window is positive. Of a window that reaches back before
the first date `chrono` has the source panics, see `purge_threshold`; here nothing has expired then. -/
def purge_expired_ip_records (now : Int) (retention_days : Int) : Handler Nat :=
  if retention_days ≤ 0 then pure 0
  else exec (.purge (now - retention_days * day))

/-- A JSON body that may be empty, as the handlers that parse it by hand see it. -/
inductive OptionalBody (α : Type) where
  | empty
  | malformed (e : String)
  | parsed (a : α)

/-- The payload of such a body. -/
def OptionalBody.payload {α : Type} (default : α) : OptionalBody α → Except AppError α
  | .empty => .ok default
  | .malformed e => .error (.InvalidInput s!"Invalid JSON body: {e}")
  | .parsed a => .ok a

/-- `purge_ip_records`. The payload is its only field, `older_than_days`. -/
def purge_ip_records (ctx : Ctx) (body : OptionalBody (Option Int)) : Handler Response := do
  Prog.require (ctx.key.is_master = true)
    (.Forbidden "Only a master key can purge deleted IP records")
  let older_than_days ← Prog.ofExcept (body.payload none)
  let retention_days := older_than_days.getD ctx.env.retention_days
  Prog.require (older_than_days.all (0 < ·)) (.InvalidInput
    s!"older_than_days must be a positive number of days, got {retention_days}")
  let purged ← purge_expired_ip_records ctx.now retention_days
  create_audit_log ctx "IP_PURGE" none none
    (some s!"Purged {purged} record(s) soft-deleted over {retention_days} days ago")
  pure (json (.obj [("purged", .num purged), ("retention_days", .num retention_days)]))

/-! ## Removal from one group -/

/-- `DeleteIpQuery`. -/
structure DeleteIpQuery where
  target_address : Option String := none
  group_id : Option Uuid := none
  group_name : Option String := none

/-- `DeleteIpQuery::merge`. -/
def DeleteIpQuery.merge (a b : DeleteIpQuery) : DeleteIpQuery where
  target_address := a.target_address.or b.target_address
  group_id := a.group_id.or b.group_id
  group_name := a.group_name.or b.group_name

/-- The delete permission `delete_ip` asks for. -/
def guard_can_delete (perm : Option GroupPermission) : Except AppError Unit :=
  match perm with
  | none => .error (.Forbidden "Permission denied")
  | some p =>
      if p.can_delete then .ok ()
      else .error (.Forbidden
        "Permission denied: You do not have delete permissions over this group")

/-- The check of `delete_ip` on the caller. -/
def delete_ip_guard (ctx : Ctx) (group_id : Uuid) : Handler Unit :=
  if ctx.key.is_master then pure ()
  else do
    let perm ← select (.permission ctx.key.id group_id)
    Prog.ofExcept (guard_can_delete perm)

/-- The transaction of `delete_ip`. -/
def delete_ip_transaction (ctx : Ctx) (target_address : String) (group : IpGroup) :
    DeleteIpTxn where
  caller := ctx.caller
  now := ctx.now
  target_address := normalize_ip_or_cidr ctx.env target_address
  group_id := group.id
  group_name := group.name

/-- `delete_ip`. -/
def delete_ip (ctx : Ctx) (query_params : DeleteIpQuery) (body : OptionalBody DeleteIpQuery) :
    Handler Response := do
  let body_params ← Prog.ofExcept (body.payload {})
  let params := query_params.merge body_params
  let target_address ← Prog.okOr
    (.InvalidInput "target_address is required (query or JSON body)")
    (params.target_address.filter fun s => !Text.is_empty s)
  let found ← resolve_group_ref params.group_id params.group_name
  let group ← Prog.okOr .NotFound found
  delete_ip_guard ctx group.id
  let record ← exec (.delete_ip_txn (delete_ip_transaction ctx target_address group))
  exec (.enqueue
    { action := "IP_DELETE"
      address := record.target_address
      is_whitelist := group.group_type == "whitelist"
      group_id := some group.id
      group_name := some group.name
      cause := some "Deleted via API" })
  pure no_content

/-! ## Batches -/

/-- `MAX_BATCH_RECORDS`. -/
def MAX_BATCH_RECORDS : Nat := 10000

/-- `BatchRecordsPayload`. -/
structure BatchRecordsPayload where
  group_name : String
  mode : BatchMode := .Upsert
  records : List BatchRecordInput
  skip_webhooks : Option Bool := none

/-- The loop that canonicalises the entries and refuses duplicates. The `{:?}` of the source
quotes the address; its escapes are not modelled. -/
def normalize_entries (env : Env) : List BatchRecordInput → List (String × BatchRecordInput) →
    Except AppError (List (String × BatchRecordInput))
  | [], normalized => .ok normalized
  | record :: rest, normalized =>
      match env.parse_network record.target_address with
      | none => .error (.InvalidInput
          s!"Invalid IP or CIDR format: \"{record.target_address}\"")
      | some _ =>
          let address := normalize_ip_or_cidr env record.target_address
          if (normalized.map Prod.fst).contains address then
            .error (.InvalidInput
              s!"Duplicate target_address in batch after canonicalisation: {address}")
          else normalize_entries env rest (normalized ++ [(address, record)])

/-- What `batch_records` asks of the caller's row on a group that exists. -/
def guard_batch (mode : BatchMode) (perm : Option GroupPermission) : Except AppError Unit := do
  guard_can_write perm
  if mode = .FullReplace ∧ ¬ perm.any (·.can_delete) then
    .error (.Forbidden
      ("Permission denied: mode 'full_replace' soft-deletes the records it omits and therefore " ++
       "requires delete access to this group, not only write access"))

/-- The check of `batch_records` on the caller, for a group that exists. -/
def batch_guard (ctx : Ctx) (mode : BatchMode) (group_id : Uuid) : Handler Unit :=
  if ctx.key.is_master then pure ()
  else do
    let perm ← select (.permission ctx.key.id group_id)
    Prog.ofExcept (guard_batch mode perm)

/-- `batch_records`, group resolution. A group it creates is a banlist, and the caller gets no
row on it. -/
def batch_group (ctx : Ctx) (payload : BatchRecordsPayload) : Handler IpGroup := do
  let existing ← select (.group_by_name payload.group_name)
  match existing with
  | some g => do
      batch_guard ctx payload.mode g.id
      pure g
  | none => do
      Prog.require (ctx.key.is_master ∨ ctx.key.can_create_groups) (.Forbidden
        "Permission denied: Target group does not exist and you cannot create groups")
      get_or_create_group ctx payload.group_name "banlist" (resource_owner ctx.key)

/-- The address check of a batch into a group that is not a whitelist. -/
def guard_batch_addresses (env : Env) : List (String × BatchRecordInput) → Except AppError Unit
  | [] => .ok ()
  | (address, _) :: rest =>
      match env.parse_network address with
      | none => .error (.InvalidInput s!"Invalid IP or CIDR format: {address}")
      | some network => do
          guard_bannable_address network
          guard_batch_addresses env rest

/-- The transaction of `batch_records`. -/
def batch_transaction (ctx : Ctx) (payload : BatchRecordsPayload) (group : IpGroup)
    (normalized : List (String × BatchRecordInput)) : BatchTxn where
  caller := ctx.caller
  now := ctx.now
  group := group
  mode := payload.mode
  normalized := normalized
  skip_webhooks := payload.skip_webhooks.getD false

/-- The buffered events, handed over after the commit. -/
def enqueue_all : List WebhookEvent → Handler Unit
  | [] => pure ()
  | e :: es => do
      exec (.enqueue e)
      enqueue_all es

/-- `BatchRecordsResponse`, as it is serialized. -/
def BatchRecordsResponse.to_json (s : BatchRecordsResponse) : Json :=
  .obj [("created", .num s.created), ("updated", .num s.updated), ("restored", .num s.restored),
    ("locked_skipped", .num s.locked_skipped), ("soft_deleted", .num s.soft_deleted),
    ("linked", .num s.linked)]

/-- `batch_records`. -/
def batch_records (ctx : Ctx) (payload : BatchRecordsPayload) : Handler Response := do
  Prog.require (payload.records.length ≤ MAX_BATCH_RECORDS) (.InvalidInput
    (s!"Batch too large: {payload.records.length} records, limit is {MAX_BATCH_RECORDS}. Split " ++
     s!"it and retry."))
  let normalized ← Prog.ofExcept (normalize_entries ctx.env payload.records [])
  let group ← batch_group ctx payload
  Prog.ofExcept (if group.group_type ≠ "whitelist" then guard_batch_addresses ctx.env normalized
    else .ok ())
  let (summary, webhook_events) ← exec (.batch_txn (batch_transaction ctx payload group normalized))
  enqueue_all webhook_events
  pure (json summary.to_json)

end IpVault
