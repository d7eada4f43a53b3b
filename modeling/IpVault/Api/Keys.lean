import IpVault.Api.Guards

set_option autoImplicit false

/-! # API key endpoints (`api/keys.rs`) -/

namespace IpVault

open Lib

/-! ## Summaries -/

/-- `MePermission`. -/
structure MePermission where
  group_id : Uuid
  group_name : String
  can_read : Bool
  can_write : Bool
  can_delete : Bool
  can_manage : Bool
  deriving DecidableEq

/-- The entry of a permission row on a group. -/
def MePermission.of (p : GroupPermission) (group : IpGroup) : MePermission where
  group_id := p.group_id
  group_name := group.name
  can_read := p.can_read
  can_write := p.can_write
  can_delete := p.can_delete
  can_manage := p.can_manage

/-- `MePermission`, as it is serialized. -/
def MePermission.to_json (m : MePermission) : Json :=
  .obj [("group_id", .uuid m.group_id), ("group_name", .str m.group_name),
    ("can_read", .bool m.can_read), ("can_write", .bool m.can_write),
    ("can_delete", .bool m.can_delete), ("can_manage", .bool m.can_manage)]

/-- The fields `skip_serializing_if = "Option::is_none"` leaves out. -/
def present (name : String) : Option Json → List (String × Json)
  | none => []
  | some j => [(name, j)]

/-- `ApiKeySummary`. The field `prefix` is named `key_prefix` here. -/
structure ApiKeySummary where
  id : Uuid
  name : String
  view : String
  key_prefix : Option String
  bound_ips : Option String
  is_master : Option Bool
  can_manage_keys : Option Bool
  can_manage_webhooks : Option Bool
  can_create_groups : Option Bool
  parent_key_id : Option Uuid
  created_at : Option Int
  group_permissions : List MePermission
  deriving DecidableEq

namespace ApiKeySummary

/-- What `full_api_key_summary` says of a key with these permissions. -/
def full (k : ApiKey) (group_permissions : List MePermission) : ApiKeySummary where
  id := k.id
  name := k.name
  view := "full"
  key_prefix := some k.key_prefix
  bound_ips := k.bound_ips
  is_master := some k.is_master
  can_manage_keys := some k.can_manage_keys
  can_manage_webhooks := some k.can_manage_webhooks
  can_create_groups := some k.can_create_groups
  parent_key_id := k.parent_key_id
  created_at := some k.created_at
  group_permissions := group_permissions

/-- What `minimal_api_key_summary` says of a key with these permissions. -/
def minimal (k : ApiKey) (group_permissions : List MePermission) : ApiKeySummary where
  id := k.id
  name := k.name
  view := "minimal"
  key_prefix := none
  bound_ips := none
  is_master := none
  can_manage_keys := none
  can_manage_webhooks := none
  can_create_groups := none
  parent_key_id := none
  created_at := none
  group_permissions := group_permissions

/-- `ApiKeySummary`, as it is serialized. -/
def to_json (s : ApiKeySummary) : Json :=
  .obj ([("id", .uuid s.id), ("name", .str s.name), ("view", .str s.view)] ++
    present "prefix" (s.key_prefix.map .str) ++
    present "bound_ips" (s.bound_ips.map .str) ++
    present "is_master" (s.is_master.map .bool) ++
    present "can_manage_keys" (s.can_manage_keys.map .bool) ++
    present "can_manage_webhooks" (s.can_manage_webhooks.map .bool) ++
    present "can_create_groups" (s.can_create_groups.map .bool) ++
    present "parent_key_id" (s.parent_key_id.map .uuid) ++
    present "created_at" (s.created_at.map .date) ++
    [("group_permissions", .arr (s.group_permissions.map MePermission.to_json))])

end ApiKeySummary

/-- The entries of the rows a query returned, as `key_group_permissions` picks them. -/
def me_permissions (only_groups : Option (List Uuid))
    (rows : List (GroupPermission × Option IpGroup)) : List MePermission :=
  (rows.filter fun row => only_groups.all fun groups => groups.contains row.1.group_id).filterMap
    fun row => row.2.map (MePermission.of row.1)

/-- `key_group_permissions`: the rows of a key, optionally only those on some groups. -/
def key_group_permissions (key_id : Uuid) (only_groups : Option (List Uuid)) :
    Handler (List MePermission) := do
  let rows ← select (.permissions_with_groups key_id)
  pure (me_permissions only_groups rows)

/-- `full_api_key_summary`. -/
def full_api_key_summary (k : ApiKey) : Handler ApiKeySummary := do
  let group_permissions ← key_group_permissions k.id none
  pure (.full k group_permissions)

/-- `minimal_api_key_summary`. -/
def minimal_api_key_summary (k : ApiKey) (visible_groups : List Uuid) : Handler ApiKeySummary := do
  let group_permissions ← key_group_permissions k.id (some visible_groups)
  pure (.minimal k group_permissions)

/-! ## Creation -/

/-- `CreateApiKeyPayload`. -/
structure CreateApiKeyPayload where
  name : String
  bound_ips : Option String := none
  can_manage_keys : Option Bool := none
  can_manage_webhooks : Option Bool := none
  can_create_groups : Option Bool := none

/-- The scopes a payload asks for. -/
def CreateApiKeyPayload.scopes (p : CreateApiKeyPayload) : Scopes (Option Bool) :=
  ⟨p.can_manage_keys, p.can_create_groups, p.can_manage_webhooks⟩

/-- The first entry of a `bound_ips` list that is not a network. -/
def invalid_cidr (env : Env) (bips : String) : Option String :=
  (Text.split ',' bips).find? fun cidr => (env.parse_network (Text.trim cidr)).isNone

/-- The validation of `bound_ips` in `create_api_key` and `update_api_key`. -/
def validate_bound_ips (env : Env) (bound_ips : Option String) : Except AppError Unit :=
  match bound_ips.bind (invalid_cidr env) with
  | none => .ok ()
  | some cidr => .error (.InvalidInput s!"Invalid CIDR: {cidr}")

/-- `SecretCipher::seal` with its error as the handlers report it. -/
def seal_for (ctx : Ctx) : Handler String :=
  Prog.ofExcept ((Crypto.seal_secret ctx.env ctx.entropy.nonce ctx.entropy.signing_secret).mapError
    Crypto.CryptoError.into_app_error)

/-- The row `create_api_key` inserts. -/
def new_api_key (ctx : Ctx) (payload : CreateApiKeyPayload) (stored_signing_secret : String) :
    ApiKey where
  id := 0
  name := payload.name
  key_hash := ctx.env.sha256_hex ctx.entropy.plaintext_key
  signing_secret := some stored_signing_secret
  key_prefix := Text.take 8 ctx.entropy.plaintext_key
  bound_ips := payload.bound_ips
  is_master := false
  can_manage_keys := payload.can_manage_keys.getD false
  can_manage_webhooks := payload.can_manage_webhooks.getD false
  can_create_groups := payload.can_create_groups.getD false
  parent_key_id := some ctx.key.id
  created_at := ctx.now
  updated_at := ctx.now

/-- `create_api_key`. -/
def create_api_key (ctx : Ctx) (payload : CreateApiKeyPayload) : Handler Response := do
  Prog.require (ctx.key.is_master ∨ ctx.key.can_manage_keys) (.Forbidden "Permission denied")
  Prog.ofExcept (guard_scope_elevation ctx.key payload.scopes ⟨false, false, false⟩)
  Prog.ofExcept (validate_bound_ips ctx.env payload.bound_ips)
  let stored_signing_secret ← seal_for ctx
  let id ← exec (.insert_key (new_api_key ctx payload stored_signing_secret))
  create_audit_log ctx "KEY_CREATE" none none (some payload.name)
  pure (json (.obj [("id", .uuid id), ("plaintext_key", .str ctx.entropy.plaintext_key),
    ("signing_secret", .str ctx.entropy.signing_secret), ("name", .str payload.name),
    ("bound_ips", .ofOption .str payload.bound_ips)]))

/-! ## Lineage -/

/-- The loop of `collect_key_subtree`, for at most `n` rounds. The rows of a query have distinct
identifiers, so the ones not visited yet are what `visited.insert` accepts. -/
def subtree_walk : Nat → List Uuid → List Uuid → Handler (List Uuid)
  | 0, visited, _ => pure visited
  | n + 1, visited, frontier =>
      if frontier = [] then pure visited
      else do
        let children ← select (.children_of frontier)
        let found := (children.map ApiKey.id).filter fun id => !visited.contains id
        subtree_walk n (visited ++ found) found

/-- `collect_key_subtree`: the key and everything below it. Each round but the first finds a
key that was not visited before, which bounds the number of rounds. -/
def collect_key_subtree (root : Uuid) : Handler (List Uuid) := do
  let keys ← select .key_count
  subtree_walk (keys + 1) [root] [root]

/-- `caller_can_administer_key`. -/
def caller_can_administer_key (caller : ApiKey) (target : Uuid) : Handler Bool :=
  if caller.is_master then pure true
  else do
    let subtree ← collect_key_subtree caller.id
    pure (subtree.contains target)

/-- `find_administrable_key`: the key, or the answer for a key that does not exist. -/
def find_administrable_key (caller : ApiKey) (target : Uuid) : Handler ApiKey := do
  let found ← select (.key_by_id target)
  let key ← Prog.okOr .NotFound found
  let may ← caller_can_administer_key caller target
  Prog.require (may = true) .NotFound
  pure key

/-! ## Deletion -/

/-- The two kinds of entity a key can own. -/
inductive EntityType where
  | group
  | webhook
  deriving DecidableEq

/-- `OwnedEntity::entity_type`. -/
def EntityType.as_str : EntityType → String
  | group => "group"
  | webhook => "webhook"

/-- `OwnedEntity`. -/
structure OwnedEntity where
  entity_type : EntityType
  id : Uuid
  name : String
  owner_key_id : Uuid
  owner_name : String

/-- `OwnedEntity`, as it is serialized. -/
def OwnedEntity.to_json (e : OwnedEntity) : Json :=
  .obj [("entity_type", .str e.entity_type.as_str), ("id", .uuid e.id), ("name", .str e.name),
    ("owner_key_id", .uuid e.owner_key_id), ("owner_name", .str e.owner_name)]

/-- `Resolution`. -/
inductive Resolution where
  | Delete
  | Reassign (owner_key_id : Uuid)
  deriving DecidableEq

/-- `ResolutionEntry`. -/
structure ResolutionEntry where
  entity_type : String
  id : Uuid
  resolution : Resolution
  deriving DecidableEq

/-- The key of an entry in the resolution map. -/
def ResolutionEntry.key (e : ResolutionEntry) : String × Uuid := (e.entity_type, e.id)

/-- The key of an owned entity in the resolution map. -/
def OwnedEntity.key (e : OwnedEntity) : String × Uuid := (e.entity_type.as_str, e.id)

/-- The entities of one kind in the inventory. -/
def owned_by (owner_name : Uuid → String) (entity_type : EntityType)
    (rows : List (Uuid × String × Option Uuid)) (subtree : List Uuid) : List OwnedEntity :=
  rows.filterMap fun (id, name, owner) =>
    match owner with
    | some o => if subtree.contains o then some ⟨entity_type, id, name, o, owner_name o⟩ else none
    | none => none

/-- `inventory_owned_entities`: groups first, then webhooks. -/
def inventory_owned_entities (subtree : List Uuid) : Handler (List OwnedEntity) := do
  let keys ← select .all_keys
  let owner_name : Uuid → String := fun id =>
    match keys.find? fun k => k.id = id ∧ subtree.contains k.id with
    | some k => k.name
    | none => "<deleted>"
  let groups ← select .all_groups
  let webhooks ← select .all_webhooks
  pure (owned_by owner_name .group (groups.map fun g => (g.id, g.name, g.owner_key_id)) subtree ++
    owned_by owner_name .webhook (webhooks.map fun h => (h.id, h.name, h.owner_key_id)) subtree)

/-- The first entry whose key an earlier entry has: `HashMap::insert` returns the old value. -/
def duplicate_entry : List (String × Uuid) → List ResolutionEntry → Option ResolutionEntry
  | _, [] => none
  | seen, e :: es =>
      if seen.contains e.key then some e else duplicate_entry (e.key :: seen) es

/-- What the resolution map says of an entity. -/
def resolution_of (entries : List ResolutionEntry) (key : String × Uuid) : Option Resolution :=
  (entries.find? fun e => e.key = key).map ResolutionEntry.resolution

/-- The plural ending of the two refusals that count entities. -/
def plural (n : Nat) (one many : String) : String := if n = 1 then one else many

/-- A key that owns something is not deleted without a map. -/
def check_map_given (target_ref : String) (subtree : List Uuid) (inventory : List OwnedEntity)
    (entries : List ResolutionEntry) : Except AppError Unit :=
  let ending := plural inventory.length "y" "ies"
  if inventory ≠ [] ∧ entries = [] then
    .error (.ConflictWithDetails
      (s!"Refusing to delete {target_ref}: {inventory.length} owned " ++
       s!"entit{ending} in its subtree need an explicit                  " ++
       s!"resolution. Resubmit this request with a `resolutions` array assigning each " ++
       s!"one                  either \x7b\"action\":\"delete\"\x7d or " ++
       s!"\x7b\"action\":\"reassign\",\"owner_key_id\":\"…\"\x7d.")
      [("subtree_key_count", .num subtree.length),
        ("owned_entities", .arr (inventory.map OwnedEntity.to_json))])
  else .ok ()

/-- No entity is named twice. -/
def check_no_duplicate (entries : List ResolutionEntry) : Except AppError Unit :=
  match duplicate_entry [] entries with
  | some e => .error (.InvalidInput
      s!"Duplicate resolution for {e.entity_type} {Uuid.to_string e.id}")
  | none => .ok ()

/-- Every entity of the inventory is named. -/
def check_complete (target_ref : String) (inventory : List OwnedEntity)
    (entries : List ResolutionEntry) : Except AppError Unit :=
  let missing := inventory.filter fun e => (resolution_of entries e.key).isNone
  let ending := plural missing.length "y is" "ies are"
  if missing ≠ [] then
    .error (.ConflictWithDetails
      (s!"Refusing to delete {target_ref}: the resolution map is incomplete — {missing.length} " ++
       s!"entit{ending}                  unresolved. Partial maps " ++
       s!"are not applied.")
      [("unresolved", .arr (missing.map OwnedEntity.to_json))])
  else .ok ()

/-- Nothing else is named. The source walks its hash map in no fixed order to find an entry too
many; here the entries are walked as they were sent. -/
def check_no_extra (inventory : List OwnedEntity) (entries : List ResolutionEntry) :
    Except AppError Unit :=
  match entries.find? fun e => !(inventory.map OwnedEntity.key).contains e.key with
  | some e => .error (.InvalidInput
      (s!"Resolution names {e.entity_type} {Uuid.to_string e.id}, which is not owned by any key " ++
       s!"in this subtree"))
  | none => .ok ()

/-- The checks on the resolution map that need no query. -/
def validate_resolutions (target_ref : String) (subtree : List Uuid)
    (inventory : List OwnedEntity) (entries : List ResolutionEntry) : Except AppError Unit := do
  check_map_given target_ref subtree inventory entries
  check_no_duplicate entries
  check_complete target_ref inventory entries
  check_no_extra inventory entries

/-- The loop that validates the targets of reassignments. -/
def validate_targets (doomed : List Uuid) : List ResolutionEntry → Handler Unit
  | [] => pure ()
  | e :: es =>
      match e.resolution with
      | .Delete => validate_targets doomed es
      | .Reassign owner_key_id => do
          let _ ← resolve_owner_assignment (some owner_key_id)
          Prog.require (doomed.contains owner_key_id = false) (.InvalidInput
            (s!"Cannot reassign to key {Uuid.to_string owner_key_id}: it is itself inside the " ++
             s!"subtree being                      deleted, so the entity would be orphaned the " ++
             s!"moment this request completes"))
          validate_targets doomed es

/-- The write for one entity of the inventory: how many rows it touched is not looked at. -/
def resolution_stmt (e : OwnedEntity) (resolution : Resolution) : Stmt :=
  match e.entity_type, resolution with
  | .group, .Delete => .delete_group e.id
  | .webhook, .Delete => .delete_webhook e.id
  | .group, .Reassign owner_key_id => .set_group_owner e.id (some owner_key_id)
  | .webhook, .Reassign owner_key_id => .set_webhook_owner e.id (some owner_key_id)

/-- The loop that writes, in the order of the inventory. -/
def apply_resolutions (entries : List ResolutionEntry) : List OwnedEntity → Handler Unit
  | [] => pure ()
  | e :: es => do
      -- The map is complete by now; the source indexes it without a test.
      let resolution ← Prog.okOr .Internal (resolution_of entries e.key)
      let _ ← exec (resolution_stmt e resolution)
      apply_resolutions entries es

/-- How many entities of the inventory the map deletes. -/
def count_deleted (entries : List ResolutionEntry) (inventory : List OwnedEntity) : Nat :=
  (inventory.filter fun e => resolution_of entries e.key = some .Delete).length

/-- `delete_api_key`. -/
def delete_api_key (ctx : Ctx) (id : Uuid) (resolutions : List ResolutionEntry) :
    Handler Response := do
  Prog.require (ctx.key.is_master ∨ ctx.key.can_manage_keys) (.Forbidden "Permission denied")
  Prog.require (id ≠ ctx.key.id) (.Forbidden "Cannot delete yourself")
  let target ← find_administrable_key ctx.key id
  Prog.ofExcept (guard_master_target ctx.key target)
  Prog.ofExcept (guard_master_immutable target "deleted")
  let target_ref := format_key_reference target.name id
  let subtree ← collect_key_subtree id
  Prog.require (subtree.contains ctx.key.id = false) (.Conflict
    ("Refusing to delete: the subtree of this key contains your own key, which indicates " ++
     "a              cycle in parent_key_id. Resolve it directly in the database."))
  let inventory ← inventory_owned_entities subtree
  Prog.ofExcept (validate_resolutions target_ref subtree inventory resolutions)
  validate_targets subtree resolutions
  apply_resolutions resolutions inventory
  let rows_affected ← exec (.delete_keys subtree)
  Prog.require (rows_affected ≠ 0) .NotFound
  let deleted_entities := count_deleted resolutions inventory
  create_audit_log ctx "KEY_DELETE" none none (some
    (s!"Deleted key {target_ref} and {subtree.length - 1} descendant key(s); {deleted_entities} " ++
     s!"owned entit(y/ies) deleted, {inventory.length - deleted_entities} reassigned"))
  pure no_content

/-! ## Updates -/

/-- `UpdateApiKeyPayload`. -/
structure UpdateApiKeyPayload where
  name : Option String := none
  bound_ips : Option String := none
  can_manage_keys : Option Bool := none
  can_manage_webhooks : Option Bool := none
  can_create_groups : Option Bool := none

/-- The scopes a payload asks for. -/
def UpdateApiKeyPayload.scopes (p : UpdateApiKeyPayload) : Scopes (Option Bool) :=
  ⟨p.can_manage_keys, p.can_create_groups, p.can_manage_webhooks⟩

/-- The restrictions of `update_api_key` on the master row: only its own `bound_ips`. -/
def guard_master_update (caller target : ApiKey) (payload : UpdateApiKeyPayload) :
    Except AppError Unit :=
  let touches_other_fields := payload.name.isSome || payload.can_manage_keys.isSome ||
    payload.can_manage_webhooks.isSome || payload.can_create_groups.isSome
  if !target.is_master then .ok ()
  else if touches_other_fields then guard_master_immutable target "renamed or re-scoped"
  else if caller.id ≠ target.id then
    .error (.Forbidden "Only the master key itself may edit its bound_ips")
  else .ok ()

/-- The columns `update_api_key` sets. -/
def UpdateApiKeyPayload.change (p : UpdateApiKeyPayload) (now : Int) : Txn.KeyChange where
  name := p.name
  bound_ips := p.bound_ips
  can_manage_keys := p.can_manage_keys
  can_manage_webhooks := p.can_manage_webhooks
  can_create_groups := p.can_create_groups
  updated_at := now

/-- `update_api_key`. -/
def update_api_key (ctx : Ctx) (id : Uuid) (payload : UpdateApiKeyPayload) :
    Handler Response := do
  Prog.require (ctx.key.is_master ∨ ctx.key.can_manage_keys) (.Forbidden "Permission denied")
  let target ← find_administrable_key ctx.key id
  Prog.ofExcept (guard_master_target ctx.key target)
  Prog.ofExcept (guard_master_update ctx.key target payload)
  Prog.ofExcept (guard_scope_elevation ctx.key payload.scopes target.scopes)
  Prog.ofExcept (validate_bound_ips ctx.env payload.bound_ips)
  let updated ← exec (.update_key id (payload.change ctx.now))
  let target_ref := format_key_reference updated.name id
  create_audit_log ctx "KEY_UPDATE" none none (some s!"Updated key {target_ref}")
  let summary ← full_api_key_summary updated
  pure (json summary.to_json)

/-- The start of the two rotation endpoints: the key, if the caller may rotate it. -/
def rotation_target (ctx : Ctx) (id : Uuid) (operation : String) : Handler ApiKey := do
  Prog.require (ctx.key.is_master ∨ ctx.key.can_manage_keys) (.Forbidden "Permission denied")
  let target ← find_administrable_key ctx.key id
  Prog.ofExcept (guard_master_target ctx.key target)
  Prog.ofExcept (guard_master_immutable target operation)
  pure target

/-- `rotate_api_key`. -/
def rotate_api_key (ctx : Ctx) (id : Uuid) : Handler Response := do
  let target ← rotation_target ctx id "rotated"
  let target_ref := format_key_reference target.name id
  let stored_signing_secret ← seal_for ctx
  let _ ← exec (.update_key id
    { key_hash := some (ctx.env.sha256_hex ctx.entropy.plaintext_key)
      key_prefix := some (Text.take 8 ctx.entropy.plaintext_key)
      signing_secret := some stored_signing_secret
      updated_at := ctx.now })
  create_audit_log ctx "KEY_ROTATE" none none (some s!"Rotated secret for key {target_ref}")
  pure (json (.obj [("id", .uuid id), ("plaintext_key", .str ctx.entropy.plaintext_key),
    ("signing_secret", .str ctx.entropy.signing_secret)]))

/-- `rotate_signing_secret`. -/
def rotate_signing_secret (ctx : Ctx) (id : Uuid) : Handler Response := do
  let target ← rotation_target ctx id "re-keyed"
  let target_ref := format_key_reference target.name id
  let stored_signing_secret ← seal_for ctx
  let _ ← exec (.update_key id
    { signing_secret := some stored_signing_secret, updated_at := ctx.now })
  create_audit_log ctx "KEY_SECRET_ROTATE" none none
    (some s!"Rotated signing secret for key {target_ref}")
  pure (json (.obj [("id", .uuid id), ("name", .str target.name),
    ("signing_secret", .str ctx.entropy.signing_secret)]))

/-! ## Permission rows -/

/-- The row `update_key_group_permissions` writes. -/
def GroupPermInput.row (p : GroupPermInput) (key_id group_id : Uuid) (now : Int) :
    GroupPermission where
  api_key_id := key_id
  group_id := group_id
  can_read := p.can_read
  can_write := p.can_write
  can_delete := p.can_delete
  can_manage := p.can_manage
  created_at := now

/-- The group a permission request is about, created by name if it does not exist. -/
def permission_group (ctx : Ctx) (payload : GroupPermInput) : Handler IpGroup := do
  let existing_group ← resolve_group_ref_flexible ctx.env payload.group_id payload.group_name
  match existing_group, payload.group_name with
  | some g, _ => pure g
  | none, some group_name => do
      Prog.require (ctx.key.is_master ∨ ctx.key.can_create_groups) (.Forbidden
        "Permission denied: Target group does not exist and you cannot create groups")
      get_or_create_group ctx group_name "banlist" (resource_owner ctx.key)
  | none, none => .fail .NotFound

/-- Which guard a permission request must pass: a grant needs the verbs, a revocation does
not. -/
def guard_permission_change (caller : ApiKey) (caller_perm target_perm : Option GroupPermission)
    (group_name : String) (payload : GroupPermInput) : Except AppError Unit :=
  if widens_permissions payload target_perm then
    guard_delegated_group_grant caller caller_perm group_name "grant" payload
  else guard_group_manage caller caller_perm group_name "revoke"

/-- `update_key_group_permissions`. -/
def update_key_group_permissions (ctx : Ctx) (id : Uuid) (payload : GroupPermInput) :
    Handler Response := do
  guard_may_administer_any_group ctx.key
  let found ← select (.key_by_id id)
  let target_key ← Prog.okOr .NotFound found
  Prog.require (target_key.is_master = false)
    (.InvalidInput "Cannot configure M:N permissions on a master key")
  Prog.require (payload.can_write ∨ payload.can_delete → payload.can_read)
    (.InvalidInput "can_write or can_delete require can_read to be true")
  let group ← permission_group ctx payload
  let caller_perm ← caller_group_permission ctx.key.id group.id
  let target_perm ← caller_group_permission id group.id
  Prog.ofExcept (guard_permission_change ctx.key caller_perm target_perm group.name payload)
  exec (.upsert_permission (payload.row id group.id ctx.now))
  create_audit_log ctx "KEY_PERM_UPDATE" none (some group.name)
    (some s!"Updated permissions for key {format_key_reference target_key.name id}")
  pure ok_empty

/-- `revoke_key_group_permission`. -/
def revoke_key_group_permission (ctx : Ctx) (id : Uuid) (group_identifier : String) :
    Handler Response := do
  guard_may_administer_any_group ctx.key
  let found ← resolve_group_by_identifier ctx.env group_identifier
  let group ← Prog.okOr .NotFound found
  let grant ← caller_group_permission id group.id
  Prog.require (grant.isSome = true) .NotFound
  let caller_perm ← caller_group_permission ctx.key.id group.id
  Prog.ofExcept (guard_group_manage ctx.key caller_perm group.name "revoke")
  let rows_affected ← exec (.delete_permission id group.id)
  Prog.require (rows_affected ≠ 0) .NotFound
  let target ← select (.key_by_id id)
  let target ← Prog.okOr .NotFound target
  create_audit_log ctx "KEY_PERM_REVOKE" none (some group.name)
    (some s!"Revoked permissions for key {format_key_reference target.name id}")
  pure no_content

end IpVault
