import IpVault.Crypto

set_option autoImplicit false

/-! # Support functions of the handlers (`api/support.rs`) -/

namespace IpVault

open Lib

/-- `IP_EVENT_ACTIONS`. -/
def IP_EVENT_ACTIONS : List String := ["IP_ADD", "IP_UPDATE", "IP_DELETE"]

/-- `normalize_ip_or_cidr`: the canonical spelling of an address or network. What does not parse
is kept as it is. -/
def normalize_ip_or_cidr (env : Env) (input : String) : String :=
  match env.parse_network input with
  | some net =>
      if net.is_single_host then env.show_ip net.ip
      else env.show_ip net.network ++ "/" ++ toString net.plen
  | none => input

/-- `format_key_reference`. -/
def format_key_reference (name : String) (id : Uuid) : String :=
  s!"'{name}' ({Text.take 8 (Uuid.to_string id)}...)"

/-- A `200` with a JSON body. -/
def json (j : Json) : Response := ⟨200, some j⟩

/-- `StatusCode::OK` alone. -/
def ok_empty : Response := ⟨200, none⟩

/-- `StatusCode::NO_CONTENT`. -/
def no_content : Response := ⟨204, none⟩

/-- A `Uuid` in JSON. -/
def Json.uuid (id : Uuid) : Json := .str (Uuid.to_string id)

/-- `create_audit_log`, outside a transaction. -/
def create_audit_log (ctx : Ctx) (action : String)
    (target_address group_names details : Option String) : Handler Unit :=
  exec (.insert_audit (audit_row ctx.caller ctx.now action target_address group_names details))

/-- The row `get_or_create_group` and `create_ip_group` insert. -/
def new_group (name group_type : String) (owner : Option Uuid) (now : Int) : IpGroup where
  id := 0
  name
  group_type
  description := none
  owner_key_id := owner
  created_at := now

/-- `get_or_create_group`: a conflict-tolerant insert, then the row of that name, whoever
inserted it. -/
def get_or_create_group (ctx : Ctx) (name default_group_type : String) (owner : Option Uuid) :
    Handler IpGroup := do
  exec (.insert_group_or_ignore (new_group name default_group_type owner ctx.now))
  let found ← select (.group_by_name name)
  Prog.okOr .Internal found

/-- `resolve_group_ref`. -/
def resolve_group_ref (group_id : Option Uuid) (group_name : Option String) :
    Handler (Option IpGroup) :=
  match group_id, group_name with
  | some _, some _ =>
      .fail (.InvalidInput "Provide either group_id or group_name, not both")
  | none, none => .fail (.InvalidInput "Either group_id or group_name is required")
  | some gid, none => select (.group_by_id gid)
  | none, some name => select (.group_by_name name)

/-- `resolve_group_by_identifier`: an identifier first, then a name. -/
def resolve_group_by_identifier (env : Env) (identifier : String) : Handler (Option IpGroup) :=
  match env.parse_uuid identifier with
  | none => select (.group_by_name identifier)
  | some id => do
      let found ← select (.group_by_id id)
      match found with
      | some g => pure (some g)
      | none => select (.group_by_name identifier)

/-- `resolve_group_ref_flexible`. -/
def resolve_group_ref_flexible (env : Env) (group_id group_name : Option String) :
    Handler (Option IpGroup) :=
  match group_id, group_name with
  | some _, some _ =>
      .fail (.InvalidInput "Provide either group_id or group_name, not both")
  | none, none => .fail (.InvalidInput "Either group_id or group_name is required")
  | some identifier, none => resolve_group_by_identifier env identifier
  | none, some name => select (.group_by_name name)

/-- `ReassignOwnerPayload`. -/
structure ReassignOwnerPayload where
  owner_key_id : Option Uuid

end IpVault
