import Mathlib.Tactic

set_option autoImplicit false

/-! # The rows of the database

One structure for each table, with the columns the service reads or writes. A `Uuid` is a number
drawn from a counter of the store, which stands for the random `Uuid::new_v4`. A timestamp is an
`Int` that counts nanoseconds since the epoch.
-/

namespace IpVault

/-- A row identifier. -/
abbrev Uuid := Nat

namespace Uuid

/-- One lowercase hexadecimal digit. -/
def hexDigit (n : Nat) : Char := if n < 10 then Char.ofNat (48 + n) else Char.ofNat (87 + n)

/-- The last `k` hexadecimal digits of `n`, in front of `acc`. -/
def hexOnto : Nat → Nat → List Char → List Char
  | 0, _, acc => acc
  | k + 1, n, acc => hexOnto k (n / 16) (hexDigit (n % 16) :: acc)

/-- `Uuid::to_string`: 32 hexadecimal digits in groups of 8, 4, 4, 4 and 12. -/
def to_string (u : Uuid) : String :=
  let d := hexOnto 32 u []
  String.ofList (d.take 8 ++ '-' :: (d.drop 8).take 4 ++ '-' :: (d.drop 12).take 4 ++
    '-' :: (d.drop 16).take 4 ++ '-' :: d.drop 20)

end Uuid

/-- `api_keys`: an authentication token with its global scopes. The column `prefix` is named
`key_prefix` here. -/
structure ApiKey where
  id : Uuid
  name : String
  key_hash : String
  signing_secret : Option String
  key_prefix : String
  bound_ips : Option String
  is_master : Bool
  can_manage_keys : Bool
  can_manage_webhooks : Bool
  can_create_groups : Bool
  parent_key_id : Option Uuid
  created_at : Int
  updated_at : Int
  deriving DecidableEq

/-- `api_key_group_permissions`: what one key may do in one group. -/
structure GroupPermission where
  api_key_id : Uuid
  group_id : Uuid
  can_read : Bool
  can_write : Bool
  can_delete : Bool
  can_manage : Bool
  created_at : Int
  deriving DecidableEq

/-- `ip_groups`: a named collection of addresses. The group type is `"banlist"` or
`"whitelist"`. -/
structure IpGroup where
  id : Uuid
  name : String
  group_type : String
  description : Option String
  owner_key_id : Option Uuid
  created_at : Int
  deriving DecidableEq

/-- `ip_records`: one address or range, shared by every group it is a member of. -/
structure IpRecord where
  id : Uuid
  target_address : String
  cause : Option String
  is_locked : Bool
  created_at : Int
  updated_at : Int
  last_seen_at : Int
  is_deleted : Bool
  deleted_at : Option Int
  deleted_by : Option String
  deriving DecidableEq

/-- `ip_record_group_memberships`. -/
structure Membership where
  ip_record_id : Uuid
  group_id : Uuid
  deriving DecidableEq

/-- `webhook_configs`: where and how the events of one group are sent. -/
structure WebhookConfig where
  id : Uuid
  name : String
  target_url : String
  secret_token : String
  auth_mode : String
  api_key : Option String
  hmac_template : Option String
  signature_header : Option String
  signature_prefix : Option String
  headers_json : Option String
  payload_template : String
  group_id : Uuid
  is_active : Bool
  events : Option String
  owner_key_id : Option Uuid
  created_at : Int
  deriving DecidableEq

/-- `webhook_executions`: one delivery attempt. -/
structure WebhookExecution where
  id : Uuid
  webhook_id : Uuid
  event_type : String
  status_code : Option Int
  is_success : Bool
  duration_ms : Int
  response_body : Option String
  resolved_target_url : Option String
  target_address : Option String
  cause : Option String
  created_at : Int
  deriving DecidableEq

/-- `audit_logs`: who did what. -/
structure AuditLog where
  api_key_id : Option Uuid
  api_key_name : String
  api_key_prefix : String
  client_ip : String
  action : String
  target_address : Option String
  group_names : Option String
  details : Option String
  timestamp : Int
  deriving DecidableEq

/-- `state::WebhookEvent`: a change to announce to the webhooks of a group. -/
structure WebhookEvent where
  action : String
  address : String
  is_whitelist : Bool
  group_id : Option Uuid
  group_name : Option String
  cause : Option String
  deriving DecidableEq

example : Uuid.to_string 0x1a = "00000000-0000-0000-0000-00000000001a" := by decide

end IpVault
