import IpVault.Schema.TwoRuns
import IpVault.Service

set_option autoImplicit false

/-! # What is out of sight and what does not exist

The permission model asks that a caller cannot tell what is outside its scope from what does not
exist. Two runs of one request decide it: one from the store as it is, one from the store that is
left when the entity the request asks for is deleted. The endpoints on groups and records keep to it
where they check the caller's row before they look the entity up (the webhook endpoints), and where
the request is refused for what it says itself. Everywhere else the row is checked after the lookup,
and the refusal of the one (403) is not the refusal of the other (404).
-/

namespace IpVault

open Lib

/-! ## One request, two stores -/

namespace Service

variable (S : Service) {req : Request} {key : ApiKey} {v w : Vault}

end Service

/-! ## Out of sight -/

/-- What a request can ask for. -/
inductive Entity where
  | group (g : IpGroup)
  | record (r : IpRecord)

namespace Entity

/-- The statement after which the entity does not exist. -/
def removal : Entity → Stmt
  | group g => .delete_group g.id
  | record r => .delete_record r.id

end Entity

/-- The parameters of `delete_ip` name the group. -/
def DeleteIpQuery.names (params : DeleteIpQuery) (g : IpGroup) : Prop :=
  params.group_id = some g.id ∨ params.group_name = some g.name

section Absence

variable {ctx : Ctx} {v w : Vault} {g : IpGroup}

/-! ## What is left when an entity is deleted -/

section DeleteIp

variable {query_params : DeleteIpQuery} {body : OptionalBody DeleteIpQuery} {b : DeleteIpQuery}

end DeleteIp

end Absence

/-! ## The endpoints -/

section Endpoints

variable {ctx : Ctx} {v : Vault} {e : Entity} {call : Call}

end Endpoints

end IpVault
