import IpVault.Access.Absence
import IpVault.Keys.NewOwners

set_option autoImplicit false

/-! # Keys that are out of sight and keys that do not exist

A request that names a key is compared with the same request to the store without that key. The
endpoints that act on the key itself answer alike. A grant, a revocation and a reassignment do so
where something else refuses them.
-/

namespace IpVault

open Lib

/-! ## The endpoints -/

/-- **What keeps a request silent about `t`.** A grant is refused before the key is looked up, or
for a group that does not exist; a revocation also where there is no row; a deletion that reassigns
to `t` is refused before that or for another target. -/
def Call.Silent (ctx : Ctx) (w : World) (t : Uuid) : Call → Prop
  | delete_api_key id resolutions =>
      id = t ∨ (w.OwnersReached ctx.key id resolutions →
        w.RefusedElsewhere id t (reassign_targets resolutions))
  | update_key_group_permissions _ payload =>
      w.Administers ctx.key → w.Ordinary t ∧
        (payload.can_write ∨ payload.can_delete → payload.can_read) ∧ payload.NamesNoGroup ctx.env w
  | revoke_key_group_permission _ group_identifier =>
      w.Administers ctx.key → ∀ g, w.group_by_identifier ctx.env group_identifier = some g →
        w.permission t g.id = none
  | _ => True

section Endpoints

variable {ctx : Ctx} {v : Vault} {t : Uuid} {call : Call}

end Endpoints

/-- A key that manages the group `bans`, which is group 2. -/
def ApiKey.manager : ApiKey := { ApiKey.sample 1 with can_manage_keys := true }

end IpVault
