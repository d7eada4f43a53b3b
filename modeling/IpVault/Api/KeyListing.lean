import IpVault.Api.Keys

set_option autoImplicit false

/-! # The key listing (`list_api_keys` in `api/keys.rs`) -/

namespace IpVault

open Lib

/-- `groups_the_caller_manages`. -/
def groups_the_caller_manages (caller : ApiKey) : Handler (List Uuid) :=
  if caller.can_manage_keys then do
    let rows ← select (.permissions_of caller.id)
    pure ((rows.filter fun p => p.can_manage).map GroupPermission.group_id)
  else pure []

/-- The holders of a row on a managed group that are not in the subtree. -/
def keys_sharing (managed_groups subtree : List Uuid) : Handler (List Uuid) :=
  if managed_groups = [] then pure []
  else do
    let rows ← select .all_permissions
    pure (((rows.filter fun p => managed_groups.contains p.group_id).map
      GroupPermission.api_key_id).filter fun id => !subtree.contains id)

/-- The full summaries of the keys that are still there. -/
def summarize_subtree : List Uuid → Handler (List ApiKeySummary)
  | [] => pure []
  | id :: ids => do
      let found ← select (.key_by_id id)
      match found with
      | none => summarize_subtree ids
      | some k => do
          let s ← full_api_key_summary k
          let rest ← summarize_subtree ids
          pure (s :: rest)

/-- The minimal summaries of the keys that are still there, each key once. -/
def summarize_shared (managed_groups : List Uuid) :
    List Uuid → List Uuid → Handler (List ApiKeySummary)
  | _, [] => pure []
  | seen, id :: ids =>
      if seen.contains id then summarize_shared managed_groups seen ids
      else do
        let found ← select (.key_by_id id)
        match found with
        | none => summarize_shared managed_groups (id :: seen) ids
        | some k => do
            let s ← minimal_api_key_summary k managed_groups
            let rest ← summarize_shared managed_groups (id :: seen) ids
            pure (s :: rest)

/-- The summaries of every key, for the master. -/
def summarize_all : List ApiKey → Handler (List ApiKeySummary)
  | [] => pure []
  | k :: ks => do
      let s ← full_api_key_summary k
      let rest ← summarize_all ks
      pure (s :: rest)

/-- The order in which the `HashSet` of the subtree is walked. -/
structure SetOrder where
  arrange : List Uuid → List Uuid
  perm : ∀ ids, (arrange ids).Perm ids

/-- `list_api_keys`, before it is serialized. -/
def key_summaries (ctx : Ctx) (order : SetOrder) : Handler (List ApiKeySummary) := do
  Prog.require (ctx.key.is_master ∨ ctx.key.can_manage_keys) (.Forbidden "Permission denied")
  if ctx.key.is_master then do
    let keys ← select .all_keys
    summarize_all keys
  else do
    let subtree ← collect_key_subtree ctx.key.id
    let managed_groups ← groups_the_caller_manages ctx.key
    let shared ← keys_sharing managed_groups subtree
    let own ← summarize_subtree (order.arrange subtree)
    let others ← summarize_shared managed_groups (own.map ApiKeySummary.id) shared
    pure (own ++ others)

/-- `list_api_keys`. -/
def list_api_keys (ctx : Ctx) (order : SetOrder) : Handler Response := do
  let summaries ← key_summaries ctx order
  pure (json (.arr (summaries.map ApiKeySummary.to_json)))

end IpVault
