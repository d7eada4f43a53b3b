import IpVault.Api.Support

set_option autoImplicit false

/-! # Authorization guards (`api/guards.rs`)

Each guard answers one question of the permission model and returns nothing or a refusal.
-/

namespace IpVault

open Lib

/-- `GroupPermInput`: a requested permission row. -/
structure GroupPermInput where
  group_id : Option String := none
  group_name : Option String := none
  can_read : Bool
  can_write : Bool
  can_delete : Bool
  can_manage : Bool := false

/-- `caller_group_permission`. -/
def caller_group_permission (key_id group_id : Uuid) : Handler (Option GroupPermission) :=
  select (.permission key_id group_id)

/-- `resource_owner`: nobody owns what the master creates. -/
def resource_owner (creator : ApiKey) : Option Uuid :=
  if creator.is_master then none else some creator.id

/-- `guard_resource_lifecycle`. -/
def guard_resource_lifecycle (caller : ApiKey) (owner_key_id : Option Uuid)
    (resource action : String) : Except AppError Unit :=
  if caller.is_master || owner_key_id == some caller.id then .ok ()
  else .error (.Forbidden
    (s!"Permission denied: only the master key or this {resource}'s owner may {action} it. " ++
     s!"Managing its permissions or holding read/write/delete on its contents confers no " ++
     s!"authority over the {resource} itself."))

/-- `resolve_owner_assignment`. -/
def resolve_owner_assignment (requested : Option Uuid) : Handler (Option Uuid) :=
  match requested with
  | none => pure none
  | some owner_id => do
      let found ← select (.key_by_id owner_id)
      let owner ← Prog.okOr (.InvalidInput "No such key to assign ownership to") found
      Prog.require (owner.is_master = false) (.InvalidInput
        ("The master key cannot be a resource owner; leave owner_key_id null instead, which " ++
         "already means master-only"))
      pure (some owner_id)

/-- `guard_group_manage`: both the global scope and the group verb are needed. -/
def guard_group_manage (caller : ApiKey) (caller_perm : Option GroupPermission)
    (group_name action : String) : Except AppError Unit :=
  if caller.is_master then .ok ()
  else if caller.can_manage_keys && caller_perm.any (·.can_manage) then .ok ()
  else .error (.Forbidden
    (s!"Permission denied: you cannot {action} permissions on group '{group_name}'. Managing a " ++
     s!"group's permissions requires both the global can_manage_keys scope and can_manage = true " ++
     s!"on your own grant for that group; neither alone is sufficient."))

/-- `holds_any_group_manage`. -/
def holds_any_group_manage (key_id : Uuid) : Handler Bool := do
  let rows ← select (.permissions_of key_id)
  pure (rows.any (·.can_manage))

/-- `guard_may_administer_any_group`. -/
def guard_may_administer_any_group (caller : ApiKey) : Handler Unit :=
  if caller.is_master then pure ()
  else if caller.can_manage_keys then do
    let any ← holds_any_group_manage caller.id
    Prog.require (any = true) (.Forbidden "Permission denied")
  else .fail (.Forbidden "Permission denied")

/-- Whether a request asks for a verb the row does not have. -/
def exceeds (requested : GroupPermInput) (held : GroupPermission) : Bool :=
  (requested.can_read && !held.can_read) || (requested.can_write && !held.can_write) ||
    (requested.can_delete && !held.can_delete) || (requested.can_manage && !held.can_manage)

/-- `widens_permissions`: the request adds a verb, or creates the row. -/
def widens_permissions (requested : GroupPermInput) (target_perm : Option GroupPermission) :
    Bool :=
  match target_perm with
  | none => true
  | some held => exceeds requested held

/-- `guard_delegated_group_grant`: nobody grants a verb it does not hold. -/
def guard_delegated_group_grant (caller : ApiKey) (caller_perm : Option GroupPermission)
    (group_name action : String) (requested : GroupPermInput) : Except AppError Unit := do
  guard_group_manage caller caller_perm group_name action
  if caller.is_master then .ok ()
  else match caller_perm with
    | none => .error (.Forbidden
        s!"Permission denied: you cannot {action} permissions on group '{group_name}'")
    | some held =>
        if exceeds requested held then .error (.Forbidden
          (s!"Permission denied: you cannot {action} permissions on group '{group_name}' " ++
           s!"beyond your own"))
        else .ok ()

/-- The three global scopes, in the order `MASTER_ONLY_SCOPES` lists them. -/
structure Scopes (α : Type) where
  can_manage_keys : α
  can_create_groups : α
  can_manage_webhooks : α

/-- The scopes a key holds. -/
def ApiKey.scopes (k : ApiKey) : Scopes Bool :=
  ⟨k.can_manage_keys, k.can_create_groups, k.can_manage_webhooks⟩

/-- One round of the loop of `guard_scope_elevation`. -/
def guard_scope (name : String) (request : Option Bool) (current : Bool) : Except AppError Unit :=
  if request = some true ∧ current = false then
    .error (.Forbidden s!"Only a master key can grant '{name}'")
  else .ok ()

/-- `guard_scope_elevation`: only the master grants a global scope that is not held yet. -/
def guard_scope_elevation (caller : ApiKey) (requested : Scopes (Option Bool))
    (held : Scopes Bool) : Except AppError Unit :=
  if caller.is_master then .ok ()
  else do
    guard_scope "can_manage_keys" requested.can_manage_keys held.can_manage_keys
    guard_scope "can_create_groups" requested.can_create_groups held.can_create_groups
    guard_scope "can_manage_webhooks" requested.can_manage_webhooks held.can_manage_webhooks

/-- `guard_master_target`. -/
def guard_master_target (caller target : ApiKey) : Except AppError Unit :=
  if target.is_master && !caller.is_master then
    .error (.Forbidden "Only a master key can modify, rotate, or delete another master key")
  else .ok ()

/-- `guard_master_immutable`. -/
def guard_master_immutable (target : ApiKey) (operation : String) : Except AppError Unit :=
  if !target.is_master then .ok ()
  else .error (.Forbidden
    (s!"The master key is immutable through the API and cannot be {operation}. Only its own " ++
     s!"bound_ips may be edited, by itself. To re-mint it, delete the row directly in the " ++
     s!"database and restart the service."))

/-! ## What passing a guard says -/

theorem guard_group_manage_ok {caller : ApiKey} {perm : Option GroupPermission}
    {group_name action : String} (h : guard_group_manage caller perm group_name action = .ok ())
    (hm : caller.is_master = false) :
    caller.can_manage_keys = true ∧ ∃ p, perm = some p ∧ p.can_manage = true := by
  unfold guard_group_manage at h
  rw [hm] at h
  simp only [Bool.false_eq_true, if_false] at h
  split at h
  · rename_i hc
    simpa [Option.any_eq_true] using hc
  · cases h

/-- A verb that is requested but not exceeded is held. -/
theorem held_of_not_exceeds {requested : GroupPermInput} {held : GroupPermission}
    (h : exceeds requested held = false) :
    (requested.can_read = true → held.can_read = true) ∧
    (requested.can_write = true → held.can_write = true) ∧
    (requested.can_delete = true → held.can_delete = true) ∧
    (requested.can_manage = true → held.can_manage = true) := by
  simp only [exceeds, Bool.or_eq_false_iff, Bool.and_eq_false_imp, Bool.not_eq_false'] at h
  exact ⟨h.1.1.1, h.1.1.2, h.1.2, h.2⟩

theorem guard_delegated_group_grant_ok {caller : ApiKey} {perm : Option GroupPermission}
    {group_name action : String} {requested : GroupPermInput}
    (h : guard_delegated_group_grant caller perm group_name action requested = .ok ())
    (hm : caller.is_master = false) :
    ∃ held, perm = some held ∧ held.can_manage = true ∧ exceeds requested held = false := by
  unfold guard_delegated_group_grant at h
  cases hg : guard_group_manage caller perm group_name action with
  | error e =>
      rw [hg] at h
      cases h
  | ok u =>
      rw [hg] at h
      obtain ⟨-, p, rfl, hp⟩ := guard_group_manage_ok hg hm
      refine ⟨p, rfl, hp, ?_⟩
      simp only [hm, bind, Except.bind, Bool.false_eq_true, if_false] at h
      by_contra hx
      rw [Bool.not_eq_false] at hx
      rw [hx] at h
      cases h

theorem guard_scope_ok {name : String} {request : Option Bool} {current : Bool}
    (h : guard_scope name request current = .ok ()) (hr : request = some true) :
    current = true := by
  unfold guard_scope at h
  by_contra hc
  rw [Bool.not_eq_true] at hc
  rw [if_pos ⟨hr, hc⟩] at h
  cases h

theorem guard_scope_elevation_ok {caller : ApiKey} {requested : Scopes (Option Bool)}
    {held : Scopes Bool} (h : guard_scope_elevation caller requested held = .ok ())
    (hm : caller.is_master = false) :
    (requested.can_manage_keys = some true → held.can_manage_keys = true) ∧
    (requested.can_create_groups = some true → held.can_create_groups = true) ∧
    (requested.can_manage_webhooks = some true → held.can_manage_webhooks = true) := by
  unfold guard_scope_elevation at h
  simp only [hm, Bool.false_eq_true, if_false, bind, Except.bind] at h
  cases h₁ : guard_scope "can_manage_keys" requested.can_manage_keys held.can_manage_keys with
  | error e => simp [h₁] at h
  | ok u =>
      cases h₂ : guard_scope "can_create_groups" requested.can_create_groups
          held.can_create_groups with
      | error e => simp [h₁, h₂] at h
      | ok u' =>
          simp only [h₁, h₂] at h
          exact ⟨guard_scope_ok h₁, guard_scope_ok h₂, guard_scope_ok h⟩

theorem guard_master_immutable_ok {target : ApiKey} {operation : String}
    (h : guard_master_immutable target operation = .ok ()) : target.is_master = false := by
  unfold guard_master_immutable at h
  by_contra ht
  rw [Bool.not_eq_false] at ht
  simp [ht] at h

end IpVault
