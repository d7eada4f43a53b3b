import IpVault.Access.Footprint
import IpVault.Keys.Lineage
import IpVault.Schema.Failures
import IpVault.Schema.TwoRuns
import IpVault.Webhooks.Reach

set_option autoImplicit false

/-! # Keys out of sight

A caller sees the keys below it and those that hold a row on a group it manages. For any other key
the store is compared with the store without it: the endpoints that act on the key itself look for
it in the subtree of the caller and find it in neither; a grant looks it up in the table, and a
revocation looks its row up, so that what they are refused with may differ.
-/

namespace IpVault

open Lib

/-- The store without a key. -/
def Vault.without_key (v : Vault) (t : Uuid) : Vault := v.after (.delete_keys [t])

section Without

variable {v : Vault} {t : Uuid}

@[simp] theorem without_key_groups (v : Vault) (t : Uuid) :
    (v.without_key t).groups = v.groups := rfl

@[simp] theorem without_key_webhooks (v : Vault) (t : Uuid) :
    (v.without_key t).webhooks = v.webhooks := rfl

theorem mem_without_key {k : ApiKey} : k ∈ (v.without_key t).keys ↔ k ∈ v.keys ∧ k.id ≠ t := by
  show k ∈ v.keys.filter _ ↔ _
  rw [Table.mem_filter]
  simp

end Without

/-! ## Looking for a key below the caller -/

section Walk

variable {v w : Vault} {root t : Uuid} {visited frontier : List Uuid}

end Walk

section Administered

variable {ctx : Ctx} {v : Vault} {t id : Uuid}

end Administered

/-! ## Grants and revocations -/

/-- What `guard_may_administer_any_group` asks of a key that is not the master. -/
def World.Administers (w : World) (key : ApiKey) : Prop :=
  key.can_manage_keys = true ∧ ∃ p ∈ w.permissions, p.api_key_id = key.id ∧ p.can_manage = true

section Permissions

variable {ctx : Ctx} {v : Vault} {t : Uuid}

/-- Where a handler ends, if none of its errors has that status. -/
abbrev Avoids {α : Type} (status : Nat) (p : Handler α) (v : Vault) (Q : α → Prop) : Prop :=
  Prog.Meets database (fun _ _ => True) (fun a _ => Q a) (fun e _ => e.status ≠ status) p v

section Avoids

variable {α β : Type} {status : Nat} {v : Vault}

theorem Avoids.bind {p : Handler α} {f : α → Handler β} {Q : α → Prop} {R : β → Prop}
    (h : Avoids status p v Q) (hf : ∀ a w, Q a → Avoids status (f a) w R) :
    Avoids status (p >>= f) v R :=
  Prog.Meets.bind h hf

theorem Avoids.select (q : Query) : Avoids status (IpVault.select q) v fun _ => True :=
  meets_select.mpr ⟨trivial, trivial⟩

theorem Avoids.require {c : Prop} [Decidable c] {e : AppError} (he : e.status ≠ status) :
    Avoids status (Prog.require c e) v fun _ => True :=
  (Prog.meets_require c e _ v).mpr ⟨fun _ => trivial, fun _ => he⟩

theorem Avoids.okOr {e : AppError} {x : Option α} (he : e.status ≠ status) :
    Avoids status (Prog.okOr e x) v fun _ => True :=
  (Prog.meets_okOr e x v).mpr ⟨fun _ _ => trivial, fun _ => he⟩

theorem Avoids.require_bind {c : Prop} [Decidable c] {e : AppError} {f : Unit → Handler β}
    {R : β → Prop} (he : e.status ≠ status) (h : c → Avoids status (f ()) v R) :
    Avoids status (Prog.require c e >>= f) v R := by
  refine (Prog.meets_bind _ f _ v).mpr ((Prog.meets_require c e _ v).mpr ⟨h, fun _ => he⟩)

/-- A statement that refuses nothing fails as the database fails. -/
theorem Avoids.exec {l : Stmt} (hu : ∀ t, l ≠ .upsert_txn t) (hd : ∀ t, l ≠ .delete_ip_txn t)
    (h500 : status ≠ 500) (h503 : status ≠ 503) :
    Avoids status (IpVault.exec l) v fun _ => True := by
  refine exec_ends hu hd (fun d => ?_) fun _ _ => trivial
  cases d <;> first | exact h500.symm | exact h503.symm

end Avoids

/-- The request names a group by an identifier, and there is none. -/
def GroupPermInput.NamesNoGroup (env : Env) (w : World) (payload : GroupPermInput) : Prop :=
  payload.group_name = none ∧
    ∃ identifier, payload.group_id = some identifier ∧ w.group_by_identifier env identifier = none

end Permissions

end IpVault
