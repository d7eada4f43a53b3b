import IpVault.Keys.Resolution
import IpVault.Keys.Sight

set_option autoImplicit false

/-! # New owners out of sight

A deletion may reassign what the deleted keys own to any ordinary key that survives. The loop that
checks the new owners asks the table of keys for each, in the order of the map, and its refusals say
which of them do not exist. This module says what the loop ends in, which deletions come to it, and
when a new owner that the caller does not see makes a difference.
-/

namespace IpVault

open Lib

/-! ## The loop -/

/-- The keys the map reassigns to, in order. -/
def reassign_targets (entries : List ResolutionEntry) : List Uuid :=
  entries.filterMap fun e => match e.resolution with
    | .Delete => none
    | .Reassign owner_key_id => some owner_key_id

section Targets

variable {v : Vault} {doomed : List Uuid}

/-- The key may be a new owner when `id` is deleted. -/
def World.Assignable (w : World) (id y : Uuid) : Prop :=
  ∃ k ∈ w.keys, k.id = y ∧ k.is_master = false ∧ ¬ w.Descends id y

end Targets

/-! ## Reassignments of a deletion -/

/-- The group or webhook belongs to a key below `id`. -/
def World.OwnedBelow (w : World) (id : Uuid) (x : String × Uuid) : Prop :=
  (x.1 = EntityType.group.as_str ∧
    ∃ g ∈ w.groups, g.id = x.2 ∧ ∃ owner, w.Descends id owner ∧ g.owner_key_id = some owner) ∨
  (x.1 = EntityType.webhook.as_str ∧
    ∃ h ∈ w.webhooks, h.id = x.2 ∧ ∃ owner, w.Descends id owner ∧ h.owner_key_id = some owner)

/-- **The deletions that come to the new owners.** The key is an ordinary one below the caller, not
above it too, and the map names what is owned below the key, each once, and nothing else. -/
structure World.OwnersReached (w : World) (caller : ApiKey) (id : Uuid)
    (resolutions : List ResolutionEntry) : Prop where
  manager : caller.can_manage_keys = true
  other : id ≠ caller.id
  target : ∃ k ∈ w.keys, k.id = id ∧ k.is_master = false
  below : w.Descends caller.id id
  acyclic : ¬ w.Descends id caller.id
  distinct : (resolutions.map ResolutionEntry.key).Nodup
  named : ∀ x, x ∈ resolutions.map ResolutionEntry.key ↔ w.OwnedBelow id x

/-- The first target that cannot be an owner does not exist, or comes before `t` is mentioned. -/
def World.RefusedElsewhere (w : World) (id t : Uuid) (targets : List Uuid) : Prop :=
  ∃ before y after, targets = before ++ y :: after ∧ (∀ x ∈ before, w.Assignable id x) ∧
    ¬ w.Assignable id y ∧ (w.keys.has y = false ∨ (y ≠ t ∧ t ∉ before))

section Deletion

variable {ctx : Ctx} {v : Vault} {t id : Uuid} {resolutions : List ResolutionEntry}
variable {subtree : List Uuid}

/-- Lineage below a key that does not have `t` below it. -/
theorem descends_without_key {root x : Uuid} (hout : ¬ v.Descends root t) :
    (v.without_key t).Descends root x ↔ v.Descends root x := by
  constructor
  · intro h
    refine Relation.ReflTransGen.mono ?_ _ _ h
    rintro a b ⟨k, hk, hid, hp⟩
    exact ⟨k, (mem_without_key.mp hk).1, hid, hp⟩
  · intro h
    induction h with
    | refl => exact .refl
    | @tail a b hab hstep ih =>
        obtain ⟨k, hk, hid, hp⟩ := hstep
        refine ih.tail ⟨k, mem_without_key.mpr ⟨hk, ?_⟩, hid, hp⟩
        rintro rfl
        exact hout (hid ▸ hab.tail ⟨k, hk, hid, hp⟩)

theorem World.OwnersReached.without_key (hout : ¬ v.Descends ctx.key.id t)
    (h : v.OwnersReached ctx.key id resolutions) :
    (v.without_key t).OwnersReached ctx.key id resolutions := by
  have hbelow : ¬ v.Descends id t := fun hid => hout (h.below.trans hid)
  obtain ⟨k, hk, hkid, hordinary⟩ := h.target
  refine ⟨h.manager, h.other, ⟨k, mem_without_key.mpr ⟨hk, ?_⟩, hkid, hordinary⟩, ?_, ?_,
    h.distinct, fun x => (h.named x).trans ?_⟩
  · rintro rfl
    exact hbelow (hkid ▸ Relation.ReflTransGen.refl)
  · exact (descends_without_key hout).mpr h.below
  · rw [descends_without_key hbelow]
    exact h.acyclic
  · unfold World.OwnedBelow
    simp only [descends_without_key hbelow, without_key_groups, without_key_webhooks]

end Deletion

end IpVault
