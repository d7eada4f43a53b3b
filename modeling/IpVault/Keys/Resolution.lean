import IpVault.Keys.Lineage

set_option autoImplicit false

/-! # The resolution map of a deletion

Before a key is deleted, the request must say of every group and webhook owned inside its subtree
whether it is deleted or goes to another owner. This module says which maps `delete_api_key`
accepts (`DeletionAdmitted`) and what the loop that carries a map out leaves of the two tables
(`Settled`). A webhook goes with its group whatever the map says of it: that is the cascade of the
schema.
-/

namespace IpVault

open Lib

/-! ## Decisions about the rows of a table -/

/-- What a decision leaves of a row. -/
def settle {ρ : Type} (own : Option Uuid → ρ → ρ) : Option Resolution → ρ → Option ρ
  | none, r => some r
  | some .Delete, _ => none
  | some (.Reassign owner), r => some (own (some owner) r)

/-- Of the rows of `t₀`, `t` has what the decisions of `fate` leave, where `kept` holds. -/
def Settles {ρ : Type} {key : ρ → Uuid} (own : Option Uuid → ρ → ρ) (kept : ρ → Prop)
    (fate : Uuid → Option Resolution) (t₀ t : Table key) : Prop :=
  ∀ r', r' ∈ t ↔ kept r' ∧ ∃ r ∈ t₀, settle own (fate (key r)) r = some r'

section Settles

variable {ρ : Type} {key : ρ → Uuid} {own : Option Uuid → ρ → ρ} {kept : ρ → Prop}
variable {fate : Uuid → Option Resolution} {t₀ t : Table key} {id owner : Uuid}

theorem settle_key (hown : ∀ o r, key (own o r) = key r) {decision : Option Resolution} {r r' : ρ}
    (h : settle own decision r = some r') : key r' = key r := by
  match decision with
  | none =>
      obtain rfl : r = r' := Option.some.inj h
      rfl
  | some .Delete => cases h
  | some (.Reassign o) =>
      obtain rfl : own (some o) r = r' := Option.some.inj h
      exact hown _ _

/-- No decision yet. -/
theorem Settles.refl (t : Table key) : Settles own (fun _ => True) (fun _ => none) t t := by
  intro r'
  constructor
  · intro hr'
    exact ⟨trivial, r', hr', rfl⟩
  · rintro ⟨-, r, hr, hsome⟩
    obtain rfl : r = r' := Option.some.inj hsome
    exact hr

/-- A row is deleted. -/
theorem Settles.delete (hown : ∀ o r, key (own o r) = key r) (h : Settles own kept fate t₀ t) :
    Settles own kept (Function.update fate id (some .Delete)) t₀
      (t.filter fun r => decide (key r ≠ id)) := by
  intro r'
  rw [Table.mem_filter, decide_eq_true_eq, h r']
  constructor
  · rintro ⟨⟨hk, r, hr, hs⟩, hne⟩
    have hkey := settle_key hown hs
    refine ⟨hk, r, hr, ?_⟩
    rwa [Function.update_of_ne (hkey ▸ hne)]
  · rintro ⟨hk, r, hr, hs⟩
    by_cases hid : key r = id
    · subst hid
      rw [Function.update_self] at hs
      cases hs
    · have hkey := settle_key hown hs
      rw [Function.update_of_ne hid] at hs
      exact ⟨⟨hk, r, hr, hs⟩, hkey ▸ hid⟩

/-- A row goes to another owner. It may have gone there before. -/
theorem Settles.reassign (hown : ∀ o r, key (own o r) = key r)
    (hagain : ∀ o r, own o (own o r) = own o r) (hkept : ∀ o r, kept (own o r) ↔ kept r)
    (h : Settles own kept fate t₀ t) (hid : fate id = none ∨ fate id = some (.Reassign owner)) :
    Settles own kept (Function.update fate id (some (.Reassign owner))) t₀
      (t.modify id (own (some owner)) (hown _)) := by
  intro r'
  rw [Table.mem_modify (hown _)]
  constructor
  · rintro (⟨hr', hne⟩ | ⟨r₁, hr₁, rfl, rfl⟩)
    · obtain ⟨hk, r, hr, hs⟩ := (h r').mp hr'
      have hkey := settle_key hown hs
      refine ⟨hk, r, hr, ?_⟩
      rwa [Function.update_of_ne (hkey ▸ hne)]
    · obtain ⟨hk, r, hr, hs⟩ := (h r₁).mp hr₁
      have hkey := settle_key hown hs
      refine ⟨(hkept _ _).mpr hk, r, hr, ?_⟩
      rw [hkey, Function.update_self]
      show some (own (some owner) r) = some (own (some owner) r₁)
      rcases hid with hid | hid
      · rw [← hkey, hid] at hs
        obtain rfl : r = r₁ := Option.some.inj hs
        rfl
      · rw [← hkey, hid] at hs
        obtain rfl : own (some owner) r = r₁ := Option.some.inj hs
        rw [hagain]
  · rintro ⟨hk, r, hr, hs⟩
    by_cases hkey : key r = id
    · subst hkey
      rw [Function.update_self] at hs
      obtain rfl : own (some owner) r = r' := Option.some.inj hs
      -- The row may be there as it was, or under this owner already.
      rcases hid with hid | hid
      · refine .inr ⟨r, (h r).mpr ⟨(hkept _ _).mp hk, r, hr, ?_⟩, rfl, rfl⟩
        rw [hid, settle]
      · refine .inr ⟨own (some owner) r, (h _).mpr ⟨hk, r, hr, ?_⟩, hown _ _, (hagain _ _).symm⟩
        rw [hid, settle]
    · rw [Function.update_of_ne hkey] at hs
      have hsame := settle_key hown hs
      exact .inl ⟨(h r').mpr ⟨hk, r, hr, hs⟩, hsame ▸ hkey⟩

/-- Rows are lost to something else. -/
theorem Settles.lose {p : ρ → Bool} (h : Settles own kept fate t₀ t) :
    Settles own (fun r => kept r ∧ p r = true) fate t₀ (t.filter p) := by
  intro r'
  rw [Table.mem_filter, h r']
  tauto

theorem Settles.kept_iff {kept' : ρ → Prop} (h : Settles own kept fate t₀ t)
    (hiff : ∀ r, kept r ↔ kept' r) : Settles own kept' fate t₀ t := by
  intro r'
  rw [h r', hiff r']

end Settles

/-! ## Accepted maps -/

/-- What `inventory_owned_entities` finds. -/
def World.owned_entities (w : World) (subtree : List Uuid) : List OwnedEntity :=
  let owner_name : Uuid → String := fun id =>
    match w.keys.rows.find? fun k => k.id = id ∧ subtree.contains k.id with
    | some k => k.name
    | none => "<deleted>"
  owned_by owner_name .group (w.groups.rows.map fun g => (g.id, g.name, g.owner_key_id)) subtree ++
    owned_by owner_name .webhook (w.webhooks.rows.map fun h => (h.id, h.name, h.owner_key_id))
      subtree

/-- **The deletions `delete_api_key` admits**, with the subtree it takes. -/
structure DeletionAdmitted (ctx : Ctx) (id : Uuid) (resolutions : List ResolutionEntry) (w : World)
    (subtree : List Uuid) : Prop where
  manager : ctx.key.is_master = true ∨ ctx.key.can_manage_keys = true
  target : ∃ k ∈ w.keys, k.id = id ∧ k.is_master = false
  lineage : ∀ x, x ∈ subtree ↔ w.Descends id x
  caller : ctx.key.id ∉ subtree
  distinct : (resolutions.map ResolutionEntry.key).Nodup
  complete : ∀ e ∈ w.owned_entities subtree, (resolution_of resolutions e.key).isSome = true
  exact : ∀ e ∈ resolutions, e.key ∈ (w.owned_entities subtree).map OwnedEntity.key
  owners : ∀ e ∈ resolutions, ∀ owner, e.resolution = .Reassign owner →
    owner ∉ subtree ∧ ∃ k ∈ w.keys, k.id = owner ∧ k.is_master = false

/-- The entities of one kind that `owned_by` lists. -/
theorem mem_owned_by {owner_name : Uuid → String} {listed entity_type : EntityType}
    {rows : List (Uuid × String × Option Uuid)} {subtree : List Uuid} {id : Uuid} :
    (entity_type.as_str, id) ∈ (owned_by owner_name listed rows subtree).map OwnedEntity.key ↔
      entity_type.as_str = listed.as_str ∧
        ∃ row ∈ rows, row.1 = id ∧ ∃ owner ∈ subtree, row.2.2 = some owner := by
  rw [List.mem_map]
  constructor
  · rintro ⟨e, he, hkey⟩
    obtain ⟨⟨id', name, owner⟩, hrow, he⟩ := List.mem_filterMap.mp he
    cases owner with
    | none => cases he
    | some owner =>
        by_cases hin : owner ∈ subtree
        · have hin' : subtree.contains owner = true := by simpa using hin
          simp only [hin', if_true, Option.some.injEq] at he
          subst he
          obtain ⟨hty, rfl⟩ := Prod.mk.inj hkey
          exact ⟨hty.symm, _, hrow, rfl, owner, hin, rfl⟩
        · have hout : subtree.contains owner = false := by simpa using hin
          simp only [hout] at he
          cases he
  · rintro ⟨hty, ⟨id', name, owner⟩, hrow, rfl, owner', hin, rfl⟩
    have hin' : subtree.contains owner' = true := by simpa using hin
    refine ⟨⟨listed, id', name, owner', owner_name owner'⟩, ?_, by rw [hty]; rfl⟩
    refine List.mem_filterMap.mpr ⟨_, hrow, ?_⟩
    simp only [hin', if_true]

/-- The inventory lists the groups owned inside the subtree. -/
theorem owned_group {w : World} {subtree : List Uuid} {id : Uuid} :
    (EntityType.group.as_str, id) ∈ (w.owned_entities subtree).map OwnedEntity.key ↔
      ∃ g ∈ w.groups, g.id = id ∧ ∃ owner ∈ subtree, g.owner_key_id = some owner := by
  have hne : EntityType.group.as_str ≠ EntityType.webhook.as_str := by decide
  unfold World.owned_entities
  rw [List.map_append, List.mem_append, mem_owned_by, mem_owned_by]
  simp only [hne, false_and, or_false, true_and, List.mem_map]
  constructor
  · rintro ⟨_, ⟨g, hg, rfl⟩, hid, howner⟩
    exact ⟨g, hg, hid, howner⟩
  · rintro ⟨g, hg, hid, howner⟩
    exact ⟨_, ⟨g, hg, rfl⟩, hid, howner⟩

/-- The inventory lists the webhooks owned inside the subtree. -/
theorem owned_webhook {w : World} {subtree : List Uuid} {id : Uuid} :
    (EntityType.webhook.as_str, id) ∈ (w.owned_entities subtree).map OwnedEntity.key ↔
      ∃ h ∈ w.webhooks, h.id = id ∧ ∃ owner ∈ subtree, h.owner_key_id = some owner := by
  have hne : EntityType.webhook.as_str ≠ EntityType.group.as_str := by decide
  unfold World.owned_entities
  rw [List.map_append, List.mem_append, mem_owned_by, mem_owned_by]
  simp only [hne, false_and, false_or, true_and, List.mem_map]
  constructor
  · rintro ⟨_, ⟨h, hh, rfl⟩, hid, howner⟩
    exact ⟨h, hh, hid, howner⟩
  · rintro ⟨h, hh, hid, howner⟩
    exact ⟨_, ⟨h, hh, rfl⟩, hid, howner⟩

theorem duplicate_entry_eq_none {seen : List (String × Uuid)} {entries : List ResolutionEntry} :
    duplicate_entry seen entries = none ↔
      (∀ e ∈ entries, e.key ∉ seen) ∧ (entries.map ResolutionEntry.key).Nodup := by
  induction entries generalizing seen with
  | nil => simp [duplicate_entry]
  | cons e es ih =>
      unfold duplicate_entry
      by_cases hseen : e.key ∈ seen
      · simp [hseen]
      · have hfalse : ¬ seen.contains e.key = true := by simpa using hseen
        rw [if_neg hfalse, ih]
        simp only [List.mem_cons, not_or, List.map_cons, List.nodup_cons, List.mem_map,
          forall_eq_or_imp]
        constructor
        · rintro ⟨hnew, hnodup⟩
          refine ⟨⟨hseen, fun e' he' => (hnew e' he').2⟩, ?_, hnodup⟩
          rintro ⟨e', he', hkey⟩
          exact (hnew e' he').1 hkey
        · rintro ⟨⟨-, hnew⟩, hfirst, hnodup⟩
          refine ⟨fun e' he' => ⟨fun hkey => hfirst ⟨e', he', hkey⟩, hnew e' he'⟩, hnodup⟩

/-- What the map says of an entity is an entry of the map. -/
theorem mem_of_resolution {entries : List ResolutionEntry} {key : String × Uuid}
    {resolution : Resolution} (h : resolution_of entries key = some resolution) :
    ∃ e ∈ entries, e.key = key ∧ e.resolution = resolution := by
  unfold resolution_of at h
  obtain ⟨e, he, rfl⟩ := Option.map_eq_some_iff.mp h
  exact ⟨e, List.mem_of_find?_eq_some he, by simpa using List.find?_some he, rfl⟩

/-- An entry is what the map says, if no entity is named twice. -/
theorem resolution_of_mem {entries : List ResolutionEntry} {e : ResolutionEntry}
    (hd : (entries.map ResolutionEntry.key).Nodup) (he : e ∈ entries) :
    resolution_of entries e.key = some e.resolution := by
  unfold resolution_of
  cases hf : entries.find? fun e' => decide (e'.key = e.key) with
  | none =>
      have hne := List.find?_eq_none.mp hf e he
      simp at hne
  | some e' =>
      have hkey : e'.key = e.key := by simpa using List.find?_some hf
      rw [List.inj_on_of_nodup_map hd (List.mem_of_find?_eq_some hf) he hkey]
      rfl

theorem resolution_of_not_mem {entries : List ResolutionEntry} {key : String × Uuid}
    (h : key ∉ entries.map ResolutionEntry.key) : resolution_of entries key = none := by
  cases hr : resolution_of entries key with
  | none => rfl
  | some resolution =>
      obtain ⟨e, he, hkey, -⟩ := mem_of_resolution hr
      exact absurd (List.mem_map.mpr ⟨e, he, hkey⟩) h

/-- **The checks on a map that need no query.** -/
theorem validate_resolutions_ok {target_ref : String} {subtree : List Uuid}
    {inventory : List OwnedEntity} {entries : List ResolutionEntry}
    (h : validate_resolutions target_ref subtree inventory entries = .ok ()) :
    (entries.map ResolutionEntry.key).Nodup ∧
      (∀ e ∈ inventory, (resolution_of entries e.key).isSome = true) ∧
      ∀ e ∈ entries, e.key ∈ inventory.map OwnedEntity.key := by
  obtain ⟨_, -, h⟩ := except_bind_ok.mp h
  obtain ⟨_, hdup, h⟩ := except_bind_ok.mp h
  obtain ⟨_, hmissing, hextra⟩ := except_bind_ok.mp h
  refine ⟨?_, ?_, ?_⟩
  · unfold check_no_duplicate at hdup
    split at hdup
    · cases hdup
    · rename_i hnone
      exact (duplicate_entry_eq_none.mp hnone).2
  · intro e he
    unfold check_complete at hmissing
    simp only at hmissing
    split at hmissing
    · cases hmissing
    · rename_i hnone
      have hnone : inventory.filter (fun e => (resolution_of entries e.key).isNone) = [] := by
        simpa using hnone
      have hsome := List.filter_eq_nil_iff.mp hnone e he
      simpa [Option.isSome_iff_ne_none] using hsome
  · intro e he
    unfold check_no_extra at hextra
    split at hextra
    · cases hextra
    · rename_i hnone
      simpa using List.find?_eq_none.mp hnone e he

/-! ## Carrying a map out -/

/-- What the map says of an entity, once the loop has come to it. -/
def fate (entries : List ResolutionEntry) (done : List OwnedEntity) (entity_type : EntityType)
    (id : Uuid) : Option Resolution :=
  if (entity_type.as_str, id) ∈ done.map OwnedEntity.key then
    resolution_of entries (entity_type.as_str, id)
  else none

/-- **The invariant of the loop.** A webhook is lost with its group. -/
structure Settled (entries : List ResolutionEntry) (done : List OwnedEntity) (v w : World) :
    Prop where
  keys : w.keys = v.keys
  groups : Settles Txn.own_group (fun _ => True) (fate entries done .group) v.groups w.groups
  webhooks : Settles Txn.own_webhook (fun h => fate entries done .group h.group_id ≠ some .Delete)
    (fate entries done .webhook) v.webhooks w.webhooks

section Loop

variable {entries : List ResolutionEntry} {done : List OwnedEntity} {e : OwnedEntity}
variable {resolution : Resolution} {v w : World}

theorem EntityType.as_str_inj {a b : EntityType} (h : a.as_str = b.as_str) : a = b := by
  cases a <;> cases b <;> first | rfl | exact absurd h (by decide)

/-- Coming to an entity. -/
theorem fate_append (hr : resolution_of entries e.key = some resolution) :
    fate entries (done ++ [e]) e.entity_type =
      Function.update (fate entries done e.entity_type) e.id (some resolution) := by
  funext id
  by_cases hid : id = e.id
  · subst hid
    rw [Function.update_self, fate, if_pos (by simp [OwnedEntity.key])]
    exact hr
  · rw [Function.update_of_ne hid]
    unfold fate
    simp [OwnedEntity.key, hid]

/-- The other kind of entity is not concerned. -/
theorem fate_append_of_ne {entity_type : EntityType} (hne : entity_type ≠ e.entity_type) :
    fate entries (done ++ [e]) entity_type = fate entries done entity_type := by
  have hstr : entity_type.as_str ≠ e.entity_type.as_str := fun h => hne (EntityType.as_str_inj h)
  funext id
  unfold fate
  simp [OwnedEntity.key, hstr]

/-- What the loop has said of an entity is what the map says. -/
theorem fate_cases {entity_type : EntityType} {id : Uuid}
    (hr : resolution_of entries (entity_type.as_str, id) = some resolution) :
    fate entries done entity_type id = none ∨ fate entries done entity_type id = some resolution := by
  unfold fate
  split
  · exact .inr hr
  · exact .inl rfl

theorem Settled.refl (v : World) : Settled entries [] v v where
  keys := rfl
  groups := .refl _
  webhooks := (Settles.refl v.webhooks).kept_iff fun h => by simp [fate]

/-- **One round.** -/
theorem Settled.step (h : Settled entries done v w)
    (hr : resolution_of entries e.key = some resolution) :
    Settled entries (done ++ [e]) v ((resolution_stmt e resolution).after w) := by
  have hhead : fate entries (done ++ [e]) e.entity_type =
      Function.update (fate entries done e.entity_type) e.id (some resolution) := fate_append hr
  obtain ⟨entity_type, id, name, owner_key_id, owner_name⟩ := e
  cases entity_type with
  | group =>
      -- The webhooks are decided as before; what may change is whether their group is deleted.
      have hother : fate entries (done ++ [_]) .webhook = fate entries done .webhook :=
        fate_append_of_ne (e := ⟨.group, id, name, owner_key_id, owner_name⟩) (by simp)
      have hcases : fate entries done .group id = none ∨
          fate entries done .group id = some resolution := fate_cases hr
      simp only at hhead
      cases resolution with
      | Delete =>
          refine ⟨h.keys, ?_, ?_⟩
          · rw [hhead]
            exact h.groups.delete Txn.own_group_id
          · rw [hhead, hother]
            refine h.webhooks.lose.kept_iff fun x => ?_
            by_cases hx : x.group_id = id
            · simp [hx]
            · simp [hx]
      | Reassign owner =>
          refine ⟨h.keys, ?_, ?_⟩
          · rw [hhead]
            exact h.groups.reassign Txn.own_group_id (fun _ _ => rfl) (fun _ _ => Iff.rfl) hcases
          · rw [hhead, hother]
            refine h.webhooks.kept_iff fun x => ?_
            by_cases hx : x.group_id = id
            · rw [hx, Function.update_self]
              rcases hcases with hc | hc
              · simp [hc]
              · simp [hc]
            · rw [Function.update_of_ne hx]
  | webhook =>
      have hother : fate entries (done ++ [_]) .group = fate entries done .group :=
        fate_append_of_ne (e := ⟨.webhook, id, name, owner_key_id, owner_name⟩) (by simp)
      have hcases : fate entries done .webhook id = none ∨
          fate entries done .webhook id = some resolution := fate_cases hr
      simp only at hhead
      cases resolution with
      | Delete =>
          refine ⟨h.keys, ?_, ?_⟩
          · rw [hother]
            exact h.groups
          · rw [hhead, hother]
            exact h.webhooks.delete Txn.own_webhook_id
      | Reassign owner =>
          refine ⟨h.keys, ?_, ?_⟩
          · rw [hother]
            exact h.groups
          · rw [hhead, hother]
            exact h.webhooks.reassign Txn.own_webhook_id (fun _ _ => rfl) (fun _ _ => Iff.rfl) hcases

end Loop

/-! ## The reads of a deletion -/

section Reads

variable {G : Stmt → Vault → Prop} {v : Vault}

theorem inventory_owned_entities_meets {E : AppError → Vault → Prop} (hG : ∀ q, G (.query q) v)
    (subtree : List Uuid) :
    Prog.Meets database G (fun es w => v = w ∧ es = v.owned_entities subtree) E
      (inventory_owned_entities subtree) v := by
  unfold inventory_owned_entities
  rw [Prog.meets_bind, meets_select]
  refine ⟨hG _, ?_⟩
  rw [Prog.meets_bind, meets_select]
  refine ⟨hG _, ?_⟩
  rw [Prog.meets_bind, meets_select]
  exact ⟨hG _, rfl, rfl⟩

/-- A new owner is nobody, or an ordinary key. -/
theorem resolve_owner_assignment_meets (hG : ∀ q, G (.query q) v) (requested : Option Uuid) :
    Prog.Meets database G (fun owner w => v = w ∧ owner = requested ∧
        ∀ id, requested = some id → ∃ k ∈ v.keys, k.id = id ∧ k.is_master = false)
      (fun _ w => v = w) (resolve_owner_assignment requested) v := by
  cases requested with
  | none => exact ⟨rfl, rfl, fun _ h => by cases h⟩
  | some id =>
      unfold resolve_owner_assignment
      rw [Prog.meets_bind, meets_select]
      refine ⟨hG _, ?_⟩
      rw [Prog.meets_bind, Prog.meets_okOr]
      refine ⟨fun k hk => ?_, fun _ => rfl⟩
      rw [Prog.meets_bind, Prog.meets_require]
      refine ⟨fun hord => ⟨rfl, rfl, fun id' h => ?_⟩, fun _ => rfl⟩
      obtain rfl : id = id' := Option.some.inj h
      have hk : v.keys.find? id = some k := hk
      obtain ⟨hmem, hid⟩ := Table.find?_eq_some.mp hk
      exact ⟨k, hmem, hid, hord⟩

/-- Every new owner the map names survives the deletion. -/
theorem validate_targets_meets (hG : ∀ q, G (.query q) v) (doomed : List Uuid)
    (entries : List ResolutionEntry) :
    Prog.Meets database G (fun _ w => v = w ∧ ∀ e ∈ entries, ∀ owner,
        e.resolution = .Reassign owner →
          owner ∉ doomed ∧ ∃ k ∈ v.keys, k.id = owner ∧ k.is_master = false)
      (fun _ w => v = w) (validate_targets doomed entries) v := by
  induction entries with
  | nil => exact ⟨rfl, fun _ he => absurd he List.not_mem_nil⟩
  | cons e es ih =>
      unfold validate_targets
      cases hres : e.resolution with
      | Delete =>
          refine ih.imp ?_
          rintro - w ⟨rfl, hes⟩
          refine ⟨rfl, fun e' he' owner howner => ?_⟩
          rcases List.mem_cons.mp he' with rfl | he'
          · cases hres.symm.trans howner
          · exact hes e' he' owner howner
      | Reassign owner =>
          simp only
          rw [Prog.meets_bind]
          refine (resolve_owner_assignment_meets hG _).imp ?_
          rintro - _ ⟨rfl, -, hkey⟩
          rw [Prog.meets_bind, Prog.meets_require]
          refine ⟨fun hout => ?_, fun _ => rfl⟩
          refine ih.imp ?_
          rintro - w ⟨rfl, hes⟩
          refine ⟨rfl, fun e' he' owner' howner => ?_⟩
          rcases List.mem_cons.mp he' with rfl | he'
          · obtain rfl : owner = owner' := Resolution.Reassign.inj (hres.symm.trans howner)
            exact ⟨by simpa using hout, hkey owner rfl⟩
          · exact hes e' he' owner' howner

end Reads

/-! ## What an accepted map leaves -/

namespace DeletionAdmitted

variable {ctx : Ctx} {id : Uuid} {resolutions : List ResolutionEntry} {v w : World}
variable {subtree : List Uuid}

/-- The loop comes to every entity the map names. -/
theorem fate_eq (h : DeletionAdmitted ctx id resolutions v subtree) (entity_type : EntityType)
    (x : Uuid) : fate resolutions (v.owned_entities subtree) entity_type x =
      resolution_of resolutions (entity_type.as_str, x) := by
  unfold fate
  split
  · rfl
  · rename_i hnot
    cases hr : resolution_of resolutions (entity_type.as_str, x) with
    | none => rfl
    | some resolution =>
        obtain ⟨e, he, hkey, -⟩ := mem_of_resolution hr
        exact absurd (hkey ▸ h.exact e he) hnot

/-- An entity owned inside the subtree is named. -/
theorem named (h : DeletionAdmitted ctx id resolutions v subtree) {key : String × Uuid}
    (hkey : key ∈ (v.owned_entities subtree).map OwnedEntity.key) :
    ∃ resolution, resolution_of resolutions key = some resolution := by
  obtain ⟨e, he, rfl⟩ := List.mem_map.mp hkey
  exact Option.isSome_iff_exists.mp (h.complete e he)

/-- **No owner is left inside the subtree**: what it owned is deleted or has another owner. -/
theorem owner_survives (h : DeletionAdmitted ctx id resolutions v subtree)
    (hs : Settled resolutions (v.owned_entities subtree) v w) :
    (∀ g ∈ w.groups, ∀ owner, g.owner_key_id = some owner → owner ∉ subtree) ∧
      ∀ x ∈ w.webhooks, ∀ owner, x.owner_key_id = some owner → owner ∉ subtree := by
  constructor
  · intro g' hg' owner howner hin
    obtain ⟨-, g, hg, hsettle⟩ := (hs.groups g').mp hg'
    rw [h.fate_eq] at hsettle
    cases hr : resolution_of resolutions (EntityType.group.as_str, g.id) with
    | none =>
        rw [hr] at hsettle
        obtain rfl : g = g' := Option.some.inj hsettle
        obtain ⟨resolution, hnamed⟩ := h.named (owned_group.mpr ⟨g, hg, rfl, owner, hin, howner⟩)
        cases hr.symm.trans hnamed
    | some resolution =>
        rw [hr] at hsettle
        cases resolution with
        | Delete => cases hsettle
        | Reassign owner' =>
            obtain rfl : Txn.own_group (some owner') g = g' := Option.some.inj hsettle
            obtain ⟨e, he, -, hres⟩ := mem_of_resolution hr
            obtain rfl : owner' = owner := Option.some.inj howner
            exact (h.owners e he _ hres).1 hin
  · intro x' hx' owner howner hin
    obtain ⟨-, x, hx, hsettle⟩ := (hs.webhooks x').mp hx'
    rw [h.fate_eq] at hsettle
    cases hr : resolution_of resolutions (EntityType.webhook.as_str, x.id) with
    | none =>
        rw [hr] at hsettle
        obtain rfl : x = x' := Option.some.inj hsettle
        obtain ⟨resolution, hnamed⟩ := h.named (owned_webhook.mpr ⟨x, hx, rfl, owner, hin, howner⟩)
        cases hr.symm.trans hnamed
    | some resolution =>
        rw [hr] at hsettle
        cases resolution with
        | Delete => cases hsettle
        | Reassign owner' =>
            obtain rfl : Txn.own_webhook (some owner') x = x' := Option.some.inj hsettle
            obtain ⟨e, he, -, hres⟩ := mem_of_resolution hr
            obtain rfl : owner' = owner := Option.some.inj howner
            exact (h.owners e he _ hres).1 hin

end DeletionAdmitted

end IpVault
