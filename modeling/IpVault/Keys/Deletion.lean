import IpVault.Access.Records

set_option autoImplicit false

/-! # Deleting a key

A request to delete a key that succeeds takes the key and everything below it, and carries out the
map that says what becomes of the groups and webhooks owned there. Two promises of the endpoint do
not survive every store. A webhook that watches a deleted group goes with it, whatever the map says
of the webhook, and whoever owns it. And the guard that protects the master looks at the key the
request names and not at the keys below it.
-/

namespace IpVault

open Lib

/-! ## The map -/

/-- What the map of a deletion asks for, seen on the tables before and after. -/
structure Honoured (resolutions : List ResolutionEntry) (v w : World) : Prop where
  kinds : ∀ e ∈ resolutions, ∃ entity_type : EntityType, e.entity_type = entity_type.as_str
  groups_deleted : ∀ e ∈ resolutions, e.entity_type = EntityType.group.as_str →
    e.resolution = .Delete → w.groups.has e.id = false
  webhooks_deleted : ∀ e ∈ resolutions, e.entity_type = EntityType.webhook.as_str →
    e.resolution = .Delete → w.webhooks.has e.id = false
  groups_reassigned : ∀ e ∈ resolutions, e.entity_type = EntityType.group.as_str →
    ∀ owner, e.resolution = .Reassign owner →
      ∃ g ∈ v.groups, g.id = e.id ∧ Txn.own_group (some owner) g ∈ w.groups
  webhooks_reassigned : ∀ e ∈ resolutions, e.entity_type = EntityType.webhook.as_str →
    ∀ owner, e.resolution = .Reassign owner →
      ∃ h ∈ v.webhooks, h.id = e.id ∧ Txn.own_webhook (some owner) h ∈ w.webhooks
  groups_kept : ∀ g ∈ v.groups,
    (EntityType.group.as_str, g.id) ∉ resolutions.map ResolutionEntry.key → g ∈ w.groups
  webhooks_kept : ∀ h ∈ v.webhooks,
    (EntityType.webhook.as_str, h.id) ∉ resolutions.map ResolutionEntry.key → h ∈ w.webhooks

/-- Every webhook that watches a group the map deletes is deleted by the map as well. -/
def CascadesDeleted (resolutions : List ResolutionEntry) (v : World) : Prop :=
  ∀ h ∈ v.webhooks.rows,
    resolution_of resolutions (EntityType.group.as_str, h.group_id) = some .Delete →
      resolution_of resolutions (EntityType.webhook.as_str, h.id) = some .Delete

instance (resolutions : List ResolutionEntry) (v : World) :
    Decidable (CascadesDeleted resolutions v) :=
  inferInstanceAs (Decidable (∀ _ ∈ _, _ → _))

namespace DeletionAdmitted

variable {ctx : Ctx} {id : Uuid} {resolutions : List ResolutionEntry} {v w : World}
variable {subtree : List Uuid}

/-- The groups after the map. -/
theorem mem_groups (h : DeletionAdmitted ctx id resolutions v subtree)
    (hs : Settled resolutions (v.owned_entities subtree) v w) (g' : IpGroup) :
    g' ∈ w.groups ↔ ∃ g ∈ v.groups, settle Txn.own_group
      (resolution_of resolutions (EntityType.group.as_str, g.id)) g = some g' := by
  rw [hs.groups g', true_and]
  simp only [h.fate_eq]

/-- The webhooks after the map, and after the cascade of the groups. -/
theorem mem_webhooks (h : DeletionAdmitted ctx id resolutions v subtree)
    (hs : Settled resolutions (v.owned_entities subtree) v w) (x' : WebhookConfig) :
    x' ∈ w.webhooks ↔
      resolution_of resolutions (EntityType.group.as_str, x'.group_id) ≠ some .Delete ∧
        ∃ x ∈ v.webhooks, settle Txn.own_webhook
          (resolution_of resolutions (EntityType.webhook.as_str, x.id)) x = some x' := by
  rw [hs.webhooks x']
  simp only [h.fate_eq]

/-- A map that is honoured deletes what its cascades delete. -/
theorem cascades_of_honoured (h : DeletionAdmitted ctx id resolutions v subtree)
    (hs : Settled resolutions (v.owned_entities subtree) v w) (hh : Honoured resolutions v w) :
    CascadesDeleted resolutions v := by
  -- A webhook that outlives its group in the map cannot be in the table.
  intro x hx hgroup
  have gone : ∀ x' ∈ w.webhooks, x'.group_id ≠ x.group_id := by
    intro x' hx' heq
    exact ((h.mem_webhooks hs x').mp hx').1 (heq ▸ hgroup)
  cases hr : resolution_of resolutions (EntityType.webhook.as_str, x.id) with
  | none =>
      have hnot : (EntityType.webhook.as_str, x.id) ∉ resolutions.map ResolutionEntry.key := by
        intro hmem
        obtain ⟨e, he, hkey⟩ := List.mem_map.mp hmem
        cases hr.symm.trans (hkey ▸ resolution_of_mem h.distinct he)
      exact absurd rfl (gone x (hh.webhooks_kept x hx hnot))
  | some resolution =>
      cases resolution with
      | Delete => rfl
      | Reassign owner =>
          obtain ⟨e, he, hkey, hres⟩ := mem_of_resolution hr
          obtain ⟨hty, hid⟩ := Prod.mk.inj hkey
          obtain ⟨x₀, hx₀, hid₀, hmem⟩ := hh.webhooks_reassigned e he hty owner hres
          obtain rfl : x₀ = x := Table.eq_of_key hx₀ hx (hid₀.trans hid)
          exact absurd rfl (gone (Txn.own_webhook (some owner) _) hmem)

/-- Where no cascade exceeds the map, each of its entries is honoured. -/
theorem honoured_of_cascades (h : DeletionAdmitted ctx id resolutions v subtree)
    (hs : Settled resolutions (v.owned_entities subtree) v w)
    (hc : CascadesDeleted resolutions v) : Honoured resolutions v w := by
  have listed : ∀ e ∈ resolutions, e.key ∈ (v.owned_entities subtree).map OwnedEntity.key := h.exact
  refine ⟨?_, ?_, ?_, ?_, ?_, ?_, ?_⟩
  · intro e he
    obtain ⟨entity, -, hkey⟩ := List.mem_map.mp (listed e he)
    exact ⟨entity.entity_type, (Prod.mk.inj hkey).1.symm⟩
  · intro e he hty hres
    refine Table.has_eq_false.mpr fun g' hg' hid => ?_
    obtain ⟨g, hg, hsettle⟩ := (h.mem_groups hs g').mp hg'
    have hsame := settle_key Txn.own_group_id hsettle
    have hr := resolution_of_mem h.distinct he
    have hkey : e.key = (EntityType.group.as_str, g.id) := Prod.ext hty (by rw [← hsame, hid]; rfl)
    rw [← hkey, hr, hres] at hsettle
    cases hsettle
  · intro e he hty hres
    refine Table.has_eq_false.mpr fun x' hx' hid => ?_
    obtain ⟨-, x, hx, hsettle⟩ := (h.mem_webhooks hs x').mp hx'
    have hsame := settle_key Txn.own_webhook_id hsettle
    have hr := resolution_of_mem h.distinct he
    have hkey : e.key = (EntityType.webhook.as_str, x.id) :=
      Prod.ext hty (by rw [← hsame, hid]; rfl)
    rw [← hkey, hr, hres] at hsettle
    cases hsettle
  · intro e he hty owner hres
    have hkey : e.key = (EntityType.group.as_str, e.id) := Prod.ext hty rfl
    obtain ⟨g, hg, hid, -⟩ := owned_group.mp (hkey ▸ listed e he)
    refine ⟨g, hg, hid, (h.mem_groups hs _).mpr ⟨g, hg, ?_⟩⟩
    rw [hid, ← hkey, resolution_of_mem h.distinct he, hres]
    rfl
  · intro e he hty owner hres
    have hkey : e.key = (EntityType.webhook.as_str, e.id) := Prod.ext hty rfl
    obtain ⟨x, hx, hid, -⟩ := owned_webhook.mp (hkey ▸ listed e he)
    have hr : resolution_of resolutions (EntityType.webhook.as_str, x.id) =
        some (.Reassign owner) := by
      rw [hid, ← hkey, resolution_of_mem h.distinct he, hres]
    refine ⟨x, hx, hid, (h.mem_webhooks hs _).mpr ⟨fun hgroup => ?_, x, hx, ?_⟩⟩
    · cases hr.symm.trans (hc x hx hgroup)
    · rw [hr]
      rfl
  · intro g hg hnot
    refine (h.mem_groups hs g).mpr ⟨g, hg, ?_⟩
    rw [resolution_of_not_mem hnot]
    rfl
  · intro x hx hnot
    have hr := resolution_of_not_mem hnot
    refine (h.mem_webhooks hs x).mpr ⟨fun hgroup => ?_, x, hx, ?_⟩
    · cases hr.symm.trans (hc x hx hgroup)
    · rw [hr]
      rfl

/-- **The map is honoured exactly when no cascade exceeds it.** -/
theorem honoured_iff (h : DeletionAdmitted ctx id resolutions v subtree)
    (hs : Settled resolutions (v.owned_entities subtree) v w) :
    Honoured resolutions v w ↔ CascadesDeleted resolutions v :=
  ⟨h.cascades_of_honoured hs, h.honoured_of_cascades hs⟩

end DeletionAdmitted

/-- Where a deletion that succeeds ends. -/
theorem Service.deletion_outcome {S : Service} {req : Request} {v : Vault} {id : Uuid}
    {resolutions : List ResolutionEntry} (hcall : req.call = .delete_api_key id resolutions)
    (h : S.Succeeds req v) :
    ∃ key ∈ v.keys, key.id = req.key_id ∧ ∃ subtree w,
      DeletionAdmitted (S.ctx req key) id resolutions v.toWorld subtree ∧
      Settled resolutions (v.owned_entities subtree) v.toWorld w ∧
      (S.handle req v).2.keys = w.keys.filter (fun k => !subtree.contains k.id) ∧
      (S.handle req v).2.groups = w.groups ∧ (S.handle req v).2.webhooks = w.webhooks := by
  refine Service.outcome h (Q := fun key _ v' => ∃ subtree w,
    DeletionAdmitted (S.ctx req key) id resolutions v.toWorld subtree ∧
    Settled resolutions (v.owned_entities subtree) v.toWorld w ∧
    v'.keys = w.keys.filter (fun k => !subtree.contains k.id) ∧
    v'.groups = w.groups ∧ v'.webhooks = w.webhooks) fun key _ _ => ?_
  rw [hcall]
  exact delete_api_key_obeys id resolutions

/-- **A deletion honours its map exactly when** every webhook that watches a deleted group is
itself deleted by the map. -/
theorem deletion_honoured_iff (S : Service) (req : Request) (v : Vault) {id : Uuid}
    {resolutions : List ResolutionEntry} (hcall : req.call = .delete_api_key id resolutions)
    (h : S.Succeeds req v) :
    Honoured resolutions v.toWorld (S.handle req v).2.toWorld ↔
      CascadesDeleted resolutions v.toWorld := by
  obtain ⟨key, -, -, subtree, w, admitted, settled, -, hgroups, hwebhooks⟩ :=
    Service.deletion_outcome hcall h
  have same : Honoured resolutions v.toWorld (S.handle req v).2.toWorld ↔
      Honoured resolutions v.toWorld w := by
    constructor
    · rintro ⟨h₁, h₂, h₃, h₄, h₅, h₆, h₇⟩
      rw [hgroups] at h₂ h₄ h₆
      rw [hwebhooks] at h₃ h₅ h₇
      exact ⟨h₁, h₂, h₃, h₄, h₅, h₆, h₇⟩
    · rintro ⟨h₁, h₂, h₃, h₄, h₅, h₆, h₇⟩
      rw [← hgroups] at h₂ h₄ h₆
      rw [← hwebhooks] at h₃ h₅ h₇
      exact ⟨h₁, h₂, h₃, h₄, h₅, h₆, h₇⟩
  exact same.trans (admitted.honoured_iff settled)

/-- A webhook of the sample service. -/
def WebhookConfig.sample (group_id : Uuid) (owner : Option Uuid) : WebhookConfig where
  id := 0
  name := "siem"
  target_url := "https://siem.example/in"
  secret_token := "s3cret"
  auth_mode := "CANONICAL_V1"
  api_key := none
  hmac_template := none
  signature_header := none
  signature_prefix := none
  headers_json := none
  payload_template := "\x7b\x7d"
  group_id := group_id
  is_active := true
  events := none
  owner_key_id := owner
  created_at := 0

/-- The sample store, with a group 3 of the sensor, and the master's webhook 4 on the group
`group_id`. -/
def Vault.watched (group_id : Uuid) : Vault :=
  ((Vault.sample.after (.insert_group (new_group "mine" "banlist" (some 1) 0))).after
    (.insert_webhook (.sample group_id none)))

/-- The master's webhook goes with the group of the deleted key. -/
theorem unnamed_webhook_deleted :
    ¬ ∀ (S : Service) (req : Request) (v : Vault) (id : Uuid) (resolutions : List ResolutionEntry),
      req.call = .delete_api_key id resolutions → S.Succeeds req v →
        Honoured resolutions v.toWorld (S.handle req v).2.toWorld := by
  intro h
  have honoured := h .sample (.sample 0 20 (.delete_api_key 1 [⟨"group", 3, .Delete⟩]))
    (.watched 3) 1 _ rfl (by decide)
  have kept := honoured.webhooks_kept { WebhookConfig.sample 3 none with id := 4 } (by decide)
    (by decide)
  exact absurd kept (by decide)

/-- A webhook on another group stays. -/
theorem deletion_honoured_elsewhere :
    Honoured [⟨"group", 3, .Delete⟩] (Vault.watched 2).toWorld
      (Service.sample.handle (.sample 0 20 (.delete_api_key 1 [⟨"group", 3, .Delete⟩]))
        (.watched 2)).2.toWorld :=
  (deletion_honoured_iff .sample _ (.watched 2) rfl (by decide)).mpr (by decide)

/-! ## The keys -/

/-- A deletion of `id` takes from `v` the keys reached from it and no others, neither the caller
nor a row that says it is master. -/
structure TakesSubtree (id caller : Uuid) (v w : World) : Prop where
  exact : ∀ k, k ∈ w.keys ↔ k ∈ v.keys ∧ ¬ v.Descends id k.id
  caller_kept : ∀ k ∈ v.keys, k.id = caller → k ∈ w.keys
  masters_kept : ∀ k ∈ v.keys, k.is_master = true → k ∈ w.keys

/-- **A deletion takes the subtree and spares the caller, on every table; it spares the masters
exactly when** none is reached from the key it names. -/
theorem deletion_exact_iff (S : Service) (req : Request) (v : Vault) {id : Uuid}
    {resolutions : List ResolutionEntry} (hcall : req.call = .delete_api_key id resolutions)
    (h : S.Succeeds req v) :
    TakesSubtree id req.key_id v.toWorld (S.handle req v).2.toWorld ↔
      ∀ k ∈ v.keys, v.Descends id k.id → k.is_master = false := by
  obtain ⟨key, -, hkey, subtree, w, admitted, settled, hkeys, -, -⟩ :=
    Service.deletion_outcome hcall h
  have exact : ∀ k, k ∈ (S.handle req v).2.keys ↔ k ∈ v.keys ∧ ¬ v.Descends id k.id := by
    intro k
    rw [hkeys, Table.mem_filter, settled.keys, ← admitted.lineage k.id]
    simp
  constructor
  · intro takes k hk hbelow
    cases hm : k.is_master with
    | false => rfl
    | true => exact absurd hbelow ((exact k).mp (takes.masters_kept k hk hm)).2
  · intro hnone
    refine ⟨exact, fun k hk hid => (exact k).mpr ⟨hk, fun hbelow => ?_⟩,
      fun k hk hm => (exact k).mpr ⟨hk, fun hbelow => ?_⟩⟩
    · -- The caller is not in the subtree: that is checked.
      have hin := (admitted.lineage k.id).mpr hbelow
      rw [hid, ← hkey] at hin
      exact admitted.caller hin
    · cases hm.symm.trans (hnone k hk hbelow)

/-- Key 1 manages keys and has the daughter 2. The row of the master, key 0, has been edited by
hand and names `parent` as its parent. -/
def Vault.reparented (parent : Option Uuid) : Vault :=
  .build 8
    [.insert_key { ApiKey.sample 0 with
        name := "master", key_hash := "m", is_master := true, parent_key_id := parent },
      .insert_key { ApiKey.sample 1 with can_manage_keys := true },
      .insert_key { ApiKey.sample 2 with key_hash := "d", parent_key_id := some 1 }]

/-- Key 1 deletes its daughter, and the master with it. -/
theorem master_deleted_below_target :
    ¬ ∀ (S : Service) (req : Request) (v : Vault) (id : Uuid) (resolutions : List ResolutionEntry),
      req.call = .delete_api_key id resolutions → S.Succeeds req v →
        TakesSubtree id req.key_id v.toWorld (S.handle req v).2.toWorld := by
  intro h
  have takes := h .sample (.sample 1 20 (.delete_api_key 2 [])) (.reparented (some 2)) 2 [] rfl
    (by decide)
  have kept := takes.masters_kept { ApiKey.sample 0 with
    name := "master", key_hash := "m", is_master := true, parent_key_id := some 2 } (by decide) rfl
  exact absurd kept (by decide)

/-- Where the master has no parent, it stays. -/
theorem deletion_exact_iff_unparented :
    TakesSubtree 2 1 (Vault.reparented none).toWorld
      (Service.sample.handle (.sample 1 20 (.delete_api_key 2 [])) (.reparented none)).2.toWorld := by
  refine (deletion_exact_iff .sample (.sample 1 20 (.delete_api_key 2 [])) (.reparented none) rfl
    (by decide)).mpr fun k hk hbelow => ?_
  have unparented : ∀ k ∈ (Vault.reparented none).keys.rows, k.is_master = true →
      k.id ≠ 2 ∧ k.parent_key_id = none := by decide
  by_contra hm
  obtain ⟨hid, hparent⟩ := unparented k hk (by simpa using hm)
  rcases Relation.ReflTransGen.cases_tail hbelow with hk2 | ⟨parent, -, k', hk', hid', hp⟩
  · exact hid hk2
  · obtain rfl : k' = k := Table.eq_of_key hk' hk hid'
    cases hparent.symm.trans hp

end IpVault
