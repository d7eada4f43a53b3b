import IpVault.Keys.MasterRow

set_option autoImplicit false

/-! # Parents and owners over a run

No foreign key backs `parent_key_id` and `owner_key_id`, so that every parent and every owner
exists rests on the endpoints. It holds from the first start on: a key is created under a key that
exists and with an identifier that is new, which also keeps the parents free of cycles; and a
deletion takes whole subtrees, out of which its map has moved everything that is owned there.
-/

namespace IpVault

open Lib

namespace World

/-- An ordinary key has this identifier. -/
def Ordinary (w : World) (id : Uuid) : Prop := ∃ k ∈ w.keys, k.id = id ∧ k.is_master = false

/-- **References are sound**: every parent exists, no key is its own ancestor, and every owner is
an ordinary key. -/
structure ReferencesSound (w : World) : Prop where
  parents : ∀ k ∈ w.keys, ∀ parent, k.parent_key_id = some parent → w.keys.has parent = true
  acyclic : ∀ id, ¬ Relation.TransGen w.Parent id id
  groups : ∀ g ∈ w.groups, ∀ owner, g.owner_key_id = some owner → w.Ordinary owner
  webhooks : ∀ h ∈ w.webhooks, ∀ owner, h.owner_key_id = some owner → w.Ordinary owner

/-- **The invariant.** A parent is older than its daughter. -/
structure Rooted (w : World) : Prop where
  parents : ∀ k ∈ w.keys, ∀ parent, k.parent_key_id = some parent →
    w.keys.has parent = true ∧ parent < k.id
  groups : ∀ g ∈ w.groups, ∀ owner, g.owner_key_id = some owner → w.Ordinary owner
  webhooks : ∀ h ∈ w.webhooks, ∀ owner, h.owner_key_id = some owner → w.Ordinary owner

/-- Ancestors are older. -/
theorem Rooted.lt {w : World} (h : w.Rooted) {a b : Uuid} (hab : Relation.TransGen w.Parent a b) :
    a < b := by
  induction hab with
  | single hp =>
      obtain ⟨k, hk, rfl, hparent⟩ := hp
      exact (h.parents k hk a hparent).2
  | tail _ hp ih =>
      obtain ⟨k, hk, rfl, hparent⟩ := hp
      exact Nat.lt_trans ih (h.parents k hk _ hparent).2

theorem Rooted.sound {w : World} (h : w.Rooted) : w.ReferencesSound where
  parents k hk parent hparent := (h.parents k hk parent hparent).1
  acyclic id hcycle := absurd (h.lt hcycle) (Nat.lt_irrefl id)
  groups := h.groups
  webhooks := h.webhooks

end World

section Step

variable {m : ApiKey} {S : Service} {req : Request} {key : ApiKey} {start w : Vault} {l : Stmt}

/-- The key of the request is still there, as ordinary as it was. -/
def CallerKept (key : ApiKey) (w : World) : Prop :=
  ∃ k ∈ w.keys, k.id = key.id ∧ k.is_master = key.is_master

/-- What no statement takes away: a key, and whether it is master. -/
theorem key_kept {w : World} {k : ApiKey} (hk : k ∈ w.keys)
    (hnot : ∀ ids, l = .delete_keys ids → k.id ∉ ids) :
    ∃ k' ∈ (l.after w).keys, k'.id = k.id ∧ k'.is_master = k.is_master := by
  rcases Stmt.keys_kept (l := l) hk with hkept | ⟨ids, heq, hin⟩ | ⟨c, -, happly⟩
  · exact ⟨k, hkept, rfl, rfl⟩
  · exact absurd hin (hnot ids heq)
  · exact ⟨c.apply k, happly, rfl, rfl⟩

theorem ordinary_kept {w : World} {id : Uuid} (h : w.Ordinary id)
    (hnot : ∀ ids, l = .delete_keys ids → id ∉ ids) : (l.after w).Ordinary id := by
  obtain ⟨k, hk, rfl, hord⟩ := h
  obtain ⟨k', hk', hid, hm⟩ := key_kept hk hnot
  exact ⟨k', hk', hid, hm.trans hord⟩

/-- A request does not take away the key it is signed with. -/
theorem CallerKept.step (h : CallerKept key w.toWorld)
    (hl : Permits (S.ctx req key) req.call start l w) : CallerKept key (w.after l).toWorld := by
  obtain ⟨k, hk, hid, hm⟩ := h
  have hnot : ∀ ids, l = .delete_keys ids → k.id ∉ ids := by
    rintro ids rfl hin
    obtain ⟨id, resolutions, -, admitted, -⟩ := hl
    have hcaller : (S.ctx req key).key.id = key.id := rfl
    exact admitted.caller (hcaller ▸ hid ▸ hin)
  obtain ⟨k', hk', hid', hm'⟩ := key_kept hk hnot
  exact ⟨k', hk', hid'.trans hid, hm'.trans hm⟩

/-- The owner of what a caller creates is ordinary. -/
theorem MasterKept.resource_owner_ordinary {v : World} (hv : MasterKept m v)
    (hpin : S.pinned = m.id) (hkey : key ∈ v.keys) {w : World} (hcaller : CallerKept key w)
    {owner : Uuid} (h : resource_owner (S.ctx req key).key = some owner) : w.Ordinary owner := by
  unfold resource_owner at h
  split at h
  · cases h
  · rename_i hord
    obtain rfl : key.id = owner := Option.some.inj h
    obtain ⟨k, hk, hid, hm⟩ := hcaller
    refine ⟨k, hk, hid, hm.trans ?_⟩
    -- A row that says it is master is the pinned one, which the handlers take for the master.
    by_contra hmaster
    have hmaster : key.is_master = true := by simpa using hmaster
    have heff : (S.ctx req key).key.is_master = (key.is_master && key.id == S.pinned) := rfl
    rw [hmaster, hv.sole key hkey hmaster, hpin] at heff
    exact hord (by simpa using heff)

variable (hv : MasterKept m start.toWorld) (hpin : S.pinned = m.id) (hkey : key ∈ start.keys)
variable (hcaller : CallerKept key w.toWorld)
variable (hl : Permits (S.ctx req key) req.call start l w)

namespace World.Rooted

section Parents

include hcaller hl

/-- Parents after a statement. -/
theorem parents_after (h : w.toWorld.Rooted) : ∀ k ∈ (l.after w.toWorld).keys, ∀ parent,
    k.parent_key_id = some parent → (l.after w.toWorld).keys.has parent = true ∧ parent < k.id := by
  -- The parent of a row that is still there is still there.
  have stays : ∀ k ∈ w.keys, ∀ parent, k.parent_key_id = some parent →
      (∀ ids, l = .delete_keys ids → k.id ∉ ids) →
        (l.after w.toWorld).keys.has parent = true ∧ parent < k.id := by
    intro k hk parent hparent hkept
    obtain ⟨hhas, hlt⟩ := h.parents k hk parent hparent
    obtain ⟨p, hp, rfl⟩ := Table.has_iff.mp hhas
    have hnot : ∀ ids, l = .delete_keys ids → p.id ∉ ids := by
      rintro ids rfl hin
      obtain ⟨id, resolutions, -, admitted, settled⟩ := hl
      have hbelow : start.Descends id k.id :=
        ((admitted.lineage _).mp hin).tail ⟨k, settled.keys ▸ hk, rfl, hparent⟩
      exact hkept ids rfl ((admitted.lineage _).mpr hbelow)
    obtain ⟨p', hp', hid, -⟩ := key_kept hp hnot
    exact ⟨Table.has_iff.mpr ⟨p', hp', hid⟩, hlt⟩
  intro k hk parent hparent
  rcases Stmt.mem_keys_after hk with hold | ⟨k₀, rfl, rfl⟩ | ⟨id, c, k₀, rfl, hk₀, -, rfl⟩
  · refine stays k hold parent hparent ?_
    rintro ids rfl hin
    have hgone := (Table.mem_filter.mp hk).2
    simp [hin] at hgone
  · obtain ⟨payload, stored, rfl, -, -⟩ := hl
    obtain rfl : key.id = parent := Option.some.inj hparent
    obtain ⟨k', hk', hid, -⟩ := hcaller
    obtain ⟨k'', hk'', hid', -⟩ := key_kept (l := .insert_key _) hk' (by rintro ids ⟨⟩)
    exact ⟨Table.has_iff.mpr ⟨k'', hk'', hid'.trans hid⟩, hid ▸ w.wf.key_fresh k' hk'⟩
  · exact stays k₀ hk₀ parent hparent (by rintro ids ⟨⟩)

end Parents

include hv hpin hkey hcaller hl

/-- Owners of groups after a statement. -/
theorem groups_after (h : w.toWorld.Rooted) : ∀ g ∈ (l.after w.toWorld).groups, ∀ owner,
    g.owner_key_id = some owner → (l.after w.toWorld).Ordinary owner := by
  intro g hmem owner howner
  rcases Stmt.mem_groups_after hmem with hold | ⟨g₀, hinsert, rfl⟩ | ⟨id, o, g₀, rfl, -, -, rfl⟩
  · refine ordinary_kept (h.groups g hold owner howner) ?_
    rintro ids rfl
    obtain ⟨id, resolutions, -, admitted, settled⟩ := hl
    exact (admitted.owner_survives settled).1 g hold owner howner
  · have hown : g₀.owner_key_id = resource_owner (S.ctx req key).key := by
      rcases hinsert with rfl | rfl
      · exact hl.2
      · exact hl.2
    have hord := hv.resource_owner_ordinary hpin hkey hcaller (hown ▸ howner)
    refine ordinary_kept hord ?_
    rcases hinsert with rfl | rfl
    · rintro ids ⟨⟩
    · rintro ids ⟨⟩
  · exact ordinary_kept (hl owner howner) (by rintro ids ⟨⟩)

/-- Owners of webhooks after a statement. -/
theorem webhooks_after (h : w.toWorld.Rooted) : ∀ x ∈ (l.after w.toWorld).webhooks, ∀ owner,
    x.owner_key_id = some owner → (l.after w.toWorld).Ordinary owner := by
  intro x hmem owner howner
  rcases Stmt.mem_webhooks_after hmem with
    hold | ⟨x₀, rfl, rfl⟩ | ⟨id, c, x₀, rfl, hx₀, -, rfl⟩ | ⟨id, o, x₀, rfl, -, -, rfl⟩
  · refine ordinary_kept (h.webhooks x hold owner howner) ?_
    rintro ids rfl
    obtain ⟨id, resolutions, -, admitted, settled⟩ := hl
    exact (admitted.owner_survives settled).2 x hold owner howner
  · have hown : x₀.owner_key_id = resource_owner (S.ctx req key).key := by
      rcases hl with ⟨payload, mode, -, rfl, -⟩ | ⟨id, name, -, source, -, -, -, rfl⟩
      · rfl
      · rfl
    have hord := hv.resource_owner_ordinary hpin hkey hcaller (hown ▸ howner)
    exact ordinary_kept hord (by rintro ids ⟨⟩)
  · exact ordinary_kept (h.webhooks x₀ hx₀ owner howner) (by rintro ids ⟨⟩)
  · exact ordinary_kept (hl owner howner) (by rintro ids ⟨⟩)

/-- **Step.** What a request may issue keeps the references sound. -/
theorem step (h : w.toWorld.Rooted) : (w.after l).toWorld.Rooted where
  parents := parents_after hcaller hl h
  groups := groups_after hv hpin hkey hcaller hl h
  webhooks := webhooks_after hv hpin hkey hcaller hl h

end World.Rooted

end Step

/-- One event keeps the references sound. -/
theorem World.Rooted.event {S : Service} {m : ApiKey} {v : Vault} (h : v.toWorld.Rooted)
    (hv : MasterKept m v.toWorld) (hpin : S.pinned = m.id) (e : Service.Event) :
    (S.step e v).2.toWorld.Rooted := by
  cases e with
  | request req =>
      -- Along a request, the caller stays as well.
      have both := S.handle_keeps req v
        (I := fun w => w.toWorld.Rooted ∧ ∀ key ∈ v.keys, key.id = req.key_id →
          CallerKept key w.toWorld)
        ⟨h, fun key hkey _ => ⟨key, hkey, rfl, rfl⟩⟩ fun key hkey hid l w hl hw => by
          refine ⟨step hv hpin hkey (hw.2 key hkey hid) hl hw.1, fun key' hkey' hid' => ?_⟩
          obtain rfl : key' = key := Table.eq_of_key hkey' hkey (hid'.trans hid.symm)
          exact (hw.2 key' hkey' hid').step hl
      exact both.1
  | sweep now =>
      refine S.sweep_keeps (I := fun w => w.toWorld.Rooted) h fun threshold => ?_
      have hkept : ∀ id, v.Ordinary id → ((Stmt.purge threshold).after v.toWorld).Ordinary id :=
        fun id hid => ordinary_kept hid (by rintro ids ⟨⟩)
      have frame := (Stmt.purge threshold).frame v.toWorld
      refine ⟨?_, fun g hg owner howner => ?_, fun x hx owner howner => ?_⟩
      · rw [Vault.after_toWorld, frame.keys rfl]
        exact h.parents
      · rw [Vault.after_toWorld, frame.groups rfl] at hg
        exact hkept owner (h.groups g hg owner howner)
      · rw [Vault.after_toWorld, frame.webhooks rfl] at hx
        exact hkept owner (h.webhooks x hx owner howner)

/-- **Parents and owners over a run.** After the first start on an empty database, any requests by
any callers and any sweeps leave every parent in the table, no cycle of parents, and every owner an
ordinary key of the table. -/
theorem references_sound (S : Service) (run : List Service.Event) {env : Env} {cfg : BootConfig}
    {entropy : Entropy} {now : Int} {capacity : Nat} {v : Vault}
    (hboot : (bootstrap_master_key env cfg entropy now).run database (.empty capacity) =
      (.ok (), v)) (hpin : S.Booted v.toWorld) :
    (final S.step run v).toWorld.ReferencesSound := by
  obtain ⟨m, hm⟩ := postBootstrap_of_empty hboot hpin
  have rooted : v.toWorld.Rooted := by
    have empty : (Vault.empty capacity).keys = .empty := rfl
    have hrun := (bootstrap_master_key_meets (G := fun _ _ => True) (E := fun _ _ => True)
      (fun _ _ => trivial) (fun _ _ => trivial) empty env cfg entropy now).run
    obtain ⟨plaintext_key, stored, rfl⟩ := hrun.1 _ v hboot
    refine ⟨fun k hk parent hparent => ?_, fun g hg => absurd hg (Table.mem_empty g),
      fun x hx => absurd hx (Table.mem_empty x)⟩
    rcases Stmt.mem_keys_after hk with hold | ⟨k₀, hk₀, rfl⟩ | ⟨id, c, k₀, hk₀, -⟩
    · exact absurd hold (Table.mem_empty k)
    · cases hk₀
      cases hparent
    · cases hk₀
  have always : Along S.step (fun _ _ => True) run v := Along.of_forall run v fun _ _ _ => trivial
  have kept := always.keeps
    (I := fun w => MasterKept m w.toWorld ∧ w.toWorld.Rooted) ⟨hm.kept, rooted⟩ fun e w _ hw =>
      ⟨hw.1.event hm.master hm.parent hm.pinned e, hw.2.event hw.1 hm.pinned e⟩
  exact kept.2.sound

/-- The store the first start of the sample service leaves. -/
def Vault.first_start : Vault :=
  ((bootstrap_master_key .sample ⟨none, none, none⟩ ⟨"vault-key", "s3cret", []⟩ 0).run database
    (.empty 8)).2

theorem first_start_run :
    (bootstrap_master_key .sample ⟨none, none, none⟩ ⟨"vault-key", "s3cret", []⟩ 0).run database
      (.empty 8) = (.ok (), .first_start) := rfl

/-- The master of the first start creates a group. -/
theorem references_sound_first_group :
    (final Service.sample.step [.request (.sample 0 6 (.create_ip_group { name := "bans" }))]
      .first_start).toWorld.ReferencesSound :=
  references_sound .sample _ first_start_run rfl

end IpVault
