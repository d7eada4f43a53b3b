import IpVault.Access.Records
import IpVault.Auth.Bootstrap

set_option autoImplicit false

/-! # The master over a run

The first start leaves one row with `is_master`, and the process pins it. From there on no request
adds another, takes it away, gives it a permission row or makes it an owner; and all that ever
changes in its row are its networks, when the master itself says so.

Each endpoint protects the master by means of its own. What they have in common is said by
`Permits`, so the invariant is checked once for each statement and not for each handler.
-/

namespace IpVault

open Lib

/-- **The invariant.** The store has the row `m` of the master up to `bound_ips` and `updated_at`;
no other row is master, and the master neither holds permissions nor owns anything. -/
structure MasterKept (m : ApiKey) (w : World) : Prop where
  row : ∃ bound_ips updated_at, { m with bound_ips := bound_ips, updated_at := updated_at } ∈ w.keys
  sole : ∀ k ∈ w.keys, k.is_master = true → k.id = m.id
  permissions : ∀ p ∈ w.permissions, p.api_key_id ≠ m.id
  groups : ∀ g ∈ w.groups, g.owner_key_id ≠ some m.id
  webhooks : ∀ h ∈ w.webhooks, h.owner_key_id ≠ some m.id

namespace MasterKept

variable {m : ApiKey} {S : Service} {req : Request} {key : ApiKey} {start w : Vault} {l : Stmt}

/-- The row with the identifier of the master says that it is master. -/
theorem is_master {w : World} (h : MasterKept m w) (hm : m.is_master = true) {k : ApiKey}
    (hk : k ∈ w.keys) (hid : k.id = m.id) : k.is_master = true := by
  obtain ⟨bound_ips, updated_at, hrow⟩ := h.row
  have heq := Table.eq_of_key hk hrow hid
  rw [heq]
  exact hm

/-- An ordinary row is not the master's. -/
theorem ne_of_ordinary {w : World} (h : MasterKept m w) (hm : m.is_master = true) {k : ApiKey}
    (hk : k ∈ w.keys) (hord : k.is_master = false) : k.id ≠ m.id := by
  intro hid
  cases hord.symm.trans (h.is_master hm hk hid)

/-- A caller that the handlers do not take for the master is not the master. -/
theorem caller_ne {v : World} (h : MasterKept m v) (hm : m.is_master = true)
    (hpin : S.pinned = m.id) (hkey : key ∈ v.keys) (hord : (S.ctx req key).key.is_master = false) :
    key.id ≠ m.id := by
  intro hid
  have hrow := h.is_master hm hkey hid
  have heff : (S.ctx req key).key.is_master = (key.is_master && key.id == S.pinned) := rfl
  rw [hrow, hid, hpin] at heff
  simp [hord] at heff

/-- The owner of what a caller creates is not the master. -/
theorem resource_owner_ne {v : World} (h : MasterKept m v) (hm : m.is_master = true)
    (hpin : S.pinned = m.id) (hkey : key ∈ v.keys) :
    resource_owner (S.ctx req key).key ≠ some m.id := by
  unfold resource_owner
  split
  · exact (Option.some_ne_none _).symm
  · rename_i hord
    intro howner
    exact h.caller_ne hm hpin hkey (by simpa using hord) (Option.some.inj howner)

/-- A new owner is not the master. -/
theorem set_owner_ne (h : MasterKept m w.toWorld) (hm : m.is_master = true) {owner : Option Uuid}
    (howner : Permits.set_owner owner w) : owner ≠ some m.id := by
  intro heq
  obtain ⟨k, hk, hid, hord⟩ := howner m.id heq
  exact h.ne_of_ordinary hm hk hord hid

/-- The master is below no other key. -/
theorem not_below {v : World} (h : MasterKept m v) (hp : m.parent_key_id = none) {id : Uuid}
    (hne : id ≠ m.id) : ¬ v.Descends id m.id := by
  intro hbelow
  rcases Relation.ReflTransGen.cases_tail hbelow with heq | ⟨parent, -, k, hk, hid, hparent⟩
  · exact hne heq.symm
  · obtain ⟨bound_ips, updated_at, hrow⟩ := h.row
    have hkrow := Table.eq_of_key hk hrow hid
    rw [hkrow] at hparent
    cases hp.symm.trans hparent

section Step

variable (hv : MasterKept m start.toWorld) (hm : m.is_master = true) (hp : m.parent_key_id = none)
variable (hpin : S.pinned = m.id) (hkey : key ∈ start.keys)
variable (hl : Permits (S.ctx req key) req.call start l w)

section Deletion

include hv hm hp hl

/-- No deletion takes the master. -/
theorem not_deleted {ids : List Uuid} (heq : l = .delete_keys ids) : m.id ∉ ids := by
  subst heq
  obtain ⟨id, resolutions, -, admitted, -⟩ := hl
  obtain ⟨k, hk, rfl, hord⟩ := admitted.target
  intro hin
  exact hv.not_below hp (hv.ne_of_ordinary hm hk hord) ((admitted.lineage _).mp hin)

end Deletion

section Update

include hm hl

/-- The only update of the master's row changes its networks, and is its own. -/
theorem update_of_master (h : MasterKept m w.toWorld) {c : Txn.KeyChange}
    (heq : l = .update_key m.id c) :
    key.id = m.id ∧ ∀ k : ApiKey,
      c.apply k = { k with bound_ips := c.bound_ips.or k.bound_ips, updated_at := c.updated_at } := by
  subst heq
  obtain ⟨target, htarget, hid, -, hchange⟩ := hl
  have hmaster := h.is_master hm htarget hid
  rcases hchange with ⟨payload, rfl, hedit, -, -⟩ | ⟨hord, -⟩
  · unfold guard_master_update at hedit
    simp only [hmaster, Bool.not_true, Bool.false_eq_true, if_false] at hedit
    split at hedit
    · cases guard_master_immutable_ok hedit ▸ hmaster
    · rename_i hother
      split at hedit
      · cases hedit
      · rename_i hself
        have hsame : key.id = target.id := not_not.mp hself
        simp only [Bool.or_eq_true, not_or, Bool.not_eq_true, Option.isSome_eq_false_iff,
          Option.isNone_iff_eq_none] at hother
        obtain ⟨⟨⟨hname, hkeys⟩, hwebhooks⟩, hgroups⟩ := hother
        refine ⟨hsame.trans hid, fun k => ?_⟩
        simp [Txn.KeyChange.apply, UpdateApiKeyPayload.change, hname, hkeys, hwebhooks, hgroups]
  · cases hord.symm.trans hmaster

end Update

include hv hm hpin hkey hl

/-- Permission rows go to ordinary keys. -/
theorem permissions_after (h : MasterKept m w.toWorld) :
    ∀ p ∈ (l.after w.toWorld).permissions, p.api_key_id ≠ m.id := by
  -- The row of a creator belongs to the caller, which is not the master.
  have creator : ∀ p, Permits.creator_row (S.ctx req key) start p → p.api_key_id ≠ m.id := by
    rintro p ⟨hord, hrow, -⟩
    have hne : key.id ≠ m.id := hv.caller_ne hm hpin hkey hord
    rw [hrow]
    exact hne
  intro p hmem
  rcases Stmt.mem_permissions_after hmem with hold | rfl | rfl | ⟨q, rfl, hnew⟩
  · exact h.permissions p hold
  · exact creator p hl
  · exact creator p hl
  · rcases hnew with rfl | ⟨p₀, hp₀, -, rfl⟩
    · obtain ⟨-, ⟨k, hk, hid, hord⟩, -⟩ := hl
      exact hid ▸ h.ne_of_ordinary hm hk hord
    · exact h.permissions p₀ hp₀

/-- No group comes to the master. -/
theorem groups_after (h : MasterKept m w.toWorld) :
    ∀ g ∈ (l.after w.toWorld).groups, g.owner_key_id ≠ some m.id := by
  intro g hmem
  rcases Stmt.mem_groups_after hmem with hold | ⟨g₀, rfl | rfl, rfl⟩ | ⟨id, owner, g₀, rfl, -, -, rfl⟩
  · exact h.groups g hold
  · have howner : g₀.owner_key_id = resource_owner (S.ctx req key).key := hl.2
    show g₀.owner_key_id ≠ some m.id
    rw [howner]
    exact hv.resource_owner_ne hm hpin hkey
  · have howner : g₀.owner_key_id = resource_owner (S.ctx req key).key := hl.2
    show g₀.owner_key_id ≠ some m.id
    rw [howner]
    exact hv.resource_owner_ne hm hpin hkey
  · exact h.set_owner_ne hm hl

/-- No webhook comes to the master. -/
theorem webhooks_after (h : MasterKept m w.toWorld) :
    ∀ x ∈ (l.after w.toWorld).webhooks, x.owner_key_id ≠ some m.id := by
  intro x hmem
  rcases Stmt.mem_webhooks_after hmem with
    hold | ⟨x₀, rfl, rfl⟩ | ⟨id, c, x₀, rfl, hx₀, -, rfl⟩ | ⟨id, owner, x₀, rfl, -, -, rfl⟩
  · exact h.webhooks x hold
  · rcases hl with ⟨payload, mode, -, rfl, -⟩ | ⟨id, name, -, source, -, -, -, rfl⟩
    · exact hv.resource_owner_ne hm hpin hkey
    · exact hv.resource_owner_ne hm hpin hkey
  · exact h.webhooks x₀ hx₀
  · exact h.set_owner_ne hm hl

include hp

/-- **Step.** What a request may issue keeps the invariant. -/
theorem step (h : MasterKept m w.toWorld) : MasterKept m (w.after l).toWorld where
  row := by
    obtain ⟨bound_ips, updated_at, hrow⟩ := h.row
    rcases Stmt.keys_kept (l := l) hrow with hk | ⟨ids, rfl, hin⟩ | ⟨c, rfl, hk⟩
    · exact ⟨bound_ips, updated_at, hk⟩
    · exact absurd hin (not_deleted hv hm hp hl rfl)
    · rw [(update_of_master hm hl h rfl).2] at hk
      exact ⟨_, _, hk⟩
  sole := by
    intro k hk hkm
    rcases Stmt.mem_keys_after hk with hold | ⟨k₀, rfl, rfl⟩ | ⟨id, c, k₀, rfl, hk₀, -, rfl⟩
    · exact h.sole k hold hkm
    · obtain ⟨payload, stored, rfl, -, -⟩ := hl
      cases hkm
    · exact h.sole k₀ hk₀ hkm
  permissions := permissions_after hv hm hpin hkey hl h
  groups := groups_after hv hm hpin hkey hl h
  webhooks := webhooks_after hv hm hpin hkey hl h

omit hkey hpin in
/-- A request of another key leaves the row of the master as it is. -/
theorem row_kept (h : MasterKept m w.toWorld) (hother : key.id ≠ m.id) {k : ApiKey}
    (hk : k ∈ w.keys) (hid : k.id = m.id) : k ∈ (w.after l).keys := by
  rcases Stmt.keys_kept (l := l) hk with hkept | ⟨ids, rfl, hin⟩ | ⟨c, rfl, -⟩
  · exact hkept
  · exact absurd (hid ▸ hin) (not_deleted hv hm hp hl rfl)
  · exact absurd (update_of_master hm hl h (by rw [hid])).1 hother

end Step

end MasterKept

/-! ## Runs -/

/-- **A store the first start leaves, or a later one**: the pinned master `m` is the only row that
says it is master, it is nobody's daughter, and it neither holds permissions nor owns anything. -/
structure PostBootstrap (S : Service) (m : ApiKey) (v : World) : Prop where
  booted : S.Booted v
  row : m ∈ v.keys
  master : m.is_master = true
  parent : m.parent_key_id = none
  permissions : ∀ p ∈ v.permissions, p.api_key_id ≠ m.id
  groups : ∀ g ∈ v.groups, g.owner_key_id ≠ some m.id
  webhooks : ∀ h ∈ v.webhooks, h.owner_key_id ≠ some m.id

namespace PostBootstrap

variable {S : Service} {m : ApiKey}

theorem pinned {v : World} (h : PostBootstrap S m v) : S.pinned = m.id := by
  obtain ⟨m', -, -, hid, sole⟩ := Service.booted_iff.mp h.booted
  rw [← hid, sole m h.row h.master]

/-- The invariant holds at the start. -/
theorem kept {v : World} (h : PostBootstrap S m v) : MasterKept m v where
  row := ⟨m.bound_ips, m.updated_at, h.row⟩
  sole k hk hkm := by
    obtain ⟨m', -, -, -, sole⟩ := Service.booted_iff.mp h.booted
    rw [sole k hk hkm, sole m h.row h.master]
  permissions := h.permissions
  groups := h.groups
  webhooks := h.webhooks

end PostBootstrap

/-- The first start on an empty database leaves such a store. -/
theorem postBootstrap_of_empty {env : Env} {cfg : BootConfig} {entropy : Entropy} {now : Int}
    {capacity : Nat} {S : Service} {v : Vault}
    (hboot : (bootstrap_master_key env cfg entropy now).run database (.empty capacity) =
      (.ok (), v)) (hpin : S.Booted v.toWorld) : ∃ m, PostBootstrap S m v.toWorld := by
  have empty : (Vault.empty capacity).keys = .empty := rfl
  have hrun := (bootstrap_master_key_meets (G := fun _ _ => True) (E := fun _ _ => True)
    (fun _ _ => trivial) (fun _ _ => trivial) empty env cfg entropy now).run
  obtain ⟨plaintext_key, stored, rfl⟩ := hrun.1 _ v hboot
  obtain ⟨m, hm, hmaster, -, -⟩ := Service.booted_iff.mp hpin
  refine ⟨m, hpin, hm, hmaster, ?_, ?_, ?_, ?_⟩
  · rcases Stmt.mem_keys_after hm with hold | ⟨k, hk, rfl⟩ | ⟨id, c, k₀, hk, -⟩
    · exact absurd hold (Table.mem_empty m)
    · cases hk
      rfl
    · cases hk
  · intro p hp
    exact absurd hp (Table.mem_empty p)
  · intro g hg
    exact absurd hg (Table.mem_empty g)
  · intro h hh
    exact absurd hh (Table.mem_empty h)

namespace MasterKept

variable {S : Service} {m : ApiKey} {v : Vault}

/-- One event keeps the invariant. -/
theorem event (h : MasterKept m v.toWorld) (hm : m.is_master = true) (hp : m.parent_key_id = none)
    (hpin : S.pinned = m.id) (e : Service.Event) : MasterKept m (S.step e v).2.toWorld := by
  cases e with
  | request req =>
      refine S.handle_keeps req v (I := fun w => MasterKept m w.toWorld) h
        fun key hkey _ l w hl hw => ?_
      exact step h hm hp hpin hkey hl hw
  | sweep now =>
      refine S.sweep_keeps (I := fun w => MasterKept m w.toWorld) h fun threshold => ?_
      -- A purge is a write of records, and leaves all this alone.
      have frame := (Stmt.purge threshold).frame v.toWorld
      obtain ⟨hrow, hsole, hperm, hgroups, hwebhooks⟩ := h
      rw [← frame.keys rfl] at hrow hsole
      rw [← frame.permissions rfl] at hperm
      rw [← frame.groups rfl] at hgroups
      rw [← frame.webhooks rfl] at hwebhooks
      exact ⟨hrow, hsole, hperm, hgroups, hwebhooks⟩

/-- An event that is no request of the master leaves its row as it is. -/
theorem event_of_other (h : MasterKept m v.toWorld) (hm : m.is_master = true)
    (hp : m.parent_key_id = none) (hpin : S.pinned = m.id) {e : Service.Event}
    (hother : ∀ req, e = .request req → req.key_id ≠ m.id) {k : ApiKey} (hk : k ∈ v.keys)
    (hid : k.id = m.id) : k ∈ (S.step e v).2.keys := by
  cases e with
  | request req =>
      have both := S.handle_keeps req v (I := fun w => MasterKept m w.toWorld ∧ k ∈ w.keys) ⟨h, hk⟩
        fun key hkey hreq l w hl hw => by
          have hne : key.id ≠ m.id := hreq ▸ hother req rfl
          exact ⟨step h hm hp hpin hkey hl hw.1, row_kept h hm hp hl hw.1 hne hw.2 hid⟩
      exact both.2
  | sweep now =>
      refine S.sweep_keeps (I := fun w => k ∈ w.keys) hk fun threshold => ?_
      show k ∈ ((Stmt.purge threshold).after v.toWorld).keys
      rw [((Stmt.purge threshold).frame v.toWorld).keys rfl]
      exact hk

end MasterKept

/-- **The master over a run.** From a store the first start has left, after any requests by any
callers and any sweeps: there is exactly one row with `is_master`; it is the row of the start up to
`bound_ips` and `updated_at`, holds no permission row and owns nothing; and what happens next leaves
it as it is, unless it is a request of the master itself. -/
theorem master_kept (S : Service) (run : List Service.Event) {v : Vault} {m : ApiKey}
    (h : PostBootstrap S m v.toWorld) :
    (∃! k, k ∈ (final S.step run v).keys ∧ k.is_master = true) ∧
      MasterKept m (final S.step run v).toWorld ∧
      ∀ e : Service.Event, (∀ req, e = .request req → req.key_id ≠ m.id) →
        ∀ k ∈ (final S.step run v).keys, k.is_master = true →
          k ∈ (S.step e (final S.step run v)).2.keys := by
  have always : Along S.step (fun _ _ => True) run v := Along.of_forall run v fun _ _ _ => trivial
  have kept : MasterKept m (final S.step run v).toWorld :=
    always.keeps (I := fun w => MasterKept m w.toWorld) h.kept fun e w _ hw =>
      hw.event h.master h.parent h.pinned e
  refine ⟨?_, kept, fun e hother k hk hkm => ?_⟩
  · obtain ⟨bound_ips, updated_at, hrow⟩ := kept.row
    refine ⟨_, ⟨hrow, h.master⟩, ?_⟩
    rintro k ⟨hk, hkm⟩
    exact Table.eq_of_key hk hrow (kept.sole k hk hkm)
  · exact kept.event_of_other h.master h.parent h.pinned hother hk (kept.sole k hk hkm)

/-- The row of the master in the sample store. -/
def ApiKey.master_sample : ApiKey :=
  { ApiKey.sample 0 with name := "master", key_hash := "m", is_master := true }

theorem postBootstrap_sample : PostBootstrap .sample .master_sample Vault.sample.toWorld where
  booted := rfl
  row := by decide
  master := rfl
  parent := rfl
  permissions := by decide
  groups := by decide
  webhooks := by decide

/-- The sample service, after the master has bound itself to a network. -/
theorem master_kept_rebound :
    ∃! k, k ∈ (final Service.sample.step [.request (.sample 0 5 (.update_api_key 0
      { bound_ips := some "203.0.113.7" }))] .sample).keys ∧ k.is_master = true :=
  (master_kept .sample _ postBootstrap_sample).1

end IpVault
