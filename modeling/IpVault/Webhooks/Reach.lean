import IpVault.Access.Footprint
import IpVault.Keys.Deletion
import IpVault.Keys.Ownership
import IpVault.Records.Visibility
import IpVault.Schema.Admission
import IpVault.Webhooks.Dispatch
import IpVault.Webhooks.Secrets

set_option autoImplicit false

/-! # The reach of a webhook

A webhook is created, cloned and retargeted only onto groups its owner reads, so that no webhook exports
more than its owner may see. `WithinReach` is that bound as an invariant of the store. The four requests
that can break it look at it from the other side: they take `can_read` from a key, give a webhook to
another key, or make a webhook active again, without looking at what the webhooks watch.
-/

namespace IpVault

open Lib

/-! ## Dispatches -/

/-- A webhook is told of this action. -/
def WebhookConfig.subscribed (h : WebhookConfig) (action : String) : Bool :=
  match h.events with
  | none => true
  | some events => ((Text.split ',' events).map Text.trim).any (· == action)

/-- `dispatch_worker`, one event: the webhooks it is sent to, each with its request. What becomes of the
requests on the network is not modelled. -/
def dispatch_worker (env : Env) (http : Http) (event : WebhookEvent) (now : Int) (w : World) :
    List (WebhookConfig × PreparedDispatch) :=
  match event.group_id with
  | none => []
  | some gid =>
      let configs := w.webhooks.rows.filter fun h => h.group_id = gid ∧ h.is_active = true
      (configs.filter (·.subscribed event.action)).filterMap fun config =>
        match prepare_dispatch env http config event now with
        | .ok prepared => some (config, prepared)
        | .error _ => none

/-- A webhook an event is sent to is an active one of the event's group. -/
theorem mem_dispatch_worker {env : Env} {http : Http} {event : WebhookEvent} {now : Int} {w : World}
    {sent : WebhookConfig × PreparedDispatch} (h : sent ∈ dispatch_worker env http event now w) :
    sent.1 ∈ w.webhooks ∧ sent.1.is_active = true ∧ event.group_id = some sent.1.group_id := by
  unfold dispatch_worker at h
  cases hg : event.group_id with
  | none =>
      rw [hg] at h
      exact absurd h List.not_mem_nil
  | some gid =>
      rw [hg] at h
      obtain ⟨config, hconfig, hsent⟩ := List.mem_filterMap.mp h
      have hmem := List.mem_filter.mp (List.mem_filter.mp hconfig).1
      have hwatches : config.group_id = gid ∧ config.is_active = true := of_decide_eq_true hmem.2
      cases hp : prepare_dispatch env http config event now with
      | error e =>
          rw [hp] at hsent
          cases hsent
      | ok prepared =>
          rw [hp] at hsent
          obtain rfl := Option.some.inj hsent
          exact ⟨hmem.1, hwatches.2, congrArg some hwatches.1.symm⟩

/-! ## The bound -/

/-- An active webhook of the key `owner` watches the group. -/
def World.Watched (w : World) (owner group_id : Uuid) : Prop :=
  ∃ h ∈ w.webhooks, h.is_active = true ∧ h.owner_key_id = some owner ∧ h.group_id = group_id

/-- **The reach of a webhook is bounded by its owner's.** -/
def World.WithinReach (w : World) : Prop :=
  ∀ owner group_id, w.Watched owner group_id → w.reads owner group_id

/-- Every dispatch for a webhook that has an owner concerns a group its owner reads. -/
theorem World.WithinReach.dispatch {w : World} (hw : w.WithinReach) {env : Env} {http : Http}
    {event : WebhookEvent} {now : Int} {sent : WebhookConfig × PreparedDispatch}
    (hsent : sent ∈ dispatch_worker env http event now w) {owner : Uuid}
    (howner : sent.1.owner_key_id = some owner) :
    ∃ group_id, event.group_id = some group_id ∧ w.reads owner group_id := by
  obtain ⟨hmem, hactive, hgroup⟩ := mem_dispatch_worker hsent
  exact ⟨_, hgroup, hw owner _ ⟨sent.1, hmem, hactive, howner, rfl⟩⟩

/-! ## One statement -/

/-- The statement lets no webhook out of the reach of its owner. -/
def Stmt.KeepsReach : Stmt → World → Prop
  | .upsert_permission p, w => p.can_read = false → ¬ w.Watched p.api_key_id p.group_id
  | .delete_permission key_id group_id, w => ¬ w.Watched key_id group_id
  | .delete_keys ids, w => ∀ owner ∈ ids, ∀ group_id, ¬ w.Watched owner group_id
  | .insert_webhook h, w =>
      h.is_active = true → ∀ owner, h.owner_key_id = some owner → w.reads owner h.group_id
  | .update_webhook id c, w => ∀ h ∈ w.webhooks, h.id = id → (c.apply h).is_active = true →
      w.groups.has (c.apply h).group_id = true →
        ∀ owner, h.owner_key_id = some owner → w.reads owner (c.apply h).group_id
  | .set_webhook_owner id owner, w => ∀ h ∈ w.webhooks, h.id = id → h.is_active = true →
      ∀ key_id, owner = some key_id → w.reads key_id h.group_id
  | _, _ => True

/-- The statement takes a row with `can_read` from a key, on this group. -/
def Stmt.TakesRead (l : Stmt) (key_id group_id : Uuid) : Prop :=
  (∃ p, l = .upsert_permission p ∧ p.key = (key_id, group_id) ∧ p.can_read = false) ∨
    l = .delete_permission key_id group_id ∨ (∃ ids, l = .delete_keys ids ∧ key_id ∈ ids) ∨
    l = .delete_group group_id

/-- What becomes of a permission to read: it stays, or the statement takes it. -/
theorem World.reads.after {w : World} {key_id group_id : Uuid} (h : w.reads key_id group_id)
    (l : Stmt) : (l.after w).reads key_id group_id ∨ l.TakesRead key_id group_id := by
  obtain ⟨p, hp, rfl, rfl, hread⟩ := h
  cases l with
  | insert_permission q =>
      left
      unfold Stmt.after
      simp only [Stmt.txn, Txn.insert_permission, Txn.db_error]
      split
      · rename_i e
        split at e
        · cases e
        · split at e
          · cases e
          · cases e
            exact ⟨p, Table.mem_insert_of_mem hp, rfl, rfl, hread⟩
      · exact ⟨p, hp, rfl, rfl, hread⟩
  | insert_permission_or_ignore q =>
      left
      unfold Stmt.after
      simp only [Stmt.txn, Txn.insert_permission_or_ignore, Txn.db_error]
      split
      · rename_i e
        split at e
        · cases e
        · cases e
          exact ⟨p, Table.mem_insert_of_mem hp, rfl, rfl, hread⟩
      · exact ⟨p, hp, rfl, rfl, hread⟩
  | upsert_permission q =>
      by_cases hkey : p.key = q.key
      · cases hq : q.can_read with
        | false => exact .inr (.inl ⟨q, rfl, hkey.symm, hq⟩)
        | true =>
            left
            unfold Stmt.after
            simp only [Stmt.txn, Txn.upsert_permission, Txn.db_error]
            split
            · rename_i e
              split at e
              · cases e
              · cases e
                refine ⟨Txn.overwrite_verbs q p, Table.mem_insert_of_mem ?_, rfl, rfl, hq⟩
                exact (Table.mem_modify (Txn.overwrite_verbs_key q)).mpr (.inr ⟨p, hp, hkey, rfl⟩)
            · exact ⟨p, hp, rfl, rfl, hread⟩
      · left
        unfold Stmt.after
        simp only [Stmt.txn, Txn.upsert_permission, Txn.db_error]
        split
        · rename_i e
          split at e
          · cases e
          · cases e
            refine ⟨p, Table.mem_insert_of_mem ?_, rfl, rfl, hread⟩
            exact (Table.mem_modify (Txn.overwrite_verbs_key q)).mpr (.inl ⟨hp, hkey⟩)
        · exact ⟨p, hp, rfl, rfl, hread⟩
  | delete_permission key_id group_id =>
      by_cases hkey : p.key = (key_id, group_id)
      · obtain ⟨rfl, rfl⟩ := Prod.mk.inj hkey
        exact .inr (.inr (.inl rfl))
      · exact .inl ⟨p, Table.mem_filter.mpr ⟨hp, by simpa using hkey⟩, rfl, rfl, hread⟩
  | delete_keys ids =>
      by_cases hid : p.api_key_id ∈ ids
      · exact .inr (.inr (.inr (.inl ⟨ids, rfl, hid⟩)))
      · exact .inl ⟨p, Table.mem_filter.mpr ⟨hp, by simpa using hid⟩, rfl, rfl, hread⟩
  | delete_group id =>
      by_cases hid : p.group_id = id
      · subst hid
        exact .inr (.inr (.inr (.inr rfl)))
      · exact .inl ⟨p, Table.mem_filter.mpr ⟨hp, by simpa using hid⟩, rfl, rfl, hread⟩
  | _ => exact .inl ⟨p, by rwa [(Stmt.frame _ w).permissions rfl], rfl, rfl, hread⟩

/-- No webhook watches a group that has just been deleted. -/
theorem unwatched_after_delete_group (v : Vault) (owner group_id : Uuid) :
    ¬ (v.after (.delete_group group_id)).Watched owner group_id := by
  rintro ⟨h, hmem, -, -, rfl⟩
  obtain ⟨g, hg, hid⟩ := Table.has_iff.mp ((v.after (.delete_group h.group_id)).wf.webhook_group h hmem)
  have hne := (Table.mem_filter.mp hg).2
  rw [hid] at hne
  simp at hne

/-- **Step.** -/
theorem World.WithinReach.step {v : Vault} {l : Stmt} (hv : v.WithinReach)
    (hl : l.KeepsReach v.toWorld) : (v.after l).WithinReach := by
  rintro owner group_id ⟨h, hmem, hactive, howner, rfl⟩
  rcases Stmt.mem_webhooks_after hmem with
    hold | ⟨h₀, rfl, rfl⟩ | ⟨id, c, h₀, rfl, hh₀, hid, rfl⟩ | ⟨id, o, h₀, rfl, hh₀, hid, rfl⟩
  · have hwatched : v.Watched owner h.group_id := ⟨h, hold, hactive, howner, rfl⟩
    rcases (hv owner _ hwatched).after l with hreads | hgrant | rfl | ⟨ids, rfl, hin⟩ | rfl
    · exact hreads
    · obtain ⟨p, rfl, hkey, hread⟩ := hgrant
      obtain ⟨hk, hg⟩ := Prod.mk.inj hkey
      have hnot : ¬ v.Watched p.api_key_id p.group_id := hl hread
      rw [hk, hg] at hnot
      exact absurd hwatched hnot
    · exact absurd hwatched hl
    · exact absurd hwatched (hl owner hin _)
    · exact absurd ⟨h, hmem, hactive, howner, rfl⟩ (unwatched_after_delete_group v owner _)
  · obtain ⟨p, hp, hrest⟩ := hl hactive owner howner
    exact ⟨p, by rwa [Vault.after_toWorld, (Stmt.frame _ _).permissions rfl], hrest⟩
  · have hgroup := (v.after (.update_webhook id c)).wf.webhook_group _ hmem
    rw [Vault.after_toWorld, (Stmt.frame _ _).groups rfl] at hgroup
    obtain ⟨p, hp, hrest⟩ := hl h₀ hh₀ hid hactive hgroup owner howner
    exact ⟨p, by rwa [Vault.after_toWorld, (Stmt.frame _ _).permissions rfl], hrest⟩
  · obtain ⟨p, hp, hrest⟩ := hl h₀ hh₀ hid hactive owner howner
    exact ⟨p, by rwa [Vault.after_toWorld, (Stmt.frame _ _).permissions rfl], hrest⟩

/-! ## One request -/

/-- The group `resolve_group_by_identifier` finds. -/
def World.group_by_identifier (w : World) (env : Env) (identifier : String) : Option IpGroup :=
  match env.parse_uuid identifier with
  | none => w.group_named identifier
  | some id => (w.groups.find? id).or (w.group_named identifier)

/-- The group `resolve_group_ref_flexible` finds. -/
def World.group_ref_flexible (w : World) (env : Env) (group_id group_name : Option String) :
    Option IpGroup :=
  match group_id, group_name with
  | some identifier, none => w.group_by_identifier env identifier
  | none, some name => w.group_named name
  | _, _ => none

theorem resolve_group_by_identifier_meets {G : Stmt → Vault → Prop} {E : AppError → Vault → Prop}
    {v : Vault} (env : Env) (identifier : String) (hG : ∀ q, G (.query q) v) :
    Prog.Meets database G (fun found w => v = w ∧ found = v.group_by_identifier env identifier) E
      (resolve_group_by_identifier env identifier) v := by
  unfold resolve_group_by_identifier World.group_by_identifier
  cases env.parse_uuid identifier with
  | none => exact meets_select.mpr ⟨hG _, rfl, rfl⟩
  | some id =>
      rw [Prog.meets_bind, meets_select]
      refine ⟨hG _, ?_⟩
      rcases hfound : v.groups.find? id with _ | g
      · rw [show (Query.group_by_id id).eval v.toWorld = none from hfound]
        refine meets_select.mpr ⟨hG _, rfl, ?_⟩
        show v.group_named identifier = (v.groups.find? id).or (v.group_named identifier)
        rw [hfound, Option.none_or]
      · rw [show (Query.group_by_id id).eval v.toWorld = some g from hfound]
        refine ⟨rfl, ?_⟩
        show some g = (v.groups.find? id).or (v.group_named identifier)
        rw [hfound, Option.some_or]

/-- The request takes no `can_read` from under an active webhook, gives no active webhook to a key
that does not read its group, and leaves no webhook active whose owner does not read its group. -/
def Call.KeepsReach (ctx : Ctx) (w : World) : Call → Prop
  | revoke_key_group_permission id group_identifier =>
      ∀ g, w.group_by_identifier ctx.env group_identifier = some g →
        guard_group_manage ctx.key (w.permission ctx.key.id g.id) g.name "revoke" = .ok () →
          ¬ w.Watched id g.id
  | update_key_group_permissions id payload =>
      payload.can_read = false → payload.can_write = false → payload.can_delete = false →
        w.Ordinary id → ∀ g,
          w.group_ref_flexible ctx.env payload.group_id payload.group_name = some g →
          guard_permission_change ctx.key (w.permission ctx.key.id g.id) (w.permission id g.id)
              g.name payload = .ok () →
            ¬ w.Watched id g.id
  | reassign_webhook_owner id payload =>
      ctx.key.is_master = true → ∀ owner, payload.owner_key_id = some owner → w.Ordinary owner →
        ∀ h ∈ w.webhooks, h.id = id → h.is_active = true → w.reads owner h.group_id
  | delete_api_key id resolutions =>
      ∀ subtree, DeletionAdmitted ctx id resolutions w subtree →
        ∀ h ∈ w.webhooks, h.is_active = true → ∀ owner,
          resolution_of resolutions (EntityType.webhook.as_str, h.id) = some (.Reassign owner) →
          resolution_of resolutions (EntityType.group.as_str, h.group_id) ≠ some .Delete →
            w.reads owner h.group_id
  | update_webhook id payload =>
      ∀ e, UpdateAdmitted ctx id payload w e →
        payload.is_active.getD e.target.is_active = true →
        w.groups.has (payload.group_id.getD e.target.group_id) = true →
          ∀ owner, e.target.owner_key_id = some owner →
            w.reads owner (payload.group_id.getD e.target.group_id)
  | _ => True

section Requests

variable {ctx : Ctx} {v w : Vault}

/-- The statement, where it is issued. -/
abbrev KeepingReach (l : Stmt) (w : Vault) : Prop := l.KeepsReach w.toWorld

/-- Every statement of the handler keeps the reach of every webhook. -/
abbrev Reaching {α : Type} (p : Handler α) (v : Vault) (Q : α → Vault → Prop) : Prop :=
  Admits KeepingReach p v Q

theorem keeps_query (q : Query) (w : Vault) : KeepingReach (.query q) w := trivial

theorem audit_then_reaching {α : Type} {action : String} {address names details : Option String}
    {a : α} : Reaching (do create_audit_log ctx action address names details; pure a) v
      fun _ _ => True :=
  Admits.bind (Admits.exec trivial) fun _ _ _ => trivial

/-- A webhook whose creator may watch its group. -/
theorem reads_of_may_watch {group_id : Uuid} (h : MayWatch ctx group_id v.toWorld) {owner : Uuid}
    (howner : resource_owner ctx.key = some owner) : v.reads owner group_id := by
  unfold resource_owner at howner
  cases hm : ctx.key.is_master with
  | true =>
      rw [hm] at howner
      cases howner
  | false =>
      rw [hm] at howner
      obtain rfl : ctx.key.id = owner := Option.some.inj howner
      rcases h with hmaster | hperm
      · cases hmaster.symm.trans hm
      · obtain ⟨p, hp, hread⟩ := (Option.any_eq_true _ _).mp hperm
        obtain ⟨hmem, hkey, hgroup⟩ := World.permission_eq_some.mp hp
        exact ⟨p, hmem, hkey, hgroup, hread⟩

theorem webhook_group_guard_reaching (group_id : Uuid) :
    Reaching (webhook_group_guard ctx group_id) v fun _ w => v = w ∧ MayWatch ctx group_id v.toWorld := by
  have watch : Obeys ctx (.rejected .NotFound) v (webhook_group_guard ctx group_id) v fun _ w =>
      v = w ∧ MayWatch ctx group_id v.toWorld := webhook_group_guard_obeys group_id
  exact Admits.of_reader (webhook_group_guard_only_reads group_id) keeps_query watch

theorem create_webhook_reaching (payload : CreateWebhookPayload) :
    Reaching (create_webhook ctx payload) v fun _ _ => True := by
  refine Admits.require.bind fun _ _ ⟨rfl, _⟩ => ?_
  refine (webhook_group_guard_reaching payload.group_id).bind fun _ _ ⟨rfl, hwatch⟩ => ?_
  refine Admits.ofExcept.bind fun _ _ ⟨rfl, _⟩ => Admits.ofExcept.bind fun _ _ ⟨rfl, _⟩ => ?_
  refine Admits.ofExcept.bind fun mode _ ⟨rfl, _⟩ => Admits.ofExcept.bind fun _ _ ⟨rfl, _⟩ => ?_
  have keeps : (Stmt.insert_webhook (new_webhook ctx payload mode)).KeepsReach v.toWorld :=
    fun _ owner howner => reads_of_may_watch hwatch howner
  exact (Admits.exec keeps).bind fun _ _ _ => audit_then_reaching

theorem clone_webhook_reaching (id : Uuid) (name : String) :
    Reaching (clone_webhook ctx id name) v fun _ _ => True := by
  refine (Admits.reads (find_own_webhook_only_reads id) keeps_query).bind fun source _ hv => ?_
  subst hv
  refine (webhook_group_guard_reaching source.group_id).bind fun _ _ ⟨rfl, hwatch⟩ => ?_
  refine Admits.require.bind fun _ _ ⟨rfl, _⟩ => ?_
  have keeps : ∀ secret, (Stmt.insert_webhook (cloned_webhook ctx source name secret)).KeepsReach
      v.toWorld := fun secret _ owner howner => reads_of_may_watch hwatch howner
  exact Admits.bind (Admits.exec (keeps _)) fun _ _ _ => audit_then_reaching

theorem reassign_webhook_owner_reaching {id : Uuid} {payload : ReassignOwnerPayload}
    (h : (Call.reassign_webhook_owner id payload).KeepsReach ctx v.toWorld) :
    Reaching (reassign_webhook_owner ctx id payload) v fun _ _ => True := by
  refine Admits.require.bind fun _ _ ⟨rfl, hmaster⟩ => ?_
  refine (Admits.select keeps_query).bind fun found _ ⟨rfl, _⟩ => ?_
  refine Admits.okOr.bind fun webhook _ ⟨rfl, _⟩ => ?_
  have owner : Reaching (resolve_owner_assignment payload.owner_key_id) v fun owner w => v = w ∧
      owner = payload.owner_key_id ∧ ∀ id, payload.owner_key_id = some id → v.Ordinary id :=
    (resolve_owner_assignment_meets (fun q => keeps_query q v) _).mono (fun _ _ h => h)
      (fun _ _ h => h) fun _ _ _ => trivial
  refine owner.bind fun _ _ ⟨rfl, howner, hordinary⟩ => ?_
  subst howner
  have keeps : (Stmt.set_webhook_owner id payload.owner_key_id).KeepsReach v.toWorld :=
    fun x hx hid hactive key_id hkey => h hmaster key_id hkey (hordinary key_id hkey) x hx hid hactive
  refine (Admits.exec keeps).bind fun _ _ _ => Admits.require.bind fun _ _ _ => ?_
  exact audit_then_reaching

/-! ### Permission rows -/

theorem resolve_group_by_identifier_reaching (identifier : String) :
    Reaching (resolve_group_by_identifier ctx.env identifier) v fun found w =>
      v = w ∧ found = v.group_by_identifier ctx.env identifier :=
  resolve_group_by_identifier_meets ctx.env identifier fun q => keeps_query q v

theorem revoke_key_group_permission_reaching {id : Uuid} {group_identifier : String}
    (h : (Call.revoke_key_group_permission id group_identifier).KeepsReach ctx v.toWorld) :
    Reaching (revoke_key_group_permission ctx id group_identifier) v fun _ _ => True := by
  refine (Admits.reads (guard_may_administer_any_group_only_reads _) keeps_query).bind
    fun _ _ hv => ?_
  subst hv
  refine (resolve_group_by_identifier_reaching _).bind fun found _ ⟨rfl, hfound⟩ => ?_
  refine Admits.okOr.bind fun group _ ⟨rfl, hgroup⟩ => ?_
  refine (Admits.select keeps_query).bind fun grant _ ⟨rfl, _⟩ => Admits.require.bind fun _ _ ⟨rfl, _⟩ => ?_
  refine (Admits.select keeps_query).bind fun caller_perm _ ⟨rfl, hcaller⟩ => ?_
  refine Admits.ofExcept.bind fun _ _ ⟨rfl, hguard⟩ => ?_
  have keeps : (Stmt.delete_permission id group.id).KeepsReach v.toWorld := by
    rw [hcaller] at hguard
    exact h group (hfound.symm.trans hgroup) hguard
  refine (Admits.exec keeps).bind fun _ _ _ => Admits.require.bind fun _ _ _ => ?_
  refine (Admits.select keeps_query).bind fun _ _ _ => Admits.okOr.bind fun _ _ _ => ?_
  exact audit_then_reaching

/-- The group of a permission request is there already, or nothing watches it. -/
theorem permission_group_reaching (payload : GroupPermInput) :
    Reaching (permission_group ctx payload) v fun g w =>
      (v = w ∧ v.group_ref_flexible ctx.env payload.group_id payload.group_name = some g) ∨
        ∀ owner, ¬ w.Watched owner g.id := by
  have found : Reaching (resolve_group_ref_flexible ctx.env payload.group_id payload.group_name) v
      fun found w => v = w ∧
        found = v.group_ref_flexible ctx.env payload.group_id payload.group_name ∧
        (payload.group_id = none ∨ payload.group_name = none) := by
    unfold resolve_group_ref_flexible World.group_ref_flexible
    cases hid : payload.group_id with
    | none =>
        cases payload.group_name with
        | none => trivial
        | some name =>
            exact (Admits.select keeps_query).imp fun _ _ h => ⟨h.1, h.2, .inl rfl⟩
    | some identifier =>
        cases payload.group_name with
        | none =>
            exact (resolve_group_by_identifier_reaching _).imp fun _ _ h => ⟨h.1, h.2, .inr rfl⟩
        | some name => trivial
  refine found.bind fun existing _ ⟨rfl, hexisting, hone⟩ => ?_
  split
  · exact .inl ⟨rfl, hexisting.symm⟩
  · rename_i name hname _
    have hid : payload.group_id = none := hone.resolve_right (by simp [hname])
    have habsent : v.group_named name = none := by
      rw [hid, hname] at hexisting
      exact hexisting.symm
    refine Admits.require.bind fun _ _ ⟨rfl, _⟩ => ?_
    refine Admits.bind (Admits.exec trivial) fun _ w ⟨hw, _⟩ => ?_
    subst hw
    refine (Admits.select keeps_query).bind fun row _ ⟨rfl, hrow⟩ => ?_
    refine Admits.okOr.imp fun g _ ⟨hv, hg⟩ => ?_
    subst hv
    -- The group is new, and every webhook watches a group that was there.
    right
    rintro owner ⟨h, hmem, -, -, hgroup⟩
    have hnew := group_after_insert (g := new_group name "banlist" _ ctx.now)
      habsent (hrow.symm.trans hg)
    rw [Vault.after_toWorld, (Stmt.frame _ _).webhooks rfl] at hmem
    obtain ⟨g', hg', hg'id⟩ := Table.has_iff.mp (v.wf.webhook_group h hmem)
    have hlt := v.wf.group_fresh g' hg'
    rw [hg'id, hgroup, hnew] at hlt
    exact absurd hlt (Nat.lt_irrefl _)
  · trivial

theorem update_key_group_permissions_reaching {id : Uuid} {payload : GroupPermInput}
    (h : (Call.update_key_group_permissions id payload).KeepsReach ctx v.toWorld) :
    Reaching (update_key_group_permissions ctx id payload) v fun _ _ => True := by
  refine (Admits.reads (guard_may_administer_any_group_only_reads _) keeps_query).bind
    fun _ _ hv => ?_
  subst hv
  refine (Admits.select keeps_query).bind fun found _ ⟨rfl, hfound⟩ => ?_
  refine Admits.okOr.bind fun target _ ⟨rfl, htarget⟩ => Admits.require.bind fun _ _ ⟨rfl, hord⟩ => ?_
  refine Admits.require.bind fun _ _ ⟨rfl, hcoherent⟩ => ?_
  obtain ⟨hmem, hid⟩ := Table.find?_eq_some.mp (hfound.symm.trans htarget)
  refine (permission_group_reaching payload).bind fun group w hgroup => ?_
  refine (Admits.select keeps_query).bind fun caller_perm _ ⟨rfl, hcaller⟩ => ?_
  refine (Admits.select keeps_query).bind fun target_perm _ ⟨rfl, hperm⟩ => ?_
  refine Admits.ofExcept.bind fun _ _ ⟨rfl, hguard⟩ => ?_
  have keeps : (Stmt.upsert_permission (payload.row id group.id ctx.now)).KeepsReach w.toWorld := by
    intro hread
    rcases hgroup with ⟨rfl, hgroup⟩ | hnew
    · have hread : payload.can_read = false := hread
      have hwrite : payload.can_write = false := by
        by_contra hw
        exact absurd (hcoherent (.inl (by simpa using hw))) (by simp [hread])
      have hdelete : payload.can_delete = false := by
        by_contra hd
        exact absurd (hcoherent (.inr (by simpa using hd))) (by simp [hread])
      rw [hcaller, hperm] at hguard
      exact h hread hwrite hdelete ⟨target, hmem, hid, hord⟩ group hgroup hguard
    · exact hnew _
  exact (Admits.exec keeps).bind fun _ _ _ => audit_then_reaching

/-! ### Deletions -/

/-- An inventory lists its groups before its webhooks. -/
theorem owned_entities_sorted (w : World) (subtree : List Uuid) :
    (w.owned_entities subtree).Pairwise fun a b =>
      a.entity_type = .webhook → b.entity_type = .webhook := by
  have listed : ∀ owner_name entity_type rows, ∀ e ∈ owned_by owner_name entity_type rows subtree,
      e.entity_type = entity_type := by
    intro owner_name entity_type rows e he
    obtain ⟨⟨id, name, owner⟩, -, hrow⟩ := List.mem_filterMap.mp he
    dsimp only at hrow
    split at hrow
    · split at hrow
      · obtain rfl := Option.some.inj hrow
        rfl
      · cases hrow
    · cases hrow
  unfold World.owned_entities
  refine List.pairwise_append.mpr ⟨?_, ?_, ?_⟩
  · refine List.pairwise_of_forall_mem_list fun a ha b _ hwebhook => ?_
    cases (listed _ _ _ a ha).symm.trans hwebhook
  · exact List.pairwise_of_forall_mem_list fun a _ b hb _ => listed _ _ _ b hb
  · exact fun a _ b hb _ => listed _ _ _ b hb

/-- **The invariant of the loop**, with what the groups that are still there let a key read. -/
structure Underway (entries : List ResolutionEntry) (done : List OwnedEntity) (v w : World) :
    Prop where
  settled : Settled entries done v w
  reads : ∀ key_id group_id, v.reads key_id group_id →
    fate entries done .group group_id ≠ some .Delete → w.reads key_id group_id

variable {entries : List ResolutionEntry} {done : List OwnedEntity}

/-- One round: a key loses what it reads with the group only. -/
theorem Underway.step {e : OwnedEntity} {resolution : Resolution} {v w : World}
    (h : Underway entries done v w) (hr : resolution_of entries e.key = some resolution) :
    Underway entries (done ++ [e]) v ((resolution_stmt e resolution).after w) where
  settled := h.settled.step hr
  reads key_id group_id hreads hfate := by
    have hnow : fate entries (done ++ [e]) .group group_id ≠ some .Delete → w.reads key_id group_id := by
      intro hne
      refine h.reads key_id group_id hreads fun hdone => hne ?_
      unfold fate at hdone ⊢
      split at hdone
      · rename_i hmem
        rw [if_pos (by simpa using .inl (by simpa using hmem))]
        exact hdone
      · cases hdone
    rcases (hnow hfate).after (resolution_stmt e resolution) with hstays | htakes
    · exact hstays
    · -- The only statement of the loop that takes a permission deletes the group.
      exfalso
      obtain ⟨entity_type, id, name, owner_key_id, owner_name⟩ := e
      have hhead : fate entries (done ++ [⟨entity_type, id, name, owner_key_id, owner_name⟩])
          entity_type = _ := fate_append hr
      rcases htakes with ⟨p, hl, -⟩ | hl | ⟨ids, hl, -⟩ | hl <;> cases entity_type <;>
        cases resolution <;> cases hl
      apply hfate
      rw [hhead, Function.update_self]

theorem apply_resolutions_reaching {id : Uuid} {ids : List Uuid} {w : Vault}
    (admitted : DeletionAdmitted ctx id entries v.toWorld ids)
    (h : (Call.delete_api_key id entries).KeepsReach ctx v.toWorld) (rest : List OwnedEntity)
    (hall : done ++ rest = v.owned_entities ids)
    (hrest : rest.Pairwise fun a b => a.entity_type = .webhook → b.entity_type = .webhook)
    (hw : Underway entries done v.toWorld w.toWorld) :
    Reaching (apply_resolutions entries rest) w fun _ w' =>
      Underway entries (v.owned_entities ids) v.toWorld w'.toWorld := by
  induction rest generalizing w done with
  | nil =>
      rw [List.append_nil] at hall
      rw [hall] at hw
      exact hw
  | cons e es ih =>
      refine Admits.okOr.bind fun resolution _ ⟨rfl, hr⟩ => ?_
      have keeps : (resolution_stmt e resolution).KeepsReach w.toWorld := by
        cases htype : e.entity_type with
        | group =>
            unfold resolution_stmt
            rw [htype]
            cases resolution <;> trivial
        | webhook =>
            unfold resolution_stmt
            rw [htype]
            cases resolution with
            | Delete => trivial
            | Reassign owner =>
                intro x hx hid hactive key_id hkey
                obtain rfl : owner = key_id := Option.some.inj hkey
                obtain ⟨hkept, x₀, hx₀, hsettle⟩ := (hw.settled.webhooks x).mp hx
                have hid₀ : x₀.id = x.id := (settle_key Txn.own_webhook_id hsettle).symm
                have hsame : x₀.is_active = x.is_active ∧ x₀.group_id = x.group_id := by
                  revert hsettle
                  cases fate entries done .webhook x₀.id with
                  | none =>
                      intro hsettle
                      obtain rfl := Option.some.inj hsettle
                      exact ⟨rfl, rfl⟩
                  | some decision =>
                      cases decision with
                      | Delete => intro hsettle; cases hsettle
                      | Reassign o =>
                          intro hsettle
                          obtain rfl := Option.some.inj hsettle
                          exact ⟨rfl, rfl⟩
                have hentry : resolution_of entries (EntityType.webhook.as_str, x₀.id) =
                    some (.Reassign owner) := by
                  rw [hid₀, hid]
                  unfold OwnedEntity.key at hr
                  rwa [htype] at hr
                -- The groups come first: one the map deletes is gone, and its webhooks with it.
                have hgroup : resolution_of entries (EntityType.group.as_str, x.group_id) ≠
                    some .Delete := by
                  intro hdelete
                  apply hkept
                  have hin : (EntityType.group.as_str, x.group_id) ∈
                      (done ++ e :: es).map OwnedEntity.key := by
                    obtain ⟨entry, hentry, hkey, -⟩ := mem_of_resolution hdelete
                    rw [hall]
                    exact hkey ▸ admitted.exact entry hentry
                  unfold fate
                  rw [List.map_append, List.mem_append] at hin
                  rcases hin with hdone | hcoming
                  · rw [if_pos hdone]
                    exact hdelete
                  · obtain ⟨e', he', hkey⟩ := List.mem_map.mp hcoming
                    have hwebhook : e'.entity_type = .webhook := by
                      rcases List.mem_cons.mp he' with rfl | he'
                      · exact htype
                      · exact List.rel_of_pairwise_cons hrest he' htype
                    have hstr : e'.entity_type.as_str = EntityType.group.as_str :=
                      (Prod.mk.inj hkey).1
                    rw [hwebhook] at hstr
                    exact absurd hstr (by decide)
                rw [← hsame.2] at hgroup hkept ⊢
                have hreads := h ids admitted x₀ hx₀ (hsame.1.trans hactive) owner hentry hgroup
                exact hw.reads owner x₀.group_id hreads hkept
      refine (Admits.exec keeps).bind fun _ w' ⟨hw', _⟩ => ?_
      subst hw'
      have hnext : (done ++ [e]) ++ es = v.owned_entities ids := by
        rw [List.append_assoc]
        exact hall
      exact ih hnext hrest.tail (hw.step hr)

theorem delete_api_key_reaching {id : Uuid} {resolutions : List ResolutionEntry}
    (h : (Call.delete_api_key id resolutions).KeepsReach ctx v.toWorld) :
    Reaching (delete_api_key ctx id resolutions) v fun _ _ => True := by
  refine delete_api_key_admits keeps_query fun subtree details admitted => ?_
  have start : Underway resolutions [] v.toWorld v.toWorld := ⟨.refl _, fun _ _ h _ => h⟩
  have loop := apply_resolutions_reaching admitted h (v.owned_entities subtree) (List.nil_append _)
    (owned_entities_sorted _ _) start
  refine loop.bind fun _ w hw => ?_
  have keeps : (Stmt.delete_keys subtree).KeepsReach w.toWorld := by
    rintro owner hin group_id ⟨x, hx, -, howner, -⟩
    exact (admitted.owner_survives hw.settled).2 x hx owner howner hin
  refine (Admits.exec keeps).bind fun _ _ _ => Admits.require.bind fun _ _ _ => ?_
  exact audit_then_reaching

/-! ### All of them -/

/-- **A request that meets the condition lets no webhook out of the reach of its owner.** -/
theorem Call.reaching {call : Call} (h : call.KeepsReach ctx v.toWorld)
    (hv : v.WithinReach) : Prog.Meets database
      (fun l w => w.WithinReach → KeepingReach l w) (fun _ _ => True) (fun _ _ => True)
      (call.handler ctx) v := by
  have weaker : ∀ {p : Handler Response}, Reaching p v (fun _ _ => True) →
      Prog.Meets database (fun l w => w.WithinReach → KeepingReach l w) (fun _ _ => True)
        (fun _ _ => True) p v :=
    fun hp => hp.mono (fun _ _ h _ => h) (fun _ _ h => h) fun _ _ h => h
  cases call with
  | create_webhook payload => exact weaker (create_webhook_reaching payload)
  | clone_webhook id name => exact weaker (clone_webhook_reaching id name)
  | reassign_webhook_owner id payload => exact weaker (reassign_webhook_owner_reaching h)
  | revoke_key_group_permission id identifier =>
      exact weaker (revoke_key_group_permission_reaching h)
  | update_key_group_permissions id payload =>
      exact weaker (update_key_group_permissions_reaching h)
  | delete_api_key id resolutions => exact weaker (delete_api_key_reaching h)
  | update_webhook id payload =>
      -- The update is worked out from the row it meets.
      have permitted : Obeys ctx (.update_webhook id payload) v
        (IpVault.update_webhook ctx id payload) v fun _ _ => True := update_webhook_obeys id payload
      refine (permitted.and ((update_webhook_within id payload).meets v)).mono ?_
        (fun _ _ _ => trivial) fun _ _ _ => trivial
      rintro l w ⟨hpermits, hfootprint⟩ -
      cases l with
      | update_webhook id' c =>
          obtain ⟨rfl, payload', e, hcall, hadmitted, rfl⟩ := hpermits
          cases hcall
          intro x hx hid hactive hgroup owner howner
          obtain rfl : x = e.target :=
            Table.eq_of_key hx hadmitted.target (hid.trans hadmitted.target_id.symm)
          have hpayload := hadmitted.payload_eq
          subst hpayload
          exact h e hadmitted hactive hgroup owner howner
      | query | insert_audit => trivial
      | _ => cases hfootprint
  | _ =>
      refine weaker (Admits.of_issues (Prog.Issues.mono (Call.within _) fun l hl w => ?_))
      cases l with
      | upsert_permission | delete_permission | delete_keys | insert_webhook | update_webhook
      | set_webhook_owner => cases hl
      | _ => trivial

end Requests

/-! ## Runs -/

/-- The request lets no webhook out of the reach of its owner. -/
def Service.KeepsReach (S : Service) : Service.Event → Vault → Prop
  | .request req, v => ∀ key, v.keys.find? req.key_id = some key →
      req.call.KeepsReach (S.ctx req key) v.toWorld
  | .sweep _, _ => True

theorem World.WithinReach.event {S : Service} {event : Service.Event} {v : Vault}
    (hv : v.WithinReach) (h : S.KeepsReach event v) : (S.step event v).2.WithinReach := by
  cases event with
  | sweep now =>
      exact S.sweep_keeps (I := fun w => w.WithinReach) hv fun threshold => hv.step trivial
  | request req =>
      have served : Prog.Meets database (fun l w => w.WithinReach → KeepingReach l w)
          (fun _ _ => True) (fun _ _ => True) (S.serve req) v := by
        unfold Service.serve
        rw [Prog.meets_bind, meets_select]
        refine ⟨fun _ => trivial, ?_⟩
        rw [Prog.meets_bind, Prog.meets_okOr]
        exact ⟨fun key hkey => Call.reaching (h key hkey) hv, fun _ => trivial⟩
      have start : (fun w : Vault => w.WithinReach) v := hv
      have hrun := served.keeps start fun l w hl hw => World.WithinReach.step hw (hl hw)
      show (S.handle req v).2.WithinReach
      unfold Service.handle
      generalize (S.serve req).run database v = r at hrun ⊢
      obtain ⟨_ | _, w⟩ := r <;> exact hrun

/-- **The reach of a webhook is bounded by its owner's reach**, in every store of every run whose
requests meet the condition: every active webhook watches a group its owner reads, and so every
dispatch concerns one. -/
theorem reach_bounded (S : Service) (run : List Service.Event) (v : Vault) (hv : v.WithinReach)
    (h : Along S.step S.KeepsReach run v) :
    (final S.step run v).WithinReach ∧
      ∀ (http : Http) (event : WebhookEvent) (now : Int),
        ∀ sent ∈ dispatch_worker S.env http event now (final S.step run v).toWorld,
        ∀ owner, sent.1.owner_key_id = some owner →
          ∃ group_id, event.group_id = some group_id ∧
            (final S.step run v).reads owner group_id := by
  have hfinal : (final S.step run v).WithinReach :=
    h.keeps (I := fun w => w.WithinReach) hv fun event w hevent hw => hw.event hevent
  exact ⟨hfinal, fun http event now sent hsent owner howner => hfinal.dispatch hsent howner⟩

/-! ## A permission is revoked -/

/-- The sample store, in which the sensor may create webhooks. -/
def Vault.webhook_manager : Vault :=
  Vault.sample.after (.update_key 1 { can_manage_webhooks := some true, updated_at := 1 })

theorem webhook_manager_within_reach : Vault.webhook_manager.WithinReach := by
  rintro owner group_id ⟨h, hmem, -⟩
  have hnone : Vault.webhook_manager.webhooks.rows = [] := rfl
  rw [← Table.mem_rows, hnone] at hmem
  exact absurd hmem List.not_mem_nil

/-- The sensor has a webhook for the group it reads. -/
def Request.exports : Request :=
  .sample 1 5 (.create_webhook
    { name := "siem", target_url := "https://siem/", payload_template := "", group_id := 2
      auth_mode := some "NONE" })

/-- The master revokes what the sensor may do in the group. -/
def Request.revokes : Request := .sample 0 7 (.revoke_key_group_permission 1 "bans")

/-- A small network: every name is a header, and every text a value. -/
def Http.sample : Http := ⟨some, fun _ => .ok (), fun _ => none, .ok⟩

/-- An address is banned in the group. -/
def WebhookEvent.sample : WebhookEvent := ⟨"IP_ADD", "203.0.113.7", false, some 2, some "bans", none⟩

/-- The group is no longer the sensor's to read, and its webhook goes on. -/
theorem revoked_and_exported :
    ¬ ∀ (S : Service) (run : List Service.Event) (v : Vault), v.WithinReach →
      ∀ (http : Http) (event : WebhookEvent) (now : Int),
        ∀ sent ∈ dispatch_worker S.env http event now (final S.step run v).toWorld,
        ∀ owner, sent.1.owner_key_id = some owner →
          ∃ group_id, event.group_id = some group_id ∧
            (final S.step run v).reads owner group_id := by
  intro all
  have bound := all .sample_siem [.request .exports, .request .revokes] .webhook_manager
    webhook_manager_within_reach .sample .sample 9
  have hsent : ∃ sent ∈ dispatch_worker Service.sample_siem.env .sample .sample 9
      (final Service.sample_siem.step [.request .exports, .request .revokes]
        .webhook_manager).toWorld, sent.1.owner_key_id = some 1 := by decide
  obtain ⟨sent, hmem, howner⟩ := hsent
  obtain ⟨group_id, -, p, hp, -⟩ := bound sent hmem 1 howner
  have hnone : (final Service.sample_siem.step [.request .exports, .request .revokes]
      .webhook_manager).permissions.rows = [] := by decide
  rw [← Table.mem_rows, hnone] at hp
  exact absurd hp List.not_mem_nil

/-- With its webhook deleted first, the sensor can be stripped of the group. -/
theorem reach_bounded_afterwards :
    (final Service.sample_siem.step [.request .exports, .request (.sample 1 6 (.delete_webhook 3)),
      .request .revokes] .webhook_manager).WithinReach := by
  refine (reach_bounded .sample_siem _ .webhook_manager webhook_manager_within_reach ?_).1
  refine ⟨fun key _ => trivial, fun key _ => trivial, fun key _ g _ _ hwatched => ?_, trivial⟩
  obtain ⟨h, hmem, -⟩ := hwatched
  have hnone : (final Service.sample_siem.step
      [.request .exports, .request (.sample 1 6 (.delete_webhook 3))]
      .webhook_manager).webhooks.rows = [] := by decide
  rw [← Table.mem_rows] at hmem
  rw [final_cons, final_cons, final_nil] at hnone
  rw [hnone] at hmem
  exact absurd hmem List.not_mem_nil

end IpVault
