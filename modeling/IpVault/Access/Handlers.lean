import IpVault.Access.Permits
import IpVault.Schema.Effects

set_option autoImplicit false

/-! # The endpoints keep to what they may issue

One lemma for each handler: run from any store, it issues only what `Permits` admits. The
sub-handlers that read come first, with what they establish.
-/

namespace IpVault

open Lib

variable {ctx : Ctx} {call : Call} {start v : Vault}

/-! ## Keys -/

theorem subtree_walk_only_reads (n : Nat) (visited frontier : List Uuid) :
    OnlyReads (subtree_walk n visited frontier) := by
  induction n generalizing visited frontier with
  | zero => trivial
  | succ n ih =>
      unfold subtree_walk
      split
      · trivial
      · exact .bind (.select _) fun _ => ih _ _

theorem collect_key_subtree_only_reads (root : Uuid) : OnlyReads (collect_key_subtree root) :=
  .bind (.select _) fun _ => subtree_walk_only_reads _ _ _

theorem caller_can_administer_key_only_reads (caller : ApiKey) (target : Uuid) :
    OnlyReads (caller_can_administer_key caller target) := by
  unfold caller_can_administer_key
  split
  · trivial
  · exact .bind (collect_key_subtree_only_reads _) fun _ => trivial

/-- The key a request is about exists. -/
theorem find_administrable_key_admits {G : Stmt → Vault → Prop} (hG : ∀ q w, G (.query q) w)
    (caller : ApiKey) (target : Uuid) :
    Admits G (find_administrable_key caller target) v fun k v' =>
      v = v' ∧ k ∈ v.keys ∧ k.id = target := by
  refine (Admits.select hG).bind fun found _ ⟨rfl, hfound⟩ => ?_
  refine Admits.okOr.bind fun k _ ⟨rfl, hk⟩ => ?_
  refine (Admits.reads (caller_can_administer_key_only_reads _ _) hG).bind fun may w hw => ?_
  subst hw
  refine Admits.require.bind fun _ _ ⟨rfl, _⟩ => ?_
  exact ⟨rfl, Table.find?_eq_some.mp (hfound.symm.trans hk)⟩

theorem find_administrable_key_obeys (caller : ApiKey) (target : Uuid) :
    Obeys ctx call start (find_administrable_key caller target) v fun k v' =>
      v = v' ∧ k ∈ v.keys ∧ k.id = target :=
  find_administrable_key_admits (permits_query ctx call start) caller target

theorem key_group_permissions_only_reads (key_id : Uuid) (only_groups : Option (List Uuid)) :
    OnlyReads (key_group_permissions key_id only_groups) :=
  .bind (.select _) fun _ => trivial

theorem full_api_key_summary_only_reads (k : ApiKey) : OnlyReads (full_api_key_summary k) :=
  .bind (key_group_permissions_only_reads _ _) fun _ => trivial

theorem create_api_key_obeys (payload : CreateApiKeyPayload) :
    Obeys ctx call v (create_api_key ctx payload) v fun _ _ => True := by
  refine obeys_require.bind fun _ _ ⟨_, _⟩ => ?_
  refine obeys_ofExcept.bind fun _ _ ⟨_, hscope⟩ => ?_
  refine obeys_ofExcept.bind fun _ _ ⟨_, hnet⟩ => ?_
  refine obeys_ofExcept.bind fun stored _ ⟨_, _⟩ => ?_
  refine Obeys.bind (obeys_exec ⟨payload, stored, rfl, hscope, hnet⟩) fun _ _ _ => ?_
  exact obeys_audit_then

theorem update_api_key_obeys (id : Uuid) (payload : UpdateApiKeyPayload) :
    Obeys ctx call v (update_api_key ctx id payload) v fun _ _ => True := by
  refine obeys_require.bind fun _ _ ⟨rfl, _⟩ => ?_
  refine (find_administrable_key_obeys _ _).bind fun target _ ⟨rfl, htarget, hid⟩ => ?_
  refine obeys_ofExcept.bind fun _ _ ⟨rfl, hmaster⟩ => ?_
  refine obeys_ofExcept.bind fun _ _ ⟨rfl, hedit⟩ => ?_
  refine obeys_ofExcept.bind fun _ _ ⟨rfl, hscope⟩ => ?_
  refine obeys_ofExcept.bind fun _ _ ⟨rfl, hnet⟩ => ?_
  refine Obeys.bind (obeys_exec ⟨target, htarget, hid, hmaster,
    .inl ⟨payload, rfl, hedit, hscope, hnet⟩⟩) fun updated _ _ => ?_
  refine obeys_audit.bind fun _ _ _ => ?_
  exact (obeys_of_reads (full_api_key_summary_only_reads _)).bind fun _ _ _ => trivial

/-- A rotation starts from an ordinary key the caller may administer. -/
theorem rotation_target_obeys (id : Uuid) (operation : String) :
    Obeys ctx call start (rotation_target ctx id operation) v fun k v' =>
      v = v' ∧ k ∈ v.keys ∧ k.id = id ∧ guard_master_target ctx.key k = .ok () ∧
        k.is_master = false := by
  refine obeys_require.bind fun _ _ ⟨rfl, _⟩ => ?_
  refine (find_administrable_key_obeys _ _).bind fun target _ ⟨rfl, htarget, hid⟩ => ?_
  refine obeys_ofExcept.bind fun _ _ ⟨rfl, hmaster⟩ => ?_
  refine obeys_ofExcept.bind fun _ _ ⟨rfl, himm⟩ => ?_
  exact ⟨rfl, htarget, hid, hmaster, guard_master_immutable_ok himm⟩

theorem rotate_api_key_obeys (id : Uuid) :
    Obeys ctx call v (rotate_api_key ctx id) v fun _ _ => True := by
  refine (rotation_target_obeys _ _).bind fun target _ ⟨rfl, htarget, hid, hmaster, hord⟩ => ?_
  refine obeys_ofExcept.bind fun _ _ ⟨rfl, _⟩ => ?_
  refine Obeys.bind (obeys_exec ⟨target, htarget, hid, hmaster,
    .inr ⟨hord, rfl, rfl, rfl, rfl, rfl⟩⟩) fun _ _ _ => ?_
  exact obeys_audit_then

theorem rotate_signing_secret_obeys (id : Uuid) :
    Obeys ctx call v (rotate_signing_secret ctx id) v fun _ _ => True := by
  refine (rotation_target_obeys _ _).bind fun target _ ⟨rfl, htarget, hid, hmaster, hord⟩ => ?_
  refine obeys_ofExcept.bind fun _ _ ⟨rfl, _⟩ => ?_
  refine Obeys.bind (obeys_exec ⟨target, htarget, hid, hmaster,
    .inr ⟨hord, rfl, rfl, rfl, rfl, rfl⟩⟩) fun _ _ _ => ?_
  exact obeys_audit_then

/-- A new owner that is accepted may be written. -/
theorem resolve_owner_assignment_obeys (requested : Option Uuid) :
    Obeys ctx call start (resolve_owner_assignment requested) v fun owner w =>
      Permits.set_owner owner w := by
  refine (resolve_owner_assignment_meets (fun _ => trivial) requested).mono (fun _ _ h => h) ?_
    fun _ _ _ => trivial
  rintro _ _ ⟨rfl, rfl, howner⟩
  exact howner

theorem apply_resolutions_obeys {id : Uuid} {entries : List ResolutionEntry} {ids : List Uuid}
    (h : DeletionAdmitted ctx id entries start.toWorld ids) (done rest : List OwnedEntity)
    (hv : Settled entries done start.toWorld v.toWorld) :
    Obeys ctx call start (apply_resolutions entries rest) v fun _ w =>
      Settled entries (done ++ rest) start.toWorld w.toWorld := by
  induction rest generalizing v done with
  | nil =>
      show Settled entries (done ++ []) start.toWorld v.toWorld
      rwa [List.append_nil]
  | cons e es ih =>
      refine obeys_okOr.bind fun resolution _ ⟨rfl, hr⟩ => ?_
      have permitted : Permits ctx call start (resolution_stmt e resolution) v := by
        -- A reassignment names an owner the map has been checked for.
        have owner : ∀ o, resolution = .Reassign o → Permits.set_owner (some o) v := by
          rintro o rfl id' hid'
          obtain rfl : o = id' := Option.some.inj hid'
          obtain ⟨entry, hentry, -, hres⟩ := mem_of_resolution hr
          obtain ⟨-, k, hk, hkey⟩ := h.owners entry hentry o hres
          exact ⟨k, hv.keys ▸ hk, hkey⟩
        unfold resolution_stmt
        split
        · trivial
        · trivial
        · exact owner _ rfl
        · exact owner _ rfl
      refine (obeys_exec permitted).bind fun _ w ⟨hw, _⟩ => ?_
      subst hw
      have step := ih (v := v.after _) (done ++ [e]) (hv.step hr)
      rwa [List.append_assoc] at step

/-- **A deletion reads until it is admitted**: what it issues is what it issues from then on. -/
theorem delete_api_key_admits {G : Stmt → Vault → Prop} (hG : ∀ q w, G (.query q) w) {id : Uuid}
    {resolutions : List ResolutionEntry} {R : Response → Vault → Prop}
    (hrest : ∀ subtree details, DeletionAdmitted ctx id resolutions v.toWorld subtree →
      Admits G (do
        apply_resolutions resolutions (v.owned_entities subtree)
        let rows_affected ← exec (.delete_keys subtree)
        Prog.require (rows_affected ≠ 0) .NotFound
        create_audit_log ctx "KEY_DELETE" none none details
        pure no_content) v R) :
    Admits G (delete_api_key ctx id resolutions) v R := by
  refine Admits.require.bind fun _ _ ⟨rfl, hmanager⟩ => ?_
  refine Admits.require.bind fun _ _ ⟨rfl, _⟩ => ?_
  refine (find_administrable_key_admits hG _ _).bind fun target _ ⟨rfl, htarget, hid⟩ => ?_
  refine Admits.ofExcept.bind fun _ _ ⟨rfl, _⟩ => ?_
  refine Admits.ofExcept.bind fun _ _ ⟨rfl, himm⟩ => ?_
  refine Admits.bind (collect_key_subtree_meets fun q => hG q v) fun subtree _ ⟨hv, hlineage⟩ => ?_
  subst hv
  refine Admits.require.bind fun _ _ ⟨rfl, hcaller⟩ => ?_
  refine Admits.bind (inventory_owned_entities_meets (fun q => hG q v) _)
    fun inventory _ ⟨hv, hinventory⟩ => ?_
  subst hv hinventory
  refine Admits.ofExcept.bind fun _ _ ⟨rfl, hmap⟩ => ?_
  refine Admits.bind ((validate_targets_meets (fun q => hG q v) _ _).mono (fun _ _ h => h)
    (fun _ _ h => h) fun _ _ _ => trivial) fun _ _ ⟨hv, howners⟩ => ?_
  subst hv
  obtain ⟨hdistinct, hcomplete, hexact⟩ := validate_resolutions_ok hmap
  exact hrest subtree _
    { manager := hmanager
      target := ⟨target, htarget, hid, guard_master_immutable_ok himm⟩
      lineage := hlineage
      caller := by simpa using hcaller
      distinct := hdistinct
      complete := hcomplete
      exact := hexact
      owners := howners }

/-- **A deletion** ends with the subtree gone from a store in which its map has been carried
out. -/
theorem delete_api_key_obeys (id : Uuid) (resolutions : List ResolutionEntry) :
    Obeys ctx (.delete_api_key id resolutions) v (delete_api_key ctx id resolutions) v fun _ w =>
      ∃ subtree w₁, DeletionAdmitted ctx id resolutions v.toWorld subtree ∧
        Settled resolutions (v.owned_entities subtree) v.toWorld w₁ ∧
        w.keys = w₁.keys.filter (fun k => !subtree.contains k.id) ∧
        w.groups = w₁.groups ∧ w.webhooks = w₁.webhooks := by
  refine delete_api_key_admits (permits_query ctx _ v) fun subtree details admitted => ?_
  refine (apply_resolutions_obeys admitted [] _ (.refl _)).bind fun _ w₁ hsettled => ?_
  have permitted : Permits ctx (.delete_api_key id resolutions) v (.delete_keys subtree) w₁ :=
    ⟨id, resolutions, rfl, admitted, hsettled⟩
  refine (obeys_exec permitted).bind fun rows_affected w₂ ⟨hw₂, _⟩ => ?_
  subst hw₂
  refine obeys_require.bind fun _ _ ⟨rfl, _⟩ => ?_
  refine obeys_audit.bind fun _ w ⟨row, hw⟩ => ?_
  subst hw
  have frame := Stmt.frame (.insert_audit row) (w₁.after (.delete_keys subtree)).toWorld
  exact ⟨subtree, w₁.toWorld, admitted, hsettled, frame.keys rfl, frame.groups rfl,
    frame.webhooks rfl⟩

/-! ## Permission rows -/

theorem guard_may_administer_any_group_only_reads (caller : ApiKey) :
    OnlyReads (guard_may_administer_any_group caller) := by
  unfold guard_may_administer_any_group
  split
  · trivial
  · split
    · exact .bind (.bind (.select _) fun _ => trivial) fun _ => .require _ _
    · trivial

theorem resolve_group_by_identifier_only_reads (env : Env) (identifier : String) :
    OnlyReads (resolve_group_by_identifier env identifier) := by
  unfold resolve_group_by_identifier
  split
  · exact .select _
  · refine .bind (.select _) fun found => ?_
    split
    · trivial
    · exact .select _

theorem resolve_group_ref_flexible_only_reads (env : Env) (group_id group_name : Option String) :
    OnlyReads (resolve_group_ref_flexible env group_id group_name) := by
  unfold resolve_group_ref_flexible
  split
  · trivial
  · trivial
  · exact resolve_group_by_identifier_only_reads _ _
  · exact .select _

/-- A group created by name: nobody had the name, so it is the one just inserted. -/
theorem get_or_create_group_obeys {name default_group_type : String}
    (hc : ctx.key.is_master = true ∨ ctx.key.can_create_groups = true) :
    Obeys ctx call start (get_or_create_group ctx name default_group_type (resource_owner ctx.key)) v
      fun g v' =>
        v' = v.after (.insert_group_or_ignore
          (new_group name default_group_type (resource_owner ctx.key) ctx.now)) ∧
        v'.group_named name = some g := by
  refine Obeys.bind (obeys_exec ⟨hc, rfl⟩) fun _ _ ⟨hv, _⟩ => ?_
  refine obeys_select.bind fun found _ ⟨rfl, hfound⟩ => ?_
  refine obeys_okOr.imp fun g _ ⟨rfl, hg⟩ => ?_
  exact ⟨hv, hfound.symm.trans hg⟩

theorem permission_group_obeys (payload : GroupPermInput) :
    Obeys ctx call start (permission_group ctx payload) v fun _ v' => v'.keys = v.keys := by
  refine (obeys_of_reads (resolve_group_ref_flexible_only_reads _ _ _)).bind fun found _ hv => ?_
  subst hv
  split
  · exact rfl
  · refine obeys_require.bind fun _ _ ⟨rfl, hc⟩ => ?_
    refine (get_or_create_group_obeys hc).imp fun g _ ⟨hv, _⟩ => ?_
    subst hv
    exact (Stmt.frame _ _).keys rfl
  · exact trivial

theorem update_key_group_permissions_obeys (id : Uuid) (payload : GroupPermInput) :
    Obeys ctx call v (update_key_group_permissions ctx id payload) v fun _ _ => True := by
  refine (obeys_of_reads (guard_may_administer_any_group_only_reads _)).bind fun _ _ hv => ?_
  subst hv
  refine obeys_select.bind fun found _ ⟨rfl, hfound⟩ => ?_
  refine obeys_okOr.bind fun target _ ⟨rfl, htarget⟩ => ?_
  refine obeys_require.bind fun _ _ ⟨rfl, hord⟩ => ?_
  refine obeys_require.bind fun _ _ ⟨rfl, hco⟩ => ?_
  refine (permission_group_obeys payload).bind fun group w hkeys => ?_
  refine obeys_select.bind fun caller_perm _ ⟨rfl, hcaller⟩ => ?_
  refine obeys_select.bind fun target_perm _ ⟨rfl, hperm⟩ => ?_
  refine obeys_ofExcept.bind fun _ _ ⟨rfl, hguard⟩ => ?_
  obtain ⟨hmem, hid⟩ := Table.find?_eq_some.mp (hfound.symm.trans htarget)
  have permitted : Permits ctx call v (.upsert_permission (payload.row id group.id ctx.now)) w := by
    refine ⟨hco, ⟨target, hkeys ▸ hmem, hid, hord⟩, payload, group.name, rfl, ?_⟩
    rw [hcaller, hperm] at hguard
    exact hguard
  exact (obeys_exec permitted).bind fun _ _ _ => obeys_audit_then

theorem revoke_key_group_permission_obeys (id : Uuid) (group_identifier : String) :
    Obeys ctx call v (revoke_key_group_permission ctx id group_identifier) v fun _ _ => True := by
  refine (obeys_of_reads (guard_may_administer_any_group_only_reads _)).bind fun _ _ _ => ?_
  refine (obeys_of_reads (resolve_group_by_identifier_only_reads _ _)).bind fun _ _ _ => ?_
  refine obeys_okOr.bind fun group _ _ => ?_
  refine obeys_select.bind fun grant _ _ => ?_
  refine obeys_require.bind fun _ _ _ => ?_
  refine obeys_select.bind fun caller_perm _ _ => ?_
  refine obeys_ofExcept.bind fun _ _ _ => ?_
  refine Obeys.bind (obeys_exec trivial) fun _ _ _ => ?_
  refine obeys_require.bind fun _ _ _ => ?_
  refine obeys_select.bind fun _ _ _ => ?_
  refine obeys_okOr.bind fun _ _ _ => ?_
  exact obeys_audit_then

/-! ## Groups -/

theorem create_ip_group_obeys (payload : CreateIpGroupPayload) :
    Obeys ctx call v (create_ip_group ctx payload) v fun _ _ => True := by
  refine obeys_require.bind fun _ _ ⟨rfl, hc⟩ => ?_
  refine Obeys.bind (obeys_attempt ⟨hc, rfl⟩) fun inserted w ⟨hw, hins⟩ => ?_
  refine obeys_ofExcept.bind fun id _ ⟨rfl, hid⟩ => ?_
  have hfresh : v.next_uuid ≤ id := by
    subst hins
    simp only [Stmt.answer, Stmt.txn, Txn.insert_group, Txn.db_error] at hid
    split at hid
    · cases hid
    · cases hid
      exact le_rfl
  have provision : Obeys ctx call v (provision_creator ctx id) w fun _ _ => True := by
    unfold provision_creator
    split
    · trivial
    · rename_i hm
      have hm : ctx.key.is_master = false := by simpa using hm
      exact Obeys.imp (obeys_exec ⟨hm, rfl, hfresh⟩) fun _ _ _ => trivial
  exact provision.bind fun _ _ _ => obeys_audit_then

theorem delete_ip_group_obeys (id : Uuid) :
    Obeys ctx call v (delete_ip_group ctx id) v fun _ _ => True := by
  refine obeys_select.bind fun _ _ _ => ?_
  refine obeys_okOr.bind fun group _ _ => ?_
  refine obeys_ofExcept.bind fun _ _ _ => ?_
  refine Obeys.bind (obeys_exec trivial) fun _ _ _ => ?_
  refine obeys_require.bind fun _ _ _ => ?_
  exact obeys_audit_then

theorem reassign_group_owner_obeys (id : Uuid) (payload : ReassignOwnerPayload) :
    Obeys ctx call v (reassign_group_owner ctx id payload) v fun _ _ => True := by
  refine obeys_require.bind fun _ _ _ => ?_
  refine obeys_select.bind fun _ _ _ => ?_
  refine obeys_okOr.bind fun group _ _ => ?_
  refine (resolve_owner_assignment_obeys _).bind fun owner w howner => ?_
  have permitted : Permits ctx call v (.set_group_owner id owner) w := howner
  refine (obeys_exec permitted).bind fun _ _ _ => ?_
  refine obeys_require.bind fun _ _ _ => ?_
  exact obeys_audit_then

/-! ## Webhooks -/

theorem webhook_group_guard_only_reads (group_id : Uuid) :
    OnlyReads (webhook_group_guard ctx group_id) := by
  unfold webhook_group_guard
  split
  · trivial
  · exact .bind (.select _) fun _ => .require _ _

theorem update_group_guard_only_reads (target : WebhookConfig) (group_id : Option Uuid) :
    OnlyReads (update_group_guard ctx target group_id) := by
  unfold update_group_guard
  split
  · trivial
  · split
    · trivial
    · exact webhook_group_guard_only_reads _

theorem find_own_webhook_only_reads (id : Uuid) : OnlyReads (find_own_webhook ctx id) := by
  refine .bind (.require _ _) fun _ => ?_
  refine .bind (.select _) fun _ => ?_
  refine .bind (.okOr _ _) fun _ => ?_
  exact .bind (.require _ _) fun _ => trivial

/-- The webhook a request is about exists, and is the caller's. -/
theorem find_own_webhook_obeys (id : Uuid) :
    Obeys ctx call start (find_own_webhook ctx id) v fun h v' =>
      v = v' ∧ h ∈ v.webhooks ∧ h.id = id ∧ (ctx.key.is_master = true ∨
        ctx.key.can_manage_webhooks = true ∧ h.owner_key_id = some ctx.key.id) := by
  refine obeys_require.bind fun _ _ ⟨rfl, hmanages⟩ => ?_
  refine obeys_select.bind fun found _ ⟨rfl, hfound⟩ => ?_
  refine obeys_okOr.bind fun h _ ⟨rfl, hh⟩ => ?_
  refine obeys_require.bind fun _ _ ⟨rfl, howns⟩ => ?_
  obtain ⟨hmem, hid⟩ := Table.find?_eq_some.mp (hfound.symm.trans hh)
  refine ⟨rfl, hmem, hid, ?_⟩
  cases hm : ctx.key.is_master with
  | true => exact .inl rfl
  | false =>
      rw [hm] at hmanages howns
      exact .inr ⟨hmanages.resolve_left Bool.false_ne_true,
        howns.resolve_left Bool.false_ne_true⟩

theorem webhook_group_guard_obeys (group_id : Uuid) :
    Obeys ctx call start (webhook_group_guard ctx group_id) v fun _ v' =>
      v = v' ∧ MayWatch ctx group_id v.toWorld := by
  unfold webhook_group_guard
  split
  · rename_i hm
    exact ⟨rfl, .inl hm⟩
  · refine obeys_select.bind fun perm w hselect => ?_
    obtain ⟨hw, hperm⟩ := hselect
    subst hw
    refine obeys_require.imp fun _ w' hrequire => ?_
    obtain ⟨hw', hread⟩ := hrequire
    rw [hperm] at hread
    exact ⟨hw', .inr hread⟩

/-- A new group of a webhook is one the caller may watch. -/
theorem update_group_guard_obeys (target : WebhookConfig) (group_id : Option Uuid) :
    Obeys ctx call start (update_group_guard ctx target group_id) v fun _ v' =>
      v = v' ∧ ∀ g, group_id = some g → g ≠ target.group_id → MayWatch ctx g v.toWorld := by
  cases group_id with
  | none => exact ⟨rfl, fun g h => by cases h⟩
  | some gid =>
      unfold update_group_guard
      dsimp only
      split
      · rename_i hsame
        refine ⟨rfl, fun g h hne => ?_⟩
        cases h
        exact absurd hsame hne
      · refine (webhook_group_guard_obeys gid).imp fun _ w' hguard => ?_
        obtain ⟨hw', hwatch⟩ := hguard
        refine ⟨hw', fun g h _ => ?_⟩
        cases h
        exact hwatch

theorem create_webhook_obeys (payload : CreateWebhookPayload) :
    Obeys ctx (.create_webhook payload) v (create_webhook ctx payload) v fun _ _ => True := by
  refine obeys_require.bind fun _ _ _ => ?_
  refine (obeys_of_reads (webhook_group_guard_only_reads _)).bind fun _ _ _ => ?_
  refine obeys_ofExcept.bind fun _ _ _ => ?_
  refine obeys_ofExcept.bind fun _ _ _ => ?_
  refine obeys_ofExcept.bind fun mode _ _ => ?_
  refine obeys_ofExcept.bind fun _ w ⟨_, hvalid⟩ => ?_
  have permitted : Permits ctx (.create_webhook payload) v
      (.insert_webhook (new_webhook ctx payload mode)) w :=
    .inl ⟨payload, mode, rfl, rfl, hvalid⟩
  refine (obeys_exec permitted).bind fun _ _ _ => ?_
  exact obeys_audit_then

theorem update_webhook_obeys (id : Uuid) (payload : UpdateWebhookPayload) :
    Obeys ctx (.update_webhook id payload) v (update_webhook ctx id payload) v fun _ _ => True := by
  refine (find_own_webhook_obeys id).bind fun target _ ⟨rfl, htarget, hid, howner⟩ => ?_
  refine obeys_ofExcept.bind fun _ _ ⟨rfl, hurl⟩ => ?_
  refine obeys_ofExcept.bind fun _ _ ⟨rfl, hevents⟩ => ?_
  refine obeys_ofExcept.bind fun _ _ ⟨rfl, htemplate⟩ => ?_
  refine (update_group_guard_obeys target _).bind fun _ _ ⟨rfl, hgroup⟩ => ?_
  refine obeys_ofExcept.bind fun requested _ ⟨rfl, hrequested⟩ => ?_
  refine obeys_ofExcept.bind fun _ _ ⟨rfl, hvalid⟩ => ?_
  have admitted : UpdateAdmitted ctx id payload v.toWorld ⟨target, payload, requested⟩ :=
    ⟨htarget, hid, rfl, hrequested, howner, hurl, hevents, htemplate, hgroup, hvalid⟩
  have permitted : Permits ctx (.update_webhook id payload) v (.update_webhook id
      (WebhookEdit.change ⟨target, payload, requested⟩ ctx.entropy.signing_secret)) v :=
    ⟨rfl, payload, _, rfl, admitted, rfl⟩
  refine (obeys_exec permitted).bind fun _ _ _ => ?_
  exact obeys_audit_then

theorem clone_webhook_obeys (id : Uuid) (name : String) :
    Obeys ctx (.clone_webhook id name) v (clone_webhook ctx id name) v fun _ _ => True := by
  refine (find_own_webhook_obeys id).bind fun source _ ⟨rfl, hsource, hid, _⟩ => ?_
  refine (obeys_of_reads (webhook_group_guard_only_reads _)).bind fun _ _ hv => ?_
  subst hv
  refine obeys_require.bind fun _ _ ⟨rfl, hgate⟩ => ?_
  have hsecret : (if (AuthMode.from_stored source.auth_mode).requires_secret then
      some ctx.entropy.signing_secret else none).getD "" = clone_secret ctx source := by
    unfold clone_secret
    split <;> rfl
  refine Obeys.bind (obeys_exec ?_) fun _ _ _ => ?_
  · exact .inr ⟨id, name, rfl, source, hsource, hid, hgate, by rw [hsecret]⟩
  · exact obeys_audit_then

theorem delete_webhook_obeys (id : Uuid) :
    Obeys ctx call v (delete_webhook ctx id) v fun _ _ => True := by
  refine (obeys_of_reads (find_own_webhook_only_reads _)).bind fun _ _ _ => ?_
  refine Obeys.bind (obeys_exec trivial) fun _ _ _ => ?_
  refine obeys_require.bind fun _ _ _ => ?_
  exact obeys_audit_then

theorem reassign_webhook_owner_obeys (id : Uuid) (payload : ReassignOwnerPayload) :
    Obeys ctx call v (reassign_webhook_owner ctx id payload) v fun _ _ => True := by
  refine obeys_require.bind fun _ _ _ => ?_
  refine obeys_select.bind fun _ _ _ => ?_
  refine obeys_okOr.bind fun webhook _ _ => ?_
  refine (resolve_owner_assignment_obeys _).bind fun owner w howner => ?_
  have permitted : Permits ctx call v (.set_webhook_owner id owner) w := howner
  refine (obeys_exec permitted).bind fun _ _ _ => ?_
  refine obeys_require.bind fun _ _ _ => ?_
  exact obeys_audit_then

theorem test_webhook_obeys (id : Uuid) (delivery : TestDelivery) :
    Obeys ctx call v (test_webhook ctx id delivery) v fun _ _ => True := by
  have log : ∀ w, Obeys ctx call v (log_execution id delivery.logged) w fun _ _ => True := by
    intro w
    unfold log_execution
    split
    · trivial
    · exact Obeys.bind (obeys_attempt trivial) fun _ _ _ => trivial
  refine (obeys_of_reads (find_own_webhook_only_reads _)).bind fun target _ _ => ?_
  refine obeys_select.bind fun _ _ _ => ?_
  exact (log _).bind fun _ _ _ => obeys_audit_then

theorem delete_webhook_execution_obeys (id : Uuid) :
    Obeys ctx call v (delete_webhook_execution ctx id) v fun _ _ => True := by
  have guard : ∀ execution, OnlyReads (execution_guard ctx execution) := by
    intro execution
    unfold execution_guard
    split
    · trivial
    · exact .bind (.select _) fun _ => .require _ _
  refine obeys_require.bind fun _ _ _ => ?_
  refine obeys_select.bind fun _ _ _ => ?_
  refine obeys_okOr.bind fun execution _ _ => ?_
  refine (obeys_of_reads (guard _)).bind fun _ _ _ => ?_
  refine Obeys.bind (obeys_exec trivial) fun _ _ _ => ?_
  refine obeys_require.bind fun _ _ _ => ?_
  exact obeys_audit_then

end IpVault
