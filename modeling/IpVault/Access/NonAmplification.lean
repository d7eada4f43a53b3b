import IpVault.Access.Records

set_option autoImplicit false

/-! # Ordinary keys do not amplify

However ordinary keys collude, no key comes to hold a global scope it did not hold, nor a verb on
an old group that neither it nor one of the colluding keys held there; on the groups they create
nobody manages permissions. The invariant is `Bounded`; each admitted write keeps it.
-/

namespace IpVault

open Lib

/-! ## Scopes and verbs -/

/-- The global scopes. -/
inductive Scope where
  | can_manage_keys
  | can_create_groups
  | can_manage_webhooks

/-- Whether a key holds a scope. -/
def ApiKey.holds (k : ApiKey) : Scope → Bool
  | .can_manage_keys => k.can_manage_keys
  | .can_create_groups => k.can_create_groups
  | .can_manage_webhooks => k.can_manage_webhooks

/-- The four verbs of a permission row. -/
inductive Verb where
  | read
  | write
  | delete
  | manage
  deriving DecidableEq

/-- Whether a permission row grants a verb. -/
def GroupPermission.grants (p : GroupPermission) : Verb → Bool
  | .read => p.can_read
  | .write => p.can_write
  | .delete => p.can_delete
  | .manage => p.can_manage

/-- Whether a requested row would. -/
def GroupPermInput.grants (p : GroupPermInput) : Verb → Bool
  | .read => p.can_read
  | .write => p.can_write
  | .delete => p.can_delete
  | .manage => p.can_manage

theorem grants_of_not_exceeds {requested : GroupPermInput} {held : GroupPermission}
    (h : exceeds requested held = false) {verb : Verb} (hv : requested.grants verb = true) :
    held.grants verb = true := by
  obtain ⟨hr, hw, hd, hm⟩ := held_of_not_exceeds h
  cases verb with
  | read => exact hr hv
  | write => exact hw hv
  | delete => exact hd hv
  | manage => exact hm hv

/-- Every verb of an admitted permission request is held by the target or by the caller. -/
theorem grants_of_guard {caller : ApiKey} {caller_perm target_perm : Option GroupPermission}
    {name : String} {payload : GroupPermInput} (hm : caller.is_master = false)
    (h : guard_permission_change caller caller_perm target_perm name payload = .ok ())
    {verb : Verb} (hv : payload.grants verb = true) :
    ∃ held, (target_perm = some held ∨ caller_perm = some held) ∧ held.grants verb = true := by
  unfold guard_permission_change at h
  split at h
  · obtain ⟨held, hheld, -, hex⟩ := guard_delegated_group_grant_ok h hm
    exact ⟨held, .inr hheld, grants_of_not_exceeds hex hv⟩
  · rename_i hw
    unfold widens_permissions at hw
    cases ht : target_perm with
    | none => simp [ht] at hw
    | some held =>
        rw [ht] at hw
        exact ⟨held, .inl rfl, grants_of_not_exceeds (by simpa using hw) hv⟩

/-- A scope that is set after a change was set before, if the change sets no scope that was
not. -/
theorem held_of_getD {request : Option Bool} {current : Bool}
    (h : request.getD current = true) (hr : request = some true → current = true) :
    current = true := by
  cases request with
  | none => exact h
  | some b => exact hr (congrArg some h)

/-! ## The invariant -/

/-- What `acting` keys can have brought about from the store `start`. -/
structure Bounded (acting : Uuid → Prop) (start v : World) : Prop where
  scopes : ∀ k ∈ v.keys, ∀ scope, k.holds scope = true →
    ∃ k₀ ∈ start.keys, k₀.id = k.id ∧ k₀.holds scope = true
  verbs : ∀ p ∈ v.permissions, p.group_id < start.next_uuid → ∀ verb, p.grants verb = true →
    ∃ p₀ ∈ start.permissions, p₀.group_id = p.group_id ∧ p₀.grants verb = true ∧
      (p₀.api_key_id = p.api_key_id ∨ acting p₀.api_key_id)
  unmanaged : ∀ p ∈ v.permissions, start.next_uuid ≤ p.group_id → p.can_manage = false
  groups : ∀ g ∈ v.groups, start.groups.has g.id = true ∨ start.next_uuid ≤ g.id
  counter : start.next_uuid ≤ v.next_uuid

theorem Bounded.init (acting : Uuid → Prop) (v : Vault) : Bounded acting v.toWorld v.toWorld where
  scopes k hk _ h := ⟨k, hk, rfl, h⟩
  verbs p hp _ _ h := ⟨p, hp, rfl, h, .inl rfl⟩
  unmanaged _ hp hge := absurd (v.wf.no_permission_on_new_group hp) (Nat.not_lt.mpr hge)
  groups g hg := .inl (Table.has_iff.mpr ⟨g, hg, rfl⟩)
  counter := le_rfl

namespace Bounded

variable {acting : Uuid → Prop} {start : World} {ctx : Ctx} {call : Call} {s v : Vault} {l : Stmt}

/-- No admitted write gives a key a scope it does not have. -/
theorem scopes_after (h : Bounded acting start v.toWorld) (hm : ctx.key.is_master = false)
    (hl : Permits ctx call s l v) : ∀ k ∈ (l.after v.toWorld).keys, ∀ scope, k.holds scope = true →
      ∃ k₀ ∈ start.keys, k₀.id = k.id ∧ k₀.holds scope = true := by
  intro k hk scope hs
  rcases Stmt.mem_keys_after hk with hk | ⟨k₀, rfl, rfl⟩ | ⟨id, c, k₀, rfl, hk₀, hid, rfl⟩
  · exact h.scopes k hk scope hs
  · -- A new key: every requested scope is refused to an ordinary caller.
    obtain ⟨payload, stored, rfl, hscope, -⟩ := hl
    obtain ⟨hkeys, hgroups, hwebhooks⟩ := guard_scope_elevation_ok hscope hm
    have hnone : false = true := by
      cases scope with
      | can_manage_keys => exact held_of_getD hs hkeys
      | can_create_groups => exact held_of_getD hs hgroups
      | can_manage_webhooks => exact held_of_getD hs hwebhooks
    cases hnone
  · -- An update: a scope it sets is one the row it meets already has.
    obtain ⟨target, htarget, htid, -, hchange⟩ := hl
    obtain rfl : target = k₀ := Table.eq_of_key htarget hk₀ (htid.trans hid.symm)
    have hheld : target.holds scope = true := by
      rcases hchange with ⟨payload, rfl, -, hscope, -⟩ | ⟨-, -, -, hkeys, hwebhooks, hgroups⟩
      · obtain ⟨hkeys, hgroups, hwebhooks⟩ := guard_scope_elevation_ok hscope hm
        cases scope with
        | can_manage_keys => exact held_of_getD hs hkeys
        | can_create_groups => exact held_of_getD hs hgroups
        | can_manage_webhooks => exact held_of_getD hs hwebhooks
      · cases scope with
        | can_manage_keys => simpa [ApiKey.holds, Txn.KeyChange.apply, hkeys] using hs
        | can_create_groups => simpa [ApiKey.holds, Txn.KeyChange.apply, hgroups] using hs
        | can_manage_webhooks => simpa [ApiKey.holds, Txn.KeyChange.apply, hwebhooks] using hs
    exact h.scopes target htarget scope hheld

/-- The verbs of an admitted grant are held in the store it meets, by the target or the
caller. -/
theorem grants_of_upsert {p : GroupPermission} (hm : ctx.key.is_master = false)
    (hl : Permits.upsert_permission ctx p v) {verb : Verb} (hv : p.grants verb = true) :
    ∃ held ∈ v.permissions, held.group_id = p.group_id ∧ held.grants verb = true ∧
      (held.api_key_id = p.api_key_id ∨ held.api_key_id = ctx.key.id) := by
  obtain ⟨-, -, payload, name, hrow, hguard⟩ := hl
  have hpay : payload.grants verb = true := by
    rw [hrow] at hv
    cases verb <;> exact hv
  obtain ⟨held, hheld, hgrant⟩ := grants_of_guard hm hguard hpay
  rcases hheld with hheld | hheld
  · obtain ⟨hmem, hkey, hgroup⟩ := World.permission_eq_some.mp hheld
    exact ⟨held, hmem, hgroup, hgrant, .inl hkey⟩
  · obtain ⟨hmem, hkey, hgroup⟩ := World.permission_eq_some.mp hheld
    exact ⟨held, hmem, hgroup, hgrant, .inr hkey⟩

/-- A row after an admitted write is an old one, the row of a creator on a group of this
request, or one with the key, the group and the verbs of an admitted grant. -/
theorem permission_cases (hl : Permits ctx call s l v) {p : GroupPermission}
    (hp : p ∈ (l.after v.toWorld).permissions) :
    p ∈ v.permissions ∨ Permits.creator_row ctx s p ∨
      ∃ q, Permits.upsert_permission ctx q v ∧ p.api_key_id = q.api_key_id ∧
        p.group_id = q.group_id ∧ ∀ verb, p.grants verb = q.grants verb := by
  rcases Stmt.mem_permissions_after hp with hp | rfl | rfl | ⟨q, rfl, rfl | ⟨p₀, -, hkey, rfl⟩⟩
  · exact .inl hp
  · exact .inr (.inl hl)
  · exact .inr (.inl hl)
  · exact .inr (.inr ⟨p, hl, rfl, rfl, fun _ => rfl⟩)
  · obtain ⟨hk, hg⟩ := Prod.mk.inj hkey
    exact .inr (.inr ⟨q, hl, hk, hg, fun verb => by cases verb <;> rfl⟩)

/-- No admitted write grants a verb on an old group that the target or an acting key did not
have at the start. -/
theorem verbs_after (h : Bounded acting start v.toWorld) (hm : ctx.key.is_master = false)
    (hact : acting ctx.key.id) (hs : start.next_uuid ≤ s.next_uuid) (hl : Permits ctx call s l v) :
    ∀ p ∈ (l.after v.toWorld).permissions, p.group_id < start.next_uuid → ∀ verb,
      p.grants verb = true → ∃ p₀ ∈ start.permissions, p₀.group_id = p.group_id ∧
        p₀.grants verb = true ∧ (p₀.api_key_id = p.api_key_id ∨ acting p₀.api_key_id) := by
  intro p hp hold verb hv
  rcases permission_cases hl hp with hp | ⟨-, -, hnew⟩ | ⟨q, hq, hkey, hgroup, hverbs⟩
  · exact h.verbs p hp hold verb hv
  · exact absurd hold (Nat.not_lt.mpr (hs.trans hnew))
  · rw [hverbs] at hv
    obtain ⟨held, hheld, hg, hgrant, hwho⟩ := grants_of_upsert hm hq hv
    obtain ⟨p₀, hp₀, hg₀, hgrant₀, hwho₀⟩ := h.verbs held hheld (by rwa [hg, ← hgroup]) verb hgrant
    refine ⟨p₀, hp₀, hg₀.trans (hg.trans hgroup.symm), hgrant₀, ?_⟩
    rcases hwho₀ with e | hact₀
    · rcases hwho with e' | e'
      · exact .inl (e.trans (e'.trans hkey.symm))
      · exact .inr (by rwa [e, e'])
    · exact .inr hact₀

/-- No admitted write lets anybody manage a group of the run. -/
theorem unmanaged_after (h : Bounded acting start v.toWorld) (hm : ctx.key.is_master = false)
    (hl : Permits ctx call s l v) : ∀ p ∈ (l.after v.toWorld).permissions,
      start.next_uuid ≤ p.group_id → p.can_manage = false := by
  intro p hp hnew
  rcases permission_cases hl hp with hp | ⟨-, hrow, -⟩ | ⟨q, hq, -, hgroup, hverbs⟩
  · exact h.unmanaged p hp hnew
  · rw [hrow]
    rfl
  · by_contra hman
    have hv : q.grants .manage = true := by
      rw [← hverbs]
      simpa [GroupPermission.grants] using hman
    obtain ⟨held, hheld, hg, hgrant, -⟩ := grants_of_upsert hm hq hv
    have := h.unmanaged held hheld (by rwa [hg, ← hgroup])
    rw [GroupPermission.grants, this] at hgrant
    cases hgrant

/-- A group after a write is an old one or has a new identifier. -/
theorem groups_after (h : Bounded acting start v.toWorld) : ∀ g ∈ (l.after v.toWorld).groups,
    start.groups.has g.id = true ∨ start.next_uuid ≤ g.id := by
  intro g hg
  rcases Stmt.mem_groups_after hg with hg | ⟨g₀, -, rfl⟩ | ⟨id, owner, g₀, -, hg₀, -, rfl⟩
  · exact h.groups g hg
  · exact .inr h.counter
  · exact h.groups g₀ hg₀

/-- **Step.** Every admitted write of an ordinary, acting key keeps the invariant. -/
theorem step (h : Bounded acting start v.toWorld) (hm : ctx.key.is_master = false)
    (hact : acting ctx.key.id) (hs : start.next_uuid ≤ s.next_uuid) (hl : Permits ctx call s l v) :
    Bounded acting start (v.after l).toWorld where
  scopes := h.scopes_after hm hl
  verbs := h.verbs_after hm hact hs hl
  unmanaged := h.unmanaged_after hm hl
  groups := h.groups_after
  counter := h.counter.trans (l.frame v.toWorld).next_uuid

/-- One request of an ordinary, acting key keeps the invariant. -/
theorem handle {S : Service} {req : Request} (h : Bounded acting start v.toWorld)
    (hm : S.NonMaster req v) (hact : acting req.key_id) :
    Bounded acting start (S.handle req v).2.toWorld := by
  refine S.handle_keeps req v (I := fun w => Bounded acting start w.toWorld) h
    fun key hkey hid l w hl hw => ?_
  have hord : (S.ctx req key).key.is_master = false := hm key (hid ▸ Table.find?_key hkey)
  exact hw.step hord (by rwa [← hid] at hact) h.counter hl

end Bounded

/-! ## The rows a request writes -/

/-- The permission row a statement writes. -/
def Stmt.permission_row : Stmt → Option GroupPermission
  | .insert_permission p | .insert_permission_or_ignore p | .upsert_permission p => some p
  | _ => none

/-- **Coherence.** Every permission row a request writes has read if it has write or delete. -/
theorem issued_rows_coherent (S : Service) (req : Request) (v : Vault) :
    ∀ l ∈ (S.serve req).issued database v, ∀ p, l.permission_row = some p → p.coherent := by
  intro l hl p hp
  obtain ⟨w, h⟩ := (serve_meets S req v).issued l hl
  rcases h with ⟨q, rfl⟩ | ⟨key, -, -, h⟩
  · cases hp
  · cases l with
    | insert_permission q | insert_permission_or_ignore q =>
        cases hp
        obtain ⟨-, hrow, -⟩ := h
        rw [hrow]
        exact fun _ => rfl
    | upsert_permission q =>
        cases hp
        exact h.1
    | _ => cases hp

/-! ## Runs -/

/-- **Non-amplification.** In every run of requests by ordinary keys, from any store: no key gains
a global scope; a verb on a group of the start is held by a key only if that key, or a key acting
in the run, held it there at the start; the rows on groups created in the run have no
`can_manage`; and every permission row a request writes is coherent. -/
theorem non_amplification (S : Service) (run : List Request) (v : Vault)
    (ordinary : Along S.handle S.NonMaster run v) :
    (∀ k ∈ (final S.handle run v).keys, ∀ scope, k.holds scope = true →
      ∃ k₀ ∈ v.keys, k₀.id = k.id ∧ k₀.holds scope = true) ∧
    (∀ p ∈ (final S.handle run v).permissions, v.groups.has p.group_id = true → ∀ verb,
      p.grants verb = true → ∃ p₀ ∈ v.permissions, p₀.group_id = p.group_id ∧
        p₀.grants verb = true ∧
        (p₀.api_key_id = p.api_key_id ∨ ∃ req ∈ run, req.key_id = p₀.api_key_id)) ∧
    (∀ p ∈ (final S.handle run v).permissions, v.groups.has p.group_id = false →
      p.can_manage = false) ∧
    Along S.handle (fun req w => ∀ l ∈ (S.serve req).issued database w, ∀ p,
      l.permission_row = some p → p.coherent) run v := by
  let acting : Uuid → Prop := fun id => ∃ req ∈ run, req.key_id = id
  have acts : Along S.handle (fun req w => S.NonMaster req w ∧ acting req.key_id) run v :=
    ordinary.and_mem.mono fun req w h => ⟨h.1, req, h.2, rfl⟩
  have bounded : Bounded acting v.toWorld (final S.handle run v).toWorld :=
    acts.keeps (I := fun w => Bounded acting v.toWorld w.toWorld) (Bounded.init acting v)
      fun req w ⟨hm, hact⟩ hw => hw.handle hm hact
  refine ⟨bounded.scopes, fun p hp hold => ?_, fun p hp hnew => ?_,
    .of_forall run v fun req _ w => issued_rows_coherent S req w⟩
  · obtain ⟨g, hg, hid⟩ := Table.has_iff.mp hold
    exact bounded.verbs p hp (hid ▸ v.wf.group_fresh g hg)
  · obtain ⟨g, hg, hid⟩ := Table.has_iff.mp ((final S.handle run v).wf.permission_group p hp)
    rcases bounded.groups g hg with hold | hge
    · rw [hid, hnew] at hold
      cases hold
    · exact bounded.unmanaged p hp (hid ▸ hge)

/-- The sensor creates a group, and does not manage it. -/
theorem non_amplification_new_group :
    let run := [Request.sample 1 7 (.create_ip_group ⟨"new", none⟩)]
    ∀ p ∈ (final Service.sample.handle run .sample).permissions,
      Vault.sample.groups.has p.group_id = false → p.can_manage = false :=
  (non_amplification .sample _ .sample (by decide)).2.2.1

example : (final Service.sample.handle [Request.sample 1 7 (.create_ip_group ⟨"new", none⟩)]
    .sample).permissions.rows.map (fun p => (p.api_key_id, p.group_id)) = [(1, 2), (1, 3)] := by
  decide

end IpVault
