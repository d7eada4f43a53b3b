import IpVault.Access.Concurrent
import IpVault.Access.Records

set_option autoImplicit false

/-! # A group that several requests create

Bans, whitelistings and batches create the group they name if they find none. Looking for it, the
insert that tolerates a conflict and reading the row back are statements of their own, so that
several requests may see the group absent. One of them creates it, and its key is the owner from
then on. `WinnersOnly` is the rule for the others; `Uncontested` says of a turn that its insert is
not one that comes too late.
-/

namespace IpVault

open Lib

/-! ## The rule -/

/-- The group a statement puts addresses into. -/
def Stmt.fills : Stmt → Option Uuid
  | .upsert_txn t => some t.target_group_id
  | .batch_txn t => some t.group.id
  | _ => none

/-- The same for a ban or a whitelisting, and which of the two it is. -/
def Stmt.files : Stmt → Option (Uuid × Bool)
  | .upsert_txn t => some (t.target_group_id, t.is_whitelist)
  | _ => none

/-- A ban, a whitelisting or a batch. -/
def Call.fills : Call → Bool
  | .handle_ban _ | .handle_white _ | .batch_records _ => true
  | _ => false

def Call.is_batch : Call → Bool
  | .batch_records _ => true
  | _ => false

/-- A request that takes part in the race. -/
def Authenticated.races (r : Authenticated) : Prop :=
  r.ctx.key.is_master = false ∧ r.call.fills = true

/-- What one statement of the key does: groups stay as they are, and a new one is the key's own; a
new permission row is one of a group's creator; addresses go into a group that the key has created,
or on which it has read that it may write; and a ban or a whitelisting goes into no group of the
other type. -/
structure WinnersOnly (key_id : Uuid) (past : Past Db) (l : Stmt) (w : World) : Prop where
  kept : ∀ g ∈ w.groups, g ∈ (l.after w).groups
  created : ∀ g ∈ (l.after w).groups, g ∈ w.groups ∨ g.owner_key_id = some key_id
  rows : ∀ p ∈ (l.after w).permissions, p ∈ w.permissions ∨
    ∃ g ∈ w.groups, g.id = p.group_id ∧ g.owner_key_id = some p.api_key_id
  writes : ∀ group_id, l.fills = some group_id → ∃ g ∈ w.groups, g.id = group_id ∧
    (g.owner_key_id = some key_id ∨
      ∃ p, Saw past (.permission key_id group_id) (some p) ∧ p.can_write = true)
  types : ∀ group_id is_whitelist, l.files = some (group_id, is_whitelist) →
    ∃ g ∈ w.groups, g.id = group_id ∧ g.group_type ≠ default_group_type (!is_whitelist)

/-- A group that the request is about to insert is not there, or it is one of the same creator and,
but for a batch, of the same type. -/
def Uncontested (call : Call) : Stmt → World → Prop
  | .insert_group_or_ignore g₀, w => ∀ g ∈ w.groups, g.name = g₀.name →
      g.owner_key_id = g₀.owner_key_id ∧ (call.is_batch = true ∨ g.group_type = g₀.group_type)
  | _, _ => True

/-! ## One statement -/

namespace WinnersOnly

variable {key_id : Uuid} {past : Past Db} {w : World}

/-- A statement that touches neither groups nor permissions, and no address. -/
theorem of_frame (l : Stmt) (hg : l.writes_groups = false) (hp : l.writes_permissions = false)
    (hfills : l.fills = none) (hfiles : l.files = none) : WinnersOnly key_id past l w where
  kept g h := ((l.frame w).groups hg).symm ▸ h
  created g h := .inl ((l.frame w).groups hg ▸ h)
  rows p h := .inl ((l.frame w).permissions hp ▸ h)
  writes _ h := by cases hfills.symm.trans h
  types _ _ h := by cases hfiles.symm.trans h

/-- The insert of a group. -/
theorem insert_group {g₀ : IpGroup} (howner : g₀.owner_key_id = some key_id) :
    WinnersOnly key_id past (.insert_group_or_ignore g₀) w where
  kept g h := by
    unfold Stmt.after
    simp only [Stmt.txn, Txn.insert_group_or_ignore]
    split
    · rename_i heq
      split at heq
      · cases heq
        exact h
      · cases heq
        exact Table.mem_insert_of_mem h
    · exact h
  created g h := by
    rcases Stmt.mem_groups_after h with hold | ⟨g₁, hl | hl, rfl⟩ | ⟨_, _, _, hl, -⟩
    · exact .inl hold
    · cases hl
    · cases hl
      exact .inr howner
    · cases hl
  rows p h := by
    rw [((Stmt.insert_group_or_ignore g₀).frame w).permissions rfl] at h
    exact .inl h
  writes _ h := by cases h
  types _ _ h := by cases h

/-- The row of a creator. -/
theorem insert_permission {p : GroupPermission} {g : IpGroup} (hg : g ∈ w.groups)
    (hid : g.id = p.group_id) (howner : g.owner_key_id = some p.api_key_id) :
    WinnersOnly key_id past (.insert_permission_or_ignore p) w where
  kept g h := ((Stmt.insert_permission_or_ignore p).frame w).groups rfl ▸ h
  created g h := .inl (((Stmt.insert_permission_or_ignore p).frame w).groups rfl ▸ h)
  rows q h := by
    rcases Stmt.mem_permissions_after h with hold | hl | hl | ⟨_, hl, -⟩
    · exact .inl hold
    · cases hl
    · cases hl
      exact .inr ⟨g, hg, hid, howner⟩
    · cases hl
  writes _ h := by cases h
  types _ _ h := by cases h

end WinnersOnly

/-- What a request knows of the group it fills: it has created it, or it has read that it may. -/
def MayFill (key_id : Uuid) (past : Past Db) (g : IpGroup) : Prop :=
  g.owner_key_id = some key_id ∨
    ∃ p, Saw past (.permission key_id g.id) (some p) ∧ p.can_write = true

namespace WinnersOnly

variable {key_id : Uuid} {past : Past Db} {w : World} {g : IpGroup}

theorem upsert {t : UpsertTxn} (hg : g ∈ w.groups) (hid : g.id = t.target_group_id)
    (hmay : MayFill key_id past g) (htype : g.group_type ≠ default_group_type (!t.is_whitelist)) :
    WinnersOnly key_id past (.upsert_txn t) w where
  kept g h := ((Stmt.upsert_txn t).frame w).groups rfl ▸ h
  created g h := .inl (((Stmt.upsert_txn t).frame w).groups rfl ▸ h)
  rows p h := .inl (((Stmt.upsert_txn t).frame w).permissions rfl ▸ h)
  writes group_id h := by
    obtain rfl := Option.some.inj h
    refine ⟨g, hg, hid, ?_⟩
    rw [← hid]
    exact hmay
  types group_id is_whitelist h := by
    obtain ⟨rfl, rfl⟩ := Prod.mk.inj (Option.some.inj h)
    exact ⟨g, hg, hid, htype⟩

theorem batch {t : BatchTxn} (hg : g ∈ w.groups) (hid : g.id = t.group.id)
    (hmay : MayFill key_id past g) : WinnersOnly key_id past (.batch_txn t) w where
  kept g h := ((Stmt.batch_txn t).frame w).groups rfl ▸ h
  created g h := .inl (((Stmt.batch_txn t).frame w).groups rfl ▸ h)
  rows p h := .inl (((Stmt.batch_txn t).frame w).permissions rfl ▸ h)
  writes group_id h := by
    obtain rfl := Option.some.inj h
    refine ⟨g, hg, hid, ?_⟩
    rw [← hid]
    exact hmay
  types _ _ h := by cases h

end WinnersOnly

/-! ## The requests

Each is judged among others that leave the groups as they are. -/

/-- No group goes, and none changes. -/
def GroupsKept (s t : Vault) : Prop := ∀ g ∈ s.groups, g ∈ t.groups

theorem GroupsKept.refl (s : Vault) : GroupsKept s s := fun _ h => h

theorem GroupsKept.trans (s t u : Vault) (h : GroupsKept s t) (h' : GroupsKept t u) :
    GroupsKept s u := fun g hg => h' g (h g hg)

/-- After the insert of a group, whether it was there or not. -/
theorem named_after_insert (g₀ : IpGroup) (v : Vault) :
    (∃ g ∈ v.groups, g.name = g₀.name ∧ g ∈ (v.after (.insert_group_or_ignore g₀)).groups) ∨
      { g₀ with id := v.next_uuid } ∈ (v.after (.insert_group_or_ignore g₀)).groups := by
  cases hfound : v.group_named g₀.name with
  | some g =>
      obtain ⟨hg, hname⟩ := World.mem_of_group_named hfound
      rw [Vault.after_toWorld, after_insert_group_or_ignore, hfound]
      exact .inl ⟨g, hg, hname, hg⟩
  | none => exact .inr (World.mem_of_group_named (group_named_after_insert v hfound)).1

section Judgement

variable {rounds : Nat} {ctx : Ctx} {call : Call} {past : Past Db} {s : Vault} {α β : Type}

/-- The judgement of a request in the race. -/
abbrev Racing (rounds : Nat) (ctx : Ctx) (call : Call) (Q : α → Past Db → Vault → Prop)
    (past : Past Db) (p : Handler α) (s : Vault) : Prop :=
  Prog.Recalls (concurrent_database rounds) GroupsKept
    (fun o t => Uncontested call o.1 t.toWorld)
    (fun o t => WinnersOnly ctx.key.id o.2 o.1 t.toWorld) Q (fun _ _ => True) past p s

theorem Racing.bind {Q : β → Past Db → Vault → Prop} {Q' : α → Past Db → Vault → Prop}
    {p : Handler β} {f : β → Handler α} (h : Racing rounds ctx call Q past p s)
    (hf : ∀ b past' t, Q b past' t → Racing rounds ctx call Q' past' (f b) t) :
    Racing rounds ctx call Q' past (p >>= f) s :=
  Prog.Recalls.bind GroupsKept.refl (h.mono (fun _ _ hg => hg) hf fun _ _ he => he)

theorem Racing.imp {Q Q' : α → Past Db → Vault → Prop} {p : Handler α}
    (h : Racing rounds ctx call Q past p s) (hQ : ∀ a past' t, Q a past' t → Q' a past' t) :
    Racing rounds ctx call Q' past p s :=
  h.mono (fun _ _ hg => hg) hQ fun _ _ he => he

theorem racing_require {c : Prop} [Decidable c] {e : AppError} :
    Racing rounds ctx call (fun _ past' t => past = past' ∧ GroupsKept s t ∧ c) past
      (Prog.require c e) s :=
  .require (fun hc _ ht => ⟨rfl, ht, hc⟩) fun _ _ _ => trivial

theorem racing_ofExcept {x : Except AppError α} :
    Racing rounds ctx call (fun a past' t => past = past' ∧ GroupsKept s t ∧ x = .ok a) past
      (Prog.ofExcept x) s :=
  .ofExcept (fun _ hx _ ht => ⟨rfl, ht, hx⟩) fun _ _ _ _ => trivial

theorem racing_okOr {x : Option α} {e : AppError} :
    Racing rounds ctx call (fun a past' t => past = past' ∧ GroupsKept s t ∧ x = some a) past
      (Prog.okOr e x) s :=
  .okOr (fun _ hx _ ht => ⟨rfl, ht, hx⟩) fun _ _ _ => trivial

/-- One query, answered in some store in between. -/
theorem racing_select {q : Query} :
    Racing rounds ctx call (fun a past' t => past <+: past' ∧ Saw past' q a ∧ GroupsKept s t ∧
      ∃ m, GroupsKept s m ∧ GroupsKept m t ∧
        (concurrent_database rounds).answer (.query q) m = .ok a) past (select q) s :=
  recalls_select GroupsKept.refl GroupsKept.trans
    (fun _ _ => .of_frame _ rfl rfl rfl rfl)
    (fun t a ht _ hanswer => ⟨List.prefix_append _ _, saw_append past q a, ht, t, ht, .refl t,
      hanswer⟩)
    fun _ _ _ _ htu ⟨hpast, hsaw, hst, m, hsm, hmt, hanswer⟩ =>
      ⟨hpast, hsaw, hst.trans _ _ _ htu, m, hsm, hmt.trans _ _ _ htu, hanswer⟩

/-- One statement. -/
theorem racing_exec {l : Stmt}
    (h : ∀ t : Vault, GroupsKept s t → Uncontested call l t.toWorld →
      WinnersOnly ctx.key.id past l t.toWorld) :
    Racing rounds ctx call (fun _ past' t => past <+: past' ∧ ∃ m, GroupsKept s m ∧
      Uncontested call l m.toWorld ∧ GroupsKept (m.after l) t) past (exec l) s :=
  recalls_exec GroupsKept.refl GroupsKept.trans (fun t ht ha => h t ht ha)
    (fun t _ ht ha _ _ hu => ⟨List.prefix_append _ _, t, ht, ha, hu⟩) fun _ _ _ _ _ _ => trivial

/-- A group that is found is there. -/
theorem resolve_group_ref_racing (group_id : Option Uuid) (group_name : Option String) :
    Racing rounds ctx call (fun found past' t => past <+: past' ∧ ∀ g, found = some g →
      g ∈ t.groups) past (resolve_group_ref group_id group_name) s := by
  unfold resolve_group_ref
  split
  · exact fun _ _ => trivial
  · exact fun _ _ => trivial
  · rename_i gid
    have hread := @racing_select rounds ctx call past s (.group_by_id gid)
    refine hread.imp fun found past' t ht => ?_
    obtain ⟨hpast, -, -, m, -, hmt, hanswer⟩ := ht
    refine ⟨hpast, fun g hg => hmt g ?_⟩
    subst hg
    exact (Table.find?_eq_some.mp (Except.ok.inj hanswer)).1
  · rename_i name
    have hread := @racing_select rounds ctx call past s (.group_by_name name)
    refine hread.imp fun found past' t ht => ?_
    obtain ⟨hpast, -, -, m, -, hmt, hanswer⟩ := ht
    refine ⟨hpast, fun g hg => hmt g ?_⟩
    subst hg
    exact (World.mem_of_group_named (Except.ok.inj hanswer)).1

/-- Who passes the check on a group that exists has read that it may write. -/
theorem can_write_of_guard {perm : Option GroupPermission} (h : guard_can_write perm = .ok ()) :
    ∃ p, perm = some p ∧ p.can_write = true := by
  unfold guard_can_write at h
  split at h
  · cases h
  · rename_i p
    split at h
    · rename_i hcan
      exact ⟨p, rfl, hcan⟩
    · cases h

/-- A group of the other type is refused. -/
theorem type_of_guard {is_whitelist : Bool} {g : IpGroup}
    (h : guard_group_type is_whitelist g = .ok ()) :
    g.group_type ≠ default_group_type (!is_whitelist) := by
  intro htype
  unfold guard_group_type at h
  cases is_whitelist with
  | true =>
      have hban : g.group_type = "banlist" := htype
      rw [hban] at h
      cases h
  | false =>
      have hwhite : g.group_type = "whitelist" := htype
      rw [hwhite] at h
      cases h

/-- A guard that asks for the right to write has seen the row that gives it. -/
theorem row_guard_racing (hm : ctx.key.is_master = false)
    {check : Option GroupPermission → Except AppError Unit}
    (hcheck : ∀ {perm}, check perm = .ok () → ∃ p, perm = some p ∧ p.can_write = true)
    (g : IpGroup) :
    Racing rounds ctx call (fun _ past' t => GroupsKept s t ∧ MayFill ctx.key.id past' g) past
      (row_guard ctx check g.id) s := by
  unfold row_guard
  rw [if_neg (by rw [hm]; exact Bool.false_ne_true)]
  refine racing_select.bind fun perm past₁ t₁ h₁ => ?_
  obtain ⟨-, hsaw, hkept, -⟩ := h₁
  refine racing_ofExcept.imp fun _ past₂ t₂ h₂ => ?_
  obtain ⟨rfl, hkept', hguard⟩ := h₂
  obtain ⟨p, rfl, hcan⟩ := hcheck hguard
  exact ⟨hkept.trans _ _ _ hkept', .inr ⟨p, hsaw, hcan⟩⟩

/-- A group that exists. -/
theorem upsert_existing_group_racing (hm : ctx.key.is_master = false) (is_whitelist : Bool)
    {g : IpGroup} (hg : g ∈ s.groups) :
    Racing rounds ctx call (fun g' past' t => g' ∈ t.groups ∧ MayFill ctx.key.id past' g' ∧
      g'.group_type ≠ default_group_type (!is_whitelist)) past
      (upsert_existing_group ctx is_whitelist g) s := by
  have hguard : Racing rounds ctx call (fun _ past' t => GroupsKept s t ∧
      MayFill ctx.key.id past' g) past (upsert_guard ctx g.id) s :=
    row_guard_racing hm can_write_of_guard g
  refine hguard.bind fun _ past₁ t₁ ⟨hkept, hmay⟩ => ?_
  refine racing_ofExcept.bind fun _ past₂ t₂ ⟨hpast, hkept', htype⟩ => ?_
  subst hpast
  exact fun u hu => ⟨hu g (hkept' g (hkept g hg)), hmay, type_of_guard htype⟩

/-- A group the request creates, or finds created by its own key. -/
theorem get_or_create_group_racing (hm : ctx.key.is_master = false) (name group_type : String) :
    Racing rounds ctx call (fun g _ t => g ∈ t.groups ∧ g.owner_key_id = some ctx.key.id ∧
      (call.is_batch = true ∨ g.group_type = group_type)) past
      (get_or_create_group ctx name group_type (resource_owner ctx.key)) s := by
  have howner : resource_owner ctx.key = some ctx.key.id := by
    unfold resource_owner
    rw [hm]
    rfl
  rw [howner]
  refine (racing_exec fun t _ _ => .insert_group rfl).bind fun _ past₁ t₁ h₁ => ?_
  obtain ⟨-, m, -, hfree, hkept⟩ := h₁
  -- After the insert the name is taken, by a group as the request wants it.
  have hnamed : ∃ g ∈ t₁.groups, g.name = name ∧ g.owner_key_id = some ctx.key.id ∧
      (call.is_batch = true ∨ g.group_type = group_type) := by
    rcases named_after_insert (new_group name group_type (some ctx.key.id) ctx.now) m with
      ⟨g, hg, hname, hafter⟩ | hafter
    · exact ⟨g, hkept g hafter, hname, hfree g hg hname⟩
    · exact ⟨_, hkept _ hafter, rfl, rfl, .inr rfl⟩
  obtain ⟨g, hg, hname, hwanted⟩ := hnamed
  refine racing_select.bind fun found past₂ t₂ h₂ => ?_
  obtain ⟨-, -, -, m₂, hm₂, hmt₂, hanswer⟩ := h₂
  refine racing_okOr.imp fun g' past₃ t₃ h₃ => ?_
  obtain ⟨-, hkept₃, rfl⟩ := h₃
  have hread := World.mem_of_group_named (Except.ok.inj hanswer)
  have hsame : g' = g :=
    m₂.wf.group_name_unique g' hread.1 g (hm₂ g hg) (hread.2.trans hname.symm)
  rw [hsame]
  exact ⟨hkept₃ g (hmt₂ g (hm₂ g hg)), hwanted⟩

/-- The row on a group the key has created. -/
theorem provision_caller_racing (hm : ctx.key.is_master = false) {g : IpGroup} (hg : g ∈ s.groups)
    (howner : g.owner_key_id = some ctx.key.id) :
    Racing rounds ctx call (fun _ _ t => GroupsKept s t) past (provision_caller ctx g.id) s := by
  unfold provision_caller
  rw [if_neg (by rw [hm]; exact Bool.false_ne_true)]
  refine (racing_exec fun t ht _ => .insert_permission (ht g hg) rfl howner).imp fun _ _ t ht => ?_
  obtain ⟨-, m, hsm, -, hmt⟩ := ht
  refine hsm.trans _ _ _ (GroupsKept.trans _ _ _ (fun g hg => ?_) hmt)
  exact ((Stmt.insert_permission_or_ignore _).frame m.toWorld).groups rfl ▸ hg

theorem upsert_group_racing (hm : ctx.key.is_master = false) (hbatch : call.is_batch = false)
    (payload : BanWhitePayload) (is_whitelist : Bool) :
    Racing rounds ctx call (fun g past' t => g ∈ t.groups ∧ MayFill ctx.key.id past' g ∧
      g.group_type ≠ default_group_type (!is_whitelist)) past
      (upsert_group ctx payload is_whitelist) s := by
  refine (resolve_group_ref_racing _ _).bind fun found past₁ t₁ h₁ => ?_
  split
  · rename_i g
    exact upsert_existing_group_racing hm is_whitelist (h₁.2 _ rfl)
  · refine racing_require.bind fun _ past₂ t₂ _ => ?_
    refine (get_or_create_group_racing hm _ _).bind fun g past₃ t₃ h₃ => ?_
    obtain ⟨hg, howner, htype⟩ := h₃
    refine (provision_caller_racing hm hg howner).bind fun _ past₄ t₄ hkept => ?_
    have hother : g.group_type ≠ default_group_type (!is_whitelist) := by
      rw [htype.resolve_left (by rw [hbatch]; exact Bool.false_ne_true)]
      cases is_whitelist <;> decide
    exact fun u hu => ⟨hu g (hkept g hg), .inl howner, hother⟩
  · exact fun _ _ => trivial

theorem handle_ip_upsert_racing (hm : ctx.key.is_master = false) (hbatch : call.is_batch = false)
    (payload : BanWhitePayload) (is_whitelist : Bool) :
    Racing rounds ctx call (fun _ _ _ => True) past (handle_ip_upsert ctx payload is_whitelist)
      s := by
  refine racing_okOr.bind fun network past₁ t₁ _ => ?_
  refine racing_ofExcept.bind fun _ past₂ t₂ _ => ?_
  refine (upsert_group_racing hm hbatch payload is_whitelist).bind fun g past₃ t₃ h₃ => ?_
  obtain ⟨hg, hmay, htype⟩ := h₃
  refine (racing_exec fun t ht _ => .upsert (ht g hg) rfl hmay htype).bind fun _ past₄ t₄ _ => ?_
  refine (racing_exec fun t _ _ => .of_frame _ rfl rfl rfl rfl).bind fun _ past₅ t₅ _ => ?_
  exact fun _ _ => trivial

/-- Who passes the check of a batch on a group that exists has read that it may write. -/
theorem can_write_of_guard_batch {mode : BatchMode} {perm : Option GroupPermission}
    (h : guard_batch mode perm = .ok ()) : ∃ p, perm = some p ∧ p.can_write = true := by
  obtain ⟨_, hcan, -⟩ := except_bind_ok.mp h
  exact can_write_of_guard hcan

theorem batch_group_racing (hm : ctx.key.is_master = false) (payload : BatchRecordsPayload) :
    Racing rounds ctx call (fun g past' t => g ∈ t.groups ∧ MayFill ctx.key.id past' g) past
      (batch_group ctx payload) s := by
  refine racing_select.bind fun found past₁ t₁ h₁ => ?_
  obtain ⟨-, -, -, m, -, hmt, hanswer⟩ := h₁
  split
  · rename_i g
    have hg : g ∈ t₁.groups := hmt g (World.mem_of_group_named (Except.ok.inj hanswer)).1
    have hguard : Racing rounds ctx call (fun _ past' t => GroupsKept t₁ t ∧
        MayFill ctx.key.id past' g) past₁ (batch_guard ctx payload.mode g.id) t₁ :=
      row_guard_racing hm can_write_of_guard_batch g
    refine hguard.bind fun _ past₂ t₂ h₂ => ?_
    exact fun u hu => ⟨hu g (h₂.1 g hg), h₂.2⟩
  · refine racing_require.bind fun _ past₂ t₂ _ => ?_
    exact (get_or_create_group_racing hm _ _).imp fun g _ t ht => ⟨ht.1, .inl ht.2.1⟩

theorem enqueue_all_racing (events : List WebhookEvent) :
    Racing rounds ctx call (fun _ _ _ => True) past (enqueue_all events) s := by
  induction events generalizing past s with
  | nil => exact fun _ _ => trivial
  | cons event events ih =>
      exact (racing_exec fun t _ _ => .of_frame _ rfl rfl rfl rfl).bind fun _ _ _ _ => ih

theorem batch_records_racing (hm : ctx.key.is_master = false) (payload : BatchRecordsPayload) :
    Racing rounds ctx call (fun _ _ _ => True) past (batch_records ctx payload) s := by
  refine racing_require.bind fun _ past₁ t₁ _ => ?_
  refine racing_ofExcept.bind fun normalized past₂ t₂ _ => ?_
  refine (batch_group_racing hm payload).bind fun g past₃ t₃ h₃ => ?_
  refine racing_ofExcept.bind fun _ past₄ t₄ h₄ => ?_
  obtain ⟨rfl, hkept, -⟩ := h₄
  refine (racing_exec fun t ht _ => .batch (ht g (hkept g h₃.1)) rfl h₃.2).bind
    fun answer past₅ t₅ _ => ?_
  exact (enqueue_all_racing answer.2).bind fun _ _ _ _ => fun _ _ => trivial

end Judgement

/-! ## Runs -/

section Runs

variable {τ : Type} [DecidableEq τ]

/-- The insert of the request whose turn it is does not come too late. -/
def TurnUncontested (requests : τ → Authenticated) (turn : Turn τ Int) (P : Requests τ) : Prop :=
  ∀ i l past, turn = .of i → P.issues i l past →
    Uncontested (requests i).call l P.store.toWorld

/-- The request whose turn it is gains nothing but by creating the group. -/
def TurnWinnersOnly (requests : τ → Authenticated) (turn : Turn τ Int) (P : Requests τ) : Prop :=
  ∀ i l past, turn = .of i → P.issues i l past →
    WinnersOnly (requests i).ctx.key.id past l P.store.toWorld

omit [DecidableEq τ] in
theorem Authenticated.racing {rounds : Nat} {r : Authenticated} (h : r.races) (s : Vault) :
    Racing rounds r.ctx r.call (fun _ _ _ => True) [] (r.call.handler r.ctx) s := by
  obtain ⟨hm, hcall⟩ := h
  revert hcall
  cases hc : r.call with
  | handle_ban payload => exact fun _ => handle_ip_upsert_racing hm rfl payload false
  | handle_white payload => exact fun _ => handle_ip_upsert_racing hm rfl payload true
  | batch_records payload => exact fun _ => batch_records_racing hm payload
  | _ => exact fun h => by cases h

/-- **Losers gain nothing.** In every schedule of any number of bans, whitelistings and batches of
ordinary keys in which no insert of a group comes after another request has created that group, no
turn gives a key anything on a group that it has not created and on which it has not read that it
may write. -/
theorem losers_gain_nothing (rounds : Nat) (requests : τ → Authenticated)
    (hraces : ∀ i, (requests i).races) (v : Vault) (schedule : List (Turn τ Int))
    (h : Along (statement rounds) (TurnUncontested requests) schedule (serving requests v)) :
    Along (statement rounds) (TurnWinnersOnly requests) schedule (serving requests v) := by
  have start : (serving requests v).Among (concurrent_database rounds).recalling
      (fun _ => GroupsKept) (fun i o t => Uncontested (requests i).call o.1 t.toWorld)
      (fun i o t => WinnersOnly (requests i).ctx.key.id o.2 o.1 t.toWorld)
      (fun _ _ _ => True) (fun _ _ _ => True) :=
    fun i => Prog.Among.mono (Authenticated.racing (hraces i) v) (fun _ _ hg => hg)
      (fun _ _ _ => trivial) fun _ _ _ => trivial
  have fair : Along (statement rounds) (fun w P => Pool.Fair (concurrent_database rounds).recalling
      purge_outside (fun _ => GroupsKept)
      (fun i o t => Uncontested (requests i).call o.1 t.toWorld)
      (fun i o t => WinnersOnly (requests i).ctx.key.id o.2 o.1 t.toWorld) w P) schedule
      (serving requests v) := by
    refine h.mono fun w P hw => ?_
    cases w with
    | outside threshold =>
        exact fun _ g hg => ((Stmt.purge threshold).frame P.store.toWorld).groups rfl ▸ hg
    | of i => exact fun o ho => ⟨hw i o.1 o.2 rfl ho, fun hg _ _ => hg.kept⟩
  refine (fair.guaranteed (fun _ => GroupsKept.refl) (fun _ => GroupsKept.trans) start).mono ?_
  rintro w P ⟨-, hguaranteed⟩ i l past rfl hissues
  exact hguaranteed i (l, past) rfl hissues

end Runs

/-! ## Two requests that see the group absent -/

/-- The keys 1 and 2 may create groups. -/
def Vault.creators : Vault :=
  .build 8
    [.insert_key { ApiKey.sample 0 with key_hash := "m", is_master := true },
      .insert_key { ApiKey.sample 1 with can_create_groups := true, key_hash := "a" },
      .insert_key { ApiKey.sample 2 with can_create_groups := true, key_hash := "b" }]

/-- Key 1 whitelists an address in `new`, key 2 bans it there. -/
def white_and_ban : Client → Authenticated
  | .first => .sample { ApiKey.sample 1 with can_create_groups := true, key_hash := "a" }
      (.handle_white { target_address := "203.0.113.7", group_name := some "new" })
  | .second => .sample { ApiKey.sample 2 with can_create_groups := true, key_hash := "b" }
      (.handle_ban { target_address := "203.0.113.7", group_name := some "new" })

theorem races_white_and_ban (i : Client) : (white_and_ban i).races := by
  cases i <;> exact ⟨rfl, rfl⟩

/-- Both look for the group before either creates it. -/
def both_see_it_absent : List (Turn Client Int) :=
  [.of .first, .of .second, .of .first, .of .second, .of .second, .of .second, .of .second]

/-- Key 1 creates a whitelist; key 2 gets a row on it, and its ban goes into it. -/
theorem loser_gains :
    ¬ ∀ (τ : Type) [DecidableEq τ] (rounds : Nat) (requests : τ → Authenticated),
      (∀ i, (requests i).races) → ∀ (v : Vault) (schedule : List (Turn τ Int)),
        Along (statement rounds) (TurnWinnersOnly requests) schedule (serving requests v) := by
  intro all
  have h := all Client 1 white_and_ban races_white_and_ban .creators both_see_it_absent
  have turn := h.2.2.2.2.2.2.1 .second _ _ rfl rfl
  obtain ⟨g, hg, -, htype⟩ := turn.types _ _ rfl
  have whitelists : ∀ g ∈ (final (statement 1) (both_see_it_absent.take 6)
      (serving white_and_ban .creators)).store.groups.rows, g.group_type = "whitelist" := by decide
  exact htype (whitelists g hg)

/-- Key 2 comes when the group is there. -/
def second_comes_later : List (Turn Client Int) :=
  [.of .first, .of .first, .of .first, .of .first, .of .first, .of .second, .of .second]

theorem uncontested_later : Along (statement 1) (TurnUncontested white_and_ban)
    second_comes_later (serving white_and_ban .creators) := by
  refine ⟨?_, ?_, ?_, ?_, ?_, ?_, ?_, trivial⟩
  all_goals
    intro i l past hw hissues
    cases hw
    cases hissues
  · trivial
  · have hnone : ∀ g ∈ Vault.creators.groups.rows, g.name ≠ "new" := by decide
    exact fun g hg hname => absurd hname (hnone g hg)
  all_goals trivial

/-- It is refused, and nothing but what key 1 stored is stored. -/
theorem second_gains_nothing :
    (∀ p ∈ (final (statement 1) second_comes_later
        (serving white_and_ban .creators)).store.permissions.rows, p.api_key_id = 1) ∧
      Along (statement 1) (TurnWinnersOnly white_and_ban) second_comes_later
        (serving white_and_ban .creators) :=
  ⟨by decide, losers_gain_nothing 1 white_and_ban races_white_and_ban .creators second_comes_later
    uncontested_later⟩

end IpVault
