import IpVault.Api.KeyListing
import IpVault.Keys.Lineage

set_option autoImplicit false

/-! # What the key listing shows

A manager that is not the master sees the keys below it in full, and of the other keys that hold a row
on a group it manages their names and those rows. `World.Shows` says which summaries these are;
`key_summaries` lists exactly them, each key once. They depend on nothing else (`SameScope`): two
stores that agree on the subtree and on the rows of the managed groups are listed alike. The rows of
one summary come in the order of the table, of which nothing is promised.
-/

namespace IpVault

open Lib

namespace World

/-- The key manages the group: by its global scope and its own row. -/
def Manages (w : World) (key : ApiKey) (group_id : Uuid) : Prop :=
  key.can_manage_keys = true ∧
    ∃ p ∈ w.permissions, p.api_key_id = key.id ∧ p.group_id = group_id ∧ p.can_manage = true

/-- The entries of a key's rows on the groups that satisfy `on`. -/
def entries (w : World) (on : Uuid → Bool) (key_id : Uuid) : List MePermission :=
  ((w.permissions.rows.filter fun p => p.api_key_id = key_id).filter fun p =>
    on p.group_id).filterMap fun p => (w.groups.find? p.group_id).map (MePermission.of p)

/-- **The summaries a manager is shown.** -/
inductive Shows (w : World) (key : ApiKey) (managed : Uuid → Bool) : ApiKeySummary → Prop
  | own (k : ApiKey) (hk : k ∈ w.keys) (hbelow : w.Descends key.id k.id) :
      Shows w key managed (.full k (w.entries (fun _ => true) k.id))
  | shared (k : ApiKey) (hk : k ∈ w.keys) (hout : ¬ w.Descends key.id k.id) (p : GroupPermission)
      (hp : p ∈ w.permissions) (hholder : p.api_key_id = k.id) (hgroup : managed p.group_id = true) :
      Shows w key managed (.minimal k (w.entries managed k.id))

end World

section Reads

variable {G : Stmt → Vault → Prop} {E : AppError → Vault → Prop} {v : Vault}

theorem me_permissions_none (w : World) (key_id : Uuid) :
    me_permissions none ((Query.permissions_with_groups key_id).eval w) =
      w.entries (fun _ => true) key_id := by
  unfold me_permissions World.entries Query.eval
  rw [List.filter_map, List.filterMap_map]
  rfl

theorem me_permissions_some (w : World) (key_id : Uuid) (groups : List Uuid) :
    me_permissions (some groups) ((Query.permissions_with_groups key_id).eval w) =
      w.entries (groups.contains ·) key_id := by
  unfold me_permissions World.entries Query.eval
  rw [List.filter_map, List.filterMap_map]
  rfl

theorem full_api_key_summary_meets (hG : ∀ q, G (.query q) v) (k : ApiKey) :
    Prog.Meets database G (fun s w => v = w ∧ s = .full k (v.entries (fun _ => true) k.id)) E
      (full_api_key_summary k) v := by
  unfold full_api_key_summary key_group_permissions
  rw [Prog.meets_bind, Prog.meets_bind, meets_select, me_permissions_none]
  exact ⟨hG _, rfl, rfl⟩

theorem minimal_api_key_summary_meets (hG : ∀ q, G (.query q) v) (k : ApiKey) (groups : List Uuid) :
    Prog.Meets database G (fun s w => v = w ∧ s = .minimal k (v.entries (groups.contains ·) k.id)) E
      (minimal_api_key_summary k groups) v := by
  unfold minimal_api_key_summary key_group_permissions
  rw [Prog.meets_bind, Prog.meets_bind, meets_select, me_permissions_some]
  exact ⟨hG _, rfl, rfl⟩

theorem summarize_subtree_meets (hG : ∀ q, G (.query q) v) {ids : List Uuid} (hids : ids.Nodup) :
    Prog.Meets database G (fun l w => v = w ∧ (l.map ApiKeySummary.id).Nodup ∧ ∀ s, s ∈ l ↔
        ∃ k ∈ v.keys, k.id ∈ ids ∧ s = .full k (v.entries (fun _ => true) k.id)) E
      (summarize_subtree ids) v := by
  induction ids with
  | nil => exact ⟨rfl, List.nodup_nil, fun s => by simp⟩
  | cons id ids ih =>
      obtain ⟨hnew, hrest⟩ := List.nodup_cons.mp hids
      unfold summarize_subtree
      rw [Prog.meets_bind, meets_select]
      refine ⟨hG _, ?_⟩
      rcases hfound : v.keys.find? id with _ | k
      · rw [show (Query.key_by_id id).eval v.toWorld = none from hfound]
        refine (ih hrest).imp ?_
        rintro l _ ⟨rfl, hnodup, hmem⟩
        refine ⟨rfl, hnodup, fun s => (hmem s).trans ⟨?_, ?_⟩⟩
        · rintro ⟨k, hk, hin, rfl⟩
          exact ⟨k, hk, List.mem_cons_of_mem _ hin, rfl⟩
        · rintro ⟨k, hk, hin, rfl⟩
          rcases List.mem_cons.mp hin with rfl | hin
          · rw [Table.find?_key hk] at hfound
            cases hfound
          · exact ⟨k, hk, hin, rfl⟩
      · rw [show (Query.key_by_id id).eval v.toWorld = some k from hfound]
        obtain ⟨hk, rfl⟩ := Table.find?_eq_some.mp hfound
        dsimp only
        rw [Prog.meets_bind]
        refine (full_api_key_summary_meets hG k).imp ?_
        rintro _ _ ⟨rfl, rfl⟩
        rw [Prog.meets_bind]
        refine (ih hrest).imp ?_
        rintro l _ ⟨rfl, hnodup, hmem⟩
        refine ⟨rfl, List.nodup_cons.mpr ⟨fun hid => ?_, hnodup⟩, fun s => ?_⟩
        · obtain ⟨s, hs, hid⟩ := List.mem_map.mp hid
          obtain ⟨k', -, hin, rfl⟩ := (hmem s).mp hs
          have hsame : k'.id = k.id := hid
          exact hnew (hsame ▸ hin)
        · rw [List.mem_cons, hmem]
          constructor
          · rintro (rfl | ⟨k', hk', hin, rfl⟩)
            · exact ⟨k, hk, List.mem_cons_self, rfl⟩
            · exact ⟨k', hk', List.mem_cons_of_mem _ hin, rfl⟩
          · rintro ⟨k', hk', hin, rfl⟩
            rcases List.mem_cons.mp hin with hid | hin
            · rw [Table.eq_of_key hk' hk hid]
              exact .inl rfl
            · exact .inr ⟨k', hk', hin, rfl⟩

theorem summarize_shared_meets (hG : ∀ q, G (.query q) v) (groups seen ids : List Uuid) :
    Prog.Meets database G (fun l w => v = w ∧ (l.map ApiKeySummary.id).Nodup ∧ ∀ s, s ∈ l ↔
        ∃ k ∈ v.keys, k.id ∈ ids ∧ k.id ∉ seen ∧
          s = .minimal k (v.entries (groups.contains ·) k.id)) E
      (summarize_shared groups seen ids) v := by
  induction ids generalizing seen with
  | nil => exact ⟨rfl, List.nodup_nil, fun s => by simp⟩
  | cons id ids ih =>
      unfold summarize_shared
      by_cases hseen : id ∈ seen
      · rw [if_pos (List.contains_iff_mem.mpr hseen)]
        refine (ih seen).imp ?_
        rintro l _ ⟨rfl, hnodup, hmem⟩
        refine ⟨rfl, hnodup, fun s => (hmem s).trans ⟨?_, ?_⟩⟩
        · rintro ⟨k, hk, hin, hnew, rfl⟩
          exact ⟨k, hk, List.mem_cons_of_mem _ hin, hnew, rfl⟩
        · rintro ⟨k, hk, hin, hnew, rfl⟩
          rcases List.mem_cons.mp hin with rfl | hin
          · exact absurd hseen hnew
          · exact ⟨k, hk, hin, hnew, rfl⟩
      · rw [if_neg fun h => hseen (List.contains_iff_mem.mp h), Prog.meets_bind, meets_select]
        refine ⟨hG _, ?_⟩
        rcases hfound : v.keys.find? id with _ | k
        · rw [show (Query.key_by_id id).eval v.toWorld = none from hfound]
          refine (ih (id :: seen)).imp ?_
          rintro l _ ⟨rfl, hnodup, hmem⟩
          -- A row whose key is gone is skipped, and its identifier counts as seen: no key has it.
          have hgone : ∀ k ∈ v.keys, k.id ≠ id := Table.find?_eq_none.mp hfound
          refine ⟨rfl, hnodup, fun s => (hmem s).trans ⟨?_, ?_⟩⟩
          · rintro ⟨k, hk, hin, hnew, rfl⟩
            exact ⟨k, hk, List.mem_cons_of_mem _ hin, fun h => hnew (List.mem_cons_of_mem _ h), rfl⟩
          · rintro ⟨k, hk, hin, hnew, rfl⟩
            refine ⟨k, hk, (List.mem_cons.mp hin).resolve_left (hgone k hk), fun h => ?_, rfl⟩
            exact hnew ((List.mem_cons.mp h).resolve_left (hgone k hk))
        · rw [show (Query.key_by_id id).eval v.toWorld = some k from hfound]
          obtain ⟨hk, rfl⟩ := Table.find?_eq_some.mp hfound
          dsimp only
          rw [Prog.meets_bind]
          refine (minimal_api_key_summary_meets hG k groups).imp ?_
          rintro _ _ ⟨rfl, rfl⟩
          rw [Prog.meets_bind]
          refine (ih (k.id :: seen)).imp ?_
          rintro l _ ⟨rfl, hnodup, hmem⟩
          refine ⟨rfl, List.nodup_cons.mpr ⟨fun hid => ?_, hnodup⟩, fun s => ?_⟩
          -- The rest of the loop leaves out whom it has seen, so that the new row is not repeated.
          · obtain ⟨s, hs, hid⟩ := List.mem_map.mp hid
            obtain ⟨k', -, -, hnew, rfl⟩ := (hmem s).mp hs
            have hsame : k'.id = k.id := hid
            exact hnew (hsame ▸ List.mem_cons_self)
          · rw [List.mem_cons, hmem]
            constructor
            · rintro (rfl | ⟨k', hk', hin, hnew, rfl⟩)
              · exact ⟨k, hk, List.mem_cons_self, hseen, rfl⟩
              · exact ⟨k', hk', List.mem_cons_of_mem _ hin,
                  fun h => hnew (List.mem_cons_of_mem _ h), rfl⟩
            · rintro ⟨k', hk', hin, hnew, rfl⟩
              by_cases hid : k'.id = k.id
              · rw [Table.eq_of_key hk' hk hid]
                exact .inl rfl
              · refine .inr ⟨k', hk', (List.mem_cons.mp hin).resolve_left hid, fun h => ?_, rfl⟩
                exact hnew ((List.mem_cons.mp h).resolve_left hid)

theorem groups_the_caller_manages_meets (hG : ∀ q, G (.query q) v) (caller : ApiKey) :
    Prog.Meets database G (fun groups w => v = w ∧ ∀ i, i ∈ groups ↔ v.Manages caller i) E
      (groups_the_caller_manages caller) v := by
  unfold groups_the_caller_manages World.Manages
  split
  · rename_i hkeys
    rw [Prog.meets_bind, meets_select]
    refine ⟨hG _, rfl, fun i => ?_⟩
    rw [List.mem_map]
    constructor
    · rintro ⟨p, hp, rfl⟩
      obtain ⟨hp, hmanage⟩ := List.mem_filter.mp hp
      obtain ⟨hp, hholder⟩ := List.mem_filter.mp hp
      exact ⟨hkeys, p, hp, of_decide_eq_true hholder, rfl, hmanage⟩
    · rintro ⟨-, p, hp, hholder, hgroup, hmanage⟩
      exact ⟨p, List.mem_filter.mpr ⟨List.mem_filter.mpr ⟨hp, decide_eq_true hholder⟩, hmanage⟩,
        hgroup⟩
  · rename_i hkeys
    exact ⟨rfl, fun i => by simp [hkeys]⟩

theorem keys_sharing_meets (hG : ∀ q, G (.query q) v) (groups subtree : List Uuid) :
    Prog.Meets database G (fun ids w => v = w ∧ ∀ i, i ∈ ids ↔ i ∉ subtree ∧
        ∃ p ∈ v.permissions, p.api_key_id = i ∧ groups.contains p.group_id = true) E
      (keys_sharing groups subtree) v := by
  unfold keys_sharing
  split
  · rename_i hnone
    subst hnone
    exact ⟨rfl, fun i => by simp⟩
  · rw [Prog.meets_bind, meets_select]
    refine ⟨hG _, rfl, fun i => ?_⟩
    rw [List.mem_filter, List.mem_map]
    constructor
    · rintro ⟨⟨p, hp, rfl⟩, hnew⟩
      obtain ⟨hp, hgroup⟩ := List.mem_filter.mp hp
      exact ⟨by simpa using hnew, p, hp, rfl, hgroup⟩
    · rintro ⟨hnew, p, hp, rfl, hgroup⟩
      exact ⟨⟨p, List.mem_filter.mpr ⟨hp, hgroup⟩, rfl⟩, by simpa using hnew⟩

/-- **What is listed.** The summaries shown to the manager, each key once. -/
theorem key_summaries_meets (hG : ∀ q, G (.query q) v) {ctx : Ctx} (hkey : ctx.key.is_master = false)
    (hkeys : ctx.key.can_manage_keys = true) (order : SetOrder) :
    Prog.Meets database G (fun l w => v = w ∧ (l.map ApiKeySummary.id).Nodup ∧
        ∃ groups : List Uuid, (∀ i, i ∈ groups ↔ v.Manages ctx.key i) ∧
          ∀ s, s ∈ l ↔ v.Shows ctx.key (groups.contains ·) s) E
      (key_summaries ctx order) v := by
  unfold key_summaries
  rw [Prog.meets_bind, Prog.meets_require]
  refine ⟨fun _ => ?_, fun hnot => absurd (.inr hkeys) hnot⟩
  rw [hkey, if_neg Bool.false_ne_true, Prog.meets_bind]
  refine (collect_key_subtree_rounds hG).imp ?_
  rintro subtree _ ⟨rfl, hrounds⟩
  have hlineage := hrounds.finished (.init v.Parent ctx.key.id)
  have hnodup := hrounds.nodup (List.nodup_singleton ctx.key.id)
  rw [Prog.meets_bind]
  refine (groups_the_caller_manages_meets hG ctx.key).imp ?_
  rintro groups _ ⟨rfl, hgroups⟩
  rw [Prog.meets_bind]
  refine (keys_sharing_meets hG groups subtree).imp ?_
  rintro ids _ ⟨rfl, hids⟩
  have harranged := order.perm subtree
  rw [Prog.meets_bind]
  refine (summarize_subtree_meets hG (harranged.nodup_iff.mpr hnodup)).imp ?_
  rintro own _ ⟨rfl, hown, hmem⟩
  rw [Prog.meets_bind]
  refine (summarize_shared_meets hG groups _ ids).imp ?_
  rintro others _ ⟨rfl, hothers, hmem'⟩
  refine ⟨rfl, ?_, groups, hgroups, fun s => ?_⟩
  · rw [List.map_append]
    refine List.nodup_append.mpr ⟨hown, hothers, ?_⟩
    rintro i hi j hj rfl
    obtain ⟨s, hs, hid⟩ := List.mem_map.mp hj
    obtain ⟨k, -, -, hnew, rfl⟩ := (hmem' s).mp hs
    have hsame : k.id = i := hid
    exact hnew (hsame ▸ hi)
  · rw [List.mem_append, hmem, hmem']
    constructor
    · rintro (⟨k, hk, hin, rfl⟩ | ⟨k, hk, hin, -, rfl⟩)
      · exact .own k hk ((hlineage _).mp (harranged.mem_iff.mp hin))
      · obtain ⟨hout, p, hp, hholder, hgroup⟩ := (hids _).mp hin
        exact .shared k hk (fun h => hout ((hlineage _).mpr h)) p hp hholder hgroup
    · rintro (⟨k, hk, hbelow⟩ | ⟨k, hk, hout, p, hp, hholder, hgroup⟩)
      · exact .inl ⟨k, hk, harranged.mem_iff.mpr ((hlineage _).mpr hbelow), rfl⟩
      · have hnot : k.id ∉ subtree := fun h => hout ((hlineage _).mp h)
        refine .inr ⟨k, hk, (hids _).mpr ⟨hnot, p, hp, hholder, hgroup⟩, fun hlisted => ?_, rfl⟩
        obtain ⟨s, hs, hid⟩ := List.mem_map.mp hlisted
        obtain ⟨k', -, hin, rfl⟩ := (hmem s).mp hs
        have hsame : k'.id = k.id := hid
        exact hnot (hsame ▸ harranged.mem_iff.mp hin)

end Reads

/-! ## Two stores -/

/-- Two summaries that differ in the order of their rows at most. -/
def ApiKeySummary.Same (s s' : ApiKeySummary) : Prop :=
  { s with group_permissions := [] } = { s' with group_permissions := [] } ∧
    s.group_permissions.Perm s'.group_permissions

/-- The stores agree on the subtree of the caller, with its permission rows; on the rows of the groups
the caller manages, with the names of their holders; and on the names of all these groups. -/
structure SameScope (key : ApiKey) (v w : World) : Prop where
  subtree : ∀ k, (k ∈ v.keys ∧ v.Descends key.id k.id) ↔ (k ∈ w.keys ∧ w.Descends key.id k.id)
  rows : ∀ p, v.Descends key.id p.api_key_id → (p ∈ v.permissions ↔ p ∈ w.permissions)
  shared : ∀ p, v.Manages key p.group_id → (p ∈ v.permissions ↔ p ∈ w.permissions)
  holders : ∀ p ∈ v.permissions, v.Manages key p.group_id → ∀ k ∈ v.keys, ∀ k' ∈ w.keys,
    k.id = p.api_key_id → k'.id = p.api_key_id → k.name = k'.name
  groups : ∀ p ∈ v.permissions, (v.Descends key.id p.api_key_id ∨ v.Manages key p.group_id) →
    ∀ g ∈ v.groups, ∀ g' ∈ w.groups, g.id = p.group_id → g'.id = p.group_id → g.name = g'.name

namespace SameScope

variable {key : ApiKey} {v w : World} (h : SameScope key v w)
include h

theorem descends {id : Uuid} : v.Descends key.id id ↔ w.Descends key.id id := by
  constructor
  · intro hv
    induction hv with
    | refl => exact .refl
    | @tail a b hab hstep ih =>
        obtain ⟨k, hk, rfl, hp⟩ := hstep
        obtain ⟨hkw, -⟩ := (h.subtree k).mp ⟨hk, hab.tail ⟨k, hk, rfl, hp⟩⟩
        exact ih.tail ⟨k, hkw, rfl, hp⟩
  · intro hw
    induction hw with
    | refl => exact .refl
    | @tail a b hab hstep ih =>
        obtain ⟨k, hk, rfl, hp⟩ := hstep
        obtain ⟨hkv, -⟩ := (h.subtree k).mpr ⟨hk, hab.tail ⟨k, hk, rfl, hp⟩⟩
        exact ih.tail ⟨k, hkv, rfl, hp⟩

theorem manages {group_id : Uuid} : v.Manages key group_id ↔ w.Manages key group_id := by
  have own : ∀ p : GroupPermission, p.api_key_id = key.id → (p ∈ v.permissions ↔ p ∈ w.permissions) :=
    fun p hp => h.rows p (hp ▸ Relation.ReflTransGen.refl)
  constructor
  · rintro ⟨hkeys, p, hp, hholder, hrest⟩
    exact ⟨hkeys, p, (own p hholder).mp hp, hholder, hrest⟩
  · rintro ⟨hkeys, p, hp, hholder, hrest⟩
    exact ⟨hkeys, p, (own p hholder).mpr hp, hholder, hrest⟩

theorem symm : SameScope key w v where
  subtree k := (h.subtree k).symm
  rows p hp := (h.rows p (h.descends.mpr hp)).symm
  shared p hp := (h.shared p (h.manages.mpr hp)).symm
  holders p hp hmanages k hk k' hk' hid hid' :=
    have hm := h.manages.mpr hmanages
    (h.holders p ((h.shared p hm).mpr hp) hm k' hk' k hk hid' hid).symm
  groups p hp hscope g hg g' hg' hid hid' := by
    have hscope : v.Descends key.id p.api_key_id ∨ v.Manages key p.group_id :=
      hscope.imp h.descends.mpr h.manages.mpr
    have hpv : p ∈ v.permissions := by
      rcases hscope with hbelow | hmanages
      · exact (h.rows p hbelow).mpr hp
      · exact (h.shared p hmanages).mpr hp
    exact (h.groups p hpv hscope g' hg' g hg hid' hid).symm

end SameScope

section Alike

variable {key : ApiKey} {v w : Vault} {on : Uuid → Bool}

/-- The rows of a key on some groups, where the stores agree on them and on the names of the
groups. -/
theorem entries_perm {id : Uuid}
    (hrows : ∀ p, p.api_key_id = id → on p.group_id = true →
      (p ∈ v.permissions ↔ p ∈ w.permissions))
    (hgroups : ∀ p ∈ v.permissions, p.api_key_id = id → on p.group_id = true →
      ∀ g ∈ v.groups, ∀ g' ∈ w.groups, g.id = p.group_id → g'.id = p.group_id → g.name = g'.name) :
    (v.entries on id).Perm (w.entries on id) := by
  have mem : ∀ (u : World) (p : GroupPermission),
      p ∈ ((u.permissions.rows.filter fun p => p.api_key_id = id).filter fun p => on p.group_id) ↔
        p ∈ u.permissions ∧ p.api_key_id = id ∧ on p.group_id = true := by
    intro u p
    rw [List.mem_filter, List.mem_filter, decide_eq_true_eq, and_assoc]
    rfl
  have same : ((v.permissions.rows.filter fun p => p.api_key_id = id).filter fun p =>
        on p.group_id).Perm
      ((w.permissions.rows.filter fun p => p.api_key_id = id).filter fun p => on p.group_id) := by
    refine (List.perm_ext_iff_of_nodup ?_ ?_).mpr fun p => ?_
    · exact (v.permissions.unique.of_map.filter _).filter _
    · exact (w.permissions.unique.of_map.filter _).filter _
    · rw [mem, mem]
      constructor
      · rintro ⟨hp, hid, hon⟩
        exact ⟨(hrows p hid hon).mp hp, hid, hon⟩
      · rintro ⟨hp, hid, hon⟩
        exact ⟨(hrows p hid hon).mpr hp, hid, hon⟩
  have entry : ∀ p ∈ ((w.permissions.rows.filter fun p => p.api_key_id = id).filter fun p =>
      on p.group_id), (v.groups.find? p.group_id).map (MePermission.of p) =
        (w.groups.find? p.group_id).map (MePermission.of p) := by
    intro p hp
    obtain ⟨hpw, hid, hon⟩ := (mem w.toWorld p).mp hp
    have hpv := (hrows p hid hon).mpr hpw
    obtain ⟨g, hg⟩ := Option.isSome_iff_exists.mp (v.wf.permission_group p hpv)
    obtain ⟨g', hg'⟩ := Option.isSome_iff_exists.mp (w.wf.permission_group p hpw)
    obtain ⟨hmem, hgid⟩ := Table.find?_eq_some.mp hg
    obtain ⟨hmem', hgid'⟩ := Table.find?_eq_some.mp hg'
    have hname := hgroups p hpv hid hon g hmem g' hmem' hgid hgid'
    rw [hg, hg']
    show some (MePermission.of p g) = some (MePermission.of p g')
    unfold MePermission.of
    rw [hname]
  unfold World.entries
  refine (same.filterMap _).trans ?_
  rw [List.filterMap_congr entry]

/-- What is shown in one store is shown in the other. -/
theorem SameScope.shows (h : SameScope key v.toWorld w.toWorld)
    (hon : ∀ i, on i = true ↔ v.Manages key i) {s : ApiKeySummary} (hs : v.Shows key on s) :
    ∃ s', w.Shows key on s' ∧ s.Same s' := by
  rcases hs with ⟨k, hk, hbelow⟩ | ⟨k, hk, hout, p, hp, hholder, hgroup⟩
  · obtain ⟨hkw, hbelow'⟩ := (h.subtree k).mp ⟨hk, hbelow⟩
    refine ⟨_, .own k hkw hbelow', rfl, ?_⟩
    show (v.entries (fun _ => true) k.id).Perm (w.entries (fun _ => true) k.id)
    refine entries_perm (fun p hp _ => h.rows p (hp ▸ hbelow)) fun p hp hid _ => ?_
    exact h.groups p hp (.inl (hid ▸ hbelow))
  · have hmanages := (hon _).mp hgroup
    have hpw := (h.shared p hmanages).mp hp
    obtain ⟨k', hk', hid⟩ := Table.has_iff.mp (w.wf.permission_key p hpw)
    have hsame : k'.id = k.id := hid.trans hholder
    have hname := h.holders p hp hmanages k hk k' hk' hholder.symm hid
    have hout' : ¬ w.Descends key.id k'.id := by
      rw [hsame, ← h.descends]
      exact hout
    refine ⟨_, .shared k' hk' hout' p hpw hid.symm hgroup, ?_, ?_⟩
    · unfold ApiKeySummary.minimal
      rw [hsame, hname]
    · show (v.entries _ k.id).Perm (w.entries _ k'.id)
      rw [hsame]
      refine entries_perm (fun q _ hq => h.shared q ((hon _).mp hq)) fun q hq _ hgroup' => ?_
      exact h.groups q hq (.inr ((hon _).mp hgroup'))

/-- **The listing is scoped.** From two stores that agree on what is in the caller's scope, a manager
that is not the master is listed the same summaries, each key once. -/
theorem key_listing_scoped {ctx : Ctx} (hkey : ctx.key.is_master = false)
    (hkeys : ctx.key.can_manage_keys = true)
    (hsame : SameScope ctx.key v.toWorld w.toWorld) (order order' : SetOrder) :
    ∃ l l' : List ApiKeySummary,
      (list_api_keys ctx order).run database v =
          (.ok (json (.arr (l.map ApiKeySummary.to_json))), v) ∧
        (list_api_keys ctx order').run database w =
          (.ok (json (.arr (l'.map ApiKeySummary.to_json))), w) ∧
        (l.map ApiKeySummary.id).Nodup ∧ (l'.map ApiKeySummary.id).Nodup ∧
        (∀ s ∈ l, ∃ s' ∈ l', s.Same s') ∧ ∀ s' ∈ l', ∃ s ∈ l, s'.Same s := by
  have listed : ∀ (u : Vault) (order : SetOrder), ∃ l : List ApiKeySummary,
      (list_api_keys ctx order).run database u =
          (.ok (json (.arr (l.map ApiKeySummary.to_json))), u) ∧
        (l.map ApiKeySummary.id).Nodup ∧ ∃ on : Uuid → Bool,
          (∀ i, on i = true ↔ u.Manages ctx.key i) ∧ ∀ s, s ∈ l ↔ u.Shows ctx.key on s := by
    intro u order
    have hmeets := (key_summaries_meets (G := fun _ _ => True) (E := fun _ _ => False)
      (v := u) (fun _ => trivial) hkey hkeys order).run
    rcases hrun : (key_summaries ctx order).run database u with ⟨e | l, u'⟩
    · exact (hmeets.2 e u' hrun).elim
    · obtain ⟨rfl, hnodup, groups, hgroups, hmem⟩ := hmeets.1 l u' hrun
      refine ⟨l, ?_, hnodup, (groups.contains ·), fun i => ?_, hmem⟩
      · unfold list_api_keys
        rw [Prog.run_bind, hrun]
        rfl
      · exact List.contains_iff_mem.trans (hgroups i)
  obtain ⟨l, hrun, hnodup, on, hon, hmem⟩ := listed v order
  obtain ⟨l', hrun', hnodup', on', hon', hmem'⟩ := listed w order'
  have hagree : on' = on := by
    funext i
    rw [Bool.eq_iff_iff, hon, hon', hsame.manages]
  subst hagree
  refine ⟨l, l', hrun, hrun', hnodup, hnodup', fun s hs => ?_, fun s' hs' => ?_⟩
  · obtain ⟨s', hshown, hsame'⟩ := hsame.shows hon ((hmem s).mp hs)
    exact ⟨s', (hmem' s').mpr hshown, hsame'⟩
  · obtain ⟨s, hshown, hsame'⟩ := hsame.symm.shows hon' ((hmem' s').mp hs')
    exact ⟨s, (hmem s).mpr hshown, hsame'⟩

end Alike

/-! ## A key that is not in scope -/

/-- The manager, at its listing. -/
def Ctx.manager : Ctx :=
  ⟨.sample, ⟨{ ApiKey.sample 1 with can_manage_keys := true }, "203.0.113.9"⟩, 9, ⟨"", "", []⟩⟩

/-- The master, a manager of the group `bans`, and a key with a row on it. -/
def Vault.sharing : Vault :=
  .build 8
    [.insert_key { ApiKey.sample 0 with name := "master", key_hash := "m", is_master := true },
      .insert_key Ctx.manager.key,
      .insert_group (new_group "bans" "banlist" none 0),
      .insert_permission ⟨1, 2, true, true, false, true, 0⟩,
      .insert_key { ApiKey.sample 3 with key_hash := "o" },
      .insert_permission ⟨3, 2, true, false, false, false, 0⟩]

/-- The same with another key. -/
def Vault.sharing_and_hidden : Vault :=
  Vault.sharing.after (.insert_key { ApiKey.sample 4 with key_hash := "h", name := "hidden" })

theorem hidden_out_of_scope :
    SameScope Ctx.manager.key Vault.sharing.toWorld Vault.sharing_and_hidden.toWorld := by
  have orphans : ∀ k ∈ Vault.sharing_and_hidden.keys.rows, k.parent_key_id = none := by decide
  have keys : ∀ k ∈ Vault.sharing.keys.rows, k ∈ Vault.sharing_and_hidden.keys.rows := by decide
  have alone : ∀ {id : Uuid}, Vault.sharing_and_hidden.Descends 1 id ↔ 1 = id :=
    World.descends_of_orphans orphans
  have alone' : ∀ {id : Uuid}, Vault.sharing.Descends 1 id ↔ 1 = id :=
    World.descends_of_orphans fun k hk => orphans k (keys k hk)
  refine ⟨fun k => ?_, fun p _ => Iff.rfl, fun p _ => Iff.rfl, ?_, ?_⟩
  · show _ ∧ Vault.sharing.Descends 1 k.id ↔ _ ∧ Vault.sharing_and_hidden.Descends 1 k.id
    rw [alone, alone']
    refine and_congr_left fun hid => ⟨keys k, fun hk => ?_⟩
    have own : ∀ k ∈ Vault.sharing_and_hidden.keys.rows, 1 = k.id → k ∈ Vault.sharing.keys.rows := by
      decide
    exact own k hk hid
  · intro p _ _ k hk k' hk' hid hid'
    exact congrArg ApiKey.name (Table.eq_of_key (keys k hk) hk' (hid.trans hid'.symm))
  · intro p _ _ g hg g' hg' hid hid'
    exact congrArg IpGroup.name (Table.eq_of_key (t := Vault.sharing.groups) hg hg'
      (hid.trans hid'.symm))

theorem key_listing_scoped_hidden :
    ∃ l l' : List ApiKeySummary,
      (list_api_keys .manager ⟨id, .refl⟩).run database Vault.sharing =
          (.ok (json (.arr (l.map ApiKeySummary.to_json))), Vault.sharing) ∧
        (list_api_keys .manager ⟨id, .refl⟩).run database Vault.sharing_and_hidden =
          (.ok (json (.arr (l'.map ApiKeySummary.to_json))), Vault.sharing_and_hidden) ∧
        (l.map ApiKeySummary.id).Nodup ∧ (l'.map ApiKeySummary.id).Nodup ∧
        (∀ s ∈ l, ∃ s' ∈ l', s.Same s') ∧ ∀ s' ∈ l', ∃ s ∈ l, s'.Same s :=
  key_listing_scoped rfl rfl hidden_out_of_scope ⟨id, .refl⟩ ⟨id, .refl⟩

end IpVault
