import Mathlib.Data.List.Destutter
import IpVault.Schema.TwoRuns
import IpVault.Service

set_option autoImplicit false

/-! # What the record listing shows

`list_ips` shows a caller that is not the master the memberships of the groups it reads. Nothing else in
the store makes a difference to the answer (`list_ips_alike`): two stores that look alike to the caller
(`SameView`) are read side by side, with filters that may name different groups as long as the caller
does not read those (`NamesAlike`). The database may return rows with equal timestamps in any order. The
second store returns them in the order of the first one (`RowOrder.along`).
-/

namespace IpVault

open Lib

/-- The key has `can_read` on the group. -/
def World.reads (w : World) (key_id group_id : Uuid) : Prop :=
  ∃ p ∈ w.permissions, p.api_key_id = key_id ∧ p.group_id = group_id ∧ p.can_read = true

/-- The rows of the join. -/
def World.joined (w : World) : List MemberRow := Query.members_with_records.eval w

/-- The stores agree on what the key reads: its permission rows, the groups it reads, their memberships
and the records in them. -/
structure SameView (key_id : Uuid) (v w : World) : Prop where
  permissions : ∀ p, p.api_key_id = key_id → (p ∈ v.permissions ↔ p ∈ w.permissions)
  groups : ∀ g, v.reads key_id g.id → (g ∈ v.groups ↔ g ∈ w.groups)
  memberships : ∀ m, v.reads key_id m.group_id → (m ∈ v.memberships ↔ m ∈ w.memberships)
  records : ∀ m ∈ v.memberships, v.reads key_id m.group_id →
    ∀ r, r.id = m.ip_record_id → (r ∈ v.records ↔ r ∈ w.records)

namespace SameView

variable {key_id : Uuid} {v w : World} (h : SameView key_id v w)
include h

theorem reads (group_id : Uuid) : v.reads key_id group_id ↔ w.reads key_id group_id := by
  constructor
  · rintro ⟨p, hp, hkey, hgroup⟩
    exact ⟨p, (h.permissions p hkey).mp hp, hkey, hgroup⟩
  · rintro ⟨p, hp, hkey, hgroup⟩
    exact ⟨p, (h.permissions p hkey).mpr hp, hkey, hgroup⟩

theorem symm : SameView key_id w v where
  permissions p hp := (h.permissions p hp).symm
  groups g hg := (h.groups g ((h.reads g.id).mpr hg)).symm
  memberships m hm := (h.memberships m ((h.reads m.group_id).mpr hm)).symm
  records m hm hreads r hr := by
    have hv := (h.reads m.group_id).mpr hreads
    exact (h.records m ((h.memberships m hv).mpr hm) hv r hr).symm

/-- A group the key reads is found in both stores or in none. -/
theorem find_group {group_id : Uuid} (hreads : v.reads key_id group_id) :
    v.groups.find? group_id = w.groups.find? group_id := by
  ext g
  rw [Table.find?_eq_some, Table.find?_eq_some]
  refine and_congr_left fun hg => ?_
  exact h.groups g (hg ▸ hreads)

theorem find_record {m : Membership} (hm : m ∈ v.memberships) (hreads : v.reads key_id m.group_id) :
    v.records.find? m.ip_record_id = w.records.find? m.ip_record_id := by
  ext r
  rw [Table.find?_eq_some, Table.find?_eq_some]
  exact and_congr_left fun hr => h.records m hm hreads r hr

end SameView

theorem SameView.refl (key_id : Uuid) (v : World) : SameView key_id v v :=
  ⟨fun _ _ => Iff.rfl, fun _ _ => Iff.rfl, fun _ _ => Iff.rfl, fun _ _ _ _ _ => Iff.rfl⟩

theorem mem_joined {w : World} {row : MemberRow} :
    row ∈ w.joined ↔ row.1 ∈ w.memberships ∧ row.2 = w.records.find? row.1.ip_record_id := by
  show row ∈ w.memberships.rows.map _ ↔ _
  rw [List.mem_map]
  constructor
  · rintro ⟨m, hm, rfl⟩
    exact ⟨hm, rfl⟩
  · rintro ⟨hm, hr⟩
    exact ⟨row.1, hm, Prod.ext rfl hr.symm⟩

theorem nodup_joined (w : World) : w.joined.Nodup := by
  have hrows : w.memberships.rows.Nodup := w.memberships.unique.of_map
  exact hrows.map fun m m' h => congrArg Prod.fst h

/-- A row of a group the key reads is in both joins or in none. -/
theorem SameView.joined {key_id : Uuid} {v w : World} (h : SameView key_id v w) {row : MemberRow}
    (hreads : v.reads key_id row.1.group_id) : row ∈ v.joined ↔ row ∈ w.joined := by
  rw [mem_joined, mem_joined, ← h.memberships row.1 hreads]
  refine and_congr_right fun hm => ?_
  rw [h.find_record hm hreads]

/-! ## Orders of ties -/

namespace RowOrder

/-- The order in which `order` returns these rows, also when they come in another order. -/
def along (order : RowOrder) (rows : List MemberRow) : RowOrder where
  arrange l :=
    if (rows.filter (l.contains ·)).Perm l then order.arrange (rows.filter (l.contains ·))
    else order.arrange l
  perm l := by
    by_cases h : (rows.filter (l.contains ·)).Perm l
    · rw [if_pos h]
      exact (order.perm _).trans h
    · rw [if_neg h]
      exact order.perm l
  sorted l := by
    by_cases h : (rows.filter (l.contains ·)).Perm l
    · rw [if_pos h]
      exact order.sorted _
    · rw [if_neg h]
      exact order.sorted l

theorem along_arrange (order : RowOrder) {rows l l' : List MemberRow}
    (h : rows.filter (l.contains ·) = l') (hperm : l'.Perm l) :
    (order.along rows).arrange l = order.arrange l' := by
  show (if (rows.filter (l.contains ·)).Perm l then order.arrange (rows.filter (l.contains ·))
    else order.arrange l) = order.arrange l'
  rw [h, if_pos hperm]

end RowOrder

/-! ## Group constraints -/

/-- The filters name the group. -/
def QueryFilters.names (f : QueryFilters) (g : IpGroup) : Bool :=
  f.group_names.contains g.name || f.group_id == some g.id

/-- The filters differ at most in the names and the id of groups. They name the same of the groups the
key reads, and if one of them names a group at all, so does the other. -/
structure NamesAlike (key_id : Uuid) (v : World) (f f' : QueryFilters) : Prop where
  filters : ∃ groups group_name group_id,
    f' = { f with groups := groups, group_name := group_name, group_id := group_id }
  names : ∀ g ∈ v.groups, v.reads key_id g.id → f.names g = f'.names g
  any : (f.group_names = [] ∧ f.group_id = none) ↔ (f'.group_names = [] ∧ f'.group_id = none)

/-- The constraints let the same of the groups pass that the key reads. -/
def SameGroups (key_id : Uuid) (v : World) (a b : Option (List Uuid)) : Prop :=
  ∀ i, v.reads key_id i → (a.all (·.contains i)) = (b.all (·.contains i))

theorem NamesAlike.refl (key_id : Uuid) (v : World) (f : QueryFilters) : NamesAlike key_id v f f :=
  ⟨⟨f.groups, f.group_name, f.group_id, rfl⟩, fun _ _ _ => rfl, Iff.rfl⟩

theorem NamesAlike.symm {key_id : Uuid} {v w : World} {f f' : QueryFilters}
    (h : NamesAlike key_id v f f') (hsame : SameView key_id v w) : NamesAlike key_id w f' f where
  filters := by
    obtain ⟨groups, group_name, group_id, rfl⟩ := h.filters
    exact ⟨f.groups, f.group_name, f.group_id, rfl⟩
  names g hg hreads := by
    have hv := (hsame.reads g.id).mpr hreads
    exact (h.names g ((hsame.groups g hv).mpr hg) hv).symm
  any := h.any.symm

/-- What passes three constraints, the first of which is there. -/
theorem intersect_some (accessible : List Uuid) (named typed : Option (List Uuid)) :
    ∃ ids, intersect [some accessible, named, typed] = some ids ∧
      ∀ i, i ∈ ids ↔ i ∈ accessible ∧ named.all (·.contains i) = true ∧
        typed.all (·.contains i) = true := by
  cases named <;> cases typed <;> exact ⟨_, rfl, fun i => by simp⟩

/-! ## The listing -/

/-- The row is that of a record in a group the key reads, and does not say who deleted the record. -/
structure IpRecordResponse.Scoped (key_id : Uuid) (w : World) (row : IpRecordResponse) : Prop where
  deleted_by : row.deleted_by = none
  listed : ∃ m ∈ w.memberships, ∃ g ∈ w.groups, ∃ r ∈ w.records, m.group_id = g.id ∧
    m.ip_record_id = r.id ∧ w.reads key_id g.id ∧ row.id = r.id ∧
    row.target_address = r.target_address ∧ row.group_name = g.name ∧ row.group_type = g.group_type

/-- Everything in the answer is of groups the key reads. -/
def ListReply.Scoped (key_id : Uuid) (w : World) : ListReply → Prop
  | .ip_list addresses => ∀ a ∈ addresses, ∃ m ∈ w.memberships, ∃ r ∈ w.records,
      m.ip_record_id = r.id ∧ w.reads key_id m.group_id ∧ a = r.target_address
  | .envelope data _ _ _ _ => ∀ row ∈ data, row.Scoped key_id w
  | .items data => ∀ row ∈ data, row.Scoped key_id w

theorem empty_response_scoped (key_id : Uuid) (w : World) (f : QueryFilters) :
    f.empty_response.Scoped key_id w := by
  unfold QueryFilters.empty_response
  split
  · exact fun a ha => absurd ha List.not_mem_nil
  · split
    · exact fun row hrow => absurd hrow List.not_mem_nil
    · exact fun row hrow => absurd hrow List.not_mem_nil

section Alike

variable {ctx : Ctx} {f f' : QueryFilters} {v w : Vault}

theorem readable_groups_alike (hkey : ctx.key.is_master = false)
    (hsame : SameView ctx.key.id v.toWorld w.toWorld) :
    ReadsAlike v w (fun a b => ∃ l l', a = some l ∧ b = some l' ∧
      (∀ i, i ∈ l ↔ v.reads ctx.key.id i) ∧ ∀ i, i ∈ l' ↔ v.reads ctx.key.id i)
      (readable_groups ctx) (readable_groups ctx) := by
  have readable : ∀ (u : World) i, i ∈ ((((Query.permissions_of ctx.key.id).eval u).filter fun p =>
      p.can_read).map GroupPermission.group_id) ↔ u.reads ctx.key.id i := by
    intro u i
    rw [List.mem_map]
    constructor
    · rintro ⟨p, hp, rfl⟩
      obtain ⟨hp, hread⟩ := List.mem_filter.mp hp
      obtain ⟨hp, hkey⟩ := List.mem_filter.mp hp
      exact ⟨p, hp, of_decide_eq_true hkey, rfl, hread⟩
    · rintro ⟨p, hp, hkey, hgroup, hread⟩
      exact ⟨p, List.mem_filter.mpr ⟨List.mem_filter.mpr ⟨hp, decide_eq_true hkey⟩, hread⟩, hgroup⟩
  unfold readable_groups
  rw [if_neg (by rw [hkey]; exact Bool.false_ne_true)]
  refine .bind (.select (Q := fun rows rows' => rows = _ ∧ rows' = _) ⟨rfl, rfl⟩) ?_
  rintro rows rows' ⟨rfl, rfl⟩
  exact .pure ⟨_, _, rfl, rfl, readable v.toWorld, fun i => (readable w.toWorld i).trans
    (hsame.reads i).symm⟩

/-- A group of the store is named by its id, or by its name. -/
theorem named_contains (u : Vault) (f : QueryFilters) {g : IpGroup} (hg : g ∈ u.groups) :
    (((u.groups.rows.filter fun g => f.group_names.contains g.name).map IpGroup.id ++
      f.group_id.toList).contains g.id) = f.names g := by
  rw [Bool.eq_iff_iff, List.contains_iff_mem, List.mem_append, List.mem_map]
  unfold QueryFilters.names
  rw [Bool.or_eq_true, beq_iff_eq, Option.mem_toList]
  refine or_congr ?_ Iff.rfl
  constructor
  · rintro ⟨g', hg', hid⟩
    obtain ⟨hg', hname⟩ := List.mem_filter.mp hg'
    rw [← Table.eq_of_key hg' hg hid]
    exact hname
  · exact fun hname => ⟨g, List.mem_filter.mpr ⟨hg, hname⟩, rfl⟩

/-- A group the key reads is there. -/
theorem Vault.group_of_reads (u : Vault) {key_id i : Uuid} (h : u.reads key_id i) :
    ∃ g ∈ u.groups, g.id = i := by
  obtain ⟨p, hp, -, rfl, -⟩ := h
  exact Table.has_iff.mp (u.wf.permission_group p hp)

theorem named_groups_alike (hsame : SameView ctx.key.id v.toWorld w.toWorld)
    (hnames : NamesAlike ctx.key.id v.toWorld f f') :
    ReadsAlike v w (SameGroups ctx.key.id v.toWorld) (named_groups f) (named_groups f') := by
  refine .bind (.select (Q := fun rows rows' => rows = v.groups.rows ∧ rows' = w.groups.rows)
    ⟨rfl, rfl⟩) ?_
  rintro rows rows' ⟨rfl, rfl⟩
  refine .ite hnames.any (fun _ => .pure fun _ _ => rfl) fun _ => .pure fun i hreads => ?_
  obtain ⟨g, hg, rfl⟩ := v.group_of_reads hreads
  have hg' := (hsame.groups g hreads).mp hg
  rw [Option.all_some, Option.all_some, named_contains v f hg, named_contains w f' hg']
  exact hnames.names g hg hreads

theorem typed_groups_alike (hsame : SameView ctx.key.id v.toWorld w.toWorld)
    (status : Option String) :
    ReadsAlike v w (SameGroups ctx.key.id v.toWorld) (typed_groups status) (typed_groups status) := by
  cases status with
  | none => exact .pure fun _ _ => rfl
  | some group_type =>
      refine .bind (.select (Q := fun rows rows' => rows = v.groups.rows ∧ rows' = w.groups.rows)
        ⟨rfl, rfl⟩) ?_
      rintro rows rows' ⟨rfl, rfl⟩
      refine .pure fun i hreads => ?_
      rw [Option.all_some, Option.all_some, Bool.eq_iff_iff, List.contains_iff_mem,
        List.contains_iff_mem, List.mem_map, List.mem_map]
      constructor
      · rintro ⟨g, hg, rfl⟩
        obtain ⟨hg, htype⟩ := List.mem_filter.mp hg
        exact ⟨g, List.mem_filter.mpr ⟨(hsame.groups g hreads).mp hg, htype⟩, rfl⟩
      · rintro ⟨g, hg, rfl⟩
        obtain ⟨hg, htype⟩ := List.mem_filter.mp hg
        exact ⟨g, List.mem_filter.mpr ⟨(hsame.groups g hreads).mpr hg, htype⟩, rfl⟩

/-- The rows the filters select, among the groups of a list. -/
theorem selected_alike (hsame : SameView ctx.key.id v.toWorld w.toWorld)
    (hfilters : ∃ groups group_name group_id,
      f' = { f with groups := groups, group_name := group_name, group_id := group_id })
    {ids ids' : List Uuid} (hids : ∀ i ∈ ids, v.reads ctx.key.id i)
    (hids' : ∀ i, i ∈ ids ↔ i ∈ ids') (threshold : Option Int) :
    let selected := v.joined.filter (f.matches_row .time ctx.env ctx.now threshold (some ids))
    let selected' := w.joined.filter (f'.matches_row .time ctx.env ctx.now threshold (some ids'))
    v.joined.filter (selected'.contains ·) = selected ∧ selected.Perm selected' := by
  intro selected selected'
  have hmatches : ∀ row, f.matches_row .time ctx.env ctx.now threshold (some ids) row =
      f'.matches_row .time ctx.env ctx.now threshold (some ids') row := by
    obtain ⟨groups, group_name, group_id, rfl⟩ := hfilters
    intro row
    have hcontains : ids.contains row.1.group_id = ids'.contains row.1.group_id := by
      rw [Bool.eq_iff_iff, List.contains_iff_mem, List.contains_iff_mem]
      exact hids' _
    unfold QueryFilters.matches_row
    rw [Option.all_some, Option.all_some, hcontains]
    rfl
  have hreads : ∀ row, f.matches_row .time ctx.env ctx.now threshold (some ids) row = true →
      v.reads ctx.key.id row.1.group_id := by
    intro row hrow
    have hmem := ((Bool.and_eq_true _ _).mp hrow).1
    exact hids _ (List.contains_iff_mem.mp hmem)
  have hmem : ∀ row ∈ v.joined, row ∈ selected' ↔
      f.matches_row .time ctx.env ctx.now threshold (some ids) row = true := by
    intro row hrow
    rw [List.mem_filter, ← hmatches]
    refine ⟨And.right, fun h => ⟨?_, h⟩⟩
    exact (hsame.joined (hreads row h)).mp hrow
  refine ⟨List.filter_congr fun row hrow => ?_, ?_⟩
  · rw [Bool.eq_iff_iff, List.contains_iff_mem]
    exact hmem row hrow
  · refine (List.perm_ext_iff_of_nodup ((nodup_joined _).filter _) ((nodup_joined _).filter _)).mpr ?_
    intro row
    rw [List.mem_filter, List.mem_filter, ← hmatches]
    exact and_congr_left fun h => hsame.joined (hreads row h)

theorem record_response_alike (hsame : SameView ctx.key.id v.toWorld w.toWorld) {row : MemberRow}
    (hreads : v.reads ctx.key.id row.1.group_id) :
    record_response ctx v.groups.rows row = record_response ctx w.groups.rows row := by
  have hgroup : v.groups.rows.find? (fun g => g.id = row.1.group_id) =
      w.groups.rows.find? fun g => g.id = row.1.group_id := hsame.find_group hreads
  unfold record_response
  rw [hgroup]

theorem record_response_scoped (hkey : ctx.key.is_master = false) {row : MemberRow}
    (hrow : row ∈ v.joined) (hreads : v.reads ctx.key.id row.1.group_id) {r : IpRecordResponse}
    (h : record_response ctx v.groups.rows row = some r) : r.Scoped ctx.key.id v.toWorld := by
  obtain ⟨hm, hrecord⟩ := mem_joined.mp hrow
  unfold record_response at h
  cases hr : row.2 with
  | none => rw [hr] at h; cases h
  | some record =>
      rw [hr] at h hrecord
      obtain ⟨_, hsome, hrest⟩ := Option.bind_eq_some_iff.mp h
      obtain rfl := Option.some.inj hsome
      obtain ⟨g, hg, hresponse⟩ := Option.bind_eq_some_iff.mp hrest
      obtain ⟨hg, hid⟩ := Table.find?_eq_some.mp (hg : v.groups.find? row.1.group_id = some g)
      obtain ⟨hr, hrid⟩ := Table.find?_eq_some.mp hrecord.symm
      obtain rfl := Option.some.inj hresponse
      refine ⟨if_neg (by rw [hkey]; exact Bool.false_ne_true), row.1, hm, g, hg, record, hr, hid.symm,
        hrid.symm, hid ▸ hreads, rfl, rfl, rfl, rfl⟩

theorem list_page_alike (hkey : ctx.key.is_master = false)
    (hsame : SameView ctx.key.id v.toWorld w.toWorld)
    (hfilters : ∃ groups group_name group_id,
      f' = { f with groups := groups, group_name := group_name, group_id := group_id })
    {ids ids' : List Uuid} (hids : ∀ i ∈ ids, v.reads ctx.key.id i)
    (hids' : ∀ i, i ∈ ids ↔ i ∈ ids') (order : RowOrder) (threshold : Option Int) :
    ReadsAlike v w (fun a b => a = b ∧ a.Scoped ctx.key.id v.toWorld)
      (list_page .time ctx order f threshold (some ids))
      (list_page .time ctx (order.along v.joined) f' threshold (some ids')) := by
  have selected : let rows := v.joined.filter (f.matches_row .time ctx.env ctx.now threshold (some ids))
      let rows' := w.joined.filter (f'.matches_row .time ctx.env ctx.now threshold (some ids'))
      v.joined.filter (rows'.contains ·) = rows ∧ rows.Perm rows' :=
    selected_alike hsame hfilters hids hids' threshold
  obtain ⟨hselected, hperm⟩ := selected
  have harrange := order.along_arrange hselected hperm
  have hlength := hperm.length_eq
  have hfields : f'.page_offset = f.page_offset ∧ f'.page_limit = f.page_limit ∧
      f'.format_iplist = f.format_iplist ∧ f'.with_total = f.with_total := by
    obtain ⟨groups, group_name, group_id, rfl⟩ := hfilters
    exact ⟨rfl, rfl, rfl, rfl⟩
  obtain ⟨hoffset, hlimit, hformat, htotal⟩ := hfields
  unfold list_page
  rw [hoffset, hlimit, hformat, htotal]
  refine .bind (.select (Q := fun rows rows' => rows = v.joined ∧ rows' = w.joined) ⟨rfl, rfl⟩) ?_
  rintro rows rows' ⟨rfl, rfl⟩
  refine .bind (.select (Q := fun rows rows' => rows = v.groups.rows ∧ rows' = w.groups.rows)
    ⟨rfl, rfl⟩) ?_
  rintro rows rows' ⟨rfl, rfl⟩
  rw [← hlength, harrange]
  -- Both stores show the same page; what is left is that the caller may read each of its rows.
  generalize hpage : ((order.arrange (v.joined.filter (f.matches_row .time ctx.env ctx.now threshold
    (some ids)))).drop f.page_offset).take f.page_limit = page
  have page_reads : ∀ row ∈ page, row ∈ v.joined ∧ v.reads ctx.key.id row.1.group_id := by
    intro row hrow
    rw [← hpage] at hrow
    have harranged := List.mem_of_mem_drop (List.mem_of_mem_take hrow)
    obtain ⟨hjoined, hmatches⟩ := List.mem_filter.mp ((order.perm _).subset harranged)
    have hgroup := ((Bool.and_eq_true _ _).mp hmatches).1
    exact ⟨hjoined, hids _ (List.contains_iff_mem.mp hgroup)⟩
  have hdata : page.filterMap (record_response ctx v.groups.rows) =
      page.filterMap (record_response ctx w.groups.rows) :=
    List.filterMap_congr fun row hrow => record_response_alike hsame (page_reads row hrow).2
  have data_scoped : ∀ r ∈ page.filterMap (record_response ctx v.groups.rows),
      r.Scoped ctx.key.id v.toWorld := by
    intro r hr
    obtain ⟨row, hrow, hresponse⟩ := List.mem_filterMap.mp hr
    exact record_response_scoped hkey (page_reads row hrow).1 (page_reads row hrow).2 hresponse
  refine .ite Iff.rfl (fun _ => .pure ⟨congrArg ListReply.ip_list ?_, ?_⟩) fun _ =>
    .ite Iff.rfl (fun _ => .pure ⟨?_, data_scoped⟩) fun _ => .pure ⟨congrArg _ hdata, data_scoped⟩
  · rfl
  · intro a ha
    have haddress := List.mem_mergeSort.mp ((List.destutter_sublist _ _).subset ha)
    obtain ⟨row, hrow, hrecord⟩ := List.mem_filterMap.mp haddress
    obtain ⟨r, hr, rfl⟩ := Option.map_eq_some_iff.mp hrecord
    obtain ⟨hm, hfound⟩ := mem_joined.mp (page_reads row hrow).1
    obtain ⟨hr, hid⟩ := Table.find?_eq_some.mp (hfound.symm.trans hr)
    exact ⟨row.1, hm, r, hr, hid.symm, (page_reads row hrow).2, rfl⟩
  · exact congrArg (ListReply.envelope · _ _ _ _) hdata

/-- **The listing**, read from two stores that look alike to the caller. -/
theorem list_ips_alike (hkey : ctx.key.is_master = false)
    (hsame : SameView ctx.key.id v.toWorld w.toWorld)
    (hnames : NamesAlike ctx.key.id v.toWorld f f') (order : RowOrder) :
    ReadsAlike v w (fun a b => a = b ∧ a.Scoped ctx.key.id v.toWorld) (list_ips ctx order f)
      (list_ips ctx (order.along v.joined) f') := by
  have hfilters := hnames.filters
  have hempty : f'.empty_response = f.empty_response := by
    obtain ⟨groups, group_name, group_id, rfl⟩ := hfilters
    rfl
  have hstatus : f'.status = f.status := by
    obtain ⟨groups, group_name, group_id, rfl⟩ := hfilters
    rfl
  have hsince : f'.since = f.since := by
    obtain ⟨groups, group_name, group_id, rfl⟩ := hfilters
    rfl
  have empty_alike : ReadsAlike v w (fun a b => a = b ∧ a.Scoped ctx.key.id v.toWorld)
      (.ret f.empty_response) (.ret f'.empty_response) :=
    .pure ⟨hempty.symm, empty_response_scoped _ _ f⟩
  -- The lists of groups need not be equal, but they have the same members. The listing looks at
  -- whether they are empty and at what they contain.
  have same_emptiness : ∀ l l' : List Uuid, (∀ i, i ∈ l ↔ i ∈ l') →
      (some l = some [] ↔ some l' = some []) := by
    intro l l' h
    rw [Option.some_inj, Option.some_inj, List.eq_nil_iff_forall_not_mem,
      List.eq_nil_iff_forall_not_mem]
    exact forall_congr' fun i => not_congr (h i)
  refine .bind (readable_groups_alike hkey hsame) ?_
  rintro _ _ ⟨l, l', rfl, rfl, hl, hl'⟩
  refine .ite (same_emptiness l l' fun i => (hl i).trans (hl' i).symm) (fun _ => empty_alike)
    fun _ => .bind (named_groups_alike hsame hnames) fun named named' hnamed => ?_
  rw [hstatus, hsince]
  refine .bind (.ofExcept (Q := Eq) fun _ _ => rfl) ?_
  rintro status _ rfl
  refine .bind (typed_groups_alike hsame status) fun typed typed' htyped => ?_
  obtain ⟨ids, hintersect, hids⟩ := intersect_some l named typed
  obtain ⟨ids', hintersect', hids'⟩ := intersect_some l' named' typed'
  rw [hintersect, hintersect']
  have hreads : ∀ i ∈ ids, v.reads ctx.key.id i := fun i hi => (hl i).mp ((hids i).mp hi).1
  have hmem : ∀ i, i ∈ ids ↔ i ∈ ids' := by
    intro i
    rw [hids i, hids' i, hl i, hl' i]
    refine and_congr_right fun hi => ?_
    rw [hnamed i hi, htyped i hi]
  refine .ite (same_emptiness ids ids' hmem) (fun _ => empty_alike) fun _ => ?_
  refine .bind (.ofExcept (Q := Eq) fun _ _ => rfl) ?_
  rintro threshold _ rfl
  exact list_page_alike hkey hsame hfilters hreads hmem order threshold

end Alike

/-- What the database may let `list_ips` answer: rows with equal timestamps come in any order. -/
def listings (ctx : Ctx) (f : QueryFilters) (v : Vault) : Set (Except AppError ListReply) :=
  { r | ∃ order, ((list_ips ctx order f).run database v).1 = r }

/-- **The listing is scoped.** Every row is of a group the caller reads, nobody is told who deleted a
record, and the answer is the same from every store that looks alike to the caller, also when the
filters name other groups the caller does not read, or groups that are not there. -/
theorem listing_scoped (ctx : Ctx) (hkey : ctx.key.is_master = false) (f : QueryFilters)
    (v : Vault) :
    (∀ reply, .ok reply ∈ listings ctx f v → reply.Scoped ctx.key.id v.toWorld) ∧
      ∀ w f', SameView ctx.key.id v.toWorld w.toWorld → NamesAlike ctx.key.id v.toWorld f f' →
        listings ctx f v = listings ctx f' w := by
  have answered : ∀ (v w : Vault) f f', SameView ctx.key.id v.toWorld w.toWorld →
      NamesAlike ctx.key.id v.toWorld f f' → listings ctx f v ⊆ listings ctx f' w := by
    rintro v w f f' hsame hnames r ⟨order, rfl⟩
    have halike := (list_ips_alike hkey hsame hnames order).imp fun _ _ => And.left
    exact ⟨order.along v.joined, halike.answer_eq.symm⟩
  refine ⟨?_, fun w f' hsame hnames => Set.Subset.antisymm (answered v w f f' hsame hnames)
    (answered w v f' f hsame.symm (hnames.symm hsame))⟩
  rintro reply ⟨order, horder⟩
  have halike := list_ips_alike hkey (.refl ctx.key.id v.toWorld)
    (.refl ctx.key.id v.toWorld f) order
  unfold ReadsAlike Prog.Twins at halike
  rcases hp : (list_ips ctx order f).run database v with ⟨_ | a, v'⟩ <;>
    rcases hq : (list_ips ctx (order.along v.joined) f).run database v with ⟨_ | b, w'⟩ <;>
    rw [hp, hq] at halike <;> rw [hp] at horder
  · cases horder
  · cases horder
  · exact halike.elim
  · obtain rfl := Except.ok.inj horder
    exact halike.2.2.2

/-! ## A group in the attic -/

/-- The sensor, at its listing. -/
def Ctx.sensor : Ctx :=
  ⟨.sample, ⟨{ ApiKey.sample 1 with can_create_groups := true }, "203.0.113.9"⟩, 9, ⟨"", "", []⟩⟩

/-- The master bans an address. -/
def UpsertTxn.sample (now : Int) (normalized_address : String) (group_id : Uuid)
    (group_name : String) : UpsertTxn :=
  ⟨⟨{ ApiKey.sample 0 with is_master := true }, "203.0.113.9"⟩, now, normalized_address, none,
    group_id, group_name, false⟩

/-- One address is banned, in the group the sensor reads. -/
def Vault.shown : Vault := Vault.sample.after (.upsert_txn (.sample 5 "203.0.113.7" 2 "bans"))

/-- Another one is banned in a group of which the sensor knows nothing. -/
def Vault.shown_and_hidden : Vault :=
  (Vault.shown.after (.insert_group (new_group "attic" "banlist" none 6))).after
    (.upsert_txn (.sample 7 "198.51.100.1" 4 "attic"))

theorem reads_bans {i : Uuid} (h : Vault.shown_and_hidden.reads 1 i) : i = 2 := by
  obtain ⟨p, hp, -, rfl, -⟩ := h
  have hall : ∀ p ∈ Vault.shown_and_hidden.permissions.rows, p.group_id = 2 := by decide
  exact hall p hp

/-- Each table has one row that is shown and one that is hidden. -/
theorem mem_shown_iff {α : Type} {x shown hidden : α} (h : x ≠ hidden) :
    x ∈ [shown, hidden] ↔ x ∈ [shown] := by
  rw [List.mem_cons, List.mem_singleton, List.mem_singleton, or_iff_left h]

theorem attic_hidden : SameView 1 Vault.shown_and_hidden.toWorld Vault.shown.toWorld where
  permissions p hp := Iff.rfl
  groups g hg := by
    have hid := reads_bans hg
    refine mem_shown_iff ?_
    rintro rfl
    exact absurd hid (by decide)
  memberships m hm := by
    have hid := reads_bans hm
    refine mem_shown_iff ?_
    rintro rfl
    exact absurd hid (by decide)
  records m hmem hm r hr := by
    have hid := reads_bans hm
    have hrecord : ∀ m ∈ Vault.shown_and_hidden.memberships.rows, m.group_id = 2 →
        m.ip_record_id = 3 := by decide
    rw [hrecord m hmem hid] at hr
    refine mem_shown_iff ?_
    rintro rfl
    exact absurd hr (by decide)

theorem attic_named_like_nothing : NamesAlike 1 Vault.shown_and_hidden.toWorld
    { group_name := some "attic" } { group_name := some "nowhere" } where
  filters := ⟨none, some "nowhere", none, rfl⟩
  names g hg hreads := by
    have hname : ∀ g ∈ Vault.shown_and_hidden.groups.rows, g.id = 2 → g.name = "bans" := by decide
    unfold QueryFilters.names
    rw [hname g hg (reads_bans hreads)]
    rfl
  any := by decide

/-- To the sensor the group is not there. -/
theorem listing_scoped_attic :
    listings .sensor { group_name := some "attic" } .shown_and_hidden =
      listings .sensor { group_name := some "nowhere" } .shown :=
  (listing_scoped .sensor rfl { group_name := some "attic" } .shown_and_hidden).2 .shown
    { group_name := some "nowhere" } attic_hidden attic_named_like_nothing

end IpVault
