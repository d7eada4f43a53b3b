import IpVault.Records.ListingAnswer

set_option autoImplicit false

/-! # The pages of the record listing

A client that reads the listing page by page sends one request for each page, and the database sorts for
each of them anew, by `updated_at` alone. `PagesPartition` says that the pages hold every membership
once, in whatever order the database returns rows with equal timestamps. `pages_partition_iff` says when.
-/

namespace IpVault

open Lib

/-! ## Requests for pages -/

/-- The request for the page number `k`. -/
def QueryFilters.page_request (f : QueryFilters) (limit k : Nat) : QueryFilters :=
  { f with
    limit := some limit
    offset := some (k * limit)
    include_total := some true
    format := none
    mode := none }

/-- The memberships that pass every filter. A `status` or `since` that cannot be read selects nothing. -/
def QueryFilters.matching (f : QueryFilters) (ctx : Ctx) (w : World) : List MemberRow :=
  match status_type f.status, since_threshold f.since with
  | .ok status, .ok threshold => w.joined.filter (f.lists ctx w status threshold)
  | _, _ => []

/-- The memberships that the query selects on SQLite. -/
def QueryFilters.found (f : QueryFilters) (ctx : Ctx) (w : World) : List MemberRow :=
  match status_type f.status, since_threshold f.since with
  | .ok status, .ok threshold =>
      w.joined.filter (f.matches_row .text ctx.env ctx.now threshold (f.group_ids ctx w status))
  | _, _ => []

/-- The request passes the checks of `list_ips`, or one of the early answers comes first: the caller
reads no group, or no group is left. -/
def QueryFilters.Passes (f : QueryFilters) (ctx : Ctx) (w : World) : Prop :=
  ctx.readable_ids w = some [] ∨ ∃ status, status_type f.status = .ok status ∧
    (f.group_ids ctx w status = some [] ∨
      (f.max_age_fits ctx.now = true ∧ (∃ threshold, since_threshold f.since = .ok threshold) ∧
        f.page_fits = true))

/-- A request for one page that has room for every membership, in the plain shape. -/
structure QueryFilters.Whole (f : QueryFilters) (w : World) : Prop where
  format : f.format_iplist = false
  total : f.with_total = false
  offset : f.page_offset = 0
  limit : w.memberships.rows.length ≤ f.page_limit

/-- The listing answers, with neither an error nor a panic. -/
def QueryFilters.Answered (f : QueryFilters) (ctx : Ctx) (v : Vault) : Prop :=
  ∃ order reply, (list_ips_or_panic ctx order f).run database v = (.ok (some reply), v)

/-- The first page is answered, and so is every page up to `total_pages`; together they hold every
matching membership exactly once, whatever order the database chooses for each of them. -/
def PagesPartition (ctx : Ctx) (f : QueryFilters) (limit : Nat) (v : Vault) : Prop :=
  ∀ orders : Nat → RowOrder, ∃ (data : Nat → List IpRecordResponse) (total total_pages : Nat),
    (∀ k, k = 0 ∨ k < total_pages →
      (list_ips_or_panic ctx (orders k) (f.page_request limit k)).run database v =
        (.ok (some (.envelope (data k) total limit (k * limit) total_pages)), v)) ∧
    ((List.range total_pages).flatMap data).Perm
      ((f.matching ctx v.toWorld).filterMap (record_response ctx v.groups.rows))

/-- The limit, and the offsets of the pages that are not empty, can be bound, unless an early answer
comes first. -/
structure QueryFilters.PagesFit (f : QueryFilters) (ctx : Ctx) (w : World) (limit : Nat) : Prop where
  limit_fits : ∀ status, status_type f.status = .ok status →
    (∃ i, f.admits ctx w status i = true) → limit < 2 ^ 63
  offset_fits : ∀ k, k * limit < (f.matching ctx w).length → k * limit < 2 ^ 63

section Pages

variable {ctx : Ctx} {f : QueryFilters} {v : Vault} {limit : Nat}

theorem mem_matching {row : MemberRow} (h : row ∈ f.matching ctx v.toWorld) : row ∈ v.joined := by
  unfold QueryFilters.matching at h
  split at h
  · exact (List.mem_filter.mp h).1
  · exact absurd h List.not_mem_nil

theorem nodup_matching (f : QueryFilters) (ctx : Ctx) (w : World) : (f.matching ctx w).Nodup := by
  unfold QueryFilters.matching
  split
  · exact (nodup_joined w).filter _
  · exact List.nodup_nil

theorem matching_of_valid {status : Option String} {threshold : Option Int}
    (hstatus : status_type f.status = .ok status) (hsince : since_threshold f.since = .ok threshold) :
    f.matching ctx v.toWorld = v.joined.filter (f.lists ctx v.toWorld status threshold) := by
  unfold QueryFilters.matching
  rw [hstatus, hsince]

theorem mem_found {row : MemberRow} (h : row ∈ f.found ctx v.toWorld) : row ∈ v.joined := by
  unfold QueryFilters.found at h
  split at h
  · exact (List.mem_filter.mp h).1
  · exact absurd h List.not_mem_nil

/-- What is found and what matches are selected from the same rows. -/
theorem found_eq_matching
    (h : ∀ row, row ∈ f.found ctx v.toWorld ↔ row ∈ f.matching ctx v.toWorld) :
    f.found ctx v.toWorld = f.matching ctx v.toWorld := by
  unfold QueryFilters.found QueryFilters.matching at h ⊢
  split
  · rename_i status threshold hstatus hsince
    rw [hstatus, hsince] at h
    refine List.filter_congr fun row hrow => ?_
    have hmem := h row
    rw [List.mem_filter, List.mem_filter, and_iff_right hrow, and_iff_right hrow] at hmem
    exact Bool.eq_iff_iff.mpr hmem
  · rfl

/-- Where the request admits no group, nothing is found. -/
theorem found_eq_nil
    (h : ∀ status, status_type f.status = .ok status →
      ∀ i, f.admits ctx v.toWorld status i = false) : f.found ctx v.toWorld = [] := by
  unfold QueryFilters.found
  split
  · rename_i status threshold hstatus _
    refine List.filter_eq_nil_iff.mpr fun row hrow hmatches => ?_
    rw [matches_row_eq .text hrow, h status hstatus] at hmatches
    exact Bool.false_ne_true hmatches
  · rfl

/-- Where the request admits no group, nothing matches. -/
theorem matching_eq_nil
    (h : ∀ status, status_type f.status = .ok status →
      ∀ i, f.admits ctx v.toWorld status i = false) : f.matching ctx v.toWorld = [] := by
  unfold QueryFilters.matching
  split
  · exact filter_lists_eq_nil (h _ (by assumption)) _
  · rfl

/-- Values that can be read are listed. -/
theorem listed_of_valid {status : Option String} {threshold : Option Int}
    (hstatus : status_type f.status = .ok status) (hsince : since_threshold f.since = .ok threshold)
    (order : RowOrder) : f.listed ctx v.toWorld order =
      .ok (f.reply ctx v.toWorld order (f.matching ctx v.toWorld)) := by
  unfold QueryFilters.listed
  by_cases hscope : ctx.readable_ids v.toWorld = some []
  · rw [if_pos hscope, matching_eq_nil fun status _ => admits_of_no_scope hscope status,
      QueryFilters.reply_nil]
  · rw [if_neg hscope, hstatus]
    show (if f.group_ids ctx v.toWorld status = some [] then _ else _) = _
    by_cases hids : f.group_ids ctx v.toWorld status = some []
    · have hnone : ∀ status', status_type f.status = .ok status' →
          ∀ i, f.admits ctx v.toWorld status' i = false := by
        intro status' hstatus'
        rw [← Except.ok.inj (hstatus.symm.trans hstatus')]
        exact (group_ids_eq_nil_iff status).mp hids
      rw [if_pos hids, matching_eq_nil hnone, QueryFilters.reply_nil]
    · have hfilter := List.filter_congr fun row (hrow : row ∈ v.joined) =>
        @matches_row_eq_lists ctx f v row hrow status threshold
      rw [if_neg hids, hsince, matching_of_valid hstatus hsince, ← hfilter]
      rfl

/-- **The whole listing.** A request for one page that has room for every membership, in the plain
shape, is answered with all that matches. -/
theorem run_whole {status : Option String} {threshold : Option Int} (hwhole : f.Whole v.toWorld)
    (hstatus : status_type f.status = .ok status) (hsince : since_threshold f.since = .ok threshold)
    (order : RowOrder) :
    (list_ips ctx order f).run database v =
      (.ok (.items ((order.arrange (f.matching ctx v.toWorld)).filterMap
        (record_response ctx v.groups.rows))), v) := by
  have hjoined : v.joined.length = v.memberships.rows.length := List.length_map _
  have hsub := ((nodup_matching f ctx v.toWorld).subperm fun row => mem_matching).length_le
  have harranged := (order.perm (f.matching ctx v.toWorld)).length_eq
  have hlimit := hwhole.limit
  have htake : (order.arrange (f.matching ctx v.toWorld)).take f.page_limit =
      order.arrange (f.matching ctx v.toWorld) := List.take_of_length_le (by omega)
  have hreply : f.reply ctx v.toWorld order (f.matching ctx v.toWorld) =
      .items ((order.arrange (f.matching ctx v.toWorld)).filterMap
        (record_response ctx v.groups.rows)) := by
    unfold QueryFilters.reply
    rw [hwhole.format, hwhole.total, hwhole.offset, List.drop_zero, htake]
    rfl
  rw [run_list_ips, listed_of_valid hstatus hsince, hreply]

/-! ## Requests that pass -/

/-- A request that passes is answered with what is found. -/
theorem QueryFilters.Passes.answered (h : f.Passes ctx v.toWorld) (order : RowOrder) :
    f.answered .text ctx v.toWorld order =
      .ok (some (f.reply ctx v.toWorld order (f.found ctx v.toWorld))) := by
  unfold QueryFilters.answered
  by_cases hscope : ctx.readable_ids v.toWorld = some []
  · rw [if_pos hscope, found_eq_nil fun status _ => admits_of_no_scope hscope status,
      QueryFilters.reply_nil]
  · obtain ⟨status, hstatus, hrest⟩ := h.resolve_left hscope
    rw [if_neg hscope, hstatus]
    show (if f.group_ids ctx v.toWorld status = some [] then _ else _) = _
    by_cases hids : f.group_ids ctx v.toWorld status = some []
    · have hnone : ∀ status', status_type f.status = .ok status' →
          ∀ i, f.admits ctx v.toWorld status' i = false := by
        intro status' hstatus'
        rw [← Except.ok.inj (hstatus.symm.trans hstatus')]
        exact (group_ids_eq_nil_iff status).mp hids
      rw [if_pos hids, found_eq_nil hnone, QueryFilters.reply_nil]
    · obtain ⟨hage, ⟨threshold, hsince⟩, hpage⟩ := hrest.resolve_left hids
      unfold QueryFilters.found
      rw [if_neg hids, if_neg (by rw [hage]; exact Bool.noConfusion), hstatus, hsince]
      show (if f.page_fits = false then _ else _) = _
      rw [if_neg (by rw [hpage]; exact Bool.noConfusion)]

/-- Only a request that passes is answered. -/
theorem passes_of_answered {order : RowOrder} {reply : ListReply}
    (h : f.answered .text ctx v.toWorld order = .ok (some reply)) : f.Passes ctx v.toWorld := by
  unfold QueryFilters.answered at h
  by_cases hscope : ctx.readable_ids v.toWorld = some []
  · exact .inl hscope
  · rw [if_neg hscope] at h
    cases hstatus : status_type f.status with
    | error e => rw [hstatus] at h; cases h
    | ok status =>
        rw [hstatus] at h
        refine .inr ⟨status, hstatus, ?_⟩
        change (if f.group_ids ctx v.toWorld status = some [] then _ else _) = _ at h
        by_cases hids : f.group_ids ctx v.toWorld status = some []
        · exact .inl hids
        · rw [if_neg hids] at h
          cases hage : f.max_age_fits ctx.now with
          | false => rw [if_pos hage] at h; cases h
          | true =>
              rw [if_neg (by rw [hage]; exact Bool.noConfusion)] at h
              cases hsince : since_threshold f.since with
              | error e => rw [hsince] at h; cases h
              | ok threshold =>
                  rw [hsince] at h
                  change (if f.page_fits = false then _ else _) = _ at h
                  cases hpage : f.page_fits with
                  | false => rw [if_pos hpage] at h; cases h
                  | true => exact .inr ⟨rfl, ⟨threshold, rfl⟩, rfl⟩

/-- What is answered passes. -/
theorem QueryFilters.Answered.passes (h : f.Answered ctx v) : f.Passes ctx v.toWorld := by
  obtain ⟨order, reply, hrun⟩ := h
  rw [run_list_ips_or_panic, Prod.mk.injEq] at hrun
  exact passes_of_answered hrun.1

/-- **Which pages are answered**, if any is: those whose limit and offset can be bound, unless an early
answer comes first. -/
theorem page_passes_iff (hfirst : (f.page_request 1 0).Passes ctx v.toWorld) (k : Nat) :
    (f.page_request limit k).Passes ctx v.toWorld ↔
      ∀ status, status_type f.status = .ok status → (∃ i, f.admits ctx v.toWorld status i = true) →
        limit < 2 ^ 63 ∧ k * limit < 2 ^ 63 := by
  constructor
  · rintro (hscope | ⟨status', hstatus', hids | ⟨-, -, hpage⟩⟩) status hstatus ⟨i, hi⟩
    · rw [admits_of_no_scope hscope status i] at hi
      exact absurd hi Bool.false_ne_true
    · obtain rfl : status' = status := Except.ok.inj (hstatus'.symm.trans hstatus)
      have hnone := (group_ids_eq_nil_iff (f := f) status').mp hids i
      rw [hnone] at hi
      exact absurd hi Bool.false_ne_true
    · exact of_decide_eq_true hpage
  · intro hfits
    rcases hfirst with hscope | ⟨status, hstatus, hids | ⟨hage, hsince, -⟩⟩
    · exact .inl hscope
    · exact .inr ⟨status, hstatus, .inl hids⟩
    · by_cases hids : f.group_ids ctx v.toWorld status = some []
      · exact .inr ⟨status, hstatus, .inl hids⟩
      · have hadmits : ∃ i, f.admits ctx v.toWorld status i = true := by
          by_contra hnone
          refine hids ((group_ids_eq_nil_iff status).mpr fun i => ?_)
          exact Bool.eq_false_iff.mpr fun hi => hnone ⟨i, hi⟩
        refine .inr ⟨status, hstatus, .inr ⟨hage, hsince, ?_⟩⟩
        exact decide_eq_true (hfits status hstatus hadmits)

/-- Where something matches, a group is admitted. -/
theorem admits_of_matching (h : f.matching ctx v.toWorld ≠ []) :
    ∃ status, status_type f.status = .ok status ∧ ∃ i, f.admits ctx v.toWorld status i = true := by
  by_contra hnone
  refine h (matching_eq_nil fun status hstatus i => ?_)
  exact Bool.eq_false_iff.mpr fun hi => hnone ⟨status, hstatus, i, hi⟩

/-- **A page** of the listing. -/
theorem run_page_request (order : RowOrder) {k : Nat}
    (h : (f.page_request limit k).Passes ctx v.toWorld) :
    (list_ips_or_panic ctx order (f.page_request limit k)).run database v =
      (.ok (some (.envelope
        ((page limit k (order.arrange (f.found ctx v.toWorld))).filterMap
          (record_response ctx v.groups.rows))
        (f.found ctx v.toWorld).length limit (k * limit)
        (if limit = 0 then 0
          else ((f.found ctx v.toWorld).length + limit - 1) / limit))), v) := by
  rw [run_list_ips_or_panic, h.answered]
  rfl

/-- The pages before the last one are not empty. -/
theorem lt_total_pages_iff (hlimit : 1 ≤ limit) {k n : Nat} :
    k < (n + limit - 1) / limit ↔ k * limit < n := by
  rw [Nat.lt_iff_add_one_le, Nat.le_div_iff_mul_le (by omega), Nat.succ_mul]
  omega

/-! ## Orders and answers -/

/-- A row of the join is shown with the id of its record and the name of its group. -/
theorem response_of_joined (ctx : Ctx) {row : MemberRow} (h : row ∈ v.joined) :
    ∃ g ∈ v.groups, ∃ r, record_response ctx v.groups.rows row = some r ∧
      g.id = row.1.group_id ∧ g.name = r.group_name ∧ row.1.ip_record_id = r.id := by
  obtain ⟨record, -, hrecord, hid⟩ := v.record_of_joined h
  obtain ⟨g, hg, hgroup⟩ := Table.has_iff.mp (v.wf.membership_group _ (mem_joined.mp h).1)
  have hfound : v.groups.rows.find? (fun g => g.id = row.1.group_id) = some g :=
    Table.find?_eq_some.mpr ⟨hg, hgroup⟩
  refine ⟨g, hg, ?_⟩
  unfold record_response
  rw [hrecord, hfound]
  exact ⟨_, rfl, hgroup, rfl, hid.symm⟩

/-- No two memberships are shown alike. -/
theorem response_inj {a b : MemberRow} (ha : a ∈ v.joined) (hb : b ∈ v.joined) {r : IpRecordResponse}
    (hra : record_response ctx v.groups.rows a = some r)
    (hrb : record_response ctx v.groups.rows b = some r) : a = b := by
  obtain ⟨g, hg, s, hs, hgroup, hname, hid⟩ := response_of_joined ctx ha
  obtain ⟨g', hg', s', hs', hgroup', hname', hid'⟩ := response_of_joined ctx hb
  obtain rfl := Option.some.inj (hs.symm.trans hra)
  obtain rfl := Option.some.inj (hs'.symm.trans hrb)
  have hsame : g = g' := v.wf.group_name_unique g hg g' hg' (hname.trans hname'.symm)
  subst hsame
  have hkeys : a.1.key = b.1.key := Prod.ext (hid.trans hid'.symm) (hgroup.symm.trans hgroup')
  obtain ⟨ha, harecord⟩ := mem_joined.mp ha
  obtain ⟨hb, hbrecord⟩ := mem_joined.mp hb
  have hmembership := Table.eq_of_key ha hb hkeys
  refine Prod.ext hmembership ?_
  rw [harecord, hbrecord, hmembership]

/-- A row is shown among others only if it is one of them. -/
theorem mem_of_response {rows : List MemberRow} (hrows : ∀ row ∈ rows, row ∈ v.joined)
    {row : MemberRow} (hrow : row ∈ v.joined) {r : IpRecordResponse}
    (hr : record_response ctx v.groups.rows row = some r)
    (h : r ∈ rows.filterMap (record_response ctx v.groups.rows)) : row ∈ rows := by
  obtain ⟨row', hrow', hr'⟩ := List.mem_filterMap.mp h
  rwa [response_inj hrow (hrows row' hrow') hr hr']

/-- Pages that partition what matches show what is found. -/
theorem PagesPartition.found_eq (h : PagesPartition ctx f limit v) (hlimit : 1 ≤ limit) :
    f.found ctx v.toWorld = f.matching ctx v.toWorld := by
  obtain ⟨data, total, total_pages, hpages, hperm⟩ := h fun _ => .newest
  let rows := RowOrder.newest.arrange (f.found ctx v.toWorld)
  have hrows : rows.Perm (f.found ctx v.toWorld) := RowOrder.newest.perm _
  have hdata : ∀ k, k = 0 ∨ k < total_pages →
      data k = (page limit k rows).filterMap (record_response ctx v.groups.rows) ∧
        total_pages = ((f.found ctx v.toWorld).length + limit - 1) / limit := by
    intro k hk
    have hpasses := QueryFilters.Answered.passes ⟨_, _, hpages k hk⟩
    have hrun := (hpages k hk).symm.trans (run_page_request .newest hpasses)
    rw [if_neg (by omega)] at hrun
    obtain ⟨hdata, -, -, -, htotal⟩ := ListReply.envelope.inj
      (Option.some.inj (Except.ok.inj (Prod.mk.inj hrun).1))
    exact ⟨hdata, htotal⟩
  -- All pages are cut from one and the same answer.
  have hall : (List.range total_pages).flatMap data =
      rows.filterMap (record_response ctx v.groups.rows) := by
    have hlength : rows.length ≤ (rows.length + limit - 1) / limit * limit := length_le_pages hlimit
    rw [hrows.length_eq, ← (hdata 0 (.inl rfl)).2, ← hrows.length_eq] at hlength
    rw [List.flatMap_congr fun k hk => (hdata k (.inr (List.mem_range.mp hk))).1,
      ← List.filterMap_flatMap, flatMap_page, List.take_of_length_le hlength]
  rw [hall] at hperm
  refine found_eq_matching fun row => ⟨fun hrow => ?_, fun hrow => ?_⟩
  · obtain ⟨-, -, r, hr, -⟩ := response_of_joined ctx (mem_found hrow)
    have hmem := List.mem_filterMap.mpr ⟨row, hrows.symm.subset hrow, hr⟩
    exact mem_of_response (fun row => mem_matching) (mem_found hrow) hr (hperm.subset hmem)
  · obtain ⟨-, -, r, hr, -⟩ := response_of_joined ctx (mem_matching hrow)
    have hmem := List.mem_filterMap.mpr ⟨row, hrow, hr⟩
    have hfound : ∀ row ∈ rows, row ∈ v.joined := fun row hrow => mem_found (hrows.subset hrow)
    exact hrows.subset (mem_of_response hfound (mem_matching hrow) hr (hperm.symm.subset hmem))

/-- Pages that partition what matches have limits and offsets that can be bound. -/
theorem PagesPartition.fits (h : PagesPartition ctx f limit v) (hlimit : 1 ≤ limit)
    (hfirst : (f.page_request 1 0).Passes ctx v.toWorld) :
    f.PagesFit ctx v.toWorld limit := by
  have hsame := h.found_eq hlimit
  obtain ⟨data, total, total_pages, hpages, -⟩ := h fun _ => .newest
  have hpasses : ∀ k, k = 0 ∨ k < total_pages → (f.page_request limit k).Passes ctx v.toWorld :=
    fun k hk => QueryFilters.Answered.passes ⟨_, _, hpages k hk⟩
  have hzero := (page_passes_iff hfirst 0).mp (hpasses 0 (.inl rfl))
  refine ⟨fun status hstatus hadmits => (hzero status hstatus hadmits).1, fun k hk => ?_⟩
  -- The first page tells how many there are.
  have hrun := (hpages 0 (.inl rfl)).symm.trans
    (run_page_request .newest (hpasses 0 (.inl rfl)))
  obtain ⟨-, -, -, -, htotal⟩ := ListReply.envelope.inj
    (Option.some.inj (Except.ok.inj (Prod.mk.inj hrun).1))
  rw [if_neg (by omega), hsame] at htotal
  have hlt : k < total_pages := by
    rw [htotal, lt_total_pages_iff hlimit]
    exact hk
  have hne : f.matching ctx v.toWorld ≠ [] := by
    intro hnil
    rw [hnil] at hk
    exact absurd hk (Nat.not_lt_zero _)
  obtain ⟨status, hstatus, hadmits⟩ := admits_of_matching hne
  exact ((page_passes_iff hfirst k).mp (hpasses k (.inr hlt)) status hstatus hadmits).2

/-- Where limits and offsets can be bound, the pages are answered. -/
theorem QueryFilters.PagesFit.passes (h : f.PagesFit ctx v.toWorld limit)
    (hfirst : (f.page_request 1 0).Passes ctx v.toWorld) (k : Nat)
    (hk : k = 0 ∨ k * limit < (f.matching ctx v.toWorld).length) :
    (f.page_request limit k).Passes ctx v.toWorld := by
  refine (page_passes_iff hfirst k).mpr fun status hstatus hadmits => ?_
  refine ⟨h.limit_fits status hstatus hadmits, ?_⟩
  rcases hk with rfl | hk
  · rw [Nat.zero_mul]
    decide
  · exact h.offset_fits k hk

end Pages

end IpVault
