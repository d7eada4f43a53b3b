import IpVault.Lib.Paging
import IpVault.Auth.Middleware
import IpVault.Records.Visibility

set_option autoImplicit false

/-! # What the record listing answers

`list_ips` answers some requests early: a caller who reads no group, and filters that no group passes,
get the empty answer before the rest of the filters is looked at. `reference_listing` has no shortcut. It
rejects the values it cannot read, selects the memberships that pass every filter and the scope of the
caller, and puts them in the shape the request asks for. `listing_as_reference` says for which requests
the two agree.

Dates are compared by SQLite, as texts. In years of four digits this is the order of time.
-/

namespace IpVault

open Lib

/-! ## The listing and its panic -/

/-- `Utc::now() - Duration::seconds(max_age)` is an instant chrono can represent. -/
def QueryFilters.max_age_fits (f : QueryFilters) (now : Int) : Bool :=
  f.max_age.all fun age => (from_timestamp (clock_seconds now - age)).isSome

/-- The limit and the offset of the page are bound as `i64`. -/
def QueryFilters.page_fits (f : QueryFilters) : Bool :=
  decide (f.page_limit < 2 ^ 63 ∧ f.page_offset < 2 ^ 63)

/-- `list_ips` on SQLite; `none` is a panic, of the subtraction of `max_age` or of the bound page. -/
def list_ips_or_panic (ctx : Ctx) (order : RowOrder) (f : QueryFilters) :
    Handler (Option ListReply) := do
  let accessible ← readable_groups ctx
  if accessible = some [] then pure (some f.empty_response)
  else do
    let named ← named_groups f
    let status ← Prog.ofExcept (status_type f.status)
    let typed ← typed_groups status
    let group_ids := intersect [accessible, named, typed]
    if group_ids = some [] then pure (some f.empty_response)
    else if f.max_age_fits ctx.now = false then pure none
    else do
      let threshold ← Prog.ofExcept (since_threshold f.since)
      if f.page_fits = false then pure none
      else do
        let reply ← list_page .text ctx order f threshold group_ids
        pure (some reply)

/-- The dates a request asks for, and those it is answered from, have years of four digits. A date asked
for may also lie before the year 0. -/
structure QueryFilters.Dated (f : QueryFilters) (now : Int) (w : World) : Prop where
  since : ∀ t, since_threshold f.since = .ok (some t) → Calendar.year t ≤ 9999
  max_age : ∀ age, f.max_age = some age → Calendar.year (now - seconds age) ≤ 9999
  records : ∀ r ∈ w.records, Calendar.FourDigits r.last_seen_at ∧
    ∀ t, r.deleted_at = some t → Calendar.FourDigits t

/-! ## The reference -/

namespace QueryFilters

/-- Everything the request and the scope of the caller ask of a group. -/
def admits (f : QueryFilters) (ctx : Ctx) (w : World) (status : Option String) (i : Uuid) : Bool :=
  (ctx.key.is_master ||
      w.permissions.any fun p => p.api_key_id = ctx.key.id && p.group_id = i && p.can_read) &&
    (decide (f.group_names = [] ∧ f.group_id = none) || f.group_id == some i ||
      w.groups.any fun g => g.id = i && f.group_names.contains g.name) &&
    status.all fun group_type => w.groups.any fun g => g.id = i && g.group_type = group_type

/-- The membership passes every filter. -/
def lists (f : QueryFilters) (ctx : Ctx) (w : World) (status : Option String)
    (threshold : Option Int) (row : MemberRow) : Bool :=
  f.admits ctx w status row.1.group_id && row.2.any (f.selects ctx.env ctx.now threshold)

/-- Of the groups that the request admits, SQLite selects the records that the request asks for. -/
def TextsAgree (f : QueryFilters) (ctx : Ctx) (w : World) : Prop :=
  ∀ status threshold, status_type f.status = .ok status → since_threshold f.since = .ok threshold →
    ∀ row ∈ w.joined, f.admits ctx w status row.1.group_id = true →
      row.2.any (selects_by .text f ctx.env ctx.now threshold) =
        row.2.any (f.selects ctx.env ctx.now threshold)

/-- The answer with these memberships, in the shape the request asks for. -/
def reply (f : QueryFilters) (ctx : Ctx) (w : World) (order : RowOrder)
    (selected : List MemberRow) : ListReply :=
  let page := ((order.arrange selected).drop f.page_offset).take f.page_limit
  if f.format_iplist then
    let addresses := page.filterMap fun row => row.2.map IpRecord.target_address
    .ip_list ((addresses.mergeSort (decide <| · ≤ ·)).destutter (· ≠ ·))
  else
    let data := page.filterMap (record_response ctx w.groups.rows)
    if f.with_total then
      .envelope data selected.length f.page_limit f.page_offset
        (if f.page_limit = 0 then 0 else (selected.length + f.page_limit - 1) / f.page_limit)
    else .items data

/-- Where nothing is selected, the answer is the empty response. -/
theorem reply_nil (f : QueryFilters) (ctx : Ctx) (w : World) (order : RowOrder) :
    f.reply ctx w order [] = f.empty_response := by
  have harrange : order.arrange [] = [] := (order.perm []).eq_nil
  unfold reply empty_response
  rw [harrange, List.drop_nil, List.take_nil]
  by_cases hlimit : f.page_limit = 0
  · simp [hlimit]
  · have hpages : (0 + f.page_limit - 1) / f.page_limit = 0 := Nat.div_eq_of_lt (by omega)
    simp only [List.filterMap_nil, List.mergeSort_nil, List.destutter_nil, List.length_nil,
      if_neg hlimit, hpages]

end QueryFilters

/-- The listing without shortcuts. -/
def reference_listing (ctx : Ctx) (order : RowOrder) (f : QueryFilters) (w : World) :
    Except AppError ListReply := do
  let status ← status_type f.status
  let threshold ← since_threshold f.since
  pure (f.reply ctx w order (w.joined.filter (f.lists ctx w status threshold)))

/-! ## The groups -/

/-- The ids `readable_groups` returns. -/
def Ctx.readable_ids (ctx : Ctx) (w : World) : Option (List Uuid) :=
  if ctx.key.is_master then none
  else some ((((Query.permissions_of ctx.key.id).eval w).filter fun p => p.can_read).map
    GroupPermission.group_id)

/-- The ids `named_groups` returns. -/
def QueryFilters.named_ids (f : QueryFilters) (w : World) : Option (List Uuid) :=
  if f.group_names = [] ∧ f.group_id = none then none
  else some ((w.groups.rows.filter fun g => f.group_names.contains g.name).map IpGroup.id ++
    f.group_id.toList)

/-- The ids `typed_groups` returns. -/
def typed_ids (status : Option String) (w : World) : Option (List Uuid) :=
  status.map fun group_type =>
    (w.groups.rows.filter fun g => g.group_type = group_type).map IpGroup.id

/-- The ids a listing is confined to. -/
def QueryFilters.group_ids (f : QueryFilters) (ctx : Ctx) (w : World) (status : Option String) :
    Option (List Uuid) :=
  intersect [ctx.readable_ids w, f.named_ids w, typed_ids status w]

theorem intersect_all (constraints : List (Option (List Uuid))) (i : Uuid) :
    (intersect constraints).all (·.contains i) = constraints.all (·.all (·.contains i)) := by
  have hsome : constraints.all (·.all (·.contains i)) =
      (constraints.filterMap id).all (·.contains i) := by
    induction constraints with
    | nil => rfl
    | cons c rest ih =>
        cases c with
        | none => exact (Bool.true_and _).trans ih
        | some ids => exact congrArg (ids.contains i && ·) ih
  rw [hsome]
  unfold intersect
  cases constraints.filterMap id with
  | nil => rfl
  | cons ids rest =>
      rw [Option.all_some, Bool.eq_iff_iff, List.contains_iff_mem, List.mem_filter, List.all_cons,
        Bool.and_eq_true, List.contains_iff_mem]

/-- No id is left if and only if no id passes. -/
theorem intersect_eq_nil_iff (constraints : List (Option (List Uuid))) :
    intersect constraints = some [] ↔
      ∀ i, constraints.all (·.all (·.contains i)) = false := by
  simp only [← intersect_all]
  cases intersect constraints with
  | none => exact ⟨nofun, fun h => absurd (h 0) (by simp)⟩
  | some ids =>
      rw [Option.some_inj, List.eq_nil_iff_forall_not_mem]
      simp

section Groups

variable {ctx : Ctx} {f : QueryFilters} {w : World}

theorem readable_ids_all (i : Uuid) : (ctx.readable_ids w).all (·.contains i) =
    (ctx.key.is_master ||
      w.permissions.any fun p => p.api_key_id = ctx.key.id && p.group_id = i && p.can_read) := by
  unfold Ctx.readable_ids
  cases ctx.key.is_master with
  | true => rfl
  | false =>
      rw [if_neg Bool.false_ne_true, Option.all_some, Bool.false_or, Bool.eq_iff_iff,
        List.contains_iff_mem, Table.any_iff, List.mem_map]
      constructor
      · rintro ⟨p, hp, rfl⟩
        obtain ⟨hp, hread⟩ := List.mem_filter.mp hp
        obtain ⟨hp, hkey⟩ := List.mem_filter.mp hp
        exact ⟨p, hp, by simp [of_decide_eq_true hkey, hread]⟩
      · rintro ⟨p, hp, h⟩
        simp only [Bool.and_eq_true, decide_eq_true_eq] at h
        have hmine : p ∈ (Query.permissions_of ctx.key.id).eval w :=
          List.mem_filter.mpr ⟨hp, decide_eq_true h.1.1⟩
        exact ⟨p, List.mem_filter.mpr ⟨hmine, h.2⟩, h.1.2⟩

theorem named_ids_all (i : Uuid) : (f.named_ids w).all (·.contains i) =
    (decide (f.group_names = [] ∧ f.group_id = none) || f.group_id == some i ||
      w.groups.any fun g => g.id = i && f.group_names.contains g.name) := by
  unfold QueryFilters.named_ids
  by_cases h : f.group_names = [] ∧ f.group_id = none
  · rw [if_pos h, decide_eq_true h]
    rfl
  · rw [if_neg h, decide_eq_false h, Option.all_some, Bool.false_or, Bool.or_comm,
      Bool.eq_iff_iff, List.contains_iff_mem, List.mem_append, Bool.or_eq_true, Table.any_iff,
      beq_iff_eq, Option.mem_toList]
    refine or_congr ?_ Iff.rfl
    rw [List.mem_map]
    constructor
    · rintro ⟨g, hg, rfl⟩
      obtain ⟨hg, hname⟩ := List.mem_filter.mp hg
      exact ⟨g, hg, (Bool.and_eq_true _ _).mpr ⟨decide_eq_true rfl, hname⟩⟩
    · rintro ⟨g, hg, h⟩
      simp only [Bool.and_eq_true, decide_eq_true_eq] at h
      exact ⟨g, List.mem_filter.mpr ⟨hg, h.2⟩, h.1⟩

theorem typed_ids_all (status : Option String) (i : Uuid) :
    (typed_ids status w).all (·.contains i) =
      status.all fun group_type =>
        w.groups.any fun g => g.id = i && g.group_type = group_type := by
  cases status with
  | none => rfl
  | some group_type =>
      show ((w.groups.rows.filter fun g => g.group_type = group_type).map IpGroup.id).contains i = _
      rw [Option.all_some, Bool.eq_iff_iff, List.contains_iff_mem, List.mem_map, Table.any_iff]
      constructor
      · rintro ⟨g, hg, rfl⟩
        obtain ⟨hg, htype⟩ := List.mem_filter.mp hg
        exact ⟨g, hg, by simp [of_decide_eq_true htype]⟩
      · rintro ⟨g, hg, h⟩
        simp only [Bool.and_eq_true, decide_eq_true_eq] at h
        exact ⟨g, List.mem_filter.mpr ⟨hg, decide_eq_true h.2⟩, h.1⟩

/-- An id passes the constraints if and only if the request admits the group. -/
theorem group_ids_pass (status : Option String) (i : Uuid) :
    [ctx.readable_ids w, f.named_ids w, typed_ids status w].all (·.all (·.contains i)) =
      f.admits ctx w status i := by
  unfold QueryFilters.admits
  rw [← readable_ids_all, ← named_ids_all, ← typed_ids_all]
  simp [Bool.and_assoc]

theorem group_ids_all (status : Option String) (i : Uuid) :
    (f.group_ids ctx w status).all (·.contains i) = f.admits ctx w status i :=
  (intersect_all _ i).trans (group_ids_pass status i)

theorem group_ids_eq_nil_iff (status : Option String) :
    f.group_ids ctx w status = some [] ↔ ∀ i, f.admits ctx w status i = false :=
  (intersect_eq_nil_iff _).trans (forall_congr' fun i => by rw [group_ids_pass])

/-- The caller reads no group. -/
theorem readable_ids_eq_nil_iff : ctx.readable_ids w = some [] ↔
    ctx.key.is_master = false ∧ ∀ i, ¬ w.reads ctx.key.id i := by
  have hreads : ∀ i, (w.permissions.any fun p =>
      p.api_key_id = ctx.key.id && p.group_id = i && p.can_read) = true ↔ w.reads ctx.key.id i := by
    intro i
    rw [Table.any_iff]
    unfold World.reads
    simp only [Bool.and_eq_true, decide_eq_true_eq, and_assoc]
  have hall := @readable_ids_all ctx w
  cases hmaster : ctx.key.is_master with
  | true =>
      unfold Ctx.readable_ids
      rw [if_pos hmaster]
      exact ⟨nofun, fun h => absurd h.1 (by decide)⟩
  | false =>
      have hids : ∃ ids, ctx.readable_ids w = some ids := by
        unfold Ctx.readable_ids
        rw [if_neg (by rw [hmaster]; exact Bool.false_ne_true)]
        exact ⟨_, rfl⟩
      obtain ⟨ids, hids⟩ := hids
      rw [hmaster, hids] at hall
      rw [hids, Option.some_inj, List.eq_nil_iff_forall_not_mem]
      refine ⟨fun h => ⟨rfl, fun i hi => h i ?_⟩, fun h i hi => h.2 i ?_⟩
      · rw [← List.contains_iff_mem]
        exact (hall i).trans ((Bool.false_or _).trans ((hreads i).mpr hi))
      · rw [← hreads, ← Bool.false_or (Table.any _ _)]
        exact (hall i).symm.trans (List.contains_iff_mem.mpr hi)

end Groups

/-! ## The run -/

section Run

variable {ctx : Ctx} {f : QueryFilters} {v : Vault}

theorem run_select {q : Query} {α : Type} (next : q.Reply → Handler α) :
    (select q >>= next).run database v = (next (q.eval v.toWorld)).run database v := rfl

theorem run_ofExcept {α β : Type} (x : Except AppError α) (next : α → Handler β) :
    (Prog.ofExcept x >>= next).run database v =
      match x with
      | .ok a => (next a).run database v
      | .error e => (.error e, v) := by
  cases x <;> rfl

theorem run_readable_groups {α : Type} (next : Option (List Uuid) → Handler α) :
    (readable_groups ctx >>= next).run database v =
      (next (ctx.readable_ids v.toWorld)).run database v := by
  unfold readable_groups Ctx.readable_ids
  cases ctx.key.is_master <;> rfl

theorem run_named_groups {α : Type} (next : Option (List Uuid) → Handler α) :
    (named_groups f >>= next).run database v = (next (f.named_ids v.toWorld)).run database v := by
  rw [Prog.run_bind]
  unfold named_groups QueryFilters.named_ids
  rw [run_select]
  by_cases h : f.group_names = [] ∧ f.group_id = none
  · rw [if_pos h, if_pos h]
    rfl
  · rw [if_neg h, if_neg h]
    rfl

theorem run_typed_groups {α : Type} (status : Option String)
    (next : Option (List Uuid) → Handler α) :
    (typed_groups status >>= next).run database v =
      (next (typed_ids status v.toWorld)).run database v := by
  cases status <;> rfl

theorem run_list_page (dates : DateOrder) (order : RowOrder) (threshold : Option Int)
    (ids : Option (List Uuid)) :
    (list_page dates ctx order f threshold ids).run database v =
      (.ok (f.reply ctx v.toWorld order
        (v.joined.filter (f.matches_row dates ctx.env ctx.now threshold ids))), v) := by
  unfold list_page QueryFilters.reply
  rw [run_select, run_select]
  by_cases hformat : f.format_iplist = true
  · rw [if_pos hformat, if_pos hformat]
    rfl
  · rw [if_neg hformat, if_neg hformat]
    by_cases htotal : f.with_total = true
    · rw [if_pos htotal, if_pos htotal]
      rfl
    · rw [if_neg htotal, if_neg htotal]
      rfl

/-- The answer of a run of `list_ips`. -/
def QueryFilters.listed (f : QueryFilters) (ctx : Ctx) (w : World) (order : RowOrder) :
    Except AppError ListReply :=
  if ctx.readable_ids w = some [] then .ok f.empty_response
  else do
    let status ← status_type f.status
    if f.group_ids ctx w status = some [] then .ok f.empty_response
    else do
      let threshold ← since_threshold f.since
      let ids := f.group_ids ctx w status
      .ok (f.reply ctx w order (w.joined.filter (f.matches_row .time ctx.env ctx.now threshold ids)))

/-- The answer of a run of `list_ips_or_panic`, which compares dates as texts. -/
def QueryFilters.answered (dates : DateOrder) (f : QueryFilters) (ctx : Ctx) (w : World) (order : RowOrder) :
    Except AppError (Option ListReply) :=
  if ctx.readable_ids w = some [] then .ok (some f.empty_response)
  else do
    let status ← status_type f.status
    if f.group_ids ctx w status = some [] then .ok (some f.empty_response)
    else if f.max_age_fits ctx.now = false then .ok none
    else do
      let threshold ← since_threshold f.since
      if f.page_fits = false then .ok none
      else do
        let ids := f.group_ids ctx w status
        .ok (some (f.reply ctx w order
          (w.joined.filter (f.matches_row dates ctx.env ctx.now threshold ids))))

theorem run_list_ips (order : RowOrder) :
    (list_ips ctx order f).run database v = (f.listed ctx v.toWorld order, v) := by
  unfold list_ips QueryFilters.listed
  rw [run_readable_groups]
  by_cases hscope : ctx.readable_ids v.toWorld = some []
  · rw [if_pos hscope, if_pos hscope]
    rfl
  · rw [if_neg hscope, if_neg hscope, run_named_groups, run_ofExcept]
    cases status_type f.status with
    | error e => rfl
    | ok status =>
        show (typed_groups status >>= _).run database v = _
        rw [run_typed_groups]
        show Prog.run database (if f.group_ids ctx v.toWorld status = some [] then _ else _) v =
          (if f.group_ids ctx v.toWorld status = some [] then _ else _, v)
        by_cases hids : f.group_ids ctx v.toWorld status = some []
        · rw [if_pos hids, if_pos hids]
          rfl
        · rw [if_neg hids, if_neg hids, run_ofExcept]
          cases since_threshold f.since with
          | error e => rfl
          | ok threshold => exact run_list_page .time order threshold _

theorem run_list_ips_or_panic (order : RowOrder) :
    (list_ips_or_panic ctx order f).run database v = (f.answered .text ctx v.toWorld order, v) := by
  unfold list_ips_or_panic QueryFilters.answered
  rw [run_readable_groups]
  by_cases hscope : ctx.readable_ids v.toWorld = some []
  · rw [if_pos hscope, if_pos hscope]
    rfl
  · rw [if_neg hscope, if_neg hscope, run_named_groups, run_ofExcept]
    cases status_type f.status with
    | error e => rfl
    | ok status =>
        show (typed_groups status >>= _).run database v = _
        rw [run_typed_groups]
        show Prog.run database (if f.group_ids ctx v.toWorld status = some [] then _ else _) v =
          (if f.group_ids ctx v.toWorld status = some [] then _ else _, v)
        by_cases hids : f.group_ids ctx v.toWorld status = some []
        · rw [if_pos hids, if_pos hids]
          rfl
        · rw [if_neg hids, if_neg hids]
          by_cases hage : f.max_age_fits ctx.now = false
          · rw [if_pos hage, if_pos hage]
            rfl
          · rw [if_neg hage, if_neg hage, run_ofExcept]
            cases since_threshold f.since with
            | error e => rfl
            | ok threshold =>
                show Prog.run database (if f.page_fits = false then _ else _) v =
                  (if f.page_fits = false then _ else _, v)
                by_cases hpage : f.page_fits = false
                · rw [if_pos hpage, if_pos hpage]
                  rfl
                · rw [if_neg hpage, if_neg hpage, Prog.run_bind, run_list_page]
                  rfl

end Run

/-! ## The early answers -/

section Selection

variable {ctx : Ctx} {f : QueryFilters} {v : Vault}

/-- Every membership has its record. -/
theorem Vault.record_of_joined (v : Vault) {row : MemberRow} (h : row ∈ v.joined) :
    ∃ r ∈ v.records, row.2 = some r ∧ r.id = row.1.ip_record_id := by
  obtain ⟨hm, hrecord⟩ := mem_joined.mp h
  obtain ⟨r, hr, hid⟩ := Table.has_iff.mp (v.wf.membership_record _ hm)
  refine ⟨r, hr, ?_, hid⟩
  rw [hrecord, ← hid]
  exact Table.find?_key hr

/-- The rows of the query: the request admits their groups, and their records pass. -/
theorem matches_row_eq (dates : DateOrder) {row : MemberRow} (h : row ∈ v.joined)
    (status : Option String) (threshold : Option Int) :
    f.matches_row dates ctx.env ctx.now threshold (f.group_ids ctx v.toWorld status) row =
      (f.admits ctx v.toWorld status row.1.group_id &&
        row.2.any (QueryFilters.selects_by dates f ctx.env ctx.now threshold)) := by
  obtain ⟨r, -, hrow, -⟩ := v.record_of_joined h
  unfold QueryFilters.matches_row
  rw [group_ids_all, hrow]
  rfl

/-- On dates in the order of time they are those the reference lists. -/
theorem matches_row_eq_lists {row : MemberRow} (h : row ∈ v.joined) (status : Option String)
    (threshold : Option Int) :
    f.matches_row .time ctx.env ctx.now threshold (f.group_ids ctx v.toWorld status) row =
      f.lists ctx v.toWorld status threshold row := matches_row_eq .time h status threshold

/-- Years of four digits are in the order of their texts. -/
theorem DateOrder.text_eq_time {t d : Int} (ht : Calendar.year t ≤ 9999)
    (hd : Calendar.FourDigits d) : DateOrder.text t d = DateOrder.time t d := by
  have hiff := Calendar.before_iff hd ht
  unfold text time
  rw [Bool.eq_iff_iff, Bool.not_eq_true', ← Bool.not_eq_true, hiff, Int.not_lt, decide_eq_true_iff]

/-- **On such dates** SQLite selects what the filters ask for. -/
theorem QueryFilters.Dated.selects (hdates : f.Dated ctx.now v.toWorld) {threshold : Option Int}
    (hthreshold : since_threshold f.since = .ok threshold) {r : IpRecord} (hr : r ∈ v.records) :
    selects_by .text f ctx.env ctx.now threshold r = f.selects ctx.env ctx.now threshold r := by
  obtain ⟨hseen, hdeleted⟩ := hdates.records r hr
  have hage : (f.max_age.all fun age => DateOrder.text (ctx.now - seconds age) r.last_seen_at) =
      f.max_age.all fun age => DateOrder.time (ctx.now - seconds age) r.last_seen_at := by
    cases h : f.max_age with
    | none => rfl
    | some age => exact DateOrder.text_eq_time (hdates.max_age age h) hseen
  have hwindow : in_window .text f threshold r = in_window .time f threshold r := by
    cases threshold with
    | none => rfl
    | some t =>
        have ht := hdates.since t hthreshold
        have hold : r.deleted_at.any (DateOrder.text t ·) = r.deleted_at.any (DateOrder.time t ·) := by
          cases h : r.deleted_at with
          | none => rfl
          | some d => exact DateOrder.text_eq_time ht (hdeleted d h)
        unfold in_window
        dsimp only
        rw [DateOrder.text_eq_time ht hseen, hold]
  unfold QueryFilters.selects selects_by
  rw [hage, hwindow]

/-- So do the rows of all groups. -/
theorem QueryFilters.Dated.agree (hdates : f.Dated ctx.now v.toWorld) :
    f.TextsAgree ctx v.toWorld := by
  intro status threshold _ hsince row hrow _
  obtain ⟨r, hr, hrecord, -⟩ := v.record_of_joined hrow
  rw [hrecord]
  exact hdates.selects hsince hr

theorem QueryFilters.TextsAgree.matches_row (hagree : f.TextsAgree ctx v.toWorld)
    {status : Option String} {threshold : Option Int} (hstatus : status_type f.status = .ok status)
    (hsince : since_threshold f.since = .ok threshold) {row : MemberRow} (h : row ∈ v.joined) :
    f.matches_row .text ctx.env ctx.now threshold (f.group_ids ctx v.toWorld status) row =
      f.lists ctx v.toWorld status threshold row := by
  rw [matches_row_eq .text h]
  cases hadmits : f.admits ctx v.toWorld status row.1.group_id with
  | false =>
      unfold QueryFilters.lists
      rw [hadmits, Bool.false_and, Bool.false_and]
  | true =>
      unfold QueryFilters.lists
      rw [hadmits, hagree status threshold hstatus hsince row h hadmits]

/-- Without a group that passes, nothing is listed. -/
theorem filter_lists_eq_nil {status : Option String}
    (h : ∀ i, f.admits ctx v.toWorld status i = false) (threshold : Option Int) :
    v.joined.filter (f.lists ctx v.toWorld status threshold) = [] := by
  refine List.filter_eq_nil_iff.mpr fun row _ hlists => ?_
  have hadmits := ((Bool.and_eq_true _ _).mp hlists).1
  rw [h] at hadmits
  exact Bool.false_ne_true hadmits

/-- A caller who reads no group: the request admits none. -/
theorem admits_of_no_scope (h : ctx.readable_ids v.toWorld = some []) (status : Option String)
    (i : Uuid) : f.admits ctx v.toWorld status i = false := by
  unfold QueryFilters.admits
  rw [← readable_ids_all, h]
  rfl

end Selection

/-- The early answers of `list_ips` skip nothing that matters, and nothing panics: a caller who reads no
group sends a valid `status`; `since` is valid where the request admits no group; and where it admits one,
`max_age` is in range, and so is the page if `since` is valid. -/
structure QueryFilters.Answerable (f : QueryFilters) (ctx : Ctx) (w : World) : Prop where
  status_valid : ctx.key.is_master = false → (∀ i, ¬ w.reads ctx.key.id i) →
    ∃ status, status_type f.status = .ok status
  since_valid : ∀ status, status_type f.status = .ok status →
    (∀ i, f.admits ctx w status i = false) → ∃ threshold, since_threshold f.since = .ok threshold
  max_age_valid : ∀ status, status_type f.status = .ok status →
    (∃ i, f.admits ctx w status i = true) → f.max_age_fits ctx.now = true
  page_valid : ∀ status threshold, status_type f.status = .ok status →
    since_threshold f.since = .ok threshold → (∃ i, f.admits ctx w status i = true) →
    f.page_fits = true

section Answers

variable {ctx : Ctx} {f : QueryFilters} {v : Vault}

/-- An early answer is that of the reference if and only if both values are valid. -/
theorem empty_answer_iff (order : RowOrder)
    (h : ∀ status, status_type f.status = .ok status →
      ∀ i, f.admits ctx v.toWorld status i = false) :
    reference_listing ctx order f v.toWorld = .ok f.empty_response ↔
      (∃ status, status_type f.status = .ok status) ∧
        ∃ threshold, since_threshold f.since = .ok threshold := by
  unfold reference_listing
  cases hstatus : status_type f.status with
  | error e => exact ⟨nofun, fun h => nomatch h.1⟩
  | ok status =>
      cases hsince : since_threshold f.since with
      | error e => exact ⟨nofun, fun h => nomatch h.2⟩
      | ok threshold =>
          refine ⟨fun _ => ⟨⟨_, rfl⟩, _, rfl⟩, fun _ => ?_⟩
          show Except.ok (f.reply ctx v.toWorld order _) = _
          rw [filter_lists_eq_nil (h status hstatus), QueryFilters.reply_nil]

theorem map_some_ok_iff {x : Except AppError ListReply} {r : ListReply} :
    (.ok (some r) : Except AppError (Option ListReply)) = x.map some ↔ x = .ok r := by
  cases x with
  | error e => exact ⟨nofun, nofun⟩
  | ok a =>
      rw [Except.map, Except.ok.injEq, Except.ok.injEq, Option.some_inj]
      exact eq_comm

/-- The answer of a request that panics is not that of the reference. -/
theorem panic_ne_map {x : Except AppError ListReply} :
    (.ok none : Except AppError (Option ListReply)) ≠ x.map some := by
  cases x with
  | error e => exact nofun
  | ok a => exact nofun

/-- On dates in the order of time the answer is that of the reference if and only if the request is
answerable. -/
theorem answered_iff (order : RowOrder) :
    f.answered .time ctx v.toWorld order = (reference_listing ctx order f v.toWorld).map some ↔
      f.Answerable ctx v.toWorld := by
  unfold QueryFilters.answered
  by_cases hscope : ctx.readable_ids v.toWorld = some []
  · have hreads := readable_ids_eq_nil_iff.mp hscope
    have hadmits : ∀ status, status_type f.status = .ok status →
        ∀ i, f.admits ctx v.toWorld status i = false :=
      fun status _ => admits_of_no_scope hscope status
    have hnone : ∀ status, status_type f.status = .ok status →
        ¬ ∃ i, f.admits ctx v.toWorld status i = true := by
      rintro status hok ⟨i, hi⟩
      rw [hadmits status hok i] at hi
      exact absurd hi Bool.false_ne_true
    rw [if_pos hscope, map_some_ok_iff, empty_answer_iff order hadmits]
    constructor
    · rintro ⟨hstatus, hsince⟩
      exact ⟨fun _ _ => hstatus, fun _ _ _ => hsince, fun status hok h => absurd h (hnone status hok),
        fun status _ hok _ h => absurd h (hnone status hok)⟩
    · intro h
      obtain ⟨status, hstatus⟩ := h.status_valid hreads.1 hreads.2
      exact ⟨⟨status, hstatus⟩, h.since_valid status hstatus (hadmits status hstatus)⟩
  · -- The caller reads some group, so that `status` is looked at first, as in the reference.
    rw [if_neg hscope]
    have hstatus_valid : ctx.key.is_master = false → (∀ i, ¬ v.reads ctx.key.id i) →
        ∃ status, status_type f.status = .ok status :=
      fun hmaster hreads => absurd (readable_ids_eq_nil_iff.mpr ⟨hmaster, hreads⟩) hscope
    cases hstatus : status_type f.status with
    | error e =>
        have hreference : reference_listing ctx order f v.toWorld = .error e := by
          unfold reference_listing
          rw [hstatus]
          rfl
        rw [hreference]
        refine ⟨fun _ => ⟨fun hmaster hreads => ?_, ?_, ?_, ?_⟩, fun _ => rfl⟩
        · exact hstatus_valid hmaster hreads
        · rw [hstatus]
          exact nofun
        · rw [hstatus]
          exact nofun
        · rw [hstatus]
          exact nofun
    | ok status =>
        have same : ∀ {status'}, status_type f.status = .ok status' → status = status' := by
          intro status' h
          exact Except.ok.inj (hstatus.symm.trans h)
        show (if f.group_ids ctx v.toWorld status = some [] then _ else _) = _ ↔ _
        -- The second early answer comes before `since` is looked at.
        by_cases hids : f.group_ids ctx v.toWorld status = some []
        · have hadmits := (group_ids_eq_nil_iff status).mp hids
          have hempty : ∀ status', status_type f.status = .ok status' →
              ∀ i, f.admits ctx v.toWorld status' i = false := fun status' h => same h ▸ hadmits
          have hnone : ∀ status', status_type f.status = .ok status' →
              ¬ ∃ i, f.admits ctx v.toWorld status' i = true := by
            rintro status' h ⟨i, hi⟩
            rw [hempty status' h i] at hi
            exact absurd hi Bool.false_ne_true
          rw [if_pos hids, map_some_ok_iff, empty_answer_iff order hempty]
          constructor
          · rintro ⟨-, hsince⟩
            exact ⟨hstatus_valid, fun _ _ _ => hsince, fun status' hok h => absurd h (hnone status' hok),
              fun status' _ hok _ h => absurd h (hnone status' hok)⟩
          · exact fun h => ⟨⟨status, hstatus⟩, h.since_valid status hstatus hadmits⟩
        · have hadmits : ∃ i, f.admits ctx v.toWorld status i = true := by
            by_contra hnone
            refine hids ((group_ids_eq_nil_iff status).mpr fun i => ?_)
            exact Bool.eq_false_iff.mpr fun hi => hnone ⟨i, hi⟩
          have hsince_valid : ∀ status', status_type f.status = .ok status' →
              (∀ i, f.admits ctx v.toWorld status' i = false) →
              ∃ threshold, since_threshold f.since = .ok threshold := by
            intro status' h hnone
            obtain ⟨i, hi⟩ := hadmits
            rw [same h, hnone i] at hi
            exact absurd hi Bool.false_ne_true
          rw [if_neg hids]
          cases hage : f.max_age_fits ctx.now with
          | false =>
              rw [if_pos rfl]
              refine ⟨fun h => absurd h panic_ne_map, fun h => ?_⟩
              have hfits := h.max_age_valid status hstatus hadmits
              rw [hage] at hfits
              exact absurd hfits Bool.false_ne_true
          | true =>
              rw [if_neg Bool.noConfusion]
              have hreference : reference_listing ctx order f v.toWorld =
                  (since_threshold f.since >>= fun threshold => pure (f.reply ctx v.toWorld order
                    (v.joined.filter (f.lists ctx v.toWorld status threshold)))) := by
                unfold reference_listing
                rw [hstatus]
                rfl
              rw [hreference]
              cases hsince : since_threshold f.since with
              | error e =>
                  refine ⟨fun _ => ⟨hstatus_valid, hsince_valid, fun _ _ _ => hage, ?_⟩, fun _ => rfl⟩
                  intro _ threshold _ hok
                  cases hsince.symm.trans hok
              | ok threshold =>
                  show (if f.page_fits = false then _ else _) = _ ↔ _
                  cases hpage : f.page_fits with
                  | false =>
                      rw [if_pos rfl]
                      refine ⟨fun h => absurd h panic_ne_map, fun h => ?_⟩
                      have hfits := h.page_valid status threshold hstatus hsince hadmits
                      rw [hpage] at hfits
                      exact absurd hfits Bool.false_ne_true
                  | true =>
                      rw [if_neg Bool.noConfusion]
                      refine ⟨fun _ => ⟨hstatus_valid, hsince_valid, fun _ _ _ => hage,
                        fun _ _ _ _ _ => hpage⟩, fun _ => ?_⟩
                      have hfilter := List.filter_congr fun row (hrow : row ∈ v.joined) =>
                        @matches_row_eq_lists ctx f v row hrow status threshold
                      show Except.ok (some (f.reply ctx v.toWorld order _)) = _
                      rw [hfilter]
                      rfl

/-- The texts of the dates matter only to a request that the query answers. -/
theorem answered_text (order : RowOrder) :
    f.answered .text ctx v.toWorld order = f.answered .time ctx v.toWorld order ∨
      f.Answerable ctx v.toWorld ∧ (f.TextsAgree ctx v.toWorld →
        f.answered .text ctx v.toWorld order = f.answered .time ctx v.toWorld order) := by
  unfold QueryFilters.answered
  by_cases hscope : ctx.readable_ids v.toWorld = some []
  · rw [if_pos hscope, if_pos hscope]
    exact .inl rfl
  · rw [if_neg hscope, if_neg hscope]
    cases hstatus : status_type f.status with
    | error e => exact .inl rfl
    | ok status =>
        show (if f.group_ids ctx v.toWorld status = some [] then _ else _ : Except _ _) =
          (if f.group_ids ctx v.toWorld status = some [] then _ else _) ∨ _ ∧ (_ →
            (if f.group_ids ctx v.toWorld status = some [] then _ else _ : Except _ _) =
              if f.group_ids ctx v.toWorld status = some [] then _ else _)
        by_cases hids : f.group_ids ctx v.toWorld status = some []
        · rw [if_pos hids, if_pos hids]
          exact .inl rfl
        · rw [if_neg hids, if_neg hids]
          cases hage : f.max_age_fits ctx.now with
          | false => exact .inl rfl
          | true =>
              cases hsince : since_threshold f.since with
              | error e => exact .inl rfl
              | ok threshold =>
                  cases hpage : f.page_fits with
                  | false => exact .inl rfl
                  | true =>
                      -- Only here dates are compared.
                      refine .inr ⟨⟨fun _ _ => ⟨status, hstatus⟩, fun _ _ _ => ⟨threshold, hsince⟩,
                        fun _ _ _ => hage, fun _ _ _ _ _ => hpage⟩, fun hagree => ?_⟩
                      have hfilter := List.filter_congr fun row (hrow : row ∈ v.joined) =>
                        (hagree.matches_row hstatus hsince hrow).trans
                          (matches_row_eq_lists hrow status threshold).symm
                      show Except.ok (some (f.reply ctx v.toWorld order _)) = _
                      rw [hfilter]
                      rfl

end Answers

/-- **The listing and its reference.** A run of `list_ips` leaves the store as it is. Its answer is that of
the reference only if the request is answerable, and it is if SQLite also selects the records that the
request asks for. -/
theorem listing_as_reference (ctx : Ctx) (order : RowOrder) (f : QueryFilters) (v : Vault) :
    ((list_ips_or_panic ctx order f).run database v =
        ((reference_listing ctx order f v.toWorld).map some, v) → f.Answerable ctx v.toWorld) ∧
      (f.TextsAgree ctx v.toWorld → f.Answerable ctx v.toWorld →
        (list_ips_or_panic ctx order f).run database v =
          ((reference_listing ctx order f v.toWorld).map some, v)) := by
  rw [run_list_ips_or_panic, Prod.mk.injEq, and_iff_left rfl]
  rcases @answered_text ctx f v order with hsame | ⟨hanswerable, hsame⟩
  · rw [hsame]
    exact ⟨(answered_iff order).mp, fun _ => (answered_iff order).mpr⟩
  · refine ⟨fun _ => hanswerable, fun hagree h => ?_⟩
    rw [hsame hagree]
    exact (answered_iff order).mpr h

/-- When the record of a row was last updated. -/
def row_time (row : MemberRow) : Int := (row.2.map IpRecord.updated_at).getD 0

/-- Rows in descending order are what an order of the database may return. -/
theorem sorted_of_descending {rows : List MemberRow} (h : Descending row_time rows) :
    rows.Pairwise fun a b => ∀ r ∈ a.2, ∀ r' ∈ b.2, r'.updated_at ≤ r.updated_at := by
  refine h.imp fun {a b} hab r hr r' hr' => ?_
  unfold row_time at hab
  rw [Option.mem_def.mp hr, Option.mem_def.mp hr'] at hab
  exact hab

/-- The newest row first, ties as they are stored. -/
def RowOrder.newest : RowOrder where
  arrange rows := rows.mergeSort fun a b => decide (row_time b ≤ row_time a)
  perm rows := List.mergeSort_perm rows _
  sorted rows := by
    have hsorted := @List.pairwise_mergeSort _ (fun a b => decide (row_time b ≤ row_time a))
      (fun a b c hab hbc => decide_eq_true ((of_decide_eq_true hbc).trans (of_decide_eq_true hab)))
      (fun a b => by
        rw [Bool.or_eq_true, decide_eq_true_eq, decide_eq_true_eq]
        exact le_total _ _) rows
    exact sorted_of_descending (hsorted.imp of_decide_eq_true)

/-- The sensor asks for what was seen in the last hour. -/
theorem listing_as_reference_hour :
    (list_ips_or_panic .sensor .newest { max_age := some 3600, since := some 0 }).run database .shown =
      ((reference_listing .sensor .newest { max_age := some 3600, since := some 0 }
        Vault.shown.toWorld).map some, .shown) := by
  have hrecords : ∀ r ∈ Vault.shown.records.rows,
      Calendar.FourDigits r.last_seen_at ∧ r.deleted_at = none := by decide
  have hdates : QueryFilters.Dated { max_age := some 3600, since := some 0 } Ctx.sensor.now
      Vault.shown.toWorld := by
    refine ⟨fun t ht => ?_, fun age hage => ?_, fun r hr => ⟨(hrecords r hr).1, fun t ht => ?_⟩⟩
    · obtain rfl := Option.some.inj (Except.ok.inj ht)
      decide
    · obtain rfl := Option.some.inj hage
      decide
    · cases (hrecords r hr).2.symm.trans ht
  exact (listing_as_reference .sensor .newest { max_age := some 3600, since := some 0 } .shown).2
    hdates.agree
    ⟨fun _ _ => ⟨none, rfl⟩, fun _ _ _ => ⟨some 0, rfl⟩, fun _ _ _ => rfl, fun _ _ _ _ _ => rfl⟩

/-- A key that reads nothing. -/
def Ctx.blind : Ctx := ⟨.sample, ⟨.sample 9, "203.0.113.9"⟩, 9, ⟨"", "", []⟩⟩

/-- It asks for a status that does not exist, and is answered. -/
theorem bogus_status_answered :
    (list_ips_or_panic .blind .newest { status := some "bogus" }).run database .sample =
        (.ok (some (.items [])), .sample) ∧
      reference_listing .blind .newest { status := some "bogus" } Vault.sample.toWorld =
        .error (.InvalidInput "Invalid status filter: bogus") := by
  refine ⟨?_, rfl⟩
  rw [run_list_ips_or_panic]
  rfl

end IpVault
