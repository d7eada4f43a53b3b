import IpVault.Records.Outcome

set_option autoImplicit false

/-! # What a batch reports

The counters and the events of `batch_records` are gathered along the two loops, from a store that
changes under them. As no address occurs twice, what an entry adds can be read off the store the
transaction began in (`BatchTxn.summary`, `BatchTxn.events`). The events come in the order of the entries
and of the rows that the sweep finds; that order is the database's.
-/

namespace IpVault

open Lib

/-- The counters of two parts of a batch. -/
def BatchRecordsResponse.plus (a b : BatchRecordsResponse) : BatchRecordsResponse where
  created := a.created + b.created
  updated := a.updated + b.updated
  restored := a.restored + b.restored
  locked_skipped := a.locked_skipped + b.locked_skipped
  soft_deleted := a.soft_deleted + b.soft_deleted
  linked := a.linked + b.linked

theorem BatchRecordsResponse.plus_assoc (a b c : BatchRecordsResponse) :
    (a.plus b).plus c = a.plus (b.plus c) := by
  simp only [plus, Nat.add_assoc]

theorem BatchRecordsResponse.empty_plus (a : BatchRecordsResponse) :
    BatchRecordsResponse.plus {} a = a := by
  simp only [plus, Nat.zero_add]

theorem BatchRecordsResponse.plus_empty (a : BatchRecordsResponse) : a.plus {} = a := rfl

namespace BatchTxn

variable {t : BatchTxn} {w w' : World}

/-! ## The report, from the store a batch finds -/

/-- The entry is skipped: its record is locked. -/
def skips (w : World) (e : String × BatchRecordInput) : Bool :=
  (w.record_at e.1).any (·.is_locked)

/-- The entry brings a record back. -/
def restores (w : World) (e : String × BatchRecordInput) : Bool :=
  (w.record_at e.1).any fun r =>
    !r.is_locked && decide (e.2.is_deleted ≠ some true ∧ r.is_deleted = true)

/-- The entry adds a membership. -/
def joins (t : BatchTxn) (w : World) (e : String × BatchRecordInput) : Bool :=
  (w.record_at e.1).all fun r => !r.is_locked && !w.memberships.has (r.id, t.group.id)

/-- The counters of some entries. -/
def tally (t : BatchTxn) (w : World) (es : List (String × BatchRecordInput)) :
    BatchRecordsResponse where
  created := es.countP fun e => (w.record_at e.1).isNone
  updated := es.countP fun e => (w.record_at e.1).any (!·.is_locked)
  restored := es.countP (restores w)
  locked_skipped := es.countP (skips w)
  linked := es.countP (t.joins w)

/-- The events of one entry: none if it is skipped. -/
def entry_events (t : BatchTxn) (w : World) (e : String × BatchRecordInput) : List WebhookEvent :=
  if skips w e then []
  else t.push (if t.joins w e then "IP_ADD" else "IP_UPDATE") e.1 e.2.cause []

/-- The records `full_replace` soft-deletes. -/
def swept (t : BatchTxn) (w : World) : List IpRecord := w.records.rows.filter (t.omits w)

/-- The events of the sweep over some members. -/
def sweep_events (t : BatchTxn) (rs : List IpRecord) : List WebhookEvent :=
  rs.flatMap fun r => t.push "IP_DELETE" r.target_address
    (some "Removed via batch full_replace synchronisation") []

/-- The counters of the batch. -/
def summary (t : BatchTxn) (w : World) : BatchRecordsResponse :=
  { t.tally w t.normalized with soft_deleted := (t.swept w).length }

/-- The events of the batch. -/
def events (t : BatchTxn) (w : World) : List WebhookEvent :=
  t.normalized.flatMap (t.entry_events w) ++ t.sweep_events (t.swept w)

theorem push_eq (action address : String) (cause : Option String) (events : List WebhookEvent) :
    t.push action address cause events = events ++ t.push action address cause [] := by
  unfold push
  by_cases h : t.skip_webhooks = true
  · rw [if_pos h, if_pos h, List.append_nil]
  · rw [if_neg h, if_neg h, List.nil_append]

theorem tally_cons (e : String × BatchRecordInput) (es : List (String × BatchRecordInput)) :
    t.tally w (e :: es) = (t.tally w [e]).plus (t.tally w es) := by
  simp only [tally, BatchRecordsResponse.plus, List.countP_cons, List.countP_nil, Nat.zero_add,
    Nat.add_comm]

/-! ## One entry -/

theorem Txn.link_count {record_id group_id : Uuid} {n : Nat}
    (h : Txn.link record_id group_id w = .ok (n, w')) :
    n = if w.memberships.has (record_id, group_id) then 0 else 1 := by
  simp only [Txn.link, Txn.db_error] at h
  split at h
  · cases h
  · cases h
    rfl

/-- The end of the loop body. -/
theorem join_report {address : String} {input : BatchRecordInput} {id : Uuid}
    {summary : BatchRecordsResponse} {events : List WebhookEvent} {st' : BatchState}
    (h : t.join address input id summary events w = .ok (st', w')) :
    st' = ({ summary with
        linked := summary.linked + if w.memberships.has (id, t.group.id) then 0 else 1 },
      events ++ t.push (if w.memberships.has (id, t.group.id) then "IP_UPDATE" else "IP_ADD")
        address input.cause []) := by
  obtain ⟨n, w₁, hlink, h⟩ := atomic_bind_ok.mp h
  obtain ⟨rfl, -⟩ := atomic_pure_ok.mp h
  obtain rfl := Txn.link_count hlink
  by_cases hmember : w.memberships.has (id, t.group.id) = true
  · simp only [hmember, if_true, Nat.lt_irrefl, if_false, ← push_eq]
  · simp only [hmember, Bool.false_eq_true, if_false, Nat.zero_lt_one, if_true, ← push_eq]

/-- A record that is not there is in no group. -/
theorem no_membership_of_next (hw : w.Wf) (group_id : Uuid) :
    w.memberships.has (w.next_uuid, group_id) = false := by
  refine Table.has_eq_false.mpr fun m hm hkey => ?_
  obtain ⟨r, hr, hid⟩ := Table.has_iff.mp (hw.membership_record m hm)
  have hlt : r.id < w.next_uuid := hw.record_fresh r hr
  have hrecord : m.ip_record_id = w.next_uuid := congrArg Prod.fst hkey
  rw [hid, hrecord] at hlt
  exact Nat.lt_irrefl _ hlt

/-- **One entry**: what it adds to the report. -/
theorem entry_report {st st' : BatchState} {e : String × BatchRecordInput} (hw : w.Wf)
    (h : t.entry st e w = .ok (st', w')) :
    st' = (st.1.plus (t.tally w [e]), st.2 ++ t.entry_events w e) := by
  obtain ⟨found, w₁, hread, h⟩ := atomic_bind_ok.mp h
  simp only [Txn.read, Except.ok.injEq, Prod.mk.injEq] at hread
  obtain ⟨hfound, rfl⟩ := hread
  cases found with
  | none =>
      obtain ⟨id, w₂, hins, h⟩ := atomic_bind_ok.mp h
      obtain ⟨rfl, -, rfl⟩ := Txn.insert_record_ok hins
      have hnew : w.memberships.has (w.next_uuid, t.group.id) = false :=
        no_membership_of_next hw t.group.id
      rw [join_report h]
      simp [tally, BatchRecordsResponse.plus, entry_events, skips, restores, joins, hfound, hnew]
  | some r =>
      by_cases hl : r.is_locked = true
      · simp only [hl, if_true] at h
        obtain ⟨rfl, -⟩ := atomic_pure_ok.mp h
        simp [tally, BatchRecordsResponse.plus, entry_events, skips, restores, joins, hfound, hl]
      · simp only [hl, Bool.false_eq_true, if_false] at h
        obtain ⟨r', w₂, hupd, h⟩ := atomic_bind_ok.mp h
        obtain ⟨r₀, -, -, -, rfl⟩ := Txn.update_record_ok hupd
        rw [join_report h]
        have hunlocked : r.is_locked = false := Bool.eq_false_iff.mpr hl
        by_cases hmember : w.memberships.has (r.id, t.group.id) = true
        · simp [tally, BatchRecordsResponse.plus, entry_events, skips, restores, joins, hfound,
            hunlocked, hmember]
        · simp [tally, BatchRecordsResponse.plus, entry_events, skips, restores, joins, hfound,
            hunlocked, hmember]

/-! ## The entries -/

/-- What other entries do to an address: nothing. -/
theorem Effect.record_at_elsewhere {es : List (String × BatchRecordInput)} (hw' : w'.Wf)
    (h : t.Effect (t.entry_outcome es) es w w') {address : String}
    (ha : address ∉ es.map Prod.fst) : w'.record_at address = w.record_at address := by
  cases hfound : w.record_at address with
  | none => exact (h.record_at_none ha).mpr hfound
  | some r =>
      obtain ⟨hr, hadr⟩ := World.mem_of_record_at hfound
      have hkept : t.entry_outcome es r = r := entry_outcome_of_not_mem (hadr ▸ ha)
      have hr' : r ∈ w'.records := hkept ▸ h.row r hr
      exact hw'.record_at_eq_some.mpr ⟨hr', hadr⟩

theorem has_membership_iff {record_id group_id : Uuid} :
    w.memberships.has (record_id, group_id) = true ↔ w.member record_id group_id := by
  simp [Table.has_iff, World.member, Membership.key, Prod.ext_iff]

theorem Effect.membership_elsewhere {es : List (String × BatchRecordInput)}
    (h : t.Effect (t.entry_outcome es) es w w') {address : String}
    (ha : address ∉ es.map Prod.fst) {r : IpRecord} (hr : w.record_at address = some r) :
    w'.memberships.has (r.id, t.group.id) = w.memberships.has (r.id, t.group.id) := by
  obtain ⟨hmem, hadr⟩ := World.mem_of_record_at hr
  rw [Bool.eq_iff_iff, has_membership_iff, has_membership_iff]
  exact h.member_of_not_mem hmem (hadr ▸ ha)

/-- The report on later entries is the same before and after the first ones. -/
theorem Effect.report_elsewhere {es : List (String × BatchRecordInput)} (hw' : w'.Wf)
    (h : t.Effect (t.entry_outcome es) es w w') {e : String × BatchRecordInput}
    (he : e.1 ∉ es.map Prod.fst) :
    w'.record_at e.1 = w.record_at e.1 ∧ t.joins w' e = t.joins w e ∧
      t.entry_events w' e = t.entry_events w e := by
  have hat := h.record_at_elsewhere hw' he
  have hjoins : t.joins w' e = t.joins w e := by
    unfold joins
    rw [hat]
    cases hr : w.record_at e.1 with
    | none => rfl
    | some r =>
        show (!r.is_locked && !w'.memberships.has (r.id, t.group.id)) = _
        rw [h.membership_elsewhere he hr]
        rfl
  refine ⟨hat, hjoins, ?_⟩
  unfold entry_events skips
  rw [hat, hjoins]

theorem Effect.tally_elsewhere {es es' : List (String × BatchRecordInput)} (hw' : w'.Wf)
    (h : t.Effect (t.entry_outcome es) es w w')
    (hes : ∀ e ∈ es', e.1 ∉ es.map Prod.fst) : t.tally w' es' = t.tally w es' := by
  have same := fun e he => h.report_elsewhere hw' (hes e he)
  have hat : ∀ e ∈ es', w'.record_at e.1 = w.record_at e.1 := fun e he => (same e he).1
  unfold tally
  congr 1
  · exact List.countP_congr fun e he => by rw [hat e he]
  · exact List.countP_congr fun e he => by rw [hat e he]
  · exact List.countP_congr fun e he => by unfold restores; rw [hat e he]
  · exact List.countP_congr fun e he => by unfold skips; rw [hat e he]
  · exact List.countP_congr fun e he => by rw [(same e he).2.1]

/-- In a batch that names no address twice, an entry is not about the addresses of the later ones. -/
theorem addresses_after {e : String × BatchRecordInput} {es : List (String × BatchRecordInput)}
    (hnew : e.1 ∉ es.map Prod.fst) : ∀ e' ∈ es, e'.1 ∉ [e].map Prod.fst := by
  intro e' he' hmem
  rw [List.map_singleton, List.mem_singleton] at hmem
  exact hnew (hmem ▸ List.mem_map_of_mem he')

/-- **The loop over the entries**: what it adds to the report, read off the store it begins in. -/
theorem entries_report {es : List (String × BatchRecordInput)} {st st' : BatchState} (hw : w.Wf)
    (hnodup : (es.map Prod.fst).Nodup) (h : t.entries es st w = .ok (st', w')) :
    st' = (st.1.plus (t.tally w es), st.2 ++ es.flatMap (t.entry_events w)) := by
  induction es generalizing st w with
  | nil =>
      obtain ⟨rfl, -⟩ := atomic_pure_ok.mp h
      have hzero : t.tally w [] = {} := rfl
      rw [hzero, BatchRecordsResponse.plus_empty, List.flatMap_nil, List.append_nil]
  | cons e es ih =>
      obtain ⟨st₁, w₁, hentry, h⟩ := atomic_bind_ok.mp h
      obtain ⟨hnew, hnodup'⟩ := List.nodup_cons.mp hnodup
      have hw₁ : w₁.Wf := t.wf_entry st e w st₁ w₁ hentry hw
      have effect := (entry_effect hentry).effect hw
      have later := addresses_after hnew
      have htally := effect.tally_elsewhere hw₁ later
      have hevents : es.flatMap (t.entry_events w₁) = es.flatMap (t.entry_events w) :=
        List.flatMap_congr fun e' he' => (effect.report_elsewhere hw₁ (later e' he')).2.2
      rw [ih hw₁ hnodup' h, entry_report hw hentry, htally, hevents, tally_cons e es,
        BatchRecordsResponse.plus_assoc, List.flatMap_cons, List.append_assoc]

/-! ## The sweep -/

/-- The batch does not name the record. -/
def unseen (t : BatchTxn) (r : IpRecord) : Bool := !t.seen.contains r.target_address

theorem unseen_iff {r : IpRecord} : t.unseen r = true ↔ r.target_address ∉ t.seen := by
  simp [unseen]

/-- **The loop over the members**: it counts and announces those the batch does not name. -/
theorem sweep_report {rs : List IpRecord} {st st' : BatchState}
    (h : t.sweep rs st w = .ok (st', w')) :
    st' = (st.1.plus { soft_deleted := (rs.filter t.unseen).length },
      st.2 ++ t.sweep_events (rs.filter t.unseen)) := by
  induction rs generalizing st w with
  | nil =>
      obtain ⟨rfl, -⟩ := atomic_pure_ok.mp h
      rw [List.filter_nil, sweep_events, List.flatMap_nil, List.append_nil]
      rfl
  | cons m rs ih =>
      obtain ⟨summary, events⟩ := st
      unfold sweep at h
      by_cases hseen : t.seen.contains m.target_address = true
      · rw [if_pos hseen] at h
        have hskip : ¬ t.unseen m = true := by
          rw [unseen, hseen]
          decide
        rw [ih h, List.filter_cons_of_neg hskip]
      · rw [if_neg hseen] at h
        obtain ⟨r', w₁, -, h⟩ := atomic_bind_ok.mp h
        have hunseen : t.unseen m = true := by
          rw [unseen, Bool.eq_false_iff.mpr hseen]
          rfl
        have hcount : ∀ n, BatchRecordsResponse.plus
            { summary with soft_deleted := summary.soft_deleted + 1 } { soft_deleted := n } =
              summary.plus { soft_deleted := n + 1 } := by
          intro n
          simp only [BatchRecordsResponse.plus, Nat.add_assoc, Nat.add_comm 1]
        rw [ih h, List.filter_cons_of_pos hunseen, push_eq, List.append_assoc, List.length_cons]
        exact Prod.ext (hcount _) rfl

/-- The members the sweep removes are the records of the old store that the batch omits. -/
theorem swept_perm {w₁ : World} (hmode : t.mode = .FullReplace)
    (h : t.Effect (t.entry_outcome t.normalized) t.normalized w w₁) :
    ((candidates w₁ t.group.id).filter t.unseen).Perm (t.swept w) := by
  have hnodup₁ : (candidates w₁ t.group.id).Nodup :=
    (List.Nodup.of_map IpRecord.id w₁.records.unique).filter _
  have hnodup : (t.swept w).Nodup := (List.Nodup.of_map IpRecord.id w.records.unique).filter _
  refine (List.perm_ext_iff_of_nodup (hnodup₁.filter _) hnodup).mpr fun r => ?_
  unfold swept
  rw [List.mem_filter, List.mem_filter, mem_candidates, omits_iff, Table.mem_rows, unseen_iff]
  constructor
  · rintro ⟨⟨hr, hmember, hlive, hl⟩, hseen⟩
    have hr₀ : r ∈ w.records := by
      rcases h.origin r hr with ⟨r₀, hr₀, rfl⟩ | ⟨e, he, -, -, hfresh⟩
      · rw [entry_outcome_address] at hseen
        rwa [entry_outcome_of_not_mem hseen]
      · refine absurd ?_ hseen
        rw [hfresh]
        exact List.mem_map_of_mem he
    exact ⟨hr₀, hmode, (h.member_of_not_mem hr₀ hseen).mp hmember, hlive, hl, hseen⟩
  · rintro ⟨hr, -, hmember, hlive, hl, hseen⟩
    have hr₁ : r ∈ w₁.records := by
      have hrow := h.row r hr
      rwa [entry_outcome_of_not_mem hseen] at hrow
    exact ⟨⟨hr₁, (h.member_of_not_mem hr hseen).mpr hmember, hlive, hl⟩, hseen⟩

/-! ## The whole batch -/

theorem swept_of_upsert (hmode : t.mode = .Upsert) : t.swept w = [] := by
  refine List.filter_eq_nil_iff.mpr fun r _ => ?_
  rw [omits_iff, hmode]
  rintro ⟨h, -⟩
  cases h

/-- **The report of a batch** is what the store it begins in says. -/
theorem run_report {st : BatchState} (hw : w.Wf) (hnodup : t.seen.Nodup)
    (h : t.run w = .ok (st, w')) : st.1 = t.summary w ∧ st.2.Perm (t.events w) := by
  obtain ⟨st₁, w₁, hentries, h⟩ := atomic_bind_ok.mp h
  obtain ⟨st₂, w₂, hreplace, h⟩ := atomic_bind_ok.mp h
  obtain ⟨_, w₃, -, h⟩ := atomic_bind_ok.mp h
  obtain ⟨rfl, -⟩ := atomic_pure_ok.mp h
  have entered := entries_effect hw hnodup hentries
  have report := entries_report hw hnodup hentries
  rw [BatchRecordsResponse.empty_plus, List.nil_append] at report
  unfold replace at hreplace
  cases hmode : t.mode with
  | Upsert =>
      rw [hmode] at hreplace
      obtain ⟨rfl, -⟩ := atomic_pure_ok.mp hreplace
      have hnone := swept_of_upsert (w := w) hmode
      unfold summary events
      rw [report, hnone]
      exact ⟨rfl, by rw [sweep_events, List.flatMap_nil, List.append_nil]⟩
  | FullReplace =>
      rw [hmode] at hreplace
      obtain ⟨members, w₂', hread, hsweep⟩ := atomic_bind_ok.mp hreplace
      simp only [Txn.read, Except.ok.injEq, Prod.mk.injEq] at hread
      obtain ⟨rfl, rfl⟩ := hread
      have hperm := swept_perm hmode entered
      rw [sweep_report hsweep, report]
      unfold summary events
      refine ⟨?_, (hperm.flatMap_right _).append_left _⟩
      rw [hperm.length_eq]
      simp only [BatchRecordsResponse.plus, tally, Nat.add_zero, Nat.zero_add]

end BatchTxn

end IpVault
