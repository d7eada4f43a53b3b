import IpVault.Records.BatchContents
import IpVault.Lib.Twin

set_option autoImplicit false

/-! # The order of the entries of a batch

A batch whose entries come in another order is admitted or refused alike, reports the same, and
leaves the same store: the same rows, but for the identifiers of the records it inserts, which are
drawn in the order of the entries. It hands the same events to the queue; a queue that has no room
for all of them keeps those that come first.
-/

namespace IpVault

open Lib

/-- The stores are the same, but for the identifiers from `fresh` on: `ρ` takes those of the records
of `w` to those of `w'`. The order of rows is no part of a store, nor is the queue compared here. -/
structure SameStore (fresh : Uuid) (ρ : Uuid → Uuid) (w w' : World) : Prop where
  keys : w'.keys = w.keys
  permissions : w'.permissions = w.permissions
  groups : w'.groups = w.groups
  webhooks : w'.webhooks = w.webhooks
  executions : w'.executions = w.executions
  audit_logs : w'.audit_logs = w.audit_logs
  next_uuid : w'.next_uuid = w.next_uuid
  fixed : ∀ id < fresh, ρ id = id
  injective : ∀ r ∈ w.records, ∀ r' ∈ w.records, ρ r.id = ρ r'.id → r.id = r'.id
  records : ∀ r ∈ w.records, { r with id := ρ r.id } ∈ w'.records
  no_other_records : ∀ r' ∈ w'.records, ∃ r ∈ w.records, r' = { r with id := ρ r.id }
  memberships : ∀ m ∈ w.memberships, ⟨ρ m.ip_record_id, m.group_id⟩ ∈ w'.memberships
  no_other_memberships : ∀ m' ∈ w'.memberships, ∃ m ∈ w.memberships,
    m' = ⟨ρ m.ip_record_id, m.group_id⟩

namespace BatchTxn

variable {t : BatchTxn} {w x x' : World}

/-! ## The transaction -/

/-- The transaction with its entries in another order. -/
def reordered (t : BatchTxn) (normalized : List (String × BatchRecordInput)) : BatchTxn :=
  { t with normalized }

section Reordered

variable {es : List (String × BatchRecordInput)}

theorem mem_seen_reordered (h : es.Perm t.normalized) {a : String} :
    a ∈ (t.reordered es).seen ↔ a ∈ t.seen :=
  (h.map Prod.fst).mem_iff

theorem omits_reordered (h : es.Perm t.normalized) : (t.reordered es).omits w = t.omits w := by
  funext r
  rw [Bool.eq_iff_iff, omits_iff, omits_iff, mem_seen_reordered h]
  rfl

/-- What becomes of a row. -/
theorem outcome_reordered (h : es.Perm t.normalized) (hnodup : t.seen.Nodup) (r : IpRecord) :
    (t.reordered es).outcome w r = t.outcome w r := by
  have hnodup' : (t.reordered es).seen.Nodup := (h.map Prod.fst).nodup_iff.mpr hnodup
  by_cases hl : r.is_locked = true
  · rw [outcome_of_locked hl, outcome_of_locked hl]
  have hl : r.is_locked = false := Bool.eq_false_iff.mpr hl
  by_cases hseen : r.target_address ∈ t.seen
  · obtain ⟨e, he, hadr⟩ := List.mem_map.mp hseen
    have he' : e ∈ (t.reordered es).normalized := h.mem_iff.mpr he
    rw [outcome_of_mem hnodup he hadr.symm hl, outcome_of_mem hnodup' he' hadr.symm hl]
    rfl
  · have hseen' : r.target_address ∉ (t.reordered es).seen := mt (mem_seen_reordered h).mp hseen
    unfold outcome
    rw [omits_reordered h, entry_outcome_of_not_mem hseen, entry_outcome_of_not_mem hseen']
    rfl

/-- The counters. -/
theorem summary_reordered (h : es.Perm t.normalized) :
    (t.reordered es).summary w = t.summary w := by
  have hswept : (t.reordered es).swept w = t.swept w := by
    unfold swept
    rw [omits_reordered h]
  have htally : (t.reordered es).tally w es = t.tally w t.normalized := by
    unfold tally
    congr 1
    · exact h.countP_eq _
    · exact h.countP_eq _
    · exact h.countP_eq _
    · exact h.countP_eq _
    · exact h.countP_eq (t.joins w)
  unfold summary
  rw [hswept]
  show { (t.reordered es).tally w es with soft_deleted := (t.swept w).length } = _
  rw [htally]

/-- The audit detail, which counts the entries. -/
theorem details_reordered (h : es.Perm t.normalized) (s : BatchRecordsResponse) :
    (t.reordered es).details s = t.details s := by
  unfold details reordered
  simp only
  rw [h.length_eq]

/-- The events. -/
theorem events_reordered (h : es.Perm t.normalized) :
    ((t.reordered es).events w).Perm (t.events w) := by
  have hswept : (t.reordered es).swept w = t.swept w := by
    unfold swept
    rw [omits_reordered h]
  unfold events
  rw [hswept]
  exact (h.flatMap_right (t.entry_events w)).append_right _

end Reordered

/-! ## The rest of the store -/

/-- The loop over the entries writes no audit row, and draws an identifier for each record it
creates. -/
theorem entries_rest {es : List (String × BatchRecordInput)} {st st' : BatchState} (hw : w.Wf)
    (hnodup : (es.map Prod.fst).Nodup) (h : t.entries es st w = .ok (st', x)) :
    x.audit_logs = w.audit_logs ∧ x.next_uuid = w.next_uuid + (t.tally w es).created := by
  induction es generalizing st w with
  | nil =>
      obtain ⟨-, rfl⟩ := atomic_pure_ok.mp h
      exact ⟨rfl, rfl⟩
  | cons e es ih =>
      obtain ⟨st₁, w₁, hentry, h⟩ := atomic_bind_ok.mp h
      obtain ⟨hnew, hnodup'⟩ := List.nodup_cons.mp hnodup
      have hw₁ : w₁.Wf := t.wf_entry st e w st₁ w₁ hentry hw
      have effect := entry_effect hentry
      have later := addresses_after hnew
      have hone : w₁.audit_logs = w.audit_logs ∧
          w₁.next_uuid = w.next_uuid + (t.tally w [e]).created := by
        cases effect with
        | locked r hr hl => simp [tally, hr]
        | changed r hr hl => simp [tally, hr]
        | created hn => simp [tally, hn]
      obtain ⟨hlogs, hcount⟩ := ih hw₁ hnodup' h
      rw [(effect.effect hw).tally_elsewhere hw₁ later, hone.2] at hcount
      refine ⟨hlogs.trans hone.1, ?_⟩
      rw [hcount, tally_cons e es]
      exact Nat.add_assoc _ _ _

theorem sweep_audit_logs {rs : List IpRecord} {st st' : BatchState}
    (h : t.sweep rs st w = .ok (st', x)) : x.audit_logs = w.audit_logs := by
  induction rs generalizing st w with
  | nil =>
      obtain ⟨-, rfl⟩ := atomic_pure_ok.mp h
      rfl
  | cons m rs ih =>
      obtain ⟨summary, events⟩ := st
      unfold sweep at h
      by_cases hseen : t.seen.contains m.target_address = true
      · rw [if_pos hseen] at h
        exact ih h
      · rw [if_neg hseen] at h
        obtain ⟨r', w₁, hupd, h⟩ := atomic_bind_ok.mp h
        obtain ⟨r₀, -, -, -, rfl⟩ := Txn.update_record_ok hupd
        have hrest := ih h
        exact hrest

/-- The transaction writes one audit row, about its counters. -/
theorem run_rest {st : BatchState} (hw : w.Wf) (hnodup : t.seen.Nodup)
    (h : t.run w = .ok (st, x)) :
    x.audit_logs = w.audit_logs ++ [audit_row t.caller t.now "batch_records_updated" none
        (some t.group.name) (some (t.details (t.summary w)))] ∧
      x.next_uuid = w.next_uuid + (t.summary w).created := by
  have hsummary := (run_report hw hnodup h).1
  obtain ⟨st₁, w₁, hentries, h⟩ := atomic_bind_ok.mp h
  obtain ⟨st₂, w₂, hreplace, h⟩ := atomic_bind_ok.mp h
  obtain ⟨_, w₃, haudit, h⟩ := atomic_bind_ok.mp h
  obtain ⟨rfl, rfl⟩ := atomic_pure_ok.mp h
  obtain ⟨hlogs, hcount⟩ := entries_rest hw hnodup hentries
  have hkept : w₂.audit_logs = w₁.audit_logs ∧ w₂.next_uuid = w₁.next_uuid := by
    unfold replace at hreplace
    cases hmode : t.mode with
    | Upsert =>
        rw [hmode] at hreplace
        obtain ⟨-, rfl⟩ := atomic_pure_ok.mp hreplace
        exact ⟨rfl, rfl⟩
    | FullReplace =>
        rw [hmode] at hreplace
        obtain ⟨members, w₂', hread, hsweep⟩ := atomic_bind_ok.mp hreplace
        simp only [Txn.read, Except.ok.injEq, Prod.mk.injEq] at hread
        obtain ⟨rfl, rfl⟩ := hread
        exact ⟨sweep_audit_logs hsweep, (sweep_effect hsweep).2.2⟩
  obtain rfl := Txn.insert_audit_ok haudit
  constructor
  · show w₂.audit_logs ++ [_] = _
    rw [hkept.1, hlogs, hsummary]
  · show w₂.next_uuid = _
    rw [hkept.2, hcount]
    rfl

/-! ## The records -/

/-- Where the records of a store are found in another one, by their addresses. -/
def counterpart (x x' : World) (id : Uuid) : Uuid :=
  match x.records.find? id with
  | some r => ((x'.record_at r.target_address).map IpRecord.id).getD id
  | none => id

theorem counterpart_of_mem {r r' : IpRecord} (hx' : x'.Wf) (hr : r ∈ x.records)
    (hr' : r' ∈ x'.records) (hadr : r'.target_address = r.target_address) :
    counterpart x x' r.id = r'.id := by
  unfold counterpart
  rw [Table.find?_key hr]
  show ((x'.record_at r.target_address).map IpRecord.id).getD r.id = r'.id
  rw [hx'.record_at_eq_some.mpr ⟨hr', hadr⟩]
  rfl

section Counterparts

variable {es : List (String × BatchRecordInput)}

/-- Each record is found again, with another identifier at most. -/
theorem Effect.found (hx' : x'.Wf) (hperm : es.Perm t.normalized) (hnodup : t.seen.Nodup)
    (h : t.Effect (t.outcome w) t.normalized w x)
    (h' : (t.reordered es).Effect ((t.reordered es).outcome w) es w x') {r : IpRecord}
    (hr : r ∈ x.records) : { r with id := counterpart x x' r.id } ∈ x'.records := by
  rcases h.origin r hr with ⟨r₀, hr₀, rfl⟩ | ⟨e, he, hnew, -, hfresh⟩
  · have hkept := h'.row r₀ hr₀
    rw [outcome_reordered hperm hnodup] at hkept
    rw [counterpart_of_mem hx' hr hkept rfl]
    exact hkept
  · obtain ⟨r', hr', hfresh'⟩ := h'.created e (hperm.mem_iff.mpr he) hnew
    have hadr : r'.target_address = r.target_address := by
      rw [hfresh', hfresh]
      rfl
    have hsame : { r with id := r'.id } = r' := by
      rw [hfresh, hfresh']
      rfl
    rw [counterpart_of_mem hx' hr hr' hadr, hsame]
    exact hr'

/-- The old records keep their identifiers. -/
theorem Effect.counterpart_fixed (hx' : x'.Wf) (hperm : es.Perm t.normalized)
    (hnodup : t.seen.Nodup) (h : t.Effect (t.outcome w) t.normalized w x)
    (h' : (t.reordered es).Effect ((t.reordered es).outcome w) es w x') {id : Uuid}
    (hid : id < w.next_uuid) : counterpart x x' id = id := by
  cases hfind : x.records.find? id with
  | none =>
      unfold counterpart
      rw [hfind]
  | some r =>
      obtain ⟨hr, rfl⟩ := Table.find?_eq_some.mp hfind
      rcases h.origin r hr with ⟨r₀, hr₀, rfl⟩ | ⟨e, -, -, hnew, -⟩
      · have hkept := h'.row r₀ hr₀
        rw [outcome_reordered hperm hnodup] at hkept
        exact counterpart_of_mem hx' hr hkept rfl
      · exact absurd hid (Nat.not_lt.mpr hnew)

/-- No record of the other store is left out. -/
theorem Effect.found_all (hx' : x'.Wf) (hperm : es.Perm t.normalized) (hnodup : t.seen.Nodup)
    (h : t.Effect (t.outcome w) t.normalized w x)
    (h' : (t.reordered es).Effect ((t.reordered es).outcome w) es w x') {r' : IpRecord}
    (hr' : r' ∈ x'.records) : ∃ r ∈ x.records, r' = { r with id := counterpart x x' r.id } := by
  obtain ⟨r, hr, hadr⟩ : ∃ r ∈ x.records, r.target_address = r'.target_address := by
    rcases h'.origin r' hr' with ⟨r₀, hr₀, rfl⟩ | ⟨e, he, hnew, -, hfresh⟩
    · refine ⟨_, h.row r₀ hr₀, ?_⟩
      rw [outcome_address, outcome_address]
    · obtain ⟨r, hr, hfresh'⟩ := h.created e (hperm.mem_iff.mp he) hnew
      refine ⟨r, hr, ?_⟩
      rw [hfresh, hfresh']
      rfl
  refine ⟨r, hr, ?_⟩
  have hfound := h.found hx' hperm hnodup h' hr
  exact hx'.address_unique r' hr' _ hfound hadr.symm

/-- **The records of a batch, in another order.** -/
theorem Effect.same_store (hw : w.Wf) (hx : x.Wf) (hx' : x'.Wf) (hperm : es.Perm t.normalized)
    (hnodup : t.seen.Nodup) (h : t.Effect (t.outcome w) t.normalized w x)
    (h' : (t.reordered es).Effect ((t.reordered es).outcome w) es w x')
    (honly : OnlyRecords w x) (honly' : OnlyRecords w x') (haudit : x'.audit_logs = x.audit_logs)
    (hcount : x'.next_uuid = x.next_uuid) :
    SameStore w.next_uuid (counterpart x x') x x' where
  keys := honly'.keys.trans honly.keys.symm
  permissions := honly'.permissions.trans honly.permissions.symm
  groups := honly'.groups.trans honly.groups.symm
  webhooks := honly'.webhooks.trans honly.webhooks.symm
  executions := honly'.executions.trans honly.executions.symm
  audit_logs := haudit
  next_uuid := hcount
  fixed _ hid := h.counterpart_fixed hx' hperm hnodup h' hid
  injective r hr s hs heq := by
    have hr' := h.found hx' hperm hnodup h' hr
    have hs' := h.found hx' hperm hnodup h' hs
    have hsame := Table.eq_of_key hr' hs' heq
    have hadr : r.target_address = s.target_address := by
      have hsameAddress := congrArg IpRecord.target_address hsame
      exact hsameAddress
    rw [hx.address_unique r hr s hs hadr]
  records _ hr := h.found hx' hperm hnodup h' hr
  no_other_records _ hr' := h.found_all hx' hperm hnodup h' hr'
  memberships m hm := by
    -- An old membership is one of an old record, which is its own counterpart.
    rcases (h.members m).mp hm with hold | ⟨hgroup, r, hr, hid, hl, hseen⟩
    · obtain ⟨r₀, hr₀, hid⟩ := Table.has_iff.mp (hw.membership_record m hold)
      have hlt : m.ip_record_id < w.next_uuid := hid ▸ hw.record_fresh r₀ hr₀
      rw [h.counterpart_fixed hx' hperm hnodup h' hlt]
      exact (h'.members m).mpr (Or.inl hold)
    · refine (h'.members _).mpr (Or.inr ⟨hgroup, _, h.found hx' hperm hnodup h' hr, ?_, hl, ?_⟩)
      · rw [← hid]
      · exact (mem_seen_reordered hperm).mpr hseen
  no_other_memberships m' hm' := by
    rcases (h'.members m').mp hm' with hold | ⟨hgroup, r', hr', hid', hl', hseen'⟩
    · obtain ⟨r₀, hr₀, hid⟩ := Table.has_iff.mp (hw.membership_record m' hold)
      have hlt : m'.ip_record_id < w.next_uuid := hid ▸ hw.record_fresh r₀ hr₀
      refine ⟨m', (h.members m').mpr (Or.inl hold), ?_⟩
      rw [h.counterpart_fixed hx' hperm hnodup h' hlt]
    · obtain ⟨r, hr, rfl⟩ := h.found_all hx' hperm hnodup h' hr'
      have hmem : (⟨r.id, t.group.id⟩ : Membership) ∈ x.memberships :=
        (h.members _).mpr (Or.inr ⟨rfl, r, hr, rfl, hl', (mem_seen_reordered hperm).mp hseen'⟩)
      refine ⟨_, hmem, ?_⟩
      obtain ⟨record_id, group_id⟩ := m'
      have hg : group_id = t.group.id := hgroup
      have hi : counterpart x x' r.id = record_id := hid'
      rw [hg, ← hi]

end Counterparts

end BatchTxn

/-! ## Refusals -/

section Refusals

variable {env : Env} {acc normalized : List (String × BatchRecordInput)}

theorem normalize_entries_parses {records : List BatchRecordInput}
    (h : normalize_entries env records acc = .ok normalized) :
    ∀ r ∈ records, (env.parse_network r.target_address).isSome = true := by
  induction records generalizing acc with
  | nil => exact fun r hr => absurd hr List.not_mem_nil
  | cons r rest ih =>
      unfold normalize_entries at h
      cases hparse : env.parse_network r.target_address with
      | none =>
          rw [hparse] at h
          cases h
      | some network =>
          rw [hparse] at h
          simp only at h
          split at h
          · cases h
          · intro r' hr'
            rcases List.mem_cons.mp hr' with rfl | hr'
            · rw [hparse]
              rfl
            · exact ih h r' hr'

/-- What parses, and has no address twice, is canonicalised. -/
theorem normalize_entries_total {records : List BatchRecordInput}
    (hparse : ∀ r ∈ records, (env.parse_network r.target_address).isSome = true)
    (hnodup : (acc.map Prod.fst ++
      records.map fun r => normalize_ip_or_cidr env r.target_address).Nodup) :
    ∃ normalized, normalize_entries env records acc = .ok normalized := by
  induction records generalizing acc with
  | nil => exact ⟨acc, rfl⟩
  | cons r rest ih =>
      obtain ⟨network, hnetwork⟩ := Option.isSome_iff_exists.mp (hparse r List.mem_cons_self)
      have hnew : normalize_ip_or_cidr env r.target_address ∉ acc.map Prod.fst := by
        intro hmem
        rw [List.nodup_append] at hnodup
        exact hnodup.2.2 _ hmem _ List.mem_cons_self rfl
      have hcontains : (acc.map Prod.fst).contains (normalize_ip_or_cidr env r.target_address) =
          false := by
        rw [List.contains_eq_mem, decide_eq_false_iff_not]
        exact hnew
      unfold normalize_entries
      rw [hnetwork]
      simp only [hcontains, Bool.false_eq_true, if_false]
      refine ih (fun r' hr' => hparse r' (List.mem_cons_of_mem r hr')) ?_
      rw [List.map_append, List.append_assoc]
      exact hnodup

theorem normalize_entries_status {records : List BatchRecordInput} {e : AppError}
    (h : normalize_entries env records acc = .error e) : e.status = 400 := by
  induction records generalizing acc with
  | nil => cases h
  | cons r rest ih =>
      unfold normalize_entries at h
      cases hparse : env.parse_network r.target_address with
      | none =>
          rw [hparse] at h
          cases h
          rfl
      | some network =>
          rw [hparse] at h
          simp only at h
          split at h
          · cases h
            rfl
          · exact ih h

/-- Canonicalisation in another order. -/
theorem normalize_entries_perm {records records' : List BatchRecordInput}
    (hperm : records'.Perm records) (h : normalize_entries env records [] = .ok normalized) :
    ∃ normalized', normalize_entries env records' [] = .ok normalized' ∧
      normalized'.Perm normalized := by
  obtain ⟨heq, hnodup⟩ := normalize_entries_ok h List.nodup_nil
  have hparses := normalize_entries_parses h
  have hkeys : (records.map fun r => normalize_ip_or_cidr env r.target_address).Nodup := by
    rw [heq, List.nil_append, List.map_map] at hnodup
    exact hnodup
  obtain ⟨normalized', hok⟩ : ∃ normalized', normalize_entries env records' [] = .ok normalized' :=
    normalize_entries_total (fun r hr => hparses r (hperm.mem_iff.mp hr))
      ((hperm.map _).nodup_iff.mpr hkeys)
  refine ⟨normalized', hok, ?_⟩
  rw [heq, (normalize_entries_ok hok List.nodup_nil).1, List.nil_append, List.nil_append]
  exact hperm.map _

theorem guard_bannable_status {network : IpNetwork} {e : AppError}
    (h : guard_bannable_address network = .error e) : e.status = 400 := by
  unfold guard_bannable_address at h
  simp only at h
  repeat' split at h
  all_goals cases h
  all_goals rfl

theorem guard_batch_addresses_status {e : AppError}
    (h : guard_batch_addresses env normalized = .error e) : e.status = 400 := by
  induction normalized with
  | nil => cases h
  | cons x rest ih =>
      obtain ⟨address, input⟩ := x
      unfold guard_batch_addresses at h
      cases hparse : env.parse_network address with
      | none =>
          rw [hparse] at h
          cases h
          rfl
      | some network =>
          rw [hparse] at h
          cases hguard : guard_bannable_address network with
          | error e' =>
              simp only [hguard] at h
              cases h
              exact guard_bannable_status hguard
          | ok u =>
              simp only [hguard] at h
              exact ih h

/-- The addresses are checked one by one. -/
theorem guard_batch_addresses_ok : guard_batch_addresses env normalized = .ok () ↔
    ∀ x ∈ normalized, ∃ network, env.parse_network x.1 = some network ∧
      guard_bannable_address network = .ok () := by
  induction normalized with
  | nil => exact ⟨fun _ x hx => absurd hx List.not_mem_nil, fun _ => rfl⟩
  | cons x rest ih =>
      obtain ⟨address, input⟩ := x
      unfold guard_batch_addresses
      rw [List.forall_mem_cons]
      cases hparse : env.parse_network address with
      | none =>
          constructor
          · intro h
            cases h
          · intro h
            obtain ⟨network, hsome, -⟩ := h.1
            cases hsome
      | some network =>
          rw [← ih]
          constructor
          · intro h
            obtain ⟨u, hguard, hrest⟩ := except_bind_ok.mp h
            exact ⟨⟨network, rfl, hguard⟩, hrest⟩
          · intro h
            obtain ⟨network', hsome, hguard⟩ := h.1
            obtain rfl := Option.some.inj hsome
            exact except_bind_ok.mpr ⟨(), hguard, h.2⟩

theorem enqueue_all_meets (events : List WebhookEvent) (v : Vault) :
    Prog.Meets database (fun _ _ => True) (fun _ _ => True) (fun _ _ => False)
      (enqueue_all events) v := by
  induction events generalizing v with
  | nil => trivial
  | cons e es ih =>
      unfold enqueue_all
      rw [Prog.meets_bind]
      refine (meets_exec (l := .enqueue e)).mpr ⟨trivial, fun _ _ _ => ih _, fun e' he => ?_⟩
      cases he

/-- Nothing is refused once the transaction has begun. -/
theorem batch_transaction_meets {t : BatchTxn} {v : Vault}
    (hg : v.groups.has t.group.id = true) (hk : v.keys.has t.caller.key.id = true) :
    Prog.Meets database (fun _ _ => True) (fun _ _ => True) (fun _ _ => False)
      (do
        let (summary, webhook_events) ← exec (.batch_txn t)
        enqueue_all webhook_events
        pure (json summary.to_json) : Handler Response) v := by
  rw [Prog.meets_bind]
  refine (meets_exec (l := .batch_txn t)).mpr ⟨trivial, fun st w _ => ?_, fun e he => ?_⟩
  · rw [Prog.meets_bind]
    exact (enqueue_all_meets st.2 _).imp fun _ _ _ => trivial
  · obtain ⟨st, w', hrun⟩ := BatchTxn.run_total v.wf hg hk
    cases hrun.symm.trans he

variable {ctx : Ctx} {payload : BatchRecordsPayload} {v : Vault}
variable {records : List BatchRecordInput}

/-- The group of a batch is found without its entries. -/
theorem batch_group_records :
    batch_group ctx { payload with records } = batch_group ctx payload := by
  unfold batch_group
  refine congrArg (select (.group_by_name payload.group_name) >>= ·) ?_
  funext existing
  cases existing with
  | none => rfl
  | some g => rfl

/-- **Refused alike.** Two orders of a batch are both carried out, or refused with the same
status. -/
theorem batch_records_twins (hperm : records.Perm payload.records)
    (hkey : v.keys.has ctx.key.id = true) :
    Prog.Twins database (fun _ _ _ _ => True) (fun e _ e' _ => e.status = e'.status)
      (batch_records ctx payload) v (batch_records ctx { payload with records }) v := by
  have hlength : records.length = payload.records.length := hperm.length_eq
  refine Prog.Twins.bind (Q := fun _ s _ t => s = v ∧ t = v) (Prog.twins_require ?_
    (fun _ => ⟨rfl, rfl⟩) fun _ => rfl) ?_
  · show payload.records.length ≤ MAX_BATCH_RECORDS ↔ records.length ≤ MAX_BATCH_RECORDS
    rw [hlength]
  intro _ s _ s' hs
  rw [hs.1, hs.2]
  refine Prog.Twins.bind (Q := fun n s n' t => s = v ∧ t = v ∧ n'.Perm n) ?_ ?_
  · refine Prog.twins_ofExcept.mpr ⟨fun n n' hn hn' => ⟨rfl, rfl, ?_⟩, fun e e' he he' => ?_, ?_⟩
    · obtain ⟨n'', hok, hperm'⟩ := normalize_entries_perm hperm hn
      obtain rfl : n' = n'' := Except.ok.inj (hn'.symm.trans hok)
      exact hperm'
    · rw [normalize_entries_status he, normalize_entries_status he']
    · constructor
      · intro hok
        cases hn : normalize_entries ctx.env payload.records [] with
        | error e =>
            rw [hn] at hok
            cases hok
        | ok n =>
            obtain ⟨n', hok', -⟩ := normalize_entries_perm hperm hn
            show (normalize_entries ctx.env records []).isOk = true
            rw [hok']
            rfl
      · intro hok
        cases hn : normalize_entries ctx.env records [] with
        | error e =>
            have hbad : (normalize_entries ctx.env records []).isOk = true := hok
            rw [hn] at hbad
            cases hbad
        | ok n =>
            obtain ⟨n', hok', -⟩ := normalize_entries_perm hperm.symm hn
            rw [hok']
            rfl
  intro normalized s normalized' s' hs
  obtain ⟨hs, hs', hnormalized⟩ := hs
  rw [hs, hs']
  -- both find or create the same group
  have hsame : batch_group ctx { payload with records } = batch_group ctx payload :=
    batch_group_records
  rw [hsame]
  have hobeys : Obeys ctx (.batch_records payload) v (batch_group ctx payload) v _ :=
    batch_group_obeys payload
  have hgroup := hobeys.twins_self
  refine Prog.Twins.bind (hgroup.mono (fun _ _ _ _ h => h) (fun _ _ _ _ he => ?_)) ?_
  · rw [he.1]
  intro group w group' w' hw
  obtain ⟨rfl, rfl, -, hkeys, hgroup, -⟩ := hw
  refine Prog.Twins.bind (Q := fun _ s _ t => s = w ∧ t = w) ?_ ?_
  · by_cases htype : group.group_type ≠ "whitelist"
    · rw [if_pos htype, if_pos htype]
      refine Prog.twins_ofExcept.mpr ⟨fun _ _ _ _ => ⟨rfl, rfl⟩, fun e e' he he' => ?_, ?_⟩
      · rw [guard_batch_addresses_status he, guard_batch_addresses_status he']
      · have hok : ∀ x : Except AppError Unit, x.isOk = true ↔ x = .ok () := by
          intro x
          cases x with
          | error e => exact ⟨fun h => (by cases h), fun h => (by cases h)⟩
          | ok u => exact ⟨fun _ => rfl, fun _ => rfl⟩
        rw [hok, hok, guard_batch_addresses_ok, guard_batch_addresses_ok]
        constructor
        · intro h x hx
          exact h x (hnormalized.mem_iff.mp hx)
        · intro h x hx
          exact h x (hnormalized.mem_iff.mpr hx)
    · rw [if_neg htype, if_neg htype]
      exact ⟨rfl, rfl⟩
  intro _ s _ s' hs
  rw [hs.1, hs.2]
  have hcaller : w.keys.has ctx.key.id = true := by
    rw [hkeys]
    exact hkey
  exact Prog.Twins.of_ended
    (batch_transaction_meets (t := batch_transaction ctx payload group normalized) hgroup hcaller)
    (batch_transaction_meets (t := batch_transaction ctx { payload with records } group normalized')
      hgroup hcaller) fun _ _ _ _ _ _ => trivial

end Refusals

/-! ## Requests -/

/-- The request with the batch as its payload. -/
def Request.batch (req : Request) (payload : BatchRecordsPayload) : Request :=
  { req with call := .batch_records payload }

theorem SameStore.mono {fresh fresh' : Uuid} {ρ : Uuid → Uuid} {w w' : World}
    (h : SameStore fresh ρ w w') (hle : fresh' ≤ fresh) : SameStore fresh' ρ w w' :=
  { h with fixed := fun id hid => h.fixed id (hid.trans_le hle) }

/-- The queue is no part of what is compared. -/
theorem SameStore.queued {fresh : Uuid} {ρ : Uuid → Uuid} {w w' : Vault}
    (h : SameStore fresh ρ w.toWorld w'.toWorld) (events events' : List WebhookEvent) :
    SameStore fresh ρ (w.queued events).toWorld (w'.queued events').toWorld := by
  rw [Vault.queued_toWorld, Vault.queued_toWorld]
  exact { h with }

section Requests

variable {S : Service} {req : Request} {v : Vault} {payload : BatchRecordsPayload}
variable {records : List BatchRecordInput} {group group' : IpGroup} {ctx : Ctx}
variable {normalized normalized' : List (String × BatchRecordInput)}

theorem Service.serve_twins (S : Service) (req : Request) (v : Vault)
    (hperm : records.Perm payload.records) :
    Prog.Twins database (fun _ _ _ _ => True) (fun e _ e' _ => e.status = e'.status)
      (S.serve (req.batch payload)) v (S.serve (req.batch { payload with records })) v := by
  unfold Service.serve
  have hread : Prog.Meets database (fun _ _ => True)
      (fun found w => w = v ∧ found = v.keys.find? req.key_id) (fun _ _ => True)
      (select (.key_by_id req.key_id)) v :=
    (meets_select (q := .key_by_id req.key_id)).mpr ⟨trivial, rfl, rfl⟩
  refine Prog.Twins.bind (hread.twins_self.mono (fun _ _ _ _ h => h) fun _ _ _ _ he => ?_) ?_
  · rw [he.1]
  intro found w found' w' hw
  obtain ⟨rfl, rfl, rfl, hfound⟩ := hw
  cases hkey : w.keys.find? req.key_id with
  | none =>
      rw [hkey] at hfound
      rw [hfound]
      exact rfl
  | some key =>
      rw [hkey] at hfound
      rw [hfound]
      have hhas : w.keys.has key.id = true :=
        Table.has_iff.mpr ⟨key, (Table.find?_eq_some.mp hkey).1, rfl⟩
      have hcaller : w.keys.has (S.ctx req key).key.id = true := hhas
      exact batch_records_twins hperm hcaller

theorem batch_base_reordered :
    batch_base ctx { payload with records } v = batch_base ctx payload v := rfl

/-- Both find or create the same group. -/
theorem BatchAdmitted.group_reordered (h : BatchAdmitted ctx payload v.toWorld group normalized)
    (h' : BatchAdmitted ctx { payload with records } v.toWorld group' normalized') :
    group' = group := by
  rcases h.target with ⟨hnamed, -⟩ | ⟨hnone, -, hnew⟩
  · rcases h'.target with ⟨hnamed', -⟩ | ⟨hnone', -, -⟩
    · exact Option.some.inj (hnamed'.symm.trans hnamed)
    · cases hnone'.symm.trans hnamed
  · rcases h'.target with ⟨hnamed', -⟩ | ⟨-, -, hnew'⟩
    · cases hnamed'.symm.trans hnone
    · exact hnew'.trans hnew.symm

/-- And draw their identifiers from the same one on. -/
theorem le_batch_base_next_uuid : v.next_uuid ≤ (batch_base ctx payload v).next_uuid := by
  unfold batch_base
  cases v.group_named payload.group_name with
  | some g => exact le_rfl
  | none =>
      show _ ≤ (Stmt.after _ _).next_uuid
      rw [after_insert_group_or_ignore]
      split
      · exact le_rfl
      · exact Nat.le_succ _

theorem BatchRan.queue {events events' : List WebhookEvent} {w : Vault}
    (h : BatchRan ctx payload group normalized v events w) :
    (w.queued events').queue = v.queue ++ events'.take (v.queue_capacity - v.queue.length) := by
  have hbase := batch_base_queue ctx payload v
  have hqueue : w.queue = v.queue := h.only_records.queue.trans hbase.1
  have hcapacity : w.queue_capacity = v.queue_capacity :=
    h.only_records.queue_capacity.trans hbase.2
  rw [Vault.queued_toWorld, ← hqueue, ← hcapacity]

/-- **The runs of two orders of a batch.** -/
theorem BatchRan.reordered {events events' : List WebhookEvent} {w w' : Vault}
    (hadmitted : BatchAdmitted ctx payload v.toWorld group normalized)
    (hentries : normalized'.Perm normalized)
    (h : BatchRan ctx payload group normalized v events w)
    (h' : BatchRan ctx { payload with records } group normalized' v events' w') :
    (batch_transaction ctx { payload with records } group normalized').summary
        (batch_base ctx { payload with records } v).toWorld =
      (batch_transaction ctx payload group normalized).summary (batch_base ctx payload v).toWorld ∧
    (∃ ρ, SameStore v.next_uuid ρ w.toWorld w'.toWorld) ∧ events'.Perm events := by
  have hbase : batch_base ctx { payload with records } v = batch_base ctx payload v :=
    batch_base_reordered
  have htxn : batch_transaction ctx { payload with records } group normalized' =
      (batch_transaction ctx payload group normalized).reordered normalized' := rfl
  have hnodup := hadmitted.seen_nodup
  have hnodup' : ((batch_transaction ctx payload group normalized).reordered
      normalized').seen.Nodup := (hentries.map Prod.fst).nodup_iff.mpr hnodup
  have hrun' := h'.run
  have heffect' := h'.effect
  have hevents' := h'.events
  have honly' := h'.only_records
  rw [htxn, hbase] at hrun' heffect' hevents'
  rw [hbase] at honly'
  have hsummary := BatchTxn.summary_reordered (t := batch_transaction ctx payload group normalized)
    (w := (batch_base ctx payload v).toWorld) hentries
  rw [htxn, hbase]
  refine ⟨hsummary, ?_, ?_⟩
  · obtain ⟨hlogs, hcount⟩ := BatchTxn.run_rest (batch_base ctx payload v).wf hnodup h.run
    obtain ⟨hlogs', hcount'⟩ := BatchTxn.run_rest (batch_base ctx payload v).wf hnodup' hrun'
    have hsame := h.effect.same_store (batch_base ctx payload v).wf w.wf w'.wf hentries hnodup
      heffect' h.only_records honly' (by
        rw [hlogs, hlogs', hsummary, BatchTxn.details_reordered hentries]
        rfl)
      (by rw [hcount, hcount', hsummary])
    exact ⟨_, hsame.mono le_batch_base_next_uuid⟩
  · exact hevents'.trans ((BatchTxn.events_reordered hentries).trans h.events.symm)

end Requests

/-- The batch with its entries in another order. -/
def BatchRecordsPayload.reordered (payload : BatchRecordsPayload)
    (records : List BatchRecordInput) : BatchRecordsPayload :=
  { payload with records }

/-- **The order of a batch does not matter.** Two batches that differ in the order of their entries
have responses of one status, and if they are carried out the same response and the same store, up
to the identifiers drawn. They hand the same events to the queue, and it takes the same ones if it
has room for all. -/
theorem batch_order_independent (S : Service) (req : Request) (v : Vault)
    (payload : BatchRecordsPayload) (records : List BatchRecordInput)
    (hperm : records.Perm payload.records) :
    (S.handle (req.batch (payload.reordered records)) v).1.status =
        (S.handle (req.batch payload) v).1.status ∧
      (S.Succeeds (req.batch (payload.reordered records)) v ↔ S.Succeeds (req.batch payload) v) ∧
      (S.Succeeds (req.batch payload) v →
        (S.handle (req.batch (payload.reordered records)) v).1 =
          (S.handle (req.batch payload) v).1 ∧
        (∃ ρ, SameStore v.next_uuid ρ (S.handle (req.batch payload) v).2.toWorld
          (S.handle (req.batch (payload.reordered records)) v).2.toWorld) ∧
        (S.handed (req.batch (payload.reordered records)) v).Perm (S.handed (req.batch payload) v) ∧
        ((S.handed (req.batch payload) v).length ≤ v.queue_capacity - v.queue.length →
          (S.handle (req.batch (payload.reordered records)) v).2.queue.Perm
            (S.handle (req.batch payload) v).2.queue)) := by
  unfold BatchRecordsPayload.reordered
  -- The two runs end alike, in a value or in errors of one status. Where they end in a value, both
  -- have carried out a transaction, and the transactions differ in the order of their entries.
  have htwins := Service.serve_twins S req v hperm
  have hsucceeds : S.Succeeds (req.batch { payload with records }) v ↔
      S.Succeeds (req.batch payload) v := by
    unfold Service.Succeeds
    unfold Prog.Twins at htwins
    rcases hrun : (S.serve (req.batch payload)).run database v with ⟨_ | a, w⟩ <;>
      rcases hrun' : (S.serve (req.batch { payload with records })).run database v
        with ⟨_ | a', w'⟩ <;> rw [hrun, hrun'] at htwins
    · exact Iff.rfl
    · exact htwins.elim
    · exact htwins.elim
    · exact Iff.rfl
  have hdone : S.Succeeds (req.batch payload) v →
      (S.handle (req.batch { payload with records }) v).1 = (S.handle (req.batch payload) v).1 ∧
      (∃ ρ, SameStore v.next_uuid ρ (S.handle (req.batch payload) v).2.toWorld
        (S.handle (req.batch { payload with records }) v).2.toWorld) ∧
      (S.handed (req.batch { payload with records }) v).Perm (S.handed (req.batch payload) v) ∧
      ((S.handed (req.batch payload) v).length ≤ v.queue_capacity - v.queue.length →
        (S.handle (req.batch { payload with records }) v).2.queue.Perm
          (S.handle (req.batch payload) v).2.queue) := by
    intro h
    have h' := hsucceeds.mpr h
    obtain ⟨key, group, normalized, w, hkey, hadmitted, hran, hhandle⟩ :=
      @Service.batch_carried_out S (req.batch payload) v payload rfl h
    obtain ⟨key', group', normalized', w', hkey', hadmitted', hran', hhandle'⟩ :=
      @Service.batch_carried_out S (req.batch { payload with records }) v { payload with records } rfl h'
    have hsameKey : key' = key := Option.some.inj (hkey'.symm.trans hkey)
    rw [hsameKey] at hadmitted' hran' hhandle'
    have hsameGroup : group' = group := hadmitted.group_reordered hadmitted'
    rw [hsameGroup] at hadmitted' hran' hhandle'
    obtain ⟨normalized'', hok, hentries⟩ := normalize_entries_perm hperm hadmitted.entries
    have hsameEntries : normalized' = normalized'' :=
      Except.ok.inj (hadmitted'.entries.symm.trans hok)
    rw [← hsameEntries] at hentries
    obtain ⟨hsummary, ⟨ρ, hsame⟩, hevents⟩ := hran.reordered hadmitted hentries hran'
    rw [hhandle, hhandle']
    refine ⟨?_, ⟨ρ, hsame.queued _ _⟩, hevents, fun hroom => ?_⟩
    · show json _ = json _
      rw [← hsummary]
      rfl
    · rw [hran.queue, hran'.queue]
      have hroom' : (S.handed (req.batch { payload with records }) v).length ≤
          v.queue_capacity - v.queue.length := by
        rw [hevents.length_eq]
        exact hroom
      rw [List.take_of_length_le hroom, List.take_of_length_le hroom']
      exact hevents.append_left v.queue
  refine ⟨?_, hsucceeds, hdone⟩
  by_cases h : S.Succeeds (req.batch payload) v
  · rw [(hdone h).1]
  · unfold Service.Succeeds at h
    unfold Prog.Twins at htwins
    unfold Service.handle
    rcases hrun : (S.serve (req.batch payload)).run database v with ⟨e | a, w⟩
    · rcases hrun' : (S.serve (req.batch { payload with records })).run database v
        with ⟨e' | a', w'⟩
      · rw [hrun, hrun'] at htwins
        exact htwins.symm
      · rw [hrun, hrun'] at htwins
        exact htwins.elim
    · rw [hrun] at h
      exact absurd rfl h

/-! ## Two addresses -/

/-- The address `203.0.113.8` as a network. -/
def host8 : IpNetwork := ⟨.v4 0xCB007108#32, 32, by decide⟩

/-- `Env.sample`, which reads a second address. -/
def Env.pair : Env where
  __ := Env.sample
  parse_network s := if s = "203.0.113.8" then some host8 else Env.sample.parse_network s
  show_ip ip := if ip = host8.ip then "203.0.113.8" else "203.0.113.7"

/-- The service that reads both. -/
def Service.pair : Service := ⟨.pair, 0⟩

/-- A batch that bans both. -/
def BatchRecordsPayload.pair : BatchRecordsPayload where
  group_name := "bans"
  records := [{ target_address := "203.0.113.7" }, { target_address := "203.0.113.8" }]

/-- The other way round. -/
def BatchRecordInput.back : List BatchRecordInput :=
  [{ target_address := "203.0.113.8" }, { target_address := "203.0.113.7" }]

/-- `Vault.sample`, whose queue has room for one event. -/
def Vault.narrow : Vault :=
  .build 1
    [.insert_key { ApiKey.sample 0 with name := "master", key_hash := "m", is_master := true },
      .insert_key { ApiKey.sample 1 with can_create_groups := true },
      .insert_group (new_group "bans" "banlist" none 0),
      .insert_permission ⟨1, 2, true, true, false, false, 0⟩]

/-- A request of the sensor, whose call is still to be given. -/
def Request.sensor : Request := .sample 1 7 (.rejected (.InvalidInput ""))

/-- The request that sends it. -/
def Request.pair : Request := Request.sensor.batch .pair

/-- The request that sends it the other way round. -/
def Request.back : Request :=
  Request.sensor.batch (BatchRecordsPayload.pair.reordered BatchRecordInput.back)

theorem batch_order_independent_pair :
    (Service.pair.handle .back .sample).1.status = (Service.pair.handle .pair .sample).1.status ∧
      (Service.pair.Succeeds .back .sample ↔ Service.pair.Succeeds .pair .sample) ∧
      (Service.pair.Succeeds .pair .sample →
        (Service.pair.handle .back .sample).1 = (Service.pair.handle .pair .sample).1 ∧
        (∃ ρ, SameStore Vault.sample.next_uuid ρ (Service.pair.handle .pair .sample).2.toWorld
          (Service.pair.handle .back .sample).2.toWorld) ∧
        (Service.pair.handed .back .sample).Perm (Service.pair.handed .pair .sample) ∧
        ((Service.pair.handed .pair .sample).length ≤
            Vault.sample.queue_capacity - Vault.sample.queue.length →
          (Service.pair.handle .back .sample).2.queue.Perm
            (Service.pair.handle .pair .sample).2.queue)) := by
  unfold Request.back Request.pair
  exact batch_order_independent .pair .sensor .sample .pair BatchRecordInput.back
    (List.Perm.swap _ _ _)

/-- Both orders are carried out; a queue that has room for one event keeps the one that comes
first. -/
theorem batch_order_decides_queue :
    BatchRecordInput.back.Perm BatchRecordsPayload.pair.records ∧
      Service.pair.Succeeds .pair .narrow ∧ Service.pair.Succeeds .back .narrow ∧
      ¬ (Service.pair.handle .back .narrow).2.queue.Perm
        (Service.pair.handle .pair .narrow).2.queue := by
  have hfirst : (Service.pair.handle .pair .narrow).2.queue.map
      WebhookEvent.address = ["203.0.113.7"] := by decide +kernel
  have hback : (Service.pair.handle .back .narrow).2.queue.map
      WebhookEvent.address = ["203.0.113.8"] := by decide +kernel
  refine ⟨List.Perm.swap _ _ _, by decide +kernel, by decide +kernel, fun hperm => ?_⟩
  have haddresses := hperm.map WebhookEvent.address
  rw [hfirst, hback] at haddresses
  have hmem : "203.0.113.8" ∈ ["203.0.113.7"] := haddresses.mem_iff.mp List.mem_cons_self
  exact absurd hmem (by decide)

end IpVault
