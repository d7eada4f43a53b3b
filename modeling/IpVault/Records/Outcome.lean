import IpVault.Schema.Effects

set_option autoImplicit false

/-! # What the record transactions do to a row

`batch_records` loops over its entries and then, in one mode, over the members of the group. As
no address occurs twice among the entries, each record is written at most once, and what becomes
of it is a function of the row alone (`BatchTxn.outcome`). The transactions of `handle_ip_upsert`
and `delete_ip` touch one record each.
-/

namespace IpVault

open Lib

/-! ## Single writes -/

section Writes

variable {w w' : World}

theorem Txn.update_record_ok {id : Uuid} {c : RecordChange} {r : IpRecord}
    (h : Txn.update_record id c w = .ok (r, w')) :
    ∃ r₀ ∈ w.records, r₀.id = id ∧ r = c.apply r₀ ∧
      w' = { w with records := w.records.modify id c.apply c.apply_id } := by
  simp only [Txn.update_record, Txn.db_error] at h
  split at h
  · cases h
  · rename_i r₀ hr₀
    cases h
    obtain ⟨hmem, hid⟩ := Table.find?_eq_some.mp hr₀
    exact ⟨r₀, hmem, hid, rfl, rfl⟩

theorem Txn.insert_record_ok {r : IpRecord} {id : Uuid}
    (h : Txn.insert_record r w = .ok (id, w')) :
    id = w.next_uuid ∧ w.record_at r.target_address = none ∧
      w' = { w with
        records := w.records.insert { r with id := w.next_uuid }
        next_uuid := w.next_uuid + 1 } := by
  simp only [Txn.insert_record, Txn.db_error] at h
  split at h
  · cases h
  · rename_i hn
    cases h
    exact ⟨rfl, by simpa using hn, rfl⟩

theorem Txn.link_ok {record_id group_id : Uuid} {n : Nat}
    (h : Txn.link record_id group_id w = .ok (n, w')) :
    w' = { w with memberships := w.memberships.insert ⟨record_id, group_id⟩ } := by
  simp only [Txn.link, Txn.db_error] at h
  split at h
  · cases h
  · cases h
    rfl

theorem Txn.update_record_of_mem {c : RecordChange} {r : IpRecord} (hr : r ∈ w.records) :
    Txn.update_record r.id c w =
      .ok (c.apply r, { w with records := w.records.modify r.id c.apply c.apply_id }) := by
  simp only [Txn.update_record, Table.find?_key hr]

theorem Txn.insert_record_of_new {r : IpRecord} (hn : w.record_at r.target_address = none) :
    Txn.insert_record r w = .ok (w.next_uuid,
      { w with
        records := w.records.insert { r with id := w.next_uuid }
        next_uuid := w.next_uuid + 1 }) := by
  simp [Txn.insert_record, hn]

theorem Txn.link_total {record_id group_id : Uuid} (hr : w.records.has record_id = true)
    (hg : w.groups.has group_id = true) : ∃ n w', Txn.link record_id group_id w = .ok (n, w') := by
  simp [Txn.link, hr, hg]

theorem Txn.insert_audit_total {a : AuditLog} (h : a.api_key_id.all (w.keys.has ·) = true) :
    ∃ w', Txn.insert_audit a w = .ok ((), w') := by
  simp [Txn.insert_audit, h]

theorem Txn.insert_audit_ok {a : AuditLog} {u : Unit} (h : Txn.insert_audit a w = .ok (u, w')) :
    w' = { w with audit_logs := w.audit_logs ++ [a] } := by
  simp only [Txn.insert_audit, Txn.db_error] at h
  split at h
  · cases h
    rfl
  · cases h

/-- A change of another row. -/
theorem mem_records_of_modify {id : Uuid} {c : Txn.RecordChange} {r : IpRecord}
    (hr : r ∈ w.records) (hid : r.id ≠ id) : r ∈ w.records.modify id c.apply c.apply_id :=
  (Table.mem_modify c.apply_id).mpr (.inl ⟨hr, hid⟩)

/-- The change of a row. -/
theorem apply_mem_modify {c : Txn.RecordChange} {r : IpRecord} (hr : r ∈ w.records) :
    c.apply r ∈ w.records.modify r.id c.apply c.apply_id :=
  (Table.mem_modify c.apply_id).mpr (.inr ⟨r, hr, rfl, rfl⟩)

/-- A membership is its key. -/
theorem mem_insert_membership {record_id group_id : Uuid} {m : Membership} :
    m ∈ w.memberships.insert ⟨record_id, group_id⟩ ↔
      m ∈ w.memberships ∨ m = ⟨record_id, group_id⟩ := by
  refine ⟨Table.mem_of_mem_insert, ?_⟩
  rintro (hm | rfl)
  · exact Table.mem_insert_of_mem hm
  · by_cases hnew : w.memberships.has (Membership.key ⟨record_id, group_id⟩) = false
    · exact Table.mem_insert.mpr (.inr ⟨hnew, rfl⟩)
    · obtain ⟨⟨a, b⟩, hm, hkey⟩ := Table.has_iff.mp (by simpa using hnew)
      obtain ⟨rfl, rfl⟩ := Prod.mk.inj hkey
      exact Table.mem_insert_of_mem hm

/-- A new row has a new key. -/
theorem fresh_mem_insert (hw : w.Wf) (r : IpRecord) :
    { r with id := w.next_uuid } ∈ w.records.insert { r with id := w.next_uuid } := by
  refine Table.mem_insert.mpr (.inr ⟨Table.has_eq_false.mpr fun r' hr' => ?_, rfl⟩)
  exact Nat.ne_of_lt (hw.record_fresh r' hr')

end Writes

namespace BatchTxn

variable {t : BatchTxn} {w w' : World}

/-! ## One entry -/

/-- What one entry leaves. -/
inductive EntryEffect (t : BatchTxn) (address : String) (input : BatchRecordInput) (w : World) :
    World → Prop
  | locked (r : IpRecord) (hr : w.record_at address = some r) (hl : r.is_locked = true) :
      EntryEffect t address input w w
  | changed (r : IpRecord) (hr : w.record_at address = some r) (hl : r.is_locked = false) :
      EntryEffect t address input w
        { w with
          records := w.records.modify r.id (t.change input r).apply (t.change input r).apply_id
          memberships := w.memberships.insert ⟨r.id, t.group.id⟩ }
  | created (hn : w.record_at address = none) :
      EntryEffect t address input w
        { w with
          records := w.records.insert { t.fresh_record address input with id := w.next_uuid }
          memberships := w.memberships.insert ⟨w.next_uuid, t.group.id⟩
          next_uuid := w.next_uuid + 1 }

theorem join_effect {address : String} {input : BatchRecordInput} {id : Uuid}
    {summary : BatchRecordsResponse} {events : List WebhookEvent} {st' : BatchState}
    (h : t.join address input id summary events w = .ok (st', w')) :
    w' = { w with memberships := w.memberships.insert ⟨id, t.group.id⟩ } := by
  obtain ⟨n, w₁, hlink, h⟩ := atomic_bind_ok.mp h
  obtain ⟨-, rfl⟩ := atomic_pure_ok.mp h
  exact Txn.link_ok hlink

theorem entry_effect {st st' : BatchState} {e : String × BatchRecordInput}
    (h : t.entry st e w = .ok (st', w')) : EntryEffect t e.1 e.2 w w' := by
  obtain ⟨found, w₁, hread, h⟩ := atomic_bind_ok.mp h
  simp only [Txn.read, Except.ok.injEq, Prod.mk.injEq] at hread
  obtain ⟨hfound, rfl⟩ := hread
  cases found with
  | none =>
      obtain ⟨id, w₂, hins, h⟩ := atomic_bind_ok.mp h
      obtain ⟨rfl, -, rfl⟩ := Txn.insert_record_ok hins
      obtain rfl := join_effect h
      exact .created hfound
  | some r =>
      by_cases hl : r.is_locked = true
      · simp only [hl, if_true] at h
        obtain ⟨-, rfl⟩ := atomic_pure_ok.mp h
        exact .locked r hfound hl
      · simp only [hl, Bool.false_eq_true, if_false] at h
        obtain ⟨r', w₂, hupd, h⟩ := atomic_bind_ok.mp h
        obtain ⟨r₀, -, -, -, rfl⟩ := Txn.update_record_ok hupd
        obtain rfl := join_effect h
        exact .changed r hfound (by simpa using hl)

/-! ## The entries -/

/-- What the entries make of a row. -/
def entry_outcome (t : BatchTxn) (es : List (String × BatchRecordInput)) (r : IpRecord) :
    IpRecord :=
  if r.is_locked then r
  else match es.find? fun e => e.1 = r.target_address with
    | some e => (t.change e.2 r).apply r
    | none => r

@[simp] theorem entry_outcome_nil (r : IpRecord) : t.entry_outcome [] r = r := by
  simp [entry_outcome]

@[simp] theorem entry_outcome_id (es : List (String × BatchRecordInput)) (r : IpRecord) :
    (t.entry_outcome es r).id = r.id := by
  unfold entry_outcome
  split
  · rfl
  · split
    · exact (t.change _ r).apply_id r
    · rfl

@[simp] theorem entry_outcome_locked (es : List (String × BatchRecordInput)) (r : IpRecord) :
    (t.entry_outcome es r).is_locked = r.is_locked := by
  unfold entry_outcome
  split
  · rfl
  · split
    · exact (t.change _ r).apply_locked r
    · rfl

@[simp] theorem entry_outcome_address (es : List (String × BatchRecordInput)) (r : IpRecord) :
    (t.entry_outcome es r).target_address = r.target_address := by
  unfold entry_outcome
  split
  · rfl
  · split
    · exact (t.change _ r).apply_address r
    · rfl

/-- A row no entry names stays as it is. -/
theorem entry_outcome_of_not_mem {es : List (String × BatchRecordInput)} {r : IpRecord}
    (h : r.target_address ∉ es.map Prod.fst) : t.entry_outcome es r = r := by
  have hfind : (es.find? fun e => e.1 = r.target_address) = none := by
    rw [List.find?_eq_none]
    intro e he
    simp only [decide_eq_true_eq]
    rintro heq
    exact h (heq ▸ List.mem_map_of_mem he)
  simp [entry_outcome, hfind]

/-- The first entry acts first; no later one has its address. -/
theorem entry_outcome_cons {e : String × BatchRecordInput} {es : List (String × BatchRecordInput)}
    (hnew : e.1 ∉ es.map Prod.fst) (r : IpRecord) :
    t.entry_outcome es (t.entry_outcome [e] r) = t.entry_outcome (e :: es) r := by
  by_cases he : e.1 = r.target_address
  · have hnot : (t.entry_outcome [e] r).target_address ∉ es.map Prod.fst := by
      simpa [← he] using hnew
    rw [entry_outcome_of_not_mem hnot]
    simp [entry_outcome, he]
  · have hone : t.entry_outcome [e] r = r := entry_outcome_of_not_mem (by simpa using Ne.symm he)
    rw [hone]
    simp [entry_outcome, he]

theorem fresh_record_address (address : String) (input : BatchRecordInput) :
    (t.fresh_record address input).target_address = address := rfl

/-- **The effect of the entries `es`**, from the store `w` to the store `w'`: which rows there are,
and who joined the group. What becomes of an old row is `outcome`. -/
structure Effect (t : BatchTxn) (outcome : IpRecord → IpRecord)
    (es : List (String × BatchRecordInput)) (w w' : World) : Prop where
  row : ∀ r ∈ w.records, outcome r ∈ w'.records
  origin : ∀ r' ∈ w'.records, (∃ r ∈ w.records, r' = outcome r) ∨
    ∃ e ∈ es, w.record_at e.1 = none ∧ w.next_uuid ≤ r'.id ∧
      r' = { t.fresh_record e.1 e.2 with id := r'.id }
  created : ∀ e ∈ es, w.record_at e.1 = none →
    ∃ r' ∈ w'.records, r' = { t.fresh_record e.1 e.2 with id := r'.id }
  members : ∀ m, m ∈ w'.memberships ↔ m ∈ w.memberships ∨
    (m.group_id = t.group.id ∧ ∃ r' ∈ w'.records, r'.id = m.ip_record_id ∧
      r'.is_locked = false ∧ r'.target_address ∈ es.map Prod.fst)
  counter : w.next_uuid ≤ w'.next_uuid

theorem Effect.nil (w : World) : t.Effect (t.entry_outcome []) [] w w where
  row r hr := by rwa [entry_outcome_nil]
  origin r' hr' := .inl ⟨r', hr', (entry_outcome_nil r').symm⟩
  created e he := absurd he List.not_mem_nil
  members m := by simp
  counter := le_rfl

/-- An address is new in a store exactly if no row has it. -/
theorem Effect.record_at_none {es : List (String × BatchRecordInput)}
    (h : t.Effect (t.entry_outcome es) es w w')
    {address : String} (ha : address ∉ es.map Prod.fst) :
    w'.record_at address = none ↔ w.record_at address = none := by
  simp only [World.record_at_eq_none]
  constructor
  · intro hn r hr
    have := hn _ (h.row r hr)
    rwa [entry_outcome_address] at this
  · intro hn r' hr' hadr
    rcases h.origin r' hr' with ⟨r, hr, rfl⟩ | ⟨e, he, -, -, hfresh⟩
    · exact hn r hr (by rwa [entry_outcome_address] at hadr)
    · rw [hfresh] at hadr
      exact ha (hadr ▸ List.mem_map_of_mem he)

/-- An entry leaves the records at other addresses. -/
theorem entry_outcome_elsewhere {e : String × BatchRecordInput} {r : IpRecord}
    (hne : r.target_address ≠ e.1) : t.entry_outcome [e] r = r :=
  entry_outcome_of_not_mem (by simpa using hne)

/-- An entry for a locked record has no effect. -/
theorem effect_locked {e : String × BatchRecordInput} (hw : w.Wf) {r₀ : IpRecord}
    (hr₀ : w.record_at e.1 = some r₀) (hl : r₀.is_locked = true) :
    t.Effect (t.entry_outcome [e]) [e] w w := by
  obtain ⟨hmem₀, hadr₀⟩ := World.mem_of_record_at hr₀
  have keep : ∀ r ∈ w.records, t.entry_outcome [e] r = r := by
    intro r hr
    by_cases hadr : r.target_address = e.1
    · have : r = r₀ := hw.address_unique r hr r₀ hmem₀ (hadr.trans hadr₀.symm)
      simp [entry_outcome, this, hl]
    · exact entry_outcome_elsewhere hadr
  refine ⟨fun r hr => by rwa [keep r hr], fun r' hr' => .inl ⟨r', hr', (keep r' hr').symm⟩,
    fun e' he' hn => ?_, fun m => ⟨.inl, ?_⟩, le_rfl⟩
  · obtain rfl := List.mem_singleton.mp he'
    rw [hr₀] at hn
    cases hn
  · rintro (hm | ⟨-, r, hr, -, hunl, hadr⟩)
    · exact hm
    · have hadr' : r.target_address = e.1 := by simpa using hadr
      have : r = r₀ := hw.address_unique r hr r₀ hmem₀ (hadr'.trans hadr₀.symm)
      rw [this, hl] at hunl
      cases hunl

/-- The membership of an entry is the one of the record at its address. -/
theorem membership_of_entry {e : String × BatchRecordInput} {records : Table IpRecord.id}
    {m : Membership} {record_id : Uuid} (hm : m.group_id = t.group.id)
    (h : ∃ r ∈ records, r.id = m.ip_record_id ∧ r.is_locked = false ∧
      r.target_address ∈ [e].map Prod.fst)
    (honly : ∀ r ∈ records, r.target_address = e.1 → r.id = record_id) :
    m = ⟨record_id, t.group.id⟩ := by
  obtain ⟨r, hr, hid, -, hadr⟩ := h
  have hrecord := honly r hr (by simpa using hadr)
  obtain ⟨a, b⟩ := m
  rw [Membership.mk.injEq]
  exact ⟨hid.symm.trans hrecord, hm⟩

/-- An entry for another record changes it. -/
theorem effect_changed {e : String × BatchRecordInput} (hw : w.Wf) {r₀ : IpRecord}
    (hr₀ : w.record_at e.1 = some r₀) (hl : r₀.is_locked = false) :
    t.Effect (t.entry_outcome [e]) [e] w { w with
      records := w.records.modify r₀.id (t.change e.2 r₀).apply (t.change e.2 r₀).apply_id
      memberships := w.memberships.insert ⟨r₀.id, t.group.id⟩ } := by
  obtain ⟨hmem₀, hadr₀⟩ := World.mem_of_record_at hr₀
  have hout : t.entry_outcome [e] r₀ = (t.change e.2 r₀).apply r₀ := by
    simp [entry_outcome, hl, hadr₀]
  have other : ∀ r ∈ w.records, r.id ≠ r₀.id → r.target_address ≠ e.1 := by
    intro r hr hne hadr
    exact hne (by rw [hw.address_unique r hr r₀ hmem₀ (hadr.trans hadr₀.symm)])
  refine ⟨fun r hr => ?_, fun r' hr' => ?_, fun e' he' hn => ?_, fun m => ?_, le_rfl⟩
  · by_cases hid : r.id = r₀.id
    · obtain rfl := Table.eq_of_key hr hmem₀ hid
      rw [hout]
      exact apply_mem_modify hr
    · rw [entry_outcome_elsewhere (other r hr hid)]
      exact mem_records_of_modify hr hid
  · rcases (Table.mem_modify (t.change e.2 r₀).apply_id).mp hr' with
      ⟨hr, hid⟩ | ⟨r, hr, hid, rfl⟩
    · exact .inl ⟨r', hr, (entry_outcome_elsewhere (other r' hr hid)).symm⟩
    · obtain rfl := Table.eq_of_key hr hmem₀ hid
      exact .inl ⟨r, hr, hout.symm⟩
  · obtain rfl := List.mem_singleton.mp he'
    rw [hr₀] at hn
    cases hn
  · refine mem_insert_membership.trans (or_congr_right ⟨?_, fun ⟨hg, hrecord⟩ => ?_⟩)
    · rintro rfl
      refine ⟨rfl, _, apply_mem_modify hmem₀, ?_, ?_, ?_⟩
      · exact (t.change e.2 r₀).apply_id r₀
      · rwa [Txn.RecordChange.apply_locked]
      · rw [Txn.RecordChange.apply_address, hadr₀]
        simp
    · refine membership_of_entry hg hrecord fun r' hr' hadr => ?_
      rcases (Table.mem_modify (t.change e.2 r₀).apply_id).mp hr' with
        ⟨hr, hne⟩ | ⟨r, hr, hid, rfl⟩
      · exact absurd hadr (other r' hr hne)
      · rw [Txn.RecordChange.apply_id, hid]

/-- An entry for an address without a record creates one. -/
theorem effect_created {e : String × BatchRecordInput} (hw : w.Wf) (hn : w.record_at e.1 = none) :
    t.Effect (t.entry_outcome [e]) [e] w { w with
      records := w.records.insert { t.fresh_record e.1 e.2 with id := w.next_uuid }
      memberships := w.memberships.insert ⟨w.next_uuid, t.group.id⟩
      next_uuid := w.next_uuid + 1 } := by
  have hnone := World.record_at_eq_none.mp hn
  refine ⟨fun r hr => ?_, fun r' hr' => ?_, fun e' he' _ => ?_, fun m => ?_, Nat.le_succ _⟩
  · rw [entry_outcome_elsewhere (hnone r hr)]
    exact Table.mem_insert_of_mem hr
  · rcases Table.mem_of_mem_insert hr' with hr | rfl
    · exact .inl ⟨r', hr, (entry_outcome_elsewhere (hnone r' hr)).symm⟩
    · exact .inr ⟨e, List.mem_singleton_self e, hn, le_rfl, rfl⟩
  · obtain rfl := List.mem_singleton.mp he'
    exact ⟨_, fresh_mem_insert hw _, rfl⟩
  · refine mem_insert_membership.trans (or_congr_right ⟨?_, fun ⟨hg, hrecord⟩ => ?_⟩)
    · rintro rfl
      exact ⟨rfl, _, fresh_mem_insert hw _, rfl, rfl, by simp [fresh_record_address]⟩
    · refine membership_of_entry hg hrecord fun r' hr' hadr => ?_
      rcases Table.mem_of_mem_insert hr' with hr | rfl
      · exact absurd hadr (hnone r' hr)
      · rfl

/-- **The effect of one entry.** -/
theorem EntryEffect.effect {e : String × BatchRecordInput} (hw : w.Wf)
    (h : EntryEffect t e.1 e.2 w w') : t.Effect (t.entry_outcome [e]) [e] w w' := by
  cases h with
  | locked r₀ hr₀ hl => exact effect_locked hw hr₀ hl
  | changed r₀ hr₀ hl => exact effect_changed hw hr₀ hl
  | created hn => exact effect_created hw hn

/-- Entries one after the other. -/
theorem Effect.cons {e : String × BatchRecordInput} {es : List (String × BatchRecordInput)}
    {w₁ : World} (hnew : e.1 ∉ es.map Prod.fst) (h : t.Effect (t.entry_outcome [e]) [e] w w₁)
    (h' : t.Effect (t.entry_outcome es) es w₁ w') :
    t.Effect (t.entry_outcome (e :: es)) (e :: es) w w' := by
  have first : ∀ {a}, a ∈ es.map Prod.fst → a ∉ ([e].map Prod.fst) := by
    intro a ha hmem
    rw [List.map_singleton, List.mem_singleton] at hmem
    exact hnew (hmem ▸ ha)
  refine ⟨fun r hr => ?_, fun r' hr' => ?_, fun e' he' hn => ?_, fun m => ?_,
    h.counter.trans h'.counter⟩
  · rw [← entry_outcome_cons hnew]
    exact h'.row _ (h.row r hr)
  -- A row after the loop comes from a row before it, is the one the first entry has created, which
  -- no later entry names, or is one a later entry has created.
  · rcases h'.origin r' hr' with ⟨r₁, hr₁, rfl⟩ | ⟨e', he', hn, hid, hfresh⟩
    · rcases h.origin r₁ hr₁ with ⟨r, hr, rfl⟩ | ⟨e', he', hn, hid, hfresh⟩
      · exact .inl ⟨r, hr, entry_outcome_cons hnew r⟩
      · obtain rfl := List.mem_singleton.mp he'
        have hkeep : t.entry_outcome es r₁ = r₁ := by
          refine entry_outcome_of_not_mem ?_
          rw [hfresh]
          exact hnew
        rw [hkeep]
        exact .inr ⟨e', List.mem_cons_self, hn, hid, hfresh⟩
    · have hn' := (h.record_at_none (first (List.mem_map_of_mem he'))).mp hn
      exact .inr ⟨e', List.mem_cons_of_mem e he', hn', h.counter.trans hid, hfresh⟩
  · rcases List.mem_cons.mp he' with rfl | he'
    · obtain ⟨r₁, hr₁, hfresh⟩ := h.created e' (List.mem_singleton_self e') hn
      have hkeep : t.entry_outcome es r₁ = r₁ := by
        refine entry_outcome_of_not_mem ?_
        rw [hfresh]
        exact hnew
      exact ⟨r₁, hkeep ▸ h'.row r₁ hr₁, hfresh⟩
    · exact h'.created e' he' ((h.record_at_none (first (List.mem_map_of_mem he'))).mpr hn)
  -- The memberships of the two steps are those of the rows at the first address and at the others.
  · rw [h'.members, h.members, or_assoc]
    refine or_congr_right ?_
    rw [← and_or_left]
    refine and_congr_right fun _ => ?_
    constructor
    · rintro (⟨r₁, hr₁, hid, hl, hadr⟩ | ⟨r', hr', hid, hl, hadr⟩)
      · refine ⟨_, h'.row r₁ hr₁, by rwa [entry_outcome_id], by rwa [entry_outcome_locked], ?_⟩
        rw [entry_outcome_address]
        have hadr' : r₁.target_address = e.1 := by simpa using hadr
        rw [hadr']
        exact List.mem_cons_self
      · exact ⟨r', hr', hid, hl, List.mem_cons_of_mem _ hadr⟩
    · rintro ⟨r', hr', hid, hl, hadr⟩
      rcases List.mem_cons.mp hadr with hadr | hadr
      · rcases h'.origin r' hr' with ⟨r₁, hr₁, rfl⟩ | ⟨e', he', -, -, hfresh⟩
        · refine .inl ⟨r₁, hr₁, by rwa [entry_outcome_id] at hid,
            by rwa [entry_outcome_locked] at hl, ?_⟩
          rw [entry_outcome_address] at hadr
          simpa using hadr
        · rw [hfresh] at hadr
          have hadr' : e'.1 = e.1 := hadr
          exact absurd (hadr' ▸ List.mem_map_of_mem he') hnew
      · exact .inr ⟨r', hr', hid, hl, hadr⟩

/-- **The loop over the entries.** -/
theorem entries_effect {es : List (String × BatchRecordInput)} {st st' : BatchState} (hw : w.Wf)
    (hnodup : (es.map Prod.fst).Nodup) (h : t.entries es st w = .ok (st', w')) :
    t.Effect (t.entry_outcome es) es w w' := by
  induction es generalizing st w with
  | nil =>
      obtain ⟨-, rfl⟩ := atomic_pure_ok.mp h
      exact .nil w
  | cons e es ih =>
      obtain ⟨st₁, w₁, hentry, h⟩ := atomic_bind_ok.mp h
      obtain ⟨hnew, hnodup'⟩ := List.nodup_cons.mp hnodup
      have hw₁ : w₁.Wf := t.wf_entry st e w st₁ w₁ hentry hw
      exact .cons hnew ((entry_effect hentry).effect hw) (ih hw₁ hnodup' h)

/-! ## The records a batch omits -/

/-- What the loop of `full_replace` over the members `rs` makes of a row. -/
def sweep_outcome (t : BatchTxn) (rs : List IpRecord) (r : IpRecord) : IpRecord :=
  if ∃ m ∈ rs, m.id = r.id ∧ m.target_address ∉ t.seen then t.sweep_change.apply r else r

@[simp] theorem sweep_outcome_nil (r : IpRecord) : t.sweep_outcome [] r = r := by
  simp [sweep_outcome]

/-- To change a row twice in the same way is to change it once. -/
theorem apply_apply (c : Txn.RecordChange) (r : IpRecord) : c.apply (c.apply r) = c.apply r := by
  obtain ⟨updated_at, last_seen_at, cause, tombstone⟩ := c
  cases tombstone <;> cases last_seen_at <;> cases cause <;> rfl

theorem sweep_outcome_cons (m : IpRecord) (rs : List IpRecord) (r : IpRecord) :
    t.sweep_outcome rs (t.sweep_outcome [m] r) = t.sweep_outcome (m :: rs) r := by
  by_cases hm : m.id = r.id ∧ m.target_address ∉ t.seen
  · have hone : t.sweep_outcome [m] r = t.sweep_change.apply r := by simp [sweep_outcome, hm]
    have hall : t.sweep_outcome (m :: rs) r = t.sweep_change.apply r := by
      simp [sweep_outcome, hm]
    rw [hone, hall]
    unfold sweep_outcome
    split
    · exact apply_apply _ r
    · rfl
  · have hone : t.sweep_outcome [m] r = r := by
      simp only [sweep_outcome, List.mem_singleton, exists_eq_left, hm, if_false]
    rw [hone]
    simp only [sweep_outcome, List.mem_cons, exists_eq_or_imp, hm, false_or]

/-- **The loop over the members.** It rewrites rows and does nothing else to the records. -/
theorem sweep_effect {rs : List IpRecord} {st st' : BatchState}
    (h : t.sweep rs st w = .ok (st', w')) :
    (∀ r, r ∈ w'.records ↔ ∃ r₀ ∈ w.records, r = t.sweep_outcome rs r₀) ∧
      w'.memberships = w.memberships ∧ w'.next_uuid = w.next_uuid := by
  induction rs generalizing st w with
  | nil =>
      obtain ⟨-, rfl⟩ := atomic_pure_ok.mp h
      simp
  | cons m rs ih =>
      obtain ⟨summary, events⟩ := st
      have step : ∃ w₁ st₁, t.sweep rs st₁ w₁ = .ok (st', w') ∧
          (∀ r, r ∈ w₁.records ↔ ∃ r₀ ∈ w.records, r = t.sweep_outcome [m] r₀) ∧
          w₁.memberships = w.memberships ∧ w₁.next_uuid = w.next_uuid := by
        unfold sweep at h
        split at h
        · rename_i hseen
          have hseen : m.target_address ∈ t.seen := by simpa using hseen
          have hkeep : ∀ r, t.sweep_outcome [m] r = r := fun r => by simp [sweep_outcome, hseen]
          exact ⟨w, _, h, fun r => by simp [hkeep], rfl, rfl⟩
        · rename_i hseen
          have hseen : m.target_address ∉ t.seen := by simpa using hseen
          obtain ⟨r', w₁, hupd, h⟩ := atomic_bind_ok.mp h
          obtain ⟨r₁, -, -, -, rfl⟩ := Txn.update_record_ok hupd
          refine ⟨_, _, h, fun r => ?_, rfl, rfl⟩
          have hout : ∀ r₀, t.sweep_outcome [m] r₀ =
              if r₀.id = m.id then t.sweep_change.apply r₀ else r₀ := by
            intro r₀
            simp [sweep_outcome, hseen, eq_comm]
          simp only [hout]
          exact Table.mem_map.trans (exists_congr fun r₀ => and_congr_right fun _ => eq_comm)
      obtain ⟨w₁, st₁, hrest, hrows, hmem, hcount⟩ := step
      obtain ⟨hrows', hmem', hcount'⟩ := ih hrest
      refine ⟨fun r => ?_, hmem'.trans hmem, hcount'.trans hcount⟩
      rw [hrows']
      constructor
      · rintro ⟨r₁, hr₁, rfl⟩
        obtain ⟨r₀, hr₀, rfl⟩ := (hrows r₁).mp hr₁
        exact ⟨r₀, hr₀, sweep_outcome_cons m rs r₀⟩
      · rintro ⟨r₀, hr₀, rfl⟩
        exact ⟨_, (hrows _).mpr ⟨r₀, hr₀, rfl⟩, (sweep_outcome_cons m rs r₀).symm⟩

/-! ## The whole batch -/

/-- Whether `full_replace` soft-deletes a row: a live, unlocked member of the group that the batch
does not name. -/
def omits (t : BatchTxn) (w : World) (r : IpRecord) : Bool :=
  t.mode == .FullReplace && w.memberships.has (r.id, t.group.id) && !r.is_deleted &&
    !r.is_locked && !t.seen.contains r.target_address

theorem omits_iff {r : IpRecord} : t.omits w r = true ↔
    t.mode = .FullReplace ∧ w.member r.id t.group.id ∧ r.is_deleted = false ∧
      r.is_locked = false ∧ r.target_address ∉ t.seen := by
  simp [omits, Table.has_iff, World.member, Membership.key, Prod.ext_iff, and_assoc]

/-- What the batch makes of a row. -/
def outcome (t : BatchTxn) (w : World) (r : IpRecord) : IpRecord :=
  if t.omits w r then t.sweep_change.apply r else t.entry_outcome t.normalized r

@[simp] theorem outcome_id (r : IpRecord) : (t.outcome w r).id = r.id := by
  unfold outcome
  split <;> simp

@[simp] theorem outcome_address (r : IpRecord) :
    (t.outcome w r).target_address = r.target_address := by
  unfold outcome
  split <;> simp

@[simp] theorem outcome_is_locked (r : IpRecord) : (t.outcome w r).is_locked = r.is_locked := by
  unfold outcome
  split <;> simp

/-- A locked row stays as it is. -/
theorem outcome_of_locked {r : IpRecord} (hl : r.is_locked = true) : t.outcome w r = r := by
  simp [outcome, omits, entry_outcome, hl]

theorem mem_candidates {r : IpRecord} {group_id : Uuid} : r ∈ candidates w group_id ↔
    r ∈ w.records ∧ w.member r.id group_id ∧ r.is_deleted = false ∧ r.is_locked = false := by
  simp [candidates, Table.mem_rows, Table.has_iff, World.member, Membership.key, Prod.ext_iff,
    and_assoc]

/-- The loop of `full_replace`, over the members it finds. -/
theorem sweep_outcome_candidates {r : IpRecord} (hr : r ∈ w.records) {group_id : Uuid} :
    t.sweep_outcome (candidates w group_id) r =
      if r ∈ candidates w group_id ∧ r.target_address ∉ t.seen then t.sweep_change.apply r
      else r := by
  unfold sweep_outcome
  congr 1
  apply propext
  constructor
  · rintro ⟨m, hm, hid, hseen⟩
    obtain rfl := Table.eq_of_key (mem_candidates.mp hm).1 hr hid
    exact ⟨hm, hseen⟩
  · rintro ⟨hm, hseen⟩
    exact ⟨r, hm, rfl, hseen⟩

/-- Outside the addresses of the batch the entries add nobody to the group. -/
theorem Effect.member_of_not_mem {es : List (String × BatchRecordInput)}
    (h : t.Effect (t.entry_outcome es) es w w') {r : IpRecord} (hr : r ∈ w.records)
    (hadr : r.target_address ∉ es.map Prod.fst) :
    w'.member r.id t.group.id ↔ w.member r.id t.group.id := by
  constructor
  · rintro ⟨m, hm, hid, hg⟩
    rcases (h.members m).mp hm with hm | ⟨-, r', hr', hid', -, hadr'⟩
    · exact ⟨m, hm, hid, hg⟩
    · have hr₁ := h.row r hr
      rw [entry_outcome_of_not_mem hadr] at hr₁
      obtain rfl := Table.eq_of_key hr' hr₁ (hid'.trans hid)
      exact absurd hadr' hadr
  · rintro ⟨m, hm, hid, hg⟩
    exact ⟨m, (h.members m).mpr (.inl hm), hid, hg⟩

theorem Effect.sweep {w₁ : World} {st st' : BatchState} (hmode : t.mode = .FullReplace)
    (h : t.Effect (t.entry_outcome t.normalized) t.normalized w w₁)
    (hs : t.sweep (candidates w₁ t.group.id) st w₁ = .ok (st', w')) :
    t.Effect (t.outcome w) t.normalized w w' := by
  obtain ⟨hrows, hmem, hcount⟩ := sweep_effect hs
  -- The sweep reads the members after the entries; an entry adds members, but only such as the batch
  -- names, so that the records it removes are those the batch omits in the old store.
  have old : ∀ r ∈ w.records, t.sweep_outcome (candidates w₁ t.group.id)
      (t.entry_outcome t.normalized r) = t.outcome w r := by
    intro r hr
    have hcand : t.entry_outcome t.normalized r ∈ candidates w₁ t.group.id ∧
        (t.entry_outcome t.normalized r).target_address ∉ t.seen ↔ t.omits w r = true := by
      rw [entry_outcome_address, omits_iff, mem_candidates]
      constructor
      · rintro ⟨⟨hr₁, hm, hlive, hl⟩, hseen⟩
        rw [entry_outcome_of_not_mem hseen] at hm hlive hl
        exact ⟨hmode, (h.member_of_not_mem hr hseen).mp hm, hlive, hl, hseen⟩
      · rintro ⟨-, hm, hlive, hl, hseen⟩
        have hkeep : t.entry_outcome t.normalized r = r := entry_outcome_of_not_mem hseen
        have hr₁ := h.row r hr
        rw [hkeep] at hr₁ ⊢
        exact ⟨⟨hr₁, (h.member_of_not_mem hr hseen).mpr hm, hlive, hl⟩, hseen⟩
    rw [sweep_outcome_candidates (h.row r hr), outcome]
    by_cases homit : t.omits w r = true
    · rw [if_pos (hcand.mpr homit), if_pos homit, entry_outcome_of_not_mem (omits_iff.mp homit).2.2.2.2]
    · rw [if_neg (mt hcand.mp homit), if_neg homit]
  have seen : ∀ r ∈ w₁.records, r.target_address ∈ t.seen →
      t.sweep_outcome (candidates w₁ t.group.id) r = r := by
    intro r hr hseen
    rw [sweep_outcome_candidates hr]
    simp [hseen]
  have address : ∀ rs r, (t.sweep_outcome rs r).target_address = r.target_address := by
    intro rs r
    unfold sweep_outcome
    split <;> simp
  refine ⟨fun r hr => ?_, fun r' hr' => ?_, fun e he hn => ?_, fun m => ?_, hcount ▸ h.counter⟩
  · exact (hrows _).mpr ⟨_, h.row r hr, (old r hr).symm⟩
  · obtain ⟨r₁, hr₁, rfl⟩ := (hrows r').mp hr'
    rcases h.origin r₁ hr₁ with ⟨r, hr, rfl⟩ | ⟨e, he, hn, hid, hfresh⟩
    · exact .inl ⟨r, hr, old r hr⟩
    · have hkeep := seen r₁ hr₁ (by rw [hfresh]; exact List.mem_map_of_mem he)
      exact .inr ⟨e, he, hn, by rwa [hkeep], by rwa [hkeep]⟩
  · obtain ⟨r₁, hr₁, hfresh⟩ := h.created e he hn
    have hkeep := seen r₁ hr₁ (by rw [hfresh]; exact List.mem_map_of_mem he)
    exact ⟨r₁, (hrows r₁).mpr ⟨r₁, hr₁, hkeep.symm⟩, hfresh⟩
  · rw [hmem, h.members]
    refine or_congr_right (and_congr_right fun _ => ?_)
    constructor
    · rintro ⟨r₁, hr₁, hid, hl, hadr⟩
      exact ⟨r₁, (hrows r₁).mpr ⟨r₁, hr₁, (seen r₁ hr₁ hadr).symm⟩, hid, hl, hadr⟩
    · rintro ⟨r', hr', hid, hl, hadr⟩
      obtain ⟨r₁, hr₁, rfl⟩ := (hrows r').mp hr'
      rw [address] at hadr
      rw [seen r₁ hr₁ hadr] at hid hl
      exact ⟨r₁, hr₁, hid, hl, hadr⟩

/-- The row an entry names becomes what the entry says, unless it is locked. -/
theorem outcome_of_mem {e : String × BatchRecordInput} {r : IpRecord} (hnodup : t.seen.Nodup)
    (he : e ∈ t.normalized) (hadr : r.target_address = e.1) (hl : r.is_locked = false) :
    t.outcome w r = (t.change e.2 r).apply r := by
  have hseen : r.target_address ∈ t.seen := hadr ▸ List.mem_map_of_mem he
  have homit : t.omits w r = false := by
    rw [Bool.eq_false_iff]
    exact fun hf => (omits_iff.mp hf).2.2.2.2 hseen
  have hfind : (t.normalized.find? fun e => e.1 = r.target_address) = some e := by
    cases hf : t.normalized.find? fun e => e.1 = r.target_address with
    | none => exact absurd (List.find?_eq_none.mp hf e he) (by simp [hadr])
    | some e' =>
        have hadr' : e'.1 = r.target_address := by simpa using List.find?_some hf
        rw [List.inj_on_of_nodup_map hnodup (List.mem_of_find?_eq_some hf) he
          (hadr'.trans hadr)]
  simp [outcome, homit, entry_outcome, hl, hfind]

/-- **What becomes of a row**: nothing, what an entry says, or it is swept away. -/
theorem outcome_cases (t : BatchTxn) (w : World) (r : IpRecord) :
    t.outcome w r = r ∨
      (t.omits w r = true ∧ t.outcome w r = t.sweep_change.apply r) ∨
      (r.is_locked = false ∧ ∃ e ∈ t.normalized, e.1 = r.target_address ∧
        t.outcome w r = (t.change e.2 r).apply r) := by
  unfold outcome
  by_cases homit : t.omits w r = true
  · exact .inr (.inl ⟨homit, if_pos homit⟩)
  · rw [if_neg homit]
    unfold entry_outcome
    split
    · exact .inl rfl
    · rename_i hl
      split
      · rename_i e he
        have hadr : e.1 = r.target_address := by simpa using List.find?_some he
        exact .inr (.inr ⟨by simpa using hl, e, List.mem_of_find?_eq_some he, hadr, rfl⟩)
      · exact .inl rfl

theorem tombstone_of_marked {input : BatchRecordInput} (h : input.is_deleted = some true)
    (r : IpRecord) : t.tombstone input r =
      .bury (input.deleted_at.getD t.now) (Uuid.to_string t.caller.key.id) := by
  simp [tombstone, h]

theorem tombstone_of_not_marked {input : BatchRecordInput} (h : input.is_deleted ≠ some true)
    (r : IpRecord) : t.tombstone input r = if r.is_deleted then .clear else .keep := by
  unfold tombstone
  split
  · contradiction
  · rfl

/-- A row an entry leaves deleted is one it marks, with the date of the entry. -/
theorem change_buries {input : BatchRecordInput} {r : IpRecord}
    (h : ((t.change input r).apply r).is_deleted = true) :
    input.is_deleted = some true ∧
      ((t.change input r).apply r).deleted_at = some (input.deleted_at.getD t.now) := by
  have hmark : input.is_deleted = some true := by
    by_contra hmark
    rw [Txn.RecordChange.apply_is_deleted, change, tombstone_of_not_marked hmark] at h
    by_cases hdel : r.is_deleted = true
    · simp [hdel] at h
    · simp [hdel] at h
  refine ⟨hmark, ?_⟩
  rw [Txn.RecordChange.apply_deleted_at, change, tombstone_of_marked hmark]

/-- A live row that is deleted afterwards has been swept away, or an entry asks for it. -/
theorem outcome_buries {r : IpRecord} (hlive : r.is_deleted = false)
    (h : (t.outcome w r).is_deleted = true) :
    t.omits w r = true ∨ (r.is_locked = false ∧
      ∃ e ∈ t.normalized, e.1 = r.target_address ∧ e.2.is_deleted = some true) := by
  rcases t.outcome_cases w r with hsame | ⟨homit, -⟩ | ⟨hl, e, he, hadr, hout⟩
  · rw [hsame, hlive] at h
    cases h
  · exact .inl homit
  · exact .inr ⟨hl, e, he, hadr, (change_buries (hout ▸ h)).1⟩

/-- **The transaction of a batch.** -/
theorem run_effect {st : BatchState} (hw : w.Wf) (hnodup : t.seen.Nodup)
    (h : t.run w = .ok (st, w')) : t.Effect (t.outcome w) t.normalized w w' := by
  obtain ⟨st₁, w₁, hentries, h⟩ := atomic_bind_ok.mp h
  obtain ⟨st₂, w₂, hreplace, h⟩ := atomic_bind_ok.mp h
  obtain ⟨_, w₃, haudit, h⟩ := atomic_bind_ok.mp h
  obtain ⟨-, rfl⟩ := atomic_pure_ok.mp h
  have entered := entries_effect hw hnodup hentries
  have replaced : t.Effect (t.outcome w) t.normalized w w₂ := by
    unfold replace at hreplace
    cases hmode : t.mode with
    | Upsert =>
        rw [hmode] at hreplace
        obtain ⟨-, rfl⟩ := atomic_pure_ok.mp hreplace
        have hout : t.outcome w = t.entry_outcome t.normalized := by
          funext r
          simp [outcome, omits, hmode]
        rwa [hout]
    | FullReplace =>
        rw [hmode] at hreplace
        obtain ⟨members, w₂', hread, hsweep⟩ := atomic_bind_ok.mp hreplace
        simp only [Txn.read, Except.ok.injEq, Prod.mk.injEq] at hread
        obtain ⟨rfl, rfl⟩ := hread
        exact entered.sweep hmode hsweep
  obtain rfl := Txn.insert_audit_ok haudit
  exact ⟨replaced.row, replaced.origin, replaced.created, replaced.members, replaced.counter⟩

/-! ## A batch does not fail half-way

Its group and the key of its caller are there; then none of its writes can be refused. -/

theorem join_total {address : String} {input : BatchRecordInput} {id : Uuid}
    {summary : BatchRecordsResponse} {events : List WebhookEvent}
    (hr : w.records.has id = true) (hg : w.groups.has t.group.id = true) :
    Commits (t.join address input id summary events) w := by
  obtain ⟨n, w₁, hlink⟩ := Txn.link_total hr hg
  exact .bind hlink (.pure _ _)

theorem entry_total (hw : w.Wf) (hg : w.groups.has t.group.id = true) (st : BatchState)
    (e : String × BatchRecordInput) : Commits (t.entry st e) w := by
  obtain ⟨summary, events⟩ := st
  have hread : Txn.read (·.record_at e.1) w = .ok (w.record_at e.1, w) := rfl
  refine .bind hread ?_
  cases hfound : w.record_at e.1 with
  | none =>
      refine .bind (Txn.insert_record_of_new hfound) (join_total ?_ hg)
      exact Table.has_iff.mpr ⟨_, fresh_mem_insert hw _, rfl⟩
  | some r =>
      obtain ⟨hmem, -⟩ := World.mem_of_record_at hfound
      by_cases hl : r.is_locked = true
      · simp only [hl, if_true]
        exact .pure _ _
      · simp only [hl, Bool.false_eq_true, if_false]
        refine .bind (Txn.update_record_of_mem hmem) (join_total ?_ hg)
        exact Table.has_iff.mpr ⟨_, apply_mem_modify hmem, Txn.RecordChange.apply_id _ r⟩

theorem entries_total (es : List (String × BatchRecordInput)) (st : BatchState) (hw : w.Wf)
    (hg : w.groups.has t.group.id = true) : Commits (t.entries es st) w := by
  induction es generalizing st w with
  | nil => exact .pure st w
  | cons e es ih =>
      obtain ⟨st₁, w₁, hentry⟩ := entry_total hw hg st e
      have hgroups := (t.only_records_entry st e w st₁ w₁ hentry).groups
      exact .bind hentry (ih st₁ (t.wf_entry st e w st₁ w₁ hentry hw) (hgroups ▸ hg))

theorem sweep_total (rs : List IpRecord) (st : BatchState)
    (h : ∀ m ∈ rs, w.records.has m.id = true) : Commits (t.sweep rs st) w := by
  induction rs generalizing st w with
  | nil => exact .pure st w
  | cons m rs ih =>
      obtain ⟨summary, events⟩ := st
      unfold sweep
      by_cases hs : t.seen.contains m.target_address = true
      · rw [if_pos hs]
        exact ih _ fun m' hm' => h m' (List.mem_cons_of_mem m hm')
      · rw [if_neg hs]
        obtain ⟨r, hr, hid⟩ := Table.has_iff.mp (h m List.mem_cons_self)
        refine .bind (hid ▸ Txn.update_record_of_mem hr) (ih _ fun m' hm' => ?_)
        rw [Table.has_modify]
        exact h m' (List.mem_cons_of_mem m hm')

/-- **A batch commits.** -/
theorem run_total (hw : w.Wf) (hg : w.groups.has t.group.id = true)
    (hk : w.keys.has t.caller.key.id = true) : Commits t.run w := by
  obtain ⟨st₁, w₁, hentries⟩ := entries_total t.normalized ({}, []) hw hg
  have hreplace : Commits (t.replace st₁) w₁ := by
    unfold replace
    cases t.mode with
    | Upsert => exact .pure st₁ w₁
    | FullReplace =>
        have hread : Txn.read (candidates · t.group.id) w₁ =
          .ok (candidates w₁ t.group.id, w₁) := rfl
        refine .bind hread (sweep_total _ _ fun m hm => ?_)
        exact Table.has_iff.mpr ⟨m, (mem_candidates.mp hm).1, rfl⟩
  obtain ⟨st₂, w₂, hreplace⟩ := hreplace
  have hkeys : w₂.keys = w.keys :=
    (t.only_records_replace st₁ w₁ st₂ w₂ hreplace).keys.trans
      (t.only_records_entries _ _ w st₁ w₁ hentries).keys
  obtain ⟨w₃, haudit⟩ := Txn.insert_audit_total (w := w₂)
    (a := audit_row t.caller t.now "batch_records_updated" none (some t.group.name)
      (some (t.details st₂.1))) (by simpa [audit_row, hkeys] using hk)
  exact .bind hentries (.bind hreplace (.bind haudit (.pure _ _)))

end BatchTxn

end IpVault
