import IpVault.Records.BatchEvents

set_option autoImplicit false

/-! # What a batch makes of its group

The live addresses of the group after a batch, in either mode, as an equation of sets; what the counters
of its answer count; and that the same batch a second time changes timestamps only.
-/

namespace IpVault

open Lib

/-- The addresses that are live in a group. -/
def World.live_members (w : World) (group_id : Uuid) : Set String :=
  {a | ∃ r ∈ w.records, r.target_address = a ∧ r.is_deleted = false ∧ w.member r.id group_id}

/-- The addresses of locked records. -/
def World.locked (w : World) : Set String := {a | w.locked_at a = true}

namespace BatchTxn

variable {t : BatchTxn} {w w' : World}

/-! ## Live members -/

/-- The addresses of the entries with a property that are not skipped. -/
def writes (t : BatchTxn) (w : World) (p : BatchRecordInput → Prop) : Set String :=
  {a | ∃ e ∈ t.normalized, e.1 = a ∧ skips w e = false ∧ p e.2}

/-- The addresses a batch asks to be live, locked ones apart. -/
def wanted (t : BatchTxn) (w : World) : Set String := t.writes w (·.is_deleted ≠ some true)

/-- The addresses a batch marks as deleted, locked ones apart. -/
def unwanted (t : BatchTxn) (w : World) : Set String := t.writes w (·.is_deleted = some true)

theorem mem_writes_iff (hnodup : t.seen.Nodup) {e : String × BatchRecordInput}
    (he : e ∈ t.normalized) (hacts : skips w e = false) {p : BatchRecordInput → Prop} :
    e.1 ∈ t.writes w p ↔ p e.2 := by
  constructor
  · rintro ⟨e', he', hadr, -, hp⟩
    rwa [List.inj_on_of_nodup_map hnodup he' he hadr] at hp
  · intro hp
    exact ⟨e, he, rfl, hacts, hp⟩

/-- What an entry writes to is live afterwards exactly if the entry does not mark it. -/
theorem Effect.live_of_written (hw' : w'.Wf) (h : t.Effect (t.outcome w) t.normalized w w')
    (hnodup : t.seen.Nodup) {e : String × BatchRecordInput} (he : e ∈ t.normalized)
    (hacts : skips w e = false) :
    e.1 ∈ w'.live_members t.group.id ↔ e.2.is_deleted ≠ some true := by
  obtain ⟨r', hr', hadr, hmember, hdel⟩ := h.written hnodup he hacts
  constructor
  · rintro ⟨r, hr, hadr', hlive, -⟩ hmark
    have hsame : r = r' := hw'.address_unique r hr r' hr' (hadr'.trans hadr.symm)
    rw [hsame, hdel.mpr hmark] at hlive
    cases hlive
  · intro hmark
    refine ⟨r', hr', hadr, ?_, hmember⟩
    rw [Bool.eq_false_iff]
    exact fun hf => hmark (hdel.mp hf)

/-- An address that no entry writes to is live afterwards if it was before, and the sweep leaves it. -/
theorem Effect.live_elsewhere (hw : w.Wf)
    (h : t.Effect (t.outcome w) t.normalized w w') {a : String}
    (hnone : ∀ e ∈ t.normalized, e.1 = a → skips w e = true) :
    a ∈ w'.live_members t.group.id ↔
      ∃ r ∈ w.records, r.target_address = a ∧ r.is_deleted = false ∧ w.member r.id t.group.id ∧
        t.omits w r = false := by
  -- a record of this address that an entry names is locked
  have locked : ∀ r ∈ w.records, r.target_address = a → r.target_address ∈ t.seen →
      r.is_locked = true := by
    intro r hr hadr hseen
    obtain ⟨e, he, hadr'⟩ := List.mem_map.mp hseen
    obtain ⟨r₀, hr₀, hadr₀, hl₀⟩ := (skips_iff hw).mp (hnone e he (hadr'.trans hadr))
    rwa [hw.address_unique r₀ hr₀ r hr (hadr₀.trans hadr')] at hl₀
  have left : ∀ r ∈ w.records, r.target_address = a → t.omits w r = false → t.outcome w r = r := by
    intro r hr hadr homit
    rcases t.outcome_cases w r with hsame | ⟨hf, -⟩ | ⟨hl, e, he, hadr', -⟩
    · exact hsame
    · rw [homit] at hf
      cases hf
    · have hseen : r.target_address ∈ t.seen := hadr' ▸ List.mem_map_of_mem he
      rw [locked r hr hadr hseen] at hl
      cases hl
  constructor
  · rintro ⟨r', hr', hadr, hlive, m, hm, hid, hgroup⟩
    rcases h.origin r' hr' with ⟨r, hr, rfl⟩ | ⟨e, he, hnew, -, hfresh⟩
    · rw [outcome_address] at hadr
      have homit : t.omits w r = false := by
        rw [Bool.eq_false_iff]
        intro homit
        have hswept := ((omits_iff_turned h hr).mp homit).2.1
        have hfind := Table.find?_key (h.row r hr)
        rw [outcome_id] at hfind
        rw [hfind] at hswept
        have hdel : (t.outcome w r).is_deleted = true := hswept
        rw [hlive] at hdel
        cases hdel
      rw [left r hr hadr homit] at hid hlive hr'
      refine ⟨r, hr, hadr, hlive, ?_, homit⟩
      rcases (h.members m).mp hm with hold | ⟨-, r₁, hr₁, hid₁, hl₁, hseen₁⟩
      · exact ⟨m, hold, hid, hgroup⟩
      · obtain rfl := Table.eq_of_key hr₁ hr' (hid₁.trans hid)
        rw [locked r₁ hr hadr hseen₁] at hl₁
        cases hl₁
    · have hadr' : e.1 = a := by
        rw [hfresh] at hadr
        exact hadr
      have hskipped := hnone e he hadr'
      unfold skips at hskipped
      rw [hnew] at hskipped
      cases hskipped
  · rintro ⟨r, hr, hadr, hlive, ⟨m, hm, hid, hgroup⟩, homit⟩
    have hr' : r ∈ w'.records := left r hr hadr homit ▸ h.row r hr
    exact ⟨r, hr', hadr, hlive, m, (h.members m).mpr (Or.inl hm), hid, hgroup⟩

/-- **`full_replace`**: what is asked for, and the locked records that were there. -/
theorem Effect.live_full_replace (hw : w.Wf) (hw' : w'.Wf)
    (h : t.Effect (t.outcome w) t.normalized w w') (hnodup : t.seen.Nodup)
    (hmode : t.mode = .FullReplace) :
    w'.live_members t.group.id = t.wanted w ∪ w.live_members t.group.id ∩ w.locked := by
  ext a
  -- An address the batch writes to is live if the batch asks for it; one it does not write to stays,
  -- if it was live, exactly if it is locked.
  by_cases hwritten : ∃ e ∈ t.normalized, e.1 = a ∧ skips w e = false
  · obtain ⟨e, he, rfl, hacts⟩ := hwritten
    rw [h.live_of_written hw' hnodup he hacts, Set.mem_union, wanted, mem_writes_iff hnodup he hacts]
    have hunlocked : e.1 ∉ w.locked := by
      intro hl
      have hskipped : skips w e = true := hl
      rw [hacts] at hskipped
      cases hskipped
    exact ⟨Or.inl, fun hor => hor.resolve_right fun hinter => hunlocked hinter.2⟩
  · push Not at hwritten
    have hnone : ∀ e ∈ t.normalized, e.1 = a → skips w e = true :=
      fun e he hadr => Bool.eq_true_of_not_eq_false (hwritten e he hadr)
    rw [h.live_elsewhere hw hnone]
    constructor
    · rintro ⟨r, hr, hadr, hlive, hmember, homit⟩
      refine Or.inr ⟨⟨r, hr, hadr, hlive, hmember⟩, ?_⟩
      show (w.record_at a).any (·.is_locked) = true
      rw [hw.record_at_eq_some.mpr ⟨hr, hadr⟩]
      show r.is_locked = true
      by_contra hl
      have hl : r.is_locked = false := Bool.eq_false_iff.mpr hl
      by_cases hseen : r.target_address ∈ t.seen
      · obtain ⟨e, he, hadr'⟩ := List.mem_map.mp hseen
        obtain ⟨r₀, hr₀, hadr₀, hl₀⟩ := (skips_iff hw).mp (hnone e he (hadr'.trans hadr))
        rw [hw.address_unique r₀ hr₀ r hr (hadr₀.trans hadr'), hl] at hl₀
        cases hl₀
      · rw [omits_iff.mpr ⟨hmode, hmember, hlive, hl, hseen⟩] at homit
        cases homit
    · rintro (⟨e, he, hadr, hacts, -⟩ | ⟨⟨r, hr, hadr, hlive, hmember⟩, hl⟩)
      · rw [hnone e he hadr] at hacts
        cases hacts
      · have hlocked : r.is_locked = true := by
          have hany : (w.record_at a).any (·.is_locked) = true := hl
          rwa [hw.record_at_eq_some.mpr ⟨hr, hadr⟩] at hany
        refine ⟨r, hr, hadr, hlive, hmember, ?_⟩
        rw [Bool.eq_false_iff]
        intro homit
        rw [(omits_iff.mp homit).2.2.2.1] at hlocked
        cases hlocked

/-- **`upsert`**: what was there and is not marked as deleted, and what is asked for. -/
theorem Effect.live_upsert (hw : w.Wf) (hw' : w'.Wf)
    (h : t.Effect (t.outcome w) t.normalized w w') (hnodup : t.seen.Nodup)
    (hmode : t.mode = .Upsert) :
    w'.live_members t.group.id = w.live_members t.group.id \ t.unwanted w ∪ t.wanted w := by
  ext a
  by_cases hwritten : ∃ e ∈ t.normalized, e.1 = a ∧ skips w e = false
  · obtain ⟨e, he, rfl, hacts⟩ := hwritten
    rw [h.live_of_written hw' hnodup he hacts, Set.mem_union, Set.mem_sdiff, wanted,
      unwanted, mem_writes_iff hnodup he hacts, mem_writes_iff hnodup he hacts]
    exact ⟨Or.inr, fun hor => hor.elim And.right id⟩
  · push Not at hwritten
    have hnone : ∀ e ∈ t.normalized, e.1 = a → skips w e = true :=
      fun e he hadr => Bool.eq_true_of_not_eq_false (hwritten e he hadr)
    rw [h.live_elsewhere hw hnone]
    constructor
    · rintro ⟨r, hr, hadr, hlive, hmember, -⟩
      refine Or.inl ⟨⟨r, hr, hadr, hlive, hmember⟩, ?_⟩
      rintro ⟨e, he, hadr', hacts, -⟩
      exact hwritten e he hadr' hacts
    · rintro (⟨⟨r, hr, hadr, hlive, hmember⟩, -⟩ | ⟨e, he, hadr, hacts, -⟩)
      · refine ⟨r, hr, hadr, hlive, hmember, ?_⟩
        rw [Bool.eq_false_iff]
        intro homit
        have hfull := (omits_iff.mp homit).1
        rw [hmode] at hfull
        cases hfull
      · exact absurd hacts (hwritten e he hadr)

/-! ## Counters -/

/-- Each entry is one of three. -/
theorem tally_total (es : List (String × BatchRecordInput)) :
    (t.tally w es).created + (t.tally w es).updated + (t.tally w es).locked_skipped =
      es.length := by
  induction es with
  | nil => rfl
  | cons e es ih =>
      have hone : (t.tally w [e]).created + (t.tally w [e]).updated +
          (t.tally w [e]).locked_skipped = 1 := by
        cases hfound : w.record_at e.1 with
        | none => simp [tally, skips, hfound]
        | some r =>
            by_cases hl : r.is_locked = true
            · simp [tally, skips, hfound, hl]
            · simp [tally, skips, hfound, hl]
      rw [tally_cons, List.length_cons]
      simp only [BatchRecordsResponse.plus]
      omega

theorem restored_le_updated (es : List (String × BatchRecordInput)) :
    (t.tally w es).restored ≤ (t.tally w es).updated := by
  refine List.countP_mono_left fun e _ h => ?_
  unfold restores at h
  cases hfound : w.record_at e.1 with
  | none =>
      rw [hfound] at h
      cases h
  | some r =>
      rw [hfound] at h
      exact (Bool.and_eq_true_iff.mp h).1

/-- One entry adds the memberships it counts. -/
theorem entry_linked {st st' : BatchState} {e : String × BatchRecordInput} (hw : w.Wf)
    (h : t.entry st e w = .ok (st', w')) :
    w'.memberships.rows.length = w.memberships.rows.length + (t.tally w [e]).linked := by
  cases entry_effect h with
  | locked r hr hl => simp [tally, joins, hr, hl]
  | changed r hr hl =>
      rw [Table.length_insert]
      by_cases hmember : w.memberships.has (r.id, t.group.id) = true
      · simp [tally, joins, hr, hl, hmember, Membership.key]
      · simp [tally, joins, hr, hl, hmember, Membership.key]
  | created hn =>
      rw [Table.length_insert]
      have hnew := no_membership_of_next hw t.group.id
      simp [tally, joins, hn, hnew, Membership.key]

theorem entries_linked {es : List (String × BatchRecordInput)} {st st' : BatchState} (hw : w.Wf)
    (hnodup : (es.map Prod.fst).Nodup) (h : t.entries es st w = .ok (st', w')) :
    w'.memberships.rows.length = w.memberships.rows.length + (t.tally w es).linked := by
  induction es generalizing st w with
  | nil =>
      obtain ⟨-, rfl⟩ := atomic_pure_ok.mp h
      rfl
  | cons e es ih =>
      obtain ⟨st₁, w₁, hentry, h⟩ := atomic_bind_ok.mp h
      obtain ⟨hnew, hnodup'⟩ := List.nodup_cons.mp hnodup
      have hw₁ : w₁.Wf := t.wf_entry st e w st₁ w₁ hentry hw
      have effect := (entry_effect hentry).effect hw
      have later := addresses_after hnew
      rw [ih hw₁ hnodup' h, effect.tally_elsewhere hw₁ later, entry_linked hw hentry,
        tally_cons e es]
      exact Nat.add_assoc _ _ _

/-- **`linked`** counts the new memberships. -/
theorem run_linked {st : BatchState} (hw : w.Wf) (hnodup : t.seen.Nodup)
    (h : t.run w = .ok (st, w')) :
    w'.memberships.rows.length = w.memberships.rows.length + (t.summary w).linked := by
  obtain ⟨st₁, w₁, hentries, h⟩ := atomic_bind_ok.mp h
  obtain ⟨st₂, w₂, hreplace, h⟩ := atomic_bind_ok.mp h
  obtain ⟨_, w₃, haudit, h⟩ := atomic_bind_ok.mp h
  obtain ⟨-, rfl⟩ := atomic_pure_ok.mp h
  have hlinked := entries_linked hw hnodup hentries
  have hkept : w₂.memberships = w₁.memberships := by
    unfold replace at hreplace
    cases hmode : t.mode with
    | Upsert =>
        rw [hmode] at hreplace
        obtain ⟨-, rfl⟩ := atomic_pure_ok.mp hreplace
        rfl
    | FullReplace =>
        rw [hmode] at hreplace
        obtain ⟨members, w₂', hread, hsweep⟩ := atomic_bind_ok.mp hreplace
        simp only [Txn.read, Except.ok.injEq, Prod.mk.injEq] at hread
        obtain ⟨rfl, rfl⟩ := hread
        exact (sweep_effect hsweep).2.1
  obtain rfl := Txn.insert_audit_ok haudit
  show w₂.memberships.rows.length = _
  rw [hkept]
  exact hlinked

end BatchTxn

/-! ## The same batch again -/

/-- A record without its timestamps: only whether it has a date of deletion is left of them. -/
def IpRecord.timeless (r : IpRecord) : IpRecord :=
  { r with
    created_at := 0
    updated_at := 0
    last_seen_at := 0
    deleted_at := r.deleted_at.map fun _ => 0 }

/-- Nothing but timestamps has changed. -/
structure SameButTimes (w w' : World) : Prop where
  groups : w'.groups = w.groups
  memberships : ∀ m, m ∈ w'.memberships ↔ m ∈ w.memberships
  kept : ∀ r ∈ w.records, ∃ r' ∈ w'.records, r'.timeless = r.timeless
  no_others : ∀ r' ∈ w'.records, ∃ r ∈ w.records, r'.timeless = r.timeless

theorem Txn.RecordChange.apply_cause (c : Txn.RecordChange) (r : IpRecord) :
    (c.apply r).cause = c.cause.or r.cause := by
  unfold Txn.RecordChange.apply
  cases c.tombstone with
  | keep => rfl
  | clear => rfl
  | bury d who => rfl

namespace BatchTxn

variable {t u : BatchTxn} {w x y : World}

/-- The record is as an entry of this batch leaves it. -/
structure Settled (t : BatchTxn) (input : BatchRecordInput) (r : IpRecord) : Prop where
  marked : input.is_deleted = some true → r.is_deleted = true ∧ (∃ d, r.deleted_at = some d) ∧
    r.deleted_by = some (Uuid.to_string t.caller.key.id)
  unmarked : input.is_deleted ≠ some true → r.is_deleted = false
  cause : input.cause.or r.cause = r.cause

theorem settled_change (input : BatchRecordInput) (r : IpRecord) :
    t.Settled input ((t.change input r).apply r) where
  marked hmark := by
    unfold change Txn.RecordChange.apply
    rw [tombstone_of_marked hmark]
    exact ⟨rfl, ⟨_, rfl⟩, rfl⟩
  unmarked hmark := by
    rw [Txn.RecordChange.apply_is_deleted, change, tombstone_of_not_marked hmark]
    by_cases hdel : r.is_deleted = true
    · rw [if_pos hdel]
    · rw [if_neg hdel]
      exact Bool.eq_false_iff.mpr hdel
  cause := by
    rw [Txn.RecordChange.apply_cause]
    show input.cause.or (input.cause.or r.cause) = input.cause.or r.cause
    cases input.cause with
    | none => rfl
    | some c => rfl

theorem settled_fresh (address : String) (input : BatchRecordInput) (id : Uuid) :
    t.Settled input { t.fresh_record address input with id := id } where
  marked hmark := by
    unfold fresh_record
    rw [hmark]
    exact ⟨rfl, ⟨_, rfl⟩, rfl⟩
  unmarked hmark := by
    show input.is_deleted.getD false = false
    cases hd : input.is_deleted with
    | none => rfl
    | some d =>
        cases d with
        | false => rfl
        | true => exact absurd hd hmark
  cause := by
    show input.cause.or input.cause = input.cause
    exact Option.or_self

/-- The entry changes timestamps only. -/
theorem Settled.again {input : BatchRecordInput} {r : IpRecord} (h : t.Settled input r)
    (hcaller : u.caller.key.id = t.caller.key.id) :
    ((u.change input r).apply r).timeless = r.timeless := by
  have hcause := h.cause
  by_cases hmark : input.is_deleted = some true
  · obtain ⟨hdel, ⟨d, hdate⟩, hby⟩ := h.marked hmark
    unfold change Txn.RecordChange.apply
    rw [tombstone_of_marked hmark]
    unfold IpRecord.timeless
    simp only [hcause, hdel, hdate, hby, hcaller, Option.map_some]
  · have hlive := h.unmarked hmark
    unfold change Txn.RecordChange.apply
    rw [tombstone_of_not_marked hmark, hlive]
    unfold IpRecord.timeless
    simp only [hcause, hlive, Bool.false_eq_true, if_false]

/-- The same batch, submitted by the same caller at another time. -/
structure SameBatch (t u : BatchTxn) : Prop where
  normalized : u.normalized = t.normalized
  group : u.group = t.group
  mode : u.mode = t.mode
  caller : u.caller.key.id = t.caller.key.id

theorem SameBatch.seen (same : SameBatch t u) : u.seen = t.seen := by
  unfold BatchTxn.seen
  rw [same.normalized]

/-- After a batch every entry has a record. -/
theorem Effect.present (hw : w.Wf) (h : t.Effect (t.outcome w) t.normalized w x)
    (hnodup : t.seen.Nodup) {e : String × BatchRecordInput} (he : e ∈ t.normalized) :
    x.record_at e.1 ≠ none := by
  intro hnone
  have absent := World.record_at_eq_none.mp hnone
  by_cases hskip : skips w e = true
  · obtain ⟨r, hr, hadr, hl⟩ := (skips_iff hw).mp hskip
    have hkept : r ∈ x.records := outcome_of_locked (t := t) (w := w) hl ▸ h.row r hr
    exact absent r hkept hadr
  · obtain ⟨r', hr', hadr, -, -⟩ := h.written hnodup he (Bool.eq_false_iff.mpr hskip)
    exact absent r' hr' hadr

/-- The records it has written are settled. -/
theorem Effect.settled (h : t.Effect (t.outcome w) t.normalized w x) (hnodup : t.seen.Nodup)
    {r' : IpRecord} (hr' : r' ∈ x.records) (hl : r'.is_locked = false)
    {e : String × BatchRecordInput} (he : e ∈ t.normalized) (hadr : e.1 = r'.target_address) :
    t.Settled e.2 r' := by
  rcases h.origin r' hr' with ⟨r, hr, rfl⟩ | ⟨e', he', -, -, hfresh⟩
  · rw [outcome_is_locked] at hl
    rw [outcome_address] at hadr
    rw [outcome_of_mem hnodup he hadr.symm hl]
    exact settled_change e.2 r
  · have hadr' : r'.target_address = e'.1 := by
      rw [hfresh]
      rfl
    obtain rfl := List.inj_on_of_nodup_map hnodup he he' (hadr.trans hadr')
    rw [hfresh]
    exact settled_fresh e.1 e.2 r'.id

/-- There is nothing left to sweep. -/
theorem Effect.swept_clean (h : t.Effect (t.outcome w) t.normalized w x) (same : SameBatch t u)
    {r' : IpRecord} (hr' : r' ∈ x.records) : u.omits x r' = false := by
  rw [Bool.eq_false_iff]
  intro homit
  obtain ⟨hmode, ⟨m, hm, hid, hgroup⟩, hlive, hl, hseen⟩ := omits_iff.mp homit
  rw [same.mode] at hmode
  rw [same.group] at hgroup
  rw [same.seen] at hseen
  rcases h.origin r' hr' with ⟨r, hr, rfl⟩ | ⟨e, he, -, -, hfresh⟩
  · rw [outcome_address] at hseen
    rw [outcome_is_locked] at hl
    rw [outcome_id] at hid
    have hnot : t.omits w r = false := by
      rw [Bool.eq_false_iff]
      intro hf
      unfold outcome at hlive
      rw [if_pos hf, Txn.RecordChange.apply_is_deleted] at hlive
      cases hlive
    have hkept : t.outcome w r = r := by
      unfold outcome
      rw [if_neg (by rw [hnot]; decide)]
      exact entry_outcome_of_not_mem hseen
    rw [hkept] at hlive hr'
    rcases (h.members m).mp hm with hold | ⟨-, r₁, hr₁, hid₁, -, hseen₁⟩
    · have hf : t.omits w r = true := omits_iff.mpr ⟨hmode, ⟨m, hold, hid, hgroup⟩, hlive, hl, hseen⟩
      rw [hnot] at hf
      cases hf
    · obtain rfl := Table.eq_of_key hr₁ hr' (hid₁.trans hid)
      exact hseen hseen₁
  · refine hseen ?_
    rw [hfresh]
    exact List.mem_map_of_mem he

/-- **Idempotence.** The same batch a second time changes timestamps only. -/
theorem Effect.again (hw : w.Wf) (h : t.Effect (t.outcome w) t.normalized w x)
    (h' : u.Effect (u.outcome x) u.normalized x y) (hnodup : t.seen.Nodup) (same : SameBatch t u)
    (hgroups : y.groups = x.groups) : SameButTimes x y := by
  have rows : ∀ r' ∈ x.records, (u.outcome x r').timeless = r'.timeless := by
    intro r' hr'
    rcases u.outcome_cases x r' with hsame | ⟨homit, -⟩ | ⟨hl, e, he, hadr, hout⟩
    · rw [hsame]
    · rw [h.swept_clean same hr'] at homit
      cases homit
    · rw [hout]
      rw [same.normalized] at he
      exact (h.settled hnodup hr' hl he hadr).again same.caller
  have present : ∀ e ∈ u.normalized, x.record_at e.1 ≠ none := by
    intro e he
    rw [same.normalized] at he
    exact h.present hw hnodup he
  refine ⟨hgroups, fun m => ?_, fun r' hr' => ⟨_, h'.row r' hr', rows r' hr'⟩, ?_⟩
  · constructor
    · intro hm
      rcases (h'.members m).mp hm with hold | ⟨hgroup, r₂, hr₂, hid, hl, hseen⟩
      · exact hold
      · rcases h'.origin r₂ hr₂ with ⟨r', hr', rfl⟩ | ⟨e, he, hnone, -, -⟩
        · rw [outcome_id] at hid
          rw [outcome_is_locked] at hl
          rw [outcome_address, same.normalized] at hseen
          rw [same.group] at hgroup
          -- the first submission has linked it
          exact (h.members m).mpr (Or.inr ⟨hgroup, r', hr', hid, hl, hseen⟩)
        · exact absurd hnone (present e he)
    · intro hm
      exact (h'.members m).mpr (Or.inl hm)
  · intro r₂ hr₂
    rcases h'.origin r₂ hr₂ with ⟨r', hr', rfl⟩ | ⟨e, he, hnone, -, -⟩
    · exact ⟨r', hr', rows r' hr'⟩
    · exact absurd hnone (present e he)

end BatchTxn

/-! ## A request -/

/-- The addresses of the entries with a property, locked ones apart. -/
def BatchRecordsPayload.writes (payload : BatchRecordsPayload) (env : Env) (w : World)
    (p : BatchRecordInput → Prop) : Set String :=
  {a | ∃ e ∈ payload.records, normalize_ip_or_cidr env e.target_address = a ∧ a ∉ w.locked ∧ p e}

/-- The addresses a batch asks to be live. -/
def BatchRecordsPayload.wanted (payload : BatchRecordsPayload) (env : Env) (w : World) :
    Set String :=
  payload.writes env w (·.is_deleted ≠ some true)

/-- The addresses a batch marks as deleted. -/
def BatchRecordsPayload.unwanted (payload : BatchRecordsPayload) (env : Env) (w : World) :
    Set String :=
  payload.writes env w (·.is_deleted = some true)

/-- The live, unlocked members of a group that have none of these addresses. -/
def World.omitted (w : World) (addresses : List String) (group_id : Uuid) : List IpRecord :=
  w.records.rows.filter fun r => w.memberships.has (r.id, group_id) && !r.is_deleted &&
    !r.is_locked && !addresses.contains r.target_address

/-- **What a batch has done** to a group, from the store `w` to the store `w'`. -/
structure BatchDone (env : Env) (payload : BatchRecordsPayload) (group_id : Uuid) (w w' : World)
    (summary : BatchRecordsResponse) : Prop where
  full_replace : payload.mode = .FullReplace →
    w'.live_members group_id = payload.wanted env w ∪ w.live_members group_id ∩ w.locked
  upsert : payload.mode = .Upsert → w'.live_members group_id =
    w.live_members group_id \ payload.unwanted env w ∪ payload.wanted env w
  submitted : summary.created + summary.updated + summary.locked_skipped = payload.records.length
  restored : summary.restored ≤ summary.updated
  members_kept : ∀ m ∈ w.memberships, m ∈ w'.memberships
  linked : w'.memberships.rows.length = w.memberships.rows.length + summary.linked
  swept : payload.mode = .FullReplace →
    summary.soft_deleted = (w.omitted (payload.addresses env) group_id).length
  not_swept : payload.mode = .Upsert → summary.soft_deleted = 0

section Request

variable {ctx : Ctx} {payload : BatchRecordsPayload} {v w : Vault} {group : IpGroup}
variable {normalized : List (String × BatchRecordInput)} {events : List WebhookEvent}

theorem BatchAdmitted.normalized_eq (h : BatchAdmitted ctx payload v.toWorld group normalized) :
    normalized = payload.records.map fun r => (normalize_ip_or_cidr ctx.env r.target_address, r) :=
  (normalize_entries_ok h.entries (by simp)).1

theorem BatchAdmitted.seen_eq (h : BatchAdmitted ctx payload v.toWorld group normalized) :
    (batch_transaction ctx payload group normalized).seen = payload.addresses ctx.env := by
  show normalized.map Prod.fst = _
  rw [h.normalized_eq, List.map_map]
  rfl

theorem BatchAdmitted.writes_eq (h : BatchAdmitted ctx payload v.toWorld group normalized)
    (w : World) (p : BatchRecordInput → Prop) :
    (batch_transaction ctx payload group normalized).writes w p = payload.writes ctx.env w p := by
  ext a
  show (∃ e ∈ normalized, _) ↔ ∃ e ∈ payload.records, _
  rw [h.normalized_eq]
  constructor
  · rintro ⟨e, he, hadr, hacts, hp⟩
    obtain ⟨r, hr, rfl⟩ := List.mem_map.mp he
    refine ⟨r, hr, hadr, fun hl => ?_, hp⟩
    rw [← hadr] at hl
    have hskipped : BatchTxn.skips w (normalize_ip_or_cidr ctx.env r.target_address, r) = true := hl
    rw [hacts] at hskipped
    cases hskipped
  · rintro ⟨r, hr, hadr, hl, hp⟩
    refine ⟨_, List.mem_map_of_mem hr, hadr, Bool.eq_false_iff.mpr fun hskipped => hl ?_, hp⟩
    rw [← hadr]
    exact hskipped

/-- What a batch has done, from the store in which its transaction begins. -/
theorem BatchRan.done (h : BatchRan ctx payload group normalized v events w)
    (hadmitted : BatchAdmitted ctx payload v.toWorld group normalized) :
    BatchDone ctx.env payload group.id (batch_base ctx payload v).toWorld w.toWorld
      ((batch_transaction ctx payload group normalized).summary
        (batch_base ctx payload v).toWorld) := by
  have hw := (batch_base ctx payload v).wf
  have hnodup := hadmitted.seen_nodup
  have hlength : normalized.length = payload.records.length := by
    rw [hadmitted.normalized_eq, List.length_map]
  have hwrites := hadmitted.writes_eq (batch_base ctx payload v).toWorld
  refine ⟨fun hmode => ?_, fun hmode => ?_, ?_, ?_, fun m hm => ?_, ?_, fun hmode => ?_,
    fun hmode => ?_⟩
  · have hlive := h.effect.live_full_replace hw w.wf hnodup hmode
    rw [BatchTxn.wanted, hwrites] at hlive
    exact hlive
  · have hlive := h.effect.live_upsert hw w.wf hnodup hmode
    rw [BatchTxn.wanted, BatchTxn.unwanted, hwrites, hwrites] at hlive
    exact hlive
  · rw [← hlength]
    exact BatchTxn.tally_total (t := batch_transaction ctx payload group normalized) normalized
  · exact BatchTxn.restored_le_updated (t := batch_transaction ctx payload group normalized) normalized
  · exact (h.effect.members m).mpr (Or.inl hm)
  · exact BatchTxn.run_linked hw hnodup h.run
  · show (BatchTxn.swept _ _).length = _
    rw [← hadmitted.seen_eq]
    unfold BatchTxn.swept World.omitted
    congr 1
    refine List.filter_congr fun r _ => ?_
    unfold BatchTxn.omits
    have hfull : (batch_transaction ctx payload group normalized).mode = .FullReplace := hmode
    rw [hfull]
    rfl
  · show (BatchTxn.swept _ _).length = _
    rw [BatchTxn.swept_of_upsert hmode]
    rfl

end Request

/-- **The postcondition of a batch**, in both modes, and the same batch again: a batch that is carried out
has done to its group what `BatchDone` says, and submitted once more by the same caller it changes
timestamps only. -/
theorem batch_postcondition (S : Service) (req : Request) (v : Vault)
    (payload : BatchRecordsPayload) (hcall : req.call = .batch_records payload)
    (hsucceeds : S.Succeeds req v) :
    ∃ g summary, (S.handle req v).2.group_named payload.group_name = some g ∧
      (S.handle req v).1 = json (BatchRecordsResponse.to_json summary) ∧
      BatchDone S.env payload g.id v.toWorld (S.handle req v).2.toWorld summary ∧
      ∀ again, again.key_id = req.key_id → again.call = req.call →
        S.Succeeds again (S.handle req v).2 →
          SameButTimes (S.handle req v).2.toWorld (S.handle again (S.handle req v).2).2.toWorld := by
  obtain ⟨key, group, normalized, w, hkey, hadmitted, hran, hhandle⟩ :=
    Service.batch_carried_out hcall hsucceeds
  have hbase := batch_base_records (S.ctx req key) payload v
  have hgroup : (w.queued (S.handed req v)).group_named payload.group_name = some group := by
    refine (Vault.wf _).group_named_eq_some.mpr ⟨?_, hadmitted.group_name⟩
    rw [Vault.queued_toWorld]
    show group ∈ w.groups
    rw [hran.only_records.groups]
    exact hadmitted.group_in_base
  rw [hhandle]
  refine ⟨group, _, hgroup, rfl, ?_, ?_⟩
  · have hdone := hran.done hadmitted
    have hlive : (batch_base (S.ctx req key) payload v).live_members group.id =
        v.live_members group.id := by
      unfold World.live_members World.member
      rw [hbase.1, hbase.2]
    have hlocked : (batch_base (S.ctx req key) payload v).locked = v.locked := by
      unfold World.locked World.locked_at World.record_at
      rw [hbase.1]
    have hwrites : ∀ p, payload.writes S.env (batch_base (S.ctx req key) payload v).toWorld p =
        payload.writes S.env v.toWorld p := by
      intro p
      unfold BatchRecordsPayload.writes
      rw [hlocked]
    have homitted : (batch_base (S.ctx req key) payload v).omitted (payload.addresses S.env)
        group.id = v.omitted (payload.addresses S.env) group.id := by
      unfold World.omitted
      rw [hbase.1, hbase.2]
    rw [Vault.queued_toWorld]
    refine ⟨fun hmode => ?_, fun hmode => ?_, hdone.submitted, hdone.restored, ?_, ?_,
      fun hmode => ?_, hdone.not_swept⟩
    · have hset := hdone.full_replace hmode
      unfold BatchRecordsPayload.wanted at hset ⊢
      rw [← hlive, ← hlocked, ← hwrites]
      exact hset
    · have hset := hdone.upsert hmode
      unfold BatchRecordsPayload.wanted BatchRecordsPayload.unwanted at hset ⊢
      rw [← hlive, ← hwrites, ← hwrites]
      exact hset
    · rw [← hbase.2]
      exact hdone.members_kept
    · rw [← hbase.2]
      exact hdone.linked
    · rw [← homitted]
      exact hdone.swept hmode
  · intro again hcaller hsameCall hsucceeds'
    obtain ⟨key', group', normalized', w', hkey', hadmitted', hran', hhandle'⟩ :=
      Service.batch_carried_out (hsameCall.trans hcall) hsucceeds'
    rw [hhandle']
    -- the second submission finds the key, the group and the entries of the first
    have hkeys : (w.queued (S.handed req v)).keys = v.keys := by
      rw [Vault.queued_toWorld]
      exact hran.only_records.keys.trans batch_base_keys
    have hsameKey : key' = key := by
      rw [hcaller, hkeys, hkey] at hkey'
      exact (Option.some.inj hkey').symm
    have hsameGroup : group' = group := by
      rcases hadmitted'.target with ⟨hnamed, -⟩ | ⟨hn, -, -⟩
      · exact Option.some.inj (hnamed.symm.trans hgroup)
      · have hsome : (w.queued (S.handed req v)).group_named payload.group_name = none := hn
        rw [hgroup] at hsome
        cases hsome
    have hsameEntries : normalized' = normalized := by
      rw [hadmitted'.normalized_eq, hadmitted.normalized_eq]
      rfl
    subst hsameKey hsameGroup hsameEntries
    have hstays : batch_base (S.ctx again key') payload (w.queued (S.handed req v)) =
        w.queued (S.handed req v) := by
      unfold batch_base
      rw [hgroup]
    have heffect' := hran'.effect
    have honly' := hran'.only_records
    rw [hstays] at heffect' honly'
    have heffect : (batch_transaction (S.ctx req key') payload group' normalized').Effect
        ((batch_transaction (S.ctx req key') payload group' normalized').outcome
          (batch_base (S.ctx req key') payload v).toWorld) normalized'
        (batch_base (S.ctx req key') payload v).toWorld (w.queued (S.handed req v)).toWorld := by
      rw [Vault.queued_toWorld]
      exact ⟨hran.effect.row, hran.effect.origin, hran.effect.created, hran.effect.members,
        hran.effect.counter⟩
    have hsame := heffect.again (batch_base (S.ctx req key') payload v).wf heffect'
      hadmitted.seen_nodup ⟨rfl, rfl, rfl, rfl⟩ honly'.groups
    rw [Vault.queued_toWorld _ w']
    exact ⟨hsame.groups, hsame.memberships, hsame.kept, hsame.no_others⟩

/-- The batch that replaces the blocklist, and the same once more. -/
theorem batch_postcondition_replacing :
    (Service.decimal.handle (.replacing 9) .blocklist).2.records.rows.map
        (fun r => (r.target_address, r.is_locked, r.is_deleted)) =
        [("203.0.113.7", false, true), ("203.0.113.8", true, false), ("203.0.113.9", false, false),
          ("203.0.113.10", true, false), ("203.0.113.11", false, false)] ∧
      ∃ g summary, (Service.decimal.handle (.replacing 9) .blocklist).2.group_named "bans" = some g ∧
        (Service.decimal.handle (.replacing 9) .blocklist).1 =
          json (BatchRecordsResponse.to_json summary) ∧
        BatchDone .decimal .replacing g.id Vault.blocklist.toWorld
          (Service.decimal.handle (.replacing 9) .blocklist).2.toWorld summary ∧
        SameButTimes (Service.decimal.handle (.replacing 9) .blocklist).2.toWorld
          (Service.decimal.handle (.replacing 10)
            (Service.decimal.handle (.replacing 9) .blocklist).2).2.toWorld := by
  refine ⟨by decide +kernel, ?_⟩
  obtain ⟨g, summary, hg, hanswer, hdone, hagain⟩ :=
    batch_postcondition .decimal (.replacing 9) .blocklist .replacing rfl (by decide +kernel)
  exact ⟨g, summary, hg, hanswer, hdone, hagain (.replacing 10) rfl rfl (by decide +kernel)⟩

end IpVault
