import IpVault.Records.DeletionAuthority
import IpVault.Records.Spelling

set_option autoImplicit false

/-! # What a batch tells the firewalls

A firewall that listens to the webhooks acts on an event alone: what is announced as added or updated it
blocks, what is announced as deleted it lets through. The events of a batch are classified by whether
the membership is new. They say what became of the records exactly if no entry marks a record as deleted
that the batch may write to: such an entry is announced as an addition or an update.
-/

namespace IpVault

open Lib

namespace BatchTxn

variable {t : BatchTxn} {w w' : World}

/-! ## The events, one by one -/

/-- An event about the group of the batch. -/
def event (t : BatchTxn) (action address : String) (cause : Option String) : WebhookEvent where
  action := action
  address := address
  is_whitelist := t.group.group_type == "whitelist"
  group_id := some t.group.id
  group_name := some t.group.name
  cause := cause

theorem push_nil (hskip : t.skip_webhooks = false) (action address : String)
    (cause : Option String) : t.push action address cause [] = [t.event action address cause] := by
  unfold push
  rw [hskip]
  rfl

/-- The event of an entry that is not skipped. -/
def entry_event (t : BatchTxn) (w : World) (e : String × BatchRecordInput) : WebhookEvent :=
  t.event (if t.joins w e then "IP_ADD" else "IP_UPDATE") e.1 e.2.cause

/-- The event of a record that is swept away. -/
def sweep_event (t : BatchTxn) (r : IpRecord) : WebhookEvent :=
  t.event "IP_DELETE" r.target_address (some "Removed via batch full_replace synchronisation")

theorem entry_event_action (e : String × BatchRecordInput) :
    (t.entry_event w e).action = "IP_ADD" ∨ (t.entry_event w e).action = "IP_UPDATE" := by
  show (if t.joins w e then "IP_ADD" else "IP_UPDATE") = "IP_ADD" ∨
    (if t.joins w e then "IP_ADD" else "IP_UPDATE") = "IP_UPDATE"
  by_cases h : t.joins w e = true
  · rw [if_pos h]
    exact Or.inl rfl
  · rw [if_neg h]
    exact Or.inr rfl

/-- **The events of a batch**: one for each entry that is not skipped, and one for each record that is
swept away. -/
theorem events_eq (hskip : t.skip_webhooks = false) :
    t.events w = (t.normalized.filter (!skips w ·)).map (t.entry_event w) ++
      (t.swept w).map t.sweep_event := by
  have hentries : ∀ es : List (String × BatchRecordInput), es.flatMap (t.entry_events w) =
      (es.filter (!skips w ·)).map (t.entry_event w) := by
    intro es
    induction es with
    | nil => rfl
    | cons e es ih =>
        rw [List.flatMap_cons, ih]
        unfold entry_events
        by_cases h : skips w e = true
        · have hdrop : (e :: es).filter (!skips w ·) = es.filter (!skips w ·) := by
            rw [List.filter_cons, h]
            rfl
          rw [if_pos h, hdrop, List.nil_append]
        · have hkeep : (e :: es).filter (!skips w ·) = e :: es.filter (!skips w ·) := by
            rw [List.filter_cons, Bool.eq_false_iff.mpr h]
            rfl
          rw [if_neg h, hkeep, List.map_cons, push_nil hskip]
          rfl
  have hsweep : ∀ rs : List IpRecord, t.sweep_events rs = rs.map t.sweep_event := by
    intro rs
    unfold sweep_events
    rw [List.map_eq_flatMap]
    exact List.flatMap_congr fun r _ => push_nil hskip _ _ _
  unfold events
  rw [hentries, hsweep]

theorem mem_events (hskip : t.skip_webhooks = false) {x : WebhookEvent} :
    x ∈ t.events w ↔ (∃ e ∈ t.normalized, skips w e = false ∧ x = t.entry_event w e) ∨
      ∃ r ∈ t.swept w, x = t.sweep_event r := by
  rw [events_eq hskip, List.mem_append, List.mem_map, List.mem_map]
  refine or_congr ?_ (exists_congr fun r => and_congr_right fun _ => eq_comm)
  refine exists_congr fun e => ?_
  rw [List.mem_filter, Bool.not_eq_true', and_assoc]
  exact and_congr_right fun _ => and_congr_right fun _ => eq_comm

/-! ## Before and after -/

theorem mem_swept {r : IpRecord} : r ∈ t.swept w ↔ r ∈ w.records ∧ t.omits w r = true :=
  List.mem_filter

theorem skips_iff (hw : w.Wf) {e : String × BatchRecordInput} :
    skips w e = true ↔ ∃ r ∈ w.records, r.target_address = e.1 ∧ r.is_locked = true := by
  unfold skips
  rw [Option.any_eq_true]
  constructor
  · rintro ⟨r, hr, hl⟩
    obtain ⟨hmem, hadr⟩ := World.mem_of_record_at hr
    exact ⟨r, hmem, hadr, hl⟩
  · rintro ⟨r, hmem, hadr, hl⟩
    exact ⟨r, hw.record_at_eq_some.mpr ⟨hmem, hadr⟩, hl⟩

/-- Swept away is what was live, is deleted, and is not named. -/
theorem omits_iff_turned (h : t.Effect (t.outcome w) t.normalized w w') {r : IpRecord}
    (hr : r ∈ w.records) : t.omits w r = true ↔
      r.is_deleted = false ∧ (w'.records.find? r.id).any (·.is_deleted) = true ∧
        r.target_address ∉ t.seen := by
  have hfind : w'.records.find? r.id = some (t.outcome w r) := by
    have hkey := Table.find?_key (h.row r hr)
    rwa [outcome_id] at hkey
  rw [hfind]
  constructor
  · intro homit
    obtain ⟨-, -, hlive, -, hseen⟩ := omits_iff.mp homit
    refine ⟨hlive, ?_, hseen⟩
    show (t.outcome w r).is_deleted = true
    unfold outcome
    rw [if_pos homit, Txn.RecordChange.apply_is_deleted]
    rfl
  · rintro ⟨hlive, hdel, hseen⟩
    rcases outcome_buries hlive hdel with homit | ⟨-, e, he, hadr, -⟩
    · exact homit
    · exact absurd (hadr ▸ List.mem_map_of_mem he) hseen

/-- The record an entry leaves that is not skipped: it is in the group, and it is deleted exactly if the
entry marks it. -/
theorem Effect.written (h : t.Effect (t.outcome w) t.normalized w w')
    (hnodup : t.seen.Nodup) {e : String × BatchRecordInput} (he : e ∈ t.normalized)
    (hskip : skips w e = false) :
    ∃ r' ∈ w'.records, r'.target_address = e.1 ∧ w'.member r'.id t.group.id ∧
      (r'.is_deleted = true ↔ e.2.is_deleted = some true) := by
  have hseen : e.1 ∈ t.normalized.map Prod.fst := List.mem_map_of_mem he
  have member : ∀ r' ∈ w'.records, r'.target_address = e.1 → r'.is_locked = false →
      w'.member r'.id t.group.id := by
    intro r' hr' hadr hl
    exact ⟨⟨r'.id, t.group.id⟩, (h.members _).mpr (Or.inr ⟨rfl, r', hr', rfl, hl, hadr ▸ hseen⟩),
      rfl, rfl⟩
  cases hfound : w.record_at e.1 with
  | none =>
      obtain ⟨r', hr', hfresh⟩ := h.created e he hfound
      have hadr : r'.target_address = e.1 := by
        rw [hfresh]
        rfl
      have hl : r'.is_locked = false := by
        rw [hfresh]
        rfl
      refine ⟨r', hr', hadr, member r' hr' hadr hl, ?_⟩
      rw [hfresh]
      show e.2.is_deleted.getD false = true ↔ _
      cases e.2.is_deleted with
      | none => exact ⟨fun hf => (by cases hf), fun hf => (by cases hf)⟩
      | some d => exact ⟨fun hd => congrArg some hd, fun hd => Option.some.inj hd⟩
  | some r =>
      obtain ⟨hr, hadr⟩ := World.mem_of_record_at hfound
      have hl : r.is_locked = false := by
        unfold skips at hskip
        rw [hfound] at hskip
        exact hskip
      have hout := outcome_of_mem (w := w) hnodup he hadr hl
      have hadr' : (t.outcome w r).target_address = e.1 := by rw [outcome_address, hadr]
      have hl' : (t.outcome w r).is_locked = false := by rw [outcome_is_locked, hl]
      refine ⟨t.outcome w r, h.row r hr, hadr', member _ (h.row r hr) hadr' hl', ?_⟩
      rw [hout]
      constructor
      · intro hdel
        exact (change_buries hdel).1
      · intro hmark
        rw [Txn.RecordChange.apply_is_deleted, change, tombstone_of_marked hmark]

end BatchTxn

/-! ## Events and effects -/

/-- The address is that of a locked record. -/
def World.locked_at (w : World) (address : String) : Bool :=
  (w.record_at address).any (·.is_locked)

/-- The records that are live in `w` and soft-deleted in `w'`. -/
def World.turned_off (w w' : World) : List IpRecord :=
  w.records.rows.filter fun r => !r.is_deleted && (w'.records.find? r.id).any (·.is_deleted)

theorem World.mem_turned_off {w w' : World} {r : IpRecord} : r ∈ w.turned_off w' ↔
    r ∈ w.records ∧ r.is_deleted = false ∧ (w'.records.find? r.id).any (·.is_deleted) = true := by
  unfold turned_off
  rw [List.mem_filter, Bool.and_eq_true, Bool.not_eq_true', Table.mem_rows]

/-- **The events say what became of the records**, when a batch of these addresses into the group has led
from `w` to `w'`. -/
structure EventsMatch (addresses : List String) (group_id : Uuid) (w w' : World)
    (events : List WebhookEvent) : Prop where
  /-- One event for each address that is not skipped and for each record that is swept away. -/
  one_each : (events.map WebhookEvent.address).Perm
    (addresses.filter (!w.locked_at ·) ++
      ((w.turned_off w').filter (!addresses.contains ·.target_address)).map IpRecord.target_address)
  /-- What has been soft-deleted is announced as deleted, and as nothing else. -/
  deleted : ∀ r ∈ w.turned_off w',
    (∃ x ∈ events, x.address = r.target_address ∧ x.action = "IP_DELETE") ∧
      ∀ x ∈ events, x.address = r.target_address → x.action = "IP_DELETE"
  /-- What is announced as added or updated is live in the group. -/
  announced : ∀ x ∈ events, x.action = "IP_ADD" ∨ x.action = "IP_UPDATE" →
    ∃ r' ∈ w'.records, r'.target_address = x.address ∧ r'.is_deleted = false ∧
      w'.member r'.id group_id
  /-- Locked records are not announced. -/
  locked : ∀ r ∈ w.records, r.is_locked = true → ∀ x ∈ events, x.address ≠ r.target_address

namespace BatchTxn

variable {t : BatchTxn} {w w' : World} {events : List WebhookEvent}

theorem address_entry_event (e : String × BatchRecordInput) : (t.entry_event w e).address = e.1 :=
  rfl

/-- One event each. -/
theorem Effect.one_each (h : t.Effect (t.outcome w) t.normalized w w')
    (hskip : t.skip_webhooks = false) (hevents : events.Perm (t.events w)) :
    (events.map WebhookEvent.address).Perm
      (t.seen.filter (!w.locked_at ·) ++
        ((w.turned_off w').filter (!t.seen.contains ·.target_address)).map
          IpRecord.target_address) := by
  have hsubmitted : ((t.normalized.filter (!skips w ·)).map (t.entry_event w)).map
      WebhookEvent.address = t.seen.filter (!w.locked_at ·) := by
    unfold seen
    rw [List.map_map, List.filter_map]
    rfl
  have hswept : t.swept w = (w.turned_off w').filter (!t.seen.contains ·.target_address) := by
    unfold swept World.turned_off
    rw [List.filter_filter]
    refine List.filter_congr fun r hr => ?_
    rw [Bool.eq_iff_iff, omits_iff_turned h hr]
    simp only [Bool.and_eq_true, Bool.not_eq_true', List.contains_eq_mem, decide_eq_false_iff_not]
    tauto
  have haddress : ((t.swept w).map t.sweep_event).map WebhookEvent.address =
      (t.swept w).map IpRecord.target_address := by
    rw [List.map_map]
    rfl
  rw [← hswept, ← hsubmitted, ← haddress, ← List.map_append, ← events_eq hskip]
  exact hevents.map _

/-- **The events match the effects** if every entry that marks a record as deleted is skipped. -/
theorem Effect.events_match (hw : w.Wf) (h : t.Effect (t.outcome w) t.normalized w w')
    (hskip : t.skip_webhooks = false) (hnodup : t.seen.Nodup) (hevents : events.Perm (t.events w))
    (hmarks : ∀ e ∈ t.normalized, e.2.is_deleted = some true → skips w e = true) :
    EventsMatch t.seen t.group.id w w' events where
  one_each := h.one_each hskip hevents
  deleted r hr := by
    obtain ⟨hmem, hlive, hdel⟩ := World.mem_turned_off.mp hr
    have hfind : w'.records.find? r.id = some (t.outcome w r) := by
      have hkey := Table.find?_key (h.row r hmem)
      rwa [outcome_id] at hkey
    rw [hfind] at hdel
    have homit : t.omits w r = true := by
      rcases outcome_buries hlive hdel with homit | ⟨hl, e, he, hadr, hmark⟩
      · exact homit
      · -- an entry that marks the record is skipped, so that the record is locked
        obtain ⟨r₀, hr₀, hadr₀, hl₀⟩ := (skips_iff hw).mp (hmarks e he hmark)
        rw [hw.address_unique r₀ hr₀ r hmem (hadr₀.trans hadr), hl] at hl₀
        cases hl₀
    have hseen : r.target_address ∉ t.seen := (omits_iff.mp homit).2.2.2.2
    constructor
    · refine ⟨t.sweep_event r, hevents.mem_iff.mpr ((mem_events hskip).mpr (Or.inr ⟨r, ?_, rfl⟩)),
        rfl, rfl⟩
      exact mem_swept.mpr ⟨hmem, homit⟩
    · intro x hx hadr
      rcases (mem_events hskip).mp (hevents.mem_iff.mp hx) with ⟨e, he, -, rfl⟩ | ⟨r', -, rfl⟩
      · rw [address_entry_event] at hadr
        exact absurd (hadr ▸ List.mem_map_of_mem he) hseen
      · rfl
  announced x hx haction := by
    rcases (mem_events hskip).mp (hevents.mem_iff.mp hx) with ⟨e, he, hacts, rfl⟩ | ⟨r, -, rfl⟩
    · obtain ⟨r', hr', hadr, hmember, hdel⟩ := h.written hnodup he hacts
      refine ⟨r', hr', hadr, ?_, hmember⟩
      rw [Bool.eq_false_iff]
      intro hf
      have hskipped := hmarks e he (hdel.mp hf)
      rw [hacts] at hskipped
      cases hskipped
    · have haction' : (t.sweep_event r).action = "IP_DELETE" := rfl
      rw [haction'] at haction
      exact absurd haction (by decide)
  locked r hr hl x hx := by
    rcases (mem_events hskip).mp (hevents.mem_iff.mp hx) with ⟨e, he, hacts, rfl⟩ | ⟨r', hr', rfl⟩
    · intro hadr
      have hskipped : skips w e = true := (skips_iff hw).mpr ⟨r, hr, hadr.symm, hl⟩
      rw [hacts] at hskipped
      cases hskipped
    · intro hadr
      obtain ⟨hmem', homit⟩ := mem_swept.mp hr'
      have hunlocked := (omits_iff.mp homit).2.2.2.1
      rw [hw.address_unique r' hmem' r hr hadr, hl] at hunlocked
      cases hunlocked

/-- An entry that marks a record it writes to is announced as added or updated. -/
theorem Effect.marks_skipped (hw' : w'.Wf) (h : t.Effect (t.outcome w) t.normalized w w')
    (hskip : t.skip_webhooks = false) (hnodup : t.seen.Nodup) (hevents : events.Perm (t.events w))
    (hmatch : EventsMatch t.seen t.group.id w w' events) :
    ∀ e ∈ t.normalized, e.2.is_deleted = some true → skips w e = true := by
  intro e he hmark
  by_contra hacts
  have hacts : skips w e = false := Bool.eq_false_iff.mpr hacts
  have hx : t.entry_event w e ∈ events :=
    hevents.mem_iff.mpr ((mem_events hskip).mpr (Or.inl ⟨e, he, hacts, rfl⟩))
  obtain ⟨r, hr, hadr, hlive, -⟩ := hmatch.announced _ hx (entry_event_action e)
  obtain ⟨r', hr', hadr', -, hdel⟩ := h.written hnodup he hacts
  have hsame : r = r' := hw'.address_unique r hr r' hr' (hadr.trans hadr'.symm)
  rw [hsame, hdel.mpr hmark] at hlive
  cases hlive

end BatchTxn

/-! ## A request -/

/-- The canonical addresses of a batch. -/
def BatchRecordsPayload.addresses (payload : BatchRecordsPayload) (env : Env) : List String :=
  payload.records.map fun r => normalize_ip_or_cidr env r.target_address

/-- Every entry that marks a record as deleted names a locked one. -/
def BatchRecordsPayload.MarksLocked (payload : BatchRecordsPayload) (env : Env) (w : World) : Prop :=
  ∀ e ∈ payload.records, e.is_deleted = some true →
    w.locked_at (normalize_ip_or_cidr env e.target_address) = true

/-- **Batch events, exactly.** A batch that is carried out without `skip_webhooks` hands its events to
the queue, which drops those it has no room for. They say what became of the records if and only if
every entry that marks a record as deleted names a locked one. -/
theorem batch_events_match_iff (S : Service) (req : Request) (v : Vault)
    (payload : BatchRecordsPayload) (hcall : req.call = .batch_records payload)
    (hsucceeds : S.Succeeds req v) (hwebhooks : payload.skip_webhooks.getD false = false) :
    (S.handle req v).2.queue =
        v.queue ++ (S.handed req v).take (v.queue_capacity - v.queue.length) ∧
      ((∃ g, (S.handle req v).2.group_named payload.group_name = some g ∧
          EventsMatch (payload.addresses S.env) g.id v.toWorld (S.handle req v).2.toWorld
            (S.handed req v)) ↔
        payload.MarksLocked S.env v.toWorld) := by
  obtain ⟨key, group, normalized, w, -, hadmitted, hran, hhandle⟩ :=
    Service.batch_carried_out hcall hsucceeds
  have hnormalized : normalized = payload.records.map fun r =>
      (normalize_ip_or_cidr S.env r.target_address, r) :=
    (normalize_entries_ok hadmitted.entries (by simp)).1
  have hseen : (batch_transaction (S.ctx req key) payload group normalized).seen =
      payload.addresses S.env := by
    show normalized.map Prod.fst = _
    rw [hnormalized, List.map_map]
    rfl
  have hnodup := hadmitted.seen_nodup
  have hbase := (batch_base_records (S.ctx req key) payload v).1
  have honly := hran.only_records
  -- what is said of the store the transaction begins in is said of the one before the request
  have hafter : ∀ w₀ : World, w₀.records = v.records →
      (EventsMatch (payload.addresses S.env) group.id w₀ w.toWorld (S.handed req v) ↔
        EventsMatch (payload.addresses S.env) group.id v.toWorld
          (w.queued (S.handed req v)).toWorld (S.handed req v)) := by
    intro w₀ hrecords
    have hat : w₀.locked_at = v.locked_at := by
      funext address
      unfold World.locked_at World.record_at
      rw [hrecords]
    have hqueued := Vault.queued_toWorld (S.handed req v) w
    have hturned : w₀.turned_off w.toWorld =
        v.turned_off (w.queued (S.handed req v)).toWorld := by
      unfold World.turned_off
      rw [hrecords, hqueued]
    constructor
    · intro h
      refine ⟨?_, ?_, ?_, ?_⟩
      · rw [← hturned, ← hat]
        exact h.one_each
      · rw [← hturned]
        exact h.deleted
      · rw [hqueued]
        exact h.announced
      · rw [← hrecords]
        exact h.locked
    · intro h
      refine ⟨?_, ?_, ?_, ?_⟩
      · rw [hturned, hat]
        exact h.one_each
      · rw [hturned]
        exact h.deleted
      · have hannounced := h.announced
        rw [hqueued] at hannounced
        exact hannounced
      · rw [hrecords]
        exact h.locked
  have hmarks : (∀ e ∈ normalized, e.2.is_deleted = some true →
      BatchTxn.skips (batch_base (S.ctx req key) payload v).toWorld e = true) ↔
        payload.MarksLocked S.env v.toWorld := by
    unfold BatchTxn.skips World.record_at BatchRecordsPayload.MarksLocked World.locked_at
    rw [hbase, hnormalized]
    constructor
    · intro h e he
      exact h _ (List.mem_map_of_mem he)
    · intro h e he
      obtain ⟨r, hr, rfl⟩ := List.mem_map.mp he
      exact h r hr
  rw [hhandle]
  refine ⟨?_, ?_⟩
  · show (w.queued (S.handed req v)).queue = _
    rw [Vault.queued_toWorld]
    show w.queue ++ _ = _
    rw [honly.queue, honly.queue_capacity, (batch_base_queue _ _ _).1,
      (batch_base_queue _ _ _).2]
  · have hgroup : (w.queued (S.handed req v)).group_named payload.group_name = some group := by
      refine (Vault.wf _).group_named_eq_some.mpr ⟨?_, hadmitted.group_name⟩
      rw [Vault.queued_toWorld]
      show group ∈ w.groups
      rw [honly.groups]
      exact hadmitted.group_in_base
    rw [← hmarks]
    constructor
    · rintro ⟨g, hg, hmatch⟩
      obtain rfl : group = g := Option.some.inj (hgroup.symm.trans hg)
      have hmatch := (hafter _ hbase).mpr hmatch
      rw [← hseen] at hmatch
      exact hran.effect.marks_skipped w.wf hwebhooks hnodup hran.events hmatch
    · intro h
      refine ⟨group, hgroup, (hafter _ hbase).mp ?_⟩
      rw [← hseen]
      exact hran.effect.events_match (batch_base (S.ctx req key) payload v).wf hwebhooks hnodup
        hran.events h

/-! ## A batch that marks -/

/-- The sensor marks the record it has banned as deleted. -/
def Request.marks : Request := .sample 1 9 .marking

/-- The payload of that batch. -/
def BatchRecordsPayload.marking : BatchRecordsPayload where
  group_name := "bans"
  records := [{ target_address := "203.0.113.7", is_deleted := some true }]

/-- `Service.sample`, with addresses in decimal. -/
def Service.decimal : Service := ⟨.decimal, 0⟩

/-- The sensor has banned four addresses, the master has soft-deleted the third of them, and somebody has
locked the second and the fourth. -/
def Vault.blocklist : Vault :=
  ((final Service.decimal.handle
    [.sample 1 3 (.handle_ban { target_address := "203.0.113.7", group_name := some "bans" }),
      .sample 1 4 (.handle_ban { target_address := "203.0.113.8", group_name := some "bans" }),
      .sample 1 5 (.handle_ban { target_address := "203.0.113.9", group_name := some "bans" }),
      .sample 1 6 (.handle_ban { target_address := "203.0.113.10", group_name := some "bans" }),
      .sample 0 7 (.delete_ip_record 5 none)] .sample).lock 4).lock 6

/-- A batch that leaves the first two out, restores the third, marks the fourth and bans another one. -/
def BatchRecordsPayload.replacing : BatchRecordsPayload where
  group_name := "bans"
  mode := .FullReplace
  records := [{ target_address := "203.0.113.9" },
    { target_address := "203.0.113.10", is_deleted := some true }, { target_address := "203.0.113.11" }]

/-- The master sends it. -/
def Request.replacing (now : Int) : Request := .sample 0 now (.batch_records .replacing)

/-- The locked ones stay as they are, and nobody is told of them. -/
theorem batch_events_match_iff_replacing :
    (Service.decimal.handed (.replacing 9) .blocklist).map (fun x => (x.action, x.address)) =
        [("IP_UPDATE", "203.0.113.9"), ("IP_ADD", "203.0.113.11"), ("IP_DELETE", "203.0.113.7")] ∧
      ∃ g, (Service.decimal.handle (.replacing 9) .blocklist).2.group_named "bans" = some g ∧
        EventsMatch (BatchRecordsPayload.replacing.addresses .decimal) g.id Vault.blocklist.toWorld
          (Service.decimal.handle (.replacing 9) .blocklist).2.toWorld
          (Service.decimal.handed (.replacing 9) .blocklist) := by
  refine ⟨by decide +kernel, ?_⟩
  refine (batch_events_match_iff .decimal (.replacing 9) .blocklist .replacing rfl
    (by decide +kernel) rfl).2.mpr fun e he hmark => ?_
  simp only [BatchRecordsPayload.replacing, List.mem_cons, List.not_mem_nil, or_false] at he
  rcases he with rfl | rfl | rfl
  · cases hmark
  · decide +kernel
  · cases hmark

/-- The record is soft-deleted, and the firewalls are told that it has been updated. -/
theorem soft_deletion_announced_as_update :
    Service.sample.Succeeds .marks .banned ∧
      (Service.sample.handle .marks .banned).2.queue.map (fun x => (x.action, x.address)) =
        [("IP_ADD", "203.0.113.7"), ("IP_UPDATE", "203.0.113.7")] ∧
      (Vault.banned.turned_off (Service.sample.handle .marks .banned).2.toWorld).map
        IpRecord.target_address = ["203.0.113.7"] ∧
      ¬ ∃ g, (Service.sample.handle .marks .banned).2.group_named "bans" = some g ∧
        EventsMatch (BatchRecordsPayload.marking.addresses Service.sample.env) g.id
          Vault.banned.toWorld (Service.sample.handle .marks .banned).2.toWorld
          (Service.sample.handed .marks .banned) := by
  refine ⟨by decide, by decide, by decide, ?_⟩
  rintro ⟨g, -, hmatch⟩
  have hturned : (Vault.banned.turned_off (Service.sample.handle .marks .banned).2.toWorld) =
      [{ id := 3, target_address := "203.0.113.7", cause := none, is_locked := false
         created_at := 7, updated_at := 7, last_seen_at := 7, is_deleted := false
         deleted_at := none, deleted_by := none }] := by decide
  have hmem := hmatch.deleted _ (by rw [hturned]; exact List.mem_singleton_self _)
  obtain ⟨x, hx, -, haction⟩ := hmem.1
  have hnone : ∀ x ∈ Service.sample.handed .marks .banned, x.action ≠ "IP_DELETE" := by decide
  exact hnone x hx haction

end IpVault
