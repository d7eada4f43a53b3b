import IpVault.Records.Locked

set_option autoImplicit false

/-! # How long a soft-deleted record is kept

The purge goes by the column `deleted_at`. A run of the service carries along, for each record, the
server time of the request that soft-deleted it (`Burials`); the column may not be earlier than
that. It is, if a batch says so: an entry that marks a record as deleted brings its own
`deleted_at`. And the purge compares texts, so that the years must have four digits.
-/

namespace IpVault

open Lib

/-- When each record that is soft-deleted was, as far as the run has seen it. -/
abbrev Burials := Uuid → Option Int

namespace Burials

variable (b : Burials) (now : Int)

/-- The burial time of a record that is soft-deleted after an event at `now`, from the row it had
before the event. -/
def due : Option IpRecord → Option Int
  | some r => if r.is_deleted then b r.id else some now
  | none => some now

/-- The burial times after an event at `now` that led from `w` to `w'`. -/
def next (w w' : World) : Burials := fun id =>
  match w'.records.find? id with
  | some r' => if r'.is_deleted then b.due now (w.records.find? id) else none
  | none => none

/-- No record is marked as deleted before it was. -/
def Sound (w : World) : Prop :=
  ∀ r ∈ w.records, r.is_deleted = true → ∀ s, b r.id = some s →
    ∃ d, r.deleted_at = some d ∧ s ≤ d ∧ Calendar.FourDigits d

variable {b now} {w w' : World}

theorem next_of_mem {r' : IpRecord} (hr' : r' ∈ w'.records) (hdel : r'.is_deleted = true) :
    b.next now w w' r'.id = b.due now (w.records.find? r'.id) := by
  simp [next, Table.find?_key hr', hdel]

/-- Burial times are times of the run. -/
theorem next_le {clock : Int} (hb : ∀ id s, b id = some s → s ≤ clock) (hnow : now ≤ clock)
    {id : Uuid} {s : Int} (hs : b.next now w w' id = some s) : s ≤ clock := by
  have bound : ∀ found, b.due now found = some s → s ≤ clock := by
    intro found hdue
    cases found with
    | none => exact Option.some.inj hdue ▸ hnow
    | some r =>
        simp only [due] at hdue
        split at hdue
        · exact hb _ _ hdue
        · exact Option.some.inj hdue ▸ hnow
  unfold next at hs
  split at hs
  · split at hs
    · exact bound _ hs
    · cases hs
  · cases hs

end Burials

/-- What an entry of a batch says about the deletion of the record `found`: not before the request
that soft-deleted it, which is this one if the record is live or new, and in a year of four digits. A
locked record is skipped. -/
def BatchRecordInput.Dated (input : BatchRecordInput) (b : Burials) (now : Int)
    (found : Option IpRecord) : Prop :=
  input.is_deleted = some true → (∀ r, found = some r → r.is_locked = false) →
    ∀ d, input.deleted_at = some d → ∀ s, b.due now found = some s → s ≤ d ∧ Calendar.FourDigits d

namespace Service

variable (S : Service)

/-- A run of the service, with the burial times. -/
def watch (e : Event) (st : Vault × Burials) : Option Response × (Vault × Burials) :=
  ((S.step e st.1).1,
    ((S.step e st.1).2, st.2.next e.now st.1.toWorld (S.step e st.1).2.toWorld))

/-- The event removes no record that was not soft-deleted a retention window ago. -/
def NoneTooEarly (e : Event) (st : Vault × Burials) : Prop :=
  ∀ r ∈ st.1.records, (S.step e st.1).2.records.has r.id = false →
    r.is_deleted = true ∧
      ∀ s, st.2 r.id = some s → s + S.env.retention_days * day ≤ e.now

/-- The event is a sweep, or a request of an ordinary key. -/
def Ordinary : Event → Vault → Prop
  | .request req, v => S.NonMaster req v
  | .sweep _, _ => True

/-- Every entry of an admitted batch that marks a record as deleted is dated. -/
def MarksDated : Event → Vault × Burials → Prop
  | .request req, (v, b) => ∀ key, v.keys.find? req.key_id = some key →
      ∀ payload group normalized, req.call = .batch_records payload →
        BatchAdmitted (S.ctx req key) payload v.toWorld group normalized →
        ∀ e ∈ normalized, e.2.Dated b req.now (v.record_at e.1)
  | .sweep _, _ => True

end Service

/-! ## Requests -/

section Request

variable {ctx : Ctx} {call : Call} {start w : Vault} {l : Stmt} {b : Burials}

/-- No record is marked as deleted before it was, in the middle of a request that began in
`start`. -/
def Burials.SoundSince (b : Burials) (now : Int) (start w : World) : Prop :=
  ∀ r ∈ w.records, r.is_deleted = true → ∀ s, b.due now (start.records.find? r.id) = some s →
    ∃ d, r.deleted_at = some d ∧ s ≤ d ∧ Calendar.FourDigits d

theorem Burials.Sound.since (h : b.Sound start.toWorld) (now : Int) :
    b.SoundSince now start.toWorld start.toWorld := by
  intro r hr hdel s hs
  rw [Table.find?_key hr, due, if_pos hdel] at hs
  exact h r hr hdel s hs

theorem Burials.SoundSince.sound {now : Int} {w w' : World} (h : b.SoundSince now w w') :
    (b.next now w w').Sound w' := by
  intro r hr hdel s hs
  rw [Burials.next_of_mem hr hdel] at hs
  exact h r hr hdel s hs

/-- Every batch a caller may issue is dated if the payload is. -/
theorem Permits.marks_dated (hl : Permits ctx call start l w)
    (hdated : ∀ payload group normalized, call = .batch_records payload →
      BatchAdmitted ctx payload start.toWorld group normalized →
      ∀ e ∈ normalized, e.2.Dated b ctx.now (start.record_at e.1)) :
    ∀ t, l.as_batch = some t → t.now = ctx.now ∧ Permits.records_untouched start w ∧
      ∀ e ∈ t.normalized, e.2.Dated b ctx.now (start.record_at e.1) := by
  intro t ht
  cases l with
  | upsert_txn u =>
      cases ht
      obtain ⟨huntouched, payload, is_whitelist, group, -, -, rfl⟩ := hl
      refine ⟨rfl, huntouched, fun e he hmark => ?_⟩
      obtain rfl := List.mem_singleton.mp he
      cases hmark
  | batch_txn u =>
      cases ht
      obtain ⟨huntouched, -, payload, group, normalized, hcall, hadmitted, -, rfl⟩ := hl
      exact ⟨rfl, huntouched, hdated payload group normalized hcall hadmitted⟩
  | _ => cases ht

/-- **One write** marks no record as deleted before it was. -/
theorem Burials.SoundSince.after (h : b.SoundSince ctx.now start.toWorld w.toWorld)
    (hclock : ∀ id s, b id = some s → s ≤ ctx.now) (hyear : Calendar.FourDigits ctx.now)
    (hl : Permits ctx call start l w)
    (hdated : ∀ payload group normalized, call = .batch_records payload →
      BatchAdmitted ctx payload start.toWorld group normalized →
      ∀ e ∈ normalized, e.2.Dated b ctx.now (start.record_at e.1)) :
    b.SoundSince ctx.now start.toWorld (w.after l).toWorld := by
  -- A record buried by this very request.
  have here : ∀ found s, b.due ctx.now found = some s → s ≤ ctx.now := by
    intro found s hs
    cases found with
    | none => exact (Option.some.inj hs).ge
    | some r =>
        simp only [due] at hs
        split at hs
        · exact hclock _ _ hs
        · exact (Option.some.inj hs).ge
  intro r' hr' hdel s hs
  rcases Stmt.mem_records_after w.wf hl.seen_nodup hr' with
    hold | ⟨id, c, r, rfl, hr, hid, rfl⟩ | ⟨t, ht, hout⟩
  · exact h r' hold hdel s hs
  · obtain ⟨rfl, r₀, -, -, ⟨-, -, -, rfl⟩ | ⟨-, -, -, rfl, -⟩⟩ := hl
    · rw [Txn.RecordChange.apply_is_deleted] at hdel
      cases hdel
    · exact ⟨ctx.now, Txn.RecordChange.apply_deleted_at _ r, here _ s hs, hyear⟩
  · obtain ⟨hnow, ⟨hrecords, -⟩, hdated⟩ := hl.marks_dated hdated t ht
    -- The date an entry gives, or the time of the request.
    have marked : ∀ e ∈ t.normalized, ∀ found, start.record_at e.1 = found →
        (∀ r, found = some r → r.is_locked = false) → e.2.is_deleted = some true →
        b.due ctx.now found = some s → s ≤ e.2.deleted_at.getD t.now ∧
          Calendar.FourDigits (e.2.deleted_at.getD t.now) := by
      intro e he found hfound hlock hmark hs
      cases hdate : e.2.deleted_at with
      | none => exact hnow ▸ ⟨here found s hs, hyear⟩
      | some d => exact hdated e he hmark (hfound ▸ hlock) d hdate s (hfound ▸ hs)
    rcases hout with ⟨r, hr, rfl⟩ | ⟨e, he, hnone, hnew, hfresh⟩
    · rcases t.outcome_cases w.toWorld r with hsame | ⟨-, hsweep⟩ | ⟨hl, e, he, hadr, hchange⟩
      · exact h _ (by rwa [hsame]) hdel s hs
      · refine ⟨t.now, ?_, hnow ▸ ⟨here _ s hs, hyear⟩⟩
        rw [hsweep, Txn.RecordChange.apply_deleted_at]
        rfl
      · rw [hchange] at hdel ⊢
        obtain ⟨hmark, hdate⟩ := BatchTxn.change_buries hdel
        have hr₀ : r ∈ start.records := hrecords ▸ hr
        have hfound := start.wf.record_at_eq_some.mpr ⟨hr₀, hadr.symm⟩
        rw [BatchTxn.outcome_id, Table.find?_key hr₀] at hs
        exact ⟨_, hdate, marked e he _ hfound (fun r' h => Option.some.inj h ▸ hl) hmark hs⟩
    · have habsent : start.records.find? r'.id = none := by
        refine Table.find?_eq_none.mpr fun r hr hid => ?_
        exact absurd (w.wf.record_fresh r (hrecords ▸ hr)) (Nat.not_lt.mpr (hid ▸ hnew))
      rw [habsent] at hs
      rw [World.record_at, hrecords] at hnone
      have hmark : e.2.is_deleted = some true := by
        rw [hfresh] at hdel
        cases hd : e.2.is_deleted with
        | none => simp [BatchTxn.fresh_record, hd] at hdel
        | some d => simpa [BatchTxn.fresh_record, hd] using hdel
      refine ⟨e.2.deleted_at.getD t.now, ?_,
        marked e he none hnone (fun _ h => nomatch h) hmark hs⟩
      rw [hfresh]
      simp [BatchTxn.fresh_record, hmark]

/-- An ordinary key removes no record. -/
theorem Permits.records_kept (hl : Permits ctx call start l w) (hm : ctx.key.is_master = false)
    {id : Uuid} (hid : w.records.has id = true) : (w.after l).records.has id = true := by
  obtain ⟨r, hr, rfl⟩ := Table.has_iff.mp hid
  rw [Table.has_iff]
  rcases Stmt.record_after w.wf hl.seen_nodup hr with
    h | ⟨c, -, h⟩ | ⟨b, -, h⟩ | rfl | ⟨threshold, rfl, -⟩
  · exact ⟨r, h, rfl⟩
  · exact ⟨_, h, Txn.RecordChange.apply_id c r⟩
  · exact ⟨_, h, BatchTxn.outcome_id r⟩
  · exact nomatch hm.symm.trans hl.2.1
  · exact nomatch hm.symm.trans hl.2.1

end Request

/-! ## Runs -/

namespace Service

variable {S : Service} {v : Vault} {b : Burials}

/-- One request of an ordinary key. -/
theorem request_step {req : Request} (hb : b.Sound v.toWorld)
    (hclock : ∀ id s, b id = some s → s ≤ req.now) (hyear : Calendar.FourDigits req.now)
    (ordinary : S.NonMaster req v) (hdated : S.MarksDated (.request req) (v, b)) :
    S.NoneTooEarly (.request req) (v, b) ∧
      (b.next req.now v.toWorld (S.handle req v).2.toWorld).Sound (S.handle req v).2.toWorld := by
  have hkey : ∀ key ∈ v.keys, key.id = req.key_id → v.keys.find? req.key_id = some key :=
    fun key hkey hid => hid ▸ Table.find?_key hkey
  constructor
  · intro r hr hgone
    have hkept : (S.handle req v).2.records.has r.id = true := by
      refine S.handle_keeps req v (I := fun w => w.records.has r.id = true)
        (Table.has_iff.mpr ⟨r, hr, rfl⟩) fun key hmem hid l w hl hw => ?_
      exact hl.records_kept (ordinary key (hkey key hmem hid)) hw
    cases hgone.symm.trans hkept
  · refine Burials.SoundSince.sound ?_
    refine S.handle_keeps req v (I := fun w => b.SoundSince req.now v.toWorld w.toWorld)
      (hb.since req.now) fun key hmem hid l w hl hw => ?_
    have sound : b.SoundSince (S.ctx req key).now v.toWorld w.toWorld := hw
    exact sound.after hclock hyear hl (hdated key (hkey key hmem hid))

/-- What a sweep removes was soft-deleted before its threshold. -/
theorem swept_expired {now : Int} {r : IpRecord} (hr : r ∈ v.records)
    (hgone : (S.sweep now v).records.has r.id = false) :
    0 < S.env.retention_days ∧ Txn.expired (now - S.env.retention_days * day) r = true := by
  by_contra hnot
  have hkept : r ∈ (S.sweep now v).records := by
    rw [sweep_records]
    split
    · exact hr
    · rename_i hpos
      refine Table.mem_filter.mpr ⟨hr, ?_⟩
      by_contra he
      exact hnot ⟨by omega, by simpa using he⟩
  cases hgone.symm.trans (Table.has_iff.mpr ⟨r, hkept, rfl⟩)

/-- One sweep. -/
theorem sweep_step {now : Int} (hb : b.Sound v.toWorld) (hyear : Calendar.FourDigits now) :
    S.NoneTooEarly (.sweep now) (v, b) ∧
      (b.next now v.toWorld (S.sweep now v).toWorld).Sound (S.sweep now v).toWorld := by
  constructor
  · intro r hr hgone
    obtain ⟨hpos, hexpired⟩ := swept_expired hr hgone
    obtain ⟨hdel, hold⟩ : r.is_deleted = true ∧
        r.deleted_at.any (Calendar.before · (now - S.env.retention_days * day)) = true := by
      simpa [Txn.expired] using hexpired
    refine ⟨hdel, fun s hs => ?_⟩
    obtain ⟨d, hd, hle, hdigits⟩ := hb r hr hdel s hs
    have hwindow : 0 ≤ S.env.retention_days * day := Int.mul_nonneg hpos.le (by decide)
    have hthreshold : Calendar.year (now - S.env.retention_days * day) ≤ 9999 :=
      (Calendar.year_mono (by omega)).trans hyear.2
    -- The texts of the two dates are in the order of time.
    have hlt : d < now - S.env.retention_days * day := by
      rw [hd] at hold
      exact (Calendar.before_iff hdigits hthreshold).mp hold
    show s + S.env.retention_days * day ≤ now
    omega
  · intro r hr hdel s hs
    have hr₀ : r ∈ v.records := by
      have hr' : r ∈ (S.sweep now v).records := hr
      rw [sweep_records] at hr'
      split at hr'
      · exact hr'
      · exact (Table.mem_filter.mp hr').1
    rw [Burials.next_of_mem hr hdel, Table.find?_key hr₀, Burials.due, if_pos hdel] at hs
    exact hb r hr₀ hdel s hs

/-- **One step.** -/
theorem watch_step {e : Event} (hb : b.Sound v.toWorld)
    (hclock : ∀ id s, b id = some s → s ≤ e.now) (hyear : Calendar.FourDigits e.now)
    (ordinary : S.Ordinary e v) (hdated : S.MarksDated e (v, b)) :
    S.NoneTooEarly e (v, b) ∧ (S.watch e (v, b)).2.2.Sound (S.watch e (v, b)).2.1.toWorld := by
  cases e with
  | request req => exact request_step hb hclock hyear ordinary hdated
  | sweep now => exact sweep_step hb hyear

end Service

theorem none_too_early_from {S : Service} {run : List Service.Event} {v : Vault} {b : Burials}
    (clock : (run.map Service.Event.now).Pairwise (· ≤ ·))
    (years : ∀ e ∈ run, Calendar.FourDigits e.now) (hb : b.Sound v.toWorld)
    (hpast : ∀ id s, b id = some s → ∀ e ∈ run, s ≤ e.now)
    (h : Along S.watch (fun e st => S.Ordinary e st.1 ∧ S.MarksDated e st) run (v, b)) :
    Along S.watch S.NoneTooEarly run (v, b) := by
  induction run generalizing v b with
  | nil => trivial
  | cons e run ih =>
      obtain ⟨⟨ordinary, hdated⟩, hrest⟩ := h
      rw [List.map_cons, List.pairwise_cons] at clock
      obtain ⟨hnow, hsound⟩ := Service.watch_step hb
        (fun id s hs => hpast id s hs e List.mem_cons_self) (years e List.mem_cons_self) ordinary hdated
      refine ⟨hnow, ih clock.2 (fun e' he' => years e' (List.mem_cons_of_mem e he')) hsound
        (fun id s hs e' he' => ?_) hrest⟩
      exact Burials.next_le (fun id s hs => hpast id s hs e' (List.mem_cons_of_mem e he'))
        (clock.1 _ (List.mem_map_of_mem he')) hs

/-- **No early destruction.** In a run of requests by ordinary keys and of sweeps, on a clock that
never goes back, in years of four digits and with every mark of a batch dated, no record is removed
before a retention window has passed since the request that soft-deleted it. -/
theorem none_too_early (S : Service) (run : List Service.Event) (v : Vault)
    (clock : (run.map Service.Event.now).Pairwise (· ≤ ·))
    (years : ∀ e ∈ run, Calendar.FourDigits e.now)
    (h : Along S.watch (fun e st => S.Ordinary e st.1 ∧ S.MarksDated e st) run
      (v, fun _ => none)) :
    Along S.watch S.NoneTooEarly run (v, fun _ => none) :=
  none_too_early_from clock years (fun _ _ _ _ hs => nomatch hs) (fun _ _ hs => nomatch hs) h

/-! ## A batch that backdates -/

/-- The sensor bans an address, and a batch of its marks the record as deleted. Then comes a
sweep. -/
def Service.marking_run (deleted_at : Option Int) : List Service.Event :=
  [.request (.sample 1 7 (.handle_ban
      { target_address := "203.0.113.7", group_name := some "bans" })),
    .request (.sample 1 9 (.batch_records
      { group_name := "bans"
        records := [{ target_address := "203.0.113.7", is_deleted := some true, deleted_at }] })),
    .sweep 10]

theorem Service.marking_run_ordinary (deleted_at : Option Int) :
    Service.sample.NonMaster (.sample 1 7 (.handle_ban
      { target_address := "203.0.113.7", group_name := some "bans" })) .sample ∧
    Service.sample.NonMaster (.sample 1 9 (.batch_records
      { group_name := "bans"
        records := [{ target_address := "203.0.113.7", is_deleted := some true, deleted_at }] }))
      (Service.sample.handle (.sample 1 7 (.handle_ban
        { target_address := "203.0.113.7", group_name := some "bans" })) .sample).2 := by
  constructor
  · decide
  · show Service.sample.NonMaster (.sample 1 9 (.rejected .NotFound)) _
    decide

/-- Without a date of its own, the mark is dated. -/
theorem none_too_early_undated : Along Service.sample.watch Service.sample.NoneTooEarly
    (Service.marking_run none) (.sample, fun _ => none) := by
  obtain ⟨hban, hbatch⟩ := Service.marking_run_ordinary none
  refine none_too_early .sample _ .sample (by decide) (by decide) ⟨⟨hban, ?_⟩, ⟨hbatch, ?_⟩, ⟨trivial, trivial⟩,
    trivial⟩
  · intro key _ payload group normalized hcall
    cases hcall
  · intro key _ payload group normalized hcall hadmitted e he _ _ d hd
    cases hcall
    rw [(normalize_entries_ok hadmitted.entries (by simp)).1] at he
    obtain rfl := List.mem_singleton.mp he
    cases hd

/-- The next sweep removes it. -/
theorem swept_at_once :
    ¬ ∀ (S : Service) (run : List Service.Event) (v : Vault), 0 < S.env.retention_days →
      (run.map Service.Event.now).Pairwise (· ≤ ·) → (∀ e ∈ run, Calendar.FourDigits e.now) →
      Along S.watch (fun e st => S.Ordinary e st.1) run (v, fun _ => none) →
      Along S.watch S.NoneTooEarly run (v, fun _ => none) := by
  intro h
  obtain ⟨hban, hbatch⟩ := Service.marking_run_ordinary (some (9 - 365 * day))
  obtain ⟨-, -, hsweep, -⟩ := h .sample (Service.marking_run (some (9 - 365 * day))) .sample
    (by decide) (by decide) (by decide) ⟨hban, hbatch, trivial, trivial⟩
  have := (hsweep
    { id := 3, target_address := "203.0.113.7", cause := none, is_locked := false, created_at := 7
      updated_at := 9, last_seen_at := 9, is_deleted := true, deleted_at := some (9 - 365 * day)
      deleted_by := some (Uuid.to_string 1) } (by decide) (by decide)).2 9 (by decide)
  exact absurd this (by decide)

end IpVault
