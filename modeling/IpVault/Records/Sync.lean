import IpVault.Access.Footprint
import IpVault.Lib.Delta
import IpVault.Records.Pages
import IpVault.Records.Retention

set_option autoImplicit false

/-! # Differential sync

A poller keeps a copy of the live addresses of a group. It starts from the listing, and at each later
poll it asks for what has changed since the previous one: rows last seen since then, and rows deleted
since then. What a poll misses it never learns.

`sync_complete` says which requests a copy survives. A row that leaves the group is never told of, and
neither is a row that is restored but was not seen again: the requests must take away, or bring back,
nothing on which the copy would then be wrong.
-/

namespace IpVault

open Lib

/-! ## The poller -/

/-- A poller: what its requests are given, and the group it copies. -/
structure Poller where
  env : Env
  caller : Caller
  entropy : Entropy
  group : IpGroup

/-- The instant of a poll in whole seconds, rounded down. -/
def since_of (polled : Int) : Int := clock_seconds polled

/-- The store, the addresses the poller holds, and when it polled last. -/
structure SyncState where
  vault : Vault
  held : Finset String
  polled : Int

/-- The threshold of the next poll: the instant of the last one in whole seconds, rounded down. -/
def SyncState.since (s : SyncState) : Int := seconds (since_of s.polled)

/-- A request to the service, or a poll. -/
inductive SyncEvent where
  | request (req : Request)
  | poll (now : Int) (order : RowOrder) (limit : Nat)

def SyncEvent.now : SyncEvent → Int
  | request req => req.now
  | poll now _ _ => now

/-- The first request: the live listing. -/
def full_request (limit : Nat) : QueryFilters := { limit := some limit }

/-- A later request: what has changed since the second of the previous poll. -/
def delta_request (polled : Int) (limit : Nat) : QueryFilters where
  since := some (since_of polled)
  include_deleted := some true
  limit := some limit

/-- A poll from the threshold on is told of the record, should it be a member. -/
def IpRecord.told_since (since : Int) (r : IpRecord) : Bool :=
  decide (since ≤ r.last_seen_at) || (r.is_deleted && r.deleted_at.any (since ≤ ·))

/-- An address is that of a live member of the group. -/
def World.Live (w : World) (group_id : Uuid) (address : String) : Prop :=
  ∃ r ∈ w.records, w.member r.id group_id ∧ r.is_deleted = false ∧ r.target_address = address

/-- What is held once an answer has been applied: a live row is added, a deleted one is removed. -/
def apply_rows (held : Finset String) (rows : List IpRecordResponse) : Finset String :=
  rows.foldl (apply_row IpRecordResponse.target_address IpRecordResponse.is_deleted) held

namespace Poller

variable (P : Poller)

def ctx (now : Int) : Ctx := ⟨P.env, P.caller, now, P.entropy⟩

/-- The rows of the group in an answer. -/
def rows (now : Int) (order : RowOrder) (f : QueryFilters) (v : Vault) : List IpRecordResponse :=
  match ((list_ips (P.ctx now) order f).run database v).1 with
  | .ok (.items data) => data.filter fun row => row.group_name = P.group.name
  | _ => []

/-- The poller after its first request. -/
def start (now : Int) (order : RowOrder) (limit : Nat) (v : Vault) : SyncState where
  vault := v
  held := apply_rows ∅ (P.rows now order (full_request limit) v)
  polled := now

/-- One event. A poll leaves the store as it is. -/
def step (S : Service) : SyncEvent → SyncState → Unit × SyncState
  | .request req, s => ((), { s with vault := (S.handle req s.vault).2 })
  | .poll now order limit, s =>
      ((), { s with
        held := apply_rows s.held (P.rows now order (delta_request s.polled limit) s.vault)
        polled := now })

/-- The poller may read its group, which is there. -/
structure Reads (v : Vault) : Prop where
  group : P.group ∈ v.groups
  scope : P.caller.key.is_master = true ∨ v.reads P.caller.key.id P.group.id

/-- The copy is exact: what is held are the addresses of the live members of the group. -/
def Exact (s : SyncState) : Prop := ∀ a, a ∈ s.held ↔ s.vault.Live P.group.id a

end Poller

/-! ## The answers to a poller -/

/-- A request for all rows the caller may read, in one plain page, from a threshold on. -/
structure QueryFilters.Plain (f : QueryFilters) (w : World) (threshold : Option Int) : Prop
    extends f.Whole w where
  group_names : f.group_names = []
  group_id : f.group_id = none
  status : f.status = none
  max_age : f.max_age = none
  since : since_threshold f.since = .ok threshold

section Answers

variable {P : Poller} {v : Vault} {now : Int} {f : QueryFilters} {threshold : Option Int}

/-- A member of the group that a request selects. -/
def Poller.Selected (P : Poller) (now : Int) (f : QueryFilters) (threshold : Option Int) (v : Vault)
    (r : IpRecord) : Prop :=
  r ∈ v.records ∧ v.member r.id P.group.id ∧ f.selects P.env now threshold r = true

/-- A plain request admits the group of the poller. -/
theorem Poller.Reads.admits (h : P.Reads v) (hplain : f.Plain v.toWorld threshold) :
    f.admits (P.ctx now) v.toWorld none P.group.id = true := by
  have hscope : (P.caller.key.is_master || v.permissions.any fun p =>
      p.api_key_id = P.caller.key.id && p.group_id = P.group.id && p.can_read) = true := by
    rcases h.scope with hmaster | ⟨p, hp, hkey, hgroup, hread⟩
    · rw [hmaster]
      rfl
    · have hany : (v.permissions.any fun p => p.api_key_id = P.caller.key.id &&
          p.group_id = P.group.id && p.can_read) = true :=
        Table.any_iff.mpr ⟨p, hp, by simp [hkey, hgroup, hread]⟩
      rw [hany, Bool.or_true]
  have hnamed : decide (f.group_names = [] ∧ f.group_id = none) = true :=
    decide_eq_true ⟨hplain.group_names, hplain.group_id⟩
  show ((P.caller.key.is_master || v.permissions.any fun p =>
      p.api_key_id = P.caller.key.id && p.group_id = P.group.id && p.can_read) && _ && true) = true
  rw [hscope, hnamed]
  rfl

/-- What an answer shows of a member of the group. -/
theorem Poller.Reads.response (h : P.Reads v) (ctx : Ctx) {m : Membership}
    (hgroup : m.group_id = P.group.id) (r : IpRecord) :
    ∃ row, record_response ctx v.groups.rows (m, some r) = some row ∧
      row.group_name = P.group.name ∧ row.target_address = r.target_address ∧
      row.is_deleted = r.is_deleted := by
  have hfound : v.groups.rows.find? (fun g => g.id = m.group_id) = some P.group :=
    Table.find?_eq_some.mpr ⟨h.group, hgroup.symm⟩
  unfold record_response
  rw [show (m, some r).1.group_id = m.group_id from rfl, hfound]
  exact ⟨_, rfl, rfl, rfl, rfl⟩

/-- The rows a poller gets. -/
theorem Poller.mem_rows (P : Poller) (hplain : f.Plain v.toWorld threshold) (order : RowOrder)
    {row : IpRecordResponse} : row ∈ P.rows now order f v ↔
      row.group_name = P.group.name ∧ ∃ joined ∈ v.joined,
        f.lists (P.ctx now) v.toWorld none threshold joined = true ∧
        record_response (P.ctx now) v.groups.rows joined = some row := by
  have hstatus : status_type f.status = .ok none := by
    rw [hplain.status]
    rfl
  have hage : f.max_age_fits (P.ctx now).now = true := by
    unfold QueryFilters.max_age_fits
    rw [hplain.max_age]
    rfl
  unfold Poller.rows
  rw [run_whole hplain.toWhole hstatus hplain.since order]
  show row ∈ List.filter _ _ ↔ _
  rw [List.mem_filter, List.mem_filterMap, decide_eq_true_iff, and_comm]
  refine and_congr_right fun _ => exists_congr fun joined => ?_
  rw [(order.perm _).mem_iff, matching_of_valid hstatus hplain.since, List.mem_filter, and_assoc]

/-- **A row of the group** in an answer is a member that the request selects. -/
theorem Poller.Reads.selected_of_row (h : P.Reads v) (hplain : f.Plain v.toWorld threshold)
    {order : RowOrder} {row : IpRecordResponse} (hrow : row ∈ P.rows now order f v) :
    ∃ r, P.Selected now f threshold v r ∧ row.target_address = r.target_address ∧
      row.is_deleted = r.is_deleted := by
  obtain ⟨hname, joined, hjoined, hlists, hresponse⟩ := (P.mem_rows hplain order).mp hrow
  obtain ⟨r, hr, hrecord, hid⟩ := v.record_of_joined hjoined
  obtain ⟨g, hg, row', hresponse', hgroup, hname', -⟩ := response_of_joined (P.ctx now) hjoined
  have hsame : row' = row := Option.some.inj (hresponse'.symm.trans hresponse)
  rw [hsame, hname] at hname'
  have hmine : g = P.group := v.wf.group_name_unique g hg P.group h.group hname'
  rw [hmine] at hgroup
  obtain ⟨row'', hresponse'', -, haddress, hdeleted⟩ := h.response (P.ctx now) hgroup.symm r
  have hpair : (joined.1, some r) = joined := Prod.ext rfl hrecord.symm
  rw [hpair, hresponse] at hresponse''
  rw [Option.some.inj hresponse'']
  have hselects := ((Bool.and_eq_true _ _).mp hlists).2
  rw [hrecord] at hselects
  exact ⟨r, ⟨hr, ⟨joined.1, (mem_joined.mp hjoined).1, hid.symm, hgroup.symm⟩, hselects⟩,
    haddress, hdeleted⟩

/-- Every member that a request selects has its row in the answer. -/
theorem Poller.Reads.row_of_selected (h : P.Reads v) (hplain : f.Plain v.toWorld threshold)
    (order : RowOrder) {r : IpRecord} (hsel : P.Selected now f threshold v r) :
    ∃ row ∈ P.rows now order f v, row.target_address = r.target_address ∧
      row.is_deleted = r.is_deleted := by
  obtain ⟨hr, ⟨m, hm, hrecord, hgroup⟩, hselects⟩ := hsel
  obtain ⟨row, hresponse, hname, haddress, hdeleted⟩ := h.response (P.ctx now) hgroup r
  have hjoined : (m, some r) ∈ v.joined := by
    refine mem_joined.mpr ⟨hm, ?_⟩
    show some r = v.records.find? m.ip_record_id
    rw [hrecord]
    exact (Table.find?_key hr).symm
  have hlists : f.lists (P.ctx now) v.toWorld none threshold (m, some r) = true := by
    unfold QueryFilters.lists
    rw [Bool.and_eq_true]
    refine ⟨?_, hselects⟩
    show f.admits (P.ctx now) v.toWorld none m.group_id = true
    rw [hgroup]
    exact h.admits hplain
  have hrow := (P.mem_rows hplain order).mpr ⟨hname, _, hjoined, hlists, hresponse⟩
  exact ⟨row, hrow, haddress, hdeleted⟩

/-- A request that names no groups. -/
theorem group_names_eq_nil (hgroups : f.groups = none) (hname : f.group_name = none) :
    f.group_names = [] := by
  unfold QueryFilters.group_names
  rw [hgroups, hname]
  decide

theorem full_request_plain {limit : Nat} (h : v.memberships.rows.length ≤ limit) :
    (full_request limit).Plain v.toWorld none where
  format := rfl
  total := rfl
  offset := rfl
  limit := h
  group_names := group_names_eq_nil rfl rfl
  group_id := rfl
  status := rfl
  max_age := rfl
  since := rfl

theorem delta_request_plain {polled : Int} {limit : Nat} (h : v.memberships.rows.length ≤ limit)
    (hclock : (from_timestamp (since_of polled)).isSome = true) :
    (delta_request polled limit).Plain v.toWorld (some (seconds (since_of polled))) where
  format := rfl
  total := rfl
  offset := rfl
  limit := h
  group_names := group_names_eq_nil rfl rfl
  group_id := rfl
  status := rfl
  max_age := rfl
  since := by
    have hsecs : from_timestamp (since_of polled) = some (seconds (since_of polled)) := by
      unfold from_timestamp at hclock ⊢
      split
      · rfl
      · rename_i hout
        rw [if_neg hout] at hclock
        cases hclock
    simp only [delta_request, since_threshold, hsecs]

/-- The listing selects the live records. -/
theorem full_request_selects (env : Env) (limit : Nat) (r : IpRecord) :
    (full_request limit).selects env now none r = !r.is_deleted := by
  unfold QueryFilters.selects QueryFilters.selects_by
  simp [full_request, QueryFilters.with_deleted, QueryFilters.in_window, QueryFilters.nonempty_text]

/-- A later poll selects what it is told of. -/
theorem delta_request_selects (env : Env) (polled : Int) (limit : Nat) (t : Int) (r : IpRecord) :
    (delta_request polled limit).selects env now (some t) r = r.told_since t := by
  unfold QueryFilters.selects QueryFilters.selects_by
  simp [delta_request, QueryFilters.with_deleted, QueryFilters.in_window, QueryFilters.nonempty_text,
    DateOrder.time, IpRecord.told_since]

/-- The rows of an answer tell the truth. -/
theorem Poller.Reads.rows_true (h : P.Reads v) (hplain : f.Plain v.toWorld threshold)
    {order : RowOrder} {row : IpRecordResponse} (hrow : row ∈ P.rows now order f v) :
    row.is_deleted = false ↔ v.Live P.group.id row.target_address := by
  obtain ⟨r, ⟨hr, hmember, -⟩, haddress, hdeleted⟩ := h.selected_of_row hplain hrow
  rw [haddress, hdeleted]
  constructor
  · intro hlive
    exact ⟨r, hr, hmember, hlive, rfl⟩
  · rintro ⟨r', hr', -, hlive, haddress'⟩
    rwa [← v.wf.address_unique r' hr' r hr haddress']

end Answers

/-! ## What keeps a copy in sync -/

/-- The copy agrees with the store on an address, or the next poll is told of it. -/
def SyncedAt (since : Int) (group_id : Uuid) (held : Finset String) (w : World) (a : String) :
    Prop :=
  (a ∈ held ↔ w.Live group_id a) ∨
    ∃ r ∈ w.records, w.member r.id group_id ∧ r.target_address = a ∧ r.told_since since = true

namespace Poller

variable {P : Poller} {s : SyncState}

/-- The copy agrees with the store, but for what the next poll is told of. -/
def InSync (P : Poller) (s : SyncState) : Prop :=
  ∀ a, SyncedAt s.since P.group.id s.held s.vault.toWorld a

/-- An exact copy is in sync. -/
theorem Exact.in_sync (h : P.Exact s) : P.InSync s := fun a => .inl (h a)

/-- The first request makes the copy exact. -/
theorem start_exact {v : Vault} (h : P.Reads v) (now : Int) (order : RowOrder) {limit : Nat}
    (hlimit : v.memberships.rows.length ≤ limit) : P.Exact (P.start now order limit v) := by
  have hplain := full_request_plain hlimit
  refine catches_up (fun row hrow => h.rows_true hplain hrow) fun a => ?_
  by_cases hlive : v.Live P.group.id a
  · obtain ⟨r, hr, hmember, hnot, haddress⟩ := hlive
    have hselects : (full_request limit).selects P.env now none r = true := by
      rw [full_request_selects, hnot]
      rfl
    obtain ⟨row, hrow, hsame, -⟩ := h.row_of_selected hplain order ⟨hr, hmember, hselects⟩
    exact .inr ⟨row, hrow, hsame.trans haddress⟩
  · exact .inl ⟨fun ha => absurd ha (Finset.notMem_empty a), fun h => absurd h hlive⟩

/-- **A poll makes a copy in sync exact.** -/
theorem InSync.poll_exact (S : Service) (h : P.InSync s) (hreads : P.Reads s.vault) (now : Int)
    (order : RowOrder) {limit : Nat} (hlimit : s.vault.memberships.rows.length ≤ limit)
    (hclock : (from_timestamp (since_of s.polled)).isSome = true) :
    P.Exact (P.step S (.poll now order limit) s).2 := by
  have hplain := delta_request_plain hlimit hclock
  refine catches_up (fun row hrow => hreads.rows_true hplain hrow) fun a => ?_
  rcases h a with hsame | ⟨r, hr, hmember, haddress, htold⟩
  · exact .inl hsame
  · have hselects : (delta_request s.polled limit).selects P.env now (some s.since) r = true := by
      rw [delta_request_selects]
      exact htold
    obtain ⟨row, hrow, hsame, -⟩ := hreads.row_of_selected hplain order ⟨hr, hmember, hselects⟩
    exact .inr ⟨row, hrow, hsame.trans haddress⟩

end Poller

/-! ## One write -/

section Writes

variable {since : Int} {group_id : Uuid} {held : Finset String} {w w' : World} {a : String}

/-- A write after which every member with the address is as before, or told of. -/
theorem SyncedAt.of_change (h : SyncedAt since group_id held w a)
    (hback : ∀ r' ∈ w'.records, w'.member r'.id group_id → r'.target_address = a →
      (r' ∈ w.records ∧ w.member r'.id group_id) ∨ r'.told_since since = true)
    (hforth : ∀ r ∈ w.records, w.member r.id group_id → r.target_address = a →
      ∃ r' ∈ w'.records, w'.member r'.id group_id ∧ r'.target_address = a ∧
        (r' = r ∨ r'.told_since since = true)) : SyncedAt since group_id held w' a := by
  -- If no poll will be told, nothing at the address has changed.
  by_cases htold : ∃ r' ∈ w'.records, w'.member r'.id group_id ∧ r'.target_address = a ∧
      r'.told_since since = true
  · exact .inr htold
  · have kept : ∀ r ∈ w.records, w.member r.id group_id → r.target_address = a →
        r ∈ w'.records ∧ w'.member r.id group_id := by
      intro r hr hmember haddress
      obtain ⟨r', hr', hmember', haddress', hsame | ht⟩ := hforth r hr hmember haddress
      · exact hsame ▸ ⟨hr', hmember'⟩
      · exact absurd ⟨r', hr', hmember', haddress', ht⟩ htold
    rcases h with hsame | ⟨r, hr, hmember, haddress, ht⟩
    · refine .inl (hsame.trans ⟨?_, ?_⟩)
      · rintro ⟨r, hr, hmember, hlive, haddress⟩
        obtain ⟨hr', hmember'⟩ := kept r hr hmember haddress
        exact ⟨r, hr', hmember', hlive, haddress⟩
      · rintro ⟨r', hr', hmember', hlive, haddress⟩
        rcases hback r' hr' hmember' haddress with ⟨hr, hmember⟩ | ht
        · exact ⟨r', hr, hmember, hlive, haddress⟩
        · exact absurd ⟨r', hr', hmember', haddress, ht⟩ htold
    · obtain ⟨hr', hmember'⟩ := kept r hr hmember haddress
      exact absurd ⟨r, hr', hmember', haddress, ht⟩ htold

/-- A write to other tables. -/
theorem SyncedAt.congr (h : SyncedAt since group_id held w a) (hrecords : w'.records = w.records)
    (hmemberships : w'.memberships = w.memberships) : SyncedAt since group_id held w' a := by
  unfold SyncedAt World.Live World.member at h ⊢
  rw [hrecords, hmemberships]
  exact h

/-- The record of the address is no member, and is not held. -/
theorem SyncedAt.of_absent (hheld : a ∉ held)
    (hnone : ∀ r ∈ w'.records, w'.member r.id group_id → r.target_address ≠ a) :
    SyncedAt since group_id held w' a := by
  refine .inl ⟨fun h => absurd h hheld, ?_⟩
  rintro ⟨r, hr, hmember, -, haddress⟩
  exact absurd haddress (hnone r hr hmember)

/-! ### Batches -/

/-- A record that is seen now, or later. -/
theorem told_of_last_seen {r : IpRecord} (h : since ≤ r.last_seen_at) :
    r.told_since since = true := by
  unfold IpRecord.told_since
  rw [decide_eq_true h, Bool.true_or]

/-- A record that is deleted now, or later. -/
theorem told_of_deleted {r : IpRecord} {d : Int} (hdeleted : r.is_deleted = true)
    (hdate : r.deleted_at = some d) (h : since ≤ d) : r.told_since since = true := by
  unfold IpRecord.told_since
  rw [hdeleted, hdate, Option.any_some, decide_eq_true h, Bool.and_self, Bool.or_true]

/-- What a batch at its own time makes of a record is told of, if it is anything at all. -/
theorem BatchTxn.outcome_told {t : BatchTxn} (hnow : since ≤ t.now)
    (hdefault : ∀ e ∈ t.normalized, e.2.last_seen_at = none) (r : IpRecord) :
    t.outcome w r = r ∨ (t.outcome w r).told_since since = true := by
  rcases t.outcome_cases w r with hsame | ⟨-, hsweep⟩ | ⟨-, e, he, -, hchange⟩
  · exact .inl hsame
  · refine .inr (told_of_deleted ?_ ?_ hnow)
    · rw [hsweep]
      exact Txn.RecordChange.apply_is_deleted _ r
    · rw [hsweep]
      exact Txn.RecordChange.apply_deleted_at _ r
  · refine .inr (told_of_last_seen ?_)
    rw [hchange, Txn.RecordChange.apply_last_seen_at, BatchTxn.change, hdefault e he]
    exact hnow

/-- **A batch at its own time** keeps a copy in sync. -/
theorem SyncedAt.batch {t : BatchTxn} (h : SyncedAt since group_id held w a)
    (heffect : t.Effect (t.outcome w) t.normalized w w') (hseen : t.seen.Nodup)
    (hnow : since ≤ t.now) (hdefault : ∀ e ∈ t.normalized, e.2.last_seen_at = none) :
    SyncedAt since group_id held w' a := by
  refine h.of_change ?_ ?_
  · intro r' hr' ⟨m, hm, hrecord, hgroup⟩ _
    rcases heffect.origin r' hr' with ⟨r, hr, hout⟩ | ⟨e, he, -, -, hfresh⟩
    · rcases t.outcome_told hnow hdefault r with hsame | htold
      · rw [hsame] at hout
        subst hout
        rcases (heffect.members m).mp hm with hold | ⟨-, r'', hr'', hid, hlock, hnamed⟩
        · exact .inl ⟨hr, m, hold, hrecord, hgroup⟩
        · -- The batch names the record, so that it has changed it.
          obtain rfl : r'' = r' := Table.eq_of_key hr'' hr' (hid.trans hrecord)
          obtain ⟨e, he, haddress⟩ := List.mem_map.mp hnamed
          have hchange := @BatchTxn.outcome_of_mem t w e r'' hseen he haddress.symm hlock
          rw [hsame] at hchange
          refine .inr (told_of_last_seen ?_)
          rw [hchange, Txn.RecordChange.apply_last_seen_at, BatchTxn.change, hdefault e he]
          exact hnow
      · exact .inr (hout ▸ htold)
    · refine .inr (told_of_last_seen ?_)
      rw [hfresh]
      show since ≤ e.2.last_seen_at.getD t.now
      rw [hdefault e he]
      exact hnow
  · intro r hr ⟨m, hm, hrecord, hgroup⟩ haddress
    refine ⟨t.outcome w r, heffect.row r hr, ⟨m, (heffect.members m).mpr (.inl hm), ?_, hgroup⟩, ?_,
      t.outcome_told hnow hdefault r⟩
    · rw [BatchTxn.outcome_id, hrecord]
    · rw [BatchTxn.outcome_address, haddress]

/-! ### Updates and removals -/

theorem Stmt.after_update_record_memberships (id : Uuid) (c : Txn.RecordChange) (w : World) :
    ((Stmt.update_record id c).after w).memberships = w.memberships := by
  cases h : w.records.find? id with
  | none => simp [Stmt.after, Stmt.txn, Txn.update_record, Txn.db_error, h]
  | some r => simp [Stmt.after, Stmt.txn, Txn.update_record, h]

/-- An update of a record that is no member, or that is right or told of afterwards. -/
theorem SyncedAt.update_record {id : Uuid} {c : Txn.RecordChange}
    (h : SyncedAt since group_id held w a)
    (hright : ∀ r ∈ w.records, r.id = id → w.member id group_id →
      (c.apply r).told_since since = true ∨
        (r.target_address ∈ held ∧ (c.apply r).is_deleted = false)) :
    SyncedAt since group_id held ((Stmt.update_record id c).after w) a := by
  have hrecords := Stmt.after_update_record id c w
  have hmemberships := Stmt.after_update_record_memberships id c w
  have hmember : ∀ r, ((Stmt.update_record id c).after w).member r group_id ↔
      w.member r group_id := by
    intro r
    unfold World.member
    rw [hmemberships]
  -- Either the record at the address is held and live afterwards, or whatever has changed at it is
  -- told of since then.
  by_cases hheld : ∃ r ∈ w.records, r.id = id ∧ w.member id group_id ∧ r.target_address = a ∧
      r.target_address ∈ held ∧ (c.apply r).is_deleted = false
  · obtain ⟨r, hr, hid, hm, haddress, hin, hlive⟩ := hheld
    have hr' : c.apply r ∈ ((Stmt.update_record id c).after w).records := by
      rw [hrecords, ← hid]
      exact apply_mem_modify hr
    refine .inl ⟨fun _ => ⟨c.apply r, hr', ?_, hlive, ?_⟩, fun _ => haddress ▸ hin⟩
    · rw [Txn.RecordChange.apply_id, hid]
      exact (hmember id).mpr hm
    · rw [Txn.RecordChange.apply_address, haddress]
  · have told : ∀ r ∈ w.records, r.id = id → w.member id group_id → r.target_address = a →
        (c.apply r).told_since since = true := by
      intro r hr hid hm haddress
      rcases hright r hr hid hm with ht | ⟨hin, hlive⟩
      · exact ht
      · exact absurd ⟨r, hr, hid, hm, haddress, hin, hlive⟩ hheld
    refine h.of_change ?_ ?_
    · intro r' hr' hm' haddress
      rw [hrecords] at hr'
      rw [hmember] at hm'
      rcases (Table.mem_modify c.apply_id).mp hr' with ⟨hr, -⟩ | ⟨r, hr, hid, rfl⟩
      · exact .inl ⟨hr, hm'⟩
      · rw [Txn.RecordChange.apply_id, hid] at hm'
        rw [Txn.RecordChange.apply_address] at haddress
        exact .inr (told r hr hid hm' haddress)
    · intro r hr hm haddress
      rw [hrecords]
      by_cases hid : r.id = id
      · have ht := told r hr hid (hid ▸ hm) haddress
        refine ⟨c.apply r, hid ▸ apply_mem_modify hr, ?_, ?_, .inr ht⟩
        · rw [Txn.RecordChange.apply_id, hmember]
          exact hm
        · rw [Txn.RecordChange.apply_address, haddress]
      · exact ⟨r, mem_records_of_modify hr hid, (hmember r.id).mpr hm, haddress, .inl rfl⟩

/-- A removal of a record that is no member, or not held. -/
theorem SyncedAt.delete_record {id : Uuid} (h : SyncedAt since group_id held w a) (hw : w.Wf)
    (hheld : ∀ r ∈ w.records, r.id = id → w.member id group_id → r.target_address ∉ held) :
    SyncedAt since group_id held ((Stmt.delete_record id).after w) a := by
  have kept : ∀ r, r ∈ ((Stmt.delete_record id).after w).records ↔ r ∈ w.records ∧ r.id ≠ id := by
    intro r
    refine Table.mem_filter.trans (and_congr_right fun _ => ?_)
    rw [Bool.not_eq_true', decide_eq_false_iff_not]
  have member : ∀ r ∈ ((Stmt.delete_record id).after w).records,
      ((Stmt.delete_record id).after w).member r.id group_id ↔ w.member r.id group_id := by
    intro r hr
    constructor
    · rintro ⟨m, hm, hrecord, hgroup⟩
      exact ⟨m, (Table.mem_filter.mp hm).1, hrecord, hgroup⟩
    · rintro ⟨m, hm, hrecord, hgroup⟩
      exact ⟨m, Table.mem_filter.mpr ⟨hm, Table.has_iff.mpr ⟨r, hr, hrecord.symm⟩⟩, hrecord, hgroup⟩
  -- An address has one record, so that without this one it is no live member's.
  by_cases hgone : ∃ r ∈ w.records, r.id = id ∧ w.member id group_id ∧ r.target_address = a
  · obtain ⟨r, hr, hid, hm, rfl⟩ := hgone
    refine .of_absent (hheld r hr hid hm) fun r' hr' _ haddress => ?_
    obtain ⟨hr₀, hne⟩ := (kept r').mp hr'
    exact hne ((hw.address_unique r' hr₀ r hr haddress) ▸ hid)
  · refine h.of_change (fun r' hr' hm' _ => .inl ⟨((kept r').mp hr').1, (member r' hr').mp hm'⟩) ?_
    intro r hr hm haddress
    have hne : r.id ≠ id := fun hid => hgone ⟨r, hr, hid, hid ▸ hm, haddress⟩
    have hr' := (kept r).mpr ⟨hr, hne⟩
    exact ⟨r, hr', (member r hr').mpr hm, haddress, .inl rfl⟩

/-- A removal from another group, or of a record that is not held. -/
theorem SyncedAt.delete_ip {t : DeleteIpTxn} (h : SyncedAt since group_id held w a) (hw : w.Wf)
    (hheld : t.group_id = group_id → ∀ r ∈ w.records, r.target_address = t.target_address →
      r.is_locked = false → w.member r.id group_id → r.target_address ∉ held) :
    SyncedAt since group_id held ((Stmt.delete_ip_txn t).after w) a := by
  cases hrun : t.run w with
  | error e =>
      rw [Stmt.after_of_error (l := .delete_ip_txn t) hrun]
      exact h
  | ok p =>
      rw [Stmt.after_of_ok (l := .delete_ip_txn t) hrun]
      obtain ⟨hr₀, haddress₀, hlock, hm₀, hrecords, hmemberships⟩ := DeleteIpTxn.run_ok hrun
      have member : ∀ r, p.2.member r group_id ↔
          w.member r group_id ∧ (r, group_id) ≠ (p.1.id, t.group_id) := by
        intro r
        unfold World.member
        rw [hmemberships]
        constructor
        · rintro ⟨m, hm, rfl, rfl⟩
          obtain ⟨hold, hkey⟩ := Table.mem_filter.mp hm
          exact ⟨⟨m, hold, rfl, rfl⟩, of_decide_eq_true hkey⟩
        · rintro ⟨⟨m, hm, rfl, rfl⟩, hkey⟩
          exact ⟨m, Table.mem_filter.mpr ⟨hm, decide_eq_true hkey⟩, rfl, rfl⟩
      -- The membership that goes is of this group and this address, or of no concern.
      by_cases hgone : t.group_id = group_id ∧ p.1.target_address = a
      · obtain ⟨hgroup, rfl⟩ := hgone
        have hout := hheld hgroup p.1 hr₀ haddress₀ hlock (hgroup ▸ hm₀)
        refine .of_absent hout fun r hr hm haddress => ?_
        rw [hrecords] at hr
        rw [hw.address_unique r hr p.1 hr₀ haddress] at hm
        exact ((member p.1.id).mp hm).2 (by rw [hgroup])
      · have hother : ∀ r ∈ w.records, r.target_address = a →
            (r.id, group_id) ≠ (p.1.id, t.group_id) := by
          intro r hr haddress hkey
          obtain ⟨hid, hgroup⟩ := Prod.mk.inj hkey
          exact hgone ⟨hgroup.symm, Table.eq_of_key hr hr₀ hid ▸ haddress⟩
        refine h.of_change ?_ ?_
        · intro r' hr' hm' _
          rw [hrecords] at hr'
          exact .inl ⟨hr', ((member r'.id).mp hm').1⟩
        · intro r hr hm haddress
          rw [hrecords]
          exact ⟨r, hr, (member r.id).mpr ⟨hm, hother r hr haddress⟩, haddress, .inl rfl⟩

end Writes

/-! ## One request -/

/-- The requests of a run: bans, whitelistings, batches that leave `last_seen_at` to the service,
deletions and restorations. -/
def Call.Syncable : Call → Prop
  | .handle_ban _ | .handle_white _ | .delete_ip _ _ | .delete_ip_record _ _
  | .restore_ip_record _ => True
  | .batch_records payload => ∀ r ∈ payload.records, r.last_seen_at = none
  | _ => False

/-- The statements of such requests. -/
def Stmt.syncable : Stmt → Bool
  | .query _ | .insert_audit _ | .insert_group_or_ignore _ | .insert_permission_or_ignore _
  | .upsert_txn _ | .batch_txn _ | .delete_ip_txn _ | .update_record _ _ | .delete_record _
  | .enqueue _ => true
  | _ => false

theorem Call.Syncable.issues {call : Call} {l : Stmt} (h : call.Syncable)
    (hfoot : call.footprint l = true) : l.syncable = true := by
  cases call with
  | handle_ban _ | handle_white _ | batch_records _ | delete_ip _ _ | delete_ip_record _ _
  | restore_ip_record _ => cases l <;> first | rfl | cases hfoot
  | _ => cases h

/-- **What a copy survives.** A removal from the group, or a destruction, takes away only what is not
held; a restoration brings back only what is held, or was seen since the threshold. -/
structure Call.Told (call : Call) (ctx : Ctx) (group_id : Uuid) (since : Int) (held : Finset String)
    (w : World) : Prop where
  removal : ∀ query_params body group target_address, call = .delete_ip query_params body →
    RemovalAdmitted ctx query_params body w group target_address → group.id = group_id →
    ∀ r ∈ w.records, r.target_address = normalize_ip_or_cidr ctx.env target_address →
      r.is_locked = false → w.member r.id group_id → r.target_address ∉ held
  destruction : ∀ id, call = .delete_ip_record id (some true) → ctx.key.is_master = true →
    ∀ r ∈ w.records, r.id = id → r.is_locked = false → w.member id group_id →
      r.target_address ∉ held
  restoration : ∀ id, call = .restore_ip_record id → ctx.key.is_master = true →
    ∀ r ∈ w.records, r.id = id → r.is_deleted = true → w.member id group_id →
      r.target_address ∈ held ∨ since ≤ r.last_seen_at

section Requests

variable {ctx : Ctx} {call : Call} {start w : Vault} {l : Stmt} {since : Int} {group_id : Uuid}
  {held : Finset String} {a : String}

/-- The batches of a run are at the time of their request. -/
theorem Permits.syncable_batch (hl : Permits ctx call start l w) (hcall : call.Syncable)
    {t : BatchTxn} (ht : l.as_batch = some t) :
    t.now = ctx.now ∧ ∀ e ∈ t.normalized, e.2.last_seen_at = none := by
  cases l with
  | upsert_txn u =>
      cases ht
      obtain ⟨-, payload, is_whitelist, group, -, -, rfl⟩ := hl
      refine ⟨rfl, fun e he => ?_⟩
      rw [List.mem_singleton.mp he]
  | batch_txn u =>
      cases ht
      obtain ⟨-, -, payload, group, normalized, rfl, hadmitted, -, rfl⟩ := hl
      refine ⟨rfl, fun e he => ?_⟩
      have hentries := (normalize_entries_ok hadmitted.entries (by simp)).1
      have hmem : e ∈ normalized := he
      rw [hentries, List.nil_append] at hmem
      obtain ⟨r, hr, rfl⟩ := List.mem_map.mp hmem
      exact hcall r hr
  | _ => cases ht

/-- **One write** of a request that the copy survives keeps it in sync. -/
theorem Permits.keeps_synced (hl : Permits ctx call start l w)
    (hkind : l.syncable = true) (hcall : call.Syncable) (hnow : since ≤ ctx.now)
    (htold : call.Told ctx group_id since held start.toWorld)
    (h : SyncedAt since group_id held w.toWorld a) :
    SyncedAt since group_id held (w.after l).toWorld a := by
  have hframe := l.frame w.toWorld
  have batch : ∀ t, l.as_batch = some t → SyncedAt since group_id held (w.after l).toWorld a := by
    intro t ht
    have hseen := hl.seen_nodup t ht
    obtain ⟨htime, hdefault⟩ := hl.syncable_batch hcall ht
    rcases Stmt.after_as_batch ht w.wf hseen with hsame | heffect
    · rw [Vault.after_toWorld, hsame]
      exact h
    · exact h.batch heffect hseen (htime ▸ hnow) hdefault
  cases l with
  | upsert_txn t => exact batch _ rfl
  | batch_txn t => exact batch _ rfl
  | update_record id c =>
      -- `restore_ip_record` leaves `last_seen_at` alone; a soft delete is told of.
      obtain ⟨rfl, r₀, hr₀, hid₀, ⟨rfl, hmaster, hdeleted, rfl⟩ | ⟨-, -, -, rfl, -⟩⟩ := hl
      · refine h.update_record fun r hr hid hmember => ?_
        obtain rfl : r = r₀ := Table.eq_of_key hr hr₀ (hid.trans hid₀.symm)
        rcases htold.restoration id rfl hmaster r hr hid hdeleted hmember with hheld | hseen
        · exact .inr ⟨hheld, Txn.RecordChange.apply_is_deleted _ r⟩
        · exact .inl (told_of_last_seen (by rwa [Txn.RecordChange.apply_last_seen_at]))
      · refine h.update_record fun r _ _ _ => .inl (told_of_deleted ?_ ?_ hnow)
        · exact Txn.RecordChange.apply_is_deleted _ r
        · exact Txn.RecordChange.apply_deleted_at _ r
  | delete_record id =>
      obtain ⟨rfl, hmaster, rfl, r₀, hr₀, hid₀, hlock⟩ := hl
      refine h.delete_record w.wf fun r hr hid hmember => ?_
      obtain rfl : r = r₀ := Table.eq_of_key hr hr₀ (hid.trans hid₀.symm)
      exact htold.destruction id rfl hmaster r hr hid hlock hmember
  | delete_ip_txn t =>
      obtain ⟨rfl, query_params, body, group, target_address, rfl, hadmitted, rfl⟩ := hl
      refine h.delete_ip w.wf fun hgroup => ?_
      exact htold.removal query_params body group target_address rfl hadmitted hgroup
  | delete_group id => cases hkind
  | purge threshold => cases hkind
  | _ => exact h.congr (hframe.records rfl) (hframe.memberships rfl)

/-- No group goes away, and none is renamed. -/
theorem Stmt.keeps_groups {w : World} (hkind : l.syncable = true) {g : IpGroup}
    (hg : g ∈ w.groups) : g ∈ (l.after w).groups := by
  cases l with
  | insert_group_or_ignore g₀ =>
      rw [after_insert_group_or_ignore]
      by_cases hnamed : (w.group_named g₀.name).isSome = true
      · rw [if_pos hnamed]
        exact hg
      · rw [if_neg hnamed]
        exact Table.mem_insert_of_mem hg
  | insert_group _ | set_group_owner _ _ | delete_group _ => cases hkind
  | _ => rwa [(Stmt.frame _ w).groups rfl]

/-- No permission goes away. -/
theorem Stmt.keeps_permissions {w : World} (hkind : l.syncable = true) {p : GroupPermission}
    (hp : p ∈ w.permissions) : p ∈ (l.after w).permissions := by
  cases l with
  | insert_permission_or_ignore p₀ =>
      unfold Stmt.after
      simp only [Stmt.txn, Txn.insert_permission_or_ignore]
      by_cases hends : (!Txn.permission_ends w p₀) = true
      · rw [if_pos hends]
        exact hp
      · rw [if_neg hends]
        exact Table.mem_insert_of_mem hp
  | insert_permission _ | upsert_permission _ | delete_permission _ _ | delete_keys _
  | delete_group _ => cases hkind
  | _ => rwa [(Stmt.frame _ w).permissions rfl]

theorem Poller.Reads.after {P : Poller} (h : P.Reads w) (hkind : l.syncable = true) :
    P.Reads (w.after l) where
  group := l.keeps_groups hkind h.group
  scope := h.scope.imp_right fun ⟨p, hp, hread⟩ => ⟨p, l.keeps_permissions hkind hp, hread⟩

end Requests

namespace Service

variable {S : Service} {P : Poller} {s : SyncState}

/-- The copy survives the request. -/
def Told (S : Service) (P : Poller) (req : Request) (s : SyncState) : Prop :=
  ∀ key, s.vault.keys.find? req.key_id = some key →
    req.call.Told (S.ctx req key) P.group.id s.since s.held s.vault.toWorld

/-- **One request** that the copy survives. -/
theorem Told.in_sync {req : Request} (htold : S.Told P req s) (hcall : req.call.Syncable)
    (hnow : s.since ≤ req.now) (h : P.InSync s) (hreads : P.Reads s.vault) :
    P.InSync (P.step S (.request req) s).2 ∧ P.Reads (P.step S (.request req) s).2.vault := by
  refine S.handle_keeps_within req s.vault (I := fun w =>
    (∀ a, SyncedAt s.since P.group.id s.held w.toWorld a) ∧ P.Reads w) ⟨h, hreads⟩ ?_
  intro key hkey hid l w hl hfoot ⟨hsynced, hreads⟩
  have hkind := hcall.issues hfoot
  have hfound : s.vault.keys.find? req.key_id = some key := hid ▸ Table.find?_key hkey
  exact ⟨fun a => hl.keeps_synced hkind hcall hnow (htold key hfound) (hsynced a),
    hreads.after hkind⟩

end Service

/-! ## Runs -/

/-- A run that the poller can follow: requests of the kinds above, and polls that ask for enough rows,
of a number the database takes, and name the second of the previous poll. -/
def SyncEvent.Regular : SyncEvent → SyncState → Prop
  | .request req, _ => req.call.Syncable
  | .poll _ _ limit, s => s.vault.memberships.rows.length ≤ limit ∧ limit < 2 ^ 63 ∧
      (from_timestamp (since_of s.polled)).isSome = true

/-- The copy survives the event. -/
def Service.Spares (S : Service) (P : Poller) : SyncEvent → SyncState → Prop
  | .request req, s => S.Told P req s
  | .poll _ _ _, _ => True

/-- A poll makes the copy exact. -/
def Poller.CatchesUp (P : Poller) (S : Service) (e : SyncEvent) (s : SyncState) : Prop :=
  ∀ now order limit, e = .poll now order limit → P.Exact (P.step S e s).2

theorem SyncState.since_le (s : SyncState) : s.since ≤ s.polled := by
  show s.polled / 1000000000 * 1000000000 ≤ s.polled
  omega

theorem sync_from (S : Service) (P : Poller) {run : List SyncEvent} {s : SyncState}
    (clock : (run.map SyncEvent.now).Pairwise (· ≤ ·)) (hlater : ∀ e ∈ run, s.polled ≤ e.now)
    (hsync : P.InSync s) (hreads : P.Reads s.vault)
    (h : Along (P.step S) (fun e s => e.Regular s ∧ S.Spares P e s) run s) :
    Along (P.step S) (P.CatchesUp S) run s := by
  induction run generalizing s with
  | nil => trivial
  | cons e run ih =>
      obtain ⟨⟨hregular, hspares⟩, hrest⟩ := h
      rw [List.map_cons, List.pairwise_cons] at clock
      have hnow := hlater e List.mem_cons_self
      cases e with
      | request req =>
          -- The threshold is not after the last poll, and so not after the request.
          have hsince : s.since ≤ req.now := s.since_le.trans hnow
          obtain ⟨hsync', hreads'⟩ := hspares.in_sync hregular hsince hsync hreads
          refine ⟨fun _ _ _ heq => (nomatch heq), ?_⟩
          exact ih (s := (P.step S (.request req) s).2) clock.2
            (fun e' he' => hlater e' (List.mem_cons_of_mem _ he')) hsync' hreads' hrest
      | poll now order limit =>
          have hexact := hsync.poll_exact S hreads now order hregular.1 hregular.2.2
          refine ⟨fun _ _ _ _ => hexact, ?_⟩
          exact ih clock.2 (fun e' he' => clock.1 _ (List.mem_map_of_mem he')) hexact.in_sync hreads
            hrest

/-- **Differential sync.** A poller that starts from the listing has an exact copy after each poll, in
every run on a clock that never goes back whose requests the copy survives. -/
theorem sync_complete (S : Service) (P : Poller) (v : Vault) (now : Int) (order : RowOrder)
    (limit : Nat) (run : List SyncEvent) (hreads : P.Reads v)
    (hlimit : v.memberships.rows.length ≤ limit ∧ limit < 2 ^ 63)
    (clock : (now :: run.map SyncEvent.now).Pairwise (· ≤ ·))
    (h : Along (P.step S) (fun e s => e.Regular s ∧ S.Spares P e s) run (P.start now order limit v)) :
    P.Exact (P.start now order limit v) ∧
      Along (P.step S) (P.CatchesUp S) run (P.start now order limit v) := by
  have hexact := Poller.start_exact hreads now order hlimit.1
  rw [List.pairwise_cons] at clock
  refine ⟨hexact, sync_from S P clock.2 (fun e he => ?_) hexact.in_sync hreads h⟩
  exact clock.1 e.now (List.mem_map_of_mem he)

/-- The sensor, which copies `bans`. -/
def Poller.sample : Poller where
  env := .sample
  caller := ⟨.sample 1, "203.0.113.9"⟩
  entropy := ⟨"", "", []⟩
  group := { new_group "bans" "banlist" none 0 with id := 2 }

theorem Poller.sample_reads {v : Vault} (hgroup : Poller.sample.group ∈ v.groups)
    (hrow : ⟨1, 2, true, true, false, false, 0⟩ ∈ v.permissions) : Poller.sample.Reads v :=
  ⟨hgroup, .inr ⟨_, hrow, rfl, rfl, rfl⟩⟩

/-- An address is banned, a poll adds it, the master deletes its record, and a poll removes it. -/
def SyncEvent.followed_run : List SyncEvent :=
  [.request (.sample 1 7 (.handle_ban
      { target_address := "203.0.113.7", group_name := some "bans" })),
    .poll 9 .newest 8,
    .request (.sample 0 11 (.delete_ip_record 3 none)),
    .poll 12 .newest 8]

theorem sync_complete_run : Along (Poller.sample.step .sample) (Poller.sample.CatchesUp .sample)
    SyncEvent.followed_run (Poller.sample.start 5 .newest 8 .sample) :=
  (sync_complete .sample .sample .sample 5 .newest 8 SyncEvent.followed_run
    (Poller.sample_reads (by decide) (by decide)) (by decide) (by decide)
    ⟨⟨trivial, fun _ _ =>
        ⟨fun _ _ _ _ h => (nomatch h), fun _ h => (nomatch h), fun _ h => (nomatch h)⟩⟩,
      ⟨⟨by decide, by decide, rfl⟩, trivial⟩,
      ⟨trivial, fun _ _ =>
        ⟨fun _ _ _ _ h => (nomatch h), fun _ h => (nomatch h), fun _ h => (nomatch h)⟩⟩,
      ⟨⟨by decide, by decide, rfl⟩, trivial⟩, trivial⟩).2

/-- Without members there are no rows to tell of. -/
theorem Poller.Reads.rows_eq_nil {P : Poller} {v : Vault} {f : QueryFilters}
    {threshold : Option Int} (h : P.Reads v) (hplain : f.Plain v.toWorld threshold) {now : Int}
    {order : RowOrder}
    (hnone : ∀ id, ¬ v.member id P.group.id) : P.rows now order f v = [] := by
  refine List.eq_nil_iff_forall_not_mem.mpr fun row hrow => ?_
  obtain ⟨r, ⟨-, hmember, -⟩, -⟩ := h.selected_of_row hplain hrow
  exact hnone r.id hmember

/-- The master takes the banned address out of the group. -/
def Request.removal : Request :=
  .sample 0 7 (.delete_ip { target_address := some "203.0.113.7", group_name := some "bans" } .empty)

/-- The store after that. -/
def Vault.removed : Vault := (Service.sample.handle .removal .shown).2

theorem Vault.no_member_removed (id : Uuid) : ¬ Vault.removed.member id 2 := by
  rintro ⟨m, hm, -⟩
  have hrows : Vault.removed.memberships.rows = [] := by decide
  rw [← Table.mem_rows, hrows] at hm
  exact absurd hm List.not_mem_nil

/-- No poll says so: the copy keeps the address. -/
theorem removal_not_told :
    ¬ ∀ (S : Service) (P : Poller) (v : Vault) (now : Int) (order : RowOrder) (limit : Nat)
      (run : List SyncEvent), P.Reads v → v.memberships.rows.length ≤ limit ∧ limit < 2 ^ 63 →
      (now :: run.map SyncEvent.now).Pairwise (· ≤ ·) →
      Along (P.step S) SyncEvent.Regular run (P.start now order limit v) →
      P.Exact (P.start now order limit v) ∧
        Along (P.step S) (P.CatchesUp S) run (P.start now order limit v) := by
  intro h
  have hreads : Poller.sample.Reads .shown := Poller.sample_reads (by decide) (by decide)
  obtain ⟨hexact, -, hcaught, -⟩ := h .sample .sample .shown 6 .newest 8
    [.request .removal, .poll 9 .newest 8] hreads (by decide) (by decide)
    ⟨trivial, ⟨by decide, by decide, rfl⟩, trivial⟩
  have hremoved : Poller.sample.Reads .removed := Poller.sample_reads (by decide) (by decide)
  have hheld : "203.0.113.7" ∈ (Poller.sample.start 6 .newest 8 .shown).held := by
    refine (hexact _).mpr ?_
    have hrecord : ∃ r ∈ Vault.shown.records.rows, (r.id = 3 ∧ r.is_deleted = false) ∧
        r.target_address = "203.0.113.7" := by decide
    have hmember : Membership.mk 3 2 ∈ Vault.shown.memberships := by decide
    obtain ⟨r, hr, ⟨hid, hlive⟩, haddress⟩ := hrecord
    exact ⟨r, hr, ⟨_, hmember, hid.symm, rfl⟩, hlive, haddress⟩
  have hplain : (delta_request 6 8).Plain Vault.removed.toWorld (some (seconds (since_of 6))) :=
    delta_request_plain (by decide) rfl
  have hrows : Poller.sample.rows 9 .newest (delta_request 6 8) .removed = [] :=
    hremoved.rows_eq_nil hplain Vault.no_member_removed
  have hafter := hcaught 9 .newest 8 rfl "203.0.113.7"
  have hkept : "203.0.113.7" ∈ apply_rows (Poller.sample.start 6 .newest 8 .shown).held
      (Poller.sample.rows 9 .newest (delta_request 6 8) .removed) := by
    rw [hrows]
    exact hheld
  obtain ⟨r, -, hmember, -⟩ := hafter.mp hkept
  exact Vault.no_member_removed r.id hmember

end IpVault
