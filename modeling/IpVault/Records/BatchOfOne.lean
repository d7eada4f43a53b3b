import IpVault.Records.BatchContents
import IpVault.Records.BatchEvents
import IpVault.Records.Canonical

set_option autoImplicit false

/-! # A batch of one entry and a ban

`handle_ip_upsert` and `batch_records` register an address each in its own way. For a banlist that
is there, one entry and a ban are accepted alike and leave the same rows. For a group that is not
there they differ: a ban checks the address before it creates the group, and gives its caller a
permission row on it; a batch does neither.
-/

namespace IpVault

open Lib

/-! ## The same rows, but for timestamps -/

/-- A group without the time of its creation. -/
def IpGroup.timeless (g : IpGroup) : IpGroup := { g with created_at := 0 }

/-- The stores hold the same records, memberships, groups and permission rows, but for
timestamps. -/
structure SameRows (w w' : World) : Prop where
  records : ∀ id, (w'.records.find? id).map IpRecord.timeless =
    (w.records.find? id).map IpRecord.timeless
  memberships : w'.memberships = w.memberships
  groups : ∀ id, (w'.groups.find? id).map IpGroup.timeless =
    (w.groups.find? id).map IpGroup.timeless
  permissions : w'.permissions = w.permissions

theorem SameRows.refl (w : World) : SameRows w w := ⟨fun _ => rfl, rfl, fun _ => rfl, rfl⟩

/-! ## The transactions -/

/-- An entry that has an address and a cause, and nothing else. -/
def BatchRecordInput.plain (address : String) (cause : Option String) : BatchRecordInput where
  target_address := address
  cause := cause

section Transactions

variable {t : UpsertTxn} {b c : BatchTxn} {w w' x y : World}
variable {address spelling spelling' : String} {cause : Option String}

/-- A ban of an address that is not locked commits. -/
theorem UpsertTxn.run_total (hw : w.Wf) (hgroup : w.groups.has t.target_group_id = true)
    (hkey : w.keys.has t.caller.key.id = true)
    (hunlocked : w.locked_at t.normalized_address = false) : Commits t.run w := by
  have hend : ∀ id x, t.record_id w = .ok (id, x) → x.records.has id = true →
      x.groups = w.groups → x.keys = w.keys → Commits t.run w := by
    intro id x hid hrecord hgroups hkeys
    obtain ⟨n, x', hlink⟩ := Txn.link_total hrecord (hgroups ▸ hgroup)
    obtain rfl := Txn.link_ok hlink
    obtain ⟨x'', haudit⟩ := Txn.insert_audit_total
      (w := { x with memberships := x.memberships.insert ⟨id, t.target_group_id⟩ })
      (a := audit_row t.caller t.now (if n > 0 then "IP_ADD" else "IP_UPDATE")
        (some t.normalized_address) (some t.resolved_group_name)
        (some s!"Added IP to group. Whitelist: {t.is_whitelist}"))
      (by simpa [audit_row, hkeys] using hkey)
    exact .bind hid (.bind hlink (.bind haudit (.pure _ _)))
  have hread : Txn.read (·.record_at t.normalized_address) w =
      .ok (w.record_at t.normalized_address, w) := rfl
  cases hfound : w.record_at t.normalized_address with
  | none =>
      rw [hfound] at hread
      have hinsert := Txn.insert_record_of_new (r := t.fresh_record) hfound
      refine hend _ _ (atomic_bind_ok.mpr ⟨none, w, hread, hinsert⟩) ?_ rfl rfl
      exact Table.has_iff.mpr ⟨_, fresh_mem_insert hw _, rfl⟩
  | some r =>
      rw [hfound] at hread
      obtain ⟨hr, -⟩ := World.mem_of_record_at hfound
      have hl : r.is_locked = false := by
        unfold World.locked_at at hunlocked
        rw [hfound] at hunlocked
        exact hunlocked
      have hid : t.record_id w = .ok (((t.change r).apply r).id, { w with
          records := w.records.modify r.id (t.change r).apply (t.change r).apply_id }) := by
        refine atomic_bind_ok.mpr ⟨some r, w, hread, ?_⟩
        simp only [hl, Bool.false_eq_true, if_false]
        exact atomic_bind_ok.mpr ⟨_, _, Txn.update_record_of_mem hr, rfl⟩
      refine hend _ _ hid ?_ rfl rfl
      exact Table.has_iff.mpr ⟨_, apply_mem_modify hr, rfl⟩

/-- **The transaction of a ban** leaves what an entry leaves, and an audit row. -/
theorem UpsertTxn.run_report {action : String} (hw : w.Wf) (h : t.run w = .ok (action, x)) :
    action = (if t.as_batch.joins w (t.normalized_address, .plain t.normalized_address t.cause)
      then "IP_ADD" else "IP_UPDATE") ∧
    ∃ w' audit_logs, BatchTxn.EntryEffect t.as_batch t.normalized_address
      (.plain t.normalized_address t.cause) w w' ∧ x = { w' with audit_logs } := by
  obtain ⟨id, w₁, hrecord, h⟩ := atomic_bind_ok.mp h
  obtain ⟨n, w₂, hlink, h⟩ := atomic_bind_ok.mp h
  obtain ⟨_, w₃, haudit, h⟩ := atomic_bind_ok.mp h
  obtain ⟨haction, rfl⟩ := atomic_pure_ok.mp h
  have hcount := BatchTxn.Txn.link_count hlink
  obtain rfl := Txn.link_ok hlink
  obtain rfl := Txn.insert_audit_ok haudit
  have hjoins : n = if t.as_batch.joins w
      (t.normalized_address, .plain t.normalized_address t.cause) then 1 else 0 := by
    unfold BatchTxn.joins
    rcases UpsertTxn.record_id_ok hrecord with ⟨r, hr, hl, rfl, rfl⟩ | ⟨hn, rfl, rfl⟩
    · rw [hcount]
      simp only [hr, Option.all_some, hl]
      by_cases hmember : w.memberships.has (r.id, t.target_group_id) = true
      · simp [hmember, UpsertTxn.as_batch]
      · simp [hmember, UpsertTxn.as_batch]
    · rw [hcount]
      simp only [hn, Option.all_none]
      have hnew := BatchTxn.no_membership_of_next hw t.target_group_id
      simp [hnew]
  constructor
  · rw [← haction, hjoins]
    split
    · rfl
    · rfl
  · rcases UpsertTxn.record_id_ok hrecord with ⟨r, hr, hl, rfl, rfl⟩ | ⟨hn, rfl, rfl⟩
    · exact ⟨_, _, .changed r hr hl, rfl⟩
    · exact ⟨_, _, .created hn, rfl⟩

/-- **The transaction of a batch of one entry**, in upsert mode. -/
theorem BatchTxn.run_one {st : BatchState} (hmode : b.mode = .Upsert)
    (hentries : b.normalized = [(address, .plain spelling cause)]) (h : b.run w = .ok (st, x)) :
    ∃ w' audit_logs, BatchTxn.EntryEffect b address (.plain spelling cause) w w' ∧
      x = { w' with audit_logs } := by
  obtain ⟨st₁, w₁, hloop, h⟩ := atomic_bind_ok.mp h
  obtain ⟨st₂, w₂, hreplace, h⟩ := atomic_bind_ok.mp h
  obtain ⟨_, w₃, haudit, h⟩ := atomic_bind_ok.mp h
  obtain ⟨-, rfl⟩ := atomic_pure_ok.mp h
  obtain rfl := Txn.insert_audit_ok haudit
  have hkept : w₂ = w₁ := by
    unfold BatchTxn.replace at hreplace
    rw [hmode] at hreplace
    exact (atomic_pure_ok.mp hreplace).2.symm
  rw [hentries] at hloop
  obtain ⟨st', w', hentry, hrest⟩ := atomic_bind_ok.mp hloop
  obtain ⟨-, rfl⟩ := atomic_pure_ok.mp hrest
  rw [hkept]
  exact ⟨_, _, BatchTxn.entry_effect hentry, rfl⟩

/-- An update of a record is the same under both clocks. -/
theorem BatchTxn.change_timeless (r : IpRecord) :
    ((b.change (.plain spelling cause) r).apply r).timeless =
      ((c.change (.plain spelling' cause) r).apply r).timeless := by
  unfold BatchTxn.change BatchTxn.tombstone BatchRecordInput.plain Txn.RecordChange.apply
  cases r.is_deleted with
  | false => rfl
  | true => rfl

/-- So is a record that is created. -/
theorem BatchTxn.fresh_record_timeless (id : Uuid) :
    ({ b.fresh_record address (.plain spelling cause) with id } : IpRecord).timeless =
      ({ c.fresh_record address (.plain spelling' cause) with id } : IpRecord).timeless := by
  unfold BatchTxn.fresh_record BatchRecordInput.plain IpRecord.timeless
  simp only [Option.getD_none, Bool.false_eq_true, if_false]

/-- **One entry, under two clocks.** It leaves the same rows in both stores, but for timestamps. -/
theorem BatchTxn.EntryEffect.alike (hgroup : b.group.id = c.group.id)
    (hrecords : w'.records = w.records) (hmemberships : w'.memberships = w.memberships)
    (hnext : w'.next_uuid = w.next_uuid)
    (h : BatchTxn.EntryEffect b address (.plain spelling cause) w x)
    (h' : BatchTxn.EntryEffect c address (.plain spelling' cause) w' y) :
    (∀ id, (y.records.find? id).map IpRecord.timeless =
      (x.records.find? id).map IpRecord.timeless) ∧ y.memberships = x.memberships := by
  have hat : w'.record_at address = w.record_at address := by
    unfold World.record_at
    rw [hrecords]
  -- The same record stands at the address in both stores, so that the two entries have one kind of
  -- effect; the other combinations are absurd.
  cases h with
  | locked r hr hl =>
      cases h' with
      | locked r' hr' hl' => exact ⟨fun id => by rw [hrecords], hmemberships⟩
      | changed r' hr' hl' =>
          obtain rfl : r' = r := Option.some.inj ((hr'.symm.trans hat).trans hr)
          cases hl'.symm.trans hl
      | created hn' => cases (hn'.symm.trans hat).trans hr
  | changed r hr hl =>
      cases h' with
      | locked r' hr' hl' =>
          obtain rfl : r' = r := Option.some.inj ((hr'.symm.trans hat).trans hr)
          cases hl'.symm.trans hl
      | changed r' hr' hl' =>
          obtain rfl : r' = r := Option.some.inj ((hr'.symm.trans hat).trans hr)
          refine ⟨fun id => ?_, ?_⟩
          · show ((w'.records.modify r'.id _ (c.change _ r').apply_id).find? id).map _ =
              ((w.records.modify r'.id _ (b.change _ r').apply_id).find? id).map _
            rw [hrecords, Table.find?_modify, Table.find?_modify]
            by_cases hid : id = r'.id
            · rw [if_pos hid, if_pos hid, Table.find?_key (World.mem_of_record_at hr).1]
              exact congrArg some (BatchTxn.change_timeless r')
            · rw [if_neg hid, if_neg hid]
          · show w'.memberships.insert _ = w.memberships.insert _
            rw [hmemberships, hgroup]
      | created hn' => cases (hn'.symm.trans hat).trans hr
  | created hn =>
      cases h' with
      | locked r' hr' hl' => cases (hr'.symm.trans hat).trans hn
      | changed r' hr' hl' => cases (hr'.symm.trans hat).trans hn
      | created hn' =>
          refine ⟨fun id => ?_, ?_⟩
          · show ((w'.records.insert _).find? id).map _ = ((w.records.insert _).find? id).map _
            rw [hrecords, hnext, Table.find?_insert, Table.find?_insert]
            by_cases hid : w.records.has w.next_uuid = false ∧ w.next_uuid = id
            · rw [if_pos hid, if_pos hid]
              exact congrArg some (BatchTxn.fresh_record_timeless _)
            · rw [if_neg hid, if_neg hid]
          · show w'.memberships.insert _ = w.memberships.insert _
            rw [hmemberships, hgroup, hnext]

end Transactions

/-! ## The handlers -/

/-- A ban of the address into the group of that name. -/
def BanWhitePayload.into (address name : String) (cause : Option String) : BanWhitePayload where
  target_address := address
  group_name := some name
  cause := cause

/-- The batch that has the address as its one entry. -/
def BatchRecordsPayload.one (address name : String) (cause : Option String) :
    BatchRecordsPayload where
  group_name := name
  records := [.plain address cause]

section Handlers

variable {ctx : Ctx} {v : Vault} {address name : String} {cause : Option String}
variable {net : IpNetwork} {group : IpGroup}

theorem guard_batch_upsert (perm : Option GroupPermission) :
    guard_batch .Upsert perm = guard_can_write perm := by
  unfold guard_batch guard_can_write
  cases perm with
  | none => rfl
  | some p =>
      cases hp : p.can_write with
      | false => simp only [hp]; rfl
      | true => simp only [hp]; rfl

/-- The canonical text of an address passes the address check if the address does. -/
theorem guard_of_canonical (henv : ctx.env.Inverse)
    (hnet : ctx.env.parse_network address = some net) (input : BatchRecordInput) :
    guard_batch_addresses ctx.env [(normalize_ip_or_cidr ctx.env address, input)] =
      guard_bannable_address net := by
  unfold guard_batch_addresses
  rw [normalize_of_parse hnet, henv.parse_show address net hnet]
  have hmasked : guard_bannable_address net.masked = guard_bannable_address net := by
    unfold guard_bannable_address
    rw [net.network_masked]
  simp only [hmasked]
  cases hguard : guard_bannable_address net with
  | error e => rfl
  | ok u => rfl

theorem normalize_one (hnet : ctx.env.parse_network address = some net) :
    normalize_entries ctx.env (BatchRecordsPayload.one address name cause).records [] =
      .ok [(normalize_ip_or_cidr ctx.env address, .plain address cause)] := by
  unfold BatchRecordsPayload.one normalize_entries
  simp only [BatchRecordInput.plain, hnet]
  rfl

/-- Who may register an address in the group: as `batch_records` has it, and `handle_ip_upsert`. -/
def Ctx.Registers (ctx : Ctx) (name : String) (v : World) (group : IpGroup) : Prop :=
  (v.group_named name = some group ∧ (ctx.key.is_master = true ∨
    guard_can_write (v.permission ctx.key.id group.id) = .ok ())) ∨
  (v.group_named name = none ∧ (ctx.key.is_master = true ∨ ctx.key.can_create_groups = true) ∧
    group = { new_group name "banlist" (resource_owner ctx.key) ctx.now with id := v.next_uuid })

theorem one_admitted (cause : Option String) (henv : ctx.env.Inverse)
    (hnet : ctx.env.parse_network address = some net)
    (hguard : guard_bannable_address net = .ok ()) (h : ctx.Registers name v.toWorld group) :
    BatchAdmitted ctx (.one address name cause) v.toWorld group
      [(normalize_ip_or_cidr ctx.env address, .plain address cause)] where
  length := by
    show 1 ≤ 10000
    decide
  entries := normalize_one hnet
  target := by
    unfold BatchRecordsPayload.one
    rw [guard_batch_upsert]
    exact h
  addresses _ := by rw [guard_of_canonical henv hnet, hguard]

/-! ### Refusals -/

/-- No group of that name takes an address from the caller. -/
def Ctx.Shut (ctx : Ctx) (name : String) (v : World) : Prop := ∀ group, ¬ ctx.Registers name v group

/-- A ban whose address is read and may be banned. -/
theorem ban_reads (v : Vault) (name : String) (cause : Option String)
    (hnet : ctx.env.parse_network address = some net)
    (hguard : guard_bannable_address net = .ok ()) :
    Ends (Prog.okOr (.InvalidInput "Invalid IP or CIDR format")
      (ctx.env.parse_network (BanWhitePayload.into address name cause).target_address)) v (.ok net)
      v [] ∧
    Ends (Prog.ofExcept (if false then .ok () else guard_bannable_address net)) v (.ok ()) v
      [] := by
  constructor
  · unfold BanWhitePayload.into
    rw [hnet]
    exact Prog.Ends.okOr_some net
  · rw [if_neg Bool.false_ne_true, hguard]
    exact Prog.Ends.ofExcept _

/-- A batch whose address is read. -/
theorem batch_reads (v : Vault) (name : String) (cause : Option String)
    (hnet : ctx.env.parse_network address = some net) :
    Ends (Prog.require ((BatchRecordsPayload.one address name cause).records.length ≤
      MAX_BATCH_RECORDS) (.InvalidInput
        (s!"Batch too large: {(BatchRecordsPayload.one address name cause).records.length} " ++
         s!"records, limit is {MAX_BATCH_RECORDS}. Split it and retry."))) v (.ok ()) v [] ∧
    Ends (Prog.ofExcept (normalize_entries ctx.env
      (BatchRecordsPayload.one address name cause).records [])) v
      (.ok [(normalize_ip_or_cidr ctx.env address, .plain address cause)]) v [] := by
  constructor
  · refine Prog.Ends.require ?_
    show 1 ≤ 10000
    decide
  · rw [normalize_one hnet]
    exact Prog.Ends.ofExcept _

theorem ban_of_malformed (hnet : ctx.env.parse_network address = none) :
    ∃ e, Ends (handle_ban ctx (.into address name cause)) v (.error e) v [] := by
  have hread : Ends (Prog.okOr (.InvalidInput "Invalid IP or CIDR format")
      (ctx.env.parse_network address)) v (.error (.InvalidInput "Invalid IP or CIDR format")) v
      [] := by
    rw [hnet]
    exact Prog.Ends.okOr_none _
  exact ⟨_, hread.bind_error⟩

theorem batch_of_malformed (hnet : ctx.env.parse_network address = none) :
    ∃ e, Ends (batch_records ctx (.one address name cause)) v (.error e) v [] := by
  have hlength : (BatchRecordsPayload.one address name cause).records.length ≤
      MAX_BATCH_RECORDS := by
    show 1 ≤ 10000
    decide
  obtain ⟨e, he⟩ : ∃ e, normalize_entries ctx.env
      (BatchRecordsPayload.one address name cause).records [] = .error e := by
    unfold BatchRecordsPayload.one normalize_entries
    simp only [BatchRecordInput.plain, hnet]
    exact ⟨_, rfl⟩
  have hentries : Ends (Prog.ofExcept (normalize_entries ctx.env
      (BatchRecordsPayload.one address name cause).records [])) v (.error e) v [] := by
    rw [he]
    exact Prog.Ends.ofExcept _
  exact ⟨e, (Prog.Ends.require hlength).bind hentries.bind_error⟩

/-- An address no ban may cover is refused before anything is written. -/
theorem ban_of_protected (hnet : ctx.env.parse_network address = some net)
    (hguard : guard_bannable_address net ≠ .ok ()) :
    ∃ e, Ends (handle_ban ctx (.into address name cause)) v (.error e) v [] := by
  have hread : Ends (Prog.okOr (.InvalidInput "Invalid IP or CIDR format")
      (ctx.env.parse_network address)) v (.ok net) v [] := by
    rw [hnet]
    exact Prog.Ends.okOr_some net
  cases hcheck : guard_bannable_address net with
  | ok u => exact absurd hcheck hguard
  | error e =>
      have haddress : Ends (Prog.ofExcept (if false then .ok () else guard_bannable_address net)) v
          (.error e) v [] := by
        rw [if_neg Bool.false_ne_true, hcheck]
        exact Prog.Ends.ofExcept _
      exact ⟨e, hread.bind haddress.bind_error⟩

/-- A caller who may not write there is refused: no group has the name and the caller may not create
one, or the caller has no write permission on it. -/
theorem Ctx.Shut.refuses (h : ctx.Shut name v.toWorld) :
    (v.group_named name = none ∧
      ¬ (ctx.key.is_master = true ∨ ctx.key.can_create_groups = true)) ∨
    ∃ g e, v.group_named name = some g ∧ ¬ ctx.key.is_master = true ∧
      guard_can_write (v.permission ctx.key.id g.id) = .error e := by
  cases hnamed : v.group_named name with
  | none => exact Or.inl ⟨rfl, fun hmay => h _ (Or.inr ⟨hnamed, hmay, rfl⟩)⟩
  | some g =>
      have hmaster : ¬ ctx.key.is_master = true := fun hm => h g (Or.inl ⟨hnamed, Or.inl hm⟩)
      cases hcheck : guard_can_write (v.permission ctx.key.id g.id) with
      | ok u => exact absurd (Or.inl ⟨hnamed, Or.inr hcheck⟩) (h g)
      | error e => exact Or.inr ⟨g, e, rfl, hmaster, hcheck⟩

theorem ban_of_shut (hnet : ctx.env.parse_network address = some net)
    (hguard : guard_bannable_address net = .ok ()) (h : ctx.Shut name v.toWorld) :
    ∃ e, Ends (handle_ban ctx (.into address name cause)) v (.error e) v [] := by
  obtain ⟨hread, haddress⟩ := ban_reads v name cause hnet hguard
  obtain ⟨e, hgroup⟩ : ∃ e, Ends (upsert_group ctx (.into address name cause) false) v (.error e) v
      [] := by
    have hfind := select_ends (v := v) (.group_by_name name)
    rcases h.refuses with ⟨hnamed, hmay⟩ | ⟨g, e, hnamed, hmaster, hcheck⟩
    · have heval : (Query.group_by_name name).eval v.toWorld = none := hnamed
      rw [heval] at hfind
      exact ⟨_, hfind.bind (Prog.Ends.require_error hmay).bind_error⟩
    · have heval : (Query.group_by_name name).eval v.toWorld = some g := hnamed
      rw [heval] at hfind
      have hrefused : Ends (upsert_guard ctx g.id) v (.error e) v [] :=
        row_guard_refuses hmaster hcheck
      exact ⟨e, hfind.bind hrefused.bind_error⟩
  exact ⟨e, hread.bind (haddress.bind hgroup.bind_error)⟩

theorem batch_of_shut (hnet : ctx.env.parse_network address = some net)
    (h : ctx.Shut name v.toWorld) :
    ∃ e, Ends (batch_records ctx (.one address name cause)) v (.error e) v [] := by
  obtain ⟨hlength, hentries⟩ := batch_reads v name cause hnet
  obtain ⟨e, hgroup⟩ : ∃ e, Ends (batch_group ctx (.one address name cause)) v (.error e) v [] := by
    have hfind := select_ends (v := v) (.group_by_name name)
    rcases h.refuses with ⟨hnamed, hmay⟩ | ⟨g, e, hnamed, hmaster, hcheck⟩
    · have heval : (Query.group_by_name name).eval v.toWorld = none := hnamed
      rw [heval] at hfind
      exact ⟨_, hfind.bind (Prog.Ends.require_error hmay).bind_error⟩
    · have heval : (Query.group_by_name name).eval v.toWorld = some g := hnamed
      rw [heval] at hfind
      have hrefused : Ends (batch_guard ctx .Upsert g.id) v (.error e) v [] :=
        row_guard_refuses hmaster ((guard_batch_upsert _).trans hcheck)
      exact ⟨e, hfind.bind hrefused.bind_error⟩
  exact ⟨e, hlength.bind (hentries.bind hgroup.bind_error)⟩

/-- A batch that holds an address no ban may cover is refused once its group is there. -/
theorem batch_of_protected (henv : ctx.env.Inverse)
    (hnet : ctx.env.parse_network address = some net) (hguard : guard_bannable_address net ≠ .ok ())
    (h : ctx.Registers name v.toWorld group)
    (htype : group.group_type = "banlist") :
    ∃ e, Ends (batch_records ctx (.one address name cause)) v (.error e)
      (batch_base ctx (.one address name cause) v) [] := by
  obtain ⟨hlength, hentries⟩ := batch_reads v name cause hnet
  have hgroup : Ends (batch_group ctx (.one address name cause)) v (.ok group)
      (batch_base ctx (.one address name cause) v) [] := by
    refine batch_group_ends ?_
    unfold BatchRecordsPayload.one
    rw [guard_batch_upsert]
    exact h
  cases hcheck : guard_bannable_address net with
  | ok u => exact absurd hcheck hguard
  | error e =>
      have haddress : Ends (Prog.ofExcept (if group.group_type ≠ "whitelist" then
          guard_batch_addresses ctx.env [(normalize_ip_or_cidr ctx.env address,
            .plain address cause)] else .ok ())) (batch_base ctx (.one address name cause) v)
          (.error e) (batch_base ctx (.one address name cause) v) [] := by
        rw [if_pos (by rw [htype]; decide), guard_of_canonical henv hnet, hcheck]
        exact Prog.Ends.ofExcept _
      exact ⟨e, hlength.bind (hentries.bind (hgroup.bind haddress.bind_error))⟩

/-! ### A ban from start to end -/

/-- The store in which the transaction of a ban begins. Where it created the group, a caller other
than the master has a row on it. -/
def ban_base (ctx : Ctx) (address name : String) (cause : Option String) (v : Vault) : Vault :=
  if (v.group_named name).isNone ∧ ctx.key.is_master = false then
    (batch_base ctx (.one address name cause) v).after
      (.insert_permission_or_ignore (creator_permission ctx.key.id v.next_uuid ctx.now))
  else batch_base ctx (.one address name cause) v

/-- It is the one in which that of a batch begins, but for permission rows. -/
theorem ban_base_eq (ctx : Ctx) (address name : String) (cause : Option String) (v : Vault) :
    ∃ permissions, (ban_base ctx address name cause v).toWorld =
    { (batch_base ctx (.one address name cause) v).toWorld with permissions } := by
  unfold ban_base
  by_cases h : (v.group_named name).isNone = true ∧ ctx.key.is_master = false
  · rw [if_pos h, Vault.after_toWorld]
    unfold Stmt.after Stmt.txn Txn.insert_permission_or_ignore
    by_cases hends : Txn.permission_ends (batch_base ctx (.one address name cause) v).toWorld
        (creator_permission ctx.key.id v.next_uuid ctx.now) = true
    · simp only [hends, Bool.not_true, Bool.false_eq_true, if_false]
      exact ⟨_, rfl⟩
    · simp only [hends, Bool.not_false, if_true]
      exact ⟨_, rfl⟩
  · rw [if_neg h]
    exact ⟨_, rfl⟩

/-- The row of the caller on the group it has created can be written. -/
theorem provision_ok (address : String) (cause : Option String)
    (hnone : v.group_named name = none) (hkey : v.keys.has ctx.key.id = true) :
    (Stmt.insert_permission_or_ignore (creator_permission ctx.key.id v.next_uuid ctx.now)).txn
        (batch_base ctx (.one address name cause) v).toWorld =
      .ok ((), { (batch_base ctx (.one address name cause) v).toWorld with
        permissions := (batch_base ctx (.one address name cause) v).permissions.insert
          (creator_permission ctx.key.id v.next_uuid ctx.now) }) := by
  have hends : Txn.permission_ends (batch_base ctx (.one address name cause) v).toWorld
      (creator_permission ctx.key.id v.next_uuid ctx.now) = true := by
    unfold Txn.permission_ends batch_base
    have hname : v.group_named (BatchRecordsPayload.one address name cause).group_name = none :=
      hnone
    have hcreated := created_group_named ctx hname
    rw [hname, Bool.and_eq_true]
    constructor
    · have hkeys := (Stmt.frame (.insert_group_or_ignore (new_group
        (BatchRecordsPayload.one address name cause).group_name "banlist" (resource_owner ctx.key)
        ctx.now)) v.toWorld).keys rfl
      show (Stmt.after _ _).keys.has ctx.key.id = true
      rw [hkeys]
      exact hkey
    · exact Table.has_iff.mpr ⟨_, (World.mem_of_group_named hcreated).1, rfl⟩
  simp only [Stmt.txn, Txn.insert_permission_or_ignore, hends, Bool.not_true, Bool.false_eq_true,
    if_false]

theorem batch_base_permissions (ctx : Ctx) (v : Vault) (payload : BatchRecordsPayload) :
    (batch_base ctx payload v).permissions = v.permissions := by
  unfold batch_base
  cases v.group_named payload.group_name with
  | some g => rfl
  | none => exact (Stmt.frame (.insert_group_or_ignore _) v.toWorld).permissions rfl

/-- The groups are the same exactly if none is created. -/
theorem batch_base_same : SameRows v.toWorld (batch_base ctx (.one address name cause) v).toWorld ↔
    v.group_named name ≠ none := by
  have hname : (BatchRecordsPayload.one address name cause).group_name = name := rfl
  constructor
  · intro h hnone
    have hcreated := @created_group_named (.one address name cause) v ctx hnone
    have hbase : batch_base ctx (.one address name cause) v = v.after (.insert_group_or_ignore
        (new_group name "banlist" (resource_owner ctx.key) ctx.now)) := by
      unfold batch_base
      rw [hname, hnone]
    have hthere := Table.find?_key (World.mem_of_group_named hcreated).1
    have hgroups := h.groups v.next_uuid
    have hnew : v.groups.find? v.next_uuid = none := by
      refine Table.find?_eq_none.mpr fun g hg hid => ?_
      exact absurd hid (Nat.ne_of_lt (v.wf.group_fresh g hg))
    rw [hnew, hbase] at hgroups
    have hfound : ((v.after (.insert_group_or_ignore (new_group name "banlist"
        (resource_owner ctx.key) ctx.now))).groups.find? v.next_uuid).map IpGroup.timeless =
        some _ := congrArg (Option.map IpGroup.timeless) hthere
    cases hgroups.symm.trans hfound
  · intro hnamed
    obtain ⟨g, hg⟩ := Option.ne_none_iff_exists'.mp hnamed
    have hbase : batch_base ctx (.one address name cause) v = v := by
      unfold batch_base
      rw [hname, hg]
    rw [hbase]
    exact .refl _

/-- **The row of the creator**: a ban leaves the permission rows alone exactly if it creates no
group, or it is the master who does. -/
theorem ban_base_permissions (hkey : v.keys.has ctx.key.id = true) :
    (ban_base ctx address name cause v).permissions = v.permissions ↔
      (v.group_named name = none → ctx.key.is_master = true) := by
  have hkept := batch_base_permissions ctx v (.one address name cause)
  unfold ban_base
  by_cases h : (v.group_named name).isNone = true ∧ ctx.key.is_master = false
  · rw [if_pos h]
    have hnone : v.group_named name = none := Option.isNone_iff_eq_none.mp h.1
    constructor
    · intro hsame
      have hwritten := provision_ok address cause hnone hkey
      have hafter := Stmt.after_of_ok hwritten
      rw [Vault.after_toWorld, hafter] at hsame
      have hinsert : v.permissions.insert (creator_permission ctx.key.id v.next_uuid ctx.now) =
          v.permissions := by
        rw [← hkept]
        exact hsame.trans hkept.symm
      -- no row of the old store is about a group that was still to come
      have hnew : v.permissions.has (creator_permission ctx.key.id v.next_uuid ctx.now).key =
          false := by
        refine Table.has_eq_false.mpr fun p hp hsameKey => ?_
        obtain ⟨g, hg, hid⟩ := Table.has_iff.mp (v.wf.permission_group p hp)
        have hlt := v.wf.group_fresh g hg
        have hgroup : p.group_id = v.next_uuid := congrArg Prod.snd hsameKey
        rw [hid, hgroup] at hlt
        exact absurd hlt (Nat.lt_irrefl _)
      have hmem : creator_permission ctx.key.id v.next_uuid ctx.now ∈ v.permissions := by
        rw [← hinsert]
        exact Table.mem_insert.mpr (Or.inr ⟨hnew, rfl⟩)
      exact absurd rfl (Table.has_eq_false.mp hnew _ hmem)
    · intro hmaster
      have hm := hmaster hnone
      rw [h.2] at hm
      cases hm
  · rw [if_neg h]
    refine ⟨fun _ hnone => ?_, fun _ => hkept⟩
    by_contra hm
    exact h ⟨by rw [hnone]; rfl, Bool.eq_false_iff.mpr hm⟩

/-- The event of a ban. -/
def UpsertTxn.event (t : UpsertTxn) (w : World) : WebhookEvent where
  action := if t.as_batch.joins w (t.normalized_address, .plain t.normalized_address t.cause)
    then "IP_ADD" else "IP_UPDATE"
  address := t.normalized_address
  is_whitelist := t.is_whitelist
  group_id := some t.target_group_id
  group_name := some t.resolved_group_name
  cause := t.cause

theorem ban_group_ends (cause : Option String) (henv : ctx.env.Inverse)
    (hnet : ctx.env.parse_network address = some net)
    (hguard : guard_bannable_address net = .ok ()) (h : ctx.Registers name v.toWorld group)
    (htype : group.group_type = "banlist") (hkey : v.keys.has ctx.key.id = true) :
    Ends (upsert_group ctx (.into address name cause) false) v (.ok group)
      (ban_base ctx address name cause v) [] := by
  have hfind := select_ends (v := v) (.group_by_name name)
  have hgroupType : guard_group_type false group = .ok () := by
    unfold guard_group_type
    rw [htype]
    rfl
  have hadmitted := one_admitted cause henv hnet hguard h
  rcases h with ⟨hnamed, hmay⟩ | ⟨hnone, hmay, hgroup⟩
  · have heval : (Query.group_by_name name).eval v.toWorld = some group := hnamed
    rw [heval] at hfind
    have hbase : ban_base ctx address name cause v = v := by
      unfold ban_base batch_base BatchRecordsPayload.one
      rw [hnamed]
      exact if_neg fun hboth => by simp at hboth
    have hchecked : Ends (upsert_guard ctx group.id) v (.ok ()) v [] := row_guard_passes hmay
    have hmatches : Ends (Prog.ofExcept (guard_group_type false group)) v (.ok ()) v [] := by
      rw [hgroupType]
      exact Prog.Ends.ofExcept _
    rw [hbase]
    exact hfind.bind (hchecked.bind (hmatches.bind (Prog.Ends.ret group)))
  · have heval : (Query.group_by_name name).eval v.toWorld = none := hnone
    rw [heval] at hfind
    have hcreated := @get_or_create_group_ends (.one address name cause) v ctx hnone
    have hbatch : batch_base ctx (.one address name cause) v =
        v.after (.insert_group_or_ignore (new_group name "banlist" (resource_owner ctx.key)
          ctx.now)) := by
      have hnamed : v.group_named (BatchRecordsPayload.one address name cause).group_name = none :=
        hnone
      unfold batch_base
      rw [hnamed]
      rfl
    have hprovisioned : Ends (provision_caller ctx group.id)
        (batch_base ctx (.one address name cause) v) (.ok ())
        (ban_base ctx address name cause v) [] := by
      have hid : group.id = v.next_uuid := by rw [hgroup]
      unfold provision_caller ban_base
      by_cases hm : ctx.key.is_master = true
      · rw [if_pos hm, if_neg fun hboth => by simp [hm] at hboth]
        exact Prog.Ends.ret ()
      · rw [if_neg hm, if_pos ⟨by rw [hnone]; rfl, Bool.eq_false_iff.mpr hm⟩, hid]
        exact exec_hands (provision_ok address cause hnone hkey)
    rw [hbatch, hgroup] at hprovisioned
    rw [hgroup]
    exact hfind.bind ((Prog.Ends.require hmay).bind (hcreated.bind (hprovisioned.bind
      (Prog.Ends.ret _))))

/-- **A ban that is admitted is carried out.** -/
theorem ban_ends (cause : Option String) (henv : ctx.env.Inverse)
    (hnet : ctx.env.parse_network address = some net)
    (hguard : guard_bannable_address net = .ok ()) (h : ctx.Registers name v.toWorld group)
    (htype : group.group_type = "banlist") (hkey : v.keys.has ctx.key.id = true)
    (hunlocked : v.locked_at (normalize_ip_or_cidr ctx.env address) = false) {t : UpsertTxn}
    (ht : t = upsert_transaction ctx (.into address name cause) false group) :
    ∃ (w : Vault) (x : World) (audit_logs : List AuditLog),
      Ends (handle_ban ctx (.into address name cause)) v (.ok ok_empty)
        (w.queued [t.event (ban_base ctx address name cause v).toWorld])
        [t.event (ban_base ctx address name cause v).toWorld] ∧
      BatchTxn.EntryEffect t.as_batch t.normalized_address (.plain t.normalized_address t.cause)
        (ban_base ctx address name cause v).toWorld x ∧ w.toWorld = { x with audit_logs } := by
  have hadmitted := one_admitted cause henv hnet hguard h
  obtain ⟨permissions, hbase⟩ := ban_base_eq ctx address name cause v
  have hrecords := (batch_base_records ctx (.one address name cause) v).1
  have hthere : (ban_base ctx address name cause v).groups.has t.target_group_id = true := by
    rw [hbase, ht]
    exact Table.has_iff.mpr ⟨group, hadmitted.group_in_base, rfl⟩
  have hcaller : (ban_base ctx address name cause v).keys.has t.caller.key.id = true := by
    rw [hbase, ht]
    show (batch_base ctx (.one address name cause) v).keys.has ctx.key.id = true
    rw [batch_base_keys]
    exact hkey
  have hopen : (ban_base ctx address name cause v).locked_at t.normalized_address = false := by
    rw [hbase, ht]
    unfold World.locked_at World.record_at at hunlocked ⊢
    rw [hrecords]
    exact hunlocked
  obtain ⟨action, w, hrun⟩ := UpsertTxn.run_total (ban_base ctx address name cause v).wf hthere
    hcaller hopen
  obtain ⟨haction, x, audit_logs, heffect, hw⟩ :=
    UpsertTxn.run_report (ban_base ctx address name cause v).wf hrun
  have hafter : ((ban_base ctx address name cause v).after (.upsert_txn t)).toWorld = w :=
    Stmt.after_of_ok hrun
  refine ⟨(ban_base ctx address name cause v).after (.upsert_txn t), x, audit_logs, ?_, heffect,
    hafter.trans hw⟩
  obtain ⟨hread, haddress⟩ := ban_reads v name cause hnet hguard
  have hgroup := ban_group_ends cause henv hnet hguard h htype hkey
  have htxn := exec_hands (v := ban_base ctx address name cause v) (l := .upsert_txn t) hrun
  have hqueue : Ends (exec (.enqueue (t.event (ban_base ctx address name cause v).toWorld)))
      ((ban_base ctx address name cause v).after (.upsert_txn t)) (.ok ())
      (((ban_base ctx address name cause v).after (.upsert_txn t)).queued
        [t.event (ban_base ctx address name cause v).toWorld])
      [t.event (ban_base ctx address name cause v).toWorld] :=
    exec_hands (l := .enqueue _) rfl
  rw [ht] at htxn
  refine hread.bind (haddress.bind (hgroup.bind (htxn.bind ?_)))
  have hanswer : Ends (do
        exec (.enqueue (t.event (ban_base ctx address name cause v).toWorld))
        pure ok_empty : Handler Response)
      ((ban_base ctx address name cause v).after (.upsert_txn t)) (.ok ok_empty)
      (((ban_base ctx address name cause v).after (.upsert_txn t)).queued
        [t.event (ban_base ctx address name cause v).toWorld])
      ([t.event (ban_base ctx address name cause v).toWorld] ++ []) :=
    hqueue.bind (Prog.Ends.ret ok_empty)
  rw [haction]
  rw [ht] at hanswer ⊢
  exact hanswer

end Handlers

/-! ## The same address, registered in both ways -/

section Both

variable {ctx ctx' : Ctx} {v : Vault} {address name : String} {cause : Option String}
variable {net : IpNetwork} {group group' : IpGroup}

theorem BatchTxn.EntryEffect.only {b : BatchTxn} {input : BatchRecordInput} {w x : World}
    (h : BatchTxn.EntryEffect b address input w x) :
    x.groups = w.groups ∧ x.permissions = w.permissions := by
  cases h with
  | locked r hr hl => exact ⟨rfl, rfl⟩
  | changed r hr hl => exact ⟨rfl, rfl⟩
  | created hn => exact ⟨rfl, rfl⟩

/-- Both find the same group, or create one each, of the same identifier and name. -/
theorem Ctx.Registers.same_group (h : ctx.Registers name v.toWorld group)
    (h' : ctx'.Registers name v.toWorld group') :
    group'.id = group.id ∧ group'.name = group.name ∧ group'.group_type = group.group_type := by
  rcases h with ⟨hnamed, -⟩ | ⟨hnone, -, hnew⟩
  · rcases h' with ⟨hnamed', -⟩ | ⟨hnone', -, -⟩
    · obtain rfl : group' = group := Option.some.inj (hnamed'.symm.trans hnamed)
      exact ⟨rfl, rfl, rfl⟩
    · cases hnone'.symm.trans hnamed
  · rcases h' with ⟨hnamed', -⟩ | ⟨-, -, hnew'⟩
    · cases hnamed'.symm.trans hnone
    · rw [hnew, hnew']
      exact ⟨rfl, rfl, rfl⟩

/-- Whether there is one does not depend on the clock. -/
theorem Ctx.Registers.of_key (hkeys : ctx'.key = ctx.key)
    (h : ctx.Registers name v.toWorld group) : ∃ group', ctx'.Registers name v.toWorld group' := by
  rcases h with ⟨hnamed, hmay⟩ | ⟨hnone, hmay, -⟩
  · rw [← hkeys] at hmay
    exact ⟨group, Or.inl ⟨hnamed, hmay⟩⟩
  · rw [← hkeys] at hmay
    exact ⟨_, Or.inr ⟨hnone, hmay, rfl⟩⟩

theorem Ctx.Registers.banlist (h : ctx.Registers name v.toWorld group)
    (htype : ∀ g, v.group_named name = some g → g.group_type = "banlist") :
    group.group_type = "banlist" := by
  rcases h with ⟨hnamed, -⟩ | ⟨-, -, hnew⟩
  · exact htype group hnamed
  · rw [hnew]
    rfl

/-- The stores in which the two transactions begin differ in the time a group was created. -/
theorem batch_base_alike (address : String) (cause : Option String)
    (hkeys : ctx'.key = ctx.key) :
    (∀ id, ((batch_base ctx' (.one address name cause) v).groups.find? id).map IpGroup.timeless =
      ((batch_base ctx (.one address name cause) v).groups.find? id).map IpGroup.timeless) ∧
    (batch_base ctx' (.one address name cause) v).permissions = v.permissions ∧
    (batch_base ctx (.one address name cause) v).permissions = v.permissions ∧
    (batch_base ctx' (.one address name cause) v).next_uuid =
      (batch_base ctx (.one address name cause) v).next_uuid := by
  have hname : (BatchRecordsPayload.one address name cause).group_name = name := rfl
  cases hnamed : v.group_named name with
  | some g =>
      have hbase : ∀ c : Ctx, batch_base c (.one address name cause) v = v := by
        intro c
        unfold batch_base
        rw [hname, hnamed]
      rw [hbase, hbase]
      exact ⟨fun _ => rfl, rfl, rfl, rfl⟩
  | none =>
      have hbase : ∀ c : Ctx, (batch_base c (.one address name cause) v).toWorld =
          { v.toWorld with
            groups := v.groups.insert { new_group name "banlist" (resource_owner c.key) c.now with
              id := v.next_uuid }
            next_uuid := v.next_uuid + 1 } := by
        intro c
        unfold batch_base
        rw [hname, hnamed]
        show ((Stmt.insert_group_or_ignore _).after v.toWorld) = _
        rw [after_insert_group_or_ignore, if_neg (by simp [new_group, hnamed])]
      rw [hbase, hbase]
      refine ⟨fun id => ?_, rfl, rfl, rfl⟩
      show ((v.groups.insert _).find? id).map _ = ((v.groups.insert _).find? id).map _
      rw [Table.find?_insert, Table.find?_insert, hkeys]
      by_cases hid : v.groups.has v.next_uuid = false ∧ v.next_uuid = id
      · rw [if_pos hid, if_pos hid]
        rfl
      · rw [if_neg hid, if_neg hid]

/-- Both announce the address alike. -/
theorem same_event {t : UpsertTxn} {b : BatchTxn} {w w' : World}
    (hgroup : b.group.id = t.target_group_id) (hname : b.group.name = t.resolved_group_name)
    (htype : (b.group.group_type == "whitelist") = t.is_whitelist)
    (hrecords : w'.records = w.records) (hmemberships : w'.memberships = w.memberships)
    (spelling : String) :
    b.entry_event w' (t.normalized_address, .plain spelling t.cause) = t.event w := by
  have hat : w'.record_at t.normalized_address = w.record_at t.normalized_address := by
    unfold World.record_at
    rw [hrecords]
  have hjoins : b.joins w' (t.normalized_address, .plain spelling t.cause) =
      t.as_batch.joins w (t.normalized_address, .plain t.normalized_address t.cause) := by
    unfold BatchTxn.joins
    rw [hat, hmemberships, hgroup]
    rfl
  unfold BatchTxn.entry_event BatchTxn.event UpsertTxn.event
  rw [hjoins, hgroup, hname, htype]
  rfl

/-- **A ban and a batch of one entry that are both accepted.** -/
theorem accepted_alike (henv : ctx.env.Inverse) (henvs : ctx'.env = ctx.env)
    (hkeys : ctx'.key = ctx.key) (hnet : ctx.env.parse_network address = some net)
    (hguard : guard_bannable_address net = .ok ()) (h : ctx.Registers name v.toWorld group)
    (h' : ctx'.Registers name v.toWorld group') (htype : group.group_type = "banlist")
    (hkey : v.keys.has ctx.key.id = true)
    (hunlocked : v.locked_at (normalize_ip_or_cidr ctx.env address) = false) :
    ∃ (w w' : Vault) (r : Response) (e : WebhookEvent),
      Ends (handle_ban ctx (.into address name cause)) v (.ok ok_empty) w [e] ∧
      Ends (batch_records ctx' (.one address name cause)) v (.ok r) w' [e] ∧
      w.permissions = (ban_base ctx address name cause v).permissions ∧
      SameRows { w.toWorld with permissions := v.permissions } w'.toWorld := by
  obtain ⟨hid, hname, hsameType⟩ := h.same_group h'
  have hadmitted : BatchAdmitted ctx' (.one address name cause) v.toWorld group'
      [(normalize_ip_or_cidr ctx.env address, .plain address cause)] := by
    have henv' : ctx'.env.Inverse := henvs ▸ henv
    have hnet' : ctx'.env.parse_network address = some net := henvs ▸ hnet
    have hone := one_admitted cause henv' hnet' hguard h'
    rw [henvs] at hone
    exact hone
  have hthere : v.keys.has ctx'.key.id = true := by
    rw [hkeys]
    exact hkey
  obtain ⟨events, w', hran, hbatch⟩ := batch_ends hadmitted hthere
  obtain ⟨w, x, audit_logs, hban, heffect, hw⟩ :=
    ban_ends cause henv hnet hguard h htype hkey hunlocked rfl
  obtain ⟨x', audit_logs', heffect', hw'⟩ := BatchTxn.run_one rfl rfl hran.run
  obtain ⟨permissions, hbase⟩ := ban_base_eq ctx address name cause v
  have hrecords := batch_base_records ctx (.one address name cause) v
  have hrecords' := batch_base_records ctx' (.one address name cause) v
  obtain ⟨hgroups, hpermissions', hpermissions, hnext⟩ := batch_base_alike address cause hkeys
  have hsameRecords : (batch_base ctx' (.one address name cause) v).records =
      (ban_base ctx address name cause v).records := by
    rw [hbase]
    exact hrecords'.1.trans hrecords.1.symm
  have hsameMemberships : (batch_base ctx' (.one address name cause) v).memberships =
      (ban_base ctx address name cause v).memberships := by
    rw [hbase]
    exact hrecords'.2.trans hrecords.2.symm
  have hsameNext : (batch_base ctx' (.one address name cause) v).next_uuid =
      (ban_base ctx address name cause v).next_uuid := by
    rw [hbase]
    exact hnext
  -- the events
  have hevent := same_event (t := upsert_transaction ctx (.into address name cause) false group)
    (b := batch_transaction ctx' (.one address name cause) group' [(normalize_ip_or_cidr ctx.env
      address, .plain address cause)]) hid hname (by
        show (group'.group_type == "whitelist") = false
        rw [hsameType, htype]
        decide) hsameRecords hsameMemberships address
  have hskips : BatchTxn.skips (batch_base ctx' (.one address name cause) v).toWorld
      (normalize_ip_or_cidr ctx.env address, .plain address cause) = false := by
    unfold World.locked_at World.record_at at hunlocked
    unfold BatchTxn.skips World.record_at
    rw [hrecords'.1]
    exact hunlocked
  have hevents : events = [(upsert_transaction ctx (.into address name cause) false group).event
      (ban_base ctx address name cause v).toWorld] := by
    have hperm := hran.events
    rw [BatchTxn.events_eq rfl, BatchTxn.swept_of_upsert rfl, List.map_nil,
      List.append_nil] at hperm
    have hfilter : (batch_transaction ctx' (.one address name cause) group'
        [(normalize_ip_or_cidr ctx.env address, .plain address cause)]).normalized.filter
          (!BatchTxn.skips (batch_base ctx' (.one address name cause) v).toWorld ·) =
        [(normalize_ip_or_cidr ctx.env address, .plain address cause)] := by
      show [_].filter _ = _
      rw [List.filter_singleton, hskips]
      rfl
    rw [hfilter] at hperm
    rw [List.perm_singleton.mp hperm]
    exact congrArg (fun x => [x]) hevent
  -- the rows
  obtain ⟨hrows, hmembers⟩ := heffect.alike (c := batch_transaction ctx' (.one address name cause)
    group' [(normalize_ip_or_cidr ctx.env address, .plain address cause)]) hid.symm hsameRecords
    hsameMemberships hsameNext heffect'
  rw [hevents] at hbatch
  refine ⟨_, _, _, _, hban, hbatch, ?_, ⟨fun id => ?_, ?_, fun id => ?_, ?_⟩⟩
  · rw [Vault.queued_toWorld]
    show w.permissions = _
    rw [hw]
    exact heffect.only.2
  · rw [Vault.queued_toWorld, Vault.queued_toWorld]
    show (w'.records.find? id).map _ = (w.records.find? id).map _
    rw [hw, hw']
    exact hrows id
  · rw [Vault.queued_toWorld, Vault.queued_toWorld]
    show w'.memberships = w.memberships
    rw [hw, hw']
    exact hmembers
  · rw [Vault.queued_toWorld, Vault.queued_toWorld]
    show (w'.groups.find? id).map _ = (w.groups.find? id).map _
    rw [hw, hw']
    show (x'.groups.find? id).map _ = (x.groups.find? id).map _
    rw [heffect.only.1, heffect'.only.1, hbase]
    exact hgroups id
  · rw [Vault.queued_toWorld]
    show w'.permissions = v.permissions
    rw [hw']
    exact heffect'.only.2.trans hpermissions'

end Both

/-! ## Requests -/

namespace Service

variable {S : Service} {req : Request} {v v' : Vault}

theorem serve_unknown (hkey : v.keys.find? req.key_id = none) :
    Ends (S.serve req) v (.error (.Unauthorized "Invalid API Key")) v [] := by
  have hread := select_ends (v := v) (.key_by_id req.key_id)
  have heval : (Query.key_by_id req.key_id).eval v.toWorld = none := hkey
  rw [heval] at hread
  exact hread.bind (Prog.Ends.bind_error (Prog.Ends.okOr_none _))

theorem succeeds_of_ends {r : Response} {events : List WebhookEvent}
    (h : Ends (S.serve req) v (.ok r) v' events) : S.Succeeds req v := by
  unfold Succeeds
  rw [h.run]
  rfl

theorem refused_of_ends {e : AppError} {events : List WebhookEvent}
    (h : Ends (S.serve req) v (.error e) v' events) :
    ¬ S.Succeeds req v ∧ (S.handle req v).2 = v' ∧ S.handed req v = events := by
  refine ⟨?_, ?_, h.issued⟩
  · unfold Succeeds
    rw [h.run]
    exact Bool.false_ne_true
  · unfold handle
    rw [h.run]

/-- Two requests from the same store: accepted or refused alike, they leave the same rows, but for
timestamps, and announce the same. -/
structure Agree (S : Service) (req req' : Request) (v : Vault) : Prop where
  accepted : S.Succeeds req' v ↔ S.Succeeds req v
  rows : SameRows (S.handle req v).2.toWorld (S.handle req' v).2.toWorld
  announced : S.handed req' v = S.handed req v

/-- If the address is to create the group, it is the master who bans it, and it may be banned. -/
def CreatesAlike (S : Service) (key_id : Uuid) (address name : String) (v : World) : Prop :=
  v.group_named name = none → ∀ net, S.env.parse_network address = some net →
    ∀ key, v.keys.find? key_id = some key →
      (S.effective key).is_master = true ∨ key.can_create_groups = true →
        (S.effective key).is_master = true ∧ guard_bannable_address net = .ok ()

theorem agree_of_refused {req' : Request} {e e' : AppError} (h : Ends (S.serve req) v (.error e) v [])
    (h' : Ends (S.serve req') v (.error e') v []) : S.Agree req req' v := by
  obtain ⟨hrefused, hafter, hhanded⟩ := refused_of_ends h
  obtain ⟨hrefused', hafter', hhanded'⟩ := refused_of_ends h'
  refine ⟨⟨fun hs => absurd hs hrefused', fun hs => absurd hs hrefused⟩, ?_, ?_⟩
  · rw [hafter, hafter']
    exact .refl _
  · rw [hhanded, hhanded']

end Service

/-- **A batch of one entry and a ban, exactly.** For an address that is not locked, and a group that
is a banlist or not there, they agree if and only if no group is created, or it is the master who
creates it with an address that may be banned. -/
theorem batch_of_one_iff (S : Service) (henv : S.env.Inverse) (v : Vault) (address name : String)
    (cause : Option String) (ban batch : Request)
    (hban : ban.call = .handle_ban (.into address name cause))
    (hbatch : batch.call = .batch_records (.one address name cause))
    (hcaller : batch.key_id = ban.key_id)
    (htype : ∀ g, v.group_named name = some g → g.group_type = "banlist")
    (hunlocked : v.locked_at (normalize_ip_or_cidr S.env address) = false) :
    S.Agree ban batch v ↔ S.CreatesAlike ban.key_id address name v.toWorld := by
  cases hkey : v.keys.find? ban.key_id with
  | none =>
      have hkey' : v.keys.find? batch.key_id = none := hcaller ▸ hkey
      have hagree := Service.agree_of_refused (S := S) (Service.serve_unknown hkey)
        (Service.serve_unknown hkey')
      refine ⟨fun _ _ _ _ key hfound => ?_, fun _ => hagree⟩
      cases hfound.symm.trans hkey
  | some key =>
      have hkey' : v.keys.find? batch.key_id = some key := hcaller ▸ hkey
      have hkeys : (S.ctx batch key).key = (S.ctx ban key).key := rfl
      have henvs : (S.ctx batch key).env = (S.ctx ban key).env := rfl
      have hthere : v.keys.has (S.ctx ban key).key.id = true :=
        Table.has_iff.mpr ⟨key, (Table.find?_eq_some.mp hkey).1, rfl⟩
      have hserve : ∀ r w events, Ends (handle_ban (S.ctx ban key) (.into address name cause)) v r w
          events → Ends (S.serve ban) v r w events := by
        intro r w events h
        refine Service.serve_ends hkey ?_
        rw [hban]
        exact h
      have hserve' : ∀ r w events,
          Ends (batch_records (S.ctx batch key) (.one address name cause)) v r w events →
            Ends (S.serve batch) v r w events := by
        intro r w events h
        refine Service.serve_ends hkey' ?_
        rw [hbatch]
        exact h
      -- nobody may register an address: nothing is created
      have hnobody : (S.ctx ban key).Shut name v.toWorld →
          S.CreatesAlike ban.key_id address name v.toWorld := by
        intro hshut hnone net hnet key' hfound hmay
        obtain rfl : key = key' := Option.some.inj (hkey.symm.trans hfound)
        exact absurd (Or.inr ⟨hnone, hmay, rfl⟩) (hshut _)
      cases hnet : S.env.parse_network address with
      | none =>
          obtain ⟨e, hrefused⟩ : ∃ e,
              Ends (handle_ban (S.ctx ban key) (.into address name cause)) v (.error e) v [] :=
            ban_of_malformed hnet
          obtain ⟨e', hrefused'⟩ : ∃ e',
              Ends (batch_records (S.ctx batch key) (.one address name cause)) v (.error e') v [] :=
            batch_of_malformed hnet
          have hagree := Service.agree_of_refused (hserve _ _ _ hrefused) (hserve' _ _ _ hrefused')
          refine ⟨fun _ _ net hsome => ?_, fun _ => hagree⟩
          cases hsome.symm.trans hnet
      | some net =>
          by_cases hshut : (S.ctx ban key).Shut name v.toWorld
          · have hshut' : (S.ctx batch key).Shut name v.toWorld := by
              intro group' h'
              obtain ⟨group, h⟩ := h'.of_key hkeys.symm
              exact hshut group h
            obtain ⟨e, hrefused⟩ : ∃ e,
                Ends (handle_ban (S.ctx ban key) (.into address name cause)) v (.error e) v [] := by
              by_cases hguard : guard_bannable_address net = .ok ()
              · exact ban_of_shut hnet hguard hshut
              · exact ban_of_protected hnet hguard
            obtain ⟨e', hrefused'⟩ : ∃ e',
                Ends (batch_records (S.ctx batch key) (.one address name cause)) v (.error e') v [] :=
              batch_of_shut hnet hshut'
            have hagree := Service.agree_of_refused (hserve _ _ _ hrefused)
              (hserve' _ _ _ hrefused')
            exact ⟨fun _ => hnobody hshut, fun _ => hagree⟩
          · obtain ⟨group, hregisters⟩ := not_forall_not.mp hshut
            obtain ⟨group', hregisters'⟩ := hregisters.of_key hkeys
            have hbanlist := hregisters.banlist htype
            by_cases hguard : guard_bannable_address net = .ok ()
            · obtain ⟨w, w', r, e, hended, hended', hpermissions, hrows⟩ := accepted_alike
                henv henvs hkeys hnet hguard hregisters hregisters' hbanlist hthere hunlocked
              have hsucceeds := Service.succeeds_of_ends (hserve _ _ _ hended)
              have hsucceeds' := Service.succeeds_of_ends (hserve' _ _ _ hended')
              have hhandle := Service.handle_of_ends (hserve _ _ _ hended)
              have hhandle' := Service.handle_of_ends (hserve' _ _ _ hended')
              have hagree : S.Agree ban batch v ↔ w.permissions = v.permissions := by
                constructor
                · intro h
                  have hsame := h.rows.permissions
                  rw [hhandle.1, hhandle'.1] at hsame
                  exact hsame.symm.trans hrows.permissions
                · intro h
                  refine ⟨⟨fun _ => hsucceeds, fun _ => hsucceeds'⟩, ?_, ?_⟩
                  · rw [hhandle.1, hhandle'.1]
                    have hsame : ({ w.toWorld with permissions := v.permissions } : World) =
                        w.toWorld := by
                      rw [← h]
                    rw [← hsame]
                    exact hrows
                  · rw [hhandle.2, hhandle'.2]
              rw [hagree, hpermissions, ban_base_permissions hthere]
              constructor
              · intro hmaster hnone net' hnet' key' hkey' hmay
                obtain rfl : net = net' := Option.some.inj (hnet.symm.trans hnet')
                obtain rfl : key = key' := Option.some.inj (hkey.symm.trans hkey')
                exact ⟨hmaster hnone, hguard⟩
              · intro halike hnone
                rcases hregisters with ⟨hnamed, -⟩ | ⟨-, hmay, -⟩
                · cases hnamed.symm.trans hnone
                · exact (halike hnone net hnet key hkey hmay).1
            · obtain ⟨e, hrefused⟩ : ∃ e,
                  Ends (handle_ban (S.ctx ban key) (.into address name cause)) v (.error e) v [] :=
                ban_of_protected hnet hguard
              obtain ⟨e', hrefused'⟩ : ∃ e',
                  Ends (batch_records (S.ctx batch key) (.one address name cause)) v (.error e')
                    (batch_base (S.ctx batch key) (.one address name cause) v) [] :=
                batch_of_protected henv hnet hguard hregisters' (hregisters'.banlist htype)
              have hleft := Service.refused_of_ends (hserve _ _ _ hrefused)
              have hleft' := Service.refused_of_ends (hserve' _ _ _ hrefused')
              have hagree : S.Agree ban batch v ↔ SameRows v.toWorld
                  (batch_base (S.ctx batch key) (.one address name cause) v).toWorld := by
                constructor
                · intro h
                  have hrows := h.rows
                  rw [hleft.2.1, hleft'.2.1] at hrows
                  exact hrows
                · intro h
                  refine ⟨⟨fun hs => absurd hs hleft'.1, fun hs => absurd hs hleft.1⟩, ?_, ?_⟩
                  · rw [hleft.2.1, hleft'.2.1]
                    exact h
                  · rw [hleft.2.2, hleft'.2.2]
              rw [hagree, batch_base_same]
              constructor
              · intro hthereAlready hnone
                exact absurd hnone hthereAlready
              · intro halike hnone
                rcases hregisters with ⟨hnamed, -⟩ | ⟨-, hmay, -⟩
                · cases hnamed.symm.trans hnone
                · exact hguard (halike hnone net hnet key hkey hmay).2

/-- A ban of the sample address into a group that is not there. -/
def Request.ban_office (key_id : Uuid) : Request :=
  .sample key_id 7 (.handle_ban (.into "203.0.113.7" "office" none))

/-- The same as a batch. -/
def Request.batch_office (key_id : Uuid) : Request :=
  .sample key_id 9 (.batch_records (.one "203.0.113.7" "office" none))

theorem batch_of_one_iff_master :
    Service.sample.Agree (.ban_office 0) (.batch_office 0) .sample ↔
      Service.sample.CreatesAlike 0 "203.0.113.7" "office" Vault.sample.toWorld := by
  have hnone : Vault.sample.group_named "office" = none := by decide
  refine batch_of_one_iff .sample Env.inverse_sample .sample "203.0.113.7" "office" none
    (.ban_office 0) (.batch_office 0) rfl rfl rfl (fun g hg => ?_) (by decide)
  cases hg.symm.trans hnone

/-- A key that may create groups bans an address into a new group, and has a row on it; with a batch
of the one address it has none. -/
theorem batch_leaves_creator_without_row :
    Service.sample.Succeeds (.ban_office 1) .sample ∧
      Service.sample.Succeeds (.batch_office 1) .sample ∧
      ¬ SameRows (Service.sample.handle (.ban_office 1) .sample).2.toWorld
        (Service.sample.handle (.batch_office 1) .sample).2.toWorld := by
  refine ⟨by decide, by decide, fun h => ?_⟩
  have hrows : (Service.sample.handle (.batch_office 1) .sample).2.permissions.rows.length =
      (Service.sample.handle (.ban_office 1) .sample).2.permissions.rows.length := by
    rw [h.permissions]
  exact absurd hrows (by decide)

end IpVault
