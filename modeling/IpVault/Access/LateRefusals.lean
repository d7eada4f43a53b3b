import IpVault.Access.Refusals

set_option autoImplicit false

/-! # Refusals that come too late

The record endpoints, and what the handlers do that create a group by its name: a ban or a
whitelisting may find the record of its address locked, a batch may hold an address that no
banlist takes, and a permission request of an ordinary key has no row on a group that is new. The
group stays in each case.
-/

namespace IpVault

open Lib

variable {ctx : Ctx} {start v w : Vault}

/-! ## Creating a group by its name -/

/-- Nobody has the name, and the caller may create a group. -/
def World.Creates (w : World) (ctx : Ctx) (name : String) : Prop :=
  w.group_named name = none ∧ (ctx.key.is_master = true ∨ ctx.key.can_create_groups = true)

/-- The store `w` is `v` with a group of that name. -/
structure Grown (name : String) (v w : World) (g : IpGroup) : Prop where
  absent : v.group_named name = none
  present : w.group_named name = some g
  keys : w.keys = v.keys
  records : w.records = v.records

/-- A group more is a difference. -/
theorem Grown.groups_ne {name : String} {v w : World} {g : IpGroup} (h : Grown name v w g) :
    w.groups ≠ v.groups := by
  intro heq
  have hsame : w.group_named name = v.group_named name := by
    unfold World.group_named
    rw [heq]
  rw [h.present, h.absent] at hsame
  cases hsame

/-- Under a name nobody has, `get_or_create_group` creates the group. -/
theorem get_or_create_group_meets {E : AppError → Vault → Prop} {name default_group_type : String}
    {owner : Option Uuid} (hn : v.group_named name = none) :
    Prog.Meets database (fun _ _ => True)
      (fun g w => Grown name v.toWorld w.toWorld g ∧ w.permissions = v.permissions ∧
        g = { new_group name default_group_type owner ctx.now with id := v.next_uuid }) E
      (get_or_create_group ctx name default_group_type owner) v := by
  have hnew := group_named_after_insert v
    (g := new_group name default_group_type owner ctx.now) hn
  have frame := Stmt.frame (.insert_group_or_ignore
    (new_group name default_group_type owner ctx.now)) v.toWorld
  refine (Prog.meets_bind _ _ _ _).mpr ((meets_exec (l := .insert_group_or_ignore _)).mpr
    ⟨trivial, fun _ _ _ => ?_, fun e he => ?_⟩)
  · refine (Prog.meets_bind _ _ _ _).mpr (meets_select.mpr ⟨trivial, ?_⟩)
    refine (Prog.meets_okOr _ _ _).mpr ⟨fun g hg => ?_, fun hnone => ?_⟩
    · have hg' := Option.some.inj (hg.symm.trans hnew)
      exact ⟨⟨hn, hg, frame.keys rfl, frame.records rfl⟩, frame.permissions rfl, hg'⟩
    · cases hnone.symm.trans hnew
  · simp only [Stmt.txn, Txn.insert_group_or_ignore] at he
    split at he <;> cases he

/-! ## Ban and whitelist -/

/-- A ban or a whitelisting that creates its group, and then finds the record locked. -/
def LateRefusal.upsert (ctx : Ctx) (payload : BanWhitePayload) (is_whitelist : Bool) (w : World) :
    Prop :=
  ∃ network name record, ctx.env.parse_network payload.target_address = some network ∧
    (is_whitelist = true ∨ guard_bannable_address network = .ok ()) ∧
    payload.group_id = none ∧ payload.group_name = some name ∧ w.Creates ctx name ∧
    w.record_at (normalize_ip_or_cidr ctx.env payload.target_address) = some record ∧
    record.is_locked = true

/-- With the right to create the group, it is created, and nothing fails. -/
theorem upsert_new_group_meets {E : AppError → Vault → Prop} {is_whitelist : Bool} {name : String}
    (hc : v.Creates ctx name) (hkey : v.keys.has ctx.key.id = true) :
    Prog.Meets database (fun _ _ => True) (fun g w => Grown name v.toWorld w.toWorld g) E
      (upsert_new_group ctx is_whitelist name) v := by
  refine (Prog.meets_bind _ _ _ _).mpr ((Prog.meets_require _ _ _ _).mpr
    ⟨fun _ => ?_, fun hn => absurd hc.2 hn⟩)
  refine Prog.Meets.bind (get_or_create_group_meets hc.1) ?_
  intro g w ⟨hgrown, _, _⟩
  refine (Prog.meets_bind _ _ _ _).mpr ?_
  unfold provision_caller
  split
  · exact hgrown
  · refine (meets_exec (l := .insert_permission_or_ignore _)).mpr
      ⟨trivial, fun _ _ _ => ?_, fun e he => ?_⟩
    · have frame := Stmt.frame (.insert_permission_or_ignore
        (creator_permission ctx.key.id g.id ctx.now)) w.toWorld
      refine ⟨hgrown.absent, ?_, (frame.keys rfl).trans hgrown.keys,
        (frame.records rfl).trans hgrown.records⟩
      have hgroups := frame.groups rfl
      have hnamed : (w.after (.insert_permission_or_ignore
          (creator_permission ctx.key.id g.id ctx.now))).group_named name = w.group_named name := by
        unfold World.group_named
        rw [Vault.after_toWorld, hgroups]
      exact hnamed.trans hgrown.present
    · -- Both ends of the row exist.
      have hends : Txn.permission_ends w.toWorld (creator_permission ctx.key.id g.id ctx.now) =
          true := by
        refine Txn.permission_ends_iff.mpr ⟨?_, ?_⟩
        · rw [hgrown.keys]
          exact hkey
        · exact Table.has_iff.mpr ⟨g, (World.mem_of_group_named hgrown.present).1, rfl⟩
      simp [Stmt.txn, Txn.insert_permission_or_ignore, hends] at he

/-- A group that is looked for by its name. -/
theorem group_by_name_careful {α : Type} {id : Option α} (hid : id = none) (n : String) :
    Careful v (select (.group_by_name n)) v fun found w =>
      v = w ∧ ∀ name, some n = some name → id = none ∧ found = v.group_named name := by
  refine careful_select.imp fun found _ ⟨hv, hfound⟩ => ⟨hv, fun name h => ⟨hid, ?_⟩⟩
  obtain rfl : n = name := Option.some.inj h
  exact hfound

theorem upsert_group_careful (payload : BanWhitePayload) (is_whitelist : Bool)
    (hkey : v.keys.has ctx.key.id = true) :
    Careful v (upsert_group ctx payload is_whitelist) v fun g w => v = w ∨
      ∃ name, payload.group_id = none ∧ payload.group_name = some name ∧ v.Creates ctx name ∧
        Grown name v.toWorld w.toWorld g := by
  have found : Careful v (resolve_group_ref payload.group_id payload.group_name) v fun found w =>
      v = w ∧ ∀ name, payload.group_name = some name →
        payload.group_id = none ∧ found = v.group_named name := by
    unfold resolve_group_ref
    cases payload.group_id with
    | none =>
        cases payload.group_name with
        | none => exact fun _ => rfl
        | some n => exact group_by_name_careful rfl n
    | some id =>
        cases payload.group_name with
        | none => exact careful_select.imp fun _ _ ⟨hv, _⟩ => ⟨hv, fun _ h => by cases h⟩
        | some n => exact fun _ => rfl
  refine found.bind fun found _ ⟨rfl, hfound⟩ => ?_
  split
  · rename_i g
    refine (careful_of_reads (upsert_guard_only_reads _)).bind fun _ _ hv => ?_
    subst hv
    refine careful_ofExcept.bind fun _ _ ⟨rfl, _⟩ => ?_
    exact (.inl rfl : v = v ∨ _)
  · rename_i name hname _
    obtain ⟨hid, hnamed⟩ := hfound name hname
    by_cases hc : ctx.key.is_master = true ∨ ctx.key.can_create_groups = true
    · have creates : v.Creates ctx name := ⟨hnamed.symm, hc⟩
      exact (upsert_new_group_meets creates hkey).imp fun g w hw =>
        .inr ⟨name, hid, hname, creates, hw⟩
    · refine (Prog.meets_bind _ _ _ _).mpr ((Prog.meets_require _ _ _ _).mpr
        ⟨fun h => absurd h hc, fun _ _ => rfl⟩)
  · exact fun _ => rfl

theorem handle_ip_upsert_careful (payload : BanWhitePayload) (is_whitelist : Bool)
    (hkey : v.keys.has ctx.key.id = true)
    (hlate : ¬ LateRefusal.upsert ctx payload is_whitelist v.toWorld) :
    Careful v (handle_ip_upsert ctx payload is_whitelist) v (Harmless v) := by
  refine careful_okOr.bind fun network _ ⟨rfl, hnetwork⟩ => ?_
  refine careful_ofExcept.bind fun _ _ ⟨rfl, hban⟩ => ?_
  refine (upsert_group_careful payload is_whitelist hkey).bind fun g w hw => ?_
  have txn : Careful v (exec (.upsert_txn (upsert_transaction ctx payload is_whitelist g))) w
      fun _ _ => True := by
    refine meets_exec.mpr ⟨trivial, fun _ _ _ => trivial, fun e he => ?_⟩
    rcases hw with rfl | ⟨name, hid, hname, hcreates, hgrown⟩
    · exact fun _ => Vault.ext_world (Stmt.after_of_error he)
    · rcases UpsertTxn.error he with ⟨d, rfl⟩ | ⟨r, hr, hlocked⟩
      · exact harmless_db_error d
      · refine absurd ⟨network, name, r, hnetwork, ?_, hid, hname, hcreates, ?_, hlocked⟩ hlate
        · cases is_whitelist with
          | true => exact .inl rfl
          | false => exact .inr hban
        · have hsame : v.record_at = w.record_at := by
            unfold World.record_at
            rw [hgrown.records]
          rw [hsame]
          exact hr
  refine txn.bind fun action _ _ => ?_
  refine (careful_exec_plain (l := .enqueue _) fun _ _ h => by cases h).bind fun _ _ _ => ?_
  exact harmless_of_lt ok_empty_status

theorem invalid_input_refused (msg : String) :
    (AppError.InvalidInput msg).into_response.Refused := by
  show 400 ≤ 400 ∧ 400 < 500
  omega

theorem forbidden_refused (msg : String) : (AppError.Forbidden msg).into_response.Refused := by
  show 400 ≤ 403 ∧ 403 < 500
  omega

/-- A handler that refuses after it has created a group. -/
abbrev Late (p : Handler Response) (v : Vault) : Prop :=
  Prog.Meets database (fun _ _ => True) (fun _ _ => False)
    (fun e w => e.into_response.Refused ∧ w.groups ≠ v.groups) p v

theorem handle_ip_upsert_late {payload : BanWhitePayload} {is_whitelist : Bool}
    (hkey : v.keys.has ctx.key.id = true)
    (hlate : LateRefusal.upsert ctx payload is_whitelist v.toWorld) :
    Late (handle_ip_upsert ctx payload is_whitelist) v := by
  obtain ⟨network, name, record, hnetwork, hban, hid, hname, hcreates, hrecord, hlocked⟩ := hlate
  unfold handle_ip_upsert Late
  rw [Prog.meets_bind, hnetwork]
  refine (Prog.meets_okOr _ _ _).mpr ⟨fun n hn => ?_, fun h => by cases h⟩
  obtain rfl : network = n := Option.some.inj hn
  have hguard : (if is_whitelist then Except.ok () else guard_bannable_address network) =
      Except.ok () := by
    rcases hban with rfl | hban
    · rfl
    · cases is_whitelist with
      | true => rfl
      | false => exact hban
  rw [Prog.meets_bind, hguard]
  refine (Prog.meets_ofExcept _ _).mpr ⟨fun _ _ => ?_, fun e h => by cases h⟩
  have group : Prog.Meets database (fun _ _ => True)
      (fun g w => Grown name v.toWorld w.toWorld g)
      (fun e w => e.into_response.Refused ∧ w.groups ≠ v.groups)
      (upsert_group ctx payload is_whitelist) v := by
    unfold upsert_group
    rw [hid, hname]
    refine (Prog.meets_bind _ _ _ _).mpr ((meets_select (q := .group_by_name name)).mpr
      ⟨trivial, ?_⟩)
    have heval : (Query.group_by_name name).eval v.toWorld = none := hcreates.1
    rw [heval]
    exact upsert_new_group_meets hcreates hkey
  refine Prog.Meets.bind group ?_
  intro g w hgrown
  have hrecord' : w.record_at (normalize_ip_or_cidr ctx.env payload.target_address) =
      some record := by
    unfold World.record_at at hrecord ⊢
    rwa [hgrown.records]
  have herr := UpsertTxn.refuses
    (t := upsert_transaction ctx payload is_whitelist g) hrecord' hlocked
  refine (Prog.meets_bind _ _ _ _).mpr (meets_exec.mpr ⟨trivial, fun a w' h => ?_, fun e he => ?_⟩)
  · cases h.symm.trans herr
  · obtain rfl := Except.error.inj (he.symm.trans herr)
    refine ⟨by decide, ?_⟩
    have hsame : (w.after (.upsert_txn (upsert_transaction ctx payload is_whitelist g))) = w :=
      Vault.ext_world (Stmt.after_of_error he)
    rw [hsame]
    exact hgrown.groups_ne

/-! ## Batches -/

/-- A batch that creates its group, and then finds an address that no banlist takes. -/
def LateRefusal.batch (ctx : Ctx) (payload : BatchRecordsPayload) (w : World) : Prop :=
  ∃ normalized, payload.records.length ≤ MAX_BATCH_RECORDS ∧
    normalize_entries ctx.env payload.records [] = .ok normalized ∧
    w.Creates ctx payload.group_name ∧ guard_batch_addresses ctx.env normalized ≠ .ok ()

theorem guard_bannable_address_error {network : IpNetwork} {e : AppError}
    (h : guard_bannable_address network = .error e) : ∃ msg, e = .InvalidInput msg := by
  unfold guard_bannable_address at h
  simp only at h
  split at h
  · cases h
    exact ⟨_, rfl⟩
  · split at h
    · split at h
      · cases h
        exact ⟨_, rfl⟩
      · cases h
    · split at h
      · cases h
        exact ⟨_, rfl⟩
      · cases h

theorem guard_batch_addresses_error {env : Env} {normalized : List (String × BatchRecordInput)}
    {e : AppError} (h : guard_batch_addresses env normalized = .error e) :
    ∃ msg, e = .InvalidInput msg := by
  induction normalized with
  | nil => cases h
  | cons entry rest ih =>
      unfold guard_batch_addresses at h
      split at h
      · cases h
        exact ⟨_, rfl⟩
      · rename_i network _
        cases hguard : guard_bannable_address network with
        | error e' =>
            rw [hguard] at h
            cases h
            exact guard_bannable_address_error hguard
        | ok u =>
            rw [hguard] at h
            exact ih h

theorem batch_group_careful (payload : BatchRecordsPayload) :
    Careful v (batch_group ctx payload) v fun g w => v = w ∨
      v.Creates ctx payload.group_name ∧ g.group_type = "banlist" := by
  refine careful_select.bind fun existing _ ⟨rfl, hexisting⟩ => ?_
  split
  · refine (careful_of_reads (batch_guard_only_reads _ _)).bind fun _ _ hv => ?_
    exact (.inl hv : v = _ ∨ _)
  · refine careful_require.bind fun _ _ ⟨rfl, hc⟩ => ?_
    refine (get_or_create_group_meets hexisting.symm).imp ?_
    rintro g w ⟨-, -, rfl⟩
    exact .inr ⟨⟨hexisting.symm, hc⟩, rfl⟩

theorem enqueue_all_careful (events : List WebhookEvent) :
    Careful start (enqueue_all events) v fun _ _ => True := by
  induction events generalizing v with
  | nil => trivial
  | cons e es ih =>
      exact (careful_exec_plain (l := .enqueue e) fun _ _ h => by cases h).bind fun _ _ _ => ih

theorem batch_records_careful (payload : BatchRecordsPayload)
    (hlate : ¬ LateRefusal.batch ctx payload v.toWorld) :
    Careful v (batch_records ctx payload) v (Harmless v) := by
  refine careful_require.bind fun _ _ ⟨rfl, hlength⟩ => ?_
  refine careful_ofExcept.bind fun normalized _ ⟨rfl, hnormalized⟩ => ?_
  refine (batch_group_careful payload).bind fun g w hw => ?_
  have addresses : Careful v (Prog.ofExcept
      (if g.group_type ≠ "whitelist" then guard_batch_addresses ctx.env normalized else .ok ())) w
      fun _ _ => True := by
    refine (Prog.meets_ofExcept _ w).mpr ⟨fun _ _ => trivial, fun e he => ?_⟩
    rcases hw with rfl | ⟨hcreates, hbanlist⟩
    · exact fun _ => rfl
    · rw [if_pos (by rw [hbanlist]; decide)] at he
      refine absurd ⟨normalized, hlength, hnormalized, hcreates, fun hok => ?_⟩ hlate
      cases hok.symm.trans he
  refine addresses.bind fun _ w₁ _ => ?_
  refine (careful_exec_plain (l := .batch_txn _) (BatchTxn.plain_run _)).bind fun st _ _ => ?_
  exact (enqueue_all_careful _).bind fun _ _ _ => harmless_of_lt (json_status _)

theorem batch_records_late {payload : BatchRecordsPayload}
    (hlate : LateRefusal.batch ctx payload v.toWorld) : Late (batch_records ctx payload) v := by
  obtain ⟨normalized, hlength, hnormalized, hcreates, haddresses⟩ := hlate
  unfold batch_records Late
  refine (Prog.meets_bind _ _ _ _).mpr ((Prog.meets_require _ _ _ _).mpr
    ⟨fun _ => ?_, fun h => absurd hlength h⟩)
  rw [hnormalized]
  refine (Prog.meets_bind _ _ _ _).mpr ((Prog.meets_ofExcept _ _).mpr
    ⟨fun n hn => ?_, fun e h => by cases h⟩)
  obtain rfl : normalized = n := Except.ok.inj hn
  have group : Prog.Meets database (fun _ _ => True)
      (fun g w => Grown payload.group_name v.toWorld w.toWorld g ∧ g.group_type = "banlist")
      (fun e w => e.into_response.Refused ∧ w.groups ≠ v.groups) (batch_group ctx payload) v := by
    unfold batch_group
    refine (Prog.meets_bind _ _ _ _).mpr (meets_select.mpr ⟨trivial, ?_⟩)
    have heval : (Query.group_by_name payload.group_name).eval v.toWorld = none := hcreates.1
    rw [heval]
    refine (Prog.meets_bind _ _ _ _).mpr ((Prog.meets_require _ _ _ _).mpr
      ⟨fun _ => ?_, fun h => absurd hcreates.2 h⟩)
    refine (get_or_create_group_meets hcreates.1).imp ?_
    rintro g w ⟨hgrown, -, rfl⟩
    exact ⟨hgrown, rfl⟩
  refine Prog.Meets.bind group ?_
  rintro g w ⟨hgrown, hbanlist⟩
  refine (Prog.meets_bind _ _ _ _).mpr ((Prog.meets_ofExcept _ _).mpr ⟨fun u hok => ?_, ?_⟩)
  · rw [if_pos (by rw [hbanlist]; decide)] at hok
    exact absurd hok haddresses
  · intro e he
    rw [if_pos (by rw [hbanlist]; decide)] at he
    obtain ⟨msg, rfl⟩ := guard_batch_addresses_error he
    exact ⟨invalid_input_refused msg, hgrown.groups_ne⟩

/-! ## Permission requests -/

/-- A permission request of an ordinary key that creates its group: nobody has `can_manage` on a
group that is new. -/
def LateRefusal.permissions (ctx : Ctx) (id : Uuid) (payload : GroupPermInput) (w : World) : Prop :=
  ctx.key.is_master = false ∧ ctx.key.can_manage_keys = true ∧
    (∃ p ∈ w.permissions, p.api_key_id = ctx.key.id ∧ p.can_manage = true) ∧
    (∃ target, w.keys.find? id = some target ∧ target.is_master = false) ∧
    (payload.can_write = true ∨ payload.can_delete = true → payload.can_read = true) ∧
    payload.group_id = none ∧ ∃ name, payload.group_name = some name ∧ w.Creates ctx name

theorem holds_any_group_manage_iff {w : World} {key_id : Uuid} :
    ((Query.permissions_of key_id).eval w).any (·.can_manage) = true ↔
      ∃ p ∈ w.permissions, p.api_key_id = key_id ∧ p.can_manage = true := by
  simp only [Query.eval, List.any_eq_true, List.mem_filter, decide_eq_true_eq, and_assoc,
    Table.mem_rows]

theorem guard_may_administer_any_group_careful (caller : ApiKey) :
    Careful v (guard_may_administer_any_group caller) v fun _ w => v = w ∧
      (caller.is_master = true ∨ caller.can_manage_keys = true ∧
        ∃ p ∈ v.permissions, p.api_key_id = caller.id ∧ p.can_manage = true) := by
  unfold guard_may_administer_any_group
  split
  · rename_i hm
    exact ⟨rfl, .inl hm⟩
  · split
    · rename_i hk
      have any : Careful v (holds_any_group_manage caller.id) v fun any w =>
          v = w ∧ any = ((Query.permissions_of caller.id).eval v.toWorld).any (·.can_manage) := by
        refine careful_select.bind fun rows w hrows => ?_
        exact ⟨hrows.1, by rw [hrows.2]⟩
      refine any.bind fun any w hany => ?_
      obtain ⟨rfl, hany⟩ := hany
      refine careful_require.imp fun _ _ h => ⟨h.1, .inr ⟨hk, ?_⟩⟩
      exact holds_any_group_manage_iff.mp (hany.symm.trans h.2)
    · exact fun _ => rfl

theorem permission_group_careful (payload : GroupPermInput) :
    Careful v (permission_group ctx payload) v fun _ w => v = w ∨
      payload.group_id = none ∧ ∃ name, payload.group_name = some name ∧ v.Creates ctx name := by
  have found : Careful v (resolve_group_ref_flexible ctx.env payload.group_id payload.group_name) v
      fun found w => v = w ∧ ∀ name, payload.group_name = some name →
        payload.group_id = none ∧ found = v.group_named name := by
    unfold resolve_group_ref_flexible
    cases payload.group_id with
    | none =>
        cases payload.group_name with
        | none => exact fun _ => rfl
        | some n => exact group_by_name_careful rfl n
    | some id =>
        cases payload.group_name with
        | none =>
            exact (careful_of_reads (resolve_group_by_identifier_only_reads _ _)).imp
              fun _ _ hv => ⟨hv, fun _ h => by cases h⟩
        | some n => exact fun _ => rfl
  refine found.bind fun found _ ⟨rfl, hfound⟩ => ?_
  split
  · exact (.inl rfl : v = v ∨ _)
  · rename_i name hname _
    obtain ⟨hid, hnamed⟩ := hfound name hname
    refine careful_require.bind fun _ _ ⟨rfl, hc⟩ => ?_
    exact (get_or_create_group_meets hnamed.symm).imp fun _ _ _ =>
      .inr ⟨hid, name, hname, hnamed.symm, hc⟩
  · exact fun _ => rfl

/-- The master is not asked for rows. -/
theorem guard_permission_change_master {caller : ApiKey} (hm : caller.is_master = true)
    (caller_perm target_perm : Option GroupPermission) (name : String) (payload : GroupPermInput) :
    guard_permission_change caller caller_perm target_perm name payload = .ok () := by
  have hmanage : ∀ action, guard_group_manage caller caller_perm name action = .ok () := by
    intro action
    unfold guard_group_manage
    rw [if_pos hm]
  unfold guard_permission_change guard_delegated_group_grant
  rw [hmanage, hmanage]
  simp only [bind, Except.bind, hm, if_true, ite_self]

/-- Without a row nobody else passes. -/
theorem guard_permission_change_none {caller : ApiKey} (hm : caller.is_master = false)
    (target_perm : Option GroupPermission) (name : String) (payload : GroupPermInput) :
    ∃ msg, guard_permission_change caller none target_perm name payload =
      .error (.Forbidden msg) := by
  have hmanage : ∀ action, ∃ msg, guard_group_manage caller none name action =
      .error (.Forbidden msg) := by
    intro action
    unfold guard_group_manage
    simp [hm]
  unfold guard_permission_change guard_delegated_group_grant
  split
  · obtain ⟨msg, hmsg⟩ := hmanage "grant"
    rw [hmsg]
    exact ⟨msg, rfl⟩
  · exact hmanage "revoke"

theorem update_key_group_permissions_careful (id : Uuid) (payload : GroupPermInput)
    (hlate : ¬ LateRefusal.permissions ctx id payload v.toWorld) :
    Careful v (update_key_group_permissions ctx id payload) v (Harmless v) := by
  refine (guard_may_administer_any_group_careful _).bind fun _ _ ⟨rfl, hadmin⟩ => ?_
  refine careful_select.bind fun found _ ⟨rfl, hfound⟩ => ?_
  refine careful_okOr.bind fun target _ ⟨rfl, htarget⟩ => ?_
  refine careful_require.bind fun _ _ ⟨rfl, hord⟩ => ?_
  refine careful_require.bind fun _ _ ⟨rfl, hcoherent⟩ => ?_
  refine (permission_group_careful payload).bind fun group w hw => ?_
  refine careful_select.bind fun caller_perm _ ⟨rfl, _⟩ => ?_
  refine careful_select.bind fun target_perm _ ⟨rfl, _⟩ => ?_
  have guard : Careful v (Prog.ofExcept
      (guard_permission_change ctx.key caller_perm target_perm group.name payload)) w
      fun _ _ => True := by
    refine (Prog.meets_ofExcept _ w).mpr ⟨fun _ _ => trivial, fun e he => ?_⟩
    rcases hw with rfl | ⟨hid, name, hname, hcreates⟩
    · exact fun _ => rfl
    · cases hm : ctx.key.is_master with
      | true => cases (guard_permission_change_master hm _ _ _ _).symm.trans he
      | false =>
          obtain ⟨hmanager, hrow⟩ := hadmin.resolve_left (by rw [hm]; decide)
          exact absurd ⟨hm, hmanager, hrow, ⟨target, hfound.symm.trans htarget, hord⟩, hcoherent,
            hid, name, hname, hcreates⟩ hlate
  refine guard.bind fun _ w₁ _ => ?_
  refine (careful_exec_plain (l := .upsert_permission _)
    (Stmt.plain (fun _ h => by cases h) fun _ h => by cases h)).bind fun _ _ _ => ?_
  exact careful_audit_then ok_empty_status

theorem update_key_group_permissions_late {id : Uuid} {payload : GroupPermInput}
    (hlate : LateRefusal.permissions ctx id payload v.toWorld) :
    Late (update_key_group_permissions ctx id payload) v := by
  obtain ⟨hm, hmanager, hrow, ⟨target, htarget, hord⟩, hcoherent, hid, name, hname, hcreates⟩ := hlate
  unfold update_key_group_permissions Late
  have admin : Prog.Meets database (fun _ _ => True) (fun _ w => v = w)
      (fun e w => e.into_response.Refused ∧ w.groups ≠ v.groups)
      (guard_may_administer_any_group ctx.key) v := by
    unfold guard_may_administer_any_group
    rw [hm, hmanager]
    refine (Prog.meets_bind _ _ _ _).mpr ((Prog.meets_bind _ _ _ _).mpr (meets_select.mpr
      ⟨trivial, ?_⟩))
    exact (Prog.meets_require _ _ _ _).mpr
      ⟨fun _ => rfl, fun h => absurd (holds_any_group_manage_iff.mpr hrow) h⟩
  refine Prog.Meets.bind admin ?_
  rintro - _ rfl
  refine (Prog.meets_bind _ _ _ _).mpr (meets_select.mpr ⟨trivial, ?_⟩)
  refine (Prog.meets_bind _ _ _ _).mpr ((Prog.meets_okOr _ _ _).mpr ⟨fun k hk => ?_, fun h => ?_⟩)
  · obtain rfl : target = k := Option.some.inj (htarget.symm.trans hk)
    refine (Prog.meets_bind _ _ _ _).mpr ((Prog.meets_require _ _ _ _).mpr
      ⟨fun _ => ?_, fun h => absurd hord h⟩)
    refine (Prog.meets_bind _ _ _ _).mpr ((Prog.meets_require _ _ _ _).mpr
      ⟨fun _ => ?_, fun h => absurd hcoherent h⟩)
    have group : Prog.Meets database (fun _ _ => True)
        (fun g w => Grown name v.toWorld w.toWorld g ∧ w.permission ctx.key.id g.id = none)
        (fun e w => e.into_response.Refused ∧ w.groups ≠ v.groups)
        (permission_group ctx payload) v := by
      unfold permission_group
      rw [hid, hname]
      refine (Prog.meets_bind _ _ _ _).mpr ((meets_select (q := .group_by_name name)).mpr
        ⟨trivial, ?_⟩)
      have heval : (Query.group_by_name name).eval v.toWorld = none := hcreates.1
      rw [heval]
      refine (Prog.meets_bind _ _ _ _).mpr ((Prog.meets_require _ _ _ _).mpr
        ⟨fun _ => ?_, fun h => absurd hcreates.2 h⟩)
      refine (get_or_create_group_meets hcreates.1).imp ?_
      rintro g w ⟨hgrown, hperms, rfl⟩
      refine ⟨hgrown, ?_⟩
      -- No row names the new group.
      cases hp : w.permission ctx.key.id v.next_uuid with
      | none => rfl
      | some p =>
          obtain ⟨hmem, -, hgroup⟩ := World.permission_eq_some.mp hp
          have hlt := v.wf.no_permission_on_new_group (hperms ▸ hmem)
          exact absurd hgroup (Nat.ne_of_lt hlt)
    refine Prog.Meets.bind group ?_
    rintro g w ⟨hgrown, hnone⟩
    refine (Prog.meets_bind _ _ _ _).mpr ((meets_select (q := .permission ctx.key.id g.id)).mpr
      ⟨trivial, ?_⟩)
    refine (Prog.meets_bind _ _ _ _).mpr ((meets_select (q := .permission id g.id)).mpr
      ⟨trivial, ?_⟩)
    have heval : (Query.permission ctx.key.id g.id).eval w.toWorld = none := hnone
    rw [heval]
    obtain ⟨msg, hmsg⟩ := guard_permission_change_none hm
      ((Query.permission id g.id).eval w.toWorld) g.name payload
    rw [hmsg]
    exact ⟨forbidden_refused msg, hgrown.groups_ne⟩
  · cases h.symm.trans htarget

/-! ## The other record endpoints -/

theorem delete_ip_record_careful (id : Uuid) (hard : Option Bool) :
    Careful v (delete_ip_record ctx id hard) v (Harmless v) := by
  refine careful_select.bind fun found _ ⟨rfl, _⟩ => ?_
  refine careful_okOr.bind fun record _ ⟨rfl, _⟩ => ?_
  refine (careful_of_reads (caller_may_delete_record_only_reads _ _)).bind fun may _ hv => ?_
  subst hv
  refine careful_require.bind fun _ _ ⟨rfl, _⟩ => ?_
  refine careful_require.bind fun _ _ ⟨rfl, _⟩ => ?_
  refine careful_require.bind fun _ _ ⟨rfl, _⟩ => ?_
  split
  · exact careful_exec.bind fun _ _ _ => careful_audit_then (json_status _)
  · unfold soft_delete_record
    simp only
    split
    · exact harmless_of_lt (json_status _)
    · exact careful_exec.bind fun _ _ _ => careful_audit_then (json_status _)

theorem restore_ip_record_careful (id : Uuid) :
    Careful v (restore_ip_record ctx id) v (Harmless v) := by
  refine careful_require.bind fun _ _ ⟨rfl, _⟩ => ?_
  refine careful_select.bind fun found _ ⟨rfl, _⟩ => ?_
  refine careful_okOr.bind fun record _ ⟨rfl, _⟩ => ?_
  refine careful_require.bind fun _ _ ⟨rfl, _⟩ => ?_
  exact careful_exec.bind fun restored _ _ => careful_audit_then (json_status _)

theorem purge_ip_records_careful (body : OptionalBody (Option Int)) :
    Careful v (purge_ip_records ctx body) v (Harmless v) := by
  refine careful_require.bind fun _ _ ⟨rfl, _⟩ => ?_
  refine careful_ofExcept.bind fun older_than_days _ ⟨rfl, _⟩ => ?_
  refine careful_require.bind fun _ _ ⟨rfl, _⟩ => ?_
  have purge : Careful v (purge_expired_ip_records ctx.now
      (older_than_days.getD ctx.env.retention_days)) v fun _ _ => True := by
    unfold purge_expired_ip_records
    split
    · trivial
    · exact careful_exec.imp fun _ _ _ => trivial
  exact purge.bind fun _ _ _ => careful_audit_then (json_status _)

theorem delete_ip_careful (query_params : DeleteIpQuery) (body : OptionalBody DeleteIpQuery) :
    Careful v (delete_ip ctx query_params body) v (Harmless v) := by
  refine careful_ofExcept.bind fun body_params _ ⟨rfl, _⟩ => ?_
  refine careful_okOr.bind fun target_address _ ⟨rfl, _⟩ => ?_
  refine (careful_of_reads (resolve_group_ref_only_reads _ _)).bind fun found _ hv => ?_
  subst hv
  refine careful_okOr.bind fun group _ ⟨rfl, _⟩ => ?_
  refine (careful_of_reads (delete_ip_guard_only_reads _)).bind fun _ _ hv => ?_
  subst hv
  refine careful_exec.bind fun record _ _ => ?_
  refine (careful_exec_plain (l := .enqueue _) fun _ _ h => by cases h).bind fun _ _ _ => ?_
  exact harmless_of_lt no_content_status

/-! ## Every request -/

/-- A call that is refused after it has created a group. -/
def Call.LateRefusal (ctx : Ctx) (w : World) : Call → Prop
  | handle_ban payload => LateRefusal.upsert ctx payload false w
  | handle_white payload => LateRefusal.upsert ctx payload true w
  | batch_records payload => LateRefusal.batch ctx payload w
  | update_key_group_permissions id payload => LateRefusal.permissions ctx id payload w
  | _ => False

theorem Call.careful {call : Call} (hkey : v.keys.has ctx.key.id = true)
    (hlate : ¬ call.LateRefusal ctx v.toWorld) :
    Careful v (call.handler ctx) v (Harmless v) := by
  cases call with
  | handle_ban payload => exact handle_ip_upsert_careful payload false hkey hlate
  | handle_white payload => exact handle_ip_upsert_careful payload true hkey hlate
  | batch_records payload => exact batch_records_careful payload hlate
  | delete_ip query_params body => exact delete_ip_careful query_params body
  | delete_ip_record id hard => exact delete_ip_record_careful id hard
  | restore_ip_record id => exact restore_ip_record_careful id
  | purge_ip_records body => exact purge_ip_records_careful body
  | create_ip_group payload => exact create_ip_group_careful payload
  | delete_ip_group id => exact delete_ip_group_careful id
  | reassign_group_owner id payload => exact reassign_group_owner_careful id payload
  | create_api_key payload => exact create_api_key_careful payload
  | update_api_key id payload => exact update_api_key_careful id payload
  | delete_api_key id resolutions => exact delete_api_key_careful id resolutions
  | rotate_api_key id => exact rotate_api_key_careful id
  | rotate_signing_secret id => exact rotate_signing_secret_careful id
  | update_key_group_permissions id payload =>
      exact update_key_group_permissions_careful id payload hlate
  | revoke_key_group_permission id identifier =>
      exact revoke_key_group_permission_careful id identifier
  | create_webhook payload => exact create_webhook_careful payload
  | update_webhook id payload => exact update_webhook_careful id payload
  | clone_webhook id name => exact clone_webhook_careful id name
  | delete_webhook id => exact delete_webhook_careful id
  | reassign_webhook_owner id payload => exact reassign_webhook_owner_careful id payload
  | test_webhook id delivery => exact test_webhook_careful id delivery
  | delete_webhook_execution id => exact delete_webhook_execution_careful id
  | read body only => exact (careful_of_reads (only ctx)).imp fun _ _ hv _ => hv.symm
  | rejected e => exact fun _ => rfl

theorem Call.late {call : Call} (hkey : v.keys.has ctx.key.id = true)
    (hlate : call.LateRefusal ctx v.toWorld) : Late (call.handler ctx) v := by
  cases call with
  | handle_ban payload => exact handle_ip_upsert_late hkey hlate
  | handle_white payload => exact handle_ip_upsert_late hkey hlate
  | batch_records payload => exact batch_records_late hlate
  | update_key_group_permissions id payload => exact update_key_group_permissions_late hlate
  | _ => exact absurd hlate id

/-- The request is refused after it has created a group. -/
def Service.LateRefusal (S : Service) (req : Request) (w : World) : Prop :=
  ∃ key, w.keys.find? req.key_id = some key ∧ req.call.LateRefusal (S.ctx req key) w

/-- The tables and the queue are as they were. -/
structure World.Same (v w : World) : Prop where
  groups : w.groups = v.groups
  permissions : w.permissions = v.permissions
  records : w.records = v.records
  memberships : w.memberships = v.memberships
  keys : w.keys = v.keys
  webhooks : w.webhooks = v.webhooks
  audit_logs : w.audit_logs = v.audit_logs
  queue : w.queue = v.queue

/-- **Refused requests.** A request that is answered with a 4xx leaves the tables, the audit trail
and the queue as they were, if and only if it is not one that creates a group first. -/
theorem refused_unchanged_iff (S : Service) (req : Request) (v : Vault) :
    ((S.handle req v).1.Refused → v.Same (S.handle req v).2.toWorld) ↔
      ¬ S.LateRefusal req v.toWorld := by
  cases hkey : v.keys.find? req.key_id with
  | none =>
      have hrun : (S.handle req v).2 = v := by
        refine S.handle_of_meets (G := fun _ _ => True) (P := fun w => w = v) ?_
        unfold Service.serve
        rw [Prog.meets_bind, meets_select]
        refine ⟨trivial, ?_⟩
        have heval : (Query.key_by_id req.key_id).eval v.toWorld = none := hkey
        rw [heval]
        exact (rfl : v = v)
      constructor
      · rintro - ⟨key, hfound, -⟩
        cases hkey.symm.trans hfound
      · intro _ _
        rw [hrun]
        exact ⟨rfl, rfl, rfl, rfl, rfl, rfl, rfl, rfl⟩
  | some key =>
      have hhas : v.keys.has (S.ctx req key).key.id = true := by
        obtain ⟨hmem, -⟩ := Table.find?_eq_some.mp hkey
        exact Table.has_iff.mpr ⟨key, hmem, rfl⟩
      -- A late refusal leaves a new group behind; any other request is careful.
      constructor
      · rintro hsame ⟨key', hfound, hlate⟩
        obtain rfl : key = key' := Option.some.inj (hkey.symm.trans hfound)
        have hrun := (S.serve_of_key hkey trivial (Call.late hhas hlate)).run
        unfold Service.handle at hsame
        generalize (S.serve req).run database v = r at hrun hsame
        obtain ⟨e | response, w⟩ := r
        · obtain ⟨hrefused, hgroups⟩ := hrun.2 e w rfl
          exact hgroups (hsame hrefused).groups
        · exact hrun.1 response w rfl
      · intro hlate hrefused
        have hcareful : Careful v (req.call.handler (S.ctx req key)) v (Harmless v) :=
          Call.careful hhas fun h => hlate ⟨key, hkey, h⟩
        have hrun := (S.serve_of_key hkey trivial hcareful).run
        have hv : (S.handle req v).2 = v := by
          unfold Service.handle at hrefused ⊢
          generalize (S.serve req).run database v = r at hrun hrefused ⊢
          obtain ⟨e | response, w⟩ := r
          · exact hrun.2 e w rfl hrefused
          · exact hrun.1 response w rfl hrefused
        rw [hv]
        exact ⟨rfl, rfl, rfl, rfl, rfl, rfl, rfl, rfl⟩

/-- An environment that reads `127.0.0.1`. -/
def Env.loopback_sample : Env :=
  { Env.sample with
    parse_network := fun s => if s = "127.0.0.1" then some ⟨.v4 0x7F000001#32, 32, by decide⟩ else none
    show_ip := fun _ => "127.0.0.1" }

/-- The sensor sends `127.0.0.1` into the group `office`, which nobody has created. -/
def office_batch : Request :=
  .sample 1 5 (.batch_records
    { group_name := "office", records := [{ target_address := "127.0.0.1" }] })

/-- The batch is refused with a 400, and `office` is there. -/
theorem refused_batch_creates_group :
    ¬ ∀ (S : Service) (req : Request) (v : Vault),
      (S.handle req v).1.Refused → v.Same (S.handle req v).2.toWorld := by
  intro all
  have hgroups := (all ⟨.loopback_sample, 0⟩ office_batch .sample (by decide)).groups
  have hlen : ((Service.handle ⟨.loopback_sample, 0⟩ office_batch .sample).2.groups.rows.length) =
      Vault.sample.groups.rows.length := by rw [hgroups]
  exact absurd hlen (by decide)

end IpVault
