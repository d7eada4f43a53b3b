import IpVault.Records.Locked

set_option autoImplicit false

/-! # Canonical addresses

The column `target_address` is unique as a text. That it is unique as a network, too, rests on every
write going through `normalize_ip_or_cidr`, and on the canonical text of a network being read back as
that network. The latter is what the service relies on in the crate that parses and prints addresses;
`Env.Inverse` states it.
-/

namespace IpVault

open Lib

/-! ## The canonical text of a network -/

/-- The canonical text of a network: what is left of any spelling of it. -/
def Env.show_network (env : Env) (net : IpNetwork) : String :=
  if net.is_single_host then env.show_ip net.ip
  else env.show_ip net.network ++ "/" ++ toString net.plen

/-- Reading inverts printing on the canonical texts of what can be read, and the empty text is no
network. -/
structure Env.Inverse (env : Env) : Prop where
  parse_show : ∀ s net, env.parse_network s = some net →
    env.parse_network (env.show_network net) = some net.masked
  parse_empty : env.parse_network "" = none

section Text

variable {env : Env} {s s' : String} {net net' : IpNetwork}

theorem normalize_of_parse (h : env.parse_network s = some net) :
    normalize_ip_or_cidr env s = env.show_network net := by
  unfold normalize_ip_or_cidr Env.show_network
  rw [h]

/-- The host bits leave no trace in the canonical text. -/
theorem Env.show_network_masked (env : Env) (net : IpNetwork) :
    env.show_network net.masked = env.show_network net := by
  unfold Env.show_network
  rw [net.is_single_host_masked, net.network_masked]
  by_cases h : net.is_single_host = true
  · rw [if_pos h, if_pos h]
    show env.show_ip net.network = env.show_ip net.ip
    rw [IpNetwork.network_of_single_host h]
  · rw [if_neg h, if_neg h]
    rfl

/-- Two spellings of one network have one canonical text. -/
theorem normalize_eq_of_masked (h : env.parse_network s = some net)
    (h' : env.parse_network s' = some net') (hsame : net.masked = net'.masked) :
    normalize_ip_or_cidr env s = normalize_ip_or_cidr env s' := by
  calc normalize_ip_or_cidr env s
      = env.show_network net.masked := by rw [normalize_of_parse h, env.show_network_masked]
    _ = env.show_network net'.masked := by rw [hsame]
    _ = normalize_ip_or_cidr env s' := by rw [normalize_of_parse h', env.show_network_masked]

/-- A text is canonical if it is the canonical text of a network that can be read. -/
def Env.Canonical (env : Env) (s : String) : Prop :=
  ∃ t net, env.parse_network t = some net ∧ s = env.show_network net

theorem canonical_normalize (h : (env.parse_network s).isSome = true) :
    env.Canonical (normalize_ip_or_cidr env s) := by
  obtain ⟨net, hnet⟩ := Option.isSome_iff_exists.mp h
  exact ⟨s, net, hnet, normalize_of_parse hnet⟩

/-- A canonical text is read, and is a fixed point. -/
theorem Env.Canonical.fixed (henv : env.Inverse) (h : env.Canonical s) :
    (env.parse_network s).isSome = true ∧ normalize_ip_or_cidr env s = s := by
  obtain ⟨t, net, ht, rfl⟩ := h
  have hread := henv.parse_show t net ht
  refine ⟨by rw [hread]; rfl, ?_⟩
  rw [normalize_of_parse hread, env.show_network_masked]

/-- A canonical text is the only one of its network. -/
theorem Env.Canonical.unique (henv : env.Inverse) (h : env.Canonical s) (h' : env.Canonical s')
    (hread : env.parse_network s = some net) (hread' : env.parse_network s' = some net')
    (hsame : net.masked = net'.masked) : s = s' := by
  have heq := normalize_eq_of_masked hread hread' hsame
  rwa [(h.fixed henv).2, (h'.fixed henv).2] at heq

end Text

/-! ## Every address that is stored is canonical -/

variable {ctx : Ctx} {call : Call} {start v w : Vault}

/-- Every stored address is canonical. -/
def World.Canonical (env : Env) (w : World) : Prop :=
  ∀ r ∈ w.records, env.Canonical r.target_address

/-- Every entry that is canonicalised has been read first. -/
theorem normalize_entries_canonical {env : Env} {records : List BatchRecordInput}
    {acc normalized : List (String × BatchRecordInput)}
    (h : normalize_entries env records acc = .ok normalized)
    (hacc : ∀ e ∈ acc, env.Canonical e.1) : ∀ e ∈ normalized, env.Canonical e.1 := by
  induction records generalizing acc with
  | nil =>
      cases h
      exact hacc
  | cons r rest ih =>
      unfold normalize_entries at h
      cases hp : env.parse_network r.target_address with
      | none => simp [hp] at h
      | some net =>
          simp only [hp] at h
          split at h
          · cases h
          · refine ih h fun e he => ?_
            rcases List.mem_append.mp he with he | he
            · exact hacc e he
            · rw [List.mem_singleton.mp he]
              exact canonical_normalize (by rw [hp]; rfl)

/-- The batches a caller may issue hold canonical addresses. -/
theorem Permits.canonical {l : Stmt} (hl : Permits ctx call start l w) (b : BatchTxn)
    (hb : l.as_batch = some b) : ∀ e ∈ b.normalized, ctx.env.Canonical e.1 := by
  cases l with
  | upsert_txn t =>
      cases hb
      obtain ⟨-, payload, is_whitelist, group, -, hparses, rfl⟩ := hl
      intro e he
      rw [List.mem_singleton.mp he]
      exact canonical_normalize hparses
  | batch_txn t =>
      cases hb
      obtain ⟨-, -, payload, group, normalized, -, hadmitted, -, rfl⟩ := hl
      exact normalize_entries_canonical hadmitted.entries fun e he => absurd he List.not_mem_nil
  | _ => cases hb

/-- **One write.** -/
theorem World.Canonical.after {l : Stmt} (h : w.Canonical ctx.env)
    (hl : Permits ctx call start l w) : (w.after l).Canonical ctx.env := by
  intro r' hr'
  rcases Stmt.mem_records_after w.wf hl.seen_nodup hr' with
    hr | ⟨id, c, r, -, hr, -, rfl⟩ | ⟨b, hb, ⟨r, hr, rfl⟩ | ⟨e, he, -, -, heq⟩⟩
  · exact h r' hr
  · rw [Txn.RecordChange.apply_address]
    exact h r hr
  · rw [BatchTxn.outcome_address]
    exact h r hr
  · have haddress : r'.target_address = e.1 := by rw [heq]; rfl
    rw [haddress]
    exact hl.canonical b hb e he

/-- **One event.** -/
theorem World.Canonical.event {S : Service} (h : v.Canonical S.env) (e : Service.Event) :
    (S.step e v).2.Canonical S.env := by
  cases e with
  | request req =>
      refine S.handle_keeps req v (I := fun w => w.Canonical S.env) h fun key _ _ l w hl hw => ?_
      have hw' : w.Canonical (S.ctx req key).env := hw
      exact hw'.after hl
  | sweep now =>
      refine S.sweep_keeps (I := fun w => w.Canonical S.env) h fun threshold r hr => ?_
      exact h r (Table.mem_filter.mp hr).1

theorem World.Canonical.run {S : Service} (h : v.Canonical S.env) (run : List Service.Event) :
    (final S.step run v).Canonical S.env := by
  have always : Along S.step (fun _ _ => True) run v := Along.of_forall run v fun _ _ _ => trivial
  exact always.keeps (I := fun w => w.Canonical S.env) h fun e w _ hw => hw.event e

/-! ## A removal finds what a ban has stored -/

/-- A ban or a whitelisting that is carried out leaves its address unlocked and in its group. -/
theorem UpsertTxn.stores {t : UpsertTxn} {w w' : World} {action : String} (hw : w.Wf)
    (h : t.run w = .ok (action, w')) :
    ∃ r ∈ w'.records, r.target_address = t.normalized_address ∧ r.is_locked = false ∧
      w'.member r.id t.target_group_id := by
  obtain ⟨hunlocked, effect⟩ := UpsertTxn.run_effect hw h
  have stored : ∃ r ∈ w'.records, r.target_address = t.normalized_address ∧
      r.is_locked = false := by
    cases hold : w.record_at t.normalized_address with
    | none =>
        obtain ⟨r, hr, heq⟩ := effect.created _ List.mem_cons_self hold
        refine ⟨r, hr, ?_, ?_⟩
        · rw [heq]
          rfl
        · rw [heq]
          rfl
    | some r =>
        obtain ⟨hr, hadr⟩ := World.mem_of_record_at hold
        refine ⟨_, effect.row r hr, ?_, ?_⟩
        · rw [BatchTxn.outcome_address]
          exact hadr
        · rw [BatchTxn.outcome_is_locked]
          exact hunlocked r hr hadr
  obtain ⟨r, hr, hadr, hlocked⟩ := stored
  refine ⟨r, hr, hadr, hlocked, ⟨r.id, t.target_group_id⟩, (effect.members _).mpr (.inr ?_), rfl, rfl⟩
  exact ⟨rfl, r, hr, rfl, hlocked, by simp [hadr, UpsertTxn.as_batch]⟩

/-- A removal of an unlocked member of the group commits. -/
theorem DeleteIpTxn.run_total {t : DeleteIpTxn} {w : World} {r : IpRecord}
    (hr : w.record_at t.target_address = some r) (hlocked : r.is_locked = false)
    (hmember : w.member r.id t.group_id) (hkey : w.keys.has t.caller.key.id = true) :
    ∃ w', t.run w = .ok (r, w') := by
  obtain ⟨m, hm, hrecord, hgroup⟩ := hmember
  have hhas : w.memberships.has (r.id, t.group_id) = true :=
    Table.has_iff.mpr ⟨m, hm, Prod.ext hrecord hgroup⟩
  have hunlink : Txn.unlink r.id t.group_id w = .ok (1,
      { w with
        memberships := w.memberships.filter fun m => m.key ≠ (r.id, t.group_id) }) := by
    unfold Txn.unlink
    rw [if_pos hhas]
  obtain ⟨w', haudit⟩ := Txn.insert_audit_total
    (w := { w with memberships := w.memberships.filter fun m => m.key ≠ (r.id, t.group_id) })
    (a := audit_row t.caller t.now "IP_DELETE" (some t.target_address) (some t.group_name) none) hkey
  refine ⟨w', atomic_bind_ok.mpr ⟨some r, w, ?_, ?_⟩⟩
  · rw [← hr]
    rfl
  · simp only [hlocked, Bool.false_eq_true, if_false]
    refine atomic_bind_ok.mpr ⟨1, _, hunlink, ?_⟩
    exact atomic_bind_ok.mpr ⟨(), w', haudit, rfl⟩

/-- The lookup of a group by a reference that resolves. -/
theorem resolve_group_ref_meets {E : AppError → Vault → Prop} {group_id : Option Uuid}
    {group_name : Option String} {g : IpGroup} (h : w.group_ref group_id group_name = some g) :
    Prog.Meets database (fun _ _ => True) (fun found w' => w = w' ∧ found = some g) E
      (resolve_group_ref group_id group_name) w := by
  unfold resolve_group_ref
  cases group_id with
  | none =>
      cases group_name with
      | none => cases h
      | some name => exact (meets_select (q := .group_by_name name)).mpr ⟨trivial, rfl, h⟩
  | some id =>
      cases group_name with
      | none => exact (meets_select (q := .group_by_id id)).mpr ⟨trivial, rfl, h⟩
      | some name => cases h

/-- **A removal that is admitted** and finds an unlocked member of its group is carried out. -/
theorem delete_ip_meets {query_params : DeleteIpQuery} {body : OptionalBody DeleteIpQuery}
    {g : IpGroup} {s : String} {r : IpRecord}
    (hadmitted : RemovalAdmitted ctx query_params body w.toWorld g s) (hs : s ≠ "")
    (hr : w.record_at (normalize_ip_or_cidr ctx.env s) = some r) (hlocked : r.is_locked = false)
    (hmember : w.member r.id g.id) (hkey : w.keys.has ctx.key.id = true) :
    Prog.Meets database (fun _ _ => True) (fun _ w' => ¬ w'.member r.id g.id) (fun _ _ => False)
      (delete_ip ctx query_params body) w := by
  obtain ⟨⟨body_params, hbody, haddress, href⟩, hguard⟩ := hadmitted
  unfold delete_ip
  rw [hbody]
  refine (Prog.meets_bind _ _ _ _).mpr ((Prog.meets_ofExcept _ _).mpr
    ⟨fun b hb => ?_, fun e h => by cases h⟩)
  obtain rfl : body_params = b := Except.ok.inj hb
  have hfilter : (query_params.merge body_params).target_address.filter
      (fun s => !Text.is_empty s) = some s := by
    refine Option.filter_eq_some_iff.mpr ⟨haddress, ?_⟩
    have hne : s.toList ≠ [] := fun h => hs (String.ext h)
    simpa [Text.is_empty] using hne
  simp only [hfilter]
  refine (Prog.meets_bind _ _ _ _).mpr ((Prog.meets_okOr _ _ _).mpr
    ⟨fun a ha => ?_, fun h => by cases h⟩)
  obtain rfl : s = a := Option.some.inj ha
  refine Prog.Meets.bind (resolve_group_ref_meets href) ?_
  rintro _ _ ⟨rfl, rfl⟩
  refine (Prog.meets_bind _ _ _ _).mpr ((Prog.meets_okOr _ _ _).mpr
    ⟨fun g' hg' => ?_, fun h => by cases h⟩)
  obtain rfl : g = g' := Option.some.inj hg'
  have guard : Prog.Meets database (fun _ _ => True) (fun _ w' => w = w') (fun _ _ => False)
      (delete_ip_guard ctx g.id) w := by
    unfold delete_ip_guard
    rcases hguard with hm | hguard
    · rw [if_pos hm]
      exact (rfl : w = w)
    · split
      · exact (rfl : w = w)
      · refine (Prog.meets_bind _ _ _ _).mpr (meets_select.mpr ⟨trivial, ?_⟩)
        have heval : guard_can_delete ((Query.permission ctx.key.id g.id).eval w.toWorld) = .ok () :=
          hguard
        rw [heval]
        exact (Prog.meets_ofExcept _ _).mpr ⟨fun _ _ => rfl, fun e h => by cases h⟩
  refine Prog.Meets.bind guard ?_
  rintro _ _ rfl
  obtain ⟨w', hrun⟩ := DeleteIpTxn.run_total (t := delete_ip_transaction ctx s g) hr hlocked hmember hkey
  refine (Prog.meets_bind _ _ _ _).mpr ((meets_exec (l := .delete_ip_txn _)).mpr
    ⟨trivial, fun found w₁ h => ?_, fun e h => by cases h.symm.trans hrun⟩)
  obtain ⟨rfl, rfl⟩ := Prod.mk.inj (Except.ok.inj (h.symm.trans hrun))
  refine (Prog.meets_bind _ _ _ _).mpr ((meets_exec (l := .enqueue _)).mpr
    ⟨trivial, fun _ _ _ => ?_, fun e h => by cases h⟩)
  -- The membership is gone, and the queue holds none.
  rintro ⟨m, hm, hrecord, hgroup⟩
  have hafter : (w.after (.delete_ip_txn (delete_ip_transaction ctx s g))).toWorld = w₁ :=
    Stmt.after_of_ok h
  have hmemberships := (Stmt.frame (.enqueue
    { action := "IP_DELETE"
      address := found.target_address
      is_whitelist := g.group_type == "whitelist"
      group_id := some g.id
      group_name := some g.name
      cause := some "Deleted via API" })
    (w.after (.delete_ip_txn (delete_ip_transaction ctx s g))).toWorld).memberships rfl
  have hm : m ∈ w₁.memberships := by
    rw [← hafter, ← hmemberships]
    exact hm
  rw [(DeleteIpTxn.run_ok h).2.2.2.2.2, Table.mem_filter, decide_eq_true_eq] at hm
  exact hm.2 (Prod.ext hrecord hgroup)

/-- The request removes an address from a group, and is admitted: the references of its parameters
resolve to the group `g`, the address is spelled `s`, and the caller may delete in `g`. -/
def Service.Removes (S : Service) (req : Request) (w : World) (g : IpGroup) (s : String) : Prop :=
  ∃ query_params body key, req.call = .delete_ip query_params body ∧
    w.keys.find? req.key_id = some key ∧
    RemovalAdmitted (S.ctx req key) query_params body w g s

/-- A ban or a whitelisting that is carried out has stored the address of its payload. -/
theorem ban_stores {S : Service} {req : Request} {payload : BanWhitePayload} {is_whitelist : Bool}
    (hcall : req.call = if is_whitelist then .handle_white payload else .handle_ban payload)
    (h : S.Succeeds req v) {g : IpGroup}
    (hg : (S.handle req v).2.group_ref payload.group_id payload.group_name = some g) :
    ∃ r, (S.handle req v).2.record_at (normalize_ip_or_cidr S.env payload.target_address) = some r ∧
      r.is_locked = false ∧ (S.handle req v).2.member r.id g.id := by
  have handler : ∀ key, req.call.handler (S.ctx req key) =
      handle_ip_upsert (S.ctx req key) payload is_whitelist := by
    intro key
    rw [hcall]
    cases is_whitelist <;> rfl
  obtain ⟨key, -, -, g', w, action, w', -, hg', hrun, -, hgroups, hrecords, hmemberships⟩ :=
    Service.outcome h fun key _ _ => by
      rw [handler key]
      exact handle_ip_upsert_obeys payload is_whitelist hcall
  -- The transaction leaves the groups alone, so that the reference resolves as it did.
  have hsame : w'.groups = w.groups := (UpsertTxn.only_records _ w.toWorld _ w' hrun).groups
  have hgg : g' = g := by
    unfold World.group_ref World.group_named at hg hg'
    rw [hgroups, hsame] at hg
    exact Option.some.inj (hg'.symm.trans hg)
  subst hgg
  obtain ⟨r, hr, hadr, hlocked, m, hm, hmember⟩ := UpsertTxn.stores w.wf hrun
  refine ⟨r, ?_, hlocked, m, ?_, hmember⟩
  · exact (S.handle req v).2.wf.record_at_eq_some.mpr ⟨hrecords ▸ hr, hadr⟩
  · exact hmemberships ▸ hm

/-- A removal of any spelling of what is stored in the group is carried out. -/
theorem removal_finds {S : Service} (henv : S.env.Inverse) {req : Request} {g : IpGroup}
    {s s' : String} {net net' : IpNetwork} {r : IpRecord}
    (hs : S.env.parse_network s = some net) (hs' : S.env.parse_network s' = some net')
    (hsame : net.masked = net'.masked)
    (hr : v.record_at (normalize_ip_or_cidr S.env s) = some r) (hlocked : r.is_locked = false)
    (hmember : v.member r.id g.id) (h : S.Removes req v.toWorld g s') :
    S.Succeeds req v ∧ ¬ (S.handle req v).2.member r.id g.id := by
  obtain ⟨query_params, body, key, hcall, hkey, hadmitted⟩ := h
  have hne : s' ≠ "" := by
    rintro rfl
    cases hs'.symm.trans henv.parse_empty
  have hhas : v.keys.has key.id = true :=
    Table.has_iff.mpr ⟨key, (Table.find?_eq_some.mp hkey).1, rfl⟩
  have hr' : v.record_at (normalize_ip_or_cidr (S.ctx req key).env s') = some r := by
    show v.record_at (normalize_ip_or_cidr S.env s') = some r
    rw [← normalize_eq_of_masked hs hs' hsame]
    exact hr
  have hmeets := delete_ip_meets hadmitted hne hr' hlocked hmember hhas
  have hserve : Prog.Meets database (fun _ _ => True) (fun _ w' => ¬ w'.member r.id g.id)
      (fun _ _ => False) (S.serve req) v := by
    refine S.serve_of_key hkey trivial ?_
    rw [hcall]
    exact hmeets
  have hrun := hserve.run
  unfold Service.Succeeds Service.handle
  generalize (S.serve req).run database v = x at hrun ⊢
  obtain ⟨e | response, w'⟩ := x
  · exact (hrun.2 e w' rfl).elim
  · exact ⟨rfl, hrun.1 response w' rfl⟩

/-- **Canonical addresses.** Whatever happens to a store without records: every address that comes
to be stored is read as a network and is a fixed point of `normalize_ip_or_cidr`, no two rows are of
one network, and whatever spelling of an address has been banned (or whitelisted), a removal from
the same group by any spelling of the same network finds the record and takes it out. -/
theorem canonical_addresses (S : Service) (henv : S.env.Inverse) (run : List Service.Event)
    (v : Vault) (hv : v.records = .empty) :
    (∀ r ∈ (final S.step run v).records,
      (S.env.parse_network r.target_address).isSome = true ∧
        normalize_ip_or_cidr S.env r.target_address = r.target_address) ∧
    (∀ r ∈ (final S.step run v).records, ∀ r' ∈ (final S.step run v).records, ∀ net net',
      S.env.parse_network r.target_address = some net →
      S.env.parse_network r'.target_address = some net' → net.masked = net'.masked → r = r') ∧
    ∀ (ban : Request) (payload : BanWhitePayload) (is_whitelist : Bool),
      ban.call = (if is_whitelist then .handle_white payload else .handle_ban payload) →
      S.Succeeds ban (final S.step run v) →
      ∀ g, (S.handle ban (final S.step run v)).2.group_ref payload.group_id payload.group_name =
        some g →
      ∃ r ∈ (S.handle ban (final S.step run v)).2.records,
        (S.handle ban (final S.step run v)).2.member r.id g.id ∧
        ∀ (removal : Request) (s : String) (net net' : IpNetwork),
          S.env.parse_network payload.target_address = some net →
          S.env.parse_network s = some net' → net.masked = net'.masked →
          S.Removes removal (S.handle ban (final S.step run v)).2.toWorld g s →
          S.Succeeds removal (S.handle ban (final S.step run v)).2 ∧
            ¬ (S.handle removal (S.handle ban (final S.step run v)).2).2.member r.id g.id := by
  have hempty : v.Canonical S.env := by
    intro r hr
    rw [hv] at hr
    exact absurd hr (Table.mem_empty r)
  have canonical := hempty.run run
  refine ⟨fun r hr => (canonical r hr).fixed henv, ?_, ?_⟩
  · intro r hr r' hr' net net' hread hread' hsame
    have haddress := (canonical r hr).unique henv (canonical r' hr') hread hread' hsame
    exact (final S.step run v).wf.address_unique r hr r' hr' haddress
  · intro ban payload is_whitelist hcall hsucceeds g hg
    obtain ⟨r, hr, hlocked, hmember⟩ := ban_stores hcall hsucceeds hg
    refine ⟨r, (World.mem_of_record_at hr).1, hmember, ?_⟩
    intro removal s net net' hread hread' hsame hremoves
    exact removal_finds henv hread hread' hsame hr hlocked hmember hremoves

theorem Env.inverse_sample : Env.sample.Inverse where
  parse_show s net h := by
    have hnet : net = host7 := by
      change (if s = "203.0.113.7" then some host7 else none) = some net at h
      split at h
      · exact (Option.some.inj h).symm
      · cases h
    subst hnet
    decide
  parse_empty := by decide

/-- The sensor bans `203.0.113.7` into `bans`. -/
def bans_ban : Request :=
  .sample 1 5 (.handle_ban { target_address := "203.0.113.7", group_name := some "bans" })

/-- The master takes it out. -/
def bans_removal : Request :=
  .sample 0 6 (.delete_ip { target_address := some "203.0.113.7", group_name := some "bans" } .empty)

/-- The sample service: what the sensor has banned, the master finds. -/
theorem canonical_addresses_found :
    Service.sample.Succeeds bans_removal (Service.sample.handle bans_ban .sample).2 := by
  have found := (canonical_addresses .sample Env.inverse_sample [] .sample rfl).2.2
    bans_ban _ false rfl (by decide) { new_group "bans" "banlist" none 0 with id := 2 } (by decide)
  obtain ⟨r, -, -, hfinds⟩ := found
  refine (hfinds bans_removal "203.0.113.7" host7 host7 (by decide) (by decide) rfl ?_).1
  refine ⟨_, _, { ApiKey.sample 0 with name := "master", key_hash := "m", is_master := true }, rfl,
    by decide, ?_⟩
  exact ⟨⟨{}, rfl, rfl, by decide⟩, .inl (by decide)⟩

end IpVault
