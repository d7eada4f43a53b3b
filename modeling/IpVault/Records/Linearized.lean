import IpVault.Access.Concurrent
import IpVault.Access.Footprint
import IpVault.Lib.Tally
import IpVault.Records.AddressBook
import IpVault.Records.Locked

set_option autoImplicit false

/-! # The address book among concurrent requests

Any number of requests take turns statement by statement, and the purges of the retention sweep come in
between. Seen from the address book, each of them is one command that is carried out at one moment, or
nothing: `address_book_linearizable`.
-/

namespace IpVault

open Lib

/-! ## What a request may ask for -/

/-- In one of the stores the reference finds the group. -/
def GroupIn (S : Vault → Prop) (group_id : Option Uuid) (group_name : Option String) (g : IpGroup) :
    Prop :=
  ∃ s, S s ∧ s.group_ref group_id group_name = some g

/-- In one of the stores the record has this address. -/
def AddressIn (S : Vault → Prop) (id : Uuid) (address : String) : Prop :=
  ∃ s, S s ∧ ∃ r ∈ s.records, r.id = id ∧ r.target_address = address

/-- The map of the deletion of a key deletes this group. -/
def MapDeletes (resolutions : List ResolutionEntry) (group : Uuid) : Prop :=
  resolution_of resolutions (EntityType.group.as_str, group) = some .Delete

/-- The commands a call stands for, if its turns find the stores `S`. -/
def Call.Orders (S : Vault → Prop) (ctx : Ctx) (call : Call) (k : BookCommand) : Prop :=
  match call with
  | handle_ban payload | handle_white payload => ∃ g,
      GroupIn S payload.group_id payload.group_name g ∧
        k = .enter g.id [(normalize_ip_or_cidr ctx.env payload.target_address, none)]
  | batch_records payload => ∃ g normalized, GroupIn S none (some payload.group_name) g ∧
      normalize_entries ctx.env payload.records [] = .ok normalized ∧
        k = (batch_transaction ctx payload g normalized).command
  | delete_ip query_params body => ∃ body_params target_address g,
      body.payload {} = .ok body_params ∧
        (query_params.merge body_params).target_address = some target_address ∧
        GroupIn S (query_params.merge body_params).group_id
          (query_params.merge body_params).group_name g ∧
        k = .leave (normalize_ip_or_cidr ctx.env target_address) g.id
  | delete_ip_record id hard => ∃ address, AddressIn S id address ∧
      k = if hard.getD false then .erase address else .put_aside address ctx.now
  | restore_ip_record id => ∃ address, AddressIn S id address ∧ k = .bring_back address
  | purge_ip_records body => ∃ days, body.payload none = .ok days ∧
      0 < days.getD ctx.env.retention_days ∧
        k = .expire (ctx.now - days.getD ctx.env.retention_days * day)
  | delete_ip_group id => k = .disband id
  | delete_api_key _ resolutions => ∃ group, MapDeletes resolutions group ∧ k = .disband group
  | _ => False

/-- A call that stands for at most one command. Only the deletion of a key may take several groups with
it. -/
def Call.single : Call → Bool
  | delete_api_key _ _ => false
  | _ => true

/-- A call that does not succeed without its command. -/
def Call.certain : Call → Bool
  | handle_ban _ | handle_white _ | batch_records _ | delete_ip _ _ | restore_ip_record _
  | delete_ip_group _ => true
  | _ => false

/-- What a request may have done to the book so far: what it asks for, and nothing of it twice. -/
structure Call.Share (S : Vault → Prop) (ctx : Ctx) (call : Call) (ks : List BookCommand) : Prop where
  ordered : ∀ k ∈ ks, call.Orders S ctx k
  once : ks.Nodup
  single : call.single = true → ks.length ≤ 1

/-- Nothing has been done yet. -/
theorem Call.Share.none {S : Vault → Prop} {ctx : Ctx} {call : Call} : call.Share S ctx [] where
  ordered := by simp
  once := List.nodup_nil
  single _ := Nat.zero_le _

/-- What one that has answered has done. -/
structure Call.Done (call : Call) (_ : Response) (ks : List BookCommand) : Prop where
  certain : call.certain = true → ks.length = 1
  all : ∀ id resolutions, call = delete_api_key id resolutions →
    ∀ group, MapDeletes resolutions group → .disband group ∈ ks

/-! ## Rules -/

/-- The effects of the statements on the book. -/
def book_effects : Effects Db Vault Int BookCommand where
  of_op l s := Stmt.commands l s.toWorld
  of_outside threshold _ := [.expire threshold]

/-- Batches name no address twice. -/
def Admissible (l : Stmt) : Prop := ∀ b, l.as_batch = some b → b.seen.Nodup

/-- A statement that does not write the tables of the book. -/
theorem Stmt.commands_quiet {l : Stmt} (h : l.writes_memberships = false) (w : World) :
    l.commands w = [] := by
  unfold Stmt.commands
  cases l.txn w with
  | error e => rfl
  | ok p => cases l <;> first | rfl | cases h

section Rules

variable {rounds : Nat} {S : Vault → Prop} {L : List BookCommand → Prop} {ks : List BookCommand}
variable {α β : Type}

/-- The judgement of a request. -/
abbrev BookTallies (rounds : Nat) (S : Vault → Prop) (L : List BookCommand → Prop)
    (Q : α → List BookCommand → Prop) (p : Handler α) (ks : List BookCommand) : Prop :=
  Prog.Tallies (concurrent_database rounds) S book_effects L Q p ks

theorem tallies_quiet {p : Handler α} (hp : p.Issues fun l : Stmt => l.writes_memberships = false)
    (hL : L ks) : BookTallies rounds S L (fun _ ks' => ks' = ks) p ks :=
  .quiet hp (fun _ s hl => Stmt.commands_quiet hl s.toWorld) hL

theorem quiet_of_reads {p : Handler α} (hp : OnlyReads p) :
    p.Issues fun l : Stmt => l.writes_memberships = false :=
  Prog.Issues.mono hp fun _ ⟨_, hq⟩ => hq ▸ rfl

/-- What does not touch the book goes by. -/
theorem tallies_quiet_then {Q : β → List BookCommand → Prop} {p : Handler α} {f : α → Handler β}
    (hp : p.Issues fun l : Stmt => l.writes_memberships = false) (hL : L ks)
    (hf : ∀ a, BookTallies rounds S L Q (f a) ks) : BookTallies rounds S L Q (p >>= f) ks := by
  refine (tallies_quiet hp hL).bind fun a ks' h => ?_
  rw [h]
  exact hf a

/-- Checks go by, and what they have found is known. -/
theorem tallies_known {Q : β → List BookCommand → Prop} {x : Except AppError α} {f : α → Handler β}
    (hL : L ks) (hf : ∀ a, x = .ok a → BookTallies rounds S L Q (f a) ks) :
    BookTallies rounds S L Q (Prog.ofExcept x >>= f) ks := by
  cases x with
  | error e => exact hL
  | ok a => exact hf a rfl

theorem tallies_found {Q : β → List BookCommand → Prop} {e : AppError} {x : Option α}
    {f : α → Handler β} (hL : L ks) (hf : ∀ a, x = some a → BookTallies rounds S L Q (f a) ks) :
    BookTallies rounds S L Q (Prog.okOr e x >>= f) ks := by
  cases x with
  | none => exact hL
  | some a => exact hf a rfl

/-- The answer to a query is read off one of the stores. -/
theorem tallies_select (q : Query) (hq : q ≠ .key_count) (hL : L ks) :
    BookTallies rounds S L (fun a ks' => ks' = ks ∧ ∃ s, S s ∧ a = q.eval s.toWorld) (select q) ks := by
  refine ⟨hL, fun s hs => ?_⟩
  have hquiet : book_effects.of_op (.query q) s = [] :=
    Stmt.commands_quiet (l := .query q) rfl s.toWorld
  have hanswer : (concurrent_database rounds).answer (.query q) s = .ok (q.eval s.toWorld) := by
    cases q <;> first | rfl | exact absurd rfl hq
  rw [hquiet, List.append_nil, hanswer]
  exact ⟨hL, rfl, s, hs, rfl⟩

/-- A record that is read by its id has it. -/
theorem tallies_record {Q : β → List BookCommand → Prop} {id : Uuid} {e : AppError}
    {f : IpRecord → Handler β} (hL : L ks) (hf : ∀ r, r.id = id → BookTallies rounds S L Q (f r) ks) :
    BookTallies rounds S L Q (do
      let found ← select (.record_by_id id)
      let record ← Prog.okOr e found
      f record) ks := by
  refine (tallies_select (.record_by_id id) (fun h => nomatch h) hL).bind fun found ks' h => ?_
  obtain ⟨rfl, s, -, rfl⟩ := h
  exact tallies_found hL fun r hr => hf r (Table.find?_eq_some.mp hr).2

/-- A statement that writes the book. If it fails, so does the request. -/
theorem tallies_exec {l : Stmt} {Q : l.Reply → List BookCommand → Prop}
    (hl : l.writes_memberships = true) (hL : L ks)
    (h : ∀ s a w, S s → l.txn s.toWorld = .ok (a, w) →
      L (ks ++ l.book_commands s.toWorld) ∧ Q a (ks ++ l.book_commands s.toWorld)) :
    BookTallies rounds S L Q (exec l) ks := by
  refine ⟨hL, fun s hs => ?_⟩
  have hanswer : (concurrent_database rounds).answer l s = Stmt.answer l s.toWorld := by
    cases l <;> first | rfl | cases hl
  rw [hanswer]
  show BookTallies rounds S L Q (Prog.ofExcept (Stmt.answer l s.toWorld))
    (ks ++ l.commands s.toWorld)
  cases htxn : l.txn s.toWorld with
  | error e =>
      rw [Stmt.commands_of_error htxn, List.append_nil]
      simp only [Stmt.answer, htxn, Except.map]
      exact hL
  | ok p =>
      obtain ⟨a, w⟩ := p
      rw [Stmt.commands_of_ok htxn, Stmt.answer_of_ok htxn]
      exact h s a w hs htxn

/-- The one statement of a request that writes the book, and what comes after it. -/
theorem tallies_exec_then {call : Call} {ctx : Ctx} {l : Stmt} {f : l.Reply → Handler Response}
    (hl : l.writes_memberships = true) (hcall : call.single = true)
    (h : ∀ s a w, S s → l.txn s.toWorld = .ok (a, w) → call.Share S ctx (l.book_commands s.toWorld) ∧
      (call.certain = true → (l.book_commands s.toWorld).length = 1))
    (hf : ∀ a, (f a).Issues fun l : Stmt => l.writes_memberships = false) :
    BookTallies rounds S (call.Share S ctx) call.Done (exec l >>= f) [] := by
  have hexec : BookTallies rounds S (call.Share S ctx)
      (fun _ ks => call.Share S ctx ks ∧ (call.certain = true → ks.length = 1)) (exec l) [] :=
    tallies_exec hl .none fun s a w hs htxn => ⟨(h s a w hs htxn).1, h s a w hs htxn⟩
  refine hexec.bind fun a ks' hks' => ?_
  refine (tallies_quiet (hf a) hks'.1).imp fun _ ks'' _ heq => ?_
  rw [heq]
  exact ⟨hks'.2, fun _ _ hkey => by rw [hkey] at hcall; cases hcall⟩

end Rules

/-! ## The endpoints -/

section Endpoints

variable {rounds : Nat} {S : Vault → Prop} {ctx : Ctx}

/-- One command that a call stands for. -/
theorem share_singleton {call : Call} {k : BookCommand} (h : call.Orders S ctx k) :
    call.Share S ctx [k] ∧ (call.certain = true → [k].length = 1) := by
  refine ⟨⟨fun _ hk => ?_, List.nodup_singleton k, fun _ => le_rfl⟩, fun _ => rfl⟩
  rw [List.mem_singleton.mp hk]
  exact h

theorem issues_quiet_exec {l : Stmt} (h : l.writes_memberships = false) :
    (exec l).Issues fun l : Stmt => l.writes_memberships = false :=
  .bind (.op h) fun _ => .ofExcept _

theorem audit_quiet {α : Type} {action : String} {address names details : Option String} {a : α} :
    (do create_audit_log ctx action address names details; pure a : Handler α).Issues
      fun l : Stmt => l.writes_memberships = false :=
  .bind (issues_quiet_exec rfl) fun _ => trivial

/-! ### Groups -/

section Groups

variable {L : List BookCommand → Prop} {ks : List BookCommand}

theorem get_or_create_group_tallies (hL : L ks) (name default_group_type : String)
    (owner : Option Uuid) :
    BookTallies rounds S L (fun g ks' => ks' = ks ∧ GroupIn S none (some name) g)
      (get_or_create_group ctx name default_group_type owner) ks := by
  refine tallies_quiet_then (issues_quiet_exec rfl) hL fun _ => ?_
  refine (tallies_select (.group_by_name name) (fun h => nomatch h) hL).bind fun found ks' h => ?_
  obtain ⟨rfl, s, hs, rfl⟩ := h
  cases hfound : s.group_named name with
  | none =>
      rw [show (Query.group_by_name name).eval s.toWorld = none from hfound]
      exact hL
  | some g =>
      rw [show (Query.group_by_name name).eval s.toWorld = some g from hfound]
      exact ⟨hL, rfl, s, hs, hfound⟩

/-- A reference finds the group that it names, and it names it in one way. -/
theorem resolve_group_ref_tallies (hL : L ks) (group_id : Option Uuid) (group_name : Option String) :
    BookTallies rounds S L (fun found ks' => ks' = ks ∧
        (∀ g, found = some g → GroupIn S group_id group_name g) ∧
        ∀ name, group_name = some name → group_id = none)
      (resolve_group_ref group_id group_name) ks := by
  match group_id, group_name with
  | some _, some _ => exact hL
  | none, none => exact hL
  | some gid, none =>
      refine (tallies_select (.group_by_id gid) (fun h => nomatch h) hL).imp fun found ks' _ h => ?_
      obtain ⟨rfl, s, hs, rfl⟩ := h
      exact ⟨rfl, fun g hg => ⟨s, hs, hg⟩, fun _ h => (nomatch h)⟩
  | none, some name =>
      refine (tallies_select (.group_by_name name) (fun h => nomatch h) hL).imp fun found ks' _ h => ?_
      obtain ⟨rfl, s, hs, rfl⟩ := h
      exact ⟨rfl, fun g hg => ⟨s, hs, hg⟩, fun _ _ => rfl⟩

/-- Bans and whitelistings go into the group they name. -/
theorem upsert_group_tallies (hL : L ks) (payload : BanWhitePayload) (is_whitelist : Bool) :
    BookTallies rounds S L
      (fun g ks' => ks' = ks ∧ GroupIn S payload.group_id payload.group_name g)
      (upsert_group ctx payload is_whitelist) ks := by
  have provision : ∀ id, (provision_caller ctx id).Issues
      fun l : Stmt => l.writes_memberships = false := by
    intro id
    unfold provision_caller
    split
    · trivial
    · exact issues_quiet_exec rfl
  refine (resolve_group_ref_tallies hL _ _).bind fun found ks' h => ?_
  obtain ⟨rfl, hfound, hone⟩ := h
  cases found with
  | some g =>
      refine tallies_quiet_then (quiet_of_reads (upsert_guard_only_reads _)) hL fun _ => ?_
      exact tallies_quiet_then (.ofExcept _) hL fun _ => ⟨hL, rfl, hfound g rfl⟩
  | none =>
      -- A group that is created has the name, and no identifier was given.
      cases hname : payload.group_name with
      | none => exact hL
      | some name =>
          refine tallies_quiet_then (.require _ _) hL fun _ => ?_
          refine (get_or_create_group_tallies hL name _ _).bind fun g ks' h => ?_
          obtain ⟨rfl, hg⟩ := h
          refine tallies_quiet_then (provision g.id) hL fun _ => ⟨hL, rfl, ?_⟩
          rw [hone _ hname]
          exact hg

theorem batch_group_tallies (hL : L ks) (payload : BatchRecordsPayload) :
    BookTallies rounds S L (fun g ks' => ks' = ks ∧ GroupIn S none (some payload.group_name) g)
      (batch_group ctx payload) ks := by
  refine (tallies_select (.group_by_name payload.group_name) (fun h => nomatch h) hL).bind fun found ks' h => ?_
  obtain ⟨rfl, s, hs, rfl⟩ := h
  cases hfound : s.group_named payload.group_name with
  | some g =>
      rw [show (Query.group_by_name payload.group_name).eval s.toWorld = some g from hfound]
      refine tallies_quiet_then (quiet_of_reads (batch_guard_only_reads _ _)) hL fun _ => ?_
      exact ⟨hL, rfl, s, hs, hfound⟩
  | none =>
      rw [show (Query.group_by_name payload.group_name).eval s.toWorld = none from hfound]
      refine tallies_quiet_then (.require _ _) hL fun _ => ?_
      exact get_or_create_group_tallies hL _ _ _

end Groups

/-! ### Memberships -/

theorem handle_ip_upsert_tallies {call : Call} {payload : BanWhitePayload} {is_whitelist : Bool}
    (hsingle : call.single = true)
    (hcall : ∀ g, GroupIn S payload.group_id payload.group_name g → call.Orders S ctx
      (.enter g.id [(normalize_ip_or_cidr ctx.env payload.target_address, none)])) :
    BookTallies rounds S (call.Share S ctx) call.Done
      (handle_ip_upsert ctx payload is_whitelist) [] := by
  refine tallies_quiet_then (.okOr _ _) .none fun network => ?_
  refine tallies_quiet_then (.ofExcept _) .none fun _ => ?_
  refine (upsert_group_tallies .none payload is_whitelist).bind fun g ks' h => ?_
  obtain ⟨rfl, hg⟩ := h
  exact tallies_exec_then rfl hsingle (fun s a w _ _ => share_singleton (hcall g hg))
    fun a => .bind (issues_quiet_exec rfl) fun _ => trivial

theorem enqueue_all_quiet (events : List WebhookEvent) :
    (enqueue_all events).Issues fun l : Stmt => l.writes_memberships = false := by
  induction events with
  | nil => trivial
  | cons e es ih => exact .bind (issues_quiet_exec rfl) fun _ => ih

theorem batch_records_tallies (payload : BatchRecordsPayload) :
    BookTallies rounds S ((Call.batch_records payload).Share S ctx)
      (Call.batch_records payload).Done (batch_records ctx payload) [] := by
  refine tallies_quiet_then (.require _ _) .none fun _ => ?_
  refine tallies_known .none fun normalized hentries => ?_
  refine (batch_group_tallies .none payload).bind fun g ks' h => ?_
  obtain ⟨rfl, hg⟩ := h
  refine tallies_quiet_then (.ofExcept _) .none fun _ => ?_
  refine tallies_exec_then rfl rfl
    (fun s a w _ _ => share_singleton ⟨g, normalized, hg, hentries, rfl⟩) fun a => ?_
  exact .bind (enqueue_all_quiet _) fun _ => trivial

theorem delete_ip_tallies (query_params : DeleteIpQuery) (body : OptionalBody DeleteIpQuery) :
    BookTallies rounds S ((Call.delete_ip query_params body).Share S ctx)
      (Call.delete_ip query_params body).Done (delete_ip ctx query_params body) [] := by
  refine tallies_known .none fun body_params hbody => tallies_found .none fun target_address hadr => ?_
  refine (resolve_group_ref_tallies .none _ _).bind fun found ks' h => ?_
  obtain ⟨rfl, hfound, -⟩ := h
  refine tallies_found .none fun g hg => ?_
  refine tallies_quiet_then (quiet_of_reads (delete_ip_guard_only_reads _)) .none fun _ => ?_
  have horders : (Call.delete_ip query_params body).Orders S ctx
      (.leave (normalize_ip_or_cidr ctx.env target_address) g.id) :=
    ⟨body_params, target_address, g, hbody, (Option.filter_eq_some_iff.mp hadr).1, hfound g hg, rfl⟩
  exact tallies_exec_then rfl rfl (fun s a w _ _ => share_singleton horders)
    fun a => .bind (issues_quiet_exec rfl) fun _ => trivial

/-! ### Records -/

/-- The row a statement finds has its address in that store. -/
theorem address_found {id : Uuid} {s : Vault} (hs : S s) {r : IpRecord}
    (hr : s.records.find? id = some r) : AddressIn S id r.target_address := by
  obtain ⟨hmem, hid⟩ := Table.find?_eq_some.mp hr
  exact ⟨s, hs, r, hmem, hid, rfl⟩

theorem delete_ip_record_tallies (id : Uuid) (hard : Option Bool) :
    BookTallies rounds S ((Call.delete_ip_record id hard).Share S ctx)
      (Call.delete_ip_record id hard).Done (delete_ip_record ctx id hard) [] := by
  refine tallies_record .none fun record hid => ?_
  refine tallies_quiet_then (quiet_of_reads (caller_may_delete_record_only_reads _ _)) .none
    fun may => ?_
  refine tallies_quiet_then (.require _ _) .none fun _ => ?_
  refine tallies_quiet_then (.require _ _) .none fun _ => ?_
  refine tallies_quiet_then (.require _ _) .none fun _ => ?_
  subst hid
  -- A record that is gone by now is erased no more.
  have herase : ∀ s : Vault, S s → hard.getD false = true →
      (Call.delete_ip_record record.id hard).Share S ctx
        ((Stmt.delete_record record.id).book_commands s.toWorld) := by
    intro s hs hhard
    show (Call.delete_ip_record record.id hard).Share S ctx
      ((s.records.find? record.id).map fun r => BookCommand.erase r.target_address).toList
    cases hfound : s.records.find? record.id with
    | none => exact .none
    | some r =>
        have horders : (Call.delete_ip_record record.id hard).Orders S ctx (.erase r.target_address) :=
          ⟨_, address_found hs hfound, by rw [hhard]; rfl⟩
        exact (share_singleton horders).1
  have hbury : ∀ s a w, S s → hard.getD false = false →
      (Stmt.update_record record.id (soft_delete ctx)).txn s.toWorld = .ok (a, w) →
        (Call.delete_ip_record record.id hard).Share S ctx
          ((Stmt.update_record record.id (soft_delete ctx)).book_commands s.toWorld) := by
    intro s a w hs hhard htxn
    obtain ⟨r, hr, hid, -, -⟩ := Txn.update_record_ok htxn
    have hfound : s.records.find? record.id = some r := Table.find?_eq_some.mpr ⟨hr, hid⟩
    show (Call.delete_ip_record record.id hard).Share S ctx
      (Stmt.update_commands s.toWorld record.id (soft_delete ctx))
    have horders : (Call.delete_ip_record record.id hard).Orders S ctx
        (.put_aside r.target_address ctx.now) := ⟨_, address_found hs hfound, by rw [hhard]; rfl⟩
    unfold Stmt.update_commands
    rw [hfound]
    exact (share_singleton horders).1
  cases hhard : hard.getD false with
  | true =>
      exact tallies_exec_then rfl rfl (fun s a w hs _ => ⟨herase s hs hhard, fun h => nomatch h⟩)
        fun a => audit_quiet
  | false =>
      show BookTallies rounds S _ _ (soft_delete_record ctx record) []
      unfold soft_delete_record
      dsimp only
      by_cases hdeleted : record.is_deleted = true
      · rw [if_pos hdeleted]
        exact ⟨.none, fun h => (nomatch h), fun _ _ h => (nomatch h)⟩
      · rw [if_neg hdeleted]
        exact tallies_exec_then rfl rfl
          (fun s a w hs htxn => ⟨hbury s a w hs hhard htxn, fun h => nomatch h⟩) fun a => audit_quiet

theorem restore_ip_record_tallies (id : Uuid) :
    BookTallies rounds S ((Call.restore_ip_record id).Share S ctx)
      (Call.restore_ip_record id).Done (restore_ip_record ctx id) [] := by
  refine tallies_quiet_then (.require _ _) .none fun _ => ?_
  refine tallies_quiet_then (quiet_of_reads (.select _)) .none fun found => ?_
  refine tallies_quiet_then (.okOr _ _) .none fun record => ?_
  refine tallies_quiet_then (.require _ _) .none fun _ => ?_
  refine tallies_exec_then rfl rfl (fun s a w hs htxn => ?_) fun a => audit_quiet
  obtain ⟨r, hr, hid, -, -⟩ := Txn.update_record_ok htxn
  have hfound : s.records.find? id = some r := Table.find?_eq_some.mpr ⟨hr, hid⟩
  have hcommands : (Stmt.update_record id (restoration ctx)).book_commands s.toWorld =
      [.bring_back r.target_address] := by
    show Stmt.update_commands s.toWorld id (restoration ctx) = _
    unfold Stmt.update_commands
    rw [hfound]
    rfl
  rw [hcommands]
  exact share_singleton ⟨_, address_found hs hfound, rfl⟩

theorem purge_ip_records_tallies (body : OptionalBody (Option Int)) :
    BookTallies rounds S ((Call.purge_ip_records body).Share S ctx)
      (Call.purge_ip_records body).Done (purge_ip_records ctx body) [] := by
  refine tallies_quiet_then (.require _ _) .none fun _ => tallies_known .none fun days hdays => ?_
  refine tallies_quiet_then (.require _ _) .none fun _ => ?_
  unfold purge_expired_ip_records
  by_cases hdays' : days.getD ctx.env.retention_days ≤ 0
  · rw [if_pos hdays']
    refine (tallies_quiet audit_quiet .none).imp fun _ ks' _ _ => ?_
    exact ⟨fun h => (nomatch h), fun _ _ h => (nomatch h)⟩
  · rw [if_neg hdays']
    exact tallies_exec_then rfl rfl
      (fun s a w _ _ => share_singleton ⟨days, hdays, Int.not_le.mp hdays', rfl⟩) fun a => audit_quiet

theorem delete_ip_group_tallies (id : Uuid) :
    BookTallies rounds S ((Call.delete_ip_group id).Share S ctx)
      (Call.delete_ip_group id).Done (delete_ip_group ctx id) [] := by
  refine tallies_quiet_then (quiet_of_reads (.select _)) .none fun found => ?_
  refine tallies_quiet_then (.okOr _ _) .none fun group => ?_
  refine tallies_quiet_then (.ofExcept _) .none fun _ => ?_
  exact tallies_exec_then rfl rfl (fun s a w _ _ => share_singleton rfl) fun a =>
    .bind (.require _ _) fun _ => audit_quiet

/-! ### The deletion of a key -/

/-- The groups of the inventory that the map deletes, in the order of the loop. -/
def disbanded (resolutions : List ResolutionEntry) (inventory : List OwnedEntity) :
    List BookCommand :=
  inventory.filterMap fun e =>
    if e.entity_type = .group ∧ resolution_of resolutions e.key = some .Delete then
      some (.disband e.id)
    else none

theorem mem_disbanded {resolutions : List ResolutionEntry} {inventory : List OwnedEntity}
    {k : BookCommand} : k ∈ disbanded resolutions inventory ↔ ∃ e ∈ inventory,
      e.entity_type = .group ∧ resolution_of resolutions e.key = some .Delete ∧ k = .disband e.id := by
  simp only [disbanded, List.mem_filterMap, Option.ite_none_right_eq_some, Option.some.injEq,
    and_assoc, eq_comm (a := k)]

/-- What is named in the inventory, is deleted. -/
theorem disband_mem_disbanded {resolutions : List ResolutionEntry} {inventory : List OwnedEntity}
    (hexact : ∀ e ∈ resolutions, e.key ∈ inventory.map OwnedEntity.key) {group : Uuid}
    (h : MapDeletes resolutions group) : .disband group ∈ disbanded resolutions inventory := by
  obtain ⟨entry, hentry, hkey, -⟩ := mem_of_resolution h
  obtain ⟨e, he, hsame⟩ := List.mem_map.mp (hexact entry hentry)
  have hboth : (e.entity_type.as_str, e.id) = (EntityType.group.as_str, group) := hsame.trans hkey
  obtain ⟨htype, rfl⟩ := Prod.mk.inj hboth
  have hgroup : e.entity_type = .group := by
    cases ht : e.entity_type with
    | group => rfl
    | webhook => rw [ht] at htype; exact absurd htype (by decide)
  have hdeletes : resolution_of resolutions e.key = some .Delete := by
    rw [hsame, hkey]
    exact h
  exact mem_disbanded.mpr ⟨e, he, hgroup, hdeletes, rfl⟩

/-- The inventory has a group once. -/
def GroupsOnce (inventory : List OwnedEntity) : Prop :=
  inventory.Pairwise fun e e' => e.entity_type = .group → e'.entity_type = .group → e.id ≠ e'.id

theorem GroupsOnce.disbanded_nodup {inventory : List OwnedEntity} (h : GroupsOnce inventory)
    (resolutions : List ResolutionEntry) : (disbanded resolutions inventory).Nodup := by
  refine List.pairwise_filterMap.mpr (h.imp fun {e e'} hne k hk k' hk' => ?_)
  obtain ⟨⟨htype, -⟩, hk⟩ := Option.ite_none_right_eq_some.mp hk
  obtain ⟨⟨htype', -⟩, hk'⟩ := Option.ite_none_right_eq_some.mp hk'
  obtain rfl := Option.some.inj hk
  obtain rfl := Option.some.inj hk'
  exact fun heq => hne htype htype' (BookCommand.disband.inj heq)

/-- An entity is listed as what it is. -/
theorem of_mem_owned_by {owner_name : Uuid → String} {entity_type : EntityType}
    {rows : List (Uuid × String × Option Uuid)} {subtree : List Uuid} {e : OwnedEntity}
    (he : e ∈ owned_by owner_name entity_type rows subtree) :
    e.entity_type = entity_type ∧ ∃ row ∈ rows, e.id = row.1 := by
  obtain ⟨⟨id, name, owner⟩, hrow, he⟩ := List.mem_filterMap.mp he
  cases owner with
  | none => cases he
  | some o =>
      obtain ⟨-, he⟩ := Option.ite_none_right_eq_some.mp he
      obtain rfl := Option.some.inj he
      exact ⟨rfl, _, hrow, rfl⟩

theorem owned_by_distinct (owner_name : Uuid → String) (entity_type : EntityType)
    {rows : List (Uuid × String × Option Uuid)} (h : (rows.map Prod.fst).Nodup) (subtree : List Uuid) :
    (owned_by owner_name entity_type rows subtree).Pairwise fun e e' => e.id ≠ e'.id := by
  refine List.pairwise_filterMap.mpr ((List.pairwise_map.mp h).imp fun {row row'} hne e he e' he' => ?_)
  -- What each row lists has its identifier.
  have hrow : e ∈ owned_by owner_name entity_type [row] subtree :=
    List.mem_filterMap.mpr ⟨row, List.mem_singleton_self row, he⟩
  have hrow' : e' ∈ owned_by owner_name entity_type [row'] subtree :=
    List.mem_filterMap.mpr ⟨row', List.mem_singleton_self row', he'⟩
  obtain ⟨-, _, hmem, hid⟩ := of_mem_owned_by hrow
  obtain ⟨-, _, hmem', hid'⟩ := of_mem_owned_by hrow'
  rw [hid, hid', List.mem_singleton.mp hmem, List.mem_singleton.mp hmem']
  exact hne

/-- The groups and the webhooks are read one after the other, each from a table. -/
theorem inventory_tallies {L : List BookCommand → Prop} {ks : List BookCommand} (hL : L ks)
    (subtree : List Uuid) :
    BookTallies rounds S L (fun inventory ks' => ks' = ks ∧ GroupsOnce inventory)
      (inventory_owned_entities subtree) ks := by
  refine tallies_quiet_then (quiet_of_reads (.select _)) hL fun keys => ?_
  refine (tallies_select .all_groups (fun h => nomatch h) hL).bind fun groups ks' h => ?_
  obtain ⟨rfl, s, -, rfl⟩ := h
  refine tallies_quiet_then (quiet_of_reads (.select _)) hL fun webhooks => ⟨hL, rfl, ?_⟩
  have hids : ((s.groups.rows.map fun g => (g.id, g.name, g.owner_key_id)).map Prod.fst).Nodup := by
    rw [List.map_map]
    exact s.groups.unique
  have hwebhook : ∀ {owner_name rows e}, e ∈ owned_by owner_name .webhook rows subtree →
      e.entity_type ≠ .group := fun he => by
    rw [(of_mem_owned_by he).1]
    exact fun h => nomatch h
  refine List.pairwise_append.mpr ⟨?_, ?_, fun e _ e' he' _ htype => absurd htype (hwebhook he')⟩
  · exact (owned_by_distinct _ _ hids subtree).imp fun hne _ _ => hne
  · exact List.pairwise_of_forall_mem_list fun e he e' _ htype => absurd htype (hwebhook he)

/-- Carrying the map out deletes those groups, one after the other. -/
theorem apply_resolutions_tallies {L : List BookCommand → Prop} {resolutions : List ResolutionEntry}
    (inventory : List OwnedEntity) {ks : List BookCommand}
    (hL : ∀ part, part <+: disbanded resolutions inventory → L (ks ++ part)) :
    BookTallies rounds S L (fun _ ks' => ks' = ks ++ disbanded resolutions inventory)
      (apply_resolutions resolutions inventory) ks := by
  induction inventory generalizing ks with
  | nil =>
      have hnone := hL [] (List.prefix_refl _)
      rw [List.append_nil] at hnone
      exact ⟨hnone, (List.append_nil ks).symm⟩
  | cons e es ih =>
      have hnone := hL [] (List.nil_prefix)
      rw [List.append_nil] at hnone
      refine tallies_found hnone fun resolution hresolution => ?_
      by_cases hgroup : e.entity_type = .group ∧ resolution = .Delete
      · obtain ⟨htype, rfl⟩ := hgroup
        have hcons : disbanded resolutions (e :: es) = .disband e.id :: disbanded resolutions es :=
          List.filterMap_cons_some (if_pos ⟨htype, hresolution⟩)
        have hstmt : resolution_stmt e .Delete = .delete_group e.id := by
          unfold resolution_stmt
          rw [htype]
        rw [hcons] at hL ⊢
        rw [hstmt]
        have hlast := hL [.disband e.id] (List.prefix_append _ (disbanded resolutions es))
        have hexec : BookTallies rounds S L (fun _ ks' => ks' = ks ++ [BookCommand.disband e.id])
            (exec (.delete_group e.id)) ks := tallies_exec rfl hnone fun s a w _ _ => ⟨hlast, rfl⟩
        refine hexec.bind fun _ ks' h => ?_
        subst h
        refine (ih fun part hpart => ?_).imp fun _ ks' _ h => ?_
        · rw [List.append_assoc]
          exact hL _ (List.cons_prefix_cons.mpr ⟨rfl, hpart⟩)
        · rw [h, List.append_assoc]
          rfl
      · have hcons : disbanded resolutions (e :: es) = disbanded resolutions es := by
          refine List.filterMap_cons_none (if_neg fun h => hgroup ⟨h.1, ?_⟩)
          exact Option.some.inj (hresolution.symm.trans h.2)
        have hquiet : (resolution_stmt e resolution).writes_memberships = false := by
          obtain ⟨entity_type, id, name, owner, owner_name⟩ := e
          cases entity_type <;> cases resolution <;> first | rfl | exact absurd ⟨rfl, rfl⟩ hgroup
        rw [hcons] at hL ⊢
        exact tallies_quiet_then (issues_quiet_exec hquiet) hnone fun _ => ih hL

/-- The deletion of a key takes the groups with it that its map deletes, each once. -/
theorem delete_api_key_tallies (id : Uuid) (resolutions : List ResolutionEntry) :
    BookTallies rounds S ((Call.delete_api_key id resolutions).Share S ctx)
      (Call.delete_api_key id resolutions).Done (delete_api_key ctx id resolutions) [] := by
  refine tallies_quiet_then (.require _ _) .none fun _ => ?_
  refine tallies_quiet_then (.require _ _) .none fun _ => ?_
  refine tallies_quiet_then (quiet_of_reads (find_administrable_key_only_reads _ _)) .none
    fun target => ?_
  refine tallies_quiet_then (.ofExcept _) .none fun _ => ?_
  refine tallies_quiet_then (.ofExcept _) .none fun _ => ?_
  refine tallies_quiet_then (quiet_of_reads (collect_key_subtree_only_reads _)) .none fun subtree => ?_
  refine tallies_quiet_then (.require _ _) .none fun _ => ?_
  refine (inventory_tallies .none subtree).bind fun inventory ks' h => ?_
  obtain ⟨rfl, honce⟩ := h
  refine tallies_known .none fun _ hvalid => ?_
  obtain ⟨-, -, hexact⟩ := validate_resolutions_ok hvalid
  refine tallies_quiet_then (quiet_of_reads (validate_targets_only_reads _ _)) .none fun _ => ?_
  have hshare : ∀ part, part <+: disbanded resolutions inventory →
      (Call.delete_api_key id resolutions).Share S ctx part := by
    intro part hpart
    refine ⟨fun k hk => ?_, (hpart.sublist).nodup (honce.disbanded_nodup resolutions), fun h => nomatch h⟩
    obtain ⟨e, -, htype, hdeletes, rfl⟩ := mem_disbanded.mp (hpart.subset hk)
    unfold OwnedEntity.key at hdeletes
    rw [htype] at hdeletes
    exact ⟨e.id, hdeletes, rfl⟩
  have happlied : BookTallies rounds S ((Call.delete_api_key id resolutions).Share S ctx)
      (fun _ ks' => ks' = [] ++ disbanded resolutions inventory)
      (apply_resolutions resolutions inventory) [] :=
    apply_resolutions_tallies inventory hshare
  refine happlied.bind fun _ ks' h => ?_
  subst h
  have hall := hshare _ (List.prefix_refl _)
  have hend : ∀ a, BookTallies rounds S ((Call.delete_api_key id resolutions).Share S ctx)
      (Call.delete_api_key id resolutions).Done (.ret a) (disbanded resolutions inventory) := by
    refine fun a => ⟨hall, fun h => (nomatch h), ?_⟩
    rintro _ _ ⟨⟩ group hgroup
    exact disband_mem_disbanded hexact hgroup
  refine tallies_quiet_then (issues_quiet_exec rfl) hall fun rows => ?_
  refine tallies_quiet_then (.require _ _) hall fun _ => ?_
  exact tallies_quiet_then (issues_quiet_exec rfl) hall fun _ => hend _

/-! ### Every endpoint -/

/-- An endpoint that has nothing to do with records. -/
theorem Call.tallies_of_quiet {call : Call} (hcertain : call.certain = false)
    (hsingle : call.single = true)
    (h : ∀ l, call.footprint l = true → l.writes_memberships = false) :
    BookTallies rounds S (call.Share S ctx) call.Done (call.handler ctx) [] := by
  refine (tallies_quiet (Prog.Issues.mono call.within h) .none).imp fun _ _ _ _ => ⟨fun hc => ?_, ?_⟩
  · rw [hcertain] at hc
    cases hc
  · rintro _ _ rfl
    cases hsingle

/-- **Every endpoint** does to the book what it stands for. -/
theorem Call.tallies (call : Call) :
    BookTallies rounds S (call.Share S ctx) call.Done (call.handler ctx) [] := by
  cases call with
  | handle_ban payload => exact handle_ip_upsert_tallies rfl fun g hg => ⟨g, hg, rfl⟩
  | handle_white payload => exact handle_ip_upsert_tallies rfl fun g hg => ⟨g, hg, rfl⟩
  | batch_records payload => exact batch_records_tallies payload
  | delete_ip query_params body => exact delete_ip_tallies query_params body
  | delete_ip_record id hard => exact delete_ip_record_tallies id hard
  | restore_ip_record id => exact restore_ip_record_tallies id
  | purge_ip_records body => exact purge_ip_records_tallies body
  | delete_ip_group id => exact delete_ip_group_tallies id
  | delete_api_key id resolutions => exact delete_api_key_tallies id resolutions
  | _ =>
      refine Call.tallies_of_quiet rfl rfl fun l hl => ?_
      cases l <;> first | rfl | cases hl

end Endpoints

/-! ## Any schedule -/

theorem Admissible.of_not_batch {l : Stmt} (h : ∀ t, l ≠ .batch_txn t) : Admissible l := by
  intro b hb
  cases l with
  | upsert_txn t =>
      cases hb
      simp [BatchTxn.seen, UpsertTxn.as_batch]
  | batch_txn t => exact absurd rfl (h t)
  | _ => cases hb

theorem batch_group_quiet (ctx : Ctx) (payload : BatchRecordsPayload) :
    (batch_group ctx payload).Issues fun l : Stmt => l.writes_memberships = false := by
  refine .bind (quiet_of_reads (.select _)) fun existing => ?_
  split
  · exact .bind (quiet_of_reads (batch_guard_only_reads _ _)) fun _ => trivial
  · refine .bind (.require _ _) fun _ => .bind (issues_quiet_exec rfl) fun _ => ?_
    exact .bind (quiet_of_reads (.select _)) fun _ => .okOr _ _

/-- No endpoint issues a batch that names an address twice. -/
theorem Call.admissible (ctx : Ctx) (call : Call) : (call.handler ctx).Issues Admissible := by
  have hquiet : ∀ l : Stmt, l.writes_memberships = false → Admissible l := by
    intro l hl
    refine .of_not_batch fun t ht => ?_
    subst ht
    cases hl
  cases call with
  | batch_records payload =>
      refine .bind (.require _ _) fun _ => .known fun normalized hentries => ?_
      refine .bind ((batch_group_quiet ctx payload).mono hquiet) fun group => .bind (.ofExcept _) fun _ => ?_
      refine .bind (.bind (.op fun b hb => ?_) fun _ => .ofExcept _)
        fun a => .bind ((enqueue_all_quiet _).mono hquiet) fun _ => trivial
      cases hb
      exact (normalize_entries_ok hentries (by simp)).2
  | _ =>
      refine Prog.Issues.mono (Call.within _) fun l hl => .of_not_batch fun t ht => ?_
      subst ht
      cases hl

/-- The requests begin. -/
def handlers {τ : Type} (requests : τ → Authenticated) (v : Vault) : Pool Db Vault τ AppError Response :=
  ⟨v, fun i => (requests i).call.handler (requests i).ctx⟩

/-- **The address book is linearizable.** However the statements of any requests and the purges of the
retention sweep interleave, the book that the tables hold is what one gets by carrying out, one after the
other, the commands of the log. There a request has only commands it stands for, in the groups and for
the records it names, as its own turns find them, and none twice; at most one unless it deletes a key. If
it has answered, it has exactly one if it cannot have answered without, and if it deletes a key, all that
its map asks for. The log of a run that stops sooner is the beginning of this one, so what a command needs
is found before it. -/
theorem address_book_linearizable {τ : Type} [DecidableEq τ] (rounds : Nat)
    (requests : τ → Authenticated) (v : Vault) (schedule : List (Turn τ Int)) :
    let P := final (Pool.turn (concurrent_database rounds) purge_outside) schedule
      (handlers requests v)
    let log := (handlers requests v).log (concurrent_database rounds) purge_outside book_effects schedule
    let found := (handlers requests v).Finds (concurrent_database rounds) purge_outside schedule
    P.store.book = (log.map Prod.snd).foldl AddressBook.exec v.book ∧
      ∀ i, (requests i).call.Share (found i) (requests i).ctx (Pool.of_program i log) ∧
        ∀ response, P.thread i = .ret response →
          (requests i).call.Done response (Pool.of_program i log) := by
  intro P log found
  have hissues : (handlers requests v).Issues Admissible := fun i => (requests i).call.admissible _
  have hpurge : ∀ threshold, Admissible (.purge threshold) := fun _ b hb => nomatch hb
  refine ⟨?_, fun i => ?_⟩
  · refine Pool.log_refines (fun s : Vault => s.book) (fun l s hl => ?_) (fun t s => ?_)
      schedule hissues
    · exact Stmt.book_after s.wf hl
    · exact Stmt.book_after (l := .purge t) s.wf (hpurge t)
  · have htallied : (handlers requests v).Tallied (concurrent_database rounds) found book_effects
        (fun i => (requests i).call.Share (found i) (requests i).ctx) (fun i => (requests i).call.Done)
        fun _ => [] := fun i => (requests i).call.tallies
    have hlog := htallied.log schedule (fun _ _ h => h) i
    beta_reduce at hlog
    rw [List.nil_append] at hlog
    refine ⟨hlog.so_far, fun response hanswered => ?_⟩
    have hthread : (P.thread i).Tallies (concurrent_database rounds) (found i) book_effects
        ((requests i).call.Share (found i) (requests i).ctx) (requests i).call.Done
        (Pool.of_program i log) := hlog
    rw [hanswered] at hthread
    exact hthread.2

end IpVault
