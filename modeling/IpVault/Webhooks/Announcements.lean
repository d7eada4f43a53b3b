import IpVault.Access.Concurrent
import IpVault.Lib.Announce
import IpVault.Records.Canonical

set_option autoImplicit false

/-! # Events and the committed state

`handle_ip_upsert` and `delete_ip` change the membership of an address in a group in a transaction, and
queue the event after it has committed, as a step of its own. Among several such requests the events may
be queued in another order than the changes were committed in. The last event queued says what is stored
in the end if the membership does not change while another request has still to queue its event
(`last_event_stored`).
-/

namespace IpVault

open Lib

/-- The address is stored in the group. -/
def World.stored (w : World) (address : String) (group_id : Uuid) : Prop :=
  ∃ r ∈ w.records, r.target_address = address ∧ w.member r.id group_id

/-- The event is about the address in the group. -/
def WebhookEvent.concerns (e : WebhookEvent) (address : String) (group_id : Uuid) : Bool :=
  e.address == address && e.group_id == some group_id

/-- The last event queued for the address and the group. -/
def World.last_event (w : World) (address : String) (group_id : Uuid) : Option WebhookEvent :=
  (w.queue.filter (·.concerns address group_id)).getLast?

/-! ## Transactions -/

section Transactions

variable {w w' : World} {address : String} {group_id : Uuid}

/-- A ban or a whitelisting elsewhere. -/
theorem UpsertTxn.stored_elsewhere {t : UpsertTxn} {action : String} (hw : w.Wf)
    (h : t.run w = .ok (action, w'))
    (hne : ¬ (t.normalized_address = address ∧ t.target_group_id = group_id)) :
    w'.stored address group_id ↔ w.stored address group_id := by
  have effect := (UpsertTxn.run_effect hw h).2
  have hw' : w'.Wf := t.wf_run w action w' h hw
  constructor
  · rintro ⟨r', hr', haddress, m, hm, hrecord, hgroup⟩
    rcases (effect.members m).mp hm with hold | ⟨hg, r, hr, hid, -, hadded⟩
    · rcases effect.origin r' hr' with ⟨r, hr, rfl⟩ | ⟨e, he, hnone, hnew, -⟩
      · rw [BatchTxn.outcome_address] at haddress
        rw [BatchTxn.outcome_id] at hrecord
        exact ⟨r, hr, haddress, m, hold, hrecord, hgroup⟩
      · -- a record that is new has no old membership
        obtain ⟨r, hr, hid⟩ := Table.has_iff.mp (hw.membership_record m hold)
        have hfresh : r.id < w.next_uuid := hw.record_fresh r hr
        have hlt : r'.id < w.next_uuid := hrecord ▸ hid ▸ hfresh
        exact absurd hnew (Nat.not_le.mpr hlt)
    · have hsame : r = r' := Table.eq_of_key hr hr' (hid.trans hrecord)
      subst hsame
      have hin : r.target_address = t.normalized_address := List.mem_singleton.mp hadded
      exact absurd ⟨hin.symm.trans haddress, hg.symm.trans hgroup⟩ hne
  · rintro ⟨r, hr, haddress, m, hm, hrecord, hgroup⟩
    refine ⟨_, effect.row r hr, ?_, m, (effect.members m).mpr (.inl hm), ?_, hgroup⟩
    · rw [BatchTxn.outcome_address]
      exact haddress
    · rw [BatchTxn.outcome_id]
      exact hrecord

/-- A removal of the address from the group. -/
theorem DeleteIpTxn.not_stored {t : DeleteIpTxn} {r : IpRecord} (hw : w.Wf)
    (h : t.run w = .ok (r, w')) : ¬ w'.stored t.target_address t.group_id := by
  obtain ⟨hr, haddress, -, -, hrecords, hmemberships⟩ := t.run_ok h
  rintro ⟨r', hr', haddress', m, hm, hrecord, hgroup⟩
  rw [hrecords] at hr'
  rw [hmemberships] at hm
  have hsame : r' = r := hw.address_unique r' hr' r hr (haddress'.trans haddress.symm)
  have hne := (Table.mem_filter.mp hm).2
  rw [hsame] at hrecord
  simp [Membership.key, hrecord, hgroup] at hne

/-- A removal elsewhere. -/
theorem DeleteIpTxn.stored_elsewhere {t : DeleteIpTxn} {r : IpRecord}
    (h : t.run w = .ok (r, w'))
    (hne : ¬ (t.target_address = address ∧ t.group_id = group_id)) :
    w'.stored address group_id ↔ w.stored address group_id := by
  obtain ⟨hr, haddress, -, -, hrecords, hmemberships⟩ := t.run_ok h
  unfold World.stored World.member
  rw [hrecords, hmemberships]
  constructor
  · rintro ⟨r', hr', haddress', m, hm, hmember⟩
    exact ⟨r', hr', haddress', m, (Table.mem_filter.mp hm).1, hmember⟩
  · rintro ⟨r', hr', haddress', m, hm, hrecord, hgroup⟩
    refine ⟨r', hr', haddress', m, Table.mem_filter.mpr ⟨hm, decide_eq_true fun hkey => ?_⟩, hrecord,
      hgroup⟩
    obtain ⟨hid, hg⟩ := Prod.mk.inj hkey
    have hsame : r' = r := Table.eq_of_key hr' hr (hrecord.symm.trans hid)
    exact hne ⟨haddress.symm.trans (hsame ▸ haddress'), hg.symm.trans hgroup⟩

end Transactions

/-! ## The topic -/

/-- A ban, a whitelisting or a removal from a group. -/
def Call.changes_membership : Call → Bool
  | .handle_ban _ | .handle_white _ | .delete_ip _ _ => true
  | _ => false

/-- A statement of a handler before its transaction. -/
def Stmt.resolves : Stmt → Bool
  | .query _ | .insert_group_or_ignore _ | .insert_permission_or_ignore _ => true
  | _ => false

/-- The event says that the address is stored in the group. -/
def WebhookEvent.announces (e : WebhookEvent) : Bool := e.action != "IP_DELETE"

/-- Such a statement leaves the records and the queue alone. -/
structure SameRecords (w w' : World) : Prop where
  records : w'.records = w.records
  memberships : w'.memberships = w.memberships
  queue : w'.queue = w.queue

theorem same_records_of_resolves {l : Stmt} (hl : l.resolves = true) (w : World) :
    SameRecords w (l.after w) := by
  refine Stmt.after_of_keeps (fun w a w' h => ?_) (fun w => ⟨rfl, rfl, rfl⟩) w
  cases l with
  | query q =>
      obtain ⟨-, rfl⟩ := Prod.mk.inj (Except.ok.inj h)
      exact ⟨rfl, rfl, rfl⟩
  | insert_group_or_ignore g =>
      simp only [Stmt.txn, Txn.insert_group_or_ignore] at h
      split at h
      · obtain ⟨-, rfl⟩ := Prod.mk.inj (Except.ok.inj h)
        exact ⟨rfl, rfl, rfl⟩
      · obtain ⟨-, rfl⟩ := Prod.mk.inj (Except.ok.inj h)
        exact ⟨rfl, rfl, rfl⟩
  | insert_permission_or_ignore p =>
      simp only [Stmt.txn, Txn.insert_permission_or_ignore, Txn.db_error] at h
      split at h
      · cases h
      · obtain ⟨-, rfl⟩ := Prod.mk.inj (Except.ok.inj h)
        exact ⟨rfl, rfl, rfl⟩
  | _ => cases hl

section Membership

variable (address : String) (group_id : Uuid)

/-- A transaction that has committed a change of the membership. -/
def ChangesMembership : (l : Stmt) → Except AppError l.Reply → Prop
  | .upsert_txn t, .ok _ => t.normalized_address = address ∧ t.target_group_id = group_id
  | .delete_ip_txn t, .ok _ => t.target_address = address ∧ t.group_id = group_id
  | _, _ => False

/-- What a statement says of the membership. -/
def Stmt.announces : Stmt → Option Bool
  | .enqueue e => if e.concerns address group_id then some e.announces else none
  | _ => none

/-- The statements of the three handlers. -/
def Stmt.of_membership : Stmt → Bool
  | .enqueue _ | .upsert_txn _ | .delete_ip_txn _ => true
  | l => l.resolves

variable {address group_id}

/-- A statement that does not commit a change of the membership leaves it alone. -/
theorem stored_kept {l : Stmt} (hl : l.of_membership = true) (v : Vault)
    (h : ¬ ChangesMembership address group_id l (l.answer v.toWorld)) :
    (v.after l).stored address group_id ↔ v.stored address group_id := by
  have same : SameRecords v.toWorld (l.after v.toWorld) →
      ((v.after l).stored address group_id ↔ v.stored address group_id) := by
    intro hsame
    show (l.after v.toWorld).stored address group_id ↔ _
    unfold World.stored World.member
    rw [hsame.records, hsame.memberships]
  by_cases hresolves : l.resolves = true
  · exact same (same_records_of_resolves hresolves _)
  cases l with
  | upsert_txn t =>
      cases hrun : t.run v.toWorld with
      | error e =>
          have hafter := Stmt.after_of_error (l := .upsert_txn t) hrun
          exact same (hafter.symm ▸ ⟨rfl, rfl, rfl⟩)
      | ok p =>
          rw [Stmt.answer_of_ok (l := .upsert_txn t) hrun] at h
          show ((Stmt.upsert_txn t).after v.toWorld).stored address group_id ↔ _
          rw [Stmt.after_of_ok (l := .upsert_txn t) hrun]
          exact UpsertTxn.stored_elsewhere v.wf hrun h
  | delete_ip_txn t =>
      cases hrun : t.run v.toWorld with
      | error e =>
          have hafter := Stmt.after_of_error (l := .delete_ip_txn t) hrun
          exact same (hafter.symm ▸ ⟨rfl, rfl, rfl⟩)
      | ok p =>
          rw [Stmt.answer_of_ok (l := .delete_ip_txn t) hrun] at h
          show ((Stmt.delete_ip_txn t).after v.toWorld).stored address group_id ↔ _
          rw [Stmt.after_of_ok (l := .delete_ip_txn t) hrun]
          exact DeleteIpTxn.stored_elsewhere hrun h
  | enqueue e =>
      have hframe := Stmt.frame (.enqueue e) v.toWorld
      show ((Stmt.enqueue e).after v.toWorld).stored address group_id ↔ _
      unfold World.stored World.member
      rw [hframe.records rfl, hframe.memberships rfl]
  | _ => exact absurd hl hresolves

/-- Only an event about the address in the group changes which one is the last. -/
theorem last_event_kept {l : Stmt} (hl : l.of_membership = true)
    (h : l.announces address group_id = none) (v : Vault) :
    (v.after l).last_event address group_id = v.last_event address group_id := by
  have same : (l.after v.toWorld).queue = v.queue →
      (v.after l).last_event address group_id = v.last_event address group_id := by
    intro hqueue
    show (l.after v.toWorld).last_event address group_id = _
    unfold World.last_event
    rw [hqueue]
  by_cases hresolves : l.resolves = true
  · exact same (same_records_of_resolves hresolves _).queue
  cases l with
  | upsert_txn t => exact same (Stmt.after_upsert_txn t _).queue
  | delete_ip_txn t => exact same (Stmt.after_delete_ip_txn t _).queue
  | enqueue e =>
      have hconcerns : e.concerns address group_id = false := by
        by_contra hc
        rw [Stmt.announces, if_pos (by simpa using hc)] at h
        cases h
      show (if v.queue.length < v.queue_capacity then _ else _ : World).last_event _ _ = _
      split
      · unfold World.last_event
        rw [List.filter_append, List.filter_cons_of_neg (by rw [hconcerns]; exact Bool.false_ne_true)]
        simp
      · rfl
  | _ => exact absurd hl hresolves

/-- An event that is queued is the last one. -/
theorem last_event_announced {l : Stmt} {b : Bool} (h : l.announces address group_id = some b)
    {v : Vault} (hroom : v.queue.length < v.queue_capacity) :
    ((v.after l).last_event address group_id).map WebhookEvent.announces = some b := by
  cases l with
  | enqueue e =>
      by_cases hc : e.concerns address group_id = true
      · rw [Stmt.announces, if_pos hc] at h
        show ((if v.queue.length < v.queue_capacity then _ else _ : World).last_event _ _).map _ = _
        rw [if_pos hroom]
        unfold World.last_event
        have hlast : [e].filter (fun e => e.concerns address group_id) = [e] := by simp [hc]
        rw [List.filter_append, hlast, List.getLast?_concat]
        exact h
      · rw [Stmt.announces, if_neg hc] at h
        cases h
  | _ => cases h

variable (rounds : Nat) (address group_id)

/-- The membership of the address in the group, as the subject of events. -/
def membership_topic : Topic (concurrent_database rounds) where
  fact v := v.stored address group_id
  said v := (v.last_event address group_id).map WebhookEvent.announces
  room v := v.queue.length < v.queue_capacity
  admitted l := l.of_membership = true
  announces := Stmt.announces address group_id
  commits := ChangesMembership address group_id
  fact_kept l v hl h := by
    refine stored_kept hl v ?_
    cases l with
    | upsert_txn t => exact h
    | delete_ip_txn t => exact h
    | _ => exact fun hc => hc
  said_kept l v hl h := congrArg _ (last_event_kept hl h v)
  said_announced l v b h hroom := last_event_announced h hroom

variable {rounds address group_id}

/-! ## The handlers -/

/-- A handler that reads, or makes sure that its group is there. -/
theorem resolving_orderly {α : Type} {p : Handler α}
    (h : p.Issues fun l : Stmt => l.resolves = true) :
    (membership_topic address group_id rounds).Orderly p := by
  refine Topic.Orderly.of_issues h fun l hl => ?_
  cases l with
  | query q => exact ⟨rfl, rfl, fun _ hc => hc⟩
  | insert_group_or_ignore g => exact ⟨rfl, rfl, fun _ hc => hc⟩
  | insert_permission_or_ignore p => exact ⟨rfl, rfl, fun _ hc => hc⟩
  | _ => cases hl

theorem resolves_of_reads {α : Type} {p : Handler α} (h : OnlyReads p) :
    p.Issues fun l : Stmt => l.resolves = true :=
  Prog.Issues.mono h fun _ ⟨_, hq⟩ => hq ▸ rfl

theorem upsert_group_resolves (ctx : Ctx) (payload : BanWhitePayload) (is_whitelist : Bool) :
    (upsert_group ctx payload is_whitelist).Issues fun l : Stmt => l.resolves = true := by
  have insert : ∀ l : Stmt, l.resolves = true → (exec l).Issues fun l : Stmt => l.resolves = true :=
    fun l hl => .bind (.op hl) fun _ => .ofExcept _
  refine .bind (resolves_of_reads (resolve_group_ref_only_reads _ _)) fun existing_group => ?_
  cases existing_group with
  | some g =>
      exact .bind (resolves_of_reads (upsert_guard_only_reads g.id)) fun _ =>
        .bind (.ofExcept _) fun _ => trivial
  | none =>
      cases payload.group_name with
      | none => trivial
      | some group_name =>
          refine .bind (.require _ _) fun _ => .bind ?_ fun group => .bind ?_ fun _ => trivial
          · exact .bind (insert _ rfl) fun _ =>
              .bind (resolves_of_reads (.select _)) fun _ => .okOr _ _
          · unfold provision_caller
            split
            · trivial
            · exact insert _ rfl

/-- Queueing an event commits nothing. -/
theorem announcing_enqueue {α : Type} {e : WebhookEvent} {a : α} :
    (membership_topic address group_id rounds).Announcing
      (exec (.enqueue e) >>= fun _ => (pure a : Handler α)) :=
  ⟨rfl, fun _ => ⟨⟨fun hc => absurd hc id, fun _ _ hfirst => nomatch hfirst⟩, trivial⟩⟩

/-- A transaction, with the event that follows it. -/
theorem transaction_orderly {α : Type} {l : Stmt} {e : l.Reply → WebhookEvent} {b : α}
    (hl : l.of_membership = true) (hquiet : l.announces address group_id = none)
    (hanswer : ∀ v, (concurrent_database rounds).answer l v = l.answer v.toWorld)
    (hevent : ∀ (v : Vault) a, l.answer v.toWorld = .ok a →
      (ChangesMembership address group_id l (.ok a) ↔ (e a).concerns address group_id = true) ∧
        (ChangesMembership address group_id l (.ok a) →
          ((e a).announces = true ↔ (v.after l).stored address group_id)))
    (herr : ∀ err, ¬ ChangesMembership address group_id l (.error err)) :
    (membership_topic address group_id rounds).Orderly
      (exec l >>= fun a => exec (.enqueue (e a)) >>= fun _ => (pure b : Handler α)) := by
  refine ⟨⟨hl, fun v => ?_⟩, fun _ hfirst => Option.some.inj hfirst ▸ hquiet⟩
  show (membership_topic address group_id rounds).Follows l v
      (Prog.ofExcept ((concurrent_database rounds).answer l v) >>= _) ∧
    (membership_topic address group_id rounds).Announcing
      (Prog.ofExcept ((concurrent_database rounds).answer l v) >>= _)
  cases hr : (concurrent_database rounds).answer l v with
  | error err =>
      refine ⟨⟨fun hc => ?_, fun _ _ hfirst => nomatch hfirst⟩, trivial⟩
      rw [hr] at hc
      exact absurd hc (herr err)
  | ok a =>
      obtain ⟨hchanges, htrue⟩ := hevent v a ((hanswer v).symm.trans hr)
      refine ⟨⟨fun hc => ?_, fun hc o hfirst => ?_⟩, announcing_enqueue⟩
      · rw [hr] at hc
        exact ⟨.enqueue (e a), (e a).announces, rfl, if_pos (hchanges.mp hc), htrue hc⟩
      · obtain rfl := Option.some.inj hfirst
        rw [hr] at hc
        exact if_neg fun hconcerns => hc (hchanges.mpr hconcerns)

theorem txn_of_answer {l : Stmt} {w : World} {a : l.Reply} (h : l.answer w = .ok a) :
    ∃ w', l.txn w = .ok (a, w') := by
  unfold Stmt.answer at h
  cases hrun : l.txn w with
  | error e =>
      rw [hrun] at h
      cases h
  | ok p =>
      rw [hrun] at h
      obtain rfl := Except.ok.inj h
      exact ⟨p.2, rfl⟩

/-- A ban or a whitelisting adds or updates. -/
theorem UpsertTxn.run_action {t : UpsertTxn} {w w' : World} {action : String}
    (h : t.run w = .ok (action, w')) : action ≠ "IP_DELETE" := by
  obtain ⟨id, w₁, -, h⟩ := atomic_bind_ok.mp h
  obtain ⟨n, w₂, -, h⟩ := atomic_bind_ok.mp h
  obtain ⟨_, w₃, -, h⟩ := atomic_bind_ok.mp h
  obtain ⟨rfl, -⟩ := atomic_pure_ok.mp h
  by_cases hn : n > 0
  · rw [if_pos hn]
    decide
  · rw [if_neg hn]
    decide

theorem handle_ip_upsert_orderly (ctx : Ctx) (payload : BanWhitePayload) (is_whitelist : Bool) :
    (membership_topic address group_id rounds).Orderly
      (handle_ip_upsert ctx payload is_whitelist) := by
  refine .bind (resolving_orderly (.okOr _ _)) fun network =>
    .bind (resolving_orderly (.ofExcept _)) fun _ =>
      .bind (resolving_orderly (upsert_group_resolves ctx payload is_whitelist)) fun group => ?_
  have hconcerns : ∀ action, (WebhookEvent.concerns
      { action := action, address := normalize_ip_or_cidr ctx.env payload.target_address
        is_whitelist := is_whitelist, group_id := some group.id, group_name := some group.name
        cause := payload.cause } address group_id = true) ↔
      normalize_ip_or_cidr ctx.env payload.target_address = address ∧ group.id = group_id := by
    intro action
    simp [WebhookEvent.concerns]
  refine transaction_orderly (l := .upsert_txn (upsert_transaction ctx payload is_whitelist group))
    rfl rfl (fun v => rfl) (fun v action hanswer => ⟨(hconcerns action).symm, fun hchanges => ?_⟩)
    fun _ h => h
  obtain ⟨w', hrun⟩ := txn_of_answer hanswer
  obtain ⟨rfl, rfl⟩ := hchanges
  have haction := UpsertTxn.run_action hrun
  obtain ⟨r, hr, haddress, -, hmember⟩ := UpsertTxn.stores v.wf hrun
  have hafter := Stmt.after_of_ok (l := .upsert_txn _) hrun
  refine ⟨fun _ => ?_, fun _ => bne_iff_ne.mpr haction⟩
  show (Stmt.after _ v.toWorld).stored _ _
  rw [hafter]
  exact ⟨r, hr, haddress, hmember⟩

theorem delete_ip_orderly (ctx : Ctx) (query_params : DeleteIpQuery)
    (body : OptionalBody DeleteIpQuery) :
    (membership_topic address group_id rounds).Orderly (delete_ip ctx query_params body) := by
  refine .bind (resolving_orderly (.ofExcept _)) fun body_params =>
    .bind (resolving_orderly (.okOr _ _)) fun target_address =>
      .bind (resolving_orderly (resolves_of_reads (resolve_group_ref_only_reads _ _))) fun found =>
        .bind (resolving_orderly (.okOr _ _)) fun group =>
          .bind (resolving_orderly (resolves_of_reads (delete_ip_guard_only_reads _))) fun _ => ?_
  refine transaction_orderly (l := .delete_ip_txn (delete_ip_transaction ctx target_address group))
    rfl rfl (fun v => rfl) (fun v record hanswer => ?_) fun _ h => h
  obtain ⟨w', hrun⟩ := txn_of_answer hanswer
  have haddress := (DeleteIpTxn.run_ok hrun).2.1
  refine ⟨?_, fun hchanges => ?_⟩
  · rw [WebhookEvent.concerns, haddress]
    simp [ChangesMembership, delete_ip_transaction]
  · obtain ⟨rfl, rfl⟩ := hchanges
    have hafter := Stmt.after_of_ok (l := .delete_ip_txn _) hrun
    have hnot := DeleteIpTxn.not_stored v.wf hrun
    refine ⟨fun h => (by cases h), fun hstored => absurd ?_ hnot⟩
    have hstored' : (Stmt.after _ v.toWorld).stored _ _ := hstored
    rwa [hafter] at hstored'

theorem Call.orderly (ctx : Ctx) {call : Call} (h : call.changes_membership = true) :
    (membership_topic address group_id rounds).Orderly (call.handler ctx) := by
  cases call with
  | handle_ban payload => exact handle_ip_upsert_orderly ctx payload false
  | handle_white payload => exact handle_ip_upsert_orderly ctx payload true
  | delete_ip query_params body => exact delete_ip_orderly ctx query_params body
  | _ => cases h

end Membership

/-! ## Runs -/

/-- A request that owes an event is about to queue it. -/
theorem issues_of_owing {τ : Type} {rounds : Nat} {address : String} {group_id : Uuid}
    {P : Requests τ} {j : τ} {b : Bool}
    (h : (membership_topic address group_id rounds).Owing (P.thread j) b) :
    ∃ e past, P.issues j (.enqueue e) past ∧ e.concerns address group_id = true := by
  obtain ⟨⟨l, past⟩, hfirst, hannounces⟩ := h
  have hissues : P.issues j l past := by
    unfold Requests.issues Pool.pending
    cases hp : P.thread j with
    | ret a => rw [hp] at hfirst; cases hfirst
    | fail e => rw [hp] at hfirst; cases hfirst
    | ask o next => rw [hp] at hfirst; exact hfirst
  cases l with
  | enqueue e =>
      by_cases hc : e.concerns address group_id = true
      · exact ⟨e, past, hissues, hc⟩
      · have hnone : (Stmt.enqueue e).announces address group_id = none := if_neg hc
        cases hnone.symm.trans hannounces
  | _ => cases hannounces

section Runs

variable {τ : Type} [DecidableEq τ]

/-- The request has committed a change of the membership. -/
def Changed (address : String) (group_id : Uuid) (past : Past Db) : Prop :=
  ∃ x ∈ past, ChangesMembership address group_id x.1 x.2

/-- The turn of a request that finds room in the queue. -/
def Roomy (turn : Turn τ Int) (P : Requests τ) : Prop :=
  ∃ i, turn = .of i ∧ P.store.queue.length < P.store.queue_capacity

/-- The membership does not change in this turn while another request has still to queue its event. -/
def InOrder (rounds : Nat) (address : String) (group_id : Uuid) (turn : Turn τ Int)
    (P : Requests τ) : Prop :=
  ((statement rounds turn P).2.store.stored address group_id ↔ P.store.stored address group_id) ∨
    ∀ j, turn ≠ .of j → ∀ e past, P.issues j (.enqueue e) past →
      e.concerns address group_id = false

/-- **The last event.** When all requests have ended and one of them has changed the membership, the last
event queued is an `IP_DELETE` if and only if the address is not stored in the group, in each run in which
the queue is never full and every turn is in order. -/
theorem last_event_stored (rounds : Nat) (requests : τ → Authenticated) (v : Vault)
    (schedule : List (Turn τ Int)) (address : String) (group_id : Uuid)
    (hcalls : ∀ i, (requests i).call.changes_membership = true)
    (hroomy : Along (statement rounds) Roomy schedule (serving requests v))
    (hrun : Along (statement rounds) (InOrder rounds address group_id) schedule (serving requests v))
    (hended : ∀ i, (final (statement rounds) schedule (serving requests v)).pending i = none)
    (hdone : ∃ i r past, (final (statement rounds) schedule (serving requests v)).thread i =
      .ret (r, past) ∧ Changed address group_id past) :
    ∃ e, (final (statement rounds) schedule (serving requests v)).store.last_event address group_id =
        some e ∧
      (e.action = "IP_DELETE" ↔
        ¬ (final (statement rounds) schedule (serving requests v)).store.stored address group_id) := by
  let topic := membership_topic address group_id rounds
  have start : topic.Kept (serving requests v) :=
    Topic.Kept.start fun i => Call.orderly (requests i).ctx (hcalls i)
  have undisturbed : Along (statement rounds) (topic.Undisturbed purge_outside) schedule
      (serving requests v) := by
    refine (hroomy.and hrun).mono fun w P hw => ?_
    obtain ⟨⟨i, rfl, hroom⟩, horder⟩ := hw
    refine ⟨i, rfl, hroom, horder.imp_right fun hnone j b hj howing => ?_⟩
    obtain ⟨e, past, hissues, hconcerns⟩ := issues_of_owing howing
    rw [hnone j (fun h => hj (Turn.of.inj h).symm) e past hissues] at hconcerns
    cases hconcerns
  have ended : ∀ i, ((final (statement rounds) schedule (serving requests v)).thread i).first =
      none := by
    intro i
    have hi := hended i
    unfold Pool.pending at hi
    cases hp : (final (statement rounds) schedule (serving requests v)).thread i with
    | ret a => rfl
    | fail e => rfl
    | ask o next => rw [hp] at hi; cases hi
  have committed : ∃ i, topic.Committed
      ((final (statement rounds) schedule (serving requests v)).thread i) := by
    obtain ⟨i, r, past, hret, x, hx, hchanges⟩ := hdone
    exact ⟨i, x, by rw [hret]; exact hx, hchanges⟩
  obtain ⟨b, hsaid, htrue⟩ := start.announced undisturbed ended committed
  obtain ⟨e, hlast, rfl⟩ := Option.map_eq_some_iff.mp hsaid
  refine ⟨e, hlast, ?_⟩
  rw [← not_iff_not, not_not]
  exact bne_iff_ne.symm.trans htrue

end Runs

/-! ## A ban and a removal -/

/-- The master bans an address, while it removes it from the same group. -/
def ban_and_removal : Client → Authenticated
  | .first => .sample { ApiKey.sample 0 with key_hash := "m", is_master := true }
      (.handle_ban { target_address := "203.0.113.7", group_id := some 2 })
  | .second => .sample { ApiKey.sample 0 with key_hash := "m", is_master := true }
      (.delete_ip { target_address := some "203.0.113.7", group_id := some 2 } .empty)

/-- The removal commits after the ban, and queues its event before it. -/
def overtaking_removal : List (Turn Client Int) :=
  [.of .first, .of .first, .of .second, .of .second, .of .second, .of .first]

/-- The last event says that the address is banned; it is not. -/
theorem last_event_outdated :
    ¬ ∀ (τ : Type) [DecidableEq τ] (rounds : Nat) (requests : τ → Authenticated) (v : Vault)
      (schedule : List (Turn τ Int)) (address : String) (group_id : Uuid),
      (∀ i, (requests i).call.changes_membership = true) →
      Along (statement rounds) Roomy schedule (serving requests v) →
      (∀ i, (final (statement rounds) schedule (serving requests v)).pending i = none) →
      (∃ i r past, (final (statement rounds) schedule (serving requests v)).thread i =
        .ret (r, past) ∧ Changed address group_id past) →
      ∃ e, (final (statement rounds) schedule (serving requests v)).store.last_event address
          group_id = some e ∧
        (e.action = "IP_DELETE" ↔
          ¬ (final (statement rounds) schedule (serving requests v)).store.stored address
            group_id) := by
  intro all
  have hcalls : ∀ i, (ban_and_removal i).call.changes_membership = true := by
    intro i
    cases i <;> rfl
  have hroomy : Along (statement 1) Roomy overtaking_removal (serving ban_and_removal .sample) :=
    ⟨⟨_, rfl, by decide⟩, ⟨_, rfl, by decide⟩, ⟨_, rfl, by decide⟩, ⟨_, rfl, by decide⟩,
      ⟨_, rfl, by decide⟩, ⟨_, rfl, by decide⟩, trivial⟩
  have hended : ∀ i, (final (statement 1) overtaking_removal
      (serving ban_and_removal .sample)).pending i = none := by
    intro i
    cases i <;> rfl
  obtain ⟨e, hlast, htrue⟩ := all Client 1 ban_and_removal .sample overtaking_removal
    "203.0.113.7" 2 hcalls hroomy hended
    ⟨.first, _, _, rfl, _, List.mem_cons_of_mem _ List.mem_cons_self, rfl, rfl⟩
  have haction : e.action = "IP_ADD" := by
    obtain rfl := Option.some.inj hlast
    rfl
  have hnone : (final (statement 1) overtaking_removal
      (serving ban_and_removal .sample)).store.memberships.rows = [] := by decide
  have hnot : ¬ (final (statement 1) overtaking_removal
      (serving ban_and_removal .sample)).store.stored "203.0.113.7" 2 := by
    rintro ⟨r, -, -, m, hm, -⟩
    rw [← Table.mem_rows, hnone] at hm
    exact absurd hm List.not_mem_nil
  rw [haction] at htrue
  exact absurd (htrue.mpr hnot) (by decide)

/-- The removal begins when the ban has queued its event. -/
def removal_afterwards : List (Turn Client Int) :=
  [.of .first, .of .first, .of .first, .of .second, .of .second, .of .second]

theorem removal_in_order : Along (statement 1) (InOrder 1 "203.0.113.7" 2) removal_afterwards
    (serving ban_and_removal .sample) := by
  refine ⟨.inr ?_, .inr ?_, .inr ?_, .inr ?_, .inr ?_, .inr ?_, trivial⟩
  all_goals
    intro j hj e past hissues
    cases j with
    | first => first | exact absurd rfl hj | cases hissues
    | second => first | exact absurd rfl hj | cases hissues

/-- The address is gone, and the last event says so. -/
theorem last_event_stored_afterwards :
    ∃ e, (final (statement 1) removal_afterwards
        (serving ban_and_removal .sample)).store.last_event "203.0.113.7" 2 = some e ∧
      (e.action = "IP_DELETE" ↔ ¬ (final (statement 1) removal_afterwards
        (serving ban_and_removal .sample)).store.stored "203.0.113.7" 2) := by
  refine last_event_stored 1 ban_and_removal .sample removal_afterwards "203.0.113.7" 2 ?_ ?_
    removal_in_order ?_ ⟨.first, _, _, rfl, _, List.mem_cons_of_mem _ List.mem_cons_self, rfl, rfl⟩
  · intro i
    cases i <;> rfl
  · exact ⟨⟨_, rfl, by decide⟩, ⟨_, rfl, by decide⟩, ⟨_, rfl, by decide⟩, ⟨_, rfl, by decide⟩,
      ⟨_, rfl, by decide⟩, ⟨_, rfl, by decide⟩, trivial⟩
  · intro i
    cases i <;> rfl

end IpVault
