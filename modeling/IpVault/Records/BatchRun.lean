import IpVault.Lib.Trace
import IpVault.Records.Locked
import IpVault.Records.Report

set_option autoImplicit false

/-! # A batch from start to end

How a run of `batch_records` ends: with the report of its transaction, in the store the transaction
leaves, and with the events handed to the queue one after the other. A batch is carried out exactly if
it is admitted (`batch_ends`, `admitted_of_ends`).
-/

namespace IpVault

open Lib

/-- The event a statement hands to the queue. -/
def Stmt.event : Stmt → Option WebhookEvent
  | .enqueue e => some e
  | _ => none

/-- A handler run alone, with the events it hands to the queue. -/
abbrev Ends {α : Type} (p : Handler α) (v : Vault) (r : Except AppError α) (v' : Vault)
    (events : List WebhookEvent) : Prop :=
  Prog.Ends database Stmt.event p v r v' events

/-! ## Statements -/

section Statements

variable {v : Vault} {l : Stmt}

theorem exec_hands {a : l.Reply} {w : World} (h : l.txn v.toWorld = .ok (a, w)) :
    Ends (exec l) v (.ok a) (v.after l) l.event.toList := by
  have hop : Ends (Prog.op (I := Db) l) v (.ok (l.answer v.toWorld)) (v.after l) l.event.toList :=
    Prog.Ends.op _
  rw [Stmt.answer_of_ok h] at hop
  have hread : Ends (Prog.ofExcept (Except.ok a : Except AppError l.Reply)) (v.after l) (.ok a)
      (v.after l) [] := Prog.Ends.ofExcept _
  have hbind : Ends (exec l) v (.ok a) (v.after l) (l.event.toList ++ []) := hop.bind hread
  rwa [List.append_nil] at hbind

theorem select_ends (q : Query) : Ends (select q) v (.ok (q.eval v.toWorld)) v [] :=
  exec_hands (l := .query q) rfl

/-- The store after events have been handed to the queue. -/
def Vault.queued (v : Vault) (events : List WebhookEvent) : Vault :=
  events.foldl (fun v e => v.after (.enqueue e)) v

theorem enqueue_all_ends (events : List WebhookEvent) (v : Vault) :
    Ends (enqueue_all events) v (.ok ()) (v.queued events) events := by
  induction events generalizing v with
  | nil => exact Prog.Ends.ret ()
  | cons e es ih =>
      have hfirst : Ends (exec (.enqueue e)) v (.ok ()) (v.after (.enqueue e)) [e] :=
        exec_hands (l := .enqueue e) rfl
      exact hfirst.bind (ih _)

/-- The end of a batch. -/
theorem answer_ends (events : List WebhookEvent) (response : Response) (v : Vault) :
    Ends (do enqueue_all events; pure response) v (.ok response) (v.queued events) events := by
  have hqueue := enqueue_all_ends events v
  have hall : Ends (do enqueue_all events; pure response) v (.ok response) (v.queued events)
      (events ++ []) := hqueue.bind (Prog.Ends.ret response)
  rwa [List.append_nil] at hall

/-- **The queue is bounded**: the events that do not fit are dropped, and nothing else happens. -/
theorem Vault.queued_toWorld (events : List WebhookEvent) (v : Vault) :
    (v.queued events).toWorld = { v.toWorld with
      queue := v.queue ++ events.take (v.queue_capacity - v.queue.length) } := by
  induction events generalizing v with
  | nil =>
      rw [List.take_nil, List.append_nil]
      rfl
  | cons e es ih =>
      have hstep : (v.queued (e :: es)).toWorld = ((v.after (.enqueue e)).queued es).toWorld := rfl
      have hafter : (v.after (.enqueue e)).toWorld =
          if v.queue.length < v.queue_capacity then
            { v.toWorld with queue := v.queue ++ [e] } else v.toWorld := rfl
      rw [hstep, ih, hafter]
      by_cases hroom : v.queue.length < v.queue_capacity
      · rw [if_pos hroom]
        obtain ⟨n, hn⟩ : ∃ n, v.queue_capacity - v.queue.length = n + 1 :=
          ⟨v.queue_capacity - v.queue.length - 1, by omega⟩
        have hless : v.queue_capacity - (v.queue ++ [e]).length = n := by
          rw [List.length_append, List.length_singleton]
          omega
        show { v.toWorld with
          queue := (v.queue ++ [e]) ++
            es.take (v.queue_capacity - (v.queue ++ [e]).length) } = { v.toWorld with
          queue := v.queue ++ (e :: es).take (v.queue_capacity - v.queue.length) }
        rw [hless, hn, List.take_succ_cons, List.append_assoc]
        rfl
      · rw [if_neg hroom]
        have hnone : v.queue_capacity - v.queue.length = 0 := by omega
        rw [hnone, List.take_zero, List.take_zero]

end Statements

/-! ## The parts of a batch -/

section Batch

variable {ctx : Ctx} {payload : BatchRecordsPayload} {v : Vault} {group : IpGroup}
variable {normalized : List (String × BatchRecordInput)}

/-- The store in which the transaction of a batch begins: its group is there. -/
def batch_base (ctx : Ctx) (payload : BatchRecordsPayload) (v : Vault) : Vault :=
  match v.group_named payload.group_name with
  | some _ => v
  | none => v.after (.insert_group_or_ignore (new_group payload.group_name "banlist"
      (resource_owner ctx.key) ctx.now))

/-- The group a batch creates. -/
theorem created_group_named (ctx : Ctx) (hn : v.group_named payload.group_name = none) :
    (v.after (.insert_group_or_ignore (new_group payload.group_name "banlist"
      (resource_owner ctx.key) ctx.now))).group_named payload.group_name =
      some { new_group payload.group_name "banlist" (resource_owner ctx.key) ctx.now with
        id := v.next_uuid } :=
  group_named_after_insert v (g := new_group payload.group_name "banlist"
    (resource_owner ctx.key) ctx.now) hn

theorem get_or_create_group_ends (ctx : Ctx) (hn : v.group_named payload.group_name = none) :
    Ends (get_or_create_group ctx payload.group_name "banlist" (resource_owner ctx.key)) v
      (.ok { new_group payload.group_name "banlist" (resource_owner ctx.key) ctx.now with
        id := v.next_uuid })
      (v.after (.insert_group_or_ignore (new_group payload.group_name "banlist"
        (resource_owner ctx.key) ctx.now))) [] := by
  unfold get_or_create_group
  obtain ⟨w, htxn⟩ : ∃ w, (Stmt.insert_group_or_ignore (new_group payload.group_name "banlist"
      (resource_owner ctx.key) ctx.now)).txn v.toWorld = .ok ((), w) := by
    simp only [Stmt.txn, Txn.insert_group_or_ignore]
    split
    · exact ⟨_, rfl⟩
    · exact ⟨_, rfl⟩
  have hread := select_ends (v := v.after (.insert_group_or_ignore (new_group payload.group_name
    "banlist" (resource_owner ctx.key) ctx.now))) (.group_by_name payload.group_name)
  have heval : (Query.group_by_name payload.group_name).eval (v.after (.insert_group_or_ignore
      (new_group payload.group_name "banlist" (resource_owner ctx.key) ctx.now))).toWorld = _ :=
    created_group_named ctx hn
  rw [heval] at hread
  exact (exec_hands htxn).bind (hread.bind (Prog.Ends.okOr_some _))

/-- A row that a guard accepts, or the master. -/
theorem row_guard_passes {check : Option GroupPermission → Except AppError Unit} {group_id : Uuid}
    (h : ctx.key.is_master = true ∨ check (v.permission ctx.key.id group_id) = .ok ()) :
    Ends (row_guard ctx check group_id) v (.ok ()) v [] := by
  unfold row_guard
  by_cases hm : ctx.key.is_master = true
  · rw [if_pos hm]
    exact Prog.Ends.ret ()
  · rw [if_neg hm]
    have hperm := select_ends (v := v) (.permission ctx.key.id group_id)
    have hok : check ((Query.permission ctx.key.id group_id).eval v.toWorld) = .ok () :=
      h.resolve_left hm
    refine hperm.bind ?_
    rw [hok]
    exact Prog.Ends.ofExcept _

/-- A row that a guard does not accept. -/
theorem row_guard_refuses {check : Option GroupPermission → Except AppError Unit} {group_id : Uuid}
    {e : AppError} (hmaster : ¬ ctx.key.is_master = true)
    (hcheck : check (v.permission ctx.key.id group_id) = .error e) :
    Ends (row_guard ctx check group_id) v (.error e) v [] := by
  have hperm := select_ends (v := v) (.permission ctx.key.id group_id)
  have heval : check ((Query.permission ctx.key.id group_id).eval v.toWorld) = .error e := hcheck
  unfold row_guard
  rw [if_neg hmaster]
  refine hperm.bind ?_
  rw [heval]
  exact Prog.Ends.ofExcept _

/-- The group of a batch, as `BatchAdmitted` has it: found, or created. -/
theorem batch_group_ends (h : (v.group_named payload.group_name = some group ∧
      (ctx.key.is_master = true ∨
        guard_batch payload.mode (v.permission ctx.key.id group.id) = .ok ())) ∨
    (v.group_named payload.group_name = none ∧
      (ctx.key.is_master = true ∨ ctx.key.can_create_groups = true) ∧
      group = { new_group payload.group_name "banlist" (resource_owner ctx.key) ctx.now with
        id := v.next_uuid })) :
    Ends (batch_group ctx payload) v (.ok group) (batch_base ctx payload v) [] := by
  unfold batch_group batch_base
  have hread := select_ends (v := v) (.group_by_name payload.group_name)
  rcases h with ⟨hnamed, hguard⟩ | ⟨hn, hc, hgroup⟩
  · have heval : (Query.group_by_name payload.group_name).eval v.toWorld = some group := hnamed
    rw [heval] at hread
    have hadmits : Ends (batch_guard ctx payload.mode group.id) v (.ok ()) v [] :=
      row_guard_passes hguard
    rw [hnamed]
    exact hread.bind (hadmits.bind (Prog.Ends.ret group))
  · have heval : (Query.group_by_name payload.group_name).eval v.toWorld = none := hn
    rw [heval] at hread
    have hmay : ctx.key.is_master = true ∨ ctx.key.can_create_groups = true := hc
    rw [hn, hgroup]
    exact hread.bind ((Prog.Ends.require hmay).bind (get_or_create_group_ends ctx hn))

theorem batch_base_keys : (batch_base ctx payload v).keys = v.keys := by
  unfold batch_base
  cases v.group_named payload.group_name with
  | some g => rfl
  | none => exact (Stmt.frame (.insert_group_or_ignore _) v.toWorld).keys rfl

theorem batch_base_records (ctx : Ctx) (payload : BatchRecordsPayload) (v : Vault) :
    Permits.records_untouched v (batch_base ctx payload v) := by
  unfold batch_base
  cases v.group_named payload.group_name with
  | some g => exact ⟨rfl, rfl⟩
  | none =>
      have frame := Stmt.frame (.insert_group_or_ignore (new_group payload.group_name "banlist"
        (resource_owner ctx.key) ctx.now)) v.toWorld
      exact ⟨frame.records rfl, frame.memberships rfl⟩

/-- Its group is there. -/
theorem BatchAdmitted.group_in_base (h : BatchAdmitted ctx payload v.toWorld group normalized) :
    group ∈ (batch_base ctx payload v).groups := by
  unfold batch_base
  rcases h.target with ⟨hnamed, -⟩ | ⟨hn, -, hgroup⟩
  · have hfound : v.group_named payload.group_name = some group := hnamed
    rw [hfound]
    exact (World.mem_of_group_named hnamed).1
  · have hfound : v.group_named payload.group_name = none := hn
    rw [hfound, hgroup]
    exact (World.mem_of_group_named (created_group_named ctx hn)).1

theorem BatchAdmitted.group_name (h : BatchAdmitted ctx payload v.toWorld group normalized) :
    group.name = payload.group_name := by
  rcases h.target with ⟨hnamed, -⟩ | ⟨-, -, hgroup⟩
  · exact (World.mem_of_group_named hnamed).2
  · rw [hgroup]
    rfl

theorem batch_base_queue (ctx : Ctx) (payload : BatchRecordsPayload) (v : Vault) :
    (batch_base ctx payload v).queue = v.queue ∧
    (batch_base ctx payload v).queue_capacity = v.queue_capacity := by
  unfold batch_base
  cases v.group_named payload.group_name with
  | some g => exact ⟨rfl, rfl⟩
  | none =>
      show (Stmt.after _ _).queue = _ ∧ (Stmt.after _ _).queue_capacity = _
      rw [after_insert_group_or_ignore]
      split
      · exact ⟨rfl, rfl⟩
      · exact ⟨rfl, rfl⟩

/-! ## The whole -/

/-- The transaction of a batch, as it has run. -/
structure BatchRan (ctx : Ctx) (payload : BatchRecordsPayload) (group : IpGroup)
    (normalized : List (String × BatchRecordInput)) (v : Vault) (events : List WebhookEvent)
    (w : Vault) : Prop where
  run : (batch_transaction ctx payload group normalized).run (batch_base ctx payload v).toWorld =
    .ok (((batch_transaction ctx payload group normalized).summary
      (batch_base ctx payload v).toWorld, events), w.toWorld)
  events : events.Perm ((batch_transaction ctx payload group normalized).events
    (batch_base ctx payload v).toWorld)
  effect : (batch_transaction ctx payload group normalized).Effect
    ((batch_transaction ctx payload group normalized).outcome (batch_base ctx payload v).toWorld)
    normalized (batch_base ctx payload v).toWorld w.toWorld

theorem BatchRan.only_records {events : List WebhookEvent} {w : Vault}
    (h : BatchRan ctx payload group normalized v events w) :
    OnlyRecords (batch_base ctx payload v).toWorld w.toWorld :=
  (batch_transaction ctx payload group normalized).only_records _ _ _ h.run

/-- **An admitted batch is carried out.** -/
theorem batch_ends (h : BatchAdmitted ctx payload v.toWorld group normalized)
    (hkey : v.keys.has ctx.key.id = true) :
    ∃ events w, BatchRan ctx payload group normalized v events w ∧
      Ends (batch_records ctx payload) v
        (.ok (json ((batch_transaction ctx payload group normalized).summary
          (batch_base ctx payload v).toWorld).to_json)) (w.queued events) events := by
  have hgroup : (batch_base ctx payload v).groups.has group.id = true :=
    Table.has_iff.mpr ⟨group, h.group_in_base, rfl⟩
  have hbaseKey : (batch_base ctx payload v).keys.has ctx.key.id = true := by
    rw [batch_base_keys]
    exact hkey
  -- The group and the key are there, so that no constraint can fail in the transaction.
  obtain ⟨⟨summary, events⟩, w', hrun⟩ := BatchTxn.run_total
    (t := batch_transaction ctx payload group normalized) (batch_base ctx payload v).wf hgroup
    hbaseKey
  obtain ⟨hsummary, hevents⟩ := BatchTxn.run_report (batch_base ctx payload v).wf h.seen_nodup hrun
  have heffect := BatchTxn.run_effect (batch_base ctx payload v).wf h.seen_nodup hrun
  have hafter : ((batch_base ctx payload v).after (.batch_txn
      (batch_transaction ctx payload group normalized))).toWorld = w' := Stmt.after_of_ok hrun
  have hs : summary = (batch_transaction ctx payload group normalized).summary
      (batch_base ctx payload v).toWorld := hsummary
  subst hs
  refine ⟨events, (batch_base ctx payload v).after (.batch_txn
    (batch_transaction ctx payload group normalized)), ⟨?_, hevents, ?_⟩, ?_⟩
  · rw [hafter]
    exact hrun
  · rw [hafter]
    exact heffect
  · have hentries : Ends (Prog.ofExcept (normalize_entries ctx.env payload.records [])) v
        (.ok normalized) v [] := by
      rw [h.entries]
      exact Prog.Ends.ofExcept _
    have haddresses : Ends (Prog.ofExcept (if group.group_type ≠ "whitelist" then
        guard_batch_addresses ctx.env normalized else .ok ())) (batch_base ctx payload v) (.ok ())
        (batch_base ctx payload v) [] := by
      by_cases htype : group.group_type ≠ "whitelist"
      · rw [if_pos htype, h.addresses htype]
        exact Prog.Ends.ofExcept _
      · rw [if_neg htype]
        exact Prog.Ends.ofExcept _
    have htxn := exec_hands (v := batch_base ctx payload v) (l := .batch_txn
      (batch_transaction ctx payload group normalized)) hrun
    have hrest := answer_ends events (json ((batch_transaction ctx payload group
      normalized).summary (batch_base ctx payload v).toWorld).to_json)
        ((batch_base ctx payload v).after (.batch_txn
          (batch_transaction ctx payload group normalized)))
    have hheard : ([] : List WebhookEvent) ++ ([] ++ ([] ++ ([] ++ ([] ++ events)))) = events := by
      simp only [List.nil_append]
    unfold batch_records
    rw [← hheard]
    refine (Prog.Ends.require h.length).bind (hentries.bind ((batch_group_ends h.target).bind
      (haddresses.bind ?_)))
    exact htxn.bind hrest

/-- **A batch that is carried out was admitted.** -/
theorem admitted_of_ends {r : Response} {v' : Vault} {events : List WebhookEvent}
    (h : Ends (batch_records ctx payload) v (.ok r) v' events) :
    ∃ group normalized, BatchAdmitted ctx payload v.toWorld group normalized :=
  (batch_records_obeys payload).run.1 r v' h.run

end Batch

/-! ## Requests -/

namespace Service

variable {S : Service} {req : Request} {v : Vault}

/-- The events a request hands to the queue. -/
def handed (S : Service) (req : Request) (v : Vault) : List WebhookEvent :=
  ((S.serve req).issued database v).filterMap Stmt.event

theorem serve_ends {key : ApiKey} (hkey : v.keys.find? req.key_id = some key)
    {r : Except AppError Response} {v' : Vault} {events : List WebhookEvent}
    (h : Ends (req.call.handler (S.ctx req key)) v r v' events) :
    Ends (S.serve req) v r v' events := by
  have hread := select_ends (v := v) (.key_by_id req.key_id)
  have heval : (Query.key_by_id req.key_id).eval v.toWorld = some key := hkey
  rw [heval] at hread
  have hheard : ([] : List WebhookEvent) ++ ([] ++ events) = events := rfl
  unfold serve
  rw [← hheard]
  exact hread.bind ((Prog.Ends.okOr_some key).bind h)

theorem handle_of_ends {r : Response} {v' : Vault} {events : List WebhookEvent}
    (h : Ends (S.serve req) v (.ok r) v' events) :
    S.handle req v = (r, v') ∧ S.handed req v = events := by
  refine ⟨?_, h.issued⟩
  unfold handle
  rw [h.run]

/-- **A batch request that is carried out**: who made it, what was admitted, and how it ran. -/
theorem batch_carried_out {payload : BatchRecordsPayload} (hcall : req.call = .batch_records payload)
    (h : S.Succeeds req v) :
    ∃ key group normalized w, v.keys.find? req.key_id = some key ∧
      BatchAdmitted (S.ctx req key) payload v.toWorld group normalized ∧
      BatchRan (S.ctx req key) payload group normalized v (S.handed req v) w ∧
      S.handle req v = (json ((batch_transaction (S.ctx req key) payload group normalized).summary
        (batch_base (S.ctx req key) payload v).toWorld).to_json, w.queued (S.handed req v)) := by
  have hends := Prog.Ends.total database Stmt.event (S.serve req) v
  obtain ⟨r, hr⟩ : ∃ r, ((S.serve req).run database v).1 = .ok r := by
    unfold Succeeds at h
    cases hrun : ((S.serve req).run database v).1 with
    | ok r => exact ⟨r, rfl⟩
    | error e =>
        rw [hrun] at h
        cases h
  rw [hr] at hends
  cases hkey : v.keys.find? req.key_id with
  | none =>
      have hread := select_ends (v := v) (.key_by_id req.key_id)
      have heval : (Query.key_by_id req.key_id).eval v.toWorld = none := hkey
      rw [heval] at hread
      have hfails : Ends (S.serve req) v (.error (.Unauthorized "Invalid API Key")) v
          ([] ++ []) := hread.bind (Prog.Ends.bind_error (Prog.Ends.okOr_none _))
      have hsame := (hends.unique hfails).1
      cases hsame
  | some key =>
      obtain ⟨hmem, hid⟩ := Table.find?_eq_some.mp hkey
      have hbody := Prog.Ends.total database Stmt.event (batch_records (S.ctx req key) payload) v
      have hserve := serve_ends (S := S) hkey (by rw [hcall]; exact hbody)
      have hok := (hends.unique hserve).1
      rw [← hok] at hbody
      obtain ⟨group, normalized, hadmitted⟩ := admitted_of_ends hbody
      have hhas : v.keys.has (S.ctx req key).key.id = true := Table.has_iff.mpr ⟨key, hmem, rfl⟩
      obtain ⟨events, w, hran, hended⟩ := batch_ends hadmitted hhas
      have hall := handle_of_ends (serve_ends (S := S) hkey (by rw [hcall]; exact hended))
      refine ⟨key, group, normalized, w, rfl, hadmitted, ?_, ?_⟩
      · rw [hall.2]
        exact hran
      · rw [hall.1, hall.2]

/-- **An admitted batch is written**: a record that it names becomes what the entry says, unless it is
locked. -/
theorem named_record_changed {payload : BatchRecordsPayload} {key : ApiKey} {group : IpGroup}
    {normalized : List (String × BatchRecordInput)} (hkey : v.keys.find? req.key_id = some key)
    (hcall : req.call = .batch_records payload)
    (hadmitted : BatchAdmitted (S.ctx req key) payload v.toWorld group normalized)
    {e : String × BatchRecordInput} (he : e ∈ normalized) {r : IpRecord} (hr : r ∈ v.records)
    (hadr : r.target_address = e.1) (hlock : r.is_locked = false) :
    ((batch_transaction (S.ctx req key) payload group normalized).change e.2 r).apply r ∈
      (S.handle req v).2.records := by
  have hhas : v.keys.has (S.ctx req key).key.id = true :=
    Table.has_iff.mpr ⟨key, (Table.find?_eq_some.mp hkey).1, rfl⟩
  obtain ⟨events, w, hran, hended⟩ := batch_ends hadmitted hhas
  have hall := handle_of_ends (serve_ends (S := S) hkey (by rw [hcall]; exact hended))
  have hbase : r ∈ (batch_base (S.ctx req key) payload v).records := by
    rw [(batch_base_records (S.ctx req key) payload v).1]
    exact hr
  have hrow := hran.effect.row r hbase
  rw [BatchTxn.outcome_of_mem hadmitted.seen_nodup he hadr hlock] at hrow
  rw [hall.1, Vault.queued_toWorld]
  exact hrow

end Service

end IpVault
