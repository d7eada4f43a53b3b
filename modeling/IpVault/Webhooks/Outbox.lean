import IpVault.Access.Footprint
import IpVault.Records.BatchRun

set_option autoImplicit false

/-! # Who has webhooks told of what

Four handlers put events into the queue. Each event is about a group the caller may write to or delete
from, or one that it may create and that was not there. So nobody has the webhooks of a group told of
anything without a right of its own in the group.
-/

namespace IpVault

open Lib

/-- **The caller may have the group told**: as the master, by its row on the group, or because it makes
the group. -/
def MayTell (ctx : Ctx) (start : World) (g : IpGroup) : Prop :=
  ctx.key.is_master = true ∨
    (∃ p, start.permission ctx.key.id g.id = some p ∧ (p.can_write = true ∨ p.can_delete = true)) ∨
    (start.group_named g.name = none ∧ ctx.key.can_create_groups = true)

/-- The event is about a group the caller may have told. -/
def Entitled (ctx : Ctx) (start : World) (e : WebhookEvent) : Prop :=
  ∃ g : IpGroup, e.group_id = some g.id ∧ e.group_name = some g.name ∧ MayTell ctx start g

/-- The events that a statement hands to the queue are as `P` says. -/
def Stmt.Hands (P : WebhookEvent → Prop) (l : Stmt) : Prop := ∀ e, l.event = some e → P e

theorem hands_of_quiet {P : WebhookEvent → Prop} {l : Stmt} (h : l.event = none) : l.Hands P := by
  intro e he
  cases h.symm.trans he

/-- The statements of a handler hand over nothing but what the caller may have told. -/
abbrev Tells {α : Type} (ctx : Ctx) (start : World) (p : Handler α) (v : Vault)
    (Q : α → Vault → Prop) : Prop :=
  Admits (fun l _ => l.Hands (Entitled ctx start)) p v Q

section Rules

variable {ctx : Ctx} {start v : Vault} {w : World} {α : Type}

theorem hands_query {P : WebhookEvent → Prop} (q : Query) : (Stmt.query q).Hands P :=
  hands_of_quiet rfl

/-- What is known of a part that hands over nothing. -/
theorem tells_of_quiet {s : Vault} {p : Handler α} {Q : α → Vault → Prop}
    (hquiet : p.Issues fun l : Stmt => l.event = none) (h : ∀ call, Obeys ctx call s p v Q) :
    Tells ctx w p v Q :=
  (Prog.Meets.and (h (.rejected .NotFound)) (hquiet.meets v)).mono (fun _ _ hl => hands_of_quiet hl.2)
    (fun _ _ hq => hq.1) fun _ _ _ => trivial

theorem quiet_reads {p : Handler α} (h : OnlyReads p) : p.Issues fun l : Stmt => l.event = none :=
  Prog.Issues.mono h fun _ ⟨_, hq⟩ => hq ▸ rfl

theorem quiet_exec {l : Stmt} (h : l.event = none) : (exec l).Issues fun l : Stmt => l.event = none :=
  .bind (.op h) fun _ => .ofExcept _

theorem tells_exec {l : Stmt} (h : l.event = none) :
    Tells ctx w (exec l) v fun a v' => v' = v.after l ∧ ∃ w, l.txn v.toWorld = .ok (a, w) :=
  Admits.exec (hands_of_quiet h)

/-- An event. -/
theorem tells_enqueue {e : WebhookEvent} (h : Entitled ctx w e) :
    Tells ctx w (exec (.enqueue e)) v fun _ _ => True := by
  refine (Admits.exec (l := .enqueue e) fun e' he' => ?_).imp fun _ _ _ => trivial
  obtain rfl := Option.some.inj he'
  exact h

theorem get_or_create_group_silent (name default_group_type : String) (owner : Option Uuid) :
    (get_or_create_group ctx name default_group_type owner).Issues fun l : Stmt => l.event = none :=
  .bind (quiet_exec rfl) fun _ => .bind (quiet_reads (.select _)) fun _ => .okOr _ _

/-- A guard that asks for a right, passed. -/
theorem mayTell_of_guard {check : Option GroupPermission → Except AppError Unit} {g : IpGroup}
    (hcheck : ∀ perm, check perm = .ok () →
      ∃ p, perm = some p ∧ (p.can_write = true ∨ p.can_delete = true))
    (h : ctx.key.is_master = true ∨ check (w.permission ctx.key.id g.id) = .ok ()) :
    MayTell ctx w g := by
  rcases h with hm | hguard
  · exact .inl hm
  · exact .inr (.inl (hcheck _ hguard))

theorem writes_of_guard {perm : Option GroupPermission} (h : guard_can_write perm = .ok ()) :
    ∃ p, perm = some p ∧ (p.can_write = true ∨ p.can_delete = true) := by
  unfold guard_can_write at h
  split at h
  · cases h
  · rename_i p
    split at h
    · rename_i hwrite
      exact ⟨p, rfl, .inl hwrite⟩
    · cases h

theorem deletes_of_guard {perm : Option GroupPermission} (h : guard_can_delete perm = .ok ()) :
    ∃ p, perm = some p ∧ (p.can_write = true ∨ p.can_delete = true) := by
  unfold guard_can_delete at h
  split at h
  · cases h
  · rename_i p
    split at h
    · rename_i hdelete
      exact ⟨p, rfl, .inr hdelete⟩
    · cases h

theorem writes_of_batch_guard {mode : BatchMode} {perm : Option GroupPermission}
    (h : guard_batch mode perm = .ok ()) :
    ∃ p, perm = some p ∧ (p.can_write = true ∨ p.can_delete = true) := by
  obtain ⟨⟨⟩, hwrite, -⟩ := except_bind_ok.mp h
  exact writes_of_guard hwrite

end Rules

section Handlers

variable {ctx : Ctx} {v : Vault}

theorem upsert_new_group_tells {is_whitelist : Bool} {name : String} (hn : v.group_named name = none) :
    Tells ctx v.toWorld (upsert_new_group ctx is_whitelist name) v fun g _ =>
      MayTell ctx v.toWorld g := by
  refine Admits.require.bind fun _ _ ⟨rfl, hcreate⟩ => ?_
  refine (tells_of_quiet (s := v) (get_or_create_group_silent _ _ _) fun _ =>
    get_or_create_group_obeys hcreate).bind fun g w ⟨_, hg⟩ => ?_
  have hmay : MayTell ctx v.toWorld g := by
    have hname : g.name = name := (World.mem_of_group_named hg).2
    rcases hcreate with hm | hc
    · exact .inl hm
    · exact .inr (.inr ⟨hname ▸ hn, hc⟩)
  have hprovision : Tells ctx v.toWorld (provision_caller ctx g.id) w fun _ _ => True := by
    unfold provision_caller
    split
    · trivial
    · exact (tells_exec rfl).imp fun _ _ _ => trivial
  exact hprovision.bind fun _ _ _ => hmay

theorem upsert_group_tells (payload : BanWhitePayload) (is_whitelist : Bool) :
    Tells ctx v.toWorld (upsert_group ctx payload is_whitelist) v fun g _ =>
      MayTell ctx v.toWorld g := by
  refine (tells_of_quiet (s := v) (quiet_reads (resolve_group_ref_only_reads _ _)) fun _ =>
    resolve_group_ref_obeys _ _).bind fun found _ ⟨rfl, hfound, hone⟩ => ?_
  split
  · refine (tells_of_quiet (s := v) (quiet_reads (upsert_guard_only_reads _)) fun _ =>
      row_guard_obeys guard_can_write _).bind fun _ _ ⟨rfl, hmay⟩ => ?_
    refine Admits.ofExcept.bind fun _ _ ⟨rfl, _⟩ => ?_
    exact mayTell_of_guard (fun _ => writes_of_guard) hmay
  · rename_i name hname _
    have hid : payload.group_id = none := hone.resolve_left (by simp [hname])
    rw [hname, hid] at hfound
    exact upsert_new_group_tells hfound.symm
  · trivial

theorem handle_ip_upsert_tells (payload : BanWhitePayload) (is_whitelist : Bool) :
    Tells ctx v.toWorld (handle_ip_upsert ctx payload is_whitelist) v fun _ _ => True := by
  refine Admits.okOr.bind fun network _ ⟨rfl, _⟩ => ?_
  refine Admits.ofExcept.bind fun _ _ ⟨rfl, _⟩ => ?_
  refine (upsert_group_tells payload is_whitelist).bind fun g w hmay => ?_
  refine (tells_exec rfl).bind fun action w₁ _ => ?_
  exact (tells_enqueue ⟨g, rfl, rfl, hmay⟩).bind fun _ _ _ => trivial

theorem delete_ip_tells (query_params : DeleteIpQuery) (body : OptionalBody DeleteIpQuery) :
    Tells ctx v.toWorld (delete_ip ctx query_params body) v fun _ _ => True := by
  refine Admits.ofExcept.bind fun body_params _ ⟨rfl, _⟩ => ?_
  refine Admits.okOr.bind fun target_address _ ⟨rfl, _⟩ => ?_
  refine (tells_of_quiet (s := v) (quiet_reads (resolve_group_ref_only_reads _ _)) fun _ =>
    resolve_group_ref_obeys _ _).bind fun found _ ⟨rfl, _, _⟩ => ?_
  refine Admits.okOr.bind fun group _ ⟨rfl, _⟩ => ?_
  refine (tells_of_quiet (s := v) (quiet_reads (delete_ip_guard_only_reads _)) fun _ =>
    delete_ip_guard_obeys group.id).bind fun _ _ ⟨rfl, hmay⟩ => ?_
  refine (tells_exec rfl).bind fun record _ _ => ?_
  have htell := mayTell_of_guard (fun _ => deletes_of_guard) hmay
  exact (tells_enqueue ⟨group, rfl, rfl, htell⟩).bind fun _ _ _ => trivial

/-- The events of a batch are about its group. -/
theorem group_of_push {t : BatchTxn} {action address : String} {cause : Option String}
    {e : WebhookEvent} (h : e ∈ t.push action address cause []) :
    e.group_id = some t.group.id ∧ e.group_name = some t.group.name := by
  unfold BatchTxn.push at h
  split at h
  · exact absurd h List.not_mem_nil
  · obtain rfl := List.mem_singleton.mp h
    exact ⟨rfl, rfl⟩

theorem group_of_events {t : BatchTxn} {w : World} {e : WebhookEvent} (h : e ∈ t.events w) :
    e.group_id = some t.group.id ∧ e.group_name = some t.group.name := by
  rcases List.mem_append.mp h with h | h
  · obtain ⟨entry, -, hentry⟩ := List.mem_flatMap.mp h
    unfold BatchTxn.entry_events at hentry
    split at hentry
    · exact absurd hentry List.not_mem_nil
    · exact group_of_push hentry
  · obtain ⟨r, -, hr⟩ := List.mem_flatMap.mp h
    exact group_of_push hr

theorem enqueue_all_tells {w : World} {events : List WebhookEvent}
    (h : ∀ e ∈ events, Entitled ctx w e) : Tells ctx w (enqueue_all events) v fun _ _ => True := by
  induction events generalizing v with
  | nil => trivial
  | cons e es ih =>
      refine (tells_enqueue (h e List.mem_cons_self)).bind fun _ _ _ => ?_
      exact ih fun e he => h e (List.mem_cons_of_mem _ he)

theorem batch_group_silent (payload : BatchRecordsPayload) :
    (batch_group ctx payload).Issues fun l : Stmt => l.event = none := by
  refine .bind (quiet_reads (.select _)) fun existing => ?_
  split
  · exact .bind (quiet_reads (row_guard_only_reads _ _)) fun _ => trivial
  · exact .bind (.require _ _) fun _ => get_or_create_group_silent _ _ _

theorem batch_group_tells (payload : BatchRecordsPayload) :
    Tells ctx v.toWorld (batch_group ctx payload) v fun g _ => MayTell ctx v.toWorld g := by
  refine (tells_of_quiet (s := v) (batch_group_silent payload) fun _ =>
    batch_group_obeys payload).imp fun g w ⟨_, _, _, hgroup⟩ => ?_
  rcases hgroup with ⟨-, hmay⟩ | ⟨hn, hm | hc, rfl⟩
  · exact mayTell_of_guard (fun _ => writes_of_batch_guard) hmay
  · exact .inl hm
  · exact .inr (.inr ⟨hn, hc⟩)

theorem batch_records_tells (payload : BatchRecordsPayload) :
    Tells ctx v.toWorld (batch_records ctx payload) v fun _ _ => True := by
  refine Admits.require.bind fun _ _ ⟨rfl, _⟩ => ?_
  refine Admits.ofExcept.bind fun normalized _ ⟨rfl, hnormalized⟩ => ?_
  refine (batch_group_tells payload).bind fun group w hmay => ?_
  refine Admits.ofExcept.bind fun _ _ ⟨rfl, _⟩ => ?_
  refine (tells_exec rfl).bind fun st w' ⟨_, w'', hrun⟩ => ?_
  have hnodup : (batch_transaction ctx payload group normalized).seen.Nodup :=
    (normalize_entries_ok hnormalized (by simp)).2
  obtain ⟨-, hevents⟩ := BatchTxn.run_report w.wf hnodup hrun
  refine (enqueue_all_tells fun e he => ?_).bind fun _ _ _ => trivial
  obtain ⟨hid, hname⟩ := group_of_events (hevents.mem_iff.mp he)
  exact ⟨group, hid, hname, hmay⟩

/-- The endpoints that put events into the queue. -/
def Call.announces : Call → Bool
  | .handle_ban _ | .handle_white _ | .batch_records _ | .delete_ip _ _ => true
  | _ => false

theorem quiet_of_footprint {call : Call} {l : Stmt} (hcall : call.announces = false)
    (hl : call.footprint l = true) : l.event = none := by
  cases l with
  | enqueue e => cases call <;> first | (cases hl; done) | cases hcall
  | _ => rfl

/-- **Every endpoint** hands over nothing but what its caller may have told. -/
theorem Call.tells (call : Call) : Tells ctx v.toWorld (call.handler ctx) v fun _ _ => True := by
  by_cases hcall : call.announces = false
  · exact Admits.of_issues (Prog.Issues.mono call.within fun l hl _ =>
      hands_of_quiet (quiet_of_footprint hcall hl))
  · cases call with
    | handle_ban payload => exact handle_ip_upsert_tells payload false
    | handle_white payload => exact handle_ip_upsert_tells payload true
    | batch_records payload => exact batch_records_tells payload
    | delete_ip query_params body => exact delete_ip_tells query_params body
    | _ => exact absurd rfl hcall

end Handlers

/-! ## The queue -/

/-- A statement that hands over nothing leaves the queue as it is. -/
theorem queue_after_quiet {l : Stmt} (h : l.event = none) (w : World) : (l.after w).queue = w.queue := by
  refine Stmt.after_of_keeps (R := fun w w' => w'.queue = w.queue) (fun w a w' ht => ?_)
    (fun _ => rfl) w
  cases l with
  | enqueue e => cases h
  | upsert_txn t => exact (t.only_records w a w' ht).queue
  | delete_ip_txn t => exact (t.only_records w a w' ht).queue
  | batch_txn t => exact (t.only_records w a w' ht).queue
  | _ =>
      simp only [Stmt.txn, Txn.read, Txn.insert_key, Txn.update_key, Txn.delete_keys,
        Txn.insert_permission, Txn.insert_permission_or_ignore, Txn.upsert_permission,
        Txn.delete_permission, Txn.insert_group, Txn.insert_group_or_ignore,
        Txn.set_group_owner, Txn.delete_group, Txn.update_record, Txn.delete_record, Txn.purge,
        Txn.delete_records_where, Txn.insert_webhook, Txn.update_webhook, Txn.set_webhook_owner,
        Txn.delete_webhook, Txn.insert_execution, Txn.delete_execution, Txn.insert_audit,
        Txn.db_error] at ht
      repeat' split at ht
      all_goals first | cases ht; done | skip
      all_goals
        cases ht
        rfl

/-- The queue is what it was, with events of the kind `P` behind. -/
def Queued (P : WebhookEvent → Prop) (v v' : Vault) : Prop :=
  ∃ sent, v'.queue = v.queue ++ sent ∧ ∀ e ∈ sent, P e

theorem Queued.refl (P : WebhookEvent → Prop) (v : Vault) : Queued P v v :=
  ⟨[], (List.append_nil _).symm, fun _ he => absurd he List.not_mem_nil⟩

/-- One statement. -/
theorem Queued.after {P : WebhookEvent → Prop} {v v' : Vault} (h : Queued P v v') {l : Stmt}
    (hl : l.Hands P) : Queued P v (v'.after l) := by
  obtain ⟨sent, hqueue, hsent⟩ := h
  cases hevent : l.event with
  | none => exact ⟨sent, (queue_after_quiet hevent v'.toWorld).trans hqueue, hsent⟩
  | some e =>
      obtain rfl : l = .enqueue e := by
        cases l with
        | enqueue e' => exact congrArg Stmt.enqueue (Option.some.inj hevent)
        | _ => cases hevent
      have hafter : (v'.after (.enqueue e)).queue =
          if v'.queue.length < v'.queue_capacity then v'.queue ++ [e] else v'.queue := by
        show (if v'.queue.length < v'.queue_capacity then
          { v'.toWorld with queue := v'.queue ++ [e] } else v'.toWorld : World).queue = _
        split <;> rfl
      unfold Queued
      rw [hafter]
      split
      · refine ⟨sent ++ [e], ?_, fun e' he' => ?_⟩
        · rw [hqueue, List.append_assoc]
        · rcases List.mem_append.mp he' with he' | he'
          · exact hsent e' he'
          · rw [List.mem_singleton.mp he']
            exact hl e rfl
      · exact ⟨sent, hqueue, hsent⟩

/-- What each statement of a request keeps, the request keeps. -/
theorem Service.handle_meets {S : Service} {req : Request} {v : Vault} {G : Stmt → Vault → Prop}
    {Q : Response → Vault → Prop} {E : AppError → Vault → Prop} {I : Vault → Prop}
    (h : Prog.Meets database G Q E (S.serve req) v) (hv : I v)
    (hstep : ∀ l w, G l w → I w → I (w.after l)) : I (S.handle req v).2 := by
  have hkeeps := h.keeps hv hstep
  unfold Service.handle
  generalize (S.serve req).run database v = r at hkeeps ⊢
  obtain ⟨_ | _, w⟩ := r <;> exact hkeeps

/-- **A request puts into the queue only what its caller may have told.** -/
theorem Service.handle_queues {S : Service} {req : Request} {v : Vault} {key : ApiKey}
    (hkey : v.keys.find? req.key_id = some key) :
    Queued (Entitled (S.ctx req key) v.toWorld) v (S.handle req v).2 :=
  Service.handle_meets (S.serve_of_key hkey (hands_query _) req.call.tells) (Queued.refl _ v)
    fun _ _ hl hw => Queued.after hw hl

end IpVault
