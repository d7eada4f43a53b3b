import IpVault.Schema.Integrity

set_option autoImplicit false

/-! # The transactions of the record endpoints

`handle_ip_upsert`, `delete_ip` and `batch_records` each do their writes in one transaction,
opened `Immediate`, so that no other writer comes between its reads and its writes. A structure
holds the variables the transaction captures from its handler, and its `run` is the body.
-/

namespace IpVault

open Lib

/-- Who a request acts as: the authenticated key and the resolved client address. -/
structure Caller where
  key : ApiKey
  client_ip : String

/-- `create_audit_log`: the row it inserts. -/
def audit_row (caller : Caller) (now : Int) (action : String)
    (target_address group_names details : Option String) : AuditLog where
  api_key_id := some caller.key.id
  api_key_name := caller.key.name
  api_key_prefix := caller.key.key_prefix
  client_ip := caller.client_ip
  action := action
  target_address := target_address
  group_names := group_names
  details := details
  timestamp := now

/-! ## Ban and whitelist -/

/-- What the transaction of `handle_ip_upsert` captures. -/
structure UpsertTxn where
  caller : Caller
  now : Int
  normalized_address : String
  cause : Option String
  target_group_id : Uuid
  resolved_group_name : String
  is_whitelist : Bool

/-- The update it makes to a record that exists: brought up to date, and brought back if it was
soft-deleted. -/
def UpsertTxn.change (t : UpsertTxn) (record : IpRecord) : Txn.RecordChange where
  updated_at := t.now
  last_seen_at := some t.now
  cause := t.cause
  tombstone := if record.is_deleted then .clear else .keep

/-- The record it inserts. -/
def UpsertTxn.fresh_record (t : UpsertTxn) : IpRecord where
  id := 0
  target_address := t.normalized_address
  cause := t.cause
  is_locked := false
  created_at := t.now
  updated_at := t.now
  last_seen_at := t.now
  is_deleted := false
  deleted_at := none
  deleted_by := none

/-- The record of the address. The retry after a unique violation is not modelled here: within
one transaction no other insert can come in between. -/
def UpsertTxn.record_id (t : UpsertTxn) : Txn Uuid := do
  match ← Txn.read (·.record_at t.normalized_address) with
  | some record =>
      if record.is_locked then
        Txn.refuse (.Forbidden "This IP is protected and cannot be modified")
      else do
        let updated ← Txn.update_record record.id (t.change record)
        pure updated.id
  | none => Txn.insert_record t.fresh_record

/-- The transaction of `handle_ip_upsert`: the action it performed. -/
def UpsertTxn.run (t : UpsertTxn) : Txn String := do
  let record_id ← t.record_id
  let mem_result ← Txn.link record_id t.target_group_id
  let action := if mem_result > 0 then "IP_ADD" else "IP_UPDATE"
  Txn.insert_audit (audit_row t.caller t.now action (some t.normalized_address)
    (some t.resolved_group_name) (some s!"Added IP to group. Whitelist: {t.is_whitelist}"))
  pure action

/-! ## Removal from one group -/

/-- What the transaction of `delete_ip` captures. -/
structure DeleteIpTxn where
  caller : Caller
  now : Int
  target_address : String
  group_id : Uuid
  group_name : String

/-- The transaction of `delete_ip`: the record whose membership it removed. -/
def DeleteIpTxn.run (t : DeleteIpTxn) : Txn IpRecord := do
  match ← Txn.read (·.record_at t.target_address) with
  | none => Txn.refuse .NotFound
  | some record =>
      if record.is_locked then
        Txn.refuse (.Forbidden "Protected records cannot be deleted")
      else do
        let rows_affected ← Txn.unlink record.id t.group_id
        if rows_affected = 0 then
          Txn.refuse .NotFound
        else do
          Txn.insert_audit (audit_row t.caller t.now "IP_DELETE" (some t.target_address)
            (some t.group_name) none)
          pure record

/-! ## Batches -/

/-- `BatchMode`. -/
inductive BatchMode where
  | Upsert
  | FullReplace
  deriving DecidableEq

/-- `BatchRecordInput`: one entry of a batch. -/
structure BatchRecordInput where
  target_address : String
  cause : Option String := none
  is_deleted : Option Bool := none
  created_at : Option Int := none
  updated_at : Option Int := none
  last_seen_at : Option Int := none
  deleted_at : Option Int := none
  deriving DecidableEq

/-- `BatchRecordsResponse`: what a batch did. -/
structure BatchRecordsResponse where
  created : Nat := 0
  updated : Nat := 0
  restored : Nat := 0
  locked_skipped : Nat := 0
  soft_deleted : Nat := 0
  linked : Nat := 0
  deriving DecidableEq

/-- What the transaction of `batch_records` captures. `normalized` pairs each entry with its
canonical address. -/
structure BatchTxn where
  caller : Caller
  now : Int
  group : IpGroup
  mode : BatchMode
  normalized : List (String × BatchRecordInput)
  skip_webhooks : Bool

/-- The summary and the buffered events, as the loop of `batch_records` carries them. -/
abbrev BatchState := BatchRecordsResponse × List WebhookEvent

namespace BatchTxn

/-- An event about the group of the batch, unless the batch asked for none. -/
def push (t : BatchTxn) (action address : String) (cause : Option String)
    (events : List WebhookEvent) : List WebhookEvent :=
  if t.skip_webhooks then events
  else events ++ [
    { action
      address
      is_whitelist := t.group.group_type == "whitelist"
      group_id := some t.group.id
      group_name := some t.group.name
      cause }]

/-- What one entry does to the deletion columns of a record that exists. -/
def tombstone (t : BatchTxn) (input : BatchRecordInput) (record : IpRecord) : Txn.Tombstone :=
  match input.is_deleted with
  | some true => .bury (input.deleted_at.getD t.now) (Uuid.to_string t.caller.key.id)
  | _ => if record.is_deleted then .clear else .keep

/-- The update one entry makes to a record that exists. -/
def change (t : BatchTxn) (input : BatchRecordInput) (record : IpRecord) : Txn.RecordChange where
  updated_at := input.updated_at.getD t.now
  last_seen_at := some (input.last_seen_at.getD t.now)
  cause := input.cause
  tombstone := t.tombstone input record

/-- The record one entry inserts. -/
def fresh_record (t : BatchTxn) (address : String) (input : BatchRecordInput) : IpRecord :=
  let deleted := input.is_deleted.getD false
  { id := 0
    target_address := address
    cause := input.cause
    is_locked := false
    created_at := input.created_at.getD t.now
    updated_at := input.updated_at.getD t.now
    last_seen_at := input.last_seen_at.getD t.now
    is_deleted := deleted
    deleted_at := if deleted then some (input.deleted_at.getD t.now) else none
    deleted_by := if deleted then some (Uuid.to_string t.caller.key.id) else none }

/-- The end of the loop body: the record joins the group and the event is buffered. -/
def join (t : BatchTxn) (address : String) (input : BatchRecordInput) (record_id : Uuid)
    (summary : BatchRecordsResponse) (events : List WebhookEvent) : Txn BatchState := do
  let linked ← Txn.link record_id t.group.id
  let action := if linked > 0 then "IP_ADD" else "IP_UPDATE"
  pure ({ summary with linked := summary.linked + linked },
    t.push action address input.cause events)

/-- The loop body of `batch_records`. A locked record is skipped. -/
def entry (t : BatchTxn) (st : BatchState) (e : String × BatchRecordInput) : Txn BatchState := do
  let (summary, events) := st
  let (address, input) := e
  match ← Txn.read (·.record_at address) with
  | some record =>
      if record.is_locked then
        pure ({ summary with locked_skipped := summary.locked_skipped + 1 }, events)
      else do
        let _ ← Txn.update_record record.id (t.change input record)
        let restored := if input.is_deleted ≠ some true ∧ record.is_deleted then 1 else 0
        t.join address input record.id
          { summary with
            restored := summary.restored + restored
            updated := summary.updated + 1 } events
  | none =>
      let id ← Txn.insert_record (t.fresh_record address input)
      t.join address input id { summary with created := summary.created + 1 } events

/-- The loop over the entries. -/
def entries (t : BatchTxn) : List (String × BatchRecordInput) → BatchState → Txn BatchState
  | [], st => pure st
  | e :: es, st => do
      let st ← t.entry st e
      t.entries es st

/-- The addresses of the batch: the `seen` set. -/
def seen (t : BatchTxn) : List String := t.normalized.map Prod.fst

/-- What `full_replace` does to a record the batch omits. -/
def sweep_change (t : BatchTxn) : Txn.RecordChange where
  updated_at := t.now
  tombstone := .bury t.now (Uuid.to_string t.caller.key.id)

/-- The loop of `full_replace` over the live, unlocked members of the group. -/
def sweep (t : BatchTxn) : List IpRecord → BatchState → Txn BatchState
  | [], st => pure st
  | record :: rest, (summary, events) =>
      if t.seen.contains record.target_address then t.sweep rest (summary, events)
      else do
        let _ ← Txn.update_record record.id t.sweep_change
        t.sweep rest
          ({ summary with soft_deleted := summary.soft_deleted + 1 },
            t.push "IP_DELETE" record.target_address
              (some "Removed via batch full_replace synchronisation") events)

/-- The live, unlocked members of a group. -/
def candidates (w : World) (group_id : Uuid) : List IpRecord :=
  w.records.rows.filter fun r =>
    w.memberships.has (r.id, group_id) && !r.is_deleted && !r.is_locked

/-- The details of the audit row of a batch. -/
def details (t : BatchTxn) (summary : BatchRecordsResponse) : String :=
  let mode := match t.mode with
    | .Upsert => "upsert"
    | .FullReplace => "full_replace"
  s!"mode={mode} submitted={t.normalized.length} created={summary.created} " ++
  s!"updated={summary.updated} restored={summary.restored} " ++
  s!"locked_skipped={summary.locked_skipped} soft_deleted={summary.soft_deleted}"

/-- The `full_replace` step; the other mode has none. -/
def replace (t : BatchTxn) (st : BatchState) : Txn BatchState :=
  match t.mode with
  | .Upsert => pure st
  | .FullReplace => do
      let members ← Txn.read (candidates · t.group.id)
      t.sweep members st

/-- The transaction of `batch_records`: the summary and the events to enqueue. -/
def run (t : BatchTxn) : Txn BatchState := do
  let st ← t.entries t.normalized ({}, [])
  let st ← t.replace st
  Txn.insert_audit (audit_row t.caller t.now "batch_records_updated" none (some t.group.name)
    (some (t.details st.1)))
  pure st

end BatchTxn

/-! ## What the transactions keep

Their writes are of five kinds. What each of them keeps, the transactions keep. -/

/-- A relation that the writes inside a record transaction keep, if the records they insert are
`Inserted`. -/
structure RecordWrites (Inserted : IpRecord → Prop) (R : World → World → Prop) : Prop where
  refl : ∀ w, R w w
  trans : ∀ w w' w'', R w w' → R w' w'' → R w w''
  insert_record : ∀ r, Inserted r → Keeps R (Txn.insert_record r)
  update_record : ∀ id c, Keeps R (Txn.update_record id c)
  link : ∀ record_id group_id, Keeps R (Txn.link record_id group_id)
  unlink : ∀ record_id group_id, Keeps R (Txn.unlink record_id group_id)
  insert_audit : ∀ a, Keeps R (Txn.insert_audit a)

namespace RecordWrites

variable {Inserted : IpRecord → Prop} {R : World → World → Prop} (h : RecordWrites Inserted R)
include h

theorem pure {α : Type} (a : α) : Keeps R (Pure.pure a : Txn α) := Keeps.pure h.refl a

theorem bind {α β : Type} {m : Txn α} {f : α → Txn β} (hm : Keeps R m) (hf : ∀ a, Keeps R (f a)) :
    Keeps R (m >>= f) := Keeps.bind h.trans hm hf

omit h in
theorem refuse {α : Type} (e : AppError) : Keeps R (Txn.refuse e : Txn α) :=
  fun _ _ _ heq => by cases heq

theorem read {α : Type} (f : World → α) : Keeps R (Txn.read f) := by
  intro w a w' heq
  cases heq
  exact h.refl w

theorem upsert (t : UpsertTxn) (hfresh : Inserted t.fresh_record) : Keeps R t.run := by
  have hrec : Keeps R t.record_id := by
    refine h.bind (h.read _) fun found => ?_
    cases found with
    | none => exact h.insert_record _ hfresh
    | some record =>
        by_cases hl : record.is_locked = true
        · simp only [hl, if_true]
          exact refuse _
        · simp only [hl]
          exact h.bind (h.update_record _ _) fun _ => h.pure _
  exact h.bind hrec fun _ => h.bind (h.link _ _) fun _ => h.bind (h.insert_audit _) fun _ => h.pure _

theorem delete_ip (t : DeleteIpTxn) : Keeps R t.run := by
  refine h.bind (h.read _) fun found => ?_
  cases found with
  | none => exact refuse _
  | some record =>
      by_cases hl : record.is_locked = true
      · simp only [hl, if_true]
        exact refuse _
      · simp only [hl]
        refine h.bind (h.unlink _ _) fun n => ?_
        by_cases hn : n = 0
        · simp only [hn, if_true]
          exact refuse _
        · simp only [hn, if_false]
          exact h.bind (h.insert_audit _) fun _ => h.pure _

variable (t : BatchTxn)

theorem join (address : String) (input : BatchRecordInput) (record_id : Uuid)
    (summary : BatchRecordsResponse) (events : List WebhookEvent) :
    Keeps R (t.join address input record_id summary events) :=
  h.bind (h.link _ _) fun _ => h.pure _

theorem entry (hfresh : ∀ address input, Inserted (t.fresh_record address input)) (st : BatchState)
    (e : String × BatchRecordInput) : Keeps R (t.entry st e) := by
  refine h.bind (h.read _) fun found => ?_
  cases found with
  | none => exact h.bind (h.insert_record _ (hfresh _ _)) fun _ => h.join t _ _ _ _ _
  | some record =>
      by_cases hl : record.is_locked = true
      · simp only [hl, if_true]
        exact h.pure _
      · simp only [hl]
        exact h.bind (h.update_record _ _) fun _ => h.join t _ _ _ _ _

theorem entries (hfresh : ∀ address input, Inserted (t.fresh_record address input))
    (es : List (String × BatchRecordInput)) (st : BatchState) : Keeps R (t.entries es st) := by
  induction es generalizing st with
  | nil => exact h.pure _
  | cons e es ih => exact h.bind (h.entry t hfresh st e) fun st' => ih st'

theorem sweep (rs : List IpRecord) (st : BatchState) : Keeps R (t.sweep rs st) := by
  induction rs generalizing st with
  | nil => exact h.pure _
  | cons r rs ih =>
      obtain ⟨summary, events⟩ := st
      unfold BatchTxn.sweep
      by_cases hs : t.seen.contains r.target_address = true
      · rw [if_pos hs]
        exact ih _
      · rw [if_neg hs]
        exact h.bind (h.update_record _ _) fun _ => ih _

theorem replace (st : BatchState) : Keeps R (t.replace st) := by
  unfold BatchTxn.replace
  cases t.mode with
  | Upsert => exact h.pure _
  | FullReplace => exact h.bind (h.read _) fun members => h.sweep t members st

theorem batch (hfresh : ∀ address input, Inserted (t.fresh_record address input)) : Keeps R t.run :=
  h.bind (h.entries t hfresh _ _) fun st => h.bind (h.replace t st) fun _ =>
    h.bind (h.insert_audit _) fun _ => h.pure _

end RecordWrites

/-! ## The transactions keep the constraints -/

theorem wf_record_writes : RecordWrites (fun _ => True) (fun w w' => w.Wf → w'.Wf) where
  refl _ hw := hw
  trans _ _ _ h h' hw := h' (h hw)
  insert_record r _ := Txn.wf_insert_record r
  update_record id c := Txn.wf_update_record id c
  link record_id group_id := Txn.wf_link record_id group_id
  unlink record_id group_id := Txn.wf_unlink record_id group_id
  insert_audit a := Txn.wf_insert_audit a

theorem UpsertTxn.wf_run (t : UpsertTxn) : KeepsWf t.run := wf_record_writes.upsert t trivial

theorem DeleteIpTxn.wf_run (t : DeleteIpTxn) : KeepsWf t.run := wf_record_writes.delete_ip t

namespace BatchTxn

theorem wf_entry (t : BatchTxn) (st : BatchState) (e : String × BatchRecordInput) :
    KeepsWf (t.entry st e) :=
  wf_record_writes.entry t (fun _ _ => trivial) st e

theorem wf_run (t : BatchTxn) : KeepsWf t.run := wf_record_writes.batch t fun _ _ => trivial

end BatchTxn

end IpVault
