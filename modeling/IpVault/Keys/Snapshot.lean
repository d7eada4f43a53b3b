import IpVault.Access.Concurrent
import IpVault.Keys.Resolution

set_option autoImplicit false

/-! # What a deletion has read, and what others add meanwhile

`delete_api_key` walks the subtree, lists what its keys own and only then writes, in statements of their
own. The requests that create keys, groups and webhooks add rows in between. This module says what such
requests do to the store (`Grown`), and how far what a deletion has read is still all there is
(`Snapshot`).
-/

namespace IpVault

open Lib

/-! ## What grows -/

namespace World

/-- The key owns the group or the webhook. -/
def owns (w : World) (entity_type : EntityType) (id owner : Uuid) : Prop :=
  match entity_type with
  | .group => ∃ g ∈ w.groups, g.id = id ∧ g.owner_key_id = some owner
  | .webhook => ∃ h ∈ w.webhooks, h.id = id ∧ h.owner_key_id = some owner

/-- The identifier has been drawn, and no key has it. -/
def Gone (w : World) (id : Uuid) : Prop := id < w.next_uuid ∧ w.keys.has id = false

/-- Keys, groups and webhooks have only been added, and none of them for a key that was gone. -/
structure Grown (s t : World) : Prop where
  next_uuid : s.next_uuid ≤ t.next_uuid
  kept : ∀ k ∈ s.keys, k ∈ t.keys
  keys : ∀ k ∈ t.keys, k ∈ s.keys ∨
    (s.next_uuid ≤ k.id ∧ ∀ parent, k.parent_key_id = some parent → ¬ s.Gone parent)
  owned : ∀ entity_type id owner, t.owns entity_type id owner → s.owns entity_type id owner ∨
    (s.next_uuid ≤ id ∧ ¬ s.Gone owner)

namespace Grown

variable {s t u : World}

theorem refl (s : World) : s.Grown s where
  next_uuid := le_rfl
  kept _ hk := hk
  keys _ hk := .inl hk
  owned _ _ _ h := .inl h

/-- Who is gone stays gone. -/
theorem gone (h : s.Grown t) {id : Uuid} (hg : s.Gone id) : t.Gone id := by
  refine ⟨hg.1.trans_le h.next_uuid, Table.has_eq_false.mpr fun k hk hid => ?_⟩
  rcases h.keys k hk with hold | ⟨hnew, -⟩
  · exact Table.has_eq_false.mp hg.2 k hold hid
  · exact absurd hg.1 (Nat.not_lt.mpr (hid ▸ hnew))

theorem trans (h : s.Grown t) (h' : t.Grown u) : s.Grown u where
  next_uuid := h.next_uuid.trans h'.next_uuid
  kept k hk := h'.kept k (h.kept k hk)
  keys k hk := by
    rcases h'.keys k hk with hk | ⟨hnew, hparent⟩
    · exact h.keys k hk
    · exact .inr ⟨h.next_uuid.trans hnew, fun parent hp hg => hparent parent hp (h.gone hg)⟩
  owned entity_type id owner howns := by
    rcases h'.owned entity_type id owner howns with howns | ⟨hnew, howner⟩
    · exact h.owned entity_type id owner howns
    · exact .inr ⟨h.next_uuid.trans hnew, fun hg => howner (h.gone hg)⟩

end Grown

end World

namespace Stmt

/-- The statements of the requests that create: they add rows, or touch records only. -/
def adds : Stmt → Bool
  | query _ | insert_key _ | insert_permission _ | insert_permission_or_ignore _ | insert_group _
  | insert_group_or_ignore _ | insert_webhook _ | insert_audit _ | purge _ | upsert_txn _
  | batch_txn _ | enqueue _ => true
  | _ => false

/-- The key that the row a statement adds has as its parent or its owner. -/
def named_key : Stmt → World → Option Uuid
  | insert_key k, _ => k.parent_key_id
  | insert_group g, w | insert_group_or_ignore g, w =>
      if w.group_named g.name = none then g.owner_key_id else none
  | insert_webhook h, _ => h.owner_key_id
  | _, _ => none

/-- A group that a statement adds has a name nobody had. -/
theorem group_name_free {l : Stmt} {w : World} {g₀ : IpGroup}
    (hl : l = insert_group g₀ ∨ l = insert_group_or_ignore g₀) {g : IpGroup}
    (hg : g ∈ (l.after w).groups) (hnew : g ∉ w.groups) : w.group_named g₀.name = none := by
  by_contra hname
  have hsome : (w.group_named g₀.name).isSome = true := Option.isSome_iff_ne_none.mpr hname
  have hsame : l.after w = w := by
    rcases hl with rfl | rfl
    · unfold after
      simp only [txn, Txn.insert_group, hsome, if_true, Txn.db_error]
    · unfold after
      simp only [txn, Txn.insert_group_or_ignore, hsome, if_true]
  rw [hsame] at hg
  exact hnew hg

/-- **What a creating request does**, as long as the key it names is in the table. -/
theorem grown {l : Stmt} {w : World} (hadds : l.adds = true)
    (hlive : ∀ key, l.named_key w = some key → w.keys.has key = true) : w.Grown (l.after w) where
  next_uuid := (l.frame w).next_uuid
  kept k hk := by
    rcases keys_kept (l := l) hk with hk | ⟨ids, rfl, -⟩ | ⟨c, rfl, -⟩
    · exact hk
    · cases hadds
    · cases hadds
  keys k hk := by
    rcases mem_keys_after hk with hk | ⟨k₀, rfl, rfl⟩ | ⟨id, c, k₀, rfl, -⟩
    · exact .inl hk
    · refine .inr ⟨le_rfl, fun parent hp hgone => ?_⟩
      have hhas := hlive parent hp
      rw [hgone.2] at hhas
      cases hhas
    · cases hadds
  owned entity_type id owner howns := by
    have live : ∀ key, l.named_key w = some key → ¬ w.Gone key := fun key hkey hgone => by
      have hhas := hlive key hkey
      rw [hgone.2] at hhas
      cases hhas
    cases entity_type with
    | group =>
        obtain ⟨g, hg, hid, howner⟩ := howns
        by_cases hold : g ∈ w.groups
        · exact .inl ⟨g, hold, hid, howner⟩
        rcases mem_groups_after hg with hmem | ⟨g₀, hl, rfl⟩ | ⟨_, _, _, rfl, -⟩
        · exact absurd hmem hold
        · have hfree := group_name_free hl hg hold
          refine .inr ⟨hid.le, live owner ?_⟩
          rcases hl with rfl | rfl
          · exact (if_pos hfree).trans howner
          · exact (if_pos hfree).trans howner
        · cases hadds
    | webhook =>
        obtain ⟨h, hh, hid, howner⟩ := howns
        rcases mem_webhooks_after hh with hmem | ⟨h₀, rfl, rfl⟩ | ⟨_, _, _, rfl, -⟩ | ⟨_, _, _, rfl, -⟩
        · exact .inl ⟨h, hmem, hid, howner⟩
        · exact .inr ⟨hid.le, live owner howner⟩
        · cases hadds
        · cases hadds

theorem audit_grown (a : AuditLog) (w : World) : w.Grown ((insert_audit a).after w) :=
  grown rfl fun key hkey => by cases hkey

theorem purge_grown (threshold : Int) (w : World) : w.Grown ((purge threshold).after w) :=
  grown rfl fun key hkey => by cases hkey

end Stmt

/-! ## What is read -/

/-- What an answer says of the children of a key. -/
def children_in : (Σ l : Stmt, Except AppError l.Reply) → Uuid → Option (List ApiKey)
  | ⟨.query (.children_of ids), .ok rows⟩, parent => if parent ∈ ids then some rows else none
  | _, _ => none

/-- The rows in which a deletion has last looked for the children of a key. -/
def children_read (past : Past Db) (parent : Uuid) : Option (List ApiKey) :=
  (past.filterMap fun x => children_in x parent).getLast?

/-- The group or the webhook is in a list that a deletion has read. -/
def Listed (past : Past Db) : EntityType → Uuid → Prop
  | .group, id => ∃ rows, Saw past .all_groups rows ∧ ∃ g ∈ rows, g.id = id
  | .webhook, id => ∃ rows, Saw past .all_webhooks rows ∧ ∃ h ∈ rows, h.id = id

/-- **A snapshot that still holds**: whatever descends directly from the doomed keys, or is owned by one of
them, is in what the deletion has read. -/
structure Snapshot (past : Past Db) (doomed : List Uuid) (w : World) : Prop where
  children : ∀ k ∈ w.keys, ∀ parent ∈ doomed, k.parent_key_id = some parent →
    ∃ rows, children_read past parent = some rows ∧ k ∈ rows
  entities : ∀ entity_type id, ∀ owner ∈ doomed, w.owns entity_type id owner →
    Listed past entity_type id

/-- The statements whose answers a snapshot is made of. -/
def Stmt.looks : Stmt → Bool
  | query (.children_of _) | query .all_groups | query .all_webhooks => true
  | _ => false

/-- Two pasts from which the same snapshot is made. -/
structure SameSnapshot (past past' : Past Db) : Prop where
  children : ∀ parent, children_read past' parent = children_read past parent
  listed : ∀ entity_type id, Listed past' entity_type id → Listed past entity_type id

section Append

variable {past past' : Past Db} {x : Σ l : Stmt, Except AppError l.Reply}

theorem children_read_append (parent : Uuid) :
    children_read (past ++ [x]) parent = (children_in x parent).or (children_read past parent) := by
  unfold children_read
  rw [List.filterMap_append]
  cases h : children_in x parent with
  | none => simp [h]
  | some rows => simp [h]

/-- A new answer is the last one for the keys it is about. -/
theorem children_read_found {frontier : List Uuid} {rows : List ApiKey} {parent : Uuid}
    (h : parent ∈ frontier) :
    children_read (past ++ [⟨.query (.children_of frontier), .ok rows⟩]) parent = some rows := by
  rw [children_read_append]
  simp only [children_in, if_pos h, Option.some_or]

/-- The other keys keep theirs. -/
theorem children_read_other {frontier : List Uuid} {rows : List ApiKey} {parent : Uuid}
    (h : parent ∉ frontier) :
    children_read (past ++ [⟨.query (.children_of frontier), .ok rows⟩]) parent =
      children_read past parent := by
  rw [children_read_append]
  simp only [children_in, if_neg h, Option.none_or]

theorem children_in_of_not_looks {l : Stmt} (h : l.looks = false) (r : Except AppError l.Reply)
    (parent : Uuid) : children_in ⟨l, r⟩ parent = none := by
  cases l with
  | query q =>
      cases q with
      | children_of ids => cases h
      | _ => rfl
  | _ => rfl

/-- A statement the snapshot is not made of. -/
theorem SameSnapshot.append {l : Stmt} (h : l.looks = false) (r : Except AppError l.Reply) :
    SameSnapshot past (past ++ [⟨l, r⟩]) where
  children parent := by
    rw [children_read_append, children_in_of_not_looks h, Option.none_or]
  listed entity_type id hlisted := by
    cases entity_type with
    | group =>
        obtain ⟨rows, hsaw, hrow⟩ := hlisted
        rcases List.mem_append.mp hsaw with hsaw | heq
        · exact ⟨rows, hsaw, hrow⟩
        · cases List.mem_singleton.mp heq
          cases h
    | webhook =>
        obtain ⟨rows, hsaw, hrow⟩ := hlisted
        rcases List.mem_append.mp hsaw with hsaw | heq
        · exact ⟨rows, hsaw, hrow⟩
        · cases List.mem_singleton.mp heq
          cases h

theorem SameSnapshot.refl (past : Past Db) : SameSnapshot past past := ⟨fun _ => rfl, fun _ _ h => h⟩

theorem SameSnapshot.trans {past'' : Past Db} (h : SameSnapshot past past')
    (h' : SameSnapshot past' past'') : SameSnapshot past past'' where
  children parent := (h'.children parent).trans (h.children parent)
  listed entity_type id hl := h.listed entity_type id (h'.listed entity_type id hl)

end Append

/-! ## The walk -/

/-- What a walk has visited, judged by what it has read: of each key visited but those of the frontier, the
children that were there when it was last looked at are visited too. -/
structure Walked (past : Past Db) (root : Uuid) (visited frontier : List Uuid) : Prop where
  start : root ∈ visited
  pending : ∀ a ∈ frontier, a ∈ visited
  closed : ∀ a ∈ visited, a ∉ frontier → ∀ rows, children_read past a = some rows →
    ∀ k ∈ rows, k.id ∈ visited

namespace Walked

variable {past past' : Past Db} {root : Uuid} {visited frontier : List Uuid}

theorem init (past : Past Db) (root : Uuid) : Walked past root [root] [root] where
  start := List.mem_singleton_self root
  pending _ ha := ha
  closed _ ha hout := absurd ha hout

/-- **One round.** -/
theorem round (h : Walked past root visited frontier) (rows : List ApiKey) :
    Walked (past ++ [⟨.query (.children_of frontier), .ok rows⟩]) root
      (visited ++ (rows.map ApiKey.id).filter fun id => !visited.contains id)
      ((rows.map ApiKey.id).filter fun id => !visited.contains id) where
  start := List.mem_append_left _ h.start
  pending _ ha := List.mem_append_right visited ha
  closed a ha hout rows' hread k hk := by
    have hold : a ∈ visited := (List.mem_append.mp ha).resolve_right hout
    by_cases hfr : a ∈ frontier
    · -- Its children are what this round has read.
      rw [children_read_found hfr] at hread
      obtain rfl : rows = rows' := Option.some.inj hread
      by_cases hvisited : k.id ∈ visited
      · exact List.mem_append_left _ hvisited
      · refine List.mem_append_right visited (List.mem_filter.mpr ⟨List.mem_map_of_mem hk, ?_⟩)
        simpa using hvisited
    · rw [children_read_other hfr] at hread
      exact List.mem_append_left _ (h.closed a hold hfr rows' hread k hk)

theorem of_children (h : Walked past root visited frontier)
    (hsame : ∀ a, children_read past' a = children_read past a) :
    Walked past' root visited frontier where
  start := h.start
  pending := h.pending
  closed a ha hout rows hread := h.closed a ha hout rows ((hsame a).symm.trans hread)

/-- **What a walk misses nothing of.** If the snapshot still holds, the doomed keys are closed under
descent. -/
theorem closed_of_snapshot (h : Walked past root visited []) {w : World}
    (hs : Snapshot past visited w) {k : ApiKey} (hk : k ∈ w.keys) {parent : Uuid}
    (hparent : parent ∈ visited) (hp : k.parent_key_id = some parent) : k.id ∈ visited := by
  obtain ⟨rows, hread, hrow⟩ := hs.children k hk parent hparent hp
  exact h.closed parent hparent List.not_mem_nil rows hread k hrow

end Walked

end IpVault
