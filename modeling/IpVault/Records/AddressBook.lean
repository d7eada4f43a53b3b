import IpVault.Records.After

set_option autoImplicit false

/-! # The address book

What the tables of records and memberships are for, in the terms of somebody who wants to know which
addresses are in force in which group. An `AddressBook` says of each address whether it is protected,
whether it has been put aside and since when, and in which groups it is; a `BookCommand` is what can be
done to it. `World.book` reads the book off the tables, and `Stmt.book_after` is the refinement: each
statement does to the book what its command says, and nothing if it fails.
-/

namespace IpVault

open Lib

/-! ## The abstract book -/

/-- What the book says of an address. -/
structure BookEntry where
  locked : Bool
  aside : Bool
  since : Option Int
  groups : Set Uuid

abbrev AddressBook := String → Option BookEntry

/-- What can be done to the book. A mark is the time at which an address is put aside, if it is not to
be in force. -/
inductive BookCommand where
  | enter (group : Uuid) (marks : List (String × Option Int))
  /-- Enter these, and put aside whatever else is in force in the group. -/
  | replace (group : Uuid) (marks : List (String × Option Int)) (now : Int)
  | leave (address : String) (group : Uuid)
  | put_aside (address : String) (now : Int)
  | bring_back (address : String)
  | erase (address : String)
  /-- Erase what was put aside before `threshold`. -/
  | expire (threshold : Int)
  | disband (group : Uuid)

namespace BookEntry

/-- The entry under a mark. -/
def marked (mark : Option Int) (e : BookEntry) : BookEntry :=
  match mark with
  | some t => { e with aside := true, since := some t }
  | none => if e.aside then { e with aside := false, since := none } else e

/-- An address that is entered in a group. A protected one stays as it is. -/
def entered (group : Uuid) (mark : Option Int) : Option BookEntry → BookEntry
  | none => ⟨false, mark.isSome, mark, {group}⟩
  | some e => if e.locked then e else { e.marked mark with groups := insert group e.groups }

theorem entered_locked {group : Uuid} {mark : Option Int} {e : BookEntry} (h : e.locked = true) :
    entered group mark (some e) = e := if_pos h

theorem entered_free {group : Uuid} {mark : Option Int} {e : BookEntry} (h : e.locked = false) :
    entered group mark (some e) = { e.marked mark with groups := insert group e.groups } :=
  if_neg (by rw [h]; exact Bool.false_ne_true)

open Classical in
/-- An address the new contents of a group leave out. -/
noncomputable def left_out (group : Uuid) (now : Int) (e : BookEntry) : BookEntry :=
  if group ∈ e.groups ∧ e.aside = false ∧ e.locked = false then e.marked (some now) else e

/-- Out of the group. -/
def without (group : Uuid) (e : BookEntry) : BookEntry := { e with groups := e.groups \ {group} }

/-- Put aside before `threshold`, in the order of the dates as texts. -/
def expired (threshold : Int) (e : BookEntry) : Bool :=
  e.aside && e.since.any fun t => Calendar.before t threshold

end BookEntry

namespace AddressBook

/-- The mark of an address among those of a command. -/
def mark_of (marks : List (String × Option Int)) (address : String) : Option (Option Int) :=
  (marks.find? fun m => m.1 = address).map Prod.snd

/-- Some addresses are entered in a group, and something becomes of the others. -/
def entering (B : AddressBook) (group : Uuid) (marks : List (String × Option Int))
    (others : BookEntry → BookEntry) : AddressBook := fun a =>
  match mark_of marks a with
  | some mark => some (BookEntry.entered group mark (B a))
  | none => (B a).map others

/-- One entry of the book is changed. -/
def change (B : AddressBook) (address : String) (f : Option BookEntry → Option BookEntry) :
    AddressBook := Function.update B address (f (B address))

/-- What a command does. -/
noncomputable def exec (B : AddressBook) : BookCommand → AddressBook
  | .enter group marks => B.entering group marks id
  | .replace group marks now => B.entering group marks (BookEntry.left_out group now)
  | .leave address group => B.change address (·.map (BookEntry.without group))
  | .put_aside address now => B.change address (·.map (BookEntry.marked (some now)))
  | .bring_back address => B.change address (·.map fun e => { e with aside := false, since := none })
  | .erase address => B.change address fun _ => none
  | .expire threshold => fun a => (B a).filter fun e => !e.expired threshold
  | .disband group => fun a => (B a).map (BookEntry.without group)

variable {B : AddressBook} {group : Uuid} {marks : List (String × Option Int)} {a : String}
  {others : BookEntry → BookEntry}

theorem entering_of_mark {mark : Option Int} (h : mark_of marks a = some mark) :
    B.entering group marks others a = some (BookEntry.entered group mark (B a)) := by
  unfold entering
  rw [h]

theorem entering_of_none (h : mark_of marks a = none) :
    B.entering group marks others a = (B a).map others := by
  unfold entering
  rw [h]

end AddressBook

/-! ## The book of a store -/

namespace World

/-- The entry of a row. -/
def entry (w : World) (r : IpRecord) : BookEntry :=
  ⟨r.is_locked, r.is_deleted, r.deleted_at, {g | w.member r.id g}⟩

/-- The book the tables hold. -/
def book (w : World) : AddressBook := fun a => (w.record_at a).map w.entry

variable {w w' : World}

theorem book_of_mem (hw : w.Wf) {r : IpRecord} (hr : r ∈ w.records) :
    w.book r.target_address = some (w.entry r) := by
  unfold book
  rw [hw.record_at_eq_some.mpr ⟨hr, rfl⟩]
  rfl

theorem book_eq_none {a : String} : w.book a = none ↔ ∀ r ∈ w.records, r.target_address ≠ a := by
  unfold book
  rw [Option.map_eq_none_iff, record_at_eq_none]

/-- **Two books are compared row by row**: what becomes of each row, and of each address without one. -/
theorem book_eq {B : AddressBook}
    (hrow : ∀ r ∈ w.records, w'.book r.target_address = B r.target_address)
    (hnone : ∀ a, w.book a = none → w'.book a = B a) : w'.book = B := by
  funext a
  cases hbook : w.record_at a with
  | none => exact hnone a (by rw [book, hbook]; rfl)
  | some r =>
      obtain ⟨hr, rfl⟩ := mem_of_record_at hbook
      exact hrow r hr

/-- Nothing has happened to the tables of the book. -/
theorem book_congr (hrecords : w'.records = w.records) (hmembers : w'.memberships = w.memberships) :
    w'.book = w.book := by
  unfold book entry record_at member
  rw [hrecords, hmembers]

end World

/-! ## Batches -/

namespace BatchTxn

variable {w w' : World} {t : BatchTxn}

/-- The mark of an entry. -/
def mark (t : BatchTxn) (input : BatchRecordInput) : Option Int :=
  if input.is_deleted = some true then some (input.deleted_at.getD t.now) else none

def marks (t : BatchTxn) : List (String × Option Int) :=
  t.normalized.map fun e => (e.1, t.mark e.2)

/-- What a batch does to the book. -/
def command (t : BatchTxn) : BookCommand :=
  match t.mode with
  | .Upsert => .enter t.group.id t.marks
  | .FullReplace => .replace t.group.id t.marks t.now

theorem mark_of_marks (a : String) : AddressBook.mark_of t.marks a =
    (t.normalized.find? fun e => e.1 = a).map fun e => t.mark e.2 := by
  unfold AddressBook.mark_of marks
  rw [List.find?_map, Option.map_map]
  rfl

theorem mark_of_eq_none {a : String} : AddressBook.mark_of t.marks a = none ↔ a ∉ t.seen := by
  rw [mark_of_marks, Option.map_eq_none_iff, List.find?_eq_none]
  constructor
  · rintro hnone hseen
    obtain ⟨e, he, hadr⟩ := List.mem_map.mp hseen
    exact hnone e he (decide_eq_true hadr)
  · intro hseen e he hadr
    exact hseen (List.mem_map.mpr ⟨e, he, of_decide_eq_true hadr⟩)

theorem mark_of_mem (hnodup : t.seen.Nodup) {e : String × BatchRecordInput} (he : e ∈ t.normalized) :
    AddressBook.mark_of t.marks e.1 = some (t.mark e.2) := by
  rw [mark_of_marks]
  cases hfind : t.normalized.find? fun e' => e'.1 = e.1 with
  | none => exact absurd (decide_eq_true rfl) (List.find?_eq_none.mp hfind e he)
  | some e' =>
      have hadr : e'.1 = e.1 := by simpa using List.find?_some hfind
      rw [List.inj_on_of_nodup_map hnodup (List.mem_of_find?_eq_some hfind) he hadr]
      rfl

/-- The groups of a row after a batch. -/
theorem Effect.member_row (h : t.Effect (t.outcome w) t.normalized w w') {r : IpRecord}
    (hr : r ∈ w.records) (g : Uuid) : w'.member r.id g ↔
      w.member r.id g ∨ (g = t.group.id ∧ r.is_locked = false ∧ r.target_address ∈ t.seen) := by
  constructor
  · rintro ⟨m, hm, hid, hg⟩
    rcases (h.members m).mp hm with hm | ⟨hg', r', hr', hid', hl, hseen⟩
    · exact .inl ⟨m, hm, hid, hg⟩
    · obtain rfl : r' = t.outcome w r :=
        Table.eq_of_key hr' (h.row r hr) (by rw [outcome_id]; exact hid'.trans hid)
      rw [outcome_is_locked] at hl
      rw [outcome_address] at hseen
      exact .inr ⟨hg.symm.trans hg', hl, hseen⟩
  · rintro (⟨m, hm, hid, hg⟩ | ⟨rfl, hl, hseen⟩)
    · exact ⟨m, (h.members m).mpr (.inl hm), hid, hg⟩
    · refine ⟨⟨r.id, t.group.id⟩, (h.members _).mpr (.inr ⟨rfl, t.outcome w r, h.row r hr, ?_, ?_, ?_⟩),
        rfl, rfl⟩
      · exact outcome_id r
      · rwa [outcome_is_locked]
      · rwa [outcome_address]

/-- What an entry makes of a row, in the terms of the book. -/
theorem entry_change (t : BatchTxn) (input : BatchRecordInput) (r : IpRecord) (w : World) :
    (⟨r.is_locked, ((t.change input r).apply r).is_deleted, ((t.change input r).apply r).deleted_at,
      (w.entry r).groups⟩ : BookEntry) = (w.entry r).marked (t.mark input) := by
  have htombstone : (t.change input r).tombstone = t.tombstone input r := rfl
  rw [Txn.RecordChange.apply_is_deleted, Txn.RecordChange.apply_deleted_at, htombstone]
  by_cases hmark : input.is_deleted = some true
  · rw [tombstone_of_marked hmark]
    simp [mark, hmark, BookEntry.marked, World.entry]
  · rw [tombstone_of_not_marked hmark]
    cases hdeleted : r.is_deleted <;> simp [mark, hmark, BookEntry.marked, World.entry, hdeleted]

/-- The entry of a row after a batch: its columns as `outcome` leaves them, and its groups. -/
theorem Effect.entry (h : t.Effect (t.outcome w) t.normalized w w') {r : IpRecord}
    (hr : r ∈ w.records) : w'.entry (t.outcome w r) =
      ⟨r.is_locked, (t.outcome w r).is_deleted, (t.outcome w r).deleted_at,
        {g | w.member r.id g ∨
          (g = t.group.id ∧ r.is_locked = false ∧ r.target_address ∈ t.seen)}⟩ := by
  unfold World.entry
  rw [outcome_is_locked, outcome_id]
  congr 1
  ext g
  exact h.member_row hr g

/-- An address of the batch. -/
theorem Effect.book_entered (hw : w.Wf) (hw' : w'.Wf) (hnodup : t.seen.Nodup)
    (h : t.Effect (t.outcome w) t.normalized w w') {e : String × BatchRecordInput}
    (he : e ∈ t.normalized) :
    w'.book e.1 = some (BookEntry.entered t.group.id (t.mark e.2) (w.book e.1)) := by
  have hseen : e.1 ∈ t.seen := List.mem_map_of_mem he
  cases hfound : w.record_at e.1 with
  | none =>
      -- A new record is in the group of the batch, and in no other.
      obtain ⟨r', hr', heq⟩ := h.created e he hfound
      have hadr : r'.target_address = e.1 := by rw [heq]; rfl
      have hfresh : w.next_uuid ≤ r'.id := by
        rcases h.origin r' hr' with ⟨r, hr, hout⟩ | ⟨e', -, -, hid, -⟩
        · have hadr' : r.target_address = e.1 := by rw [← hadr, hout, outcome_address]
          exact absurd hadr' (World.record_at_eq_none.mp hfound r hr)
        · exact hid
      have hold : w.book e.1 = none := by rw [World.book, hfound]; rfl
      have hgroups : {g | w'.member r'.id g} = {t.group.id} := by
        ext g
        constructor
        · rintro ⟨m, hm, hid, rfl⟩
          rcases (h.members m).mp hm with hm | ⟨hgroup, -⟩
          · obtain ⟨r₀, hr₀, hid₀⟩ := Table.has_iff.mp (hw.membership_record m hm)
            exact absurd hfresh (Nat.not_le.mpr ((hid₀.trans hid) ▸ hw.record_fresh r₀ hr₀))
          · exact hgroup
        · rintro rfl
          refine ⟨⟨r'.id, t.group.id⟩, (h.members _).mpr (.inr ⟨rfl, r', hr', rfl, ?_, ?_⟩), rfl, rfl⟩
          · rw [heq]
            rfl
          · exact hadr ▸ hseen
      rw [hold, ← hadr, World.book_of_mem hw' hr', World.entry, hgroups]
      have hcolumns : r'.is_locked = false ∧ r'.is_deleted = (t.mark e.2).isSome ∧
          r'.deleted_at = t.mark e.2 := by
        rw [heq]
        unfold fresh_record mark
        cases e.2.is_deleted with
        | none => simp
        | some b => cases b <;> simp
      rw [hcolumns.1, hcolumns.2.1, hcolumns.2.2]
      rfl
  | some r =>
      obtain ⟨hr, hadr⟩ := World.mem_of_record_at hfound
      have hbook := World.book_of_mem hw' (h.row r hr)
      rw [outcome_address, h.entry hr] at hbook
      rw [← hadr, World.book_of_mem hw hr, hbook]
      cases hl : r.is_locked with
      | true =>
          have hsame : t.outcome w r = r := outcome_of_locked hl
          have hlocked : (w.entry r).locked = true := hl
          rw [BookEntry.entered_locked hlocked, hsame]
          simp [World.entry, hl]
      | false =>
          have hchange := entry_change t e.2 r w
          have hgroups : {g | w.member r.id g ∨ g = t.group.id ∧ false = false ∧
              r.target_address ∈ t.seen} = insert t.group.id (w.entry r).groups := by
            ext g
            simp [World.entry, hadr, hseen, or_comm]
          rw [outcome_of_mem hnodup he hadr hl, hgroups]
          have hfree : (w.entry r).locked = false := hl
          rw [BookEntry.entered_free hfree, ← hchange, hl]

/-- What a batch does to the entries it does not name. -/
noncomputable def others (t : BatchTxn) : BookEntry → BookEntry :=
  match t.mode with
  | .Upsert => id
  | .FullReplace => BookEntry.left_out t.group.id t.now

theorem exec_command (B : AddressBook) : B.exec t.command = B.entering t.group.id t.marks t.others := by
  unfold command others
  cases t.mode <;> rfl

open Classical in
theorem others_entry {r : IpRecord} (hseen : r.target_address ∉ t.seen) :
    t.others (w.entry r) = if t.omits w r then (w.entry r).marked (some t.now) else w.entry r := by
  unfold others
  cases hmode : t.mode with
  | Upsert => simp [omits, hmode]
  | FullReplace =>
      unfold BookEntry.left_out
      refine if_congr ?_ rfl rfl
      rw [omits_iff]
      simp [World.entry, hmode, hseen]

/-- An address the batch does not name. -/
theorem Effect.book_elsewhere (hw' : w'.Wf) (h : t.Effect (t.outcome w) t.normalized w w')
    {r : IpRecord} (hr : r ∈ w.records) (hseen : r.target_address ∉ t.seen) :
    w'.book r.target_address = some (t.others (w.entry r)) := by
  have hbook := World.book_of_mem hw' (h.row r hr)
  rw [outcome_address, h.entry hr] at hbook
  have hgroups : {g | w.member r.id g ∨ g = t.group.id ∧ r.is_locked = false ∧
      r.target_address ∈ t.seen} = (w.entry r).groups := by
    ext g
    simp [World.entry, hseen]
  rw [hbook, hgroups, others_entry hseen]
  cases homit : t.omits w r with
  | true =>
      have hout : t.outcome w r = t.sweep_change.apply r := by simp [outcome, homit]
      rw [hout, if_pos rfl]
      rfl
  | false =>
      have hout : t.outcome w r = r := by
        rw [outcome, homit, if_neg Bool.false_ne_true, entry_outcome_of_not_mem hseen]
      rw [hout, if_neg Bool.false_ne_true]
      rfl

/-- **A batch** does to the book what its command says. -/
theorem Effect.book (hw : w.Wf) (hw' : w'.Wf) (hnodup : t.seen.Nodup)
    (h : t.Effect (t.outcome w) t.normalized w w') : w'.book = w.book.exec t.command := by
  rw [exec_command]
  have hentered : ∀ e ∈ t.normalized,
      w'.book e.1 = w.book.entering t.group.id t.marks t.others e.1 := by
    intro e he
    rw [h.book_entered hw hw' hnodup he, AddressBook.entering_of_mark (mark_of_mem hnodup he)]
  refine World.book_eq (w := w) (fun r hr => ?_) fun a hnone => ?_
  · by_cases hseen : r.target_address ∈ t.seen
    · obtain ⟨e, he, hadr⟩ := List.mem_map.mp hseen
      exact hadr ▸ hentered e he
    · rw [h.book_elsewhere hw' hr hseen, AddressBook.entering_of_none (mark_of_eq_none.mpr hseen),
        World.book_of_mem hw hr]
      rfl
  · by_cases hseen : a ∈ t.seen
    · obtain ⟨e, he, hadr⟩ := List.mem_map.mp hseen
      exact hadr ▸ hentered e he
    · rw [AddressBook.entering_of_none (mark_of_eq_none.mpr hseen), hnone]
      refine World.book_eq_none.mpr fun r' hr' hadr => ?_
      rcases h.origin r' hr' with ⟨r, hr, rfl⟩ | ⟨e, he, -, -, heq⟩
      · exact World.book_eq_none.mp hnone r hr (by rwa [outcome_address] at hadr)
      · rw [heq] at hadr
        exact hseen (hadr ▸ List.mem_map_of_mem he)

end BatchTxn

/-! ## Statements -/

namespace Stmt

variable {w w' : World} {l : Stmt}

/-- What an update of a row does to the book. -/
def update_commands (w : World) (id : Uuid) (c : Txn.RecordChange) : List BookCommand :=
  match w.records.find? id, c.tombstone with
  | some r, .clear => [.bring_back r.target_address]
  | some r, .bury t _ => [.put_aside r.target_address t]
  | _, _ => []

/-- What a statement that succeeds does to the book. -/
def book_commands (w : World) : Stmt → List BookCommand
  | upsert_txn t => [.enter t.target_group_id [(t.normalized_address, none)]]
  | batch_txn t => [t.command]
  | delete_ip_txn t => [.leave t.target_address t.group_id]
  | update_record id c => update_commands w id c
  | delete_record id => ((w.records.find? id).map fun r => .erase r.target_address).toList
  | purge threshold => [.expire threshold]
  | delete_group id => [.disband id]
  | _ => []

/-- What a statement does to the book: nothing if it fails. -/
def commands (l : Stmt) (w : World) : List BookCommand :=
  match l.txn w with
  | .ok _ => l.book_commands w
  | .error _ => []

theorem commands_of_ok {a : l.Reply} (h : l.txn w = .ok (a, w')) :
    l.commands w = l.book_commands w := by
  unfold commands
  rw [h]

theorem commands_of_error {e : AppError} (h : l.txn w = .error e) : l.commands w = [] := by
  unfold commands
  rw [h]

/-- The book of a store in which one row has changed its columns. -/
theorem book_modify (hw : w.Wf) (hw' : w'.Wf) {r : IpRecord} {c : Txn.RecordChange}
    (hr : r ∈ w.records) (hrecords : w'.records = w.records.modify r.id c.apply c.apply_id)
    (hmembers : w'.memberships = w.memberships) :
    w'.book = w.book.change r.target_address fun _ => some (w.entry (c.apply r)) := by
  have hentry : ∀ r, w'.entry r = w.entry r := by
    intro r
    unfold World.entry World.member
    rw [hmembers]
  refine World.book_eq (w := w) (fun r' hr' => ?_) fun a hnone => ?_
  · unfold AddressBook.change
    by_cases hid : r'.id = r.id
    · obtain rfl := Table.eq_of_key hr' hr hid
      have hrow : c.apply r' ∈ w'.records := hrecords ▸ apply_mem_modify hr'
      have hbook := World.book_of_mem hw' hrow
      rw [Txn.RecordChange.apply_address, hentry] at hbook
      rw [Function.update_self, hbook]
    · have hne : r'.target_address ≠ r.target_address := fun h =>
        hid (congrArg _ (hw.address_unique r' hr' r hr h))
      have hrow : r' ∈ w'.records := hrecords ▸ mem_records_of_modify hr' hid
      rw [Function.update_of_ne hne, World.book_of_mem hw' hrow, World.book_of_mem hw hr', hentry]
  · have hne : a ≠ r.target_address := fun h => World.book_eq_none.mp hnone r hr h.symm
    rw [AddressBook.change, Function.update_of_ne hne, hnone]
    refine World.book_eq_none.mpr fun r' hr' => ?_
    rw [hrecords] at hr'
    rcases (Table.mem_modify c.apply_id).mp hr' with ⟨hr', -⟩ | ⟨r₀, hr₀, -, rfl⟩
    · exact World.book_eq_none.mp hnone r' hr'
    · rw [Txn.RecordChange.apply_address]
      exact World.book_eq_none.mp hnone r₀ hr₀

/-- The book of a store from which rows have been removed, with their memberships. -/
theorem book_delete (hw : w.Wf) (hw' : w'.Wf) {p : IpRecord → Bool}
    (hrecords : w'.records = w.records.filter fun r => !p r)
    (hmembers : w'.memberships = w.memberships.filter fun m => w'.records.has m.ip_record_id)
    {r : IpRecord} (hr : r ∈ w.records) :
    w'.book r.target_address = if p r then none else some (w.entry r) := by
  cases hp : p r with
  | true =>
      rw [if_pos rfl]
      refine World.book_eq_none.mpr fun r' hr' hadr => ?_
      rw [hrecords] at hr'
      obtain ⟨hr', hkept⟩ := Table.mem_filter.mp hr'
      obtain rfl := hw.address_unique r' hr' r hr hadr
      rw [hp] at hkept
      cases hkept
  | false =>
      have hrow : r ∈ w'.records := by
        rw [hrecords]
        exact Table.mem_filter.mpr ⟨hr, by rw [hp]; rfl⟩
      rw [if_neg Bool.false_ne_true, World.book_of_mem hw' hrow]
      congr 1
      unfold World.entry
      congr 1
      ext g
      constructor
      · rintro ⟨m, hm, hid, hg⟩
        rw [hmembers] at hm
        exact ⟨m, (Table.mem_filter.mp hm).1, hid, hg⟩
      · rintro ⟨m, hm, hid, hg⟩
        refine ⟨m, ?_, hid, hg⟩
        rw [hmembers]
        exact Table.mem_filter.mpr ⟨hm, Table.has_iff.mpr ⟨r, hrow, hid.symm⟩⟩

/-- A row that was not there is not there afterwards. -/
theorem book_delete_none {p : IpRecord → Bool}
    (hrecords : w'.records = w.records.filter fun r => !p r) {a : String} (hnone : w.book a = none) :
    w'.book a = none := by
  refine World.book_eq_none.mpr fun r hr => ?_
  rw [hrecords] at hr
  exact World.book_eq_none.mp hnone r (Table.mem_filter.mp hr).1

/-- The book of a store in which only some memberships are kept. -/
theorem book_unlink (hw' : w'.Wf) (hrecords : w'.records = w.records)
    {kept : Membership → Bool} (hmembers : w'.memberships = w.memberships.filter kept)
    {r : IpRecord} (hr : r ∈ w.records) : w'.book r.target_address =
      some { w.entry r with groups := {g | w.member r.id g ∧ kept ⟨r.id, g⟩ = true} } := by
  rw [World.book_of_mem hw' (hrecords ▸ hr)]
  unfold World.entry
  congr 2
  ext g
  constructor
  · rintro ⟨⟨record_id, group_id⟩, hm, hid, hg⟩
    obtain rfl : record_id = r.id := hid
    obtain rfl : group_id = g := hg
    rw [hmembers] at hm
    obtain ⟨hm, hkept⟩ := Table.mem_filter.mp hm
    exact ⟨⟨_, hm, rfl, rfl⟩, hkept⟩
  · rintro ⟨⟨⟨record_id, group_id⟩, hm, hid, hg⟩, hkept⟩
    obtain rfl : record_id = r.id := hid
    obtain rfl : group_id = g := hg
    refine ⟨⟨r.id, group_id⟩, ?_, rfl, rfl⟩
    rw [hmembers]
    exact Table.mem_filter.mpr ⟨hm, hkept⟩

theorem book_unlink_none (hrecords : w'.records = w.records) {a : String} (hnone : w.book a = none) :
    w'.book a = none := by
  rw [World.book_eq_none] at hnone ⊢
  rwa [hrecords]

/-- What a removal from a group does to the book. -/
theorem book_delete_ip (hw : w.Wf) (hw' : w'.Wf) {t : DeleteIpTxn} {r : IpRecord}
    (h : t.run w = .ok (r, w')) : w'.book = w.book.exec (.leave t.target_address t.group_id) := by
  obtain ⟨hr, hadr, -, -, hrecords, hmembers⟩ := DeleteIpTxn.run_ok h
  show w'.book = w.book.change t.target_address _
  unfold AddressBook.change
  refine World.book_eq (w := w) (fun r' hr' => ?_) fun a ha => ?_
  · rw [book_unlink hw' hrecords hmembers hr', ← hadr]
    by_cases hid : r'.id = r.id
    · obtain rfl := Table.eq_of_key hr' hr hid
      rw [Function.update_self, World.book_of_mem hw hr']
      simp [BookEntry.without, World.entry, Membership.key, Set.ext_iff]
    · have hne : r'.target_address ≠ r.target_address := fun h =>
        hid (congrArg _ (hw.address_unique r' hr' r hr h))
      rw [Function.update_of_ne hne, World.book_of_mem hw hr']
      simp [World.entry, Membership.key, hid]
  · have hne : a ≠ t.target_address := fun h =>
      World.book_eq_none.mp ha r hr (hadr.trans h.symm)
    rw [Function.update_of_ne hne, ha]
    exact book_unlink_none hrecords ha

/-- What the removal of a group does to the book. -/
theorem book_delete_group (hw : w.Wf) (hw' : w'.Wf) {id : Uuid} (hrecords : w'.records = w.records)
    (hmembers : w'.memberships = w.memberships.filter fun m => m.group_id ≠ id) :
    w'.book = w.book.exec (.disband id) := by
  refine World.book_eq (w := w) (fun r hr => ?_) fun a ha => ?_
  · show _ = (w.book r.target_address).map _
    rw [book_unlink hw' hrecords hmembers hr, World.book_of_mem hw hr]
    simp [BookEntry.without, World.entry, Set.ext_iff]
  · show _ = (w.book a).map _
    rw [book_unlink_none hrecords ha, ha]
    rfl

/-- What an update does to the book. -/
theorem book_update (hw : w.Wf) (hw' : w'.Wf) {id : Uuid} {c : Txn.RecordChange} {r : IpRecord}
    (h : Txn.update_record id c w = .ok (r, w')) :
    w'.book = (update_commands w id c).foldl AddressBook.exec w.book := by
  obtain ⟨r₀, hr₀, rfl, -, rfl⟩ := Txn.update_record_ok h
  rw [book_modify hw hw' hr₀ rfl rfl]
  have hbook := World.book_of_mem hw hr₀
  unfold update_commands
  rw [Table.find?_key hr₀]
  obtain ⟨updated_at, last_seen_at, cause, tombstone⟩ := c
  cases tombstone with
  | keep =>
      show Function.update w.book r₀.target_address (some (w.entry r₀)) = w.book
      rw [← hbook, Function.update_eq_self]
  | clear =>
      show Function.update w.book r₀.target_address _ = Function.update w.book r₀.target_address _
      rw [hbook]
      rfl
  | bury t who =>
      show Function.update w.book r₀.target_address _ = Function.update w.book r₀.target_address _
      rw [hbook]
      rfl

/-- What the removal of rows does to the book. -/
theorem book_delete_where (hw : w.Wf) (hw' : w'.Wf) {p : IpRecord → Bool} {n : Nat}
    (h : Txn.delete_records_where p w = .ok (n, w')) {B : AddressBook}
    (hrow : ∀ r ∈ w.records, B r.target_address = if p r then none else some (w.entry r))
    (hnone : ∀ a, w.book a = none → B a = none) : w'.book = B := by
  obtain ⟨-, rfl⟩ := Prod.mk.inj (Except.ok.inj h)
  refine World.book_eq (w := w) (fun r hr => ?_) fun a ha => ?_
  · rw [hrow r hr]
    exact book_delete hw hw' rfl rfl hr
  · rw [hnone a ha]
    exact book_delete_none rfl ha

/-- What the removal of a record does to the book. -/
theorem book_delete_record (hw : w.Wf) (hw' : w'.Wf) {id : Uuid} {n : Nat}
    (h : Txn.delete_record id w = .ok (n, w')) :
    w'.book = ((delete_record id).book_commands w).foldl AddressBook.exec w.book := by
  show w'.book = (((w.records.find? id).map fun r => BookCommand.erase r.target_address).toList).foldl
    AddressBook.exec w.book
  cases hfound : w.records.find? id with
  | none =>
      refine book_delete_where hw hw' h (fun r hr => ?_) fun a ha => ha
      have hne : r.id ≠ id := Table.find?_eq_none.mp hfound r hr
      show w.book r.target_address = _
      simp [hne, World.book_of_mem hw hr]
  | some r₀ =>
      obtain ⟨hr₀, rfl⟩ := Table.find?_eq_some.mp hfound
      refine book_delete_where hw hw' h (fun r hr => ?_) fun a ha => ?_
      · show Function.update w.book r₀.target_address none r.target_address = _
        by_cases hid : r.id = r₀.id
        · obtain rfl := Table.eq_of_key hr hr₀ hid
          simp
        · have hne : r.target_address ≠ r₀.target_address := fun h =>
            hid (congrArg _ (hw.address_unique r hr r₀ hr₀ h))
          simp [hne, hid, World.book_of_mem hw hr]
      · show Function.update w.book r₀.target_address none a = none
        have hne : a ≠ r₀.target_address := fun h => World.book_eq_none.mp ha r₀ hr₀ h.symm
        rw [Function.update_of_ne hne, ha]

/-- **The refinement.** Each statement does to the book what its command says, and nothing if it
fails. -/
theorem book_after (hw : w.Wf) (hseen : ∀ b, l.as_batch = some b → b.seen.Nodup) :
    (l.after w).book = (l.commands w).foldl AddressBook.exec w.book := by
  have hw' := l.wf_after hw
  cases h : l.txn w with
  | error e => rw [after_of_error h, commands_of_error h]; rfl
  | ok p =>
      obtain ⟨a, w'⟩ := p
      rw [after_of_ok h] at hw' ⊢
      rw [commands_of_ok h]
      have hother : l.writes_records = false → l.writes_memberships = false → w'.book = w.book := by
        intro hr hm
        have hframe := frame l w
        rw [after_of_ok h] at hframe
        exact World.book_congr (hframe.records hr) (hframe.memberships hm)
      cases l with
      | upsert_txn t => exact (UpsertTxn.run_effect hw h).2.book hw hw' (hseen _ rfl)
      | batch_txn t => exact (BatchTxn.run_effect hw (hseen _ rfl) h).book hw hw' (hseen _ rfl)
      | delete_ip_txn t => exact book_delete_ip hw hw' h
      | update_record id c => exact book_update hw hw' h
      | delete_record id => exact book_delete_record hw hw' h
      | purge threshold =>
          refine book_delete_where hw hw' h (fun r hr => ?_) fun a ha => ?_
          · show (w.book r.target_address).filter _ = _
            rw [World.book_of_mem hw hr]
            show (if !Txn.expired threshold r then _ else none) = _
            cases Txn.expired threshold r <;> rfl
          · show (w.book a).filter _ = none
            rw [ha]
            rfl
      | delete_group id =>
          obtain ⟨-, rfl⟩ := Prod.mk.inj (Except.ok.inj h)
          exact book_delete_group hw hw' rfl rfl
      | _ => exact hother rfl rfl

end Stmt

end IpVault
