import IpVault.Access.Footprint
import IpVault.Keys.Snapshot

set_option autoImplicit false

/-! # Subtree deletion among creations

`delete_api_key` takes turns with requests that create keys, groups and webhooks. It leaves no key below
the one it deletes and no entity of a deleted key (`NoSurvivors`) if its snapshot still holds when it
deletes the keys, and nobody creates for a key that is gone. The judgement of the deletion follows its
program: the walk (`Walked`), the list of what has to be settled (`Owing`), and what is left when the
keys are gone (`Cleared`).
-/

namespace IpVault

open Lib

variable {n : Nat} {past past' : Past Db} {s t v : Vault} {α β : Type}

/-! ## What is recorded -/

/-- A past of at most `n` answers, in which every group and webhook listed has been drawn. -/
structure Recorded (n : Nat) (past : Past Db) (w : World) : Prop where
  short : past.length ≤ n
  listed : ∀ entity_type id, Listed past entity_type id → id < w.next_uuid

theorem Recorded.grown {w w' : World} (h : Recorded n past w) (hle : w.next_uuid ≤ w'.next_uuid) :
    Recorded n past w' where
  short := h.short
  listed entity_type id hl := (h.listed entity_type id hl).trans_le hle

/-- Another answer. -/
theorem Recorded.append (h : Recorded n past t.toWorld) (hlt : past.length < n) {l : Stmt}
    {r : Except AppError l.Reply} (hr : (concurrent_database n).answer l t = r) :
    Recorded n (past ++ [⟨l, r⟩]) t.toWorld where
  short := by
    rw [List.length_append]
    exact hlt
  listed entity_type id hl := by
    cases entity_type with
    | group =>
        obtain ⟨rows, hsaw, g, hg, rfl⟩ := hl
        rcases List.mem_append.mp hsaw with hsaw | heq
        · exact h.listed .group g.id ⟨rows, hsaw, g, hg, rfl⟩
        · cases List.mem_singleton.mp heq
          obtain rfl : t.groups.rows = rows := Except.ok.inj hr
          exact t.wf.group_fresh g hg
    | webhook =>
        obtain ⟨rows, hsaw, x, hx, rfl⟩ := hl
        rcases List.mem_append.mp hsaw with hsaw | heq
        · exact h.listed .webhook x.id ⟨rows, hsaw, x, hx, rfl⟩
        · cases List.mem_singleton.mp heq
          obtain rfl : t.webhooks.rows = rows := Except.ok.inj hr
          exact t.wf.webhook_fresh x hx

/-! ## The judgement -/

/-- What is assumed of a statement of the deletion: it comes within the schedule, and if it deletes the
keys, the snapshot still holds. -/
def Assumed (n : Nat) (o : Db.recalling.Op) (t : Vault) : Prop :=
  o.2.length < n ∧ ∀ ids, o.1 = .delete_keys ids → Snapshot o.2 ids t.toWorld

/-- The judgement of the deletion, among requests that create. -/
abbrev Deleting (n : Nat) (Q : α → Past Db → Vault → Prop) (past : Past Db) (p : Handler α)
    (s : Vault) : Prop :=
  Prog.Recalls (concurrent_database n) (fun s t => s.toWorld.Grown t.toWorld) (Assumed n)
    (fun _ _ => True) Q (fun _ _ => True) past p s

theorem Deleting.bind {Q : β → Past Db → Vault → Prop} {Q' : α → Past Db → Vault → Prop}
    {p : Handler β} {f : β → Handler α} (h : Deleting n Q past p s)
    (hf : ∀ b past' t, Q b past' t → Deleting n Q' past' (f b) t) : Deleting n Q' past (p >>= f) s :=
  Prog.Recalls.bind (fun s => .refl s.toWorld) (h.mono (fun _ _ hg => hg) hf fun _ _ he => he)

theorem Deleting.imp {Q Q' : α → Past Db → Vault → Prop} {p : Handler α} (h : Deleting n Q past p s)
    (hQ : ∀ a past' t, Q a past' t → Q' a past' t) : Deleting n Q' past p s :=
  h.mono (fun _ _ hg => hg) hQ fun _ _ he => he

theorem deleting_require {c : Prop} [Decidable c] {e : AppError} :
    Deleting n (fun _ past' t => past = past' ∧ c ∧ s.toWorld.Grown t.toWorld) past
      (Prog.require c e) s :=
  .require (fun hc _ hst => ⟨rfl, hc, hst⟩) fun _ _ _ => trivial

theorem deleting_ofExcept {x : Except AppError α} :
    Deleting n (fun a past' t => past = past' ∧ x = .ok a ∧ s.toWorld.Grown t.toWorld) past
      (Prog.ofExcept x) s :=
  .ofExcept (fun _ hx _ hst => ⟨rfl, hx, hst⟩) fun _ _ _ _ => trivial

theorem deleting_okOr {x : Option α} {e : AppError} :
    Deleting n (fun a past' t => past = past' ∧ x = some a ∧ s.toWorld.Grown t.toWorld) past
      (Prog.okOr e x) s :=
  .okOr (fun _ hx _ hst => ⟨rfl, hx, hst⟩) fun _ _ _ => trivial

/-- One statement, judged in the store it finds. -/
theorem deleting_exec {l : Stmt} {Q : l.Reply → Past Db → Vault → Prop}
    (h : ∀ m a, s.toWorld.Grown m.toWorld → Assumed n (l, past) m →
      (concurrent_database n).answer l m = .ok a →
        ∀ t : Vault, (m.after l).toWorld.Grown t.toWorld → Q a (past ++ [⟨l, .ok a⟩]) t) :
    Deleting n Q past (exec l) s :=
  recalls_exec (fun s => .refl s.toWorld) (fun _ _ _ h h' => h.trans h') (fun _ _ _ => trivial)
    (fun m a hm ha hanswer t ht => h m a hm ha hanswer t ht) fun _ _ _ _ _ _ => trivial

/-- One query: what it has found, and where. -/
theorem deleting_select {q : Query} (h : Recorded n past s.toWorld) :
    Deleting n (fun a past' t => past' = past ++ [⟨.query q, .ok a⟩] ∧ Recorded n past' t.toWorld ∧
        ∃ m : Vault, s.toWorld.Grown m.toWorld ∧ m.toWorld.Grown t.toWorld ∧
          Recorded n past' m.toWorld ∧ (concurrent_database n).answer (.query q) m = .ok a)
      past (select q) s := by
  refine deleting_exec (l := .query q) fun m a hm ha hanswer t ht => ?_
  have hrec := (h.grown hm.next_uuid).append ha.1 hanswer
  exact ⟨rfl, hrec.grown ht.next_uuid, m, hm, ht, hrec, hanswer⟩

/-- An audit row. -/
theorem deleting_audit {ctx : Ctx} {action : String} {target_address group_names details : Option String} :
    Deleting n (fun _ _ t => s.toWorld.Grown t.toWorld) past
      (create_audit_log ctx action target_address group_names details) s := by
  unfold create_audit_log
  refine deleting_exec (Q := fun _ _ t => s.toWorld.Grown t.toWorld) fun m a hm _ _ t ht => ?_
  exact (hm.trans (Stmt.audit_grown _ _)).trans ht

/-- A reader keeps the record. -/
theorem deleting_reads {p : Handler α} (hp : OnlyReads p) (h : Recorded n past s.toWorld) :
    Deleting n (fun _ past' t => Recorded n past' t.toWorld ∧ s.toWorld.Grown t.toWorld) past p s := by
  induction p generalizing past s with
  | ret a => exact fun t hst => ⟨h.grown hst.next_uuid, hst⟩
  | fail e => exact fun _ _ => trivial
  | ask l next ih =>
      obtain ⟨⟨q, rfl⟩, hnext⟩ := hp
      intro m hm ha
      refine ⟨trivial, ?_⟩
      have hrec := (h.grown hm.next_uuid).append ha.1 (l := .query q) rfl
      have hrest : Deleting n
          (fun _ past' t => Recorded n past' t.toWorld ∧ s.toWorld.Grown t.toWorld) _
          (next ((concurrent_database n).answer (.query q) m)) m :=
        (ih _ (hnext _) hrec).imp fun _ _ _ ht => ⟨ht.1, hm.trans ht.2⟩
      exact hrest

/-! ## The walk -/

theorem find_administrable_key_deleting (caller : ApiKey) (target : Uuid)
    (h : Recorded n past s.toWorld) :
    Deleting n (fun _ past' t => Recorded n past' t.toWorld ∧ s.toWorld.Grown t.toWorld ∧
      target < t.next_uuid) past (find_administrable_key caller target) s := by
  refine (deleting_select h).bind fun found past₁ s₁ hfound => ?_
  obtain ⟨-, hrec, m, hsm, hms, -, hanswer⟩ := hfound
  refine deleting_okOr.bind fun k past₂ s₂ hk => ?_
  obtain ⟨rfl, rfl, hgrown⟩ := hk
  have hlt : target < s₂.next_uuid := by
    have hfind : m.keys.find? target = some k := Except.ok.inj hanswer
    obtain ⟨hmem, rfl⟩ := Table.find?_eq_some.mp hfind
    exact (m.wf.key_fresh k hmem).trans_le (hms.trans hgrown).next_uuid
  have hrec := hrec.grown hgrown.next_uuid
  refine (deleting_reads (caller_can_administer_key_only_reads _ _) hrec).bind
    fun may past₃ s₃ hreads => ?_
  obtain ⟨hrec', hgrown'⟩ := hreads
  refine deleting_require.bind fun _ past₄ s₄ hmay => ?_
  obtain ⟨rfl, -, hgrown''⟩ := hmay
  intro t ht
  have hlast := (hgrown'.trans hgrown'').trans ht
  exact ⟨hrec'.grown (hgrown''.trans ht).next_uuid, ((hsm.trans hms).trans hgrown).trans hlast,
    hlt.trans_le hlast.next_uuid⟩

/-- The walk visits what it reads. It has a round for each statement the schedule has room for, so it
does not end early. -/
theorem subtree_walk_deleting {root : Uuid} {visited frontier : List Uuid} (rounds : Nat)
    (hwalk : Walked past root visited frontier) (h : Recorded n past s.toWorld)
    (hfresh : ∀ a ∈ visited, a < s.next_uuid) (hrounds : n < rounds + past.length) :
    Deleting n (fun ids past' t => Walked past' root ids [] ∧ Recorded n past' t.toWorld ∧
        s.toWorld.Grown t.toWorld ∧ ∀ a ∈ ids, a < t.next_uuid) past
      (subtree_walk rounds visited frontier) s := by
  induction rounds generalizing past s visited frontier with
  | zero => exact absurd h.short (by omega)
  | succ rounds ih =>
      unfold subtree_walk
      by_cases hf : frontier = []
      · subst hf
        rw [if_pos rfl]
        exact fun t ht => ⟨hwalk, h.grown ht.next_uuid, ht, fun a ha =>
          (hfresh a ha).trans_le ht.next_uuid⟩
      · rw [if_neg hf]
        refine (deleting_select h).bind fun rows past' s' hrows => ?_
        obtain ⟨rfl, hrec, m, hsm, hms, -, hanswer⟩ := hrows
        have hfresh' : ∀ a ∈ visited ++ (rows.map ApiKey.id).filter (fun id => !visited.contains id),
            a < s'.next_uuid := by
          intro a ha
          rcases List.mem_append.mp ha with ha | ha
          · exact (hfresh a ha).trans_le (hsm.trans hms).next_uuid
          · obtain ⟨k, hk, rfl⟩ := List.mem_map.mp (List.mem_filter.mp ha).1
            obtain rfl : (Query.children_of frontier).eval m.toWorld = rows := Except.ok.inj hanswer
            exact (m.wf.key_fresh k (List.mem_filter.mp hk).1).trans_le hms.next_uuid
        have hlength : n < rounds + (past ++ [(⟨.query (.children_of frontier), .ok rows⟩ :
            Σ l : Stmt, Except AppError l.Reply)]).length := by
          rw [List.length_append]
          simp only [List.length_singleton]
          omega
        refine (ih (hwalk.round rows) hrec hfresh' hlength).imp fun ids past'' t ht => ?_
        exact ⟨ht.1, ht.2.1, (hsm.trans hms).trans ht.2.2.1, ht.2.2.2⟩

theorem collect_key_subtree_deleting {root : Uuid} (h : Recorded n past s.toWorld)
    (hfresh : root < s.next_uuid) :
    Deleting n (fun ids past' t => Walked past' root ids [] ∧ Recorded n past' t.toWorld ∧
        s.toWorld.Grown t.toWorld ∧ ∀ a ∈ ids, a < t.next_uuid) past
      (collect_key_subtree root) s := by
  refine (deleting_select h).bind fun keys past' s' hkeys => ?_
  obtain ⟨-, hrec, m, hsm, hms, -, hanswer⟩ := hkeys
  obtain rfl : n = keys := Except.ok.inj hanswer
  have hroot : ∀ a ∈ [root], a < s'.next_uuid := by
    intro a ha
    obtain rfl := List.mem_singleton.mp ha
    exact hfresh.trans_le (hsm.trans hms).next_uuid
  refine (subtree_walk_deleting (n + 1) (.init past' root) hrec hroot (by omega)).imp
    fun ids past'' t ht => ?_
  exact ⟨ht.1, ht.2.1, (hsm.trans hms).trans ht.2.2.1, ht.2.2.2⟩

/-! ## The resolution map -/

/-- Every entity that is listed, and that a doomed key owns, is among the rest. -/
def Owing (past : Past Db) (doomed : List Uuid) (rest : List OwnedEntity) (w : World) : Prop :=
  ∀ entity_type id, ∀ owner ∈ doomed, w.owns entity_type id owner → Listed past entity_type id →
    (entity_type.as_str, id) ∈ rest.map OwnedEntity.key

section Owing

variable {doomed : List Uuid} {rest : List OwnedEntity} {w w' : World}

/-- Nothing that has been listed is added. -/
theorem Owing.grown (h : Owing past doomed rest w) (hrec : Recorded n past w) (hg : w.Grown w') :
    Owing past doomed rest w' := by
  intro entity_type id owner ho howns hlisted
  rcases hg.owned entity_type id owner howns with howns | ⟨hnew, -⟩
  · exact h entity_type id owner ho howns hlisted
  · exact absurd (hrec.listed entity_type id hlisted) (Nat.not_lt.mpr hnew)

theorem Owing.of_same (h : Owing past doomed rest w) (hsame : SameSnapshot past past') :
    Owing past' doomed rest w :=
  fun entity_type id owner ho howns hlisted =>
    h entity_type id owner ho howns (hsame.listed entity_type id hlisted)

/-- What a resolution leaves owned. -/
theorem owns_after_resolution {e : OwnedEntity} {resolution : Resolution} {entity_type : EntityType}
    {id owner : Uuid} (h : ((resolution_stmt e resolution).after w).owns entity_type id owner) :
    (w.owns entity_type id owner ∧ (entity_type.as_str, id) ≠ e.key) ∨
      resolution = .Reassign owner := by
  obtain ⟨kind, eid, name, owner_key_id, owner_name⟩ := e
  have other : ∀ {a b : EntityType}, a ≠ b → (a.as_str, id) ≠ (b.as_str, eid) :=
    fun hne heq => hne (EntityType.as_str_inj (Prod.mk.inj heq).1)
  -- A resolution of one kind leaves the owners of the other kind alone; a deletion of a group may take
  -- webhooks with it, which only makes them fewer.
  cases entity_type with
  | group =>
      obtain ⟨g, hg, rfl, howner⟩ := h
      cases kind with
      | webhook =>
          have hsame : (resolution_stmt ⟨.webhook, eid, name, owner_key_id, owner_name⟩
              resolution).writes_groups = false := by cases resolution <;> rfl
          rw [((resolution_stmt _ resolution).frame w).groups hsame] at hg
          exact .inl ⟨⟨g, hg, rfl, howner⟩, other (fun h => by cases h)⟩
      | group =>
          cases resolution with
          | Delete =>
              obtain ⟨hg, hne⟩ := Table.mem_filter.mp hg
              refine .inl ⟨⟨g, hg, rfl, howner⟩, fun heq => ?_⟩
              exact (of_decide_eq_true hne) (Prod.mk.inj heq).2
          | Reassign target =>
              rcases (Table.mem_modify (Txn.own_group_id (some target))).mp hg with
                ⟨hg, hne⟩ | ⟨g₀, hg₀, hid, rfl⟩
              · exact .inl ⟨⟨g, hg, rfl, howner⟩, fun heq => hne (Prod.mk.inj heq).2⟩
              · exact .inr (congrArg _ (Option.some.inj howner))
  | webhook =>
      obtain ⟨x, hx, rfl, howner⟩ := h
      cases kind with
      | group =>
          have hold : x ∈ w.webhooks := by
            cases resolution with
            | Delete => exact (Table.mem_filter.mp hx).1
            | Reassign target => exact hx
          exact .inl ⟨⟨x, hold, rfl, howner⟩, other (fun h => by cases h)⟩
      | webhook =>
          cases resolution with
          | Delete =>
              obtain ⟨hx, hne⟩ := Table.mem_filter.mp hx
              refine .inl ⟨⟨x, hx, rfl, howner⟩, fun heq => ?_⟩
              exact (of_decide_eq_true hne) (Prod.mk.inj heq).2
          | Reassign target =>
              rcases (Table.mem_modify (Txn.own_webhook_id (some target))).mp hx with
                ⟨hx, hne⟩ | ⟨x₀, hx₀, hid, rfl⟩
              · exact .inl ⟨⟨x, hx, rfl, howner⟩, fun heq => hne (Prod.mk.inj heq).2⟩
              · exact .inr (congrArg _ (Option.some.inj howner))

/-- **One resolution** settles one entity. -/
theorem Owing.resolve {e : OwnedEntity} {resolution : Resolution}
    (h : Owing past doomed (e :: rest) w) (hout : ∀ owner, resolution = .Reassign owner →
      owner ∉ doomed) : Owing past doomed rest ((resolution_stmt e resolution).after w) := by
  intro entity_type id owner ho howns hlisted
  rcases owns_after_resolution howns with ⟨howns, hne⟩ | hres
  · have hmem := h entity_type id owner ho howns hlisted
    rw [List.map_cons, List.mem_cons] at hmem
    exact hmem.resolve_left hne
  · exact absurd ho (hout owner hres)

end Owing

/-- The inventory has every entity listed that a doomed key owns. -/
theorem inventory_deleting (doomed : List Uuid) (h : Recorded n past s.toWorld) :
    Deleting n (fun inventory past' t => Recorded n past' t.toWorld ∧ s.toWorld.Grown t.toWorld ∧
        (∀ a, children_read past' a = children_read past a) ∧
        Owing past' doomed inventory t.toWorld) past (inventory_owned_entities doomed) s := by
  refine (deleting_select h).bind fun keys past₁ s₁ hkeys => ?_
  obtain ⟨rfl, hrec₁, m₁, hsm₁, hms₁, -, -⟩ := hkeys
  refine (deleting_select hrec₁).bind fun groups past₂ s₂ hgroups => ?_
  obtain ⟨rfl, hrec₂, m₂, hsm₂, hms₂, hrecm₂, hanswer₂⟩ := hgroups
  refine (deleting_select hrec₂).bind fun webhooks past₃ s₃ hwebhooks => ?_
  obtain ⟨rfl, hrec₃, m₃, hsm₃, hms₃, hrecm₃, hanswer₃⟩ := hwebhooks
  obtain rfl : m₂.groups.rows = groups := Except.ok.inj hanswer₂
  obtain rfl : m₃.webhooks.rows = webhooks := Except.ok.inj hanswer₃
  have hgrown := ((hsm₁.trans hms₁).trans (hsm₂.trans hms₂)).trans (hsm₃.trans hms₃)
  intro t ht
  refine ⟨hrec₃.grown ht.next_uuid, hgrown.trans ht, fun a => ?_, ?_⟩
  · rw [children_read_append, children_read_append, children_read_append]
    rfl
  intro entity_type id owner ho howns hlisted
  rw [List.map_append, List.mem_append]
  cases entity_type with
  | group =>
      -- It was there when the groups were read, under the same owner.
      obtain ⟨rows, hsaw, hrow⟩ := hlisted
      have hlt := hrecm₂.listed .group id ⟨rows, hsaw.of_append (fun h => by cases h), hrow⟩
      have hgrown₂ := (hms₂.trans (hsm₃.trans hms₃)).trans ht
      rcases hgrown₂.owned .group id owner howns with ⟨g, hg, hid, howner⟩ | ⟨hnew, -⟩
      · exact .inl (mem_owned_by.mpr ⟨rfl, _, List.mem_map_of_mem hg, hid, owner, ho, howner⟩)
      · exact absurd hlt (Nat.not_lt.mpr hnew)
  | webhook =>
      have hlt := hrecm₃.listed .webhook id hlisted
      have hgrown₃ := hms₃.trans ht
      rcases hgrown₃.owned .webhook id owner howns with ⟨x, hx, hid, howner⟩ | ⟨hnew, -⟩
      · exact .inr (mem_owned_by.mpr ⟨rfl, _, List.mem_map_of_mem hx, hid, owner, ho, howner⟩)
      · exact absurd hlt (Nat.not_lt.mpr hnew)

/-- The new owners are not doomed. -/
theorem validate_targets_deleting (doomed : List Uuid) (entries : List ResolutionEntry)
    (h : Recorded n past s.toWorld) :
    Deleting n (fun _ past' t => Recorded n past' t.toWorld ∧ s.toWorld.Grown t.toWorld ∧
        SameSnapshot past past' ∧ ∀ e ∈ entries, ∀ owner, e.resolution = .Reassign owner →
          owner ∉ doomed) past (validate_targets doomed entries) s := by
  induction entries generalizing past s with
  | nil =>
      exact fun t ht => ⟨h.grown ht.next_uuid, ht, .refl past, fun e he => absurd he List.not_mem_nil⟩
  | cons e es ih =>
      unfold validate_targets
      cases hres : e.resolution with
      | Delete =>
          refine (ih h).imp fun _ past' t ht => ⟨ht.1, ht.2.1, ht.2.2.1, fun e' he' owner howner => ?_⟩
          rcases List.mem_cons.mp he' with rfl | he'
          · cases hres.symm.trans howner
          · exact ht.2.2.2 e' he' owner howner
      | Reassign target =>
          have resolved : Deleting n (fun _ past' t => Recorded n past' t.toWorld ∧
              s.toWorld.Grown t.toWorld ∧ SameSnapshot past past') past
              (resolve_owner_assignment (some target)) s := by
            refine (deleting_select h).bind fun found past₁ s₁ hfound => ?_
            obtain ⟨rfl, hrec, m, hsm, hms, -, -⟩ := hfound
            refine deleting_okOr.bind fun owner past₂ s₂ howner => ?_
            obtain ⟨rfl, -, hgrown⟩ := howner
            refine deleting_require.bind fun _ past₃ s₃ hord => ?_
            obtain ⟨rfl, -, hgrown'⟩ := hord
            intro t ht
            have hlast := (hgrown.trans hgrown').trans ht
            exact ⟨hrec.grown hlast.next_uuid, (hsm.trans hms).trans hlast, .append rfl _⟩
          refine resolved.bind fun _ past₁ s₁ h₁ => ?_
          obtain ⟨hrec₁, hgrown₁, hsame₁⟩ := h₁
          refine deleting_require.bind fun _ past₂ s₂ hout => ?_
          obtain ⟨rfl, hout, hgrown₂⟩ := hout
          refine (ih (hrec₁.grown hgrown₂.next_uuid)).imp fun _ past₃ t ht => ?_
          refine ⟨ht.1, (hgrown₁.trans hgrown₂).trans ht.2.1, hsame₁.trans ht.2.2.1, ?_⟩
          intro e' he' owner howner
          rcases List.mem_cons.mp he' with rfl | he'
          · obtain rfl : target = owner := Resolution.Reassign.inj (hres.symm.trans howner)
            simpa using hout
          · exact ht.2.2.2 e' he' owner howner

/-- The keys of the start are there. -/
structure KeysKept (v w : World) : Prop where
  next_uuid : v.next_uuid ≤ w.next_uuid
  keys : ∀ k ∈ v.keys, k ∈ w.keys

theorem KeysKept.grown {v w w' : World} (h : KeysKept v w) (hg : w.Grown w') : KeysKept v w' where
  next_uuid := h.next_uuid.trans hg.next_uuid
  keys k hk := hg.kept k (h.keys k hk)

theorem KeysKept.resolution {v w : World} (h : KeysKept v w) (e : OwnedEntity)
    (resolution : Resolution) : KeysKept v ((resolution_stmt e resolution).after w) := by
  have hframe := (resolution_stmt e resolution).frame w
  refine ⟨h.next_uuid.trans hframe.next_uuid, fun k hk => ?_⟩
  have hsame : (resolution_stmt e resolution).writes_keys = false := by
    unfold resolution_stmt
    split <;> rfl
  rw [hframe.keys hsame]
  exact h.keys k hk

/-- The loop settles everything, and touches no key. -/
theorem apply_resolutions_deleting {v : World} {doomed : List Uuid} {entries : List ResolutionEntry}
    (hout : ∀ e ∈ entries, ∀ owner, e.resolution = .Reassign owner → owner ∉ doomed)
    (inventory : List OwnedEntity) (h : Recorded n past s.toWorld) (hkept : KeysKept v s.toWorld)
    (howing : Owing past doomed inventory s.toWorld) (hfresh : ∀ a ∈ doomed, a < s.next_uuid) :
    Deleting n (fun _ past' t => Recorded n past' t.toWorld ∧ KeysKept v t.toWorld ∧
        SameSnapshot past past' ∧ Owing past' doomed [] t.toWorld ∧ ∀ a ∈ doomed, a < t.next_uuid)
      past (apply_resolutions entries inventory) s := by
  induction inventory generalizing past s with
  | nil =>
      exact fun t ht => ⟨h.grown ht.next_uuid, hkept.grown ht, .refl past, howing.grown h ht,
        fun a ha => (hfresh a ha).trans_le ht.next_uuid⟩
  | cons e rest ih =>
      unfold apply_resolutions
      refine deleting_okOr.bind fun resolution past₁ s₁ hresolution => ?_
      obtain ⟨rfl, hresolution, hgrown⟩ := hresolution
      have htarget : ∀ owner, resolution = .Reassign owner → owner ∉ doomed := by
        obtain ⟨entry, hentry, -, rfl⟩ := mem_of_resolution hresolution
        exact hout entry hentry
      have hlooks : (resolution_stmt e resolution).looks = false := by
        unfold resolution_stmt
        split <;> rfl
      refine Deleting.bind (Q := fun a past' t => Recorded n past' t.toWorld ∧ KeysKept v t.toWorld ∧
        SameSnapshot past past' ∧ Owing past' doomed rest t.toWorld ∧ ∀ a ∈ doomed, a < t.next_uuid)
        (deleting_exec fun m a hm ha hanswer t ht => ?_) fun _ past' s' h' => ?_
      · have hgrownm := hgrown.trans hm
        have hrec : Recorded n (past ++ [⟨resolution_stmt e resolution, .ok a⟩]) m.toWorld :=
          (h.grown hgrownm.next_uuid).append ha.1 hanswer
        have hnext := ((resolution_stmt e resolution).frame m.toWorld).next_uuid
        have hrec' := hrec.grown hnext
        have howing' := (((howing.grown h hgrownm).resolve htarget).of_same
          (.append hlooks (.ok a))).grown hrec' ht
        refine ⟨hrec'.grown ht.next_uuid, ((hkept.grown hgrownm).resolution e resolution).grown ht,
          .append hlooks _, howing', fun x hx => ?_⟩
        exact (hfresh x hx).trans_le ((hgrownm.next_uuid.trans hnext).trans ht.next_uuid)
      · obtain ⟨hrec, hkept', hsame, howing', hfresh'⟩ := h'
        exact (ih hrec hkept' howing' hfresh').imp fun _ past'' t ht =>
          ⟨ht.1, ht.2.1, hsame.trans ht.2.2.1, ht.2.2.2⟩

/-! ## The end of the deletion -/

/-- What is left when the doomed keys are gone. -/
structure Cleared (root : Uuid) (doomed : List Uuid) (v w : World) : Prop where
  start : root ∈ doomed
  descends : ∀ parent id, parent ∈ doomed → v.Parent parent id → id ∈ doomed
  gone : ∀ a ∈ doomed, w.Gone a
  childless : ∀ k ∈ w.keys, ∀ parent ∈ doomed, k.parent_key_id ≠ some parent
  ownerless : ∀ entity_type id, ∀ owner ∈ doomed, ¬ w.owns entity_type id owner
  others : ∀ k ∈ v.keys, k.id ∉ doomed → k ∈ w.keys

namespace Cleared

variable {root : Uuid} {doomed : List Uuid} {u w w' : World}

/-- Nobody creates for a key that is gone. -/
theorem grown (h : Cleared root doomed u w) (hg : w.Grown w') : Cleared root doomed u w' where
  start := h.start
  descends := h.descends
  gone a ha := hg.gone (h.gone a ha)
  childless k hk parent hparent hp := by
    rcases hg.keys k hk with hk | ⟨-, hlive⟩
    · exact h.childless k hk parent hparent hp
    · exact hlive parent hp (h.gone parent hparent)
  ownerless entity_type id owner ho howns := by
    rcases hg.owned entity_type id owner howns with howns | ⟨-, hlive⟩
    · exact h.ownerless entity_type id owner ho howns
    · exact hlive (h.gone owner ho)
  others k hk hout := hg.kept k (h.others k hk hout)

/-- **The deletion of the keys**, if the snapshot still holds. -/
theorem delete_keys (hwalk : Walked past root doomed []) (hs : Snapshot past doomed w)
    (howing : Owing past doomed [] w) (hkept : KeysKept u w) (hfresh : ∀ a ∈ doomed, a < w.next_uuid) :
    Cleared root doomed u ((Stmt.delete_keys doomed).after w) where
  start := hwalk.start
  descends parent id hparent hchild := by
    obtain ⟨k, hk, rfl, hp⟩ := hchild
    exact hwalk.closed_of_snapshot hs (hkept.keys k hk) hparent hp
  gone a ha := by
    refine ⟨hfresh a ha, Table.has_eq_false.mpr fun k hk hid => ?_⟩
    have hout := (Table.mem_filter.mp hk).2
    rw [hid] at hout
    simp [ha] at hout
  childless k hk parent hparent hp := by
    obtain ⟨hk, hout⟩ := Table.mem_filter.mp hk
    have hin := hwalk.closed_of_snapshot hs hk hparent hp
    simp [hin] at hout
  ownerless entity_type id owner ho howns := by
    have hbefore : w.owns entity_type id owner := by
      cases entity_type <;> exact howns
    have hrest := howing entity_type id owner ho hbefore (hs.entities entity_type id owner ho hbefore)
    exact List.not_mem_nil hrest
  others k hk hout := Table.mem_filter.mpr ⟨hkept.keys k hk, by simpa using hout⟩

end Cleared

/-- **The deletion.** -/
theorem delete_api_key_deleting (ctx : Ctx) (id : Uuid) (resolutions : List ResolutionEntry)
    (h : Recorded n past v.toWorld) :
    Deleting n (fun _ _ t => ∃ doomed, Cleared id doomed v.toWorld t.toWorld) past
      (delete_api_key ctx id resolutions) v := by
  refine deleting_require.bind fun _ past₁ s₁ h₁ => ?_
  obtain ⟨rfl, -, hg₁⟩ := h₁
  refine deleting_require.bind fun _ past₂ s₂ h₂ => ?_
  obtain ⟨rfl, -, hg₂⟩ := h₂
  refine (find_administrable_key_deleting _ _ (h.grown (hg₁.trans hg₂).next_uuid)).bind
    fun target past₃ s₃ h₃ => ?_
  obtain ⟨hrec₃, hg₃, hfresh₃⟩ := h₃
  refine deleting_ofExcept.bind fun _ past₄ s₄ h₄ => ?_
  obtain ⟨rfl, -, hg₄⟩ := h₄
  refine deleting_ofExcept.bind fun _ past₅ s₅ h₅ => ?_
  obtain ⟨rfl, -, hg₅⟩ := h₅
  -- Between any two statements the store may have grown. What the walk and the inventory have found is
  -- carried on as what the answers said (`Walked`, `Owing`), not as what holds of the store.
  have hstart := ((hg₁.trans hg₂).trans hg₃).trans (hg₄.trans hg₅)
  refine (collect_key_subtree_deleting (hrec₃.grown (hg₄.trans hg₅).next_uuid)
    (hfresh₃.trans_le (hg₄.trans hg₅).next_uuid)).bind fun doomed past₆ s₆ h₆ => ?_
  obtain ⟨hwalk, hrec₆, hg₆, hfresh₆⟩ := h₆
  refine deleting_require.bind fun _ past₇ s₇ h₇ => ?_
  obtain ⟨rfl, -, hg₇⟩ := h₇
  refine (inventory_deleting doomed (hrec₆.grown hg₇.next_uuid)).bind
    fun inventory past₈ s₈ h₈ => ?_
  obtain ⟨hrec₈, hg₈, hchildren, howing⟩ := h₈
  refine deleting_ofExcept.bind fun _ past₉ s₉ h₉ => ?_
  obtain ⟨rfl, -, hg₉⟩ := h₉
  refine (validate_targets_deleting doomed resolutions (hrec₈.grown hg₉.next_uuid)).bind
    fun _ past₁₀ s₁₀ h₁₀ => ?_
  obtain ⟨hrec₁₀, hg₁₀, hsame₁₀, hout⟩ := h₁₀
  have hgrown := ((hg₆.trans hg₇).trans hg₈).trans (hg₉.trans hg₁₀)
  have hkept : KeysKept v.toWorld s₁₀.toWorld :=
    ⟨(hstart.trans hgrown).next_uuid, (hstart.trans hgrown).kept⟩
  have howing₁₀ := (howing.grown hrec₈ (hg₉.trans hg₁₀)).of_same hsame₁₀
  have hfresh₁₀ : ∀ a ∈ doomed, a < s₁₀.next_uuid := fun a ha =>
    (hfresh₆ a ha).trans_le ((hg₇.trans hg₈).trans (hg₉.trans hg₁₀)).next_uuid
  refine (apply_resolutions_deleting hout inventory hrec₁₀ hkept howing₁₀ hfresh₁₀).bind
    fun _ past₁₁ s₁₁ h₁₁ => ?_
  obtain ⟨hrec₁₁, hkept₁₁, hsame₁₁, howing₁₁, hfresh₁₁⟩ := h₁₁
  have hwalk₁₁ : Walked past₁₁ id doomed [] :=
    ((hwalk.of_children hchildren).of_children hsame₁₀.children).of_children hsame₁₁.children
  refine Deleting.bind (Q := fun _ _ t => Cleared id doomed v.toWorld t.toWorld)
    (deleting_exec (l := .delete_keys doomed) fun m a hm ha _ t ht => ?_) fun rows past₁₂ s₁₂ h₁₂ => ?_
  · exact (Cleared.delete_keys hwalk₁₁ (ha.2 doomed rfl) (howing₁₁.grown hrec₁₁ hm)
      (hkept₁₁.grown hm) fun x hx => (hfresh₁₁ x hx).trans_le hm.next_uuid).grown ht
  refine deleting_require.bind fun _ past₁₃ s₁₃ h₁₃ => ?_
  obtain ⟨rfl, -, hg₁₃⟩ := h₁₃
  exact deleting_audit.bind fun _ past₁₄ s₁₄ h₁₄ t ht =>
    ⟨doomed, ((h₁₂.grown hg₁₃).grown h₁₄).grown ht⟩

/-! ## The requests that create -/

/-- The endpoints that create keys, groups and webhooks. -/
def Call.creates : Call → Bool
  | .create_api_key _ | .create_ip_group _ | .create_webhook _ | .handle_ban _ | .handle_white _
  | .batch_records _ => true
  | _ => false

/-- What such an endpoint can issue adds a row, if it writes keys, groups or webhooks at all. -/
theorem Call.adds {ctx : Ctx} {call : Call} (h : call.creates = true) :
    (call.handler ctx).Issues fun l : Stmt => l.adds = true := by
  refine call.within.mono fun l hl => ?_
  cases call with
  | create_api_key | create_ip_group | create_webhook | handle_ban | handle_white | batch_records =>
      cases l <;> first | rfl | cases hl
  | _ => cases h

/-! ## Runs -/

/-- Nobody is left of the subtree, and none of its keys owns anything. The lineage is that of the keys
before the deletion and after it. -/
structure NoSurvivors (root : Uuid) (v w : World) : Prop where
  keys : ∀ id, Relation.ReflTransGen (fun parent child => v.Parent parent child ∨ w.Parent parent child)
    root id → w.keys.has id = false
  owners : ∀ entity_type id owner, w.owns entity_type id owner → v.keys.has owner = true →
    w.keys.has owner = true

theorem Cleared.none_refer {root : Uuid} {doomed : List Uuid} {v w : World}
    (h : Cleared root doomed v w) : NoSurvivors root v w where
  keys id hid := by
    have hdoomed : id ∈ doomed := by
      induction hid with
      | refl => exact h.start
      | tail _ hchild ih =>
          rcases hchild with hchild | ⟨k, hk, -, hp⟩
          · exact h.descends _ _ ih hchild
          · exact absurd hp (h.childless k hk _ ih)
    exact (h.gone id hdoomed).2
  owners entity_type id owner howns hlive := by
    obtain ⟨k, hk, rfl⟩ := Table.has_iff.mp hlive
    by_cases hdoomed : k.id ∈ doomed
    · exact absurd howns (h.ownerless entity_type id k.id hdoomed)
    · exact Table.has_iff.mpr ⟨k, h.others k hk hdoomed, rfl⟩

section Runs

variable {τ : Type} [DecidableEq τ]

/-- The deletion deletes the keys while its snapshot still holds, and nobody else creates for a key that
is not in the table. -/
def Undisturbed (deletion : τ) (turn : Turn τ Int) (P : Requests τ) : Prop :=
  ∀ i l past, turn = .of i → P.issues i l past →
    (i = deletion → ∀ ids, l = .delete_keys ids → Snapshot past ids P.store.toWorld) ∧
    (i ≠ deletion → ∀ key, l.named_key P.store.toWorld = some key → P.store.keys.has key = true)

/-- **No survivors.** In every schedule of the deletion of a key and any number of requests that create, in
which every turn is undisturbed, nobody is left of the subtree once the deletion has succeeded, and no
group or webhook belongs to a deleted key. -/
theorem no_survivors (requests : τ → Authenticated) (deletion : τ) (id : Uuid)
    (resolutions : List ResolutionEntry) (v : Vault) (schedule : List (Turn τ Int))
    (hdeletion : (requests deletion).call = .delete_api_key id resolutions)
    (hothers : ∀ i, i ≠ deletion → (requests i).call.creates = true)
    (h : Along (statement schedule.length) (Undisturbed deletion) schedule (serving requests v))
    {r : Response × Past Db}
    (hdone : (final (statement schedule.length) schedule (serving requests v)).thread deletion = .ret r) :
    NoSurvivors id v.toWorld
      (final (statement schedule.length) schedule (serving requests v)).store.toWorld := by
  -- The deletion relies on stores that only grow, and the other requests guarantee it: all they issue
  -- are statements that add.
  have start : (serving requests v).Among (concurrent_database schedule.length).recalling
      (fun i s t => i = deletion → s.toWorld.Grown t.toWorld)
      (fun i o t => i = deletion → Assumed schedule.length o t)
      (fun i o _ => i ≠ deletion → o.1.adds = true)
      (fun i _ t => i = deletion → ∃ doomed, Cleared id doomed v.toWorld t.toWorld)
      (fun _ _ _ => True) := by
    intro i
    by_cases hi : i = deletion
    · have hrec : Recorded schedule.length [] v.toWorld :=
        ⟨Nat.zero_le _, fun entity_type id hl => by
          cases entity_type <;> obtain ⟨rows, hsaw, -⟩ := hl <;> exact absurd hsaw List.not_mem_nil⟩
      have hjudged := delete_api_key_deleting (requests deletion).ctx id resolutions hrec
      show Prog.Among _ _ _ _ _ _ (((requests i).call.handler (requests i).ctx).recalling []) v
      rw [hi, hdeletion]
      exact ((hjudged.under fun _ _ hR => hR rfl).assuming fun _ _ hA => hA rfl).mono
        (fun _ _ _ hne => absurd rfl hne) (fun _ _ hQ _ => hQ) fun _ _ _ => trivial
    · have hjudged : Prog.Recalls (concurrent_database schedule.length)
          (fun s t => i = deletion → s.toWorld.Grown t.toWorld)
          (fun o t => i = deletion → Assumed schedule.length o t) (fun o _ => o.1.adds = true)
          (fun _ past' _ => [] <+: past') (fun _ _ => True) []
          ((requests i).call.handler (requests i).ctx) v :=
        Prog.Issues.recalls (Call.adds (hothers i hi)) (fun _ _ _ hl => hl) [] v
      exact Prog.Among.mono hjudged (fun _ _ hg _ => hg) (fun _ _ _ hd => absurd hd hi)
        fun _ _ _ => trivial
  have fair : Along (statement schedule.length) (fun w P => Pool.Fair
      (concurrent_database schedule.length).recalling purge_outside
      (fun i s t => i = deletion → s.toWorld.Grown t.toWorld)
      (fun i o t => i = deletion → Assumed schedule.length o t)
      (fun i o _ => i ≠ deletion → o.1.adds = true) w P) schedule (serving requests v) := by
    -- A program remembers one operation for each of its turns at most, so that the identifiers it
    -- has seen lie below those a statement of this schedule can draw.
    have short : Along (statement schedule.length) (fun _ P => ∀ i o, P.pending i = some o →
        o.2.length < 0 + schedule.length) schedule (serving requests v) :=
      Along.remembers fun i => ⟨_, [], rfl, le_rfl⟩
    refine (h.and short).mono fun w P hw => ?_
    obtain ⟨hundisturbed, hshort⟩ := hw
    cases w with
    | outside threshold => exact fun i _ => Stmt.purge_grown threshold P.store.toWorld
    | of i =>
        intro o ho
        obtain ⟨hsnapshot, hlive⟩ := hundisturbed i o.1 o.2 rfl ho
        have hlt := hshort i o ho
        refine ⟨fun hi => ⟨by omega, hsnapshot hi⟩, fun hadds j hj hdel => ?_⟩
        have hi : i ≠ deletion := fun hi => hj (hdel.trans hi.symm)
        exact Stmt.grown (hadds hi) (hlive hi)
  have judged := fair.among (fun i s _ => .refl s.toWorld)
    (fun i _ _ _ h h' hi => (h hi).trans (h' hi)) start
  obtain ⟨doomed, hcleared⟩ := judged.ended (fun i s _ => .refl s.toWorld) hdone rfl
  exact hcleared.none_refer

end Runs

/-- The master deletes the key 1, which creates a key in the meantime. -/
def deletion_and_creation : Client → Authenticated
  | .first => .sample { ApiKey.sample 0 with key_hash := "m", is_master := true } (.delete_api_key 1 [])
  | .second =>
      .sample { ApiKey.sample 1 with key_hash := "k", can_manage_keys := true } (.create_api_key { name := "probe" })

/-- The key 1 manages keys. -/
def Vault.managed : Vault :=
  .build 8
    [.insert_key { ApiKey.sample 0 with key_hash := "m", is_master := true },
      .insert_key { ApiKey.sample 1 with key_hash := "k", can_manage_keys := true }]

/-- The walk is over when the key 1 creates its child. -/
def created_after_walk : List (Turn Client Int) :=
  [.of .first, .of .first, .of .first, .of .second, .of .first, .of .first, .of .first, .of .first, .of .first, .of .second]

/-- The child survives. -/
theorem survivor_of_subtree :
    ¬ ∀ (τ : Type) [DecidableEq τ] (requests : τ → Authenticated) (deletion : τ) (id : Uuid)
      (resolutions : List ResolutionEntry) (v : Vault) (schedule : List (Turn τ Int))
      (r : Response × Past Db),
      (requests deletion).call = .delete_api_key id resolutions →
      (∀ i, i ≠ deletion → (requests i).call.creates = true ∧
        v.Descends id (requests i).ctx.key.id) →
      (∀ i, (final (statement schedule.length) schedule (serving requests v)).pending i = none) →
      (final (statement schedule.length) schedule (serving requests v)).thread deletion = .ret r →
      NoSurvivors id v.toWorld
        (final (statement schedule.length) schedule (serving requests v)).store.toWorld := by
  intro all
  have h := all Client deletion_and_creation .first 1 [] .managed created_after_walk _ rfl ?_ ?_ rfl
  · have hchild : (final (statement created_after_walk.length) created_after_walk
        (serving deletion_and_creation .managed)).store.Parent 1 2 :=
      ⟨_, List.mem_cons_of_mem _ List.mem_cons_self, rfl, rfl⟩
    have hgone := h.keys 2 (.single (.inr hchild))
    exact absurd hgone (by decide)
  · intro i hi
    match i with
    | .first => exact absurd rfl hi
    | .second => exact ⟨rfl, .refl⟩
  · intro i
    match i with
    | .first => rfl
    | .second => rfl

/-- The key 1 creates its child before the walk. -/
def created_before_walk : List (Turn Client Int) :=
  [.of .second, .of .second, .of .first, .of .first, .of .first, .of .first, .of .first, .of .first, .of .first, .of .first, .of .first]

theorem undisturbed_before_walk :
    Along (statement created_before_walk.length) (Undisturbed .first) created_before_walk
      (serving deletion_and_creation .managed) := by
  refine ⟨?_, ?_, ?_, ?_, ?_, ?_, ?_, ?_, ?_, ?_, ?_, trivial⟩
  all_goals
    intro i l past hw hp
    cases hw
    cases hp
  · refine ⟨fun h => absurd h (by decide), fun _ key hkey => ?_⟩
    obtain rfl : 1 = key := Option.some.inj hkey
    decide
  · exact ⟨fun h => absurd h (by decide), fun _ key hkey => (by cases hkey)⟩
  · exact ⟨fun _ ids h => (by cases h), fun h => absurd rfl h⟩
  · exact ⟨fun _ ids h => (by cases h), fun h => absurd rfl h⟩
  · exact ⟨fun _ ids h => (by cases h), fun h => absurd rfl h⟩
  · exact ⟨fun _ ids h => (by cases h), fun h => absurd rfl h⟩
  · exact ⟨fun _ ids h => (by cases h), fun h => absurd rfl h⟩
  · exact ⟨fun _ ids h => (by cases h), fun h => absurd rfl h⟩
  · exact ⟨fun _ ids h => (by cases h), fun h => absurd rfl h⟩
  · refine ⟨fun _ ids h => ?_, fun h => absurd rfl h⟩
    cases h
    refine ⟨fun k hk parent hparent hp => ?_, fun entity_type id owner _ howns => ?_⟩
    · rcases List.mem_cons.mp hparent with rfl | hparent
      · exact ⟨_, rfl, List.mem_filter.mpr ⟨hk, by rw [hp]; rfl⟩⟩
      · obtain rfl := List.mem_singleton.mp hparent
        have none_below : ∀ k ∈ (final (statement created_before_walk.length)
            (created_before_walk.take 9) (serving deletion_and_creation .managed)).store.keys.rows,
            k.parent_key_id ≠ some 2 := by decide
        exact absurd hp (none_below k hk)
    · cases entity_type with
      | group =>
          obtain ⟨g, hg, -⟩ := howns
          exact absurd hg List.not_mem_nil
      | webhook =>
          obtain ⟨g, hg, -⟩ := howns
          exact absurd hg List.not_mem_nil
  · exact ⟨fun _ ids h => (by cases h), fun h => absurd rfl h⟩

/-- Nobody is left. -/
theorem no_survivors_before_walk :
    NoSurvivors 1 Vault.managed.toWorld (final (statement created_before_walk.length)
      created_before_walk (serving deletion_and_creation .managed)).store.toWorld := by
  refine no_survivors deletion_and_creation .first 1 [] .managed created_before_walk rfl ?_
    undisturbed_before_walk rfl
  intro i hi
  match i with
  | .first => exact absurd rfl hi
  | .second => rfl

end IpVault
