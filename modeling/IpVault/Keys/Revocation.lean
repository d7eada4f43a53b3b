import IpVault.Access.Concurrent
import IpVault.Access.NonAmplification

set_option autoImplicit false

/-! # Revocations and stale reads

`update_api_key` and `update_key_group_permissions` read what a key holds, let pass what is held
already, and then write the whole value. A revocation that falls between the read and the write is
undone by the write, although the requester could not have granted what was revoked. `NoRegrant` is the
rule, as a relation between the stores before and after a turn; `Unrevoked` says of a turn that no
such revocation has come before it.
-/

namespace IpVault

open Lib

/-! ## The rule -/

/-- What an `UPDATE` of a key sets a scope to. -/
def Txn.KeyChange.sets (c : Txn.KeyChange) : Scope → Option Bool
  | .can_manage_keys => c.can_manage_keys
  | .can_create_groups => c.can_create_groups
  | .can_manage_webhooks => c.can_manage_webhooks

/-- The two requests that hand out what is held already. -/
def Call.adjusts : Call → Bool
  | .update_api_key _ _ | .update_key_group_permissions _ _ => true
  | _ => false

/-- A request of a key that is not the master, to one of the two endpoints. -/
def Authenticated.adjusts (r : Authenticated) : Prop :=
  r.ctx.key.is_master = false ∧ r.call.adjusts = true

instance (r : Authenticated) : Decidable r.adjusts := inferInstanceAs (Decidable (_ ∧ _))

/-- Nothing is granted from one store to the next that the requester does not hold: each scope of a key
and each verb of a permission row was there before, or the requester has it in its own row. -/
structure NoRegrant (requester : Uuid) (w w' : World) : Prop where
  scopes : ∀ k' ∈ w'.keys, ∀ scope, k'.holds scope = true →
    (∃ k ∈ w.keys, k.id = k'.id ∧ k.holds scope = true) ∨
      ∃ own ∈ w.keys, own.id = requester ∧ own.holds scope = true
  verbs : ∀ p' ∈ w'.permissions, ∀ verb, p'.grants verb = true →
    (∃ p ∈ w.permissions, p.key = p'.key ∧ p.grants verb = true) ∨
      ∃ own ∈ w.permissions, own.key = (requester, p'.group_id) ∧ own.grants verb = true

/-- What a request is about to write, and has read that it is held, is held still. -/
def Unrevoked (past : Past Db) : Stmt → World → Prop
  | .update_key id c, w => ∀ scope, c.sets scope = some true →
      ∀ k, Saw past (.key_by_id id) (some k) → k.holds scope = true →
        ∃ k' ∈ w.keys, k'.id = id ∧ k'.holds scope = true
  | .upsert_permission p, w => ∀ verb, p.grants verb = true →
      ∀ key_id held, Saw past (.permission key_id p.group_id) (some held) →
        held.grants verb = true →
          ∃ held' ∈ w.permissions, held'.key = (key_id, p.group_id) ∧ held'.grants verb = true
  | _, _ => True

/-! ## One statement -/

namespace NoRegrant

variable {requester : Uuid} {w w' : World}

theorem of_eq (hk : w'.keys = w.keys) (hp : w'.permissions = w.permissions) :
    NoRegrant requester w w' where
  scopes k' hk' _ h := .inl ⟨k', hk ▸ hk', rfl, h⟩
  verbs p' hp' _ h := .inl ⟨p', hp ▸ hp', rfl, h⟩

/-- A statement that writes neither table. -/
theorem of_frame (l : Stmt) (hk : l.writes_keys = false) (hp : l.writes_permissions = false) :
    NoRegrant requester w (l.after w) :=
  of_eq ((l.frame w).keys hk) ((l.frame w).permissions hp)

/-- A scope of an updated row is one the update sets, or an old one. -/
theorem holds_apply {c : Txn.KeyChange} {k : ApiKey} {scope : Scope}
    (h : (c.apply k).holds scope = true) : c.sets scope = some true ∨ k.holds scope = true := by
  have hcases : (c.sets scope).getD (k.holds scope) = true := by
    cases scope <;> exact h
  cases hset : c.sets scope with
  | none =>
      rw [hset] at hcases
      exact .inr hcases
  | some b =>
      rw [hset] at hcases
      exact .inl (congrArg some hcases)

/-- An update of a key, if each scope it sets is one the row it meets has. -/
theorem update_key {id : Uuid} {c : Txn.KeyChange}
    (h : ∀ scope, c.sets scope = some true → ∃ k ∈ w.keys, k.id = id ∧ k.holds scope = true) :
    NoRegrant requester w ((Stmt.update_key id c).after w) where
  scopes k' hk' scope hs := by
    rcases Stmt.mem_keys_after hk' with hk | ⟨k₀, hl, -⟩ | ⟨id', c', k₀, hl, hk₀, hid, rfl⟩
    · exact .inl ⟨k', hk, rfl, hs⟩
    · cases hl
    · cases hl
      rcases holds_apply hs with hset | hold
      · obtain ⟨k, hk, hkid, hheld⟩ := h scope hset
        exact .inl ⟨k, hk, hkid.trans hid.symm, hheld⟩
      · exact .inl ⟨k₀, hk₀, rfl, hold⟩
  verbs p' hp' _ hv := by
    rw [((Stmt.update_key id c).frame w).permissions rfl] at hp'
    exact .inl ⟨p', hp', rfl, hv⟩

/-- A permission row, if each verb it grants is one the row it meets has, or the requester. -/
theorem upsert_permission {p : GroupPermission}
    (h : ∀ verb, p.grants verb = true → ∃ held ∈ w.permissions, held.grants verb = true ∧
      (held.key = p.key ∨ held.key = (requester, p.group_id))) :
    NoRegrant requester w ((Stmt.upsert_permission p).after w) where
  scopes k' hk' _ hs := by
    rw [((Stmt.upsert_permission p).frame w).keys rfl] at hk'
    exact .inl ⟨k', hk', rfl, hs⟩
  verbs p' hp' verb hv := by
    have hrow : p' ∈ w.permissions ∨ (p'.key = p.key ∧ p.grants verb = true) := by
      rcases Stmt.mem_permissions_after hp' with hp | hl | hl | ⟨q, hl, rfl | ⟨p₀, -, hkey, rfl⟩⟩
      · exact .inl hp
      · cases hl
      · cases hl
      · cases hl
        exact .inr ⟨rfl, hv⟩
      · cases hl
        exact .inr ⟨hkey, by cases verb <;> exact hv⟩
    rcases hrow with hp | ⟨hkey, hgrant⟩
    · exact .inl ⟨p', hp, rfl, hv⟩
    · obtain ⟨held, hheld, hg, hwho⟩ := h verb hgrant
      have hgroup : p'.group_id = p.group_id := (Prod.mk.inj hkey).2
      rcases hwho with e | e
      · exact .inl ⟨held, hheld, e.trans hkey.symm, hg⟩
      · exact .inr ⟨held, hheld, by rw [hgroup, e], hg⟩

end NoRegrant

/-! ## The two requests

Each is judged on its own: whatever the others do, if what it has read is not revoked when it writes, its
statement grants nothing. -/

section Judgement

variable {rounds : Nat} {ctx : Ctx} {past : Past Db} {s : Vault} {α β : Type}

/-- The judgement of a request, with what it has read when it ends. -/
abbrev Watched (rounds : Nat) (ctx : Ctx) (Q : α → Past Db → Prop) (past : Past Db)
    (p : Handler α) (s : Vault) : Prop :=
  Prog.Recalls (concurrent_database rounds) (fun _ _ => True)
    (fun o t => Unrevoked o.2 o.1 t.toWorld)
    (fun o t => NoRegrant ctx.key.id t.toWorld (t.after o.1).toWorld)
    (fun a past' _ => Q a past') (fun _ _ => True) past p s

theorem Watched.bind {Q : β → Past Db → Prop} {Q' : α → Past Db → Prop} {p : Handler β}
    {f : β → Handler α} (h : Watched rounds ctx Q past p s)
    (hf : ∀ b past' t, Q b past' → Watched rounds ctx Q' past' (f b) t) :
    Watched rounds ctx Q' past (p >>= f) s :=
  Prog.Recalls.bind (fun _ => trivial) (h.mono (fun _ _ hg => hg) hf fun _ _ he => he)

theorem Watched.imp {Q Q' : α → Past Db → Prop} {p : Handler α} (h : Watched rounds ctx Q past p s)
    (hQ : ∀ a past', Q a past' → Q' a past') : Watched rounds ctx Q' past p s :=
  h.mono (fun _ _ hg => hg) (fun a past' _ => hQ a past') fun _ _ he => he

/-- A reader. -/
theorem watched_reads {p : Handler α} (hp : OnlyReads p) :
    Watched rounds ctx (fun _ past' => past <+: past') past p s :=
  recalls_reads hp fun _ _ _ => .of_eq rfl rfl

/-- One query. -/
theorem watched_select {q : Query} :
    Watched rounds ctx (fun a past' => past <+: past' ∧ Saw past' q a) past (select q) s :=
  recalls_select (fun _ => trivial) (fun _ _ _ _ _ => trivial) (fun _ _ => .of_eq rfl rfl)
    (fun _ a _ _ _ => ⟨List.prefix_append _ _, saw_append past q a⟩) fun _ _ _ _ _ h => h

theorem watched_require {c : Prop} [Decidable c] {e : AppError} :
    Watched rounds ctx (fun _ past' => past = past' ∧ c) past (Prog.require c e) s :=
  .require (fun hc _ _ => ⟨rfl, hc⟩) fun _ _ _ => trivial

theorem watched_ofExcept {x : Except AppError α} :
    Watched rounds ctx (fun a past' => past = past' ∧ x = .ok a) past (Prog.ofExcept x) s :=
  .ofExcept (fun _ hx _ _ => ⟨rfl, hx⟩) fun _ _ _ _ => trivial

theorem watched_okOr {x : Option α} {e : AppError} :
    Watched rounds ctx (fun a past' => past = past' ∧ x = some a) past (Prog.okOr e x) s :=
  .okOr (fun _ hx _ _ => ⟨rfl, hx⟩) fun _ _ _ => trivial

/-- One statement, which grants nothing if what was read is not revoked. -/
theorem watched_exec {l : Stmt} (h : ∀ t : Vault, Unrevoked past l t.toWorld →
      NoRegrant ctx.key.id t.toWorld (l.after t.toWorld)) :
    Watched rounds ctx (fun _ past' => past <+: past') past (exec l) s :=
  recalls_exec (fun _ => trivial) (fun _ _ _ _ _ => trivial) (fun t _ ha => h t ha)
    (fun _ _ _ _ _ _ _ => List.prefix_append _ _) fun _ _ _ _ _ _ => trivial

/-- The end of both requests: an audit row, and only reads from there. -/
theorem watched_audit_then {action : String} {target_address group_names details : Option String}
    {p : Handler α} (hp : OnlyReads p) :
    Watched rounds ctx (fun _ _ => True) past
      (create_audit_log ctx action target_address group_names details >>= fun _ => p) s :=
  (watched_exec fun _ _ => .of_frame _ rfl rfl).bind fun _ _ _ _ =>
    (watched_reads hp).imp fun _ _ _ => trivial

/-- The row the guards of `update_api_key` look at is one the request has read. -/
theorem find_administrable_key_watched (caller : ApiKey) (target : Uuid) :
    Watched rounds ctx (fun k past' => Saw past' (.key_by_id target) (some k)) past
      (find_administrable_key caller target) s := by
  refine watched_select.bind fun found past₁ _ hfound => ?_
  refine watched_okOr.bind fun k past₂ _ hk => ?_
  obtain ⟨rfl, rfl⟩ := hk
  refine (watched_reads (caller_can_administer_key_only_reads _ _)).bind fun may past₃ _ hreads => ?_
  refine watched_require.bind fun _ past₄ _ hmay => ?_
  obtain ⟨rfl, -⟩ := hmay
  exact fun _ _ => hfound.2.of_extends hreads

/-- `update_api_key`: each scope it sets is one it has read that the key holds. -/
theorem update_api_key_watched (id : Uuid) (payload : UpdateApiKeyPayload)
    (hm : ctx.key.is_master = false) :
    Watched rounds ctx (fun _ _ => True) past (update_api_key ctx id payload) s := by
  refine watched_require.bind fun _ past₁ _ _ => ?_
  refine (find_administrable_key_watched ctx.key id).bind fun target past₂ _ hsaw => ?_
  refine watched_ofExcept.bind fun _ past₃ _ hmaster => ?_
  refine watched_ofExcept.bind fun _ past₄ _ hupdate => ?_
  refine watched_ofExcept.bind fun _ past₅ _ hscope => ?_
  refine watched_ofExcept.bind fun _ past₆ _ hbound => ?_
  obtain ⟨rfl, -⟩ := hmaster
  obtain ⟨rfl, -⟩ := hupdate
  obtain ⟨rfl, hguard⟩ := hscope
  obtain ⟨rfl, -⟩ := hbound
  have hheld : ∀ scope, (payload.change ctx.now).sets scope = some true →
      target.holds scope = true := by
    obtain ⟨hkeys, hgroups, hwebhooks⟩ := guard_scope_elevation_ok hguard hm
    intro scope hset
    cases scope with
    | can_manage_keys => exact hkeys hset
    | can_create_groups => exact hgroups hset
    | can_manage_webhooks => exact hwebhooks hset
  have hwrite : ∀ t : Vault, Unrevoked past₂ (.update_key id (payload.change ctx.now)) t.toWorld →
      NoRegrant ctx.key.id t.toWorld ((Stmt.update_key id (payload.change ctx.now)).after t.toWorld) :=
    fun t ht => .update_key fun scope hset => ht scope hset target hsaw (hheld scope hset)
  refine (watched_exec hwrite).bind fun updated _ _ _ => ?_
  exact watched_audit_then (.bind (full_api_key_summary_only_reads _) fun _ => trivial)

/-- The group of a permission request, which may be created, with no row on it for anybody. -/
theorem permission_group_watched (payload : GroupPermInput) :
    Watched rounds ctx (fun _ past' => past <+: past') past (permission_group ctx payload) s := by
  refine (watched_reads (resolve_group_ref_flexible_only_reads _ _ _)).bind fun found past₁ _ hpast => ?_
  split
  · exact fun _ _ => hpast
  · refine watched_require.bind fun _ past₂ _ hcreate => ?_
    obtain ⟨rfl, -⟩ := hcreate
    refine (watched_exec fun _ _ => .of_frame _ rfl rfl).bind fun _ past₃ _ hinsert => ?_
    refine watched_select.bind fun row past₄ _ hselect => ?_
    refine watched_okOr.imp fun g past₅ hg => ?_
    obtain ⟨rfl, -⟩ := hg
    exact (hpast.trans hinsert).trans hselect.1
  · exact fun _ _ => trivial

/-- `update_key_group_permissions`: each verb it grants is one it has read that the target or the
requester has. -/
theorem update_key_group_permissions_watched (id : Uuid) (payload : GroupPermInput)
    (hm : ctx.key.is_master = false) :
    Watched rounds ctx (fun _ _ => True) past (update_key_group_permissions ctx id payload) s := by
  refine (watched_reads (guard_may_administer_any_group_only_reads _)).bind fun _ past₁ _ _ => ?_
  refine watched_select.bind fun found past₂ _ _ => ?_
  refine watched_okOr.bind fun target past₃ _ _ => ?_
  refine watched_require.bind fun _ past₄ _ _ => ?_
  refine watched_require.bind fun _ past₅ _ _ => ?_
  refine (permission_group_watched payload).bind fun group past₆ _ _ => ?_
  refine watched_select.bind fun caller_perm past₇ _ hcaller => ?_
  refine watched_select.bind fun target_perm past₈ _ htarget => ?_
  refine watched_ofExcept.bind fun _ past₉ _ hguard => ?_
  obtain ⟨rfl, hguard⟩ := hguard
  have hown : Saw past₈ (.permission ctx.key.id group.id) caller_perm :=
    hcaller.2.of_extends htarget.1
  have hwrite : ∀ t : Vault,
      Unrevoked past₈ (.upsert_permission (payload.row id group.id ctx.now)) t.toWorld →
        NoRegrant ctx.key.id t.toWorld
          ((Stmt.upsert_permission (payload.row id group.id ctx.now)).after t.toWorld) := by
    intro t ht
    refine .upsert_permission fun verb hverb => ?_
    have hpayload : payload.grants verb = true := by
      cases verb <;> exact hverb
    obtain ⟨held, hread, hheld⟩ := grants_of_guard hm hguard hpayload
    rcases hread with hread | hread
    · obtain ⟨held', hmem, hkey, hstill⟩ := ht verb hverb id held (hread ▸ htarget.2) hheld
      exact ⟨held', hmem, hstill, .inl hkey⟩
    · obtain ⟨held', hmem, hkey, hstill⟩ := ht verb hverb ctx.key.id held (hread ▸ hown) hheld
      exact ⟨held', hmem, hstill, .inr hkey⟩
  exact (watched_exec hwrite).bind fun _ _ _ _ => watched_audit_then trivial

end Judgement

/-! ## Runs -/

section Runs

variable {τ : Type} [DecidableEq τ]

/-- No revocation lies between what the request whose turn it is has read and what it is about to
write. -/
def TurnUnrevoked (requests : τ → Authenticated) (turn : Turn τ Int) (P : Requests τ) : Prop :=
  ∀ i l past, turn = .of i → (requests i).adjusts → P.issues i l past →
    Unrevoked past l P.store.toWorld

/-- The turn grants nothing that its request does not hold. -/
def TurnRegrantsNothing (rounds : Nat) (requests : τ → Authenticated) (turn : Turn τ Int)
    (P : Requests τ) : Prop :=
  ∀ i, turn = .of i → (requests i).adjusts →
    NoRegrant (requests i).ctx.key.id P.store.toWorld (statement rounds turn P).2.store.toWorld

theorem Authenticated.watched {rounds : Nat} {r : Authenticated} (h : r.adjusts) (s : Vault) :
    Watched rounds r.ctx (fun _ _ => True) [] (r.call.handler r.ctx) s := by
  obtain ⟨hm, hcall⟩ := h
  revert hcall
  cases r.call with
  | update_api_key id payload => exact fun _ => update_api_key_watched id payload hm
  | update_key_group_permissions id payload =>
      exact fun _ => update_key_group_permissions_watched id payload hm
  | _ => exact fun h => by cases h

/-- **Revocations stand.** In every schedule of any number of requests and purges in which no turn of an
adjusting request comes after a revocation of what it has read and is about to write, no turn of such a
request grants what the requester does not hold. -/
theorem revocations_stand (rounds : Nat) (requests : τ → Authenticated) (v : Vault)
    (schedule : List (Turn τ Int))
    (h : Along (statement rounds) (TurnUnrevoked requests) schedule (serving requests v)) :
    Along (statement rounds) (TurnRegrantsNothing rounds requests) schedule (serving requests v) := by
  have start : (serving requests v).Among (concurrent_database rounds).recalling
      (fun _ _ _ => True) (fun i o t => (requests i).adjusts → Unrevoked o.2 o.1 t.toWorld)
      (fun i o t => (requests i).adjusts →
        NoRegrant (requests i).ctx.key.id t.toWorld (t.after o.1).toWorld)
      (fun _ _ _ => True) (fun _ _ _ => True) := by
    intro i
    by_cases hi : (requests i).adjusts
    · exact (Prog.Among.mono (Authenticated.watched hi v) (fun _ _ hg _ => hg) (fun _ _ _ => trivial)
        fun _ _ _ => trivial).assuming fun _ _ ha => ha hi
    · exact .of_guarantee (fun _ _ h => absurd h hi) (fun _ _ => trivial) fun _ _ => trivial
  have fair : Along (statement rounds) (fun w P => Pool.Fair (concurrent_database rounds).recalling
      purge_outside (fun _ _ _ => True) (fun i o t => (requests i).adjusts →
        Unrevoked o.2 o.1 t.toWorld) (fun i o t => (requests i).adjusts →
        NoRegrant (requests i).ctx.key.id t.toWorld (t.after o.1).toWorld) w P) schedule
      (serving requests v) := by
    refine h.mono fun w P hw => ?_
    cases w with
    | outside threshold => exact fun _ => trivial
    | of i => exact fun o ho => ⟨fun hi => hw i o.1 o.2 rfl hi ho, fun _ _ _ => trivial⟩
  refine (fair.guaranteed (fun _ _ => trivial) (fun _ _ _ _ _ _ => trivial) start).mono ?_
  rintro w P ⟨-, hguaranteed⟩ i rfl hi
  cases hp : P.pending i with
  | none => exact .of_eq (by rw [statement_idle hp]) (by rw [statement_idle hp])
  | some o =>
      rw [statement_store hp]
      exact hguaranteed i o rfl hp hi

end Runs

/-- The master is key 0; key 1 manages keys and creates groups. -/
def Vault.delegated : Vault :=
  .build 8
    [.insert_key { ApiKey.sample 0 with key_hash := "m", is_master := true },
      .insert_key { ApiKey.sample 1 with can_manage_keys := true, can_create_groups := true }]

/-- Key 1 resubmits its form, while the master takes a scope from it. -/
def resubmission_and_revocation : Client → Authenticated
  | .first => .sample { ApiKey.sample 1 with can_manage_keys := true, can_create_groups := true }
      (.update_api_key 1 { can_create_groups := some true })
  | .second => .sample { ApiKey.sample 0 with key_hash := "m", is_master := true }
      (.update_api_key 1 { can_create_groups := some false })

/-- The master is through between the last read of key 1 and its write. -/
def revoked_meanwhile : List (Turn Client Int) :=
  [.of .first, .of .first, .of .first, .of .second, .of .second, .of .first]

/-- The scope is back. -/
theorem revocation_undone :
    ¬ ∀ (τ : Type) [DecidableEq τ] (rounds : Nat) (requests : τ → Authenticated) (v : Vault)
      (schedule : List (Turn τ Int)),
      Along (statement rounds) (TurnRegrantsNothing rounds requests) schedule
        (serving requests v) := by
  intro all
  have h := (all Client 1 resubmission_and_revocation .delegated revoked_meanwhile).2.2.2.2.2.1
    .first rfl (by decide)
  have before : ∀ k ∈ (final (statement 1) (revoked_meanwhile.take 5)
      (serving resubmission_and_revocation .delegated)).store.keys.rows,
      k.holds .can_create_groups = false := by decide
  have after : ∃ k ∈ (final (statement 1) revoked_meanwhile
      (serving resubmission_and_revocation .delegated)).store.keys.rows,
      k.holds .can_create_groups = true := by decide
  obtain ⟨k', hk', hholds⟩ := after
  rcases h.scopes k' hk' .can_create_groups hholds with ⟨k, hk, -, hk'⟩ | ⟨k, hk, -, hk'⟩
  · rw [before k hk] at hk'
    cases hk'
  · rw [before k hk] at hk'
    cases hk'


/-- The master comes after the write. -/
def revoked_afterwards : List (Turn Client Int) :=
  [.of .first, .of .first, .of .first, .of .first, .of .second, .of .second]

theorem unrevoked_afterwards : Along (statement 1) (TurnUnrevoked resubmission_and_revocation)
    revoked_afterwards (serving resubmission_and_revocation .delegated) := by
  refine ⟨?_, ?_, ?_, ?_, ?_, ?_, trivial⟩
  all_goals
    intro i l past hw hadjusts hp
    cases hw
  · cases hp
    trivial
  · cases hp
    trivial
  · cases hp
    trivial
  · cases hp
    intro scope hset k _ _
    have hrow : ∃ k ∈ (Vault.delegated).keys.rows, k.id = 1 ∧ k.holds .can_create_groups = true := by
      decide
    cases scope with
    | can_create_groups => exact hrow
    | can_manage_keys => cases hset
    | can_manage_webhooks => cases hset
  · exact absurd hadjusts (by decide)
  · exact absurd hadjusts (by decide)

theorem revocation_stands_afterwards :
    (∀ k ∈ (final (statement 1) revoked_afterwards
        (serving resubmission_and_revocation .delegated)).store.keys.rows,
        k.holds .can_create_groups = false) ∧
      Along (statement 1) (TurnRegrantsNothing 1 resubmission_and_revocation) revoked_afterwards
        (serving resubmission_and_revocation .delegated) :=
  ⟨by decide, revocations_stand 1 resubmission_and_revocation .delegated revoked_afterwards
    unrevoked_afterwards⟩

end IpVault
