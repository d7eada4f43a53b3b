import IpVault.Access.Records
import IpVault.Auth.Bootstrap
import IpVault.Auth.Middleware

set_option autoImplicit false

/-! # The networks a key is bound to

`auth_middleware` reads `bound_ips` on every request, and answers 500 if an entry does not parse.
Three places write the column. `create_api_key` and `update_api_key` refuse a text with an entry that
does not parse; `bootstrap_master_key` writes `BOOTSTRAP_SUBNET` as it stands. So the column can be
read in every state of the service exactly if that variable can be.
-/

namespace IpVault

open Lib

/-! ## Reading the column -/

/-- The entries of a `bound_ips` text: what its author wrote between the commas, where that is not
blank. -/
def bound_entries (bound_ips : Option String) : List String :=
  ((Text.split ',' (bound_ips.getD "")).map Text.trim).filter (!Text.is_empty ·)

/-- The middleware reads the column as it was written: to the networks of its entries, in order. It
never answers with an internal error for its sake. -/
structure ReadAsWritten (env : Env) (bound_ips : Option String) : Prop where
  networks : ∃ networks, bound_networks env bound_ips = .ok networks ∧
    networks.map some = (bound_entries bound_ips).map env.parse_network
  never_internal : ∀ (key : ApiKey) (client_ip : IpAddr), key.bound_ips = bound_ips →
    authorize_network env key client_ip ≠ .error .Internal

section Reading

variable {env : Env} {bound_ips : Option String}

theorem mapM_eq_some {α β : Type} {f : α → Option β} {as : List α} {bs : List β} :
    as.mapM f = some bs ↔ bs.map some = as.map f := by
  induction as generalizing bs with
  | nil =>
      cases bs with
      | nil => exact ⟨fun _ => rfl, fun _ => rfl⟩
      | cons b bs => simp
  | cons a as ih =>
      rw [List.mapM_cons, List.map_cons]
      cases hf : f a with
      | none =>
          cases bs with
          | nil => simp
          | cons b bs => simp
      | some b₀ =>
          show (as.mapM f >>= fun rest => some (b₀ :: rest)) = some bs ↔ _
          rw [Option.bind_eq_bind, Option.bind_eq_some_iff]
          constructor
          · rintro ⟨rest, hrest, hbs⟩
            obtain rfl := Option.some.inj hbs
            rw [List.map_cons, ih.mp hrest]
          · intro h
            cases bs with
            | nil => cases h
            | cons b rest =>
                rw [List.map_cons] at h
                obtain ⟨hb, hrest⟩ := List.cons.inj h
                obtain rfl := Option.some.inj hb
                exact ⟨rest, ih.mpr hrest, rfl⟩

theorem bound_networks_ok {networks : List IpNetwork} :
    bound_networks env bound_ips = .ok networks ↔
      networks.map some = (bound_entries bound_ips).map env.parse_network := by
  rw [← mapM_eq_some]
  show present_or .Internal ((bound_entries bound_ips).mapM env.parse_network) = .ok networks ↔ _
  cases (bound_entries bound_ips).mapM env.parse_network with
  | none =>
      constructor
      · intro h
        cases h
      · intro h
        cases h
  | some networks' =>
      constructor
      · intro h
        exact congrArg some (Except.ok.inj h)
      · intro h
        exact congrArg Except.ok (Option.some.inj h)

/-- **When the column can be read**: if every entry parses. -/
theorem readAsWritten_iff : ReadAsWritten env bound_ips ↔
    ∀ e ∈ bound_entries bound_ips, (env.parse_network e).isSome = true := by
  constructor
  · intro h e he
    obtain ⟨networks, -, hnetworks⟩ := h.networks
    have hmem : env.parse_network e ∈ networks.map some := by
      rw [hnetworks]
      exact List.mem_map_of_mem he
    obtain ⟨net, -, hnet⟩ := List.mem_map.mp hmem
    rw [← hnet]
    rfl
  · intro h
    obtain ⟨networks, hnetworks⟩ : ∃ networks : List IpNetwork,
        networks.map some = (bound_entries bound_ips).map env.parse_network := by
      generalize bound_entries bound_ips = es at h ⊢
      induction es with
      | nil => exact ⟨[], rfl⟩
      | cons e es ih =>
          obtain ⟨net, hnet⟩ := Option.isSome_iff_exists.mp (h e List.mem_cons_self)
          obtain ⟨rest, hrest⟩ := ih fun e' he' => h e' (List.mem_cons_of_mem e he')
          exact ⟨net :: rest, by rw [List.map_cons, List.map_cons, hnet, hrest]⟩
    have hread := bound_networks_ok.mpr hnetworks
    refine ⟨⟨networks, hread, hnetworks⟩, fun key client_ip hkey hinternal => ?_⟩
    unfold authorize_network at hinternal
    rw [hkey, hread] at hinternal
    have hdecided : (if networks.isEmpty || networks.any (·.contains client_ip) then .ok ()
        else .error (.Forbidden "Client IP not allowed") : Except AppError Unit) =
          .error .Internal := hinternal
    split at hdecided
    · cases hdecided
    · cases hdecided

theorem validate_bound_ips_ok {text : String} : validate_bound_ips env (some text) = .ok () ↔
    ∀ cidr ∈ Text.split ',' text, (env.parse_network (Text.trim cidr)).isSome = true := by
  unfold validate_bound_ips invalid_cidr
  rw [Option.bind_some]
  cases hfind : (Text.split ',' text).find? fun cidr =>
      (env.parse_network (Text.trim cidr)).isNone with
  | none =>
      rw [List.find?_eq_none] at hfind
      refine ⟨fun _ cidr hcidr => ?_, fun _ => rfl⟩
      have hsome := hfind cidr hcidr
      rwa [Bool.not_eq_true, Option.isNone_eq_false_iff] at hsome
  | some cidr =>
      constructor
      · intro h
        cases h
      · intro h
        have hsome := h cidr (List.mem_of_find?_eq_some hfind)
        have hnone := List.find?_some hfind
        rw [Option.isNone_iff_eq_none] at hnone
        rw [hnone] at hsome
        cases hsome

/-- **What the validation accepts** is read entry for entry: no entry is blank. -/
theorem read_of_validated (henv : env.parse_network "" = none) {text : String}
    (h : validate_bound_ips env (some text) = .ok ()) :
    bound_entries (some text) = (Text.split ',' text).map Text.trim ∧
      ReadAsWritten env (some text) := by
  have hparses := validate_bound_ips_ok.mp h
  have hentries : bound_entries (some text) = (Text.split ',' text).map Text.trim := by
    refine List.filter_eq_self.mpr fun e he => ?_
    obtain ⟨cidr, hcidr, rfl⟩ := List.mem_map.mp he
    have hsome := hparses cidr hcidr
    rw [Bool.not_eq_true']
    refine Bool.eq_false_iff.mpr fun hempty => ?_
    have hblank : Text.trim cidr = "" := by
      unfold Text.is_empty at hempty
      rw [List.isEmpty_iff] at hempty
      exact String.toList_eq_nil_iff.mp hempty
    rw [hblank, henv] at hsome
    cases hsome
  refine ⟨hentries, readAsWritten_iff.mpr fun e he => ?_⟩
  rw [hentries] at he
  obtain ⟨cidr, hcidr, rfl⟩ := List.mem_map.mp he
  exact hparses cidr hcidr

end Reading

/-! ## Writing the column -/

/-- Every restriction of the store is the one of the first start, or is read as it was written. -/
def World.ReadBut (env : Env) (first : Option String) (w : World) : Prop :=
  ∀ k ∈ w.keys, k.bound_ips = first ∨ ReadAsWritten env k.bound_ips

section Writing

variable {S : Service} {ctx : Ctx} {call : Call} {start v : Vault} {l : Stmt}
variable {first : Option String}

theorem read_of_accepted {env : Env} (henv : env.parse_network "" = none) {bound_ips : Option String}
    (h : validate_bound_ips env bound_ips = .ok ()) : ReadAsWritten env bound_ips := by
  cases bound_ips with
  | none =>
      have hentries : bound_entries none = [] := by decide
      refine readAsWritten_iff.mpr fun e he => ?_
      rw [hentries] at he
      exact absurd he List.not_mem_nil
  | some text => exact (read_of_validated henv h).2

/-- A write that a caller may issue keeps it. -/
theorem World.ReadBut.step (henv : ctx.env.parse_network "" = none)
    (hl : Permits ctx call start l v) (h : v.ReadBut ctx.env first) :
    (v.after l).ReadBut ctx.env first := by
  intro k hk
  rcases Stmt.mem_keys_after hk with hold | ⟨k₀, rfl, rfl⟩ | ⟨id, c, k₀, rfl, hk₀, hid, rfl⟩
  · exact h k hold
  · obtain ⟨payload, stored, rfl, -, hvalid⟩ := hl
    exact Or.inr (read_of_accepted henv hvalid)
  · obtain ⟨target, -, -, -, ⟨payload, rfl, -, -, hvalid⟩ | ⟨-, hrotation⟩⟩ := hl
    · show payload.bound_ips.or k₀.bound_ips = first ∨
        ReadAsWritten ctx.env (payload.bound_ips.or k₀.bound_ips)
      cases htext : payload.bound_ips with
      | none => exact h k₀ hk₀
      | some text =>
          rw [htext] at hvalid
          exact Or.inr (read_of_accepted henv hvalid)
    · show c.bound_ips.or k₀.bound_ips = first ∨
        ReadAsWritten ctx.env (c.bound_ips.or k₀.bound_ips)
      rw [hrotation.2.1]
      exact h k₀ hk₀

/-- **Over a run.** -/
theorem World.ReadBut.final (henv : S.env.parse_network "" = none) (h : v.ReadBut S.env first)
    (es : List Service.Event) : (final S.step es v).ReadBut S.env first := by
  have always : Along S.step (fun _ _ => True) es v := Along.of_forall es v fun _ _ _ => trivial
  refine always.keeps (I := fun w => w.ReadBut S.env first) h fun e w _ hw => ?_
  cases e with
  | request req =>
      exact S.handle_keeps req w (I := fun w => w.ReadBut S.env first) hw
        fun key _ _ l w' hl hw' => by
          have henv' : (S.ctx req key).env.parse_network "" = none := henv
          exact hw'.step henv' hl
  | sweep now =>
      refine S.sweep_keeps (I := fun w => w.ReadBut S.env first) hw fun threshold k hk => ?_
      have hkeys := ((Stmt.purge threshold).frame w.toWorld).keys rfl
      exact hw k (hkeys ▸ hk)

end Writing

/-- **What the first start writes**: one row, with the variable as its restriction. -/
theorem first_start_keys {env : Env} {cfg : BootConfig} {entropy : Entropy} {now : Int}
    {v₀ v : Vault} (hempty : v₀.keys = .empty)
    (hboot : (bootstrap_master_key env cfg entropy now).run database v₀ = (.ok (), v)) :
    (∃ k, k ∈ v.keys) ∧
      ∀ k ∈ v.keys, k.bound_ips = some (cfg.bootstrap_subnet.getD "0.0.0.0/0,::/0") := by
  have hrun := (bootstrap_master_key_meets (G := fun _ _ => True) (E := fun _ _ => True)
    (fun _ _ => trivial) (fun _ _ => trivial) hempty env cfg entropy now).run
  obtain ⟨plaintext_key, stored, rfl⟩ := hrun.1 _ v hboot
  constructor
  · have hinsert : (Stmt.insert_key (master_row env cfg plaintext_key stored now)).txn v₀.toWorld =
        .ok (v₀.next_uuid, { v₀.toWorld with
          keys := v₀.keys.insert { master_row env cfg plaintext_key stored now with
            id := v₀.next_uuid }
          next_uuid := v₀.next_uuid + 1 }) := by
      simp only [Stmt.txn, Txn.insert_key]
      rw [hempty]
      rfl
    rw [Vault.after_toWorld, Stmt.after_of_ok hinsert]
    refine ⟨_, Table.mem_insert.mpr (Or.inr ⟨?_, rfl⟩)⟩
    rw [hempty]
    rfl
  · intro k hk
    rcases Stmt.mem_keys_after hk with hold | ⟨k₀, hk₀, rfl⟩ | ⟨id, c, k₀, hk₀, -⟩
    · rw [hempty] at hold
      exact absurd hold (Table.mem_empty k)
    · cases hk₀
      rfl
    · cases hk₀

/-- **Stored restrictions are read, exactly.** From the first start on, after any requests and
sweeps, every restriction but the one of the start is read as it was written; and that one is, in
every state, if and only if every entry of `BOOTSTRAP_SUBNET` parses. -/
theorem bindings_read_iff (S : Service) (henv : S.env.parse_network "" = none)
    (hv4 : (S.env.parse_network "0.0.0.0/0").isSome = true)
    (hv6 : (S.env.parse_network "::/0").isSome = true) (cfg : BootConfig) (entropy : Entropy)
    (now : Int) (v₀ v : Vault) (hempty : v₀.keys = .empty)
    (hboot : (bootstrap_master_key S.env cfg entropy now).run database v₀ = (.ok (), v)) :
    (∀ es, ∀ k ∈ (final S.step es v).keys,
        k.bound_ips = some (cfg.bootstrap_subnet.getD "0.0.0.0/0,::/0") ∨
          ReadAsWritten S.env k.bound_ips) ∧
      ((∀ es, ∀ k ∈ (final S.step es v).keys, ReadAsWritten S.env k.bound_ips) ↔
        ∀ subnet, cfg.bootstrap_subnet = some subnet →
          ∀ e ∈ bound_entries (some subnet), (S.env.parse_network e).isSome = true) := by
  obtain ⟨⟨m, hm⟩, hfirst⟩ := first_start_keys hempty hboot
  have hstart : v.ReadBut S.env (some (cfg.bootstrap_subnet.getD "0.0.0.0/0,::/0")) :=
    fun k hk => Or.inl (hfirst k hk)
  have hkept := fun es => hstart.final henv es
  refine ⟨hkept, fun h subnet hsubnet => ?_, fun h es k hk => ?_⟩
  · have hread := h [] m hm
    rw [hfirst m hm, hsubnet] at hread
    exact readAsWritten_iff.mp hread
  · rcases hkept es k hk with hk' | hread
    · rw [hk']
      refine readAsWritten_iff.mpr ?_
      cases hsubnet : cfg.bootstrap_subnet with
      | some subnet => exact h subnet hsubnet
      | none =>
          have hentries : bound_entries (some "0.0.0.0/0,::/0") = ["0.0.0.0/0", "::/0"] := by decide
          intro e he
          rw [Option.getD_none, hentries] at he
          rcases List.mem_cons.mp he with rfl | he
          · exact hv4
          · rw [List.mem_singleton.mp he]
            exact hv6
    · exact hread


/-- `Env.sample`, which reads the networks of all addresses. -/
def Env.dual : Env where
  __ := Env.sample
  parse_network s :=
    if s = "0.0.0.0/0" then some ⟨.v4 0#32, 0, Nat.zero_le _⟩
    else if s = "::/0" then some ⟨.v6 0#128, 0, Nat.zero_le _⟩
    else Env.sample.parse_network s

/-- The first start with `BOOTSTRAP_SUBNET` set to the text. -/
def Vault.bound_start (subnet : Option String) : Vault :=
  ((bootstrap_master_key .dual ⟨none, none, subnet⟩ ⟨"vault-key", "s3cret", []⟩ 0).run database
    (.empty 8)).2

/-- A start with two networks: every restriction is read, whatever comes after it. -/
theorem bindings_read_subnet :
    (Vault.bound_start (some "203.0.113.7, ::/0")).keys.rows.map ApiKey.bound_ips =
        [some "203.0.113.7, ::/0"] ∧
      ∀ es, ∀ k ∈ (final (Service.step ⟨.dual, 0⟩) es (.bound_start (some "203.0.113.7, ::/0"))).keys,
        ReadAsWritten Env.dual k.bound_ips := by
  refine ⟨by decide, fun es => ?_⟩
  refine (bindings_read_iff ⟨.dual, 0⟩ rfl rfl rfl ⟨none, none, some "203.0.113.7, ::/0"⟩
    ⟨"vault-key", "s3cret", []⟩ 0 (.empty 8) (.bound_start (some "203.0.113.7, ::/0")) rfl rfl).2.mpr
    (fun subnet hsubnet => ?_) es
  obtain rfl := Option.some.inj hsubnet
  decide

/-- A first start with a semicolon between the networks. Every request of the master is then
answered with an internal error, whatever address it comes from. -/
theorem bootstrap_subnet_unread :
    (Vault.bound_start (some "203.0.113.7;0.0.0.0/0")).keys.rows.map
        (fun k => (k.is_master, k.bound_ips)) = [(true, some "203.0.113.7;0.0.0.0/0")] ∧
      (∀ k ∈ (Vault.bound_start (some "203.0.113.7;0.0.0.0/0")).keys,
        ∀ client_ip, authorize_network .dual k client_ip = .error .Internal) ∧
      ∀ k ∈ (Vault.bound_start (some "203.0.113.7;0.0.0.0/0")).keys,
        ¬ ReadAsWritten .dual k.bound_ips := by
  have hbound : ∀ k ∈ (Vault.bound_start (some "203.0.113.7;0.0.0.0/0")).keys,
      k.bound_ips = some "203.0.113.7;0.0.0.0/0" := by
    have hboot : (bootstrap_master_key .dual ⟨none, none, some "203.0.113.7;0.0.0.0/0"⟩
        ⟨"vault-key", "s3cret", []⟩ 0).run database (.empty 8) =
          (.ok (), .bound_start (some "203.0.113.7;0.0.0.0/0")) := rfl
    have hempty : (Vault.empty 8).keys = .empty := rfl
    exact (first_start_keys hempty hboot).2
  have hunread : ∀ k : ApiKey, k.bound_ips = some "203.0.113.7;0.0.0.0/0" → ∀ client_ip,
      authorize_network .dual k client_ip = .error .Internal := by
    intro k hk client_ip
    unfold authorize_network
    rw [hk]
    rfl
  refine ⟨by decide, fun k hk => hunread k (hbound k hk), fun k hk hread => ?_⟩
  exact hread.never_internal k host7.ip rfl (hunread k (hbound k hk) host7.ip)

end IpVault
