import IpVault.Auth.Forwarding
import IpVault.Auth.Middleware
import IpVault.Auth.TrustedProxies
import IpVault.Records.Bannable
import IpVault.Records.Spelling

set_option autoImplicit false

/-! # IPv4 addresses in their IPv6 form

A dual-stack listener reports `a.b.c.d` as `::ffff:a.b.c.d`. The address of the peer, those of the
headers and the answers of the resolver are brought back to the plain form. The networks of
`TRUSTED_PROXIES` and of `bound_ips` stay as they are written, and a mapped one then holds no address
that is ever looked up in it.
-/

namespace IpVault

open Lib

/-- `Ipv4Addr::to_ipv6_mapped`. -/
def to_ipv6_mapped (a : BitVec 32) : BitVec 128 := BitVec.ofNat 128 (0xFFFF * 2 ^ 32 + a.toNat)

/-- The same address, or its mapped form. -/
inductive MappedAddr : IpAddr → IpAddr → Prop
  | same (ip : IpAddr) : MappedAddr ip ip
  | mapped (a : BitVec 32) : MappedAddr (.v4 a) (.v6 (to_ipv6_mapped a))

/-- The same network, or its mapped form. -/
inductive MappedNet : IpNetwork → IpNetwork → Prop
  | same (net : IpNetwork) : MappedNet net net
  | mapped (a : BitVec 32) (n : Nat) (fits : n ≤ 32) (fits' : 96 + n ≤ 128) :
      MappedNet ⟨.v4 a, n, fits⟩ ⟨.v6 (to_ipv6_mapped a), 96 + n, fits'⟩

/-! ## One address, one network -/

theorem to_ipv4_mapped_to_ipv6_mapped (a : BitVec 32) : to_ipv4_mapped (to_ipv6_mapped a) = some a := by
  have hlt : a.toNat < 2 ^ 32 := a.isLt
  have hnat : (to_ipv6_mapped a).toNat = 0xFFFF * 2 ^ 32 + a.toNat := by
    unfold to_ipv6_mapped
    rw [BitVec.toNat_ofNat, Nat.mod_eq_of_lt (by omega)]
  rw [mapped_iff, hnat]
  omega

theorem normalize_ip_of_mapped {b : BitVec 128} {a : BitVec 32} (h : to_ipv4_mapped b = some a) :
    normalize_ip (.v6 b) = .v4 a := by
  simp only [normalize_ip, h]

theorem normalize_ip_of_not_mapped {b : BitVec 128} (h : to_ipv4_mapped b = none) :
    normalize_ip (.v6 b) = .v6 b := by
  simp only [normalize_ip, h]

/-- An address and its mapped form are brought to the same address. -/
theorem MappedAddr.normalized {ip ip' : IpAddr} (h : MappedAddr ip ip') :
    normalize_ip ip' = normalize_ip ip := by
  cases h with
  | same => rfl
  | mapped a => exact normalize_ip_of_mapped (to_ipv4_mapped_to_ipv6_mapped a)

/-- The address is in its plain form. -/
def PlainAddr (ip : IpAddr) : Prop := normalize_ip ip = ip

theorem plain_normalize_ip (ip : IpAddr) : PlainAddr (normalize_ip ip) := by
  cases ip with
  | v4 a => rfl
  | v6 b =>
      unfold PlainAddr
      cases hb : to_ipv4_mapped b with
      | some a =>
          rw [normalize_ip_of_mapped hb]
          rfl
      | none => rw [normalize_ip_of_not_mapped hb, normalize_ip_of_not_mapped hb]

/-- No plain address is in a mapped network. -/
theorem not_contains_of_plain {a : BitVec 32} {n : Nat} {fits' : 96 + n ≤ 128} {ip : IpAddr}
    (h : PlainAddr ip) : IpNetwork.contains ⟨.v6 (to_ipv6_mapped a), 96 + n, fits'⟩ ip = false := by
  cases ip with
  | v4 b => rfl
  | v6 b =>
      by_contra hcontains
      have hbits : to_ipv6_mapped a &&& IpNetwork.mask 128 (96 + n) =
          b &&& IpNetwork.mask 128 (96 + n) := by
        simpa [IpNetwork.contains] using hcontains
      -- A prefix of 96 bits or more says that the address is a mapped one.
      have hfront : to_ipv6_mapped a >>> 32 = b >>> 32 :=
        (IpNetwork.and_mask_eq_iff (show 96 ≤ 128 by omega) _ _).mp
          (IpNetwork.and_mask_of_le (show 96 ≤ 96 + n by omega) hbits)
      have hmapped := to_ipv4_mapped_to_ipv6_mapped a
      unfold to_ipv4_mapped at hmapped
      obtain ⟨hmark, -⟩ := Option.ite_none_right_eq_some.mp hmapped
      have hb : to_ipv4_mapped b = some (b.truncate 32) := if_pos (hfront ▸ hmark)
      cases (normalize_ip_of_mapped hb).symm.trans h

/-- A plain address in the network after the rewriting was in it before. -/
theorem MappedNet.contains_of_contains {net net' : IpNetwork} (h : MappedNet net net') {ip : IpAddr}
    (hplain : PlainAddr ip) (hin : net'.contains ip = true) : net.contains ip = true := by
  cases h with
  | same => exact hin
  | mapped a n => exact absurd ((not_contains_of_plain hplain).symm.trans hin) Bool.false_ne_true

/-- An IPv6 address is in neither or in both. -/
theorem MappedNet.contains_v6 {net net' : IpNetwork} (h : MappedNet net net') {b : BitVec 128}
    (hin : net.contains (.v6 b) = true) : net'.contains (.v6 b) = true := by
  cases h with
  | same => exact hin
  | mapped => cases hin

/-! ## Lists of networks -/

/-- An IPv4 address the first list holds is in the second as well. -/
def KeepsV4 (nets nets' : List IpNetwork) : Prop :=
  ∀ a : BitVec 32, is_trusted (.v4 a) nets = true → is_trusted (.v4 a) nets' = true

theorem is_trusted_of_mapped {nets nets' : List IpNetwork} (h : List.Forall₂ MappedNet nets nets')
    {ip : IpAddr} (hplain : PlainAddr ip) (hin : is_trusted ip nets' = true) : is_trusted ip nets = true := by
  unfold is_trusted at hin ⊢
  induction h with
  | nil => exact hin
  | cons hnet _ ih =>
      rw [List.any_cons, Bool.or_eq_true] at hin ⊢
      exact hin.imp (hnet.contains_of_contains hplain) ih

theorem is_trusted_v6_of_mapped {nets nets' : List IpNetwork}
    (h : List.Forall₂ MappedNet nets nets') {b : BitVec 128}
    (hin : is_trusted (.v6 b) nets = true) : is_trusted (.v6 b) nets' = true := by
  unfold is_trusted at hin ⊢
  induction h with
  | nil => exact hin
  | cons hnet _ ih =>
      rw [List.any_cons, Bool.or_eq_true] at hin ⊢
      exact hin.imp hnet.contains_v6 ih

/-- **What is looked up is the same in both lists** exactly if no IPv4 address is lost. -/
theorem keepsV4_iff {nets nets' : List IpNetwork} (h : List.Forall₂ MappedNet nets nets') :
    KeepsV4 nets nets' ↔ ∀ ip, PlainAddr ip → is_trusted ip nets = is_trusted ip nets' := by
  constructor
  · intro hkeeps ip hplain
    refine Bool.eq_iff_iff.mpr ⟨fun hin => ?_, is_trusted_of_mapped h hplain⟩
    cases ip with
    | v4 a => exact hkeeps a hin
    | v6 b => exact is_trusted_v6_of_mapped h hin
  · intro hsame a hin
    exact (hsame (.v4 a) rfl).symm.trans hin

/-! ## Texts -/

/-- The same text, or one that reads as `x` and one that reads as the mapped form of `x`. -/
def MappedText {α : Type} (read : String → Option α) (R : α → α → Prop) (s s' : String) : Prop :=
  s' = s ∨ ∃ x x', read s = some x ∧ read s' = some x' ∧ R x x'

/-- The network an entry of `TRUSTED_PROXIES` is read as, if it is read as one. -/
def proxy_network (env : Env) (entry : String) : Option IpNetwork :=
  match read_proxy env entry with
  | .ok (.Network net) => some net
  | _ => none

theorem proxy_network_eq_some_iff {env : Env} {entry : String} {net : IpNetwork} :
    proxy_network env entry = some net ↔ read_proxy env entry = .ok (.Network net) := by
  unfold proxy_network
  cases read_proxy env entry with
  | error e => simp
  | ok m => cases m <;> simp

/-- Where a request comes from. -/
structure Connection where
  peer : IpAddr
  headers : HeaderMap

/-- The settings its address is held against: the value of `TRUSTED_PROXIES` and the networks of the
key. -/
structure NetworkSettings where
  trusted_proxies : String
  bound_ips : Option String

/-- Addresses of the connection have been rewritten. -/
structure MappedConnection (env : Env) (c c' : Connection) : Prop where
  peer : MappedAddr c.peer c'.peer
  forwarded : Option.Rel
    (fun f f' => List.Forall₂ (MappedText env.parse_ip MappedAddr) (forwarded_entries f)
      (forwarded_entries f'))
    (header c.headers "x-forwarded-for") (header c'.headers "x-forwarded-for")
  real_ip : Option.Rel (fun s s' => MappedText env.parse_ip MappedAddr (Text.trim s) (Text.trim s'))
    (header c.headers "x-real-ip") (header c'.headers "x-real-ip")

/-- Entries of the settings have been rewritten. -/
structure MappedSettings (env : Env) (s s' : NetworkSettings) : Prop where
  trusted_proxies : List.Forall₂ (MappedText (proxy_network env) MappedNet)
    (configured_entries s.trusted_proxies) (configured_entries s'.trusted_proxies)
  bound_ips : List.Forall₂ (MappedText env.parse_network MappedNet)
    (configured_entries (s.bound_ips.getD "")) (configured_entries (s'.bound_ips.getD ""))

/-- The networks that are trusted while the names have these addresses, unless the service refuses to
start. -/
def NetworkSettings.trusted (s : NetworkSettings) (env : Env) (addresses : String → List IpNetwork) :
    Option (List IpNetwork) :=
  (parse_trusted_proxies env s.trusted_proxies).toOption.map fun matchers =>
    literal_networks matchers ++ (hostname_entries matchers).flatMap addresses

/-- The client address of a request and the verdict on it. -/
def network_verdict (env : Env) (addresses : String → List IpNetwork) (key : ApiKey)
    (s : NetworkSettings) (c : Connection) : Option (IpAddr × Except AppError Unit) :=
  (s.trusted env addresses).map fun trusted =>
    let client_ip := resolve_client_ip env.parse_ip c.peer c.headers trusted
    (client_ip, authorize_network env { key with bound_ips := s.bound_ips } client_ip)

section Verdict

variable {env : Env} {addresses : String → List IpNetwork} {s s' : NetworkSettings}

/-- The lists of trusted networks are rewritten with their entries. -/
theorem matchers_mapped {entries entries' : List String} {ms ms' : List ProxyMatcher}
    (h : List.Forall₂ (MappedText (proxy_network env) MappedNet) entries entries')
    (hms : List.Forall₂ (DenotesProxy env) entries ms) (hms' : List.Forall₂ (DenotesProxy env) entries' ms') :
    List.Forall₂ MappedNet (literal_networks ms) (literal_networks ms') ∧
      hostname_entries ms = hostname_entries ms' := by
  induction h generalizing ms ms' with
  | nil =>
      cases hms
      cases hms'
      exact ⟨.nil, rfl⟩
  | cons hentry _ ih =>
      cases hms with
      | @cons _ m _ ms hm hms =>
          cases hms' with
          | @cons _ m' _ ms' hm' hms' =>
              obtain ⟨hnets, hnames⟩ := ih hms hms'
              rw [← read_proxy_eq_ok_iff] at hm hm'
              rcases hentry with rfl | ⟨net, net', hnet, hnet', hmapped⟩
              · obtain rfl := Except.ok.inj (hm.symm.trans hm')
                cases m with
                | Network net => exact ⟨.cons (.same net) hnets, hnames⟩
                | Hostname name => exact ⟨hnets, congrArg (name :: ·) hnames⟩
              · rw [proxy_network_eq_some_iff] at hnet hnet'
                obtain rfl := Except.ok.inj (hm.symm.trans hnet)
                obtain rfl := Except.ok.inj (hm'.symm.trans hnet')
                exact ⟨.cons hmapped hnets, hnames⟩

/-- An entry is something exactly if its rewritten form is. -/
theorem isProxy_mapped {entries entries' : List String}
    (h : List.Forall₂ (MappedText (proxy_network env) MappedNet) entries entries') :
    (∀ e ∈ entries, IsProxy env e) ↔ ∀ e ∈ entries', IsProxy env e := by
  induction h with
  | nil => simp
  | @cons e e' _ _ hentry _ ih =>
      have hhead : IsProxy env e ↔ IsProxy env e' := by
        rcases hentry with rfl | ⟨net, net', hnet, hnet', -⟩
        · rfl
        · rw [proxy_network_eq_some_iff, read_proxy_eq_ok_iff] at hnet hnet'
          exact iff_of_true hnet.isProxy hnet'.isProxy
      rw [List.forall_mem_cons, List.forall_mem_cons, hhead, ih]

/-- The service starts with both settings or with neither, and trusts a list and its rewritten form. -/
theorem trusted_mapped (h : MappedSettings env s s') :
    (s.trusted env addresses = none ∧ s'.trusted env addresses = none) ∨
      ∃ nets nets', s.trusted env addresses = some nets ∧ s'.trusted env addresses = some nets' ∧
        List.Forall₂ MappedNet nets nets' := by
  have hproxies := isProxy_mapped h.trusted_proxies
  unfold NetworkSettings.trusted
  rcases parse_trusted_proxies_cases env s.trusted_proxies with
    ⟨hall, ms, hparse, hms⟩ | ⟨hnot, invalid, hparse, -⟩
  · rcases parse_trusted_proxies_cases env s'.trusted_proxies with
      ⟨-, ms', hparse', hms'⟩ | ⟨hnot', -⟩
    · obtain ⟨hnets, hnames⟩ := matchers_mapped h.trusted_proxies hms hms'
      refine .inr ⟨_, _, by rw [hparse]; rfl, by rw [hparse']; rfl, ?_⟩
      dsimp only
      rw [hnames]
      exact List.rel_append hnets (List.forall₂_same.mpr fun net _ => .same net)
    · exact absurd (hproxies.mp hall) hnot'
  · rcases parse_trusted_proxies_cases env s'.trusted_proxies with
      ⟨hall', -⟩ | ⟨-, invalid', hparse', -⟩
    · exact absurd (hproxies.mpr hall') hnot
    · exact .inl ⟨by rw [hparse]; rfl, by rw [hparse']; rfl⟩

/-! ## The client address -/

/-- A text and its rewritten form read as the same plain address, or not at all. -/
theorem read_mapped {e e' : String} (h : MappedText env.parse_ip MappedAddr e e') :
    (env.parse_ip e').map normalize_ip = (env.parse_ip e).map normalize_ip := by
  rcases h with rfl | ⟨ip, ip', hip, hip', hmapped⟩
  · rfl
  · rw [hip, hip', Option.map_some, Option.map_some, hmapped.normalized]

theorem named_client_eq (trusted : List IpNetwork) (e : String) :
    named_client env.parse_ip trusted e =
      ((env.parse_ip e).map normalize_ip).bind fun ip =>
        if is_trusted ip trusted then none else some ip := by
  unfold named_client
  cases env.parse_ip e <;> rfl

/-- What the entries of a list and of its rewritten form name, under lists that hold the same plain
addresses. -/
theorem named_clients_mapped {trusted trusted' : List IpNetwork}
    (hsame : ∀ ip, PlainAddr ip → is_trusted ip trusted = is_trusted ip trusted') {es es' : List String}
    (h : List.Forall₂ (MappedText env.parse_ip MappedAddr) es es') :
    es'.map (named_client env.parse_ip trusted') = es.map (named_client env.parse_ip trusted) := by
  induction h with
  | nil => rfl
  | @cons e e' _ _ hentry _ ih =>
      have hhead : named_client env.parse_ip trusted' e' = named_client env.parse_ip trusted e := by
        rw [named_client_eq, named_client_eq, read_mapped hentry]
        cases env.parse_ip e with
        | none => rfl
        | some ip =>
            rw [Option.map_some, Option.bind_some, Option.bind_some,
              hsame _ (plain_normalize_ip ip)]
      rw [List.map_cons, List.map_cons, hhead, ih]

theorem forwarded_client_eq_map (trusted : List IpNetwork) (f : String) :
    forwarded_client env.parse_ip trusted f =
      ((forwarded_entries f).map (named_client env.parse_ip trusted)).reverse.findSome? id := by
  rw [forwarded_client_eq, ← List.map_reverse, List.findSome?_map]
  rfl

/-- `resolve_client_ip`, with the address of a request without a list as its default. -/
theorem resolve_client_ip_eq (trusted : List IpNetwork) (c : Connection) :
    resolve_client_ip env.parse_ip c.peer c.headers trusted =
      if is_trusted (normalize_ip c.peer) trusted then
        ((header c.headers "x-forwarded-for").bind (forwarded_client env.parse_ip trusted)).getD
          (unforwarded_ip env.parse_ip c.peer c.headers)
      else normalize_ip c.peer := by
  cases hpeer : is_trusted (normalize_ip c.peer) trusted with
  | false => exact resolve_untrusted hpeer
  | true =>
      show (if !is_trusted (normalize_ip c.peer) trusted then normalize_ip c.peer else _) = _
      rw [hpeer]
      cases (header c.headers "x-forwarded-for").bind (forwarded_client env.parse_ip trusted) <;> rfl

theorem unforwarded_ip_eq (c : Connection) : unforwarded_ip env.parse_ip c.peer c.headers =
    ((header c.headers "x-real-ip").bind fun s => (env.parse_ip (Text.trim s)).map normalize_ip).getD
      (normalize_ip c.peer) := by
  unfold unforwarded_ip
  cases header c.headers "x-real-ip" with
  | none => rfl
  | some s =>
      rw [Option.bind_some, Option.bind_some]
      cases env.parse_ip (Text.trim s) <;> rfl

/-- The address a peer reports, or its own, and the rewritten form. -/
theorem unforwarded_ip_mapped {c c' : Connection} (h : MappedConnection env c c') :
    unforwarded_ip env.parse_ip c'.peer c'.headers = unforwarded_ip env.parse_ip c.peer c.headers := by
  have hreal := h.real_ip
  rw [unforwarded_ip_eq, unforwarded_ip_eq, h.peer.normalized]
  generalize header c.headers "x-real-ip" = o at hreal ⊢
  generalize header c'.headers "x-real-ip" = o' at hreal ⊢
  cases hreal with
  | none => rfl
  | some hs => rw [Option.bind_some, Option.bind_some, read_mapped hs]

/-- The address of a connection and that of its rewritten form, under lists that hold the same plain
addresses. -/
theorem resolve_mapped {trusted trusted' : List IpNetwork}
    (hsame : ∀ ip, PlainAddr ip → is_trusted ip trusted = is_trusted ip trusted') {c c' : Connection}
    (h : MappedConnection env c c') :
    resolve_client_ip env.parse_ip c.peer c.headers trusted =
      resolve_client_ip env.parse_ip c'.peer c'.headers trusted' := by
  have hforwarded := h.forwarded
  rw [resolve_client_ip_eq, resolve_client_ip_eq, h.peer.normalized, unforwarded_ip_mapped h,
    hsame _ (plain_normalize_ip c.peer)]
  generalize header c.headers "x-forwarded-for" = o at hforwarded ⊢
  generalize header c'.headers "x-forwarded-for" = o' at hforwarded ⊢
  cases hforwarded with
  | none => rfl
  | some hentries =>
      rw [Option.bind_some, Option.bind_some, forwarded_client_eq_map, forwarded_client_eq_map,
        named_clients_mapped hsame hentries]

/-- The address of a request is a plain one. -/
theorem plain_resolve (trusted : List IpNetwork) (c : Connection) :
    PlainAddr (resolve_client_ip env.parse_ip c.peer c.headers trusted) := by
  have hunforwarded : PlainAddr (unforwarded_ip env.parse_ip c.peer c.headers) := by
    unfold unforwarded_ip
    split
    · exact plain_normalize_ip _
    · exact plain_normalize_ip _
  rw [resolve_client_ip_eq]
  split
  · cases hclient : (header c.headers "x-forwarded-for").bind (forwarded_client env.parse_ip trusted) with
    | none => exact hunforwarded
    | some client =>
        obtain ⟨f, -, hf⟩ := Option.bind_eq_some_iff.mp hclient
        rw [forwarded_client_eq] at hf
        obtain ⟨e, -, he⟩ := List.exists_of_findSome?_eq_some hf
        obtain ⟨ip, -, hip⟩ := Option.bind_eq_some_iff.mp he
        split at hip
        · cases hip
        · obtain rfl := Option.some.inj hip
          exact plain_normalize_ip ip
  · exact plain_normalize_ip _

/-! ## The verdict -/

/-- A list of entries and its rewritten form are read both or neither. -/
theorem mapM_mapped {es es' : List String}
    (h : List.Forall₂ (MappedText env.parse_network MappedNet) es es') :
    Option.Rel (List.Forall₂ MappedNet) (es.mapM env.parse_network) (es'.mapM env.parse_network) := by
  induction h with
  | nil => exact .some .nil
  | @cons e e' _ _ hentry _ ih =>
      have hhead : Option.Rel MappedNet (env.parse_network e) (env.parse_network e') := by
        rcases hentry with rfl | ⟨net, net', hnet, hnet', hmapped⟩
        · cases env.parse_network e' with
          | none => exact .none
          | some net => exact .some (.same net)
        · rw [hnet, hnet']
          exact .some hmapped
      rw [List.mapM_cons, List.mapM_cons]
      generalize env.parse_network e = o at hhead ⊢
      generalize env.parse_network e' = o' at hhead ⊢
      cases hhead with
      | none => exact .none
      | some hnet =>
          rw [Option.bind_eq_bind, Option.bind_eq_bind, Option.bind_some, Option.bind_some]
          revert ih
          generalize List.mapM env.parse_network _ = os
          generalize List.mapM env.parse_network _ = os'
          intro ih
          cases ih with
          | none => exact .none
          | some hnets => exact .some (.cons hnet hnets)

/-- The networks of a key are read with both settings or with neither. -/
theorem bound_networks_mapped (h : MappedSettings env s s') :
    (bound_networks env s.bound_ips = .error .Internal ∧
        bound_networks env s'.bound_ips = .error .Internal) ∨
      ∃ nets nets', bound_networks env s.bound_ips = .ok nets ∧
        bound_networks env s'.bound_ips = .ok nets' ∧ List.Forall₂ MappedNet nets nets' := by
  have hread := mapM_mapped h.bound_ips
  have heq : ∀ b : Option String, bound_networks env b =
      present_or .Internal ((configured_entries (b.getD "")).mapM env.parse_network) := fun _ => rfl
  rw [heq, heq]
  generalize (configured_entries (s.bound_ips.getD "")).mapM env.parse_network = o at hread ⊢
  generalize (configured_entries (s'.bound_ips.getD "")).mapM env.parse_network = o' at hread ⊢
  cases hread with
  | none => exact .inl ⟨rfl, rfl⟩
  | some hnets => exact .inr ⟨_, _, rfl, rfl, hnets⟩

/-- The restriction of a key, in terms of its networks. -/
theorem authorize_network_eq {key : ApiKey} {b : Option String} {nets : List IpNetwork} {ip : IpAddr}
    (h : bound_networks env b = .ok nets) :
    authorize_network env { key with bound_ips := b } ip =
      if nets = [] ∨ is_trusted ip nets = true then .ok ()
      else .error (.Forbidden "Client IP not allowed") := by
  unfold authorize_network
  dsimp only
  rw [h]
  show (if (nets.isEmpty || nets.any (·.contains ip)) = true then _ else _) = _
  simp [is_trusted]

/-- No IPv4 address is lost by the rewriting: one in a rewritten network of `TRUSTED_PROXIES` or of the
key is in a network there that was left as it is, or is the address of a name. -/
def KeepsAddresses (env : Env) (addresses : String → List IpNetwork) (s s' : NetworkSettings) : Prop :=
  ∀ trusted trusted', s.trusted env addresses = some trusted →
    s'.trusted env addresses = some trusted' → KeepsV4 trusted trusted' ∧
      ∀ nets nets', bound_networks env s.bound_ips = .ok nets →
        bound_networks env s'.bound_ips = .ok nets' → KeepsV4 nets nets'

/-- The restriction of a key lets through what its rewritten form lets through. -/
theorem authorize_network_mapped (h : MappedSettings env s s')
    (hkeeps : ∀ nets nets', bound_networks env s.bound_ips = .ok nets →
      bound_networks env s'.bound_ips = .ok nets' → KeepsV4 nets nets') (key : ApiKey) {ip : IpAddr}
    (hplain : PlainAddr ip) :
    authorize_network env { key with bound_ips := s.bound_ips } ip =
      authorize_network env { key with bound_ips := s'.bound_ips } ip := by
  rcases bound_networks_mapped h with ⟨herror, herror'⟩ | ⟨nets, nets', hnets, hnets', hmapped⟩
  · unfold authorize_network
    dsimp only
    rw [herror, herror']
  · have hsame := (keepsV4_iff hmapped).mp (hkeeps nets nets' hnets hnets') ip hplain
    have hempty : nets = [] ↔ nets' = [] := by
      rw [← List.length_eq_zero_iff, ← List.length_eq_zero_iff, hmapped.length_eq]
    rw [authorize_network_eq hnets, authorize_network_eq hnets', hsame]
    simp only [hempty]

theorem verdict_of_keeps (h : MappedSettings env s s') (hkeeps : KeepsAddresses env addresses s s')
    (key : ApiKey) {c c' : Connection} (hc : MappedConnection env c c') :
    network_verdict env addresses key s c = network_verdict env addresses key s' c' := by
  unfold network_verdict
  rcases trusted_mapped h with ⟨hnone, hnone'⟩ | ⟨trusted, trusted', hsome, hsome', hmapped⟩
  · rw [hnone, hnone']
    rfl
  · obtain ⟨hproxies, hbound⟩ := hkeeps trusted trusted' hsome hsome'
    have hresolve := resolve_mapped ((keepsV4_iff hmapped).mp hproxies) hc
    rw [hsome, hsome', Option.map_some, Option.map_some]
    dsimp only
    rw [← hresolve, authorize_network_mapped h hbound key (plain_resolve trusted c)]

theorem MappedConnection.refl (c : Connection) : MappedConnection env c c where
  peer := .same c.peer
  forwarded := by
    cases header c.headers "x-forwarded-for" with
    | none => exact .none
    | some f => exact .some (List.forall₂_same.mpr fun _ _ => .inl rfl)
  real_ip := by
    cases header c.headers "x-real-ip" with
    | none => exact .none
    | some s => exact .some (.inl rfl)

/-- The settings that give the same verdicts trust the same IPv4 peers. -/
theorem keepsV4_trusted {trusted trusted' : List IpNetwork}
    (hreads : ∀ a : BitVec 32, ∃ text, env.parse_ip (Text.trim text) = some (.v4 a))
    (hsame : ∀ c : Connection, resolve_client_ip env.parse_ip c.peer c.headers trusted =
      resolve_client_ip env.parse_ip c.peer c.headers trusted') : KeepsV4 trusted trusted' := by
  intro a hin
  by_contra hout
  rw [Bool.not_eq_true] at hout
  -- A peer that is trusted speaks for the next address; one that is not, for itself.
  obtain ⟨text, htext⟩ := hreads (a + 1)
  have hspeaks : resolve_client_ip env.parse_ip (.v4 a) [⟨"x-real-ip", some text⟩] trusted =
      .v4 (a + 1) := by
    rw [resolve_client_ip_eq trusted ⟨.v4 a, [⟨"x-real-ip", some text⟩]⟩]
    show (if is_trusted (.v4 a) trusted = true then _ else _) = _
    rw [if_pos hin]
    show unforwarded_ip env.parse_ip (.v4 a) [⟨"x-real-ip", some text⟩] = _
    rw [unforwarded_ip_eq ⟨.v4 a, [⟨"x-real-ip", some text⟩]⟩]
    show ((env.parse_ip (Text.trim text)).map normalize_ip).getD _ = _
    rw [htext]
    rfl
  have hitself : resolve_client_ip env.parse_ip (.v4 a) [⟨"x-real-ip", some text⟩] trusted' = .v4 a :=
    resolve_untrusted hout
  have hnext : a + 1 = a :=
    IpAddr.v4.inj (hspeaks.symm.trans ((hsame ⟨.v4 a, _⟩).trans hitself))
  bv_omega

/-- The restrictions that give the same verdicts hold the same IPv4 addresses. -/
theorem keepsV4_bound (key : ApiKey) {b b' : Option String} {nets nets' : List IpNetwork}
    (hnets : bound_networks env b = .ok nets) (hnets' : bound_networks env b' = .ok nets')
    (hmapped : List.Forall₂ MappedNet nets nets')
    (hsame : ∀ a : BitVec 32, authorize_network env { key with bound_ips := b } (.v4 a) =
      authorize_network env { key with bound_ips := b' } (.v4 a)) : KeepsV4 nets nets' := by
  intro a hin
  have hverdict := hsame a
  rw [authorize_network_eq hnets, authorize_network_eq hnets', if_pos (.inr hin)] at hverdict
  by_cases hallowed : nets' = [] ∨ is_trusted (.v4 a) nets' = true
  · rcases hallowed with rfl | hin'
    · cases hmapped
      exact hin
    · exact hin'
  · rw [if_neg hallowed] at hverdict
    cases hverdict

/-- **The rewriting changes nothing** exactly if no IPv4 address is lost by it: whatever the request,
its address and the verdict on it are those of the rewritten request under the rewritten settings. -/
theorem mapped_invariant_iff
    (hreads : ∀ a : BitVec 32, ∃ text, env.parse_ip (Text.trim text) = some (.v4 a)) (key : ApiKey)
    (h : MappedSettings env s s') :
    (∀ c c', MappedConnection env c c' →
        network_verdict env addresses key s c = network_verdict env addresses key s' c') ↔
      KeepsAddresses env addresses s s' := by
  refine ⟨fun hall => ?_, fun hkeeps c c' hc => verdict_of_keeps h hkeeps key hc⟩
  intro trusted trusted' hsome hsome'
  have hverdict : ∀ c : Connection,
      resolve_client_ip env.parse_ip c.peer c.headers trusted =
          resolve_client_ip env.parse_ip c.peer c.headers trusted' ∧
        authorize_network env { key with bound_ips := s.bound_ips }
            (resolve_client_ip env.parse_ip c.peer c.headers trusted) =
          authorize_network env { key with bound_ips := s'.bound_ips }
            (resolve_client_ip env.parse_ip c.peer c.headers trusted') := by
    intro c
    have heq := hall c c (.refl c)
    unfold network_verdict at heq
    rw [hsome, hsome', Option.map_some, Option.map_some] at heq
    exact Prod.ext_iff.mp (Option.some.inj heq)
  refine ⟨keepsV4_trusted hreads fun c => (hverdict c).1, ?_⟩
  intro nets nets' hnets hnets'
  rcases bound_networks_mapped h with ⟨herror, -⟩ | ⟨ms, ms', hms, hms', hmapped⟩
  · rw [hnets] at herror
    cases herror
  · obtain rfl := Except.ok.inj (hnets.symm.trans hms)
    obtain rfl := Except.ok.inj (hnets'.symm.trans hms')
    refine keepsV4_bound key hnets hnets' hmapped fun a => ?_
    have hpeer : ∀ trusted, resolve_client_ip env.parse_ip (.v4 a) [] trusted = .v4 a := by
      intro trusted
      rw [resolve_client_ip_eq trusted ⟨.v4 a, []⟩]
      split <;> rfl
    have hallowed := (hverdict ⟨.v4 a, []⟩).2
    rwa [hpeer, hpeer] at hallowed

end Verdict

/-- `Env.sample`, with IPv4 addresses and networks in decimal, and one mapped network. -/
def Env.dual_stack : Env :=
  { Env.sample with
    parse_ip := fun s =>
      (Decimal.read_bytes '.' 4 s.toList).map fun n => .v4 (BitVec.ofNat 32 n)
    parse_network := fun s =>
      if s = "::ffff:10.0.0.0/104" then
        some ⟨.v6 (to_ipv6_mapped 0x0A000000#32), 96 + 8, by decide⟩
      else read_network s }

theorem reads_dual_stack (a : BitVec 32) :
    ∃ text, Env.dual_stack.parse_ip (Text.trim text) = some (.v4 a) := by
  have hplain : ∀ c ∈ (String.ofList (show_decimal (.v4 a))).toList, Text.is_whitespace c = false := by
    intro c hc
    rw [String.toList_ofList] at hc
    rcases Decimal.mem_write_bytes hc with rfl | hdigit
    · decide
    · have hbounds := Char.isDigit_iff_toNat.mp hdigit
      have hlow : '0'.toNat = 48 := rfl
      have hhigh : '9'.toNat = 57 := rfl
      simp only [Text.is_whitespace, Bool.or_eq_false_iff, Bool.and_eq_false_iff,
        decide_eq_false_iff_not, beq_eq_false_iff_ne]
      omega
  have hread : Decimal.read_bytes '.' 4 (Decimal.write_bytes '.' 4 a.toNat) = some a.toNat :=
    Decimal.read_write_bytes (by decide) (by decide) (lt_of_lt_of_le a.isLt (by decide))
  have hparse : ∀ s : String, Env.dual_stack.parse_ip s =
      (Decimal.read_bytes '.' 4 s.toList).map fun n => .v4 (BitVec.ofNat 32 n) := fun _ => rfl
  refine ⟨String.ofList (show_decimal (.v4 a)), ?_⟩
  rw [Text.trim_eq_self hplain, hparse, String.toList_ofList, show_decimal, hread, Option.map_some,
    BitVec.ofNat_toNat, BitVec.setWidth_eq]

/-- The proxies of one network, and the same network mapped. -/
theorem mappedSettings_proxies :
    MappedSettings .dual_stack ⟨"10.0.0.0/8", none⟩ ⟨"::ffff:10.0.0.0/104", none⟩ where
  trusted_proxies := by
    have hplain : configured_entries "10.0.0.0/8" = ["10.0.0.0/8"] := by decide +kernel
    have hmapped : configured_entries "::ffff:10.0.0.0/104" = ["::ffff:10.0.0.0/104"] := by
      decide +kernel
    rw [hplain, hmapped]
    refine .cons (.inr ⟨⟨.v4 0x0A000000#32, 8, by decide⟩, _, ?_, ?_, .mapped _ _ _ (by decide)⟩) .nil
    · decide +kernel
    · decide +kernel
  bound_ips := by
    have hnone : configured_entries "" = [] := by decide +kernel
    show List.Forall₂ _ (configured_entries "") (configured_entries "")
    rw [hnone]
    exact .nil

/-- The peer of that network is not trusted by the mapped one, and what it reports is not looked at. -/
theorem mapped_invariant_iff_proxies :
    ¬ ∀ c c', MappedConnection .dual_stack c c' →
      network_verdict .dual_stack (fun _ => []) (ApiKey.sample 0) ⟨"10.0.0.0/8", none⟩ c =
        network_verdict .dual_stack (fun _ => []) (ApiKey.sample 0) ⟨"::ffff:10.0.0.0/104", none⟩ c' := by
  rw [mapped_invariant_iff reads_dual_stack _ mappedSettings_proxies]
  intro hkeeps
  have hbefore : (NetworkSettings.mk "10.0.0.0/8" none).trusted .dual_stack (fun _ => []) =
      some [⟨.v4 0x0A000000#32, 8, by decide⟩] := by decide +kernel
  have hafter : (NetworkSettings.mk "::ffff:10.0.0.0/104" none).trusted .dual_stack (fun _ => []) =
      some [⟨.v6 (to_ipv6_mapped 0x0A000000#32), 96 + 8, by decide⟩] := by decide +kernel
  have hlost := (hkeeps _ _ hbefore hafter).1 0x0A000001#32 (by decide)
  exact absurd hlost (by decide)

/-- A mapped network in `TRUSTED_PROXIES` trusts nobody. -/
theorem mapped_entry_ignored :
    ¬ ∀ (env : Env) (addresses : String → List IpNetwork) (key : ApiKey) (s s' : NetworkSettings)
      (c c' : Connection), MappedSettings env s s' → MappedConnection env c c' →
        network_verdict env addresses key s c = network_verdict env addresses key s' c' := by
  intro all
  have h := all .dual_stack (fun _ => []) (ApiKey.sample 0) ⟨"10.0.0.0/8", none⟩
    ⟨"::ffff:10.0.0.0/104", none⟩ ⟨.v4 0x0A000001#32, [⟨"x-real-ip", some "203.0.113.7"⟩]⟩ _
    mappedSettings_proxies (.refl _)
  have hips := congrArg (Option.map Prod.fst) h
  exact absurd hips (by decide +kernel)

end IpVault
