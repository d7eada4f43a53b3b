import IpVault.Lib.Decimal
import IpVault.Records.Canonical

set_option autoImplicit false

/-! # One spelling per network

`normalize_ip_or_cidr` has a fixed point for each network, which two texts share exactly if they
denote the same network. All it needs of the crates is that they read what they print: an address, and
an address with a prefix length.
-/

namespace IpVault

open Lib

/-- The networks are the same: family, address without host bits, and prefix length. -/
def IpNetwork.Same (net net' : IpNetwork) : Prop :=
  net.network = net'.network ∧ net.plen = net'.plen

theorem IpNetwork.same_iff_masked {net net' : IpNetwork} :
    net.Same net' ↔ net.masked = net'.masked := by
  unfold IpNetwork.Same IpNetwork.masked
  rw [IpNetwork.mk.injEq]

/-- What `std` and `ipnetwork` print, `ipnetwork` reads: a bare address as the network of one host,
and an address with a prefix length as the two. In particular no two addresses are printed alike. -/
structure Env.ReadsPrinted (env : Env) : Prop where
  host : ∀ a : IpAddr, env.parse_network (env.show_ip a) = some ⟨a, a.width, Nat.le_refl _⟩
  cidr : ∀ (a : IpAddr) (n : Nat) (h : n ≤ a.width),
    env.parse_network (env.show_ip a ++ "/" ++ toString n) = some ⟨a, n, h⟩

section

variable {env : Env} {s s' : String} {net net' : IpNetwork}

/-- The canonical text of a network reads as the network without its host bits. -/
theorem Env.ReadsPrinted.parse_show (henv : env.ReadsPrinted) (net : IpNetwork) :
    env.parse_network (env.show_network net) = some net.masked := by
  unfold Env.show_network
  by_cases hsingle : net.is_single_host = true
  · rw [if_pos hsingle, henv.host]
    refine congrArg some ?_
    unfold IpNetwork.masked
    rw [IpNetwork.mk.injEq]
    have hplen : net.plen = net.ip.width := by simpa [IpNetwork.is_single_host] using hsingle
    exact ⟨(IpNetwork.network_of_single_host hsingle).symm, hplen.symm⟩
  · rw [if_neg hsingle]
    exact henv.cidr net.network net.plen (net.width_network ▸ net.fits)

theorem normalize_of_unread (h : env.parse_network s = none) : normalize_ip_or_cidr env s = s := by
  unfold normalize_ip_or_cidr
  rw [h]

theorem normalize_normalize (henv : env.ReadsPrinted) (s : String) :
    normalize_ip_or_cidr env (normalize_ip_or_cidr env s) = normalize_ip_or_cidr env s := by
  cases h : env.parse_network s with
  | none =>
      have hsame := normalize_of_unread h
      rw [hsame, hsame]
  | some net =>
      have hread := henv.parse_show net
      rw [normalize_of_parse h, normalize_of_parse hread, env.show_network_masked]

theorem normalize_eq_iff (henv : env.ReadsPrinted) (h : env.parse_network s = some net)
    (h' : env.parse_network s' = some net') :
    normalize_ip_or_cidr env s = normalize_ip_or_cidr env s' ↔ net.Same net' := by
  rw [IpNetwork.same_iff_masked]
  constructor
  · intro heq
    rw [normalize_of_parse h, normalize_of_parse h'] at heq
    have hread := henv.parse_show net
    rw [heq, henv.parse_show net'] at hread
    exact (Option.some.inj hread).symm
  · exact normalize_eq_of_masked h h'

end

/-- **Canonical form.** `normalize_ip_or_cidr` is idempotent on every text; two texts that are read as
networks come to one text exactly if the networks are the same; and what a text that is read comes to
is read as the same network. -/
theorem canonical_form (env : Env) (henv : env.ReadsPrinted) :
    (∀ s, normalize_ip_or_cidr env (normalize_ip_or_cidr env s) = normalize_ip_or_cidr env s) ∧
    (∀ s s' net net', env.parse_network s = some net → env.parse_network s' = some net' →
      (normalize_ip_or_cidr env s = normalize_ip_or_cidr env s' ↔ net.Same net')) ∧
    ∀ s net, env.parse_network s = some net →
      ∃ net', env.parse_network (normalize_ip_or_cidr env s) = some net' ∧ net'.Same net := by
  refine ⟨normalize_normalize henv, fun s s' net net' => normalize_eq_iff henv, ?_⟩
  intro s net h
  rw [normalize_of_parse h]
  refine ⟨net.masked, henv.parse_show net, ?_⟩
  rw [IpNetwork.same_iff_masked]
  exact net.masked_masked

/-! ## Addresses in decimal -/

/-- An address in decimal: an IPv4 address as usual, and the sixteen bytes of an IPv6 address, of
which the samples use none, with colons between them. -/
def show_decimal : IpAddr → List Char
  | .v4 a => Decimal.write_bytes '.' 4 a.toNat
  | .v6 a => Decimal.write_bytes ':' 16 a.toNat

/-- The address that is written so. -/
def read_decimal (cs : List Char) : Option IpAddr :=
  match Decimal.read_bytes '.' 4 cs with
  | some n => some (.v4 (BitVec.ofNat 32 n))
  | none => (Decimal.read_bytes ':' 16 cs).map fun n => .v6 (BitVec.ofNat 128 n)

/-- An address, and a prefix length behind a slash, or none. -/
def read_network (s : String) : Option IpNetwork :=
  match Text.splitChars '/' s.toList with
  | [a] => (read_decimal a).map fun ip => ⟨ip, ip.width, Nat.le_refl _⟩
  | [a, n] => (read_decimal a).bind fun ip => (Decimal.read 129 n).bind fun plen =>
      if h : plen ≤ ip.width then some ⟨ip, plen, h⟩ else none
  | _ => none

/-- `Env.sample`, with addresses in decimal. -/
def Env.decimal : Env :=
  { Env.sample with
    parse_network := read_network
    show_ip := fun ip => String.ofList (show_decimal ip) }

theorem not_mem_show_decimal {c : Char} (hc : c ≠ '.' ∧ c ≠ ':' ∧ c.isDigit = false) (ip : IpAddr) :
    c ∉ show_decimal ip := by
  intro hmem
  cases ip with
  | v4 a =>
      rcases Decimal.mem_write_bytes hmem with hsep | hdigit
      · exact hc.1 hsep
      · rw [hc.2.2] at hdigit
        cases hdigit
  | v6 a =>
      rcases Decimal.mem_write_bytes hmem with hsep | hdigit
      · exact hc.2.1 hsep
      · rw [hc.2.2] at hdigit
        cases hdigit

theorem read_show_decimal (ip : IpAddr) : read_decimal (show_decimal ip) = some ip := by
  cases ip with
  | v4 a =>
      have hread : Decimal.read_bytes '.' 4 (show_decimal (.v4 a)) = some a.toNat :=
        Decimal.read_write_bytes (by decide) (by decide) (lt_of_lt_of_le a.isLt (by decide))
      unfold read_decimal
      rw [hread]
      exact congrArg (some ∘ IpAddr.v4) (BitVec.ofNat_toNat 32 a)
  | v6 a =>
      have hread : Decimal.read_bytes ':' 16 (show_decimal (.v6 a)) = some a.toNat :=
        Decimal.read_write_bytes (by decide) (by decide) (lt_of_lt_of_le a.isLt (by decide))
      have hdot : '.' ∉ show_decimal (.v6 a) := by
        intro hmem
        rcases Decimal.mem_write_bytes hmem with hsep | hdigit
        · cases hsep
        · cases hdigit
      have hnone := Decimal.read_bytes_of_not_mem (k := 4) hdot (by decide)
      unfold read_decimal
      rw [hnone, hread]
      exact congrArg (some ∘ IpAddr.v6) (BitVec.ofNat_toNat 128 a)

theorem read_network_host {cs : List Char} {ip : IpAddr} (hslash : '/' ∉ cs)
    (h : read_decimal cs = some ip) :
    read_network (String.ofList cs) = some ⟨ip, ip.width, Nat.le_refl _⟩ := by
  unfold read_network
  rw [String.toList_ofList, Decimal.splitChars_of_not_mem hslash]
  show (read_decimal cs).map _ = _
  rw [h]
  rfl

theorem Env.readsPrinted_decimal : Env.decimal.ReadsPrinted where
  host ip := read_network_host (not_mem_show_decimal (by decide) ip) (read_show_decimal ip)
  cidr ip n h := by
    have hslash : '/' ∉ show_decimal ip := not_mem_show_decimal (by decide) ip
    have hslash' : '/' ∉ Decimal.write n := by
      intro hmem
      have hdigit := Decimal.isDigit_of_mem_write hmem
      cases hdigit
    have htext : (String.ofList (show_decimal ip) ++ "/" ++ toString n).toList =
        show_decimal ip ++ '/' :: Decimal.write n := by
      rw [String.toList_append, String.toList_append, String.toList_ofList, List.append_assoc]
      rfl
    have hbound : n < 129 := by
      cases ip with
      | v4 a =>
          have h32 : n ≤ 32 := h
          omega
      | v6 a => exact Nat.lt_succ_of_le h
    show read_network (String.ofList (show_decimal ip) ++ "/" ++ toString n) = _
    unfold read_network
    rw [htext, Text.splitChars_append hslash, Decimal.splitChars_of_not_mem hslash']
    show (read_decimal (show_decimal ip)).bind _ = _
    rw [read_show_decimal, Option.bind_some, Decimal.read_write hbound, Option.bind_some, dif_pos h]

/-- Two spellings of one network, and one of another. -/
theorem canonical_form_decimal :
    normalize_ip_or_cidr .decimal "192.168.1.50/24" =
        normalize_ip_or_cidr .decimal "192.168.1.100/24" ∧
      normalize_ip_or_cidr .decimal "192.168.1.50/24" ≠
        normalize_ip_or_cidr .decimal "192.168.1.50/25" := by
  have hform := (canonical_form .decimal Env.readsPrinted_decimal).2.1
  have h50 : Env.decimal.parse_network "192.168.1.50/24" =
      some ⟨.v4 0xC0A80132#32, 24, by decide⟩ := by decide +kernel
  have h100 : Env.decimal.parse_network "192.168.1.100/24" =
      some ⟨.v4 0xC0A80164#32, 24, by decide⟩ := by decide +kernel
  have h25 : Env.decimal.parse_network "192.168.1.50/25" =
      some ⟨.v4 0xC0A80132#32, 25, by decide⟩ := by decide +kernel
  have hsame : IpNetwork.Same ⟨.v4 0xC0A80132#32, 24, by decide⟩
      ⟨.v4 0xC0A80164#32, 24, by decide⟩ := ⟨by decide, rfl⟩
  refine ⟨(hform _ _ _ _ h50 h100).mpr hsame, fun heq => ?_⟩
  have hdiffer := (hform _ _ _ _ h50 h25).mp heq
  exact absurd hdiffer.2 (by decide)

end IpVault
