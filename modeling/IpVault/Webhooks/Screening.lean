import IpVault.Auth.Mapped

set_option autoImplicit false

/-! # Where a webhook may be sent (`dispatch.rs`)

A target is screened before it is contacted: its host is resolved, and one address out of reach is
enough to refuse it. What is out of reach is a list of blocks, looked up after an IPv4-mapped address
is brought back to its plain form.
-/

namespace IpVault

open Lib

/-- `Ipv4Addr::octets`, one of them. -/
def octet (a : BitVec 32) (i : Nat) : Nat := a.toNat / 2 ^ (8 * (3 - i)) % 256

/-- `Ipv4Addr::is_broadcast`. -/
def is_broadcast (a : BitVec 32) : Bool := a == 0xFFFFFFFF#32

/-- `Ipv4Addr::is_documentation`: `192.0.2.0/24`, `198.51.100.0/24` and `203.0.113.0/24`. -/
def is_documentation (a : BitVec 32) : Bool :=
  a >>> 8 == 0xC00002#32 || a >>> 8 == 0xC63364#32 || a >>> 8 == 0xCB0071#32

/-- `is_blocked_address`. -/
def is_blocked_address (ip : IpAddr) : Bool :=
  match normalize_ip ip with
  | .v4 a =>
      is_private a || (IpAddr.v4 a).is_loopback || is_link_local a || (IpAddr.v4 a).is_unspecified ||
        is_broadcast a || is_documentation a ||
        (octet a 0 == 100 && (64 ≤ octet a 1 && octet a 1 < 128)) || octet a 0 == 0 ||
        (octet a 0 == 192 && octet a 1 == 0 && octet a 2 == 0) ||
        (octet a 0 == 198 && octet a 1 &&& 0xfe == 18)
  | .v6 a =>
      (IpAddr.v6 a).is_loopback || (IpAddr.v6 a).is_unspecified ||
        (segment0 a &&& 0xfe00#16) == 0xfc00#16 || (segment0 a &&& 0xffc0#16) == 0xfe80#16

/-- `is_url_safe`, with the resolver as it answers at that moment. -/
def is_url_safe (env : Env) (lookup_host : String → Option (List IpAddr)) (url_str : String)
    (allow_private : Bool) : Bool :=
  if allow_private then true
  else
    match env.parse_url url_str with
    | none => false
    | some url =>
        if url.scheme != "http" && url.scheme != "https" then false
        else
          match url.host_str with
          | none => false
          | some host_str =>
              match lookup_host host_str with
              | none => false
              | some addrs => if addrs.isEmpty then false else !addrs.any is_blocked_address

/-! ## The blocks -/

theorem fits_v4 (a : BitVec 32) (plen : Nat) : min plen 32 ≤ (IpAddr.v4 a).width :=
  Nat.min_le_right plen 32

theorem fits_v6 (a : BitVec 128) (plen : Nat) : min plen 128 ≤ (IpAddr.v6 a).width :=
  Nat.min_le_right plen 128

/-- The IPv4 block `a/plen`. -/
def v4_block (a : BitVec 32) (plen : Nat) : IpNetwork := ⟨.v4 a, min plen 32, fits_v4 a plen⟩

/-- The IPv6 block `a/plen`. -/
def v6_block (a : BitVec 128) (plen : Nat) : IpNetwork := ⟨.v6 a, min plen 128, fits_v6 a plen⟩

/-- The IPv4 blocks out of reach: private use, loopback, link-local, this network, broadcast,
documentation, shared address space, protocol assignments and benchmarking. -/
def reserved_v4 : List IpNetwork :=
  [v4_block 0x0A000000#32 8, v4_block 0xAC100000#32 12, v4_block 0xC0A80000#32 16,
    v4_block 0x7F000000#32 8, v4_block 0xA9FE0000#32 16, v4_block 0#32 8,
    v4_block 0xFFFFFFFF#32 32, v4_block 0xC0000200#32 24, v4_block 0xC6336400#32 24,
    v4_block 0xCB007100#32 24, v4_block 0x64400000#32 10, v4_block 0xC0000000#32 24,
    v4_block 0xC6120000#32 15]

/-- The IPv6 blocks out of reach: loopback, unspecified, unique-local and link-local. -/
def reserved_v6 : List IpNetwork :=
  [v6_block 1#128 128, v6_block 0#128 128, v6_block 0xfc000000000000000000000000000000#128 7,
    v6_block 0xfe800000000000000000000000000000#128 10]

/-- The address, in its plain form, lies in a block out of reach. -/
def Reserved (ip : IpAddr) : Prop :=
  ∃ b ∈ reserved_v4 ++ reserved_v6, b.contains (normalize_ip ip) = true

/-- The second octet of `198.18.0.0/15`. -/
theorem octet_and_fe : ∀ n < 256, (n &&& 0xfe == 18) = true ↔ n / 2 = 9 := by decide +kernel

/-- What is refused of the IPv4 addresses, as numbers. -/
theorem blocked_v4_iff (a : BitVec 32) : is_blocked_address (.v4 a) = true ↔
    a.toNat / 2 ^ 24 = 10 ∨ a.toNat / 2 ^ 20 = 0xAC1 ∨ a.toNat / 2 ^ 16 = 0xC0A8 ∨
      a.toNat / 2 ^ 24 = 127 ∨ a.toNat / 2 ^ 16 = 0xA9FE ∨ a.toNat / 2 ^ 24 = 0 ∨
      a.toNat = 0xFFFFFFFF ∨ a.toNat / 2 ^ 8 = 0xC00002 ∨ a.toNat / 2 ^ 8 = 0xC63364 ∨
      a.toNat / 2 ^ 8 = 0xCB0071 ∨ a.toNat / 2 ^ 22 = 0x191 ∨ a.toNat / 2 ^ 8 = 0xC00000 ∨
      a.toNat / 2 ^ 17 = 0x6309 := by
  have hlt : a.toNat < 2 ^ 32 := a.isLt
  have hzero : (a == 0#32) = true ↔ a.toNat = 0 := by
    rw [beq_iff_eq, ← BitVec.toNat_inj]
    rfl
  have hones : (a == 0xFFFFFFFF#32) = true ↔ a.toNat = 0xFFFFFFFF := by
    rw [beq_iff_eq, ← BitVec.toNat_inj]
    rfl
  have hthis : (octet a 0 == 0) = true ↔ a.toNat / 2 ^ 24 = 0 := by
    rw [beq_iff_eq, octet]
    omega
  have hshared : ((octet a 0 == 100) = true ∧ (64 ≤ octet a 1 ∧ octet a 1 < 128)) ↔
      a.toNat / 2 ^ 22 = 0x191 := by
    rw [beq_iff_eq, octet, octet]
    omega
  have hprotocol : (((octet a 0 == 192) = true ∧ (octet a 1 == 0) = true) ∧
      (octet a 2 == 0) = true) ↔ a.toNat / 2 ^ 8 = 0xC00000 := by
    rw [beq_iff_eq, beq_iff_eq, beq_iff_eq, octet, octet, octet]
    omega
  have hbench : ((octet a 0 == 198) = true ∧ (octet a 1 &&& 0xfe == 18) = true) ↔
      a.toNat / 2 ^ 17 = 0x6309 := by
    rw [octet_and_fe (octet a 1) (Nat.mod_lt _ (by decide)), beq_iff_eq, octet, octet]
    omega
  unfold is_blocked_address normalize_ip IpAddr.is_loopback IpAddr.is_unspecified is_private
    is_link_local is_broadcast is_documentation
  simp only [Bool.or_eq_true, Bool.and_eq_true, decide_eq_true_eq, shifted_eq, hzero, hones, hthis,
    hshared, hprotocol, hbench, BitVec.toNat_ofNat]
  -- The unspecified address is one of its block.
  constructor
  · intro h
    omega
  · intro h
    omega

/-- The networks of the other family hold no address of this one. -/
theorem not_contains_v4 (a : BitVec 128) (n : Nat) (h : n ≤ (IpAddr.v6 a).width) (x : BitVec 32) :
    (⟨.v6 a, n, h⟩ : IpNetwork).contains (.v4 x) = true ↔ False := by
  show false = true ↔ False
  simp

theorem not_contains_v6 (a : BitVec 32) (n : Nat) (h : n ≤ (IpAddr.v4 a).width) (x : BitVec 128) :
    (⟨.v4 a, n, h⟩ : IpNetwork).contains (.v6 x) = true ↔ False := by
  show false = true ↔ False
  simp

/-- **What is refused are the blocks, and nothing else.** -/
theorem blocked_iff_reserved (ip : IpAddr) : is_blocked_address ip = true ↔ Reserved ip := by
  have hplain : is_blocked_address ip = is_blocked_address (normalize_ip ip) := by
    unfold is_blocked_address
    rw [plain_normalize_ip ip]
  unfold Reserved
  rw [hplain]
  have hfixed : normalize_ip (normalize_ip ip) = normalize_ip ip := plain_normalize_ip ip
  generalize normalize_ip ip = x at hfixed ⊢
  rcases x with x | x
  · rw [blocked_v4_iff]
    unfold reserved_v4 reserved_v6 v4_block v6_block
    simp only [List.cons_append, List.nil_append, List.exists_mem_cons_iff, List.not_mem_nil,
      false_and, exists_false, IpNetwork.contains_v4, not_contains_v4, or_false, BitVec.toNat_ofNat]
    norm_num
  · have hlink : (segment0 x &&& 0xffc0#16 == 0xfe80#16) = true ↔ x.toNat / 2 ^ 118 = 0x3fa := by
      rw [beq_iff_eq]
      exact segment0_prefix x 10 (by decide) 0xfe80#16
    have hlocal : (segment0 x &&& 0xfe00#16 == 0xfc00#16) = true ↔ x.toNat / 2 ^ 121 = 0x7e := by
      rw [beq_iff_eq]
      exact segment0_prefix x 7 (by decide) 0xfc00#16
    have hblocked : is_blocked_address (.v6 x) = ((IpAddr.v6 x).is_loopback ||
        (IpAddr.v6 x).is_unspecified || (segment0 x &&& 0xfe00#16) == 0xfc00#16 ||
          (segment0 x &&& 0xffc0#16) == 0xfe80#16) := by
      unfold is_blocked_address
      rw [hfixed]
    rw [hblocked]
    unfold IpAddr.is_loopback IpAddr.is_unspecified reserved_v4 reserved_v6 v4_block v6_block
    simp only [List.cons_append, List.nil_append, Bool.or_eq_true, hlink, hlocal, beq_iff_eq,
      ← BitVec.toNat_inj, List.exists_mem_cons_iff, List.not_mem_nil, false_and, exists_false,
      IpNetwork.contains_v6, not_contains_v6, or_false, false_or, BitVec.toNat_ofNat]
    norm_num
    omega

/-! ## The screen -/

/-- **What passes the screen.** A URL of one of the two schemes, whose host resolves, and resolves to
addresses within reach only. -/
theorem is_url_safe_iff (env : Env) (lookup_host : String → Option (List IpAddr)) (url_str : String) :
    is_url_safe env lookup_host url_str false = true ↔
      ∃ url host_str addrs, env.parse_url url_str = some url ∧
        (url.scheme = "http" ∨ url.scheme = "https") ∧ url.host_str = some host_str ∧
        lookup_host host_str = some addrs ∧ addrs ≠ [] ∧ ∀ ip ∈ addrs, ¬ Reserved ip := by
  have hopen : ∀ ip, is_blocked_address ip = false ↔ ¬ Reserved ip := fun ip => by
    rw [← blocked_iff_reserved, Bool.not_eq_true]
  unfold is_url_safe
  rw [if_neg Bool.false_ne_true]
  cases hparse : env.parse_url url_str with
  | none => simp
  | some url =>
      obtain ⟨scheme, host⟩ := url
      by_cases hscheme : scheme = "http" ∨ scheme = "https"
      · have hnot : (scheme != "http" && scheme != "https") = false := by
          rcases hscheme with rfl | rfl <;> rfl
        cases host with
        | none => simp [hnot]
        | some host_str =>
            cases hlookup : lookup_host host_str with
            | none => simp [hnot, hlookup]
            | some addrs => simp [hnot, hlookup, hscheme, hopen]
      · have hnot : (scheme != "http" && scheme != "https") = true := by
          simpa [not_or] using hscheme
        simp [hnot, hscheme]

end IpVault
