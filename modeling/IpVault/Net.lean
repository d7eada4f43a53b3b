import Mathlib.Tactic

set_option autoImplicit false

/-! # Addresses and networks

The part of `std::net` and of the `ipnetwork` crate the service uses. An address is a 32-bit or
a 128-bit word, a network is an address (host bits and all) with a prefix length that fits its
family. Reading and printing them is left to the environment the service runs in (`Env.lean`).
-/

namespace IpVault

/-- `std::net::IpAddr`. -/
inductive IpAddr where
  | v4 (a : BitVec 32)
  | v6 (a : BitVec 128)
  deriving DecidableEq

namespace IpAddr

/-- The number of bits of an address of this family. -/
def width : IpAddr → Nat
  | v4 _ => 32
  | v6 _ => 128

/-- `is_loopback`: `127.0.0.0/8`, or `::1`. -/
def is_loopback : IpAddr → Bool
  | v4 a => a >>> 24 == 127#32
  | v6 a => a == 1#128

/-- `is_unspecified`: the all-zero address. -/
def is_unspecified : IpAddr → Bool
  | v4 a => a == 0#32
  | v6 a => a == 0#128

end IpAddr

/-- `Ipv4Addr::is_private`: the three blocks of RFC 1918. -/
def is_private (a : BitVec 32) : Bool :=
  a >>> 24 == 10#32 || a >>> 20 == 0xAC1#32 || a >>> 16 == 0xC0A8#32

/-- `Ipv4Addr::is_link_local`: `169.254.0.0/16`. -/
def is_link_local (a : BitVec 32) : Bool := a >>> 16 == 0xA9FE#32

/-- `Ipv6Addr::segments()[0]`: the leading 16 bits. -/
def segment0 (a : BitVec 128) : BitVec 16 := (a >>> 112).truncate 16

/-- `ipnetwork::IpNetwork`: an address and a prefix length that fits its family. -/
structure IpNetwork where
  ip : IpAddr
  plen : Nat
  fits : plen ≤ ip.width
  deriving DecidableEq

namespace IpNetwork

/-- `IpNetwork::from` an address: the network of this one host. -/
def from_addr : IpAddr → IpNetwork
  | .v4 a => ⟨.v4 a, 32, Nat.le_refl 32⟩
  | .v6 a => ⟨.v6 a, 128, Nat.le_refl 128⟩

/-- The bits of a `w`-bit word that a prefix of length `n` covers. -/
def mask (w n : Nat) : BitVec w := ~~~(BitVec.allOnes w >>> n)

/-- `IpNetwork::network`: the address with its host bits cleared. -/
def network (net : IpNetwork) : IpAddr :=
  match net.ip with
  | .v4 a => .v4 (a &&& mask 32 net.plen)
  | .v6 a => .v6 (a &&& mask 128 net.plen)

/-- `IpNetwork::contains`: the same family and the same prefix bits. -/
def contains (net : IpNetwork) (ip : IpAddr) : Bool :=
  match net.ip, ip with
  | .v4 a, .v4 b => a &&& mask 32 net.plen == b &&& mask 32 net.plen
  | .v6 a, .v6 b => a &&& mask 128 net.plen == b &&& mask 128 net.plen
  | _, _ => false

/-- Whether the network is one host: a full-length prefix. -/
def is_single_host (net : IpNetwork) : Bool := net.plen == net.ip.width

theorem width_network (net : IpNetwork) : net.network.width = net.ip.width := by
  unfold network
  cases net.ip <;> rfl

/-- The same network, with its host bits cleared. -/
def masked (net : IpNetwork) : IpNetwork where
  ip := net.network
  plen := net.plen
  fits := net.width_network ▸ net.fits

/-- Masking a second time changes nothing. -/
theorem masked_masked (net : IpNetwork) : net.masked.masked = net.masked := by
  obtain ⟨ip, plen, fits⟩ := net
  cases ip <;> simp [masked, network, BitVec.and_assoc]

theorem network_masked (net : IpNetwork) : net.masked.network = net.network :=
  congrArg IpNetwork.ip net.masked_masked

/-- A prefix of full length covers every bit. -/
theorem and_mask_full {w : Nat} (a : BitVec w) : a &&& mask w w = a := by
  have hmask : mask w w = BitVec.allOnes w := by
    unfold mask
    ext i hi
    simp
  rw [hmask, BitVec.and_allOnes]

/-- A host has no host bits. -/
theorem network_of_single_host {net : IpNetwork} (h : net.is_single_host = true) :
    net.network = net.ip := by
  obtain ⟨ip, plen, fits⟩ := net
  have hplen : plen = ip.width := by simpa [is_single_host] using h
  cases ip with
  | v4 a =>
      obtain rfl : plen = 32 := hplen
      exact congrArg IpAddr.v4 (and_mask_full a)
  | v6 a =>
      obtain rfl : plen = 128 := hplen
      exact congrArg IpAddr.v6 (and_mask_full a)

theorem is_single_host_masked (net : IpNetwork) :
    net.masked.is_single_host = net.is_single_host := by
  unfold is_single_host masked
  rw [width_network]

end IpNetwork

end IpVault
