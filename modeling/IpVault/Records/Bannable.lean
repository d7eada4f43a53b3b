import IpVault.Api.Records
import IpVault.Auth.ClientIp

set_option autoImplicit false

/-! # Protected addresses inside a banned range

`guard_bannable_address` looks at the first address of a network. Two networks of one family that
share an address are nested, so that a range the guard accepts holds a protected address in two
cases only: a whole protected block lies further inside it, or the range lies in the IPv4-mapped
image of a protected block, which the guard does not know.
-/

namespace IpVault

namespace IpNetwork

/-! ## Nested networks -/

theorem getElem_mask {w n i : Nat} (hi : i < w) : (mask w n)[i] = decide (w ≤ n + i) := by
  unfold mask
  rw [BitVec.getElem_not, BitVec.getElem_ushiftRight, BitVec.getLsbD_allOnes]
  by_cases h : n + i < w
  · rw [decide_eq_true h, decide_eq_false (by omega)]
    rfl
  · rw [decide_eq_false h, decide_eq_true (by omega)]
    rfl

/-- A longer prefix fixes the bits of a shorter one. -/
theorem mask_and_mask {w n m : Nat} (h : n ≤ m) : mask w m &&& mask w n = mask w n := by
  ext i hi
  rw [BitVec.getElem_and, getElem_mask hi, getElem_mask hi]
  by_cases hn : w ≤ n + i
  · rw [decide_eq_true hn, decide_eq_true (show w ≤ m + i by omega)]
    rfl
  · rw [decide_eq_false hn, Bool.and_false]

/-- Two words agree on a prefix if they agree once the other bits are shifted out. -/
theorem and_mask_eq_iff {w n : Nat} (hn : n ≤ w) (a b : BitVec w) :
    a &&& mask w n = b &&& mask w n ↔ a >>> (w - n) = b >>> (w - n) := by
  constructor
  · intro h
    ext i hi
    rw [BitVec.getElem_ushiftRight, BitVec.getElem_ushiftRight]
    by_cases hin : w - n + i < w
    · have hbit := congrArg (fun x : BitVec w => x[w - n + i]) h
      simp only [BitVec.getElem_and, getElem_mask hin] at hbit
      rw [decide_eq_true (show w ≤ n + (w - n + i) by omega), Bool.and_true, Bool.and_true] at hbit
      rw [BitVec.getLsbD_eq_getElem hin, BitVec.getLsbD_eq_getElem hin]
      exact hbit
    · rw [BitVec.getLsbD_of_ge a _ (by omega), BitVec.getLsbD_of_ge b _ (by omega)]
  · intro h
    ext i hi
    rw [BitVec.getElem_and, BitVec.getElem_and, getElem_mask hi]
    by_cases hin : w ≤ n + i
    · have hpos : i - (w - n) < w := by omega
      have hbit := congrArg (fun x : BitVec w => x[i - (w - n)]) h
      simp only [BitVec.getElem_ushiftRight] at hbit
      rw [show w - n + (i - (w - n)) = i by omega, BitVec.getLsbD_eq_getElem hi,
        BitVec.getLsbD_eq_getElem hi] at hbit
      rw [hbit]
    · rw [decide_eq_false hin, Bool.and_false, Bool.and_false]

/-- What a prefix of two words has in common, a shorter prefix has in common. -/
theorem and_mask_of_le {w n m : Nat} (h : n ≤ m) {a b : BitVec w}
    (hab : a &&& mask w m = b &&& mask w m) : a &&& mask w n = b &&& mask w n := by
  rw [← mask_and_mask h, ← BitVec.and_assoc, ← BitVec.and_assoc, hab]

theorem contains_network (net : IpNetwork) : net.contains net.network = true := by
  obtain ⟨ip, plen, fits⟩ := net
  cases ip with
  | v4 a => simp [contains, network, BitVec.and_assoc]
  | v6 a => simp [contains, network, BitVec.and_assoc]

/-- The words of two prefixes meet if the longer prefix begins inside the shorter. -/
theorem words_meet {w n m : Nat} (h : n ≤ m) {a b x : BitVec w}
    (ha : a &&& mask w n = x &&& mask w n) (hb : b &&& mask w m = x &&& mask w m) :
    a &&& mask w n = b &&& mask w m &&& mask w n := by
  rw [BitVec.and_assoc, mask_and_mask h, ha]
  exact (and_mask_of_le h hb).symm

/-- **Networks that share an address are nested**: one of them begins inside the other. -/
theorem meet_iff {net block : IpNetwork} :
    (∃ ip, net.contains ip = true ∧ block.contains ip = true) ↔
      net.contains block.network = true ∨ block.contains net.network = true := by
  constructor
  · rintro ⟨ip, hnet, hblock⟩
    obtain ⟨a, n, hn⟩ := net
    obtain ⟨b, m, hm⟩ := block
    rcases a with a | a <;> rcases b with b | b <;> rcases ip with x | x <;>
      simp only [contains, beq_iff_eq, Bool.false_eq_true] at hnet hblock
    · rcases Nat.le_total n m with h | h
      · exact .inl (beq_iff_eq.mpr (words_meet h hnet hblock))
      · exact .inr (beq_iff_eq.mpr (words_meet h hblock hnet))
    · rcases Nat.le_total n m with h | h
      · exact .inl (beq_iff_eq.mpr (words_meet h hnet hblock))
      · exact .inr (beq_iff_eq.mpr (words_meet h hblock hnet))
  · rintro (h | h)
    · exact ⟨block.network, h, block.contains_network⟩
    · exact ⟨net.network, net.contains_network, h⟩

/-- Membership in a block, as a division. -/
theorem contains_v4 {a : BitVec 32} {n : Nat} (h : n ≤ (IpAddr.v4 a).width) (x : BitVec 32) :
    (⟨.v4 a, n, h⟩ : IpNetwork).contains (.v4 x) = true ↔
      x.toNat / 2 ^ (32 - n) = a.toNat / 2 ^ (32 - n) := by
  show (a &&& mask 32 n == x &&& mask 32 n) = true ↔ _
  rw [beq_iff_eq, and_mask_eq_iff (show n ≤ 32 from h), ← BitVec.toNat_inj,
    BitVec.toNat_ushiftRight, BitVec.toNat_ushiftRight, Nat.shiftRight_eq_div_pow,
    Nat.shiftRight_eq_div_pow]
  exact eq_comm

theorem contains_v6 {a : BitVec 128} {n : Nat} (h : n ≤ (IpAddr.v6 a).width) (x : BitVec 128) :
    (⟨.v6 a, n, h⟩ : IpNetwork).contains (.v6 x) = true ↔
      x.toNat / 2 ^ (128 - n) = a.toNat / 2 ^ (128 - n) := by
  show (a &&& mask 128 n == x &&& mask 128 n) = true ↔ _
  rw [beq_iff_eq, and_mask_eq_iff (show n ≤ 128 from h), ← BitVec.toNat_inj,
    BitVec.toNat_ushiftRight, BitVec.toNat_ushiftRight, Nat.shiftRight_eq_div_pow,
    Nat.shiftRight_eq_div_pow]
  exact eq_comm

end IpNetwork

/-! ## Protected addresses -/

/-- Loopback, unspecified, RFC 1918 or link-local. -/
def protected_v4 (a : BitVec 32) : Bool :=
  (IpAddr.v4 a).is_loopback || (IpAddr.v4 a).is_unspecified || is_private a || is_link_local a

/-- What `guard_bannable_address` asks of an address. -/
def guarded_address : IpAddr → Bool
  | .v4 a => protected_v4 a
  | .v6 a =>
      (IpAddr.v6 a).is_loopback || (IpAddr.v6 a).is_unspecified ||
        (segment0 a &&& 0xffc0#16 == 0xfe80#16) || (segment0 a &&& 0xfe00#16 == 0xfc00#16)

/-- A protected IPv4 address in its IPv4-mapped form. -/
def mapped_address : IpAddr → Bool
  | .v4 _ => false
  | .v6 a => (to_ipv4_mapped a).any protected_v4

/-- An address no ban may cover. An IPv4 address keeps its nature in its IPv4-mapped form. -/
def protected_address (ip : IpAddr) : Bool := guarded_address ip || mapped_address ip

theorem private_block_fits : 8 ≤ (IpAddr.v4 0x0A000000#32).width := by decide

/-- The blocks the guard knows. -/
def guarded_blocks : List IpNetwork :=
  [⟨.v4 0x7F000000#32, 8, by decide⟩, ⟨.v4 0#32, 32, by decide⟩,
    ⟨.v4 0x0A000000#32, 8, private_block_fits⟩,
    ⟨.v4 0xAC100000#32, 12, by decide⟩, ⟨.v4 0xC0A80000#32, 16, by decide⟩,
    ⟨.v4 0xA9FE0000#32, 16, by decide⟩, ⟨.v6 1#128, 128, by decide⟩, ⟨.v6 0#128, 128, by decide⟩,
    ⟨.v6 0xfe800000000000000000000000000000#128, 10, by decide⟩,
    ⟨.v6 0xfc000000000000000000000000000000#128, 7, by decide⟩]

/-- The IPv4 ones among them, in their IPv4-mapped form. -/
def mapped_blocks : List IpNetwork :=
  [⟨.v6 0xffff7F000000#128, 104, by decide⟩, ⟨.v6 0xffff00000000#128, 128, by decide⟩,
    ⟨.v6 0xffff0A000000#128, 104, by decide⟩, ⟨.v6 0xffffAC100000#128, 108, by decide⟩,
    ⟨.v6 0xffffC0A80000#128, 112, by decide⟩, ⟨.v6 0xffffA9FE0000#128, 112, by decide⟩]

theorem shifted_eq {w : Nat} (a : BitVec w) (k : Nat) (c : BitVec w) :
    (a >>> k == c) = true ↔ a.toNat / 2 ^ k = c.toNat := by
  rw [beq_iff_eq, ← BitVec.toNat_inj, BitVec.toNat_ushiftRight, Nat.shiftRight_eq_div_pow]

theorem protected_v4_iff (a : BitVec 32) : protected_v4 a = true ↔
    a.toNat / 2 ^ 24 = 127 ∨ a.toNat = 0 ∨ a.toNat / 2 ^ 24 = 10 ∨ a.toNat / 2 ^ 20 = 0xAC1 ∨
      a.toNat / 2 ^ 16 = 0xC0A8 ∨ a.toNat / 2 ^ 16 = 0xA9FE := by
  unfold protected_v4 IpAddr.is_loopback IpAddr.is_unspecified is_private is_link_local
  simp only [Bool.or_eq_true, shifted_eq, or_assoc]
  rw [beq_iff_eq, ← BitVec.toNat_inj]
  rfl

/-- The leading bits of an address, as a division. -/
theorem segment0_prefix (a : BitVec 128) (n : Nat) (hn : n ≤ 16) (c : BitVec 16) :
    segment0 a &&& IpNetwork.mask 16 n = c &&& IpNetwork.mask 16 n ↔
      a.toNat / 2 ^ (128 - n) = c.toNat / 2 ^ (16 - n) := by
  have hseg : (segment0 a).toNat = a.toNat / 2 ^ 112 := by
    unfold segment0
    rw [BitVec.truncate_eq_setWidth, BitVec.toNat_setWidth, BitVec.toNat_ushiftRight,
      Nat.shiftRight_eq_div_pow]
    have := a.isLt
    omega
  rw [IpNetwork.and_mask_eq_iff hn, ← BitVec.toNat_inj, BitVec.toNat_ushiftRight,
    BitVec.toNat_ushiftRight, Nat.shiftRight_eq_div_pow, Nat.shiftRight_eq_div_pow, hseg,
    Nat.div_div_eq_div_mul, ← Nat.pow_add, show 112 + (16 - n) = 128 - n by omega]

theorem mapped_iff (a : BitVec 128) (b : BitVec 32) : to_ipv4_mapped a = some b ↔
    a.toNat / 2 ^ 32 = 0xFFFF ∧ b.toNat = a.toNat % 2 ^ 32 := by
  unfold to_ipv4_mapped
  have hshift : a >>> 32 = 0xFFFF#128 ↔ a.toNat / 2 ^ 32 = 0xFFFF := by
    rw [← beq_iff_eq, shifted_eq]
    rfl
  by_cases h : a >>> 32 = 0xFFFF#128
  · rw [if_pos h, Option.some.injEq, ← BitVec.toNat_inj, BitVec.truncate_eq_setWidth,
      BitVec.toNat_setWidth]
    constructor
    · intro hb
      exact ⟨hshift.mp h, hb.symm⟩
    · rintro ⟨-, hb⟩
      exact hb.symm
  · rw [if_neg h]
    constructor
    · intro hb
      cases hb
    · rintro ⟨ha, -⟩
      exact absurd (hshift.mpr ha) h

/-- The guard accepts a network whose first address it does not know as protected. -/
theorem guard_bannable_address_ok {net : IpNetwork} :
    guard_bannable_address net = .ok () ↔ guarded_address net.network = false := by
  have checks : ∀ (p q : Bool) (e e' : AppError),
      (if p then .error e else if q then .error e' else .ok () : Except AppError Unit) = .ok () ↔
        (p || q) = false := by
    intro p q e e'
    cases p <;> cases q <;> simp
  unfold guard_bannable_address guarded_address
  rcases net.network with x | x
  · refine (checks _ _ _ _).trans ?_
    unfold protected_v4
    rw [← Bool.or_assoc]
  · refine (checks _ _ _ _).trans ?_
    rw [← Bool.or_assoc]

/-- The addresses the guard knows are those of its blocks. -/
theorem guarded_iff_blocks (ip : IpAddr) : guarded_address ip = true ↔
    ∃ b ∈ guarded_blocks, b.contains ip = true := by
  rcases ip with x | x
  · have cross : ∀ (a : BitVec 128) (n : Nat) (h : n ≤ (IpAddr.v6 a).width),
        (⟨.v6 a, n, h⟩ : IpNetwork).contains (.v4 x) = true ↔ False := fun a n h => by
      show false = true ↔ False
      simp
    show protected_v4 x = true ↔ _
    rw [protected_v4_iff]
    unfold guarded_blocks
    simp only [List.exists_mem_cons_iff, List.not_mem_nil, false_and, exists_false,
      IpNetwork.contains_v4, cross, or_false, BitVec.toNat_ofNat]
    norm_num
  · have cross : ∀ (a : BitVec 32) (n : Nat) (h : n ≤ (IpAddr.v4 a).width),
        (⟨.v4 a, n, h⟩ : IpNetwork).contains (.v6 x) = true ↔ False := fun a n h => by
      show false = true ↔ False
      simp
    have hlink : (segment0 x &&& 0xffc0#16 == 0xfe80#16) = true ↔ x.toNat / 2 ^ 118 = 0x3fa := by
      rw [beq_iff_eq]
      exact segment0_prefix x 10 (by decide) 0xfe80#16
    have hlocal : (segment0 x &&& 0xfe00#16 == 0xfc00#16) = true ↔ x.toNat / 2 ^ 121 = 0x7e := by
      rw [beq_iff_eq]
      exact segment0_prefix x 7 (by decide) 0xfc00#16
    unfold guarded_address IpAddr.is_loopback IpAddr.is_unspecified guarded_blocks
    simp only [Bool.or_eq_true, hlink, hlocal, beq_iff_eq, ← BitVec.toNat_inj,
      List.exists_mem_cons_iff, List.not_mem_nil, false_and, exists_false,
      IpNetwork.contains_v6, cross, or_false, false_or, BitVec.toNat_ofNat]
    norm_num
    omega

theorem mapped_iff_blocks (ip : IpAddr) : mapped_address ip = true ↔
    ∃ b ∈ mapped_blocks, b.contains ip = true := by
  rcases ip with x | x
  · have cross : ∀ (a : BitVec 128) (n : Nat) (h : n ≤ (IpAddr.v6 a).width),
        (⟨.v6 a, n, h⟩ : IpNetwork).contains (.v4 x) = true ↔ False := fun a n h => by
      show false = true ↔ False
      simp
    unfold mapped_address mapped_blocks
    simp only [List.exists_mem_cons_iff, List.not_mem_nil, false_and, exists_false, cross, or_false,
      Bool.false_eq_true]
  · have hmapped : mapped_address (.v6 x) = true ↔ x.toNat / 2 ^ 32 = 0xFFFF ∧
        (x.toNat % 2 ^ 32 / 2 ^ 24 = 127 ∨ x.toNat % 2 ^ 32 = 0 ∨ x.toNat % 2 ^ 32 / 2 ^ 24 = 10 ∨
          x.toNat % 2 ^ 32 / 2 ^ 20 = 0xAC1 ∨ x.toNat % 2 ^ 32 / 2 ^ 16 = 0xC0A8 ∨
          x.toNat % 2 ^ 32 / 2 ^ 16 = 0xA9FE) := by
      show (to_ipv4_mapped x).any protected_v4 = true ↔ _
      rw [Option.any_eq_true]
      constructor
      · rintro ⟨b, hb, hprotected⟩
        obtain ⟨hhigh, hlow⟩ := (mapped_iff x b).mp hb
        rw [protected_v4_iff, hlow] at hprotected
        exact ⟨hhigh, hprotected⟩
      · rintro ⟨hhigh, hlow⟩
        refine ⟨x.setWidth 32, (mapped_iff x _).mpr ⟨hhigh, BitVec.toNat_setWidth 32 x⟩, ?_⟩
        rw [protected_v4_iff, BitVec.toNat_setWidth]
        exact hlow
    rw [hmapped]
    unfold mapped_blocks
    simp only [List.exists_mem_cons_iff, List.not_mem_nil, false_and, exists_false,
      IpNetwork.contains_v6, or_false, BitVec.toNat_ofNat]
    norm_num
    omega

/-! ## Ranges -/

/-- No protected block begins in the network, and the network does not begin in the IPv4-mapped
form of one. -/
def clear_of_blocks (net : IpNetwork) : Bool :=
  ((guarded_blocks ++ mapped_blocks).all fun b => !net.contains b.network) &&
    mapped_blocks.all fun b => !b.contains net.network

/-- **Which ranges the guard accepts rightly.** A network it accepts covers no protected address if
and only if it is clear of the blocks. -/
theorem bannable_unprotected_iff {net : IpNetwork} (h : guard_bannable_address net = .ok ()) :
    (∀ ip, net.contains ip = true → protected_address ip = false) ↔
      clear_of_blocks net = true := by
  have hguarded : ∀ b ∈ guarded_blocks, b.contains net.network = false := by
    intro b hb
    rw [← Bool.not_eq_true]
    intro hin
    have hknown := (guarded_iff_blocks net.network).mpr ⟨b, hb, hin⟩
    rw [guard_bannable_address_ok.mp h] at hknown
    cases hknown
  have hprotected : ∀ ip, protected_address ip = true ↔
      ∃ b ∈ guarded_blocks ++ mapped_blocks, b.contains ip = true := by
    intro ip
    unfold protected_address
    rw [Bool.or_eq_true, guarded_iff_blocks, mapped_iff_blocks]
    simp only [List.mem_append, or_and_right, exists_or]
  -- a block the network meets begins in it, or the network begins in the block
  have hmeet : (∀ ip, net.contains ip = true → protected_address ip = false) ↔
      ∀ b ∈ guarded_blocks ++ mapped_blocks,
        net.contains b.network = false ∧ b.contains net.network = false := by
    constructor
    · intro hsafe b hb
      constructor
      · rw [← Bool.not_eq_true]
        intro hin
        have := (hprotected _).mpr ⟨b, hb, b.contains_network⟩
        rw [hsafe _ hin] at this
        cases this
      · rw [← Bool.not_eq_true]
        intro hin
        have := (hprotected _).mpr ⟨b, hb, hin⟩
        rw [hsafe _ net.contains_network] at this
        cases this
    · intro hclear ip hip
      rw [← Bool.not_eq_true]
      intro hbad
      obtain ⟨b, hb, hin⟩ := (hprotected ip).mp hbad
      rcases IpNetwork.meet_iff.mp ⟨ip, hip, hin⟩ with hnested | hnested
      · rw [(hclear b hb).1] at hnested
        cases hnested
      · rw [(hclear b hb).2] at hnested
        cases hnested
  rw [hmeet]
  unfold clear_of_blocks
  simp only [Bool.and_eq_true, List.all_eq_true, Bool.not_eq_true']
  constructor
  · intro hclear
    exact ⟨fun b hb => (hclear b hb).1, fun b hb => (hclear b (List.mem_append_right _ hb)).2⟩
  · rintro ⟨hbegins, hinside⟩ b hb
    refine ⟨hbegins b hb, ?_⟩
    rcases List.mem_append.mp hb with hb | hb
    · exact hguarded b hb
    · exact hinside b hb

/-- The upper half of the IPv4 addresses. -/
def upper_half : IpNetwork := ⟨.v4 0x80000000#32, 1, by decide⟩

/-- The network of one public host. -/
theorem bannable_unprotected_host :
    (∀ ip, host7.contains ip = true → protected_address ip = false) ↔
      clear_of_blocks host7 = true :=
  bannable_unprotected_iff rfl

/-- `128.0.0.0/1` may be banned, and `192.168.0.1` with it. -/
theorem protected_address_banned :
    ¬ ∀ net, guard_bannable_address net = .ok () →
      ∀ ip, net.contains ip = true → protected_address ip = false := by
  intro h
  have hprivate := h upper_half rfl (.v4 0xC0A80001#32) (by decide)
  cases hprivate.symm.trans (show protected_address (.v4 0xC0A80001#32) = true by decide)

end IpVault
