import IpVault.Crypto

set_option autoImplicit false

/-! # The list of trusted proxies (`parse_trusted_proxies` in `config.rs`)

The list decides who may rewrite the client address, so that one entry that is nothing refuses the
whole list. An entry is a network, an address or a name. `hostname_rejection` works on bytes where it
looks at the ends of an entry and at its length; for what it accepts, bytes are characters
(`hostname_rejection_eq_none_iff`).
-/

namespace IpVault

open Lib

/-- `InvalidProxyEntry`. -/
structure InvalidProxyEntry where
  entry : String
  reason : String
  deriving DecidableEq

/-- `ProxyMatcher`. -/
inductive ProxyMatcher where
  | Network (net : IpNetwork)
  | Hostname (name : String)
  deriving DecidableEq

/-- `u8::is_ascii_alphanumeric`. -/
def is_ascii_alphanumeric (b : UInt8) : Bool :=
  (48 ≤ b && b ≤ 57) || (65 ≤ b && b ≤ 90) || (97 ≤ b && b ≤ 122)

/-- The first and the last byte are a letter or a digit. -/
def edges_are_alphanumeric (bytes : List UInt8) : Bool :=
  match bytes.head?, bytes.getLast? with
  | some first, some last => is_ascii_alphanumeric first && is_ascii_alphanumeric last
  | _, _ => false

/-- What a hostname is made of. -/
def hostname_char (c : Char) : Bool := c.isAlphanum || c == '-' || c == '.' || c == '_'

/-- `hostname_rejection`: why an entry is no name, unless it is one. -/
def hostname_rejection (entry : String) : Option String :=
  let bytes := Crypto.as_bytes entry
  if Text.is_empty entry then some "empty"
  else if 253 < bytes.length then
    some "longer than the 253-character limit on a DNS name"
  else if entry.toList.contains '/' || entry.toList.contains ':' then
    some ("contains '/' or ':', which appear only in CIDR and IPv6 syntax, so this is a " ++
      "malformed address rather than a hostname")
  else if !edges_are_alphanumeric bytes then
    some "a hostname must begin and end with a letter or a digit"
  else if entry.toList.all fun c => c.isDigit || c == '.' then
    some "made only of digits and dots, so this is a malformed IPv4 literal"
  else if !entry.toList.all hostname_char then
    some "contains characters that cannot appear in a DNS name"
  else none

/-- One entry of the list: a network, an address or a name. -/
def read_proxy (env : Env) (entry : String) : Except InvalidProxyEntry ProxyMatcher :=
  match env.parse_network entry with
  | some net => .ok (.Network net)
  | none =>
      match env.parse_ip entry with
      | some addr => .ok (.Network (.from_addr addr))
      | none =>
          match hostname_rejection entry with
          | none => .ok (.Hostname entry)
          | some reason => .error ⟨entry, reason⟩

/-- The entries of the list: what stands between its commas, trimmed, and is not blank. -/
def configured_entries (raw : String) : List String :=
  ((Text.split ',' raw).map Text.trim).filter (!Text.is_empty ·)

/-- One turn of the loop of `parse_trusted_proxies`. -/
def push_proxy (env : Env) (lists : List ProxyMatcher × List InvalidProxyEntry) (entry : String) :
    List ProxyMatcher × List InvalidProxyEntry :=
  match read_proxy env entry with
  | .ok matcher => (lists.1 ++ [matcher], lists.2)
  | .error invalid => (lists.1, lists.2 ++ [invalid])

/-- `parse_trusted_proxies`. -/
def parse_trusted_proxies (env : Env) (raw : String) :
    Except (List InvalidProxyEntry) (List ProxyMatcher) :=
  let (matchers, invalid) := (configured_entries raw).foldl (push_proxy env) ([], [])
  if invalid.isEmpty then .ok matchers else .error invalid

/-- The literal entries of `TrustedProxies::new`. -/
def literal_networks (matchers : List ProxyMatcher) : List IpNetwork :=
  matchers.filterMap fun
    | .Network net => some net
    | .Hostname _ => none

/-- The names of `TrustedProxies::new`. -/
def hostname_entries (matchers : List ProxyMatcher) : List String :=
  matchers.filterMap fun
    | .Network _ => none
    | .Hostname name => some name

/-! ## What a name is -/

/-- At most 253 letters, digits and `-`, `.`, `_`, the first and the last a letter or a digit, and not
only digits and dots. -/
structure IsHostname (s : String) : Prop where
  length : s.toList.length ≤ 253
  chars : ∀ c ∈ s.toList, hostname_char c = true
  edges : ∃ first last, s.toList.head? = some first ∧ s.toList.getLast? = some last ∧
    first.isAlphanum = true ∧ last.isAlphanum = true
  named : ∃ c ∈ s.toList, (c.isDigit || c == '.') = false

theorem hostname_char_lt {c : Char} (h : hostname_char c = true) : c.toNat < 128 := by
  have hshape : hostname_char c = (decide (c.val ≥ 65 ∧ c.val ≤ 90) || c.val ≥ 97 && c.val ≤ 122 ||
      c.val ≥ 48 && c.val ≤ 57 || c == '-' || c == '.' || c == '_') := rfl
  simp only [hshape, Bool.or_eq_true, Bool.and_eq_true, decide_eq_true_eq, beq_iff_eq, ge_iff_le,
    UInt32.le_iff_toNat_le] at h
  have hcode : c.toNat = c.val.toNat := rfl
  rcases h with (((((h | h) | h) | rfl) | rfl) | rfl)
  · have : c.val.toNat ≤ 90 := h.2
    omega
  · have : c.val.toNat ≤ 122 := h.2
    omega
  · have : c.val.toNat ≤ 57 := h.2
    omega
  all_goals decide

/-- The encoding of ASCII characters is their codes. -/
theorem as_bytes_ascii {s : String} (h : ∀ c ∈ s.toList, c.toNat < 128) :
    Crypto.as_bytes s = s.toList.map fun c => UInt8.ofNat c.toNat := by
  unfold Crypto.as_bytes
  rw [List.map_eq_flatMap]
  refine List.flatMap_congr fun c hc => ?_
  have hle : c.val.toNat ≤ 127 := Nat.le_of_lt_succ (h c hc)
  unfold String.utf8EncodeChar
  exact if_pos hle

theorem is_ascii_alphanumeric_ofNat {c : Char} (h : c.toNat < 128) :
    is_ascii_alphanumeric (UInt8.ofNat c.toNat) = c.isAlphanum := by
  have all : ∀ n < 128, is_ascii_alphanumeric (UInt8.ofNat n) = (Char.ofNat n).isAlphanum := by
    decide +kernel
  rw [all _ h, Char.ofNat_toNat]

theorem edges_are_alphanumeric_iff {s : String} (h : ∀ c ∈ s.toList, c.toNat < 128) :
    edges_are_alphanumeric (Crypto.as_bytes s) = true ↔
      ∃ first last, s.toList.head? = some first ∧ s.toList.getLast? = some last ∧
        first.isAlphanum = true ∧ last.isAlphanum = true := by
  unfold edges_are_alphanumeric
  rw [as_bytes_ascii h, List.head?_map, List.getLast?_map]
  cases hfirst : s.toList.head? with
  | none => simp
  | some first =>
      cases hlast : s.toList.getLast? with
      | none => simp
      | some last =>
          have hf := is_ascii_alphanumeric_ofNat (h first (List.mem_of_head? hfirst))
          have hl := is_ascii_alphanumeric_ofNat (h last (List.mem_of_getLast? hlast))
          simp [hf, hl]

/-- No slash and no colon is in a name. -/
theorem IsHostname.no_slash_or_colon {s : String} (h : IsHostname s) :
    '/' ∉ s.toList ∧ ':' ∉ s.toList :=
  ⟨fun hmem => absurd (h.chars _ hmem) (by decide), fun hmem => absurd (h.chars _ hmem) (by decide)⟩

/-- **A name is refused unless it is one.** -/
theorem hostname_rejection_eq_none_iff {s : String} : hostname_rejection s = none ↔ IsHostname s := by
  have hascii : (∀ c ∈ s.toList, hostname_char c = true) → ∀ c ∈ s.toList, c.toNat < 128 :=
    fun hchars c hc => hostname_char_lt (hchars c hc)
  unfold hostname_rejection
  constructor
  · intro h
    dsimp only at h
    split_ifs at h with hempty hlong hsyntax hedges hdigits hchars
    have hchars : ∀ c ∈ s.toList, hostname_char c = true := by simpa using hchars
    refine ⟨?_, hchars, ?_, by simpa using hdigits⟩
    · rw [as_bytes_ascii (hascii hchars), List.length_map] at hlong
      omega
    · exact (edges_are_alphanumeric_iff (hascii hchars)).mp (by simpa using hedges)
  · intro h
    have hempty : Text.is_empty s = false := by
      obtain ⟨c, hc, -⟩ := h.named
      unfold Text.is_empty
      cases hs : s.toList with
      | nil => simp [hs] at hc
      | cons d ds => rfl
    have hlength : ¬ 253 < (Crypto.as_bytes s).length := by
      rw [as_bytes_ascii (hascii h.chars), List.length_map]
      exact Nat.not_lt.mpr h.length
    have hsyntax : (s.toList.contains '/' || s.toList.contains ':') = false := by
      simpa using h.no_slash_or_colon
    have hedges := (edges_are_alphanumeric_iff (hascii h.chars)).mpr h.edges
    have hdigits : (s.toList.all fun c => c.isDigit || c == '.') = false := by
      simpa using h.named
    have hchars : s.toList.all hostname_char = true := by simpa using h.chars
    dsimp only
    rw [hempty, hsyntax, hedges, hdigits, hchars, if_neg Bool.false_ne_true, if_neg hlength]
    rfl

instance (s : String) : Decidable (IsHostname s) :=
  decidable_of_iff _ hostname_rejection_eq_none_iff

/-! ## The list -/

/-- An entry of the list is a network, an address or a name. -/
def IsProxy (env : Env) (entry : String) : Prop :=
  (env.parse_network entry).isSome = true ∨ (env.parse_ip entry).isSome = true ∨ IsHostname entry

instance (env : Env) (entry : String) : Decidable (IsProxy env entry) :=
  inferInstanceAs (Decidable (_ ∨ _ ∨ _))

/-- What an entry is read as: a network before an address, an address before a name. -/
inductive DenotesProxy (env : Env) (entry : String) : ProxyMatcher → Prop
  | network (net : IpNetwork) (h : env.parse_network entry = some net) :
      DenotesProxy env entry (.Network net)
  | address (addr : IpAddr) (hnet : env.parse_network entry = none)
      (h : env.parse_ip entry = some addr) : DenotesProxy env entry (.Network (.from_addr addr))
  | hostname (hnet : env.parse_network entry = none) (haddr : env.parse_ip entry = none)
      (h : IsHostname entry) : DenotesProxy env entry (.Hostname entry)

theorem read_proxy_eq_ok_iff {env : Env} {entry : String} {matcher : ProxyMatcher} :
    read_proxy env entry = .ok matcher ↔ DenotesProxy env entry matcher := by
  unfold read_proxy
  constructor
  · intro h
    cases hnet : env.parse_network entry with
    | some net =>
        simp only [hnet, Except.ok.injEq] at h
        exact h ▸ .network net hnet
    | none =>
        cases haddr : env.parse_ip entry with
        | some addr =>
            simp only [hnet, haddr, Except.ok.injEq] at h
            exact h ▸ .address addr hnet haddr
        | none =>
            cases hname : hostname_rejection entry with
            | some reason => simp [hnet, haddr, hname] at h
            | none =>
                simp only [hnet, haddr, hname, Except.ok.injEq] at h
                exact h ▸ .hostname hnet haddr (hostname_rejection_eq_none_iff.mp hname)
  · intro h
    cases h with
    | network net hnet => simp only [hnet]
    | address addr hnet haddr => simp only [hnet, haddr]
    | hostname hnet haddr hname =>
        simp only [hnet, haddr, hostname_rejection_eq_none_iff.mpr hname]

/-- An entry is read exactly if it is something; else it is refused as it stands. -/
theorem read_proxy_cases (env : Env) (entry : String) :
    (IsProxy env entry ∧ ∃ matcher, read_proxy env entry = .ok matcher) ∨
      (¬ IsProxy env entry ∧ ∃ reason, read_proxy env entry = .error ⟨entry, reason⟩) := by
  unfold IsProxy read_proxy
  rw [← hostname_rejection_eq_none_iff]
  cases env.parse_network entry with
  | some net => simp
  | none =>
      cases env.parse_ip entry with
      | some addr => simp
      | none => cases hostname_rejection entry <;> simp

theorem DenotesProxy.isProxy {env : Env} {entry : String} {matcher : ProxyMatcher}
    (h : DenotesProxy env entry matcher) : IsProxy env entry := by
  rcases read_proxy_cases env entry with ⟨hproxy, -⟩ | ⟨-, reason, hrefused⟩
  · exact hproxy
  · cases (read_proxy_eq_ok_iff.mpr h).symm.trans hrefused

/-- **Run lemma of the loop.** What is something is read, the rest is reported, both in order. -/
theorem foldl_push_proxy (env : Env) (entries : List String)
    (lists : List ProxyMatcher × List InvalidProxyEntry) :
    ∃ matchers invalid,
      entries.foldl (push_proxy env) lists = (lists.1 ++ matchers, lists.2 ++ invalid) ∧
      List.Forall₂ (DenotesProxy env) (entries.filter (IsProxy env ·)) matchers ∧
      invalid.map InvalidProxyEntry.entry = entries.filter (¬ IsProxy env ·) := by
  induction entries generalizing lists with
  | nil => exact ⟨[], [], by simp, by simp, rfl⟩
  | cons entry rest ih =>
      rw [List.foldl_cons]
      rcases read_proxy_cases env entry with ⟨hproxy, matcher, hread⟩ | ⟨hnot, reason, hread⟩
      · obtain ⟨matchers, invalid, hfold, hmatchers, hinvalid⟩ := ih (lists.1 ++ [matcher], lists.2)
        refine ⟨matcher :: matchers, invalid, ?_, ?_, ?_⟩
        · unfold push_proxy at hfold ⊢
          rw [hread]
          simpa using hfold
        · rw [List.filter_cons_of_pos (by simpa using hproxy)]
          exact .cons (read_proxy_eq_ok_iff.mp hread) hmatchers
        · rw [List.filter_cons_of_neg (by simpa using hproxy)]
          exact hinvalid
      · obtain ⟨matchers, invalid, hfold, hmatchers, hinvalid⟩ :=
          ih (lists.1, lists.2 ++ [⟨entry, reason⟩])
        refine ⟨matchers, ⟨entry, reason⟩ :: invalid, ?_, ?_, ?_⟩
        · unfold push_proxy at hfold ⊢
          rw [hread]
          simpa using hfold
        · rw [List.filter_cons_of_neg (by simpa using hnot)]
          exact hmatchers
        · rw [List.filter_cons_of_pos (by simpa using hnot), List.map_cons, hinvalid]

/-- The matchers of a list are determined. -/
theorem denotes_unique {env : Env} {entries : List String} {ms ms' : List ProxyMatcher}
    (h : List.Forall₂ (DenotesProxy env) entries ms) (h' : List.Forall₂ (DenotesProxy env) entries ms') :
    ms = ms' := by
  have hunique : Relator.RightUnique (DenotesProxy env) := by
    intro entry m m' hm hm'
    rw [← read_proxy_eq_ok_iff] at hm hm'
    exact Except.ok.inj (hm.symm.trans hm')
  exact hunique.forall₂ h h'

theorem isProxy_of_denotes {env : Env} {entries : List String} {ms : List ProxyMatcher}
    (h : List.Forall₂ (DenotesProxy env) entries ms) : ∀ entry ∈ entries, IsProxy env entry :=
  ((List.forall₂_and_left _ _).mp (h.imp fun _ _ hm => ⟨hm.isProxy, hm⟩)).1

/-- A name among the matchers is an entry that is one. -/
theorem isHostname_of_mem {env : Env} {entries : List String} {ms : List ProxyMatcher} {name : String}
    (h : List.Forall₂ (DenotesProxy env) entries ms) (hname : .Hostname name ∈ ms) : IsHostname name := by
  induction h with
  | nil => cases hname
  | cons hm _ ih =>
      rcases List.mem_cons.mp hname with rfl | hname
      · cases hm with
        | hostname _ _ h => exact h
      · exact ih hname

/-- The list is read if all its entries are something; else the others are reported. -/
theorem parse_trusted_proxies_cases (env : Env) (raw : String) :
    ((∀ entry ∈ configured_entries raw, IsProxy env entry) ∧
      ∃ matchers, parse_trusted_proxies env raw = .ok matchers ∧
        List.Forall₂ (DenotesProxy env) (configured_entries raw) matchers) ∨
    (¬ (∀ entry ∈ configured_entries raw, IsProxy env entry) ∧
      ∃ invalid, parse_trusted_proxies env raw = .error invalid ∧
        invalid.map InvalidProxyEntry.entry =
          (configured_entries raw).filter (¬ IsProxy env ·)) := by
  obtain ⟨matchers, invalid, hfold, hmatchers, hinvalid⟩ :=
    foldl_push_proxy env (configured_entries raw) ([], [])
  unfold parse_trusted_proxies
  rw [hfold]
  by_cases hall : ∀ entry ∈ configured_entries raw, IsProxy env entry
  · have hnone : (configured_entries raw).filter (¬ IsProxy env ·) = [] := by simpa using hall
    have hempty : invalid = [] := List.map_eq_nil_iff.mp (hinvalid.trans hnone)
    rw [List.filter_eq_self.mpr (by simpa using hall)] at hmatchers
    exact .inl ⟨hall, matchers, by simp [hempty], hmatchers⟩
  · have hsome : invalid ≠ [] := by
      rintro rfl
      exact hall (by simpa using hinvalid.symm)
    exact .inr ⟨hall, invalid, by simp [hsome], hinvalid⟩

/-- **The list accepts exactly its grammar.** -/
theorem parse_trusted_proxies_grammar (env : Env) (raw : String) :
    (∀ matchers, parse_trusted_proxies env raw = .ok matchers ↔
      List.Forall₂ (DenotesProxy env) (configured_entries raw) matchers) ∧
    ((∃ matchers, parse_trusted_proxies env raw = .ok matchers) ↔
      ∀ entry ∈ configured_entries raw, IsProxy env entry) ∧
    (¬ (∀ entry ∈ configured_entries raw, IsProxy env entry) →
      ∃ invalid, parse_trusted_proxies env raw = .error invalid ∧
        invalid.map InvalidProxyEntry.entry =
          (configured_entries raw).filter (¬ IsProxy env ·)) ∧
    (∀ matchers name, parse_trusted_proxies env raw = .ok matchers →
      .Hostname name ∈ matchers → '/' ∉ name.toList ∧ ':' ∉ name.toList) := by
  rcases parse_trusted_proxies_cases env raw with
    ⟨hall, matchers, hparse, hmatchers⟩ | ⟨hnot, invalid, hparse, hinvalid⟩
  · have hiff : ∀ ms, parse_trusted_proxies env raw = .ok ms ↔
        List.Forall₂ (DenotesProxy env) (configured_entries raw) ms := by
      intro ms
      rw [hparse, Except.ok.injEq]
      constructor
      · rintro rfl
        exact hmatchers
      · exact denotes_unique hmatchers
    refine ⟨hiff, ⟨fun _ => hall, fun _ => ⟨matchers, hparse⟩⟩, fun hnot => absurd hall hnot, ?_⟩
    intro ms name hms hname
    exact (isHostname_of_mem ((hiff ms).mp hms) hname).no_slash_or_colon
  · have hnone : ∀ ms, parse_trusted_proxies env raw ≠ .ok ms := by
      intro ms hms
      cases hparse.symm.trans hms
    refine ⟨fun ms => ⟨fun h => absurd h (hnone ms), fun h => absurd (isProxy_of_denotes h) hnot⟩,
      ⟨fun ⟨ms, hms⟩ => absurd hms (hnone ms), fun hall => absurd hall hnot⟩,
      fun _ => ⟨invalid, hparse, hinvalid⟩, fun ms _ hms => absurd hms (hnone ms)⟩

example : parse_trusted_proxies .sample "203.0.113.7,, proxy.internal " =
    .ok [.Network host7, .Hostname "proxy.internal"] := by decide +kernel
example : parse_trusted_proxies .sample "proxy.internal, 10.0.0.256" =
    .error [⟨"10.0.0.256", "made only of digits and dots, so this is a malformed IPv4 literal"⟩] := by
  decide +kernel

end IpVault
