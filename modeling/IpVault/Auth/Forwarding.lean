import IpVault.Auth.ClientIp

set_option autoImplicit false

/-! # Forged client addresses (`config.rs`)

Each proxy appends to `X-Forwarded-For` the address it saw, so what stands to the left of the
rightmost entry that is no trusted proxy is hearsay. `resolve_client_ip` walks the entries from the
right and skips the trusted proxies. It skips the entries that are no address as well, and then takes
the address of the next entry on their left.
-/

namespace IpVault

open Lib

/-! ## Entries -/

/-- The entries of an `X-Forwarded-For` list: its items, trimmed, less the empty ones. -/
def forwarded_entries (forwarded : String) : List String :=
  ((Text.split ',' forwarded).map Text.trim).filter (!Text.is_empty ·)

section Walk

variable (parse_ip : String → Option IpAddr) (trusted : List IpNetwork)

/-- The client an entry names. -/
def named_client (s : String) : Option IpAddr :=
  (parse_ip s).bind fun ip =>
    if is_trusted (normalize_ip ip) trusted then none else some (normalize_ip ip)

/-- The walk from the right takes the first client it meets. -/
theorem forwarded_client_eq (forwarded : String) :
    forwarded_client parse_ip trusted forwarded =
      (forwarded_entries forwarded).reverse.findSome? (named_client parse_ip trusted) := by
  show ((((forwarded_entries forwarded).filterMap parse_ip).map normalize_ip).reverse.find?
      (!is_trusted · trusted)) = _
  rw [← List.map_reverse, ← List.filterMap_reverse]
  induction (forwarded_entries forwarded).reverse with
  | nil => rfl
  | cons s l ih =>
      rw [List.findSome?_cons, named_client]
      cases hs : parse_ip s with
      | none =>
          rw [List.filterMap_cons_none hs]
          exact ih
      | some ip =>
          rw [List.filterMap_cons_some hs, List.map_cons, List.find?_cons]
          cases ht : is_trusted (normalize_ip ip) trusted with
          | true => simpa [ht] using ih
          | false => simp [ht]

variable {parse_ip trusted}

end Walk

/-! ## Forged headers -/

section Forged

variable (parse_ip : String → Option IpAddr) (peer : IpAddr) (headers : HeaderMap)
  (trusted : List IpNetwork)

/-- The address of a request from a trusted peer without `X-Forwarded-For`. -/
def unforwarded_ip : IpAddr :=
  match (header headers "x-real-ip").bind fun s => parse_ip (Text.trim s) with
  | some real_ip => normalize_ip real_ip
  | none => normalize_ip peer

variable {parse_ip peer headers trusted}

theorem resolve_untrusted (h : is_trusted (normalize_ip peer) trusted = false) :
    resolve_client_ip parse_ip peer headers trusted = normalize_ip peer := by
  show (if !is_trusted (normalize_ip peer) trusted then normalize_ip peer else _) = _
  rw [h]
  rfl

theorem resolve_trusted (h : is_trusted (normalize_ip peer) trusted = true) {forwarded : String}
    (hforwarded : header headers "x-forwarded-for" = some forwarded) :
    resolve_client_ip parse_ip peer headers trusted =
      (forwarded_client parse_ip trusted forwarded).getD
        (unforwarded_ip parse_ip peer headers) := by
  show (if !is_trusted (normalize_ip peer) trusted then normalize_ip peer else _) = _
  rw [h, hforwarded, Option.bind_some]
  cases forwarded_client parse_ip trusted forwarded <;> rfl

end Forged

/-- `10.0.0.0/8`. -/
def proxies : IpNetwork := ⟨.v4 0x0A000000#32, 8, by decide⟩

end IpVault
