import IpVault.Env

set_option autoImplicit false

/-! # The client address (`config.rs`) -/

namespace IpVault

open Lib

/-- A header: its lowercase name and its value, if the value is text (`HeaderValue::to_str`). -/
structure Header where
  name : String
  value : Option String

/-- `HeaderMap`, in the order the headers were sent. -/
abbrev HeaderMap := List Header

/-- `headers.get(name).and_then(|h| h.to_str().ok())`: the first header of that name, if it is
text. -/
def header (headers : HeaderMap) (name : String) : Option String :=
  (headers.find? fun h => h.name = name).bind Header.value

/-- `Ipv6Addr::to_ipv4_mapped`: `::ffff:a.b.c.d`. -/
def to_ipv4_mapped (a : BitVec 128) : Option (BitVec 32) :=
  if a >>> 32 = 0xFFFF#128 then some (a.truncate 32) else none

/-- `normalize_ip`. -/
def normalize_ip : IpAddr → IpAddr
  | .v6 a => match to_ipv4_mapped a with
      | some b => .v4 b
      | none => .v6 a
  | .v4 a => .v4 a

/-- `is_trusted`. -/
def is_trusted (ip : IpAddr) (trusted : List IpNetwork) : Bool := trusted.any (·.contains ip)

/-- The client `X-Forwarded-For` names: the rightmost entry that parses and is no trusted
proxy. -/
def forwarded_client (parse_ip : String → Option IpAddr) (trusted : List IpNetwork)
    (forwarded : String) : Option IpAddr :=
  let entries := ((Text.split ',' forwarded).map Text.trim).filter (!Text.is_empty ·)
  ((entries.filterMap parse_ip).map normalize_ip).reverse.find? (!is_trusted · trusted)

/-- `resolve_client_ip`. -/
def resolve_client_ip (parse_ip : String → Option IpAddr) (peer : IpAddr) (headers : HeaderMap)
    (trusted : List IpNetwork) : IpAddr :=
  let peer := normalize_ip peer
  if !is_trusted peer trusted then peer
  else
    match (header headers "x-forwarded-for").bind (forwarded_client parse_ip trusted) with
    | some client => client
    | none =>
        match (header headers "x-real-ip").bind fun s => parse_ip (Text.trim s) with
        | some real_ip => normalize_ip real_ip
        | none => peer

end IpVault
