import IpVault.Auth.ClientIp
import IpVault.Auth.TrustedProxies
import IpVault.Lib.Runs
import IpVault.Lib.RwLock

set_option autoImplicit false

/-! # The names of trusted proxies and their addresses (`TrustedProxies` in `config.rs`)

A name in `TRUSTED_PROXIES` stands for the addresses its last lookup gave, and is looked up again when
that lookup has expired. All requests share one cache under a lock. Here a call of `resolved` or `prime`
is the steps it takes between two moments at which another call may come in, and any number of calls
take steps in any order. A call of `resolved` belongs to a request and may be dropped wherever it waits;
`prime` runs in a task of its own.

The ghost `log` is every lookup that was answered, the newest first.
-/

namespace IpVault

open Lib

/-- `HostnameState`. Instants are nanoseconds. -/
structure HostnameState where
  addresses : List IpNetwork
  attempted_at : Nat
  resolved : Bool

/-- `HostnameState::is_fresh`; `elapsed` does not go below zero. -/
def HostnameState.is_fresh (s : HostnameState) (positive negative now : Nat) : Bool :=
  let ttl := if s.resolved then positive else negative
  now - s.attempted_at < ttl

/-- `ResolutionCache`. -/
structure ResolutionCache where
  snapshot : List IpNetwork
  hosts : String → Option HostnameState
  built : Bool

/-- `TrustedProxies`, but for the cache. -/
structure TrustedProxies where
  networks : List IpNetwork
  hostnames : List String
  positive_ttl : Nat
  negative_ttl : Nat

def POSITIVE_TTL : Nat := 30 * 1000000000

def NEGATIVE_TTL : Nat := 5 * 1000000000

/-- `TrustedProxies::new`. -/
def TrustedProxies.new (matchers : List ProxyMatcher) : TrustedProxies where
  networks := literal_networks matchers
  hostnames := hostname_entries matchers
  positive_ttl := POSITIVE_TTL
  negative_ttl := NEGATIVE_TTL

namespace TrustedProxies

variable (p : TrustedProxies)

/-- The literal networks, then what each name resolves to. -/
def merged (cache : ResolutionCache) : List IpNetwork :=
  p.networks ++ p.hostnames.flatMap fun name => ((cache.hosts name).map (·.addresses)).getD []

/-- The end of `refresh_locked`. -/
def rebuild (cache : ResolutionCache) : ResolutionCache :=
  { cache with snapshot := p.merged cache, built := true }

/-- The names `prime` reports. -/
def unresolved (cache : ResolutionCache) : List String :=
  p.hostnames.filter fun name => !(cache.hosts name).any (·.resolved)

end TrustedProxies

/-- `resolve_hostname`, of what `lookup_host` answers: `none` is an error. -/
def resolve_hostname : Option (List IpAddr) → List IpNetwork
  | some addrs => addrs.map fun addr => .from_addr (normalize_ip addr)
  | none => []

namespace ProxyResolution

/-- A lookup of a name, from the check that its entry has expired to the entry of its answer. `forced`
are those of `prime`. -/
structure Lookup where
  name : String
  answer : Option (List IpAddr)
  started_at : Nat
  attempted_at : Nat
  forced : Bool

namespace Lookup

def addresses (l : Lookup) : List IpNetwork := resolve_hostname l.answer

def resolved (l : Lookup) : Bool := !l.addresses.isEmpty

/-- The entry the lookup makes. -/
def state (l : Lookup) : HostnameState := ⟨l.addresses, l.attempted_at, l.resolved⟩

end Lookup

/-- The most recent lookup of a name. -/
def latest (log : List Lookup) (name : String) : Option Lookup := log.find? (·.name == name)

/-! ## Calls -/

/-- What the calls share: the clock, the cache and the lookups so far. -/
structure Shared where
  now : Nat
  cache : ResolutionCache
  log : List Lookup

/-- Where a call stands. -/
inductive Phase where
  | idle
  /-- `resolved` waits to read. -/
  | called
  /-- It reads, and has these names left to check. -/
  | checking (left : List String)
  /-- It waits to write. -/
  | expired
  /-- `prime` waits to write. -/
  | priming
  /-- `refresh_locked` has these names left, in a call of `prime` if `forced`. -/
  | refreshing (forced : Bool) (left : List String)
  /-- It waits for the addresses of `name`, which had expired at `started_at`. -/
  | looking_up (forced : Bool) (name : String) (left : List String) (started_at : Nat)
  | ended

/-- What a call in this phase holds of the lock. -/
def Phase.mode : Phase → Mode
  | checking _ => .read
  | refreshing _ _ | looking_up _ _ _ _ => .write
  | _ => .free

structure Call where
  phase : Phase
  begun_at : Nat

structure World where
  shared : Shared
  lock : RwLock Nat
  calls : Nat → Call

/-- Nothing has been called. -/
def World.start : World := ⟨⟨0, ⟨[], fun _ => none, false⟩, []⟩, .idle, fun _ => ⟨.idle, 0⟩⟩

/-- What a call returns: the networks to trust, or the names that did not resolve. -/
inductive Reply where
  | resolved (snapshot : List IpNetwork)
  | primed (failed : List String)
  deriving DecidableEq

namespace World

def enter (w : World) (c : Nat) (phase : Phase) : World :=
  { w with calls := Function.update w.calls c { w.calls c with phase } }

/-- The call gives the lock back. -/
def leave (w : World) (c : Nat) (phase : Phase) : World :=
  { w with lock := w.lock.release c }.enter c phase

end World

variable (p : TrustedProxies)

/-- `cache.hosts.get(name).is_some_and(|s| s.is_fresh(..))`. -/
def fresh (s : Shared) (name : String) (now : Nat) : Bool :=
  (s.cache.hosts name).any fun h => h.is_fresh p.positive_ttl p.negative_ttl now

/-- The next step of a call that waits for no answer. A lock that is taken lets it wait. -/
def proceed (c : Nat) (w : World) : Option Reply × World :=
  match (w.calls c).phase with
  | .called =>
      if w.lock.can_read then
        -- A cache that was never built is given back at once.
        if w.shared.cache.built then
          (none, { w with lock := w.lock.acquire_read c }.enter c (.checking p.hostnames))
        else (none, w.enter c .expired)
      else (none, w)
  | .checking [] => (some (.resolved w.shared.cache.snapshot), w.leave c .ended)
  | .checking (name :: left) =>
      if fresh p w.shared name w.shared.now then (none, w.enter c (.checking left))
      else (none, w.leave c .expired)
  | .expired =>
      if w.lock.can_write then
        (none, { w with lock := w.lock.acquire_write c }.enter c (.refreshing false p.hostnames))
      else (none, w)
  | .priming =>
      if w.lock.can_write then
        let cleared := { w.shared.cache with hosts := fun _ => none }
        (none, { w with
          shared := { w.shared with cache := cleared }
          lock := w.lock.acquire_write c }.enter c (.refreshing true p.hostnames))
      else (none, w)
  | .refreshing forced (name :: left) =>
      if fresh p w.shared name w.shared.now then (none, w.enter c (.refreshing forced left))
      else (none, w.enter c (.looking_up forced name left w.shared.now))
  | .refreshing forced [] =>
      let cache := p.rebuild w.shared.cache
      let reply := if forced then .primed (p.unresolved cache) else .resolved cache.snapshot
      (some reply, { w with shared := { w.shared with cache } }.leave c .ended)
  | _ => (none, w)

/-- `resolved` begins. -/
def call_resolved (c : Nat) (w : World) : Option Reply × World :=
  match (w.calls c).phase with
  | .idle =>
      let begin (phase : Phase) : World :=
        { w with calls := Function.update w.calls c ⟨phase, w.shared.now⟩ }
      if p.hostnames.isEmpty then (some (.resolved p.networks), begin .ended)
      else (none, begin .called)
  | _ => (none, w)

/-- `prime` begins. -/
def call_prime (c : Nat) (w : World) : Option Reply × World :=
  match (w.calls c).phase with
  | .idle =>
      let begin (phase : Phase) : World :=
        { w with calls := Function.update w.calls c ⟨phase, w.shared.now⟩ }
      if p.hostnames.isEmpty then (some (.primed []), begin .ended) else (none, begin .priming)
  | _ => (none, w)

/-- The lookup a call waits for is answered, and its entry made. -/
def answer_lookup (c : Nat) (answer : Option (List IpAddr)) (w : World) : World :=
  match (w.calls c).phase with
  | .looking_up forced name left started_at =>
      let lookup : Lookup := ⟨name, answer, started_at, w.shared.now, forced⟩
      let hosts := Function.update w.shared.cache.hosts name (some lookup.state)
      { w with shared :=
        { w.shared with
          cache := { w.shared.cache with hosts }
          log := lookup :: w.shared.log } }.enter c (.refreshing forced left)
  | _ => w

/-- The request of a call of `resolved` has gone away while the call was waiting. -/
def drop_call (c : Nat) (w : World) : World :=
  match (w.calls c).phase with
  | .called | .expired => w.enter c .ended
  | .looking_up false _ _ _ => w.leave c .ended
  | _ => w

inductive Action where
  | resolved
  | prime
  | proceed
  | answer (answer : Option (List IpAddr))
  | drop

/-- Some time passes, and a call takes a step. -/
structure Event where
  elapsed : Nat
  call : Nat
  action : Action

def World.tick (w : World) (elapsed : Nat) : World :=
  { w with shared := { w.shared with now := w.shared.now + elapsed } }

/-- One step, with what the call returns in it. A step that is not the call's to take does nothing. -/
def step (e : Event) (w : World) : Option Reply × World :=
  let w := w.tick e.elapsed
  match e.action with
  | .resolved => call_resolved p e.call w
  | .prime => call_prime p e.call w
  | .proceed => proceed p e.call w
  | .answer answer => (none, answer_lookup e.call answer w)
  | .drop => (none, drop_call e.call w)

end ProxyResolution

end IpVault
