import IpVault.Auth.Resolution

set_option autoImplicit false

/-! # What the trusted proxies are resolved to

The invariant of the runs of `Auth/Resolution.lean`, for calls that take steps in any order. A call that
reads knows which names it has seen fresh, and so does one that writes. The snapshot agrees with the
entries whenever nobody writes, unless some name has expired: a request that goes away during a lookup
leaves it so, and then nobody returns the snapshot before it is rebuilt.
-/

namespace IpVault

open Lib

namespace ProxyResolution

variable (p : TrustedProxies)

/-! ## What holds of the entries -/

/-- The window of a lookup: it depends on whether it gave addresses. -/
def window (l : Lookup) : Nat := if l.resolved then p.positive_ttl else p.negative_ttl

/-- A lookup may be reused at the instant `t`. -/
def Lookup.FreshAt (l : Lookup) (t : Nat) : Prop := l.attempted_at ≤ t ∧ t < l.attempted_at + window p l

/-- A lookup outside `prime` begins when the one before it has expired. -/
def Spaced (log : List Lookup) : Prop :=
  ∀ newer l older, log = newer ++ l :: older → l.forced = false →
    ∀ before, latest older l.name = some before →
      before.attempted_at + window p before ≤ l.started_at

/-- So does one that is under way. -/
def World.SpacedPending (w : World) : Prop :=
  ∀ c name left started_at, (w.calls c).phase = .looking_up false name left started_at →
    ∀ before, latest w.shared.log name = some before →
      before.attempted_at + window p before ≤ started_at

/-- A lookup as it begins: it has no answer yet. -/
structure Query where
  name : String
  started_at : Nat
  forced : Bool
  deriving DecidableEq

def Lookup.query (l : Lookup) : Query := ⟨l.name, l.started_at, l.forced⟩

/-- What a call in this phase waits for. -/
def Phase.query : Phase → Option Query
  | looking_up forced name _ started_at => some ⟨name, started_at, forced⟩
  | _ => none

/-- The lookup a step of the call begins. -/
def begins (c : Nat) (w w' : World) : Option Query :=
  if (w.calls c).phase.query = none then (w'.calls c).phase.query else none

/-- The lookups a run begins, in order. -/
def queries : List Event → World → List Query
  | [], _ => []
  | e :: events, w =>
      (begins e.call w (step p e w).2).toList ++ queries events (step p e w).2

/-- The lookup that is under way: whoever waits for an answer holds the lock. -/
def World.pending (w : World) : Option Query := w.lock.writer.bind fun c => (w.calls c).phase.query

/-- The lookups that were answered and the one under way, newest first. -/
def World.queries (w : World) : List Query := w.pending.toList ++ w.shared.log.map Lookup.query

/-- The snapshot is made of the entries. -/
def Matched (s : Shared) : Prop := s.cache.snapshot = p.merged s.cache

/-- The name was seen fresh since `begun`, by its most recent lookup. -/
def Seen (s : Shared) (begun : Nat) (name : String) : Prop :=
  ∃ l t, s.cache.hosts name = some l.state ∧ latest s.log name = some l ∧
    begun ≤ t ∧ t ≤ s.now ∧ l.FreshAt p t

/-- All names but these have been seen fresh since `begun`. -/
def Visited (s : Shared) (begun : Nat) (left : List String) : Prop :=
  ∃ done, p.hostnames = done ++ left ∧ ∀ name ∈ done, Seen p s begun name

/-- A name without an entry was never looked up, unless `prime` is about to look it up. -/
def Filled (s : Shared) (forced : Bool) (left : List String) : Prop :=
  ∀ name ∈ p.hostnames, s.cache.hosts name = none →
    latest s.log name = none ∨ forced = true ∧ name ∈ left

/-- What holds of the entries and the lookups at any time. -/
structure Shared.Ok (s : Shared) : Prop where
  past : ∀ l ∈ s.log, l.attempted_at ≤ s.now
  known : ∀ name h, s.cache.hosts name = some h → ∃ l, latest s.log name = some l ∧ h = l.state
  spaced : Spaced p s.log

/-- What holds of them as long as nobody writes: the snapshot is up to date, or it is not used, as a name
has expired whose lookup was dropped. -/
structure Rest (s : Shared) : Prop where
  filled : Filled p s false []
  snapshot : s.cache.built = true →
    Matched p s ∨ ∃ name ∈ p.hostnames, fresh p s name s.now = false

/-- What a call knows that has come this far. -/
def Phase.Ok (s : Shared) (begun : Nat) : Phase → Prop
  | checking left => s.cache.built = true ∧ Visited p s begun left ∧
      (Matched p s ∨ ∃ name ∈ left, fresh p s name s.now = false)
  | refreshing forced left => Visited p s begun left ∧ Filled p s forced left
  | looking_up forced name left started_at => Visited p s begun (name :: left) ∧
      Filled p s forced (name :: left) ∧ started_at ≤ s.now ∧ fresh p s name started_at = false
  | _ => True

/-- The invariant of the runs. -/
structure World.Valid (w : World) : Prop where
  shared : w.shared.Ok p
  rest : w.lock.writer = none → Rest p w.shared
  begun : ∀ c, (w.calls c).begun_at ≤ w.shared.now
  phases : ∀ c, (w.calls c).phase.Ok p w.shared (w.calls c).begun_at
  held : ∀ c, w.lock.mode c = (w.calls c).phase.mode

/-- What is returned to a call that began at `begun`: the literal networks and, for each name, what its
most recent lookup gave, which was fresh at some instant of the call. -/
structure Current (s : Shared) (begun : Nat) (snapshot : List IpNetwork) : Prop where
  recent : snapshot = p.networks ++ p.hostnames.flatMap fun name =>
    ((latest s.log name).map Lookup.addresses).getD []
  fresh : ∀ name ∈ p.hostnames, ∃ l t, latest s.log name = some l ∧ begun ≤ t ∧ t ≤ s.now ∧
    l.FreshAt p t
  failed : ∀ name ∈ p.hostnames, ∀ l, latest s.log name = some l →
    l.answer = none ∨ l.answer = some [] → l.addresses = []

section Entries

variable {p : TrustedProxies} {s : Shared} {name : String} {begun t t' : Nat}

/-- An entry that has expired stays expired. -/
theorem fresh_eq_false_later (h : fresh p s name t = false) (hle : t ≤ t') :
    fresh p s name t' = false := by
  unfold fresh at h ⊢
  cases hentry : s.cache.hosts name with
  | none => rfl
  | some entry =>
      rw [hentry] at h
      rw [Option.any_some] at h ⊢
      unfold HostnameState.is_fresh at h ⊢
      rw [decide_eq_false_iff_not] at h ⊢
      omega

/-- A name with a fresh entry is seen fresh now. -/
theorem seen_of_fresh (hs : s.Ok p) (hbegun : begun ≤ s.now) (h : fresh p s name s.now = true) :
    Seen p s begun name := by
  unfold fresh at h
  cases hentry : s.cache.hosts name with
  | none =>
      rw [hentry] at h
      cases h
  | some entry =>
      obtain ⟨l, hlatest, rfl⟩ := hs.known name entry hentry
      rw [hentry, Option.any_some] at h
      have hpast := hs.past l (List.mem_of_find?_eq_some hlatest)
      have hlt : s.now - l.attempted_at < window p l := of_decide_eq_true h
      exact ⟨l, s.now, hentry, hlatest, hbegun, le_refl _, hpast, by omega⟩

theorem Seen.has_entry (h : Seen p s begun name) : s.cache.hosts name ≠ none := by
  obtain ⟨l, -, hentry, -⟩ := h
  rw [hentry]
  exact Option.some_ne_none _

/-- An entry that is not fresh has lived its window. -/
theorem expired_of_stale {l : Lookup} (hpos : 0 < window p l)
    (hentry : s.cache.hosts name = some l.state) (h : fresh p s name t = false) :
    l.attempted_at + window p l ≤ t := by
  unfold fresh at h
  rw [hentry, Option.any_some] at h
  have hlt : ¬ t - l.attempted_at < window p l := of_decide_eq_false h
  omega

/-- The snapshot of the entries, if all of them have been seen fresh. -/
theorem current_of_seen (h : ∀ name ∈ p.hostnames, Seen p s begun name) :
    Current p s begun (p.merged s.cache) where
  recent := by
    unfold TrustedProxies.merged
    refine congrArg (p.networks ++ ·) (List.flatMap_congr fun name hname => ?_)
    obtain ⟨l, -, hentry, hlatest, -⟩ := h name hname
    rw [hentry, hlatest]
    rfl
  fresh name hname := by
    obtain ⟨l, t, -, hlatest, htime⟩ := h name hname
    exact ⟨l, t, hlatest, htime⟩
  failed name _ l _ hanswer := by
    unfold Lookup.addresses
    rcases hanswer with hnone | hempty
    · rw [hnone]
      rfl
    · rw [hempty]
      rfl

theorem Visited.start : Visited p s begun p.hostnames := ⟨[], rfl, fun _ h => nomatch h⟩

theorem Visited.all (h : Visited p s begun []) : ∀ name ∈ p.hostnames, Seen p s begun name := by
  obtain ⟨done, hsplit, hdone⟩ := h
  rw [hsplit, List.append_nil]
  exact hdone

theorem Visited.mem {left : List String} (h : Visited p s begun (name :: left)) :
    name ∈ p.hostnames := by
  obtain ⟨done, hsplit, -⟩ := h
  rw [hsplit]
  exact List.mem_append_right done List.mem_cons_self

/-- One name more. -/
theorem Visited.next {left : List String} (h : Visited p s begun (name :: left))
    (hname : Seen p s begun name) : Visited p s begun left := by
  obtain ⟨done, hsplit, hdone⟩ := h
  refine ⟨done ++ [name], by rw [hsplit, List.append_assoc]; rfl, fun name' hmem => ?_⟩
  rcases List.mem_append.mp hmem with hold | hnew
  · exact hdone name' hold
  · rwa [List.mem_singleton.mp hnew]

theorem Filled.start (h : Filled p s false []) (forced : Bool) (left : List String) :
    Filled p s forced left := by
  intro name hname hnone
  exact .inl ((h name hname hnone).resolve_right fun hforced => nomatch hforced.1)

/-- Where nothing is forced, or nothing left, every name without an entry was never looked up. -/
theorem Filled.rest {forced : Bool} {left : List String} (h : Filled p s forced left)
    (hdone : forced = false ∨ left = []) : Filled p s false [] := by
  intro name hname hnone
  refine .inl ((h name hname hnone).resolve_right ?_)
  rintro ⟨hforced, hmem⟩
  rcases hdone with hfalse | hnil
  · cases hforced.symm.trans hfalse
  · rw [hnil] at hmem
    cases hmem

/-! ### Time passes -/

/-- The same entries at a later instant. -/
def Shared.later (s : Shared) (elapsed : Nat) : Shared := { s with now := s.now + elapsed }

variable {elapsed : Nat}

theorem Seen.later (h : Seen p s begun name) : Seen p (s.later elapsed) begun name := by
  obtain ⟨l, t, hentry, hlatest, hbegun, hnow, hfresh⟩ := h
  exact ⟨l, t, hentry, hlatest, hbegun, Nat.le_add_right_of_le hnow, hfresh⟩

theorem Visited.later {left : List String} (h : Visited p s begun left) :
    Visited p (s.later elapsed) begun left := by
  obtain ⟨done, hsplit, hdone⟩ := h
  exact ⟨done, hsplit, fun name hname => (hdone name hname).later⟩

theorem Shared.Ok.later (h : s.Ok p) : (s.later elapsed).Ok p where
  past l hl := Nat.le_add_right_of_le (h.past l hl)
  known := h.known
  spaced := h.spaced

theorem Rest.later (h : Rest p s) : Rest p (s.later elapsed) where
  filled := h.filled
  snapshot hbuilt := (h.snapshot hbuilt).imp id fun ⟨name, hname, hstale⟩ =>
    ⟨name, hname, fresh_eq_false_later hstale (Nat.le_add_right _ _)⟩

theorem Phase.Ok.later {phase : Phase} (h : phase.Ok p s begun) :
    phase.Ok p (s.later elapsed) begun := by
  cases phase with
  | checking left =>
      obtain ⟨hbuilt, hvisited, hsnapshot⟩ := h
      exact ⟨hbuilt, hvisited.later, hsnapshot.imp id fun ⟨name, hname, hstale⟩ =>
        ⟨name, hname, fresh_eq_false_later hstale (Nat.le_add_right _ _)⟩⟩
  | refreshing forced left => exact ⟨h.1.later, h.2⟩
  | looking_up forced name left started_at =>
      obtain ⟨hvisited, hfilled, hstarted, hstale⟩ := h
      exact ⟨hvisited.later, hfilled, Nat.le_add_right_of_le hstarted, hstale⟩
  | idle | called | expired | priming | ended => trivial

/-- A call that holds nothing of the lock knows nothing of the entries. -/
theorem Phase.ok_of_free {phase : Phase} (h : phase.mode = .free) : phase.Ok p s begun := by
  cases phase with
  | checking left => cases h
  | refreshing forced left => cases h
  | looking_up forced name left started_at => cases h
  | idle | called | expired | priming | ended => trivial

/-! ### A name is looked up -/

/-- The entries after a lookup. -/
def Shared.answered (s : Shared) (l : Lookup) : Shared :=
  { s with
    cache := { s.cache with hosts := Function.update s.cache.hosts l.name (some l.state) }
    log := l :: s.log }

variable {l : Lookup}

theorem hosts_answered_self : (s.answered l).cache.hosts l.name = some l.state :=
  Function.update_self _ _ _

theorem hosts_answered_of_ne (h : name ≠ l.name) :
    (s.answered l).cache.hosts name = s.cache.hosts name := Function.update_of_ne h _ _

theorem latest_cons_self (log : List Lookup) : latest (l :: log) l.name = some l := by
  simp [latest]

theorem latest_cons_of_ne {log : List Lookup} (h : name ≠ l.name) :
    latest (l :: log) name = latest log name := by
  simp [latest, Ne.symm h]

/-- The name that was looked up is fresh now; the others are as they were. -/
theorem Seen.answered (hpos : 0 < window p l) (hnow : l.attempted_at = s.now) (hbegun : begun ≤ s.now)
    (h : name = l.name ∨ Seen p s begun name) : Seen p (s.answered l) begun name := by
  by_cases hname : name = l.name
  · subst hname
    exact ⟨l, s.now, hosts_answered_self, latest_cons_self _, hbegun, le_refl _, hnow.le,
      by omega⟩
  · obtain ⟨l', t, hentry, hlatest, htime⟩ := h.resolve_left hname
    exact ⟨l', t, (hosts_answered_of_ne hname).trans hentry,
      (latest_cons_of_ne hname).trans hlatest, htime⟩

theorem Shared.Ok.answered (h : s.Ok p) (hnow : l.attempted_at = s.now)
    (hspaced : l.forced = false → ∀ before, latest s.log l.name = some before →
      before.attempted_at + window p before ≤ l.started_at) : (s.answered l).Ok p where
  past l' hl' := by
    rcases List.mem_cons.mp hl' with rfl | hold
    · exact hnow.le
    · exact h.past l' hold
  known name entry hentry := by
    by_cases hname : name = l.name
    · subst hname
      have hself := hosts_answered_self.symm.trans hentry
      exact ⟨l, latest_cons_self _, (Option.some.inj hself).symm⟩
    · obtain ⟨l', hlatest, hstate⟩ := h.known name entry
        ((hosts_answered_of_ne hname).symm.trans hentry)
      exact ⟨l', (latest_cons_of_ne hname).trans hlatest, hstate⟩
  spaced newer l' older hsplit hforced before hbefore := by
    cases newer with
    | nil =>
        obtain ⟨rfl, rfl⟩ := List.cons.inj hsplit
        exact hspaced hforced before hbefore
    | cons _ newer => exact h.spaced newer l' older (List.cons.inj hsplit).2 hforced before hbefore

theorem Filled.answered {forced : Bool} {left : List String}
    (h : Filled p s forced (l.name :: left)) : Filled p (s.answered l) forced left := by
  intro name hname hnone
  have hne : name ≠ l.name := by
    rintro rfl
    cases hosts_answered_self.symm.trans hnone
  rcases h name hname ((hosts_answered_of_ne hne).symm.trans hnone) with hnever | ⟨hforced, hmem⟩
  · exact .inl ((latest_cons_of_ne hne).trans hnever)
  · exact .inr ⟨hforced, (List.mem_cons.mp hmem).resolve_left hne⟩

end Entries

/-! ## What a step preserves -/

section Steps

variable {p : TrustedProxies} {w : World} {c : Nat}

theorem World.Valid.tick (h : w.Valid p) (elapsed : Nat) : (w.tick elapsed).Valid p where
  shared := h.shared.later
  rest hwriter := (h.rest hwriter).later
  begun c := Nat.le_add_right_of_le (h.begun c)
  phases c := (h.phases c).later
  held := h.held

/-- One call moves on; the others know what they knew. -/
theorem World.Valid.move (h : w.Valid p) {w' : World} {call : Call}
    (hcalls : w'.calls = Function.update w.calls c call) (hnow : w'.shared.now = w.shared.now)
    (hshared : w'.shared.Ok p) (hrest : w'.lock.writer = none → Rest p w'.shared)
    (hbegun : call.begun_at ≤ w.shared.now) (hcall : call.phase.Ok p w'.shared call.begun_at)
    (hothers : ∀ d, d ≠ c → (w.calls d).phase.Ok p w'.shared (w.calls d).begun_at)
    (hmode : ∀ d, w'.lock.mode d = if d = c then call.phase.mode else w.lock.mode d) :
    w'.Valid p where
  shared := hshared
  rest := hrest
  begun d := by
    rw [hnow, hcalls]
    by_cases hd : d = c
    · rwa [hd, Function.update_self]
    · rw [Function.update_of_ne hd]
      exact h.begun d
  phases d := by
    rw [hcalls]
    by_cases hd : d = c
    · rwa [hd, Function.update_self]
    · rw [Function.update_of_ne hd]
      exact hothers d hd
  held d := by
    rw [hmode, hcalls]
    by_cases hd : d = c
    · rw [if_pos hd, hd, Function.update_self]
    · rw [if_neg hd, Function.update_of_ne hd]
      exact h.held d

/-- The others hold nothing while a call writes. -/
theorem World.Valid.others_free (h : w.Valid p) (hwrite : (w.calls c).phase.mode = .write) {d : Nat}
    (hd : d ≠ c) : (w.calls d).phase.mode = .free := by
  rw [← h.held] at hwrite ⊢
  exact RwLock.mode_of_other_writes hwrite hd

/-- A call that begins. -/
theorem World.Valid.begin (h : w.Valid p) {phase : Phase} (hidle : (w.calls c).phase.mode = .free)
    (hfree : phase.mode = .free) :
    World.Valid p { w with calls := Function.update w.calls c ⟨phase, w.shared.now⟩ } := by
  refine h.move rfl rfl h.shared h.rest (le_refl _) (Phase.ok_of_free hfree)
    (fun d _ => h.phases d) fun d => ?_
  by_cases hd : d = c
  · rw [if_pos hd, hd, hfree, ← hidle]
    exact h.held c
  · rw [if_neg hd]

/-- A call that goes on with what it holds of the lock. -/
theorem World.Valid.enter (h : w.Valid p) {phase : Phase}
    (hphase : phase.Ok p w.shared (w.calls c).begun_at)
    (hmode : phase.mode = (w.calls c).phase.mode) : (w.enter c phase).Valid p := by
  refine h.move rfl rfl h.shared h.rest (h.begun c) hphase (fun d _ => h.phases d) fun d => ?_
  by_cases hd : d = c
  · rw [if_pos hd, hd, hmode]
    exact h.held c
  · rw [if_neg hd]
    rfl

/-- A call that gives the lock back, in a state in which nobody need write. -/
theorem World.Valid.leave (h : w.Valid p) {s : Shared} {phase : Phase} (hnow : s.now = w.shared.now)
    (hshared : s.Ok p) (hrest : Rest p s) (hfree : phase.mode = .free)
    (hothers : ∀ d, d ≠ c → (w.calls d).phase.Ok p s (w.calls d).begun_at) :
    (World.leave { w with shared := s } c phase).Valid p := by
  refine h.move rfl hnow hshared (fun _ => hrest) (h.begun c) (Phase.ok_of_free hfree) hothers
    fun d => ?_
  show (w.lock.release c).mode d = if d = c then phase.mode else w.lock.mode d
  rw [hfree, RwLock.mode_release]

/-- A reader that gives the lock back. -/
theorem World.Valid.leave_reading (h : w.Valid p) {phase : Phase}
    (hread : (w.calls c).phase.mode = .read) (hfree : phase.mode = .free) :
    (w.leave c phase).Valid p := by
  rw [← h.held] at hread
  exact h.leave (s := w.shared) rfl h.shared (h.rest (RwLock.writer_of_reads hread)) hfree
    fun d _ => h.phases d

/-- A call that takes the lock to write finds nobody holding it. -/
theorem World.Valid.acquire_write (h : w.Valid p) {s : Shared} {phase : Phase}
    (hcan : w.lock.can_write = true) (hnow : s.now = w.shared.now) (hshared : s.Ok p)
    (hphase : phase.Ok p s (w.calls c).begun_at) (hmode : phase.mode = .write) :
    (World.enter { w with shared := s, lock := w.lock.acquire_write c } c phase).Valid p := by
  have hheld : ∀ d, (w.lock.acquire_write c).mode d = if d = c then phase.mode else w.lock.mode d := by
    intro d
    rw [hmode]
    exact RwLock.mode_acquire_write hcan
  have hwriter : (w.lock.acquire_write c).mode c = .write := by rw [hheld, if_pos rfl, hmode]
  refine h.move rfl hnow hshared (fun hnone => ?_) (h.begun c) hphase (fun d _ => ?_) hheld
  · cases (RwLock.mode_eq_write_iff.mp hwriter).symm.trans hnone
  · refine Phase.ok_of_free ?_
    rw [← h.held]
    exact RwLock.mode_of_can_write hcan d

/-- What a call is given is sound. -/
def Sound (p : TrustedProxies) (c : Nat) (step : Option Reply × World) : Prop :=
  step.2.Valid p ∧ ∀ snapshot, step.1 = some (.resolved snapshot) →
    Current p step.2.shared (step.2.calls c).begun_at snapshot

theorem sound_of_valid (h : w.Valid p) : Sound p c (none, w) := ⟨h, fun _ hreply => nomatch hreply⟩

theorem begun_at_update (w : World) (c : Nat) (call : Call) :
    (Function.update w.calls c call c).begun_at = call.begun_at := by rw [Function.update_self]

/-- A call that is to read: if the snapshot is not up to date, some name has expired. -/
theorem called_sound (h : w.Valid p) (hcall : (w.calls c).phase = .called) :
    Sound p c (proceed p c w) := by
  unfold proceed
  rw [hcall]
  dsimp only
  by_cases hcan : w.lock.can_read = true
  · rw [if_pos hcan]
    by_cases hbuilt : w.shared.cache.built = true
    · rw [if_pos hbuilt]
      have hrest := (h.rest (RwLock.can_read_iff.mp hcan)).snapshot hbuilt
      refine sound_of_valid (h.move rfl rfl h.shared (fun hwriter => ?_) (h.begun c)
        ⟨hbuilt, .start, hrest⟩ (fun d _ => h.phases d) fun d => RwLock.mode_acquire_read hcan)
      exact h.rest (RwLock.writer_acquire_read.symm.trans hwriter)
    · rw [if_neg hbuilt]
      exact sound_of_valid (h.enter trivial (by rw [hcall]; rfl))
  · rw [if_neg hcan]
    exact sound_of_valid h

/-- A call that reads: a name it finds fresh is not the one that has expired. -/
theorem checking_sound (h : w.Valid p) {left : List String}
    (hcall : (w.calls c).phase = .checking left) : Sound p c (proceed p c w) := by
  have hphase := h.phases c
  have hread : (w.calls c).phase.mode = .read := by rw [hcall]; rfl
  rw [hcall] at hphase
  obtain ⟨hbuilt, hvisited, hsnapshot⟩ := hphase
  unfold proceed
  rw [hcall]
  cases left with
  | nil =>
      refine ⟨h.leave_reading hread rfl, fun snapshot hreply => ?_⟩
      obtain rfl := Reply.resolved.inj (Option.some.inj hreply)
      have hmatched : Matched p w.shared := hsnapshot.resolve_right fun ⟨_, hmem, _⟩ => nomatch hmem
      show Current p w.shared (Function.update w.calls c _ c).begun_at _
      rw [begun_at_update, hmatched]
      exact current_of_seen hvisited.all
  | cons name left =>
      dsimp only
      by_cases hfresh : fresh p w.shared name w.shared.now = true
      · rw [if_pos hfresh]
        have hseen := seen_of_fresh h.shared (h.begun c) hfresh
        refine sound_of_valid (h.enter ⟨hbuilt, hvisited.next hseen, hsnapshot.imp id ?_⟩ hread.symm)
        rintro ⟨stale, hmem, hstale⟩
        rcases List.mem_cons.mp hmem with rfl | hmem
        · cases hfresh.symm.trans hstale
        · exact ⟨stale, hmem, hstale⟩
      · rw [if_neg hfresh]
        exact sound_of_valid (h.leave_reading hread rfl)

/-- A call that is to write. -/
theorem expired_sound (h : w.Valid p) (hcall : (w.calls c).phase = .expired) :
    Sound p c (proceed p c w) := by
  unfold proceed
  rw [hcall]
  dsimp only
  by_cases hcan : w.lock.can_write = true
  · rw [if_pos hcan]
    have hrest := h.rest (RwLock.can_write_iff.mp hcan).1
    exact sound_of_valid (h.acquire_write (s := w.shared) hcan rfl h.shared
      ⟨.start, hrest.filled.start false _⟩ rfl)
  · rw [if_neg hcan]
    exact sound_of_valid h

/-- `prime` forgets all entries, and has all names left to look up. -/
theorem priming_sound (h : w.Valid p) (hcall : (w.calls c).phase = .priming) :
    Sound p c (proceed p c w) := by
  unfold proceed
  rw [hcall]
  dsimp only
  by_cases hcan : w.lock.can_write = true
  · rw [if_pos hcan]
    exact sound_of_valid (h.acquire_write hcan rfl
      ⟨h.shared.past, (fun _ _ hentry => nomatch hentry), h.shared.spaced⟩
      ⟨.start, fun name hname _ => .inr ⟨rfl, hname⟩⟩ rfl)
  · rw [if_neg hcan]
    exact sound_of_valid h

/-- A call that writes. -/
theorem refreshing_sound (h : w.Valid p) {forced : Bool} {left : List String}
    (hcall : (w.calls c).phase = .refreshing forced left) : Sound p c (proceed p c w) := by
  have hphase := h.phases c
  have hwrite : (w.calls c).phase.mode = .write := by rw [hcall]; rfl
  rw [hcall] at hphase
  obtain ⟨hvisited, hfilled⟩ := hphase
  unfold proceed
  rw [hcall]
  cases left with
  | nil =>
      have hvalid : (World.leave { w with shared := { w.shared with
          cache := p.rebuild w.shared.cache } } c .ended).Valid p :=
        h.leave rfl ⟨h.shared.past, h.shared.known, h.shared.spaced⟩
          ⟨hfilled.rest (.inr rfl), fun _ => .inl rfl⟩ rfl
          fun d hd => Phase.ok_of_free (h.others_free hwrite hd)
      refine ⟨hvalid, fun snapshot hreply => ?_⟩
      cases forced with
      | true => cases hreply
      | false =>
          obtain rfl := Reply.resolved.inj (Option.some.inj hreply)
          have hcurrent := current_of_seen hvisited.all
          show Current p _ (Function.update w.calls c _ c).begun_at _
          rw [begun_at_update]
          exact ⟨hcurrent.recent, hcurrent.fresh, hcurrent.failed⟩
  | cons name left =>
      dsimp only
      by_cases hfresh : fresh p w.shared name w.shared.now = true
      · rw [if_pos hfresh]
        have hseen := seen_of_fresh h.shared (h.begun c) hfresh
        refine sound_of_valid (h.enter ⟨hvisited.next hseen, fun name' hname' hnone => ?_⟩
          hwrite.symm)
        refine (hfilled name' hname' hnone).imp id fun ⟨hforced, hmem⟩ => ⟨hforced, ?_⟩
        refine (List.mem_cons.mp hmem).resolve_left ?_
        rintro rfl
        exact hseen.has_entry hnone
      · rw [if_neg hfresh]
        exact sound_of_valid (h.enter ⟨hvisited, hfilled, le_refl _, by simpa using hfresh⟩
          hwrite.symm)

/-- **A step of a call that waits for no answer.** -/
theorem proceed_sound (h : w.Valid p) (c : Nat) : Sound p c (proceed p c w) := by
  cases hcall : (w.calls c).phase with
  | called => exact called_sound h hcall
  | checking left => exact checking_sound h hcall
  | expired => exact expired_sound h hcall
  | priming => exact priming_sound h hcall
  | refreshing forced left => exact refreshing_sound h hcall
  | idle | looking_up forced name left started_at | ended =>
      unfold proceed
      rw [hcall]
      exact sound_of_valid h

/-- `resolved` begins: without names it returns at once. -/
theorem call_resolved_sound (h : w.Valid p) (c : Nat) : Sound p c (call_resolved p c w) := by
  unfold call_resolved
  cases hcall : (w.calls c).phase with
  | idle =>
      have hidle : (w.calls c).phase.mode = .free := by rw [hcall]; rfl
      dsimp only
      by_cases hnames : p.hostnames.isEmpty = true
      · rw [if_pos hnames]
        refine ⟨h.begin hidle rfl, fun snapshot hreply => ?_⟩
        obtain rfl := Reply.resolved.inj (Option.some.inj hreply)
        have hnone : p.hostnames = [] := List.isEmpty_iff.mp hnames
        exact ⟨by rw [hnone, List.flatMap_nil, List.append_nil],
          by rw [hnone]; exact fun _ hmem => (nomatch hmem),
          by rw [hnone]; exact fun _ hmem => (nomatch hmem)⟩
      · rw [if_neg hnames]
        exact sound_of_valid (h.begin hidle rfl)
  | called | checking | expired | priming | refreshing | looking_up | ended => exact sound_of_valid h

theorem call_prime_sound (h : w.Valid p) (c : Nat) : Sound p c (call_prime p c w) := by
  unfold call_prime
  cases hcall : (w.calls c).phase with
  | idle =>
      have hidle : (w.calls c).phase.mode = .free := by rw [hcall]; rfl
      dsimp only
      by_cases hnames : p.hostnames.isEmpty = true
      · rw [if_pos hnames]
        exact ⟨h.begin hidle rfl, fun snapshot hreply => nomatch hreply⟩
      · rw [if_neg hnames]
        exact sound_of_valid (h.begin hidle rfl)
  | called | checking | expired | priming | refreshing | looking_up | ended => exact sound_of_valid h

/-- A lookup outside `prime` is under way only if the one before has lived its window. -/
theorem World.Valid.expired_before (hpos : ∀ l, 0 < window p l) (h : w.Valid p) {name : String}
    {left : List String} {started_at : Nat}
    (hcall : (w.calls c).phase = .looking_up false name left started_at) {before : Lookup}
    (hbefore : latest w.shared.log name = some before) :
    before.attempted_at + window p before ≤ started_at := by
  have hphase := h.phases c
  rw [hcall] at hphase
  obtain ⟨hvisited, hfilled, -, hstale⟩ := hphase
  cases hentry : w.shared.cache.hosts name with
  | none =>
      rcases hfilled name hvisited.mem hentry with hnever | ⟨hforced, -⟩
      · cases hbefore.symm.trans hnever
      · cases hforced
  | some entry =>
      obtain ⟨l, hlatest, rfl⟩ := h.shared.known name entry hentry
      obtain rfl := Option.some.inj (hbefore.symm.trans hlatest)
      exact expired_of_stale (hpos _) hentry hstale

/-- An answer: the name is seen fresh now, and the lookup began when the one before had expired. -/
theorem World.Valid.answered (hpos : ∀ l, 0 < window p l) (h : w.Valid p) {l : Lookup}
    {left : List String} (hcall : (w.calls c).phase = .looking_up l.forced l.name left l.started_at)
    (hnow : l.attempted_at = w.shared.now) :
    (World.enter { w with shared := w.shared.answered l } c (.refreshing l.forced left)).Valid p := by
  have hphase := h.phases c
  have hwrite : (w.calls c).phase.mode = .write := by rw [hcall]; rfl
  rw [hcall] at hphase
  obtain ⟨hvisited, hfilled, -, -⟩ := hphase
  have hspaced : l.forced = false → ∀ before, latest w.shared.log l.name = some before →
      before.attempted_at + window p before ≤ l.started_at := by
    intro hforced before hbefore
    rw [hforced] at hcall
    exact h.expired_before hpos hcall hbefore
  have hseen : ∀ name, name = l.name ∨ Seen p w.shared (w.calls c).begun_at name →
      Seen p (w.shared.answered l) (w.calls c).begun_at name :=
    fun name hname => Seen.answered (hpos l) hnow (h.begun c) hname
  have hvisited' : Visited p (w.shared.answered l) (w.calls c).begun_at (l.name :: left) := by
    obtain ⟨done, hsplit, hdone⟩ := hvisited
    exact ⟨done, hsplit, fun name hname => hseen name (.inr (hdone name hname))⟩
  have hwriter := RwLock.mode_eq_write_iff.mp ((h.held c).trans hwrite)
  refine h.move rfl rfl (h.shared.answered hnow hspaced) (fun hnone => ?_) (h.begun c)
    ⟨hvisited'.next (hseen l.name (.inl rfl)), hfilled.answered⟩
    (fun d hd => Phase.ok_of_free (h.others_free hwrite hd)) fun d => ?_
  · cases hwriter.symm.trans hnone
  · by_cases hd : d = c
    · rw [if_pos hd, hd]
      exact (h.held c).trans hwrite
    · rw [if_neg hd]
      rfl

theorem answer_lookup_valid (hpos : ∀ l, 0 < window p l) (h : w.Valid p) (c : Nat)
    (answer : Option (List IpAddr)) : (answer_lookup c answer w).Valid p := by
  unfold answer_lookup
  cases hcall : (w.calls c).phase with
  | looking_up forced name left started_at =>
      exact h.answered (l := ⟨name, answer, started_at, w.shared.now, forced⟩) hpos hcall rfl
  | idle | called | checking | expired | priming | refreshing | ended => exact h

/-- A call of `resolved` that is dropped: the name it waited for has expired, so that nobody returns the
snapshot before the next lookup. -/
theorem drop_call_valid (h : w.Valid p) (c : Nat) : (drop_call c w).Valid p := by
  unfold drop_call
  cases hcall : (w.calls c).phase with
  | called => exact h.enter trivial (by rw [hcall]; rfl)
  | expired => exact h.enter trivial (by rw [hcall]; rfl)
  | looking_up forced name left started_at =>
      have hphase := h.phases c
      rw [hcall] at hphase
      obtain ⟨hvisited, hfilled, hstarted, hstale⟩ := hphase
      cases forced with
      | true => exact h
      | false =>
          have hrest : Rest p w.shared := ⟨hfilled.rest (.inl rfl), fun _ =>
            .inr ⟨name, hvisited.mem, fresh_eq_false_later hstale hstarted⟩⟩
          exact h.leave (s := w.shared) rfl h.shared hrest rfl fun d _ => h.phases d
  | idle | checking | priming | refreshing | ended => exact h

/-- **One step.** -/
theorem step_sound (hpos : ∀ l, 0 < window p l) (h : w.Valid p) (e : Event) :
    Sound p e.call (step p e w) := by
  have htick := h.tick e.elapsed
  unfold step
  cases e.action with
  | resolved => exact call_resolved_sound htick e.call
  | prime => exact call_prime_sound htick e.call
  | proceed => exact proceed_sound htick e.call
  | answer answer => exact sound_of_valid (answer_lookup_valid hpos htick e.call answer)
  | drop => exact sound_of_valid (drop_call_valid htick e.call)

theorem start_valid (p : TrustedProxies) : World.start.Valid p where
  shared := ⟨fun _ hl => (nomatch hl), fun _ _ hentry => (nomatch hentry),
    fun _ _ _ hsplit => (nomatch (List.append_eq_nil_iff.mp hsplit.symm).2)⟩
  rest _ := ⟨fun _ _ _ => .inl rfl, fun hbuilt => nomatch hbuilt⟩
  begun _ := le_refl _
  phases _ := trivial
  held := RwLock.mode_idle

/-- **A run.** Every step is sound, and lookups are spaced. -/
theorem run_sound (hpos : ∀ l, 0 < window p l) (events : List Event) (h : w.Valid p) :
    Along (step p) (fun e w => Sound p e.call (step p e w)) events w ∧
      (final (step p) events w).Valid p := by
  induction events generalizing w with
  | nil => exact ⟨trivial, h⟩
  | cons e events ih =>
      have hstep := step_sound hpos h e
      obtain ⟨halong, hfinal⟩ := ih hstep.1
      exact ⟨⟨hstep, halong⟩, hfinal⟩

/-! ### Lookups that begin -/

/-- What a step that drops no call does to the lookups. -/
inductive Asks (c : Nat) (w : World) : World → Prop where
  | stays : Asks c w w
  | quiet {w' : World} {call : Call} (hcalls : w'.calls = Function.update w.calls c call)
      (hlog : w'.shared.log = w.shared.log) (hbefore : (w.calls c).phase.query = none)
      (hafter : call.phase.query = none) : Asks c w w'
  | began {forced : Bool} {name : String} {left : List String}
      (hcall : (w.calls c).phase = .refreshing forced (name :: left)) :
      Asks c w (w.enter c (.looking_up forced name left w.shared.now))
  | answered {w' : World} {l : Lookup} {left : List String}
      (hcalls : w'.calls = Function.update w.calls c ⟨.refreshing l.forced left, (w.calls c).begun_at⟩)
      (hlog : w'.shared.log = l :: w.shared.log) (hbefore : (w.calls c).phase.query = some l.query) :
      Asks c w w'

theorem pending_eq_some_iff (h : w.Valid p) {query : Query} :
    w.pending = some query ↔ ∃ c, (w.calls c).phase.query = some query := by
  refine Option.bind_eq_some_iff.trans (exists_congr fun c => and_iff_right_of_imp fun hquery => ?_)
  refine RwLock.mode_eq_write_iff.mp ((h.held c).trans ?_)
  cases hcall : (w.calls c).phase with
  | looking_up => rfl
  | idle | called | checking | expired | priming | refreshing | ended =>
      rw [hcall] at hquery
      cases hquery

theorem pending_congr {w' : World} (h : w.Valid p) (h' : w'.Valid p)
    (hphases : ∀ d, (w'.calls d).phase.query = (w.calls d).phase.query) : w'.pending = w.pending := by
  refine Option.ext fun query => ?_
  rw [pending_eq_some_iff h', pending_eq_some_iff h]
  exact exists_congr fun d => by rw [hphases]

/-- Only the call that writes can wait for an answer. -/
theorem pending_of_writes (h : w.Valid p) (hwrite : (w.calls c).phase.mode = .write) :
    w.pending = (w.calls c).phase.query := by
  unfold World.pending
  rw [RwLock.mode_eq_write_iff.mp ((h.held c).trans hwrite), Option.bind_some]

theorem mode_of_query {phase : Phase} {query : Query} (h : phase.query = some query) :
    phase.mode = .write := by
  cases phase with
  | looking_up => rfl
  | idle | called | checking | expired | priming | refreshing | ended => cases h

theorem begins_of_query {w' : World} {query : Query} (h : (w.calls c).phase.query = some query) :
    begins c w w' = none := if_neg fun hnone => nomatch hnone.symm.trans h

/-- **A lookup that begins is under way, and stays until it is answered.** -/
theorem Asks.queries {w' : World} (hasks : Asks c w w') (h : w.Valid p) (h' : w'.Valid p) :
    w'.queries = (begins c w w').toList ++ w.queries := by
  cases hasks with
  | stays =>
      have hnone : begins c w w = none := by
        unfold begins
        split
        case isTrue hquery => exact hquery
        case isFalse => rfl
      rw [hnone]
      rfl
  | @quiet _ call hcalls hlog hbefore hafter =>
      have hquery : (w'.calls c).phase.query = none := by rwa [hcalls, Function.update_self]
      have hpending : w'.pending = w.pending := by
        refine pending_congr h h' fun d => ?_
        by_cases hd : d = c
        · rw [hd, hquery, hbefore]
        · rw [hcalls, Function.update_of_ne hd]
      have hbegins : begins c w w' = none := (if_pos hbefore).trans hquery
      unfold World.queries
      rw [hbegins, hpending, hlog]
      rfl
  | @began forced name left hcall =>
      -- The call writes before and after, so that `pending` looks at it alone.
      have hwrite : (w.calls c).phase.mode = .write := by rw [hcall]; rfl
      have hbefore : (w.calls c).phase.query = none := by rw [hcall]; rfl
      have hafter : ((w.enter c (.looking_up forced name left w.shared.now)).calls c).phase =
          .looking_up forced name left w.shared.now :=
        congrArg (·.phase) (Function.update_self c _ w.calls)
      unfold World.queries
      rw [pending_of_writes h hwrite, hbefore, pending_of_writes h' (by rw [hafter]; rfl)]
      unfold begins
      rw [if_pos hbefore]
      rfl
  | @answered _ l left hcalls hlog hbefore =>
      -- The query moves from the call into the log.
      have hafter : (w'.calls c).phase = .refreshing l.forced left := by
        rw [hcalls, Function.update_self]
      unfold World.queries
      rw [begins_of_query hbefore, pending_of_writes h (mode_of_query hbefore), hbefore, hlog,
        pending_of_writes h' (by rw [hafter]; rfl), hafter]
      rfl

theorem proceed_asks (p : TrustedProxies) (c : Nat) (w : World) : Asks c w (proceed p c w).2 := by
  unfold proceed
  cases hcall : (w.calls c).phase with
  | called =>
      dsimp only
      split
      · split
        · exact .quiet rfl rfl (by rw [hcall]; rfl) rfl
        · exact .quiet rfl rfl (by rw [hcall]; rfl) rfl
      · exact .stays
  | checking left =>
      cases left with
      | nil => exact .quiet rfl rfl (by rw [hcall]; rfl) rfl
      | cons name left =>
          dsimp only
          split
          · exact .quiet rfl rfl (by rw [hcall]; rfl) rfl
          · exact .quiet rfl rfl (by rw [hcall]; rfl) rfl
  | expired =>
      dsimp only
      split
      · exact .quiet rfl rfl (by rw [hcall]; rfl) rfl
      · exact .stays
  | priming =>
      dsimp only
      split
      · exact .quiet rfl rfl (by rw [hcall]; rfl) rfl
      · exact .stays
  | refreshing forced left =>
      cases left with
      | nil => exact .quiet rfl rfl (by rw [hcall]; rfl) rfl
      | cons name left =>
          dsimp only
          split
          · exact .quiet rfl rfl (by rw [hcall]; rfl) rfl
          · exact .began hcall
  | idle | looking_up | ended => exact .stays

theorem call_resolved_asks (p : TrustedProxies) (c : Nat) (w : World) :
    Asks c w (call_resolved p c w).2 := by
  unfold call_resolved
  cases hcall : (w.calls c).phase with
  | idle =>
      dsimp only
      split
      · exact .quiet rfl rfl (by rw [hcall]; rfl) rfl
      · exact .quiet rfl rfl (by rw [hcall]; rfl) rfl
  | called | checking | expired | priming | refreshing | looking_up | ended => exact .stays

theorem call_prime_asks (p : TrustedProxies) (c : Nat) (w : World) :
    Asks c w (call_prime p c w).2 := by
  unfold call_prime
  cases hcall : (w.calls c).phase with
  | idle =>
      dsimp only
      split
      · exact .quiet rfl rfl (by rw [hcall]; rfl) rfl
      · exact .quiet rfl rfl (by rw [hcall]; rfl) rfl
  | called | checking | expired | priming | refreshing | looking_up | ended => exact .stays

theorem answer_lookup_asks (c : Nat) (answer : Option (List IpAddr)) (w : World) :
    Asks c w (answer_lookup c answer w) := by
  unfold answer_lookup
  cases hcall : (w.calls c).phase with
  | looking_up forced name left started_at =>
      exact .answered (l := ⟨name, answer, started_at, w.shared.now, forced⟩) rfl rfl
        (by rw [hcall]; rfl)
  | idle | called | checking | expired | priming | refreshing | ended => exact .stays

theorem step_queries (hpos : ∀ l, 0 < window p l) (h : w.Valid p) {e : Event}
    (hkeep : e.action ≠ .drop) :
    (step p e w).2.queries = (begins e.call w (step p e w).2).toList ++ w.queries := by
  have hasks : Asks e.call (w.tick e.elapsed) (step p e w).2 := by
    unfold step
    cases haction : e.action with
    | resolved => exact call_resolved_asks p e.call _
    | prime => exact call_prime_asks p e.call _
    | proceed => exact proceed_asks p e.call _
    | answer answer => exact answer_lookup_asks e.call answer _
    | drop => exact absurd haction hkeep
  exact hasks.queries (h.tick e.elapsed) (step_sound hpos h e).1

/-- **Where no call is dropped, every lookup that begins is answered or under way.** -/
theorem run_queries (hpos : ∀ l, 0 < window p l) (events : List Event)
    (hkeep : ∀ e ∈ events, e.action ≠ .drop) (h : w.Valid p) :
    (final (step p) events w).queries = (queries p events w).reverse ++ w.queries := by
  induction events generalizing w with
  | nil => rfl
  | cons e events ih =>
      have hstep := step_queries hpos h (hkeep e List.mem_cons_self)
      have hrest := ih (fun e' he' => hkeep e' (List.mem_cons_of_mem e he')) (step_sound hpos h e).1
      have hone : ∀ query : Option Query, query.toList.reverse = query.toList := by
        intro query
        cases query <;> rfl
      rw [final_cons, hrest, hstep, queries, List.reverse_append, hone, List.append_assoc]

end Steps

/-- **Every snapshot is current**, in every run of calls: it is made of the most recent lookups, each of
them fresh at some instant of the call. Outside `prime` a name is looked up when the lookup before has
lived its window. A lookup whose call is dropped counts for nothing: it leaves no entry, so that the name
may be looked up again at once. Where no call is dropped every lookup that began is counted. -/
theorem snapshots_current (matchers : List ProxyMatcher) (events : List Event) :
    Along (step (.new matchers)) (fun e w => ∀ snapshot,
        (step (.new matchers) e w).1 = some (.resolved snapshot) →
          Current (.new matchers) (step (.new matchers) e w).2.shared
            ((step (.new matchers) e w).2.calls e.call).begun_at snapshot) events .start ∧
      Spaced (.new matchers) (final (step (.new matchers)) events .start).shared.log ∧
      (final (step (.new matchers)) events .start).SpacedPending (.new matchers) ∧
      ((∀ e ∈ events, e.action ≠ .drop) →
        queries (.new matchers) events .start =
          (final (step (.new matchers)) events .start).queries.reverse) := by
  have hpos : ∀ l, 0 < window (.new matchers) l := by
    intro l
    unfold window
    split
    · show 0 < POSITIVE_TTL
      decide
    · show 0 < NEGATIVE_TTL
      decide
  have hvalid := start_valid (.new matchers)
  obtain ⟨halong, hfinal⟩ := run_sound hpos events hvalid
  refine ⟨halong.mono fun e w hsound => hsound.2, hfinal.shared.spaced,
    fun c name left started_at hcall before hbefore => hfinal.expired_before hpos hcall hbefore,
    fun hkeep => ?_⟩
  have hnone : World.start.queries = [] := rfl
  rw [run_queries hpos events hkeep hvalid, hnone, List.append_nil, List.reverse_reverse]

/-- A request looks `traefik` up, and one that comes 29 seconds later is given the same. -/
example :
    let events : List Event := [⟨0, 0, .resolved⟩, ⟨0, 0, .proceed⟩, ⟨0, 0, .proceed⟩,
      ⟨0, 0, .proceed⟩, ⟨1000, 0, .answer (some [.v4 0x0A000001#32])⟩, ⟨0, 0, .proceed⟩,
      ⟨29000000000, 1, .resolved⟩, ⟨0, 1, .proceed⟩, ⟨0, 1, .proceed⟩, ⟨0, 1, .proceed⟩]
    (outputs (step (.new [.Hostname "traefik"])) events .start).filterMap id =
      [.resolved [.from_addr (.v4 0x0A000001#32)], .resolved [.from_addr (.v4 0x0A000001#32)]] := by
  decide +kernel

end ProxyResolution

end IpVault
