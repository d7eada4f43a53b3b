import IpVault.Lib.Runs
import Mathlib.Tactic

set_option autoImplicit false

/-! # The cache of a paginated list (`static/app.js`, `PagedCache`)

The cache fetches large chunks of a list from the server and shows them in small pages. Its calls run
alone up to their next `await`, and go on when what they wait for is settled; in between anything
else may run, and the answers of the server arrive in any order. A `World` is the cache with the
requests that are on their way and the calls that wait.
-/

namespace IpVault.Client

open Lib

variable {Row Query : Type}

/-! ## The cache -/

/-- What `fetchChunk` comes to: an array of rows, or an object with a total and rows, either of which
may be missing. -/
inductive Answer (Row : Type) where
  | array (items : List Row)
  | object (total : Option Nat) (items : Option (List Row))

/-- The rows of an answer. -/
def Answer.rows : Answer Row → List Row
  | .array items => items
  | .object _ items => items.getD []

/-- What the constructor is given; a chunk and a page hold one row at least. -/
structure Options where
  chunkSize : Nat := 100
  pageSize : Nat := 15
  chunkSize_pos : 0 < chunkSize := by decide
  pageSize_pos : 0 < pageSize := by decide

/-- `PagedCache`. A promise is a number. The memo `_visible` is left out: it is dropped wherever the
rows or the filter are written. -/
structure PagedCache (Row : Type) where
  chunkSize : Nat
  pageSize : Nat
  filterFn : Option (Row → Bool)
  items : List Row
  serverOffset : Nat
  hasMoreOnServer : Bool
  localPage : Nat
  prefetching : Option Nat
  serverTotal : Option Nat

namespace PagedCache

/-- `reset`. -/
def reset (c : PagedCache Row) : PagedCache Row :=
  { c with
    items := []
    serverOffset := 0
    hasMoreOnServer := true
    localPage := 0
    prefetching := none
    serverTotal := none }

/-- `constructor`. -/
def new (o : Options) : PagedCache Row where
  chunkSize := o.chunkSize
  pageSize := o.pageSize
  filterFn := none
  items := []
  serverOffset := 0
  hasMoreOnServer := true
  localPage := 0
  prefetching := none
  serverTotal := none

/-- `_absorbChunk`: the rows, and the cache with the total if there is one. -/
def absorbChunk (c : PagedCache Row) : Answer Row → List Row × PagedCache Row
  | .array items => (items, c)
  | .object none items => (items.getD [], c)
  | .object (some total) items => (items.getD [], { c with serverTotal := some total })

/-- The rows that a filter leaves. -/
def filtered (filterFn : Option (Row → Bool)) (items : List Row) : List Row :=
  match filterFn with
  | none => items
  | some f => items.filter f

/-- `visibleItems`. -/
def visibleItems (c : PagedCache Row) : List Row := filtered c.filterFn c.items

/-- `totalLocalPages`; the quotient is rounded up. -/
def totalLocalPages (c : PagedCache Row) : Nat :=
  max 1 ((c.visibleItems.length + c.pageSize - 1) / c.pageSize)

/-- `currentPageItems`. -/
def currentPageItems (c : PagedCache Row) : List Row :=
  (c.visibleItems.drop (c.localPage * c.pageSize)).take c.pageSize

/-- `setPageSize`, of a finite number. -/
def setPageSize (c : PagedCache Row) (size : Rat) : PagedCache Row :=
  let next := (max 1 size.floor).toNat
  if next = c.pageSize then c
  else { c with pageSize := next, localPage := c.localPage * c.pageSize / next }

/-- `setFilter`. -/
def setFilter (c : PagedCache Row) (fn : Option (Row → Bool)) : PagedCache Row :=
  { c with filterFn := fn, localPage := 0 }

/-- `prevPage`. -/
def prevPage (c : PagedCache Row) : PagedCache Row :=
  if 0 < c.localPage then { c with localPage := c.localPage - 1 } else c

/-- `loadFirstChunk`, of the chunk that has arrived. -/
def putFirst (c : PagedCache Row) (chunk : List Row) : PagedCache Row :=
  { c with
    items := chunk
    serverOffset := chunk.length
    hasMoreOnServer := chunk.length = c.chunkSize }

/-- `fetchNextChunk`, of the chunk that has arrived. -/
def putNext (c : PagedCache Row) (chunk : List Row) : PagedCache Row :=
  { c with
    items := c.items ++ chunk
    serverOffset := c.serverOffset + chunk.length
    hasMoreOnServer := chunk.length = c.chunkSize
    prefetching := none }

end PagedCache

/-! ## Calls and requests -/

/-- What a request is for: the first chunk of a load, or the chunk at an offset, whose promise it
settles. -/
inductive Purpose where
  | firstChunk
  | nextChunk (promise offset : Nat)
  deriving DecidableEq

/-- The offset that is asked for. -/
def Purpose.offset : Purpose → Nat
  | firstChunk => 0
  | nextChunk _ offset => offset

/-- A request on its way. The fetcher reads the inputs of the filters when it is called. -/
structure Request (Query : Type) where
  purpose : Purpose
  query : Query
  limit : Nat

/-- A call at its `await`, with what it has computed before: how many chunks `ensureFilled` has
fetched; that it has returned; which page is wanted and how often the loop went round; the page and the
page size that say where the next page starts. -/
inductive Call where
  | ensureFilled (fetched : Nat)
  | loadFirstChunk
  | goToPage (wanted guard : Nat)
  | nextPage (page pageSize : Nat)

/-- The cache, the inputs of the filters, the query that was started last, the requests on their way,
the calls that wait for a promise, and what has become of the promises: `true` fulfilled, `false`
rejected. -/
structure World (Row Query : Type) where
  cache : PagedCache Row
  query : Query
  started : Option Query
  requests : List (Request Query)
  waiting : List (Nat × Call)
  settled : Nat → Option Bool
  fresh : Nat

/-- A `nextPage` that has completed: the page it was called on and the page it left. -/
structure Turned where
  before : Nat
  after : Nat
  deriving DecidableEq

namespace World

/-- A cache that has just been constructed. -/
def new (o : Options) (query : Query) : World Row Query where
  cache := .new o
  query := query
  started := none
  requests := []
  waiting := []
  settled _ := none
  fresh := 0

/-- `fetchChunk`, a request to the server. The first one of a dataset starts its query. -/
def fetchChunk (w : World Row Query) (purpose : Purpose) : World Row Query :=
  { w with
    started := some (w.started.getD w.query)
    requests := w.requests ++ [⟨purpose, w.query, w.cache.chunkSize⟩] }

/-- `fetchNextChunk`: its promise. -/
def fetchNextChunk (w : World Row Query) : Nat × World Row Query :=
  let own := { w with fresh := w.fresh + 1 }
  if w.cache.hasMoreOnServer then
    match w.cache.prefetching with
    | some p => (p, w)
    | none =>
        (w.fresh, ({ own with cache.prefetching := some w.fresh }).fetchChunk
          (.nextChunk w.fresh w.cache.serverOffset))
  else (w.fresh, { own with settled := Function.update w.settled w.fresh (some true) })

/-- `_maybePrefetch`: on the last page but one. -/
def maybePrefetch (w : World Row Query) : World Row Query :=
  if !w.cache.hasMoreOnServer || w.cache.prefetching.isSome then w
  else if w.cache.localPage + 2 = w.cache.totalLocalPages then w.fetchNextChunk.2
  else w

/-- `await this.fetchNextChunk()`. -/
def awaitNext (w : World Row Query) (call : Call) : World Row Query :=
  { w.fetchNextChunk.2 with waiting := w.fetchNextChunk.2.waiting ++ [(w.fetchNextChunk.1, call)] }

/-- `await` of a call that has returned. -/
def awaitReturned (w : World Row Query) (call : Call) : World Row Query :=
  { w with
    settled := Function.update w.settled w.fresh (some true)
    fresh := w.fresh + 1
    waiting := w.waiting ++ [(w.fresh, call)] }

/-- The loop of `ensureFilled`, up to the end of the `await` of `loadFirstChunk`. -/
def ensureFilled (w : World Row Query) (fetched : Nat) : World Row Query :=
  if w.cache.visibleItems.isEmpty && w.cache.hasMoreOnServer && decide (fetched < 20) then
    w.awaitNext (.ensureFilled fetched)
  else w.awaitReturned .loadFirstChunk

/-- The loop of `goToPage`, and the rest of it. -/
def goToPage (w : World Row Query) (wanted guard : Nat) : World Row Query :=
  if w.cache.totalLocalPages ≤ wanted ∧ w.cache.hasMoreOnServer = true ∧ guard < 100 then
    w.awaitNext (.goToPage wanted (guard + 1))
  else
    ({ w with cache.localPage := min wanted (w.cache.totalLocalPages - 1) }).maybePrefetch

/-- The rest of `nextPage` after its `await`; `nextPageStart` is that of the page and the page size
before it. -/
def turnPage (w : World Row Query) (page pageSize : Nat) : Option Turned × World Row Query :=
  let turned : World Row Query :=
    if (page + 1) * pageSize < w.cache.visibleItems.length then
      { w with cache.localPage := w.cache.localPage + 1 }
    else w
  (some ⟨page, turned.cache.localPage⟩, turned.maybePrefetch)

/-- `nextPage`. -/
def nextPage (w : World Row Query) : Option Turned × World Row Query :=
  if w.cache.visibleItems.length ≤ (w.cache.localPage + 1) * w.cache.pageSize ∧
      w.cache.hasMoreOnServer = true then
    (none, w.awaitNext (.nextPage w.cache.localPage w.cache.pageSize))
  else w.turnPage w.cache.localPage w.cache.pageSize

/-- A call goes on after its promise has been fulfilled. -/
def resume (w : World Row Query) : Call → Option Turned × World Row Query
  | .ensureFilled fetched => (none, w.ensureFilled (fetched + 1))
  | .loadFirstChunk => (none, w.maybePrefetch)
  | .goToPage wanted guard => (none, w.goToPage wanted guard)
  | .nextPage page pageSize => w.turnPage page pageSize

/-- `loadFirstChunk`, up to its request. -/
def loadFirstChunk (w : World Row Query) : World Row Query :=
  ({ w with cache := w.cache.reset, started := none }).fetchChunk .firstChunk

/-- A chunk has arrived: `loadFirstChunk` goes on, or the promise of `fetchNextChunk` is
fulfilled. -/
def arrive (w : World Row Query) (purpose : Purpose) (answer : Answer Row) : World Row Query :=
  let chunk := (w.cache.absorbChunk answer).1
  let cache := (w.cache.absorbChunk answer).2
  match purpose with
  | .firstChunk => ({ w with cache := cache.putFirst chunk }).ensureFilled 0
  | .nextChunk p _ =>
      { w with
        cache := cache.putNext chunk
        settled := Function.update w.settled p (some true) }

/-- A fetch has failed: `loadFirstChunk` throws, or the promise of `fetchNextChunk` is rejected. -/
def fail (w : World Row Query) : Purpose → World Row Query
  | .firstChunk => w
  | .nextChunk p _ => { w with settled := Function.update w.settled p (some false) }

end World

/-! ## Steps -/

/-- What can happen: the user edits the inputs of the filters, one of the methods is called, a
request is answered or fails, or a call that waits is resumed. -/
inductive Event (Row Query : Type) where
  | edit (query : Query)
  | loadFirstChunk
  | reset
  | fetchNextChunk
  | setPageSize (size : Rat)
  | setFilter (fn : Option (Row → Bool))
  | goToPage (target : Rat)
  | jumpPages (delta : Rat)
  | nextPage
  | prevPage
  | answer (i : Nat) (answer : Answer Row)
  | reject (i : Nat)
  | resume (j : Nat)

/-- One step. A call whose promise is rejected throws. -/
def step (e : Event Row Query) (w : World Row Query) : Option Turned × World Row Query :=
  match e with
  | .edit query => (none, { w with query := query })
  | .loadFirstChunk => (none, w.loadFirstChunk)
  | .reset => (none, { w with cache := w.cache.reset, started := none })
  | .fetchNextChunk => (none, w.fetchNextChunk.2)
  | .setPageSize size => (none, { w with cache := w.cache.setPageSize size })
  | .setFilter fn => (none, { w with cache := w.cache.setFilter fn })
  | .goToPage target => (none, w.goToPage (max 0 target.floor).toNat 0)
  | .jumpPages delta => (none, w.goToPage (max 0 ((w.cache.localPage : Rat) + delta).floor).toNat 0)
  | .nextPage => w.nextPage
  | .prevPage => (none, { w with cache := w.cache.prevPage })
  | .answer i answer =>
      match w.requests[i]? with
      | none => (none, w)
      | some r => (none, ({ w with requests := w.requests.eraseIdx i }).arrive r.purpose answer)
  | .reject i =>
      match w.requests[i]? with
      | none => (none, w)
      | some r => (none, ({ w with requests := w.requests.eraseIdx i }).fail r.purpose)
  | .resume j =>
      match w.waiting[j]? with
      | none => (none, w)
      | some (p, call) =>
          match w.settled p with
          | none => (none, w)
          | some false => (none, { w with waiting := w.waiting.eraseIdx j })
          | some true => ({ w with waiting := w.waiting.eraseIdx j }).resume call

/-- An answer settles the request at its place, if there is one. -/
theorem step_answer_cases (w : World Row Query) (i : Nat) (answer : Answer Row) :
    step (.answer i answer) w = (none, w) ∨
      ∃ r, w.requests[i]? = some r ∧ step (.answer i answer) w =
        (none, ({ w with requests := w.requests.eraseIdx i }).arrive r.purpose answer) := by
  unfold step
  dsimp only
  cases w.requests[i]? with
  | none => exact .inl rfl
  | some r => exact .inr ⟨r, rfl, rfl⟩

/-- So does a failure. -/
theorem step_reject_cases (w : World Row Query) (i : Nat) :
    step (.reject i) w = (none, w) ∨
      ∃ r, w.requests[i]? = some r ∧ step (.reject i) w =
        (none, ({ w with requests := w.requests.eraseIdx i }).fail r.purpose) := by
  unfold step
  dsimp only
  cases w.requests[i]? with
  | none => exact .inl rfl
  | some r => exact .inr ⟨r, rfl, rfl⟩

/-- A call whose promise is settled throws or goes on. -/
theorem step_resume_cases (w : World Row Query) (j : Nat) :
    step (.resume j) w = (none, w) ∨
      ∃ p call, w.waiting[j]? = some (p, call) ∧
        (step (.resume j) w = (none, { w with waiting := w.waiting.eraseIdx j }) ∨
          w.settled p = some true ∧
          step (.resume j) w = ({ w with waiting := w.waiting.eraseIdx j }).resume call) := by
  unfold step
  dsimp only
  cases w.waiting[j]? with
  | none => exact .inl rfl
  | some entry =>
      obtain ⟨p, call⟩ := entry
      dsimp only
      cases hsettled : w.settled p with
      | none => exact .inl rfl
      | some fulfilled =>
          refine .inr ⟨p, call, rfl, ?_⟩
          cases fulfilled with
          | false => exact .inl rfl
          | true => exact .inr ⟨hsettled, rfl⟩

/-! ## What the calls change -/

namespace PagedCache

theorem absorbChunk_rows (c : PagedCache Row) (answer : Answer Row) :
    (c.absorbChunk answer).1 = answer.rows := by
  cases answer with
  | array items => rfl
  | object total items => cases total <;> rfl

/-- The answer brings the rows and the total, and nothing else is touched. -/
theorem absorbChunk_cache (c : PagedCache Row) (answer : Answer Row) :
    (c.absorbChunk answer).2 = { c with serverTotal := (c.absorbChunk answer).2.serverTotal } := by
  cases answer with
  | array items => rfl
  | object total items => cases total <;> rfl

end PagedCache

/-- Nothing has happened to the cache but that it may have begun to fetch, and the query that was
started is still the one. -/
structure World.Leads (w w' : World Row Query) : Prop where
  cache : w'.cache = { w.cache with prefetching := w'.cache.prefetching }
  started : w'.started = w.started ∨ w.started = none

namespace World

theorem Leads.refl (w : World Row Query) : w.Leads w := ⟨rfl, .inl rfl⟩

theorem fetchNextChunk_leads (w : World Row Query) : w.Leads w.fetchNextChunk.2 := by
  unfold fetchNextChunk
  by_cases hmore : w.cache.hasMoreOnServer = true
  · rw [if_pos hmore]
    cases w.cache.prefetching with
    | some p => exact .refl w
    | none =>
        refine ⟨rfl, ?_⟩
        show some (w.started.getD w.query) = w.started ∨ w.started = none
        cases w.started with
        | none => exact .inr rfl
        | some q => exact .inl rfl
  · rw [if_neg hmore]
    exact ⟨rfl, .inl rfl⟩

theorem maybePrefetch_leads (w : World Row Query) : w.Leads w.maybePrefetch := by
  unfold maybePrefetch
  split
  · exact .refl w
  · split
    · exact w.fetchNextChunk_leads
    · exact .refl w

theorem awaitNext_leads (w : World Row Query) (call : Call) : w.Leads (w.awaitNext call) :=
  ⟨w.fetchNextChunk_leads.cache, w.fetchNextChunk_leads.started⟩

theorem ensureFilled_leads (w : World Row Query) (fetched : Nat) :
    w.Leads (w.ensureFilled fetched) := by
  unfold ensureFilled
  split
  · exact w.awaitNext_leads _
  · exact ⟨rfl, .inl rfl⟩

end World

end IpVault.Client
