import IpVault.Client.PagedCache
import Mathlib.Tactic

set_option autoImplicit false

/-! # One dataset in the cache

A reload and a change of the filters do not cancel the requests that are on their way, and the chunk
of an old query is put into the cache like one of the new query. What the cache holds is a prefix of
the rows of the query that was started last as long as only its chunks arrive, each at the offset the
cache has reached.
-/

namespace IpVault.Client

open Lib

variable {Row Query : Type}

/-! ## The server -/

/-- A server whose rows do not change: the rows of each query, none twice, and whether it reports
their number. -/
structure Server (Row Query : Type) where
  rows : Query → List Row
  nodup : ∀ q, (rows q).Nodup
  include_total : Bool

namespace Server

variable (S : Server Row Query)

/-- The rows of a chunk. -/
def chunk (r : Request Query) : List Row :=
  ((S.rows r.query).drop r.purpose.offset).take r.limit

/-- The answer to a request. -/
def answer (r : Request Query) : Answer Row :=
  if S.include_total then .object (some (S.rows r.query).length) (some (S.chunk r))
  else .array (S.chunk r)

/-- The answer that arrives, if one does, is the server's. -/
def Answers : Event Row Query → World Row Query → Prop
  | .answer i answer, w => ∀ r, w.requests[i]? = some r → answer = S.answer r
  | _, _ => True

end Server

/-- The answer that arrives is to a request for the query that was started last, and to one at the
offset the cache has reached if it is for a next chunk. -/
def Timely : Event Row Query → World Row Query → Prop
  | .answer i _, w => ∀ r, w.requests[i]? = some r →
      w.started = some r.query ∧
        (r.purpose ≠ .firstChunk → r.purpose.offset = w.cache.serverOffset)
  | _, _ => True

/-! ## The invariant -/

variable {S : Server Row Query}

/-- The cache holds the first rows of a query, and its total or none. -/
structure PagedCache.Holds (S : Server Row Query) (q : Query) (c : PagedCache Row) : Prop where
  items : c.items <+: S.rows q
  serverOffset : c.serverOffset = c.items.length
  serverTotal : c.serverTotal = none ∨ c.serverTotal = some (S.rows q).length

/-- The cache holds nothing. -/
structure PagedCache.Empty (c : PagedCache Row) : Prop where
  items : c.items = []
  serverOffset : c.serverOffset = 0
  serverTotal : c.serverTotal = none

theorem PagedCache.Empty.holds {c : PagedCache Row} (h : c.Empty) (q : Query) : c.Holds S q where
  items := h.items ▸ List.nil_prefix
  serverOffset := by rw [h.serverOffset, h.items, List.length_nil]
  serverTotal := .inl h.serverTotal

theorem PagedCache.reset_empty (c : PagedCache Row) : c.reset.Empty := ⟨rfl, rfl, rfl⟩

/-- What the cache holds depends on three of its fields. -/
structure PagedCache.SameData (c c' : PagedCache Row) : Prop where
  items : c'.items = c.items
  serverOffset : c'.serverOffset = c.serverOffset
  serverTotal : c'.serverTotal = c.serverTotal

theorem PagedCache.Holds.of_same {q : Query} {c c' : PagedCache Row} (h : c.Holds S q)
    (hsame : c.SameData c') : c'.Holds S q where
  items := hsame.items ▸ h.items
  serverOffset := by rw [hsame.serverOffset, hsame.items, h.serverOffset]
  serverTotal := hsame.serverTotal ▸ h.serverTotal

theorem PagedCache.Empty.of_same {c c' : PagedCache Row} (h : c.Empty) (hsame : c.SameData c') :
    c'.Empty where
  items := hsame.items.trans h.items
  serverOffset := hsame.serverOffset.trans h.serverOffset
  serverTotal := hsame.serverTotal.trans h.serverTotal

/-- **The invariant.** The cache holds the first rows of the query that was started last, and nothing
if none was. -/
structure World.OneDataset (S : Server Row Query) (w : World Row Query) : Prop where
  idle : w.started = none → w.cache.Empty
  holds : ∀ q, w.started = some q → w.cache.Holds S q

namespace World.OneDataset

variable {w w' : World Row Query}

theorem of_empty (h : w.cache.Empty) : w.OneDataset S := ⟨fun _ => h, fun q _ => h.holds q⟩

theorem of_same (h : w.OneDataset S) (hsame : w.cache.SameData w'.cache)
    (hstarted : w'.started = w.started ∨ w.started = none) : w'.OneDataset S := by
  rcases hstarted with hstarted | hnone
  · refine ⟨fun hnone => (h.idle ?_).of_same hsame, fun q hq => (h.holds q ?_).of_same hsame⟩
    · rwa [hstarted] at hnone
    · rwa [hstarted] at hq
  · exact of_empty ((h.idle hnone).of_same hsame)

theorem of_leads (h : w.OneDataset S) (hleads : w.Leads w') : w'.OneDataset S := by
  refine h.of_same ?_ hleads.started
  rw [hleads.cache]
  exact ⟨rfl, rfl, rfl⟩

theorem goToPage (h : w.OneDataset S) (wanted guard : Nat) :
    (w.goToPage wanted guard).OneDataset S := by
  unfold World.goToPage
  split
  · exact h.of_leads (w.awaitNext_leads _)
  · refine of_leads ?_ (World.maybePrefetch_leads _)
    exact h.of_same ⟨rfl, rfl, rfl⟩ (.inl rfl)

theorem turnPage (h : w.OneDataset S) (page pageSize : Nat) :
    (w.turnPage page pageSize).2.OneDataset S := by
  refine of_leads ?_ (World.maybePrefetch_leads _)
  split
  · exact h.of_same ⟨rfl, rfl, rfl⟩ (.inl rfl)
  · exact h

theorem resume (h : w.OneDataset S) (call : Call) : (w.resume call).2.OneDataset S := by
  cases call with
  | ensureFilled fetched => exact h.of_leads (w.ensureFilled_leads _)
  | loadFirstChunk => exact h.of_leads w.maybePrefetch_leads
  | goToPage wanted guard => exact h.goToPage wanted guard
  | nextPage page pageSize => exact h.turnPage page pageSize

end World.OneDataset

/-! ## A chunk arrives -/

variable {c : PagedCache Row} {r : Request Query}

theorem rows_answer (S : Server Row Query) (r : Request Query) :
    (S.answer r).rows = S.chunk r := by
  unfold Server.answer
  split <;> rfl

/-- The total of the answer is the total of the query. -/
theorem PagedCache.Holds.absorbChunk (h : c.Holds S r.query) :
    (c.absorbChunk (S.answer r)).2.Holds S r.query := by
  unfold Server.answer
  split
  · exact ⟨h.items, h.serverOffset, .inr rfl⟩
  · exact h

/-- The first chunk is a prefix by itself. -/
theorem PagedCache.Holds.putFirst (h : c.Holds S r.query) (hpurpose : r.purpose = .firstChunk) :
    (c.putFirst (S.chunk r)).Holds S r.query where
  items := by
    show ((S.rows r.query).drop r.purpose.offset).take r.limit <+: S.rows r.query
    rw [hpurpose]
    exact List.take_prefix r.limit (S.rows r.query)
  serverOffset := rfl
  serverTotal := h.serverTotal

/-- A chunk at the offset that has been reached prolongs the prefix. -/
theorem PagedCache.Holds.putNext (h : c.Holds S r.query)
    (hoffset : r.purpose.offset = c.serverOffset) :
    (c.putNext (S.chunk r)).Holds S r.query where
  items := by
    obtain ⟨rest, hrest⟩ := h.items
    have hchunk : S.chunk r = rest.take r.limit := by
      unfold Server.chunk
      rw [hoffset, h.serverOffset, ← hrest, List.drop_left]
    show c.items ++ S.chunk r <+: S.rows r.query
    rw [hchunk, ← hrest, List.prefix_append_right_inj]
    exact List.take_prefix r.limit rest
  serverOffset := by
    show c.serverOffset + (S.chunk r).length = (c.items ++ S.chunk r).length
    rw [h.serverOffset, List.length_append]
  serverTotal := h.serverTotal

/-- **A timely answer keeps the prefix.** -/
theorem World.OneDataset.arrive {w : World Row Query} (h : w.OneDataset S)
    (hstarted : w.started = some r.query)
    (hoffset : r.purpose ≠ .firstChunk → r.purpose.offset = w.cache.serverOffset) :
    (w.arrive r.purpose (S.answer r)).OneDataset S := by
  have hholds := (h.holds r.query hstarted).absorbChunk
  have hsame : (w.cache.absorbChunk (S.answer r)).2.serverOffset = w.cache.serverOffset := by
    rw [PagedCache.absorbChunk_cache]
  -- The query that was started is that of the chunk, so that nothing else has to be shown of it.
  have only : ∀ cache : PagedCache Row, cache.Holds S r.query →
      ({ w with cache := cache } : World Row Query).OneDataset S := by
    intro cache hcache
    refine ⟨fun hnone => ?_, fun q hq => ?_⟩
    · cases hstarted.symm.trans hnone
    · cases hstarted.symm.trans hq
      exact hcache
  cases hpurpose : r.purpose with
  | firstChunk =>
      have hdata := only _ (hholds.putFirst hpurpose)
      rw [← rows_answer, ← PagedCache.absorbChunk_rows w.cache] at hdata
      exact hdata.of_leads (World.ensureFilled_leads _ 0)
  | nextChunk p offset =>
      have hne : r.purpose ≠ .firstChunk := by
        rw [hpurpose]
        exact Purpose.noConfusion
      have hput := hholds.putNext ((hoffset hne).trans hsame.symm)
      have hdata := only _ hput
      rw [← rows_answer, ← PagedCache.absorbChunk_rows w.cache] at hdata
      exact hdata.of_same ⟨rfl, rfl, rfl⟩ (.inl rfl)

/-! ## Runs -/

/-- **Each step keeps the invariant** if the answer that arrives, if one does, is timely. -/
theorem step_oneDataset {e : Event Row Query} {w : World Row Query} (h : w.OneDataset S)
    (hserver : S.Answers e w) (htimely : Timely e w) : (step e w).2.OneDataset S := by
  cases e with
  | edit query => exact h.of_same ⟨rfl, rfl, rfl⟩ (.inl rfl)
  | loadFirstChunk => exact .of_empty w.cache.reset_empty
  | reset => exact .of_empty w.cache.reset_empty
  | fetchNextChunk => exact h.of_leads w.fetchNextChunk_leads
  | setPageSize size =>
      refine h.of_same ?_ (.inl rfl)
      show w.cache.SameData (w.cache.setPageSize size)
      unfold PagedCache.setPageSize
      dsimp only
      split <;> exact ⟨rfl, rfl, rfl⟩
  | setFilter fn => exact h.of_same ⟨rfl, rfl, rfl⟩ (.inl rfl)
  | goToPage target => exact h.goToPage _ 0
  | jumpPages delta => exact h.goToPage _ 0
  | nextPage =>
      show (w.nextPage).2.OneDataset S
      unfold World.nextPage
      split
      · exact h.of_leads (w.awaitNext_leads _)
      · exact h.turnPage _ _
  | prevPage =>
      refine h.of_same ?_ (.inl rfl)
      show w.cache.SameData w.cache.prevPage
      unfold PagedCache.prevPage
      split <;> exact ⟨rfl, rfl, rfl⟩
  | answer i answer =>
      obtain hstep | ⟨r, hr, hstep⟩ := step_answer_cases w i answer
      · rw [hstep]
        exact h
      · rw [hstep, hserver r hr]
        obtain ⟨hstarted, hoffset⟩ := htimely r hr
        exact World.OneDataset.arrive (h.of_same ⟨rfl, rfl, rfl⟩ (.inl rfl)) hstarted hoffset
  | reject i =>
      obtain hstep | ⟨r, -, hstep⟩ := step_reject_cases w i
      · rw [hstep]
        exact h
      · rw [hstep]
        unfold World.fail
        split <;> exact h.of_same ⟨rfl, rfl, rfl⟩ (.inl rfl)
  | resume j =>
      have hrest : ({ w with waiting := w.waiting.eraseIdx j } : World Row Query).OneDataset S :=
        h.of_same ⟨rfl, rfl, rfl⟩ (.inl rfl)
      obtain hstep | ⟨p, call, -, hstep | ⟨-, hstep⟩⟩ := step_resume_cases w j
      · rw [hstep]
        exact h
      · rw [hstep]
        exact hrest
      · rw [hstep]
        exact hrest.resume call

theorem new_oneDataset (o : Options) (query : Query) :
    (World.new o query : World Row Query).OneDataset S := .of_empty ⟨rfl, rfl, rfl⟩

/-- The rows are the first ones of the query that was started last, none twice, and the total is its
total or unknown; without a query there is nothing. -/
def World.Unmixed (S : Server Row Query) (w : World Row Query) : Prop :=
  (w.started = none → w.cache.items = [] ∧ w.cache.serverTotal = none) ∧
    ∀ q, w.started = some q →
      w.cache.items <+: S.rows q ∧ w.cache.items.Nodup ∧
        (w.cache.serverTotal = none ∨ w.cache.serverTotal = some (S.rows q).length)

/-- **In every run the cache holds a prefix of the rows of the query that was started last, without a
row twice, and its total or none: as long as each chunk that arrives is timely.** -/
theorem one_dataset (S : Server Row Query) (o : Options) (query : Query)
    (run : List (Event Row Query))
    (hserver : Along step S.Answers run (.new o query))
    (htimely : Along step Timely run (.new o query)) :
    (final step run (.new o query)).Unmixed S := by
  have hinv := (hserver.and htimely).keeps (new_oneDataset (S := S) o query)
    fun e w he hw => step_oneDataset hw he.1 he.2
  refine ⟨fun hnone => ?_, fun q hq => ?_⟩
  · exact ⟨(hinv.idle hnone).items, (hinv.idle hnone).serverTotal⟩
  · obtain ⟨hitems, -, htotal⟩ := hinv.holds q hq
    exact ⟨hitems, hitems.sublist.nodup (S.nodup q), htotal⟩

/-! ## Two searches -/

/-- Three rows, two of them found by the one query and one by the other. -/
def sample_server : Server Nat Bool where
  rows q := if q then [3] else [1, 2]
  nodup q := by cases q <;> decide
  include_total := true

/-- The requests of the two first chunks. -/
def old_request : Request Bool := ⟨.firstChunk, false, 100⟩
def new_request : Request Bool := ⟨.firstChunk, true, 100⟩

/-- A search, and another one before it is answered. -/
def two_searches : List (Event Nat Bool) := [.loadFirstChunk, .edit true, .loadFirstChunk]

/-- The old search is loaded in two chunks of one row each; of the second one the answer arrives before
the new search is begun, whose own follows. -/
def chunked_searches : List (Event Nat Bool) :=
  [.loadFirstChunk, .answer 0 (sample_server.answer ⟨.firstChunk, false, 1⟩), .resume 0,
    .fetchNextChunk, .answer 0 (sample_server.answer ⟨.nextChunk 1 1, false, 1⟩), .edit true,
    .loadFirstChunk, .answer 0 (sample_server.answer ⟨.firstChunk, true, 1⟩)]

/-- Both searches are shown as the server has them, one after the other. -/
theorem one_dataset_chunked :
    (final step (chunked_searches.take 5) (.new { chunkSize := 1 } false)).cache.items = [1, 2] ∧
      (final step chunked_searches (.new { chunkSize := 1 } false)).cache.items = [3] ∧
      (final step chunked_searches (.new { chunkSize := 1 } false)).Unmixed sample_server := by
  refine ⟨by decide +kernel, by decide +kernel, one_dataset sample_server _ false _ ?_ ?_⟩
  · refine ⟨trivial, fun r hr => ?_, trivial, trivial, fun r hr => ?_, trivial, trivial,
      fun r hr => ?_, trivial⟩
    all_goals
      cases hr
      rfl
  · refine ⟨trivial, fun r hr => ?_, trivial, trivial, fun r hr => ?_, trivial, trivial,
      fun r hr => ?_, trivial⟩
    · cases hr
      exact ⟨rfl, fun h => absurd rfl h⟩
    · cases hr
      exact ⟨rfl, fun _ => by decide +kernel⟩
    · cases hr
      exact ⟨rfl, fun h => absurd rfl h⟩

/-- The old search is answered last. -/
def overtaken : List (Event Nat Bool) :=
  two_searches ++ [.answer 1 (sample_server.answer new_request),
    .answer 0 (sample_server.answer old_request)]

theorem overtaken_answers : Along step sample_server.Answers overtaken (.new {} false) := by
  refine ⟨trivial, trivial, trivial, fun r hr => ?_, fun r hr => ?_, trivial⟩
  · cases hr
    rfl
  · cases hr
    rfl

/-- The answer to the old search arrives last, and its rows are shown under the new one. -/
theorem old_rows_shown :
    ¬ ∀ (S : Server Nat Bool) (o : Options) (query : Bool) (run : List (Event Nat Bool)),
      Along step S.Answers run (.new o query) →
        (final step run (.new o query)).Unmixed S := by
  intro hall
  have hunmixed := hall sample_server {} false overtaken overtaken_answers
  have hprefix : [1, 2] <+: [3] := (hunmixed.2 true rfl).1
  exact absurd hprefix (by decide)

end IpVault.Client
