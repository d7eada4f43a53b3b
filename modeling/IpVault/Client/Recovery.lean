import IpVault.Client.Datasets
import Mathlib.Tactic

set_option autoImplicit false

/-! # After a failed fetch

`fetchNextChunk` remembers the promise of the chunk that is on its way, and forgets it when the chunk
is there. A fetch that fails leaves the promise where it is: from then on every call is given the
rejected promise and no request is made. The marker is right as long as no fetch fails that it
stands for.
-/

namespace IpVault.Client

open Lib

variable {Row Query : Type}

/-! ## Conditions -/

/-- A fetch that fails is not the one that the cache remembers: it was for a first chunk, or the
cache has been reset since. -/
def Released : Event Row Query → World Row Query → Prop
  | .reject i, w => ∀ r p offset, w.requests[i]? = some r → r.purpose = .nextChunk p offset →
      w.cache.prefetching ≠ some p
  | _, _ => True

/-- The next chunk is on its way: the request of the promise that the cache remembers. -/
def World.OnItsWay (w : World Row Query) : Prop :=
  ∃ p, w.cache.prefetching = some p ∧ ∃ r ∈ w.requests, ∃ offset, r.purpose = .nextChunk p offset

/-- The server answers: the next chunk is fetched, and what arrives is the server's. -/
def Server.Serves (S : Server Row Query) : Event Row Query → World Row Query → Prop
  | .fetchNextChunk, _ => True
  | .answer i answer, w => ∀ r, w.requests[i]? = some r → answer = S.answer r
  | _, _ => False

/-- The remaining rows of the query can be loaded, chunk after chunk. -/
def World.CatchesUp (S : Server Row Query) (w : World Row Query) : Prop :=
  ∃ run, Along step S.Serves run w ∧
    (final step run w).cache.items =
      w.cache.items ++ (S.rows w.query).drop w.cache.serverOffset ∧
    (final step run w).cache.hasMoreOnServer = false

/-- A failed fetch changes nothing, for the cache or for a call that waits for it; and unless the
next chunk is on its way, `fetchNextChunk` makes a request, and what remains can be loaded. -/
structure World.Recovers (w : World Row Query) : Prop where
  rejected : ∀ i, (step (.reject i) w).2.cache = w.cache
  thrown : ∀ j p call, w.waiting[j]? = some (p, call) → w.settled p = some false →
    (step (.resume j) w).2.cache = w.cache
  issues : w.cache.hasMoreOnServer = true → ¬ w.OnItsWay →
    (step .fetchNextChunk w).2.requests =
      w.requests ++ [⟨.nextChunk w.fresh w.cache.serverOffset, w.query, w.cache.chunkSize⟩]
  loads : w.cache.hasMoreOnServer = true → ¬ w.OnItsWay → ∀ S, w.CatchesUp S

/-! ## The invariant -/

/-- **The invariant.** What the cache remembers is on its way, and a chunk holds a row. -/
structure World.Remembers (w : World Row Query) : Prop where
  chunkSize_pos : 0 < w.cache.chunkSize
  onItsWay : w.cache.prefetching ≠ none → w.OnItsWay

namespace World

variable {w w' : World Row Query}

theorem Remembers.prefetching_eq_none (h : w.Remembers) (hnot : ¬ w.OnItsWay) :
    w.cache.prefetching = none := by
  by_contra hsome
  exact hnot (h.onItsWay hsome)

theorem Remembers.of_none (hpos : 0 < w.cache.chunkSize) (h : w.cache.prefetching = none) :
    w.Remembers := ⟨hpos, fun hsome => absurd h hsome⟩

/-- A step that keeps what is remembered, and the request of it, keeps the invariant. -/
theorem Remembers.of_same (h : w.Remembers) (hsize : w'.cache.chunkSize = w.cache.chunkSize)
    (hprefetching : w'.cache.prefetching = w.cache.prefetching)
    (hrequests : ∀ r ∈ w.requests, ∀ p offset, w.cache.prefetching = some p →
      r.purpose = .nextChunk p offset → r ∈ w'.requests) : w'.Remembers := by
  refine ⟨hsize ▸ h.chunkSize_pos, fun hsome => ?_⟩
  rw [hprefetching] at hsome
  obtain ⟨p, hp, r, hr, offset, hpurpose⟩ := h.onItsWay hsome
  exact ⟨p, hprefetching.trans hp, r, hrequests r hr p offset hp hpurpose, offset, hpurpose⟩

/-- So does a step that sends and settles nothing. -/
theorem Remembers.of_unchanged (h : w.Remembers)
    (hsize : w'.cache.chunkSize = w.cache.chunkSize)
    (hprefetching : w'.cache.prefetching = w.cache.prefetching)
    (hrequests : w'.requests = w.requests) : w'.Remembers :=
  h.of_same hsize hprefetching fun r hr _ _ _ _ => by
    rw [hrequests]
    exact hr

theorem fetchNextChunk_remembers (h : w.Remembers) : w.fetchNextChunk.2.Remembers := by
  unfold fetchNextChunk
  by_cases hmore : w.cache.hasMoreOnServer = true
  · rw [if_pos hmore]
    cases hprefetching : w.cache.prefetching with
    | some p => exact h
    | none =>
        exact ⟨h.chunkSize_pos, fun _ =>
          ⟨w.fresh, rfl, _, List.mem_append_right _ List.mem_cons_self, _, rfl⟩⟩
  · rw [if_neg hmore]
    exact h.of_unchanged rfl rfl rfl

theorem maybePrefetch_remembers (h : w.Remembers) : w.maybePrefetch.Remembers := by
  unfold maybePrefetch
  split
  · exact h
  · split
    · exact fetchNextChunk_remembers h
    · exact h

theorem awaitNext_remembers (h : w.Remembers) (call : Call) : (w.awaitNext call).Remembers :=
  (fetchNextChunk_remembers h).of_unchanged rfl rfl rfl

theorem ensureFilled_remembers (h : w.Remembers) (fetched : Nat) :
    (w.ensureFilled fetched).Remembers := by
  unfold ensureFilled
  split
  · exact awaitNext_remembers h _
  · exact h.of_unchanged rfl rfl rfl

theorem goToPage_remembers (h : w.Remembers) (wanted guard : Nat) :
    (w.goToPage wanted guard).Remembers := by
  unfold goToPage
  split
  · exact awaitNext_remembers h _
  · exact maybePrefetch_remembers (h.of_unchanged rfl rfl rfl)

theorem turnPage_remembers (h : w.Remembers) (page pageSize : Nat) :
    (w.turnPage page pageSize).2.Remembers := by
  refine maybePrefetch_remembers ?_
  split
  · exact h.of_unchanged rfl rfl rfl
  · exact h

theorem resume_remembers (h : w.Remembers) (call : Call) : (w.resume call).2.Remembers := by
  cases call with
  | ensureFilled fetched => exact ensureFilled_remembers h _
  | loadFirstChunk => exact maybePrefetch_remembers h
  | goToPage wanted guard => exact goToPage_remembers h wanted guard
  | nextPage page pageSize => exact turnPage_remembers h page pageSize

/-- A first chunk leaves the next chunk on its way. -/
theorem arrive_firstChunk_remembers (h : w.Remembers) (answer : Answer Row) :
    (w.arrive .firstChunk answer).Remembers := by
  have hsize : (w.cache.absorbChunk answer).2.chunkSize = w.cache.chunkSize := by
    rw [PagedCache.absorbChunk_cache]
  have hprefetching : (w.cache.absorbChunk answer).2.prefetching = w.cache.prefetching := by
    rw [PagedCache.absorbChunk_cache]
  have hput : ({ w with
      cache := (w.cache.absorbChunk answer).2.putFirst (w.cache.absorbChunk answer).1 } :
      World Row Query).Remembers :=
    h.of_unchanged hsize hprefetching rfl
  exact ensureFilled_remembers hput 0

/-- A next chunk makes the cache forget the promise, whichever it is. -/
theorem arrive_nextChunk_remembers (h : 0 < w.cache.chunkSize) (p offset : Nat)
    (answer : Answer Row) : (w.arrive (.nextChunk p offset) answer).Remembers := by
  refine .of_none ?_ rfl
  show 0 < (w.cache.absorbChunk answer).2.chunkSize
  rw [PagedCache.absorbChunk_cache]
  exact h

end World

theorem mem_eraseIdx_of_ne {α : Type} {l : List α} {i : Nat} {a b : α} (ha : l[i]? = some a)
    (hb : b ∈ l) (hne : b ≠ a) : b ∈ l.eraseIdx i := by
  obtain ⟨j, hj⟩ := List.mem_iff_getElem?.mp hb
  refine List.mem_eraseIdx_iff_getElem?.mpr ⟨j, ?_, hj⟩
  rintro rfl
  exact hne (Option.some.inj (hj.symm.trans ha))

/-- A request that is settled takes the remembered one away only if it is that one. -/
theorem World.Remembers.of_settled {w : World Row Query} (h : w.Remembers) {i : Nat}
    {r : Request Query} (hr : w.requests[i]? = some r)
    (hother : ∀ p offset, r.purpose = .nextChunk p offset → w.cache.prefetching ≠ some p) :
    ({ w with requests := w.requests.eraseIdx i } : World Row Query).Remembers := by
  refine h.of_same rfl rfl fun r' hr' p offset hp hpurpose => mem_eraseIdx_of_ne hr hr' ?_
  rintro rfl
  exact hother p offset hpurpose hp

/-- **Each step keeps the invariant.** -/
theorem step_remembers {e : Event Row Query} {w : World Row Query} (h : w.Remembers)
    (hreleased : Released e w) : (step e w).2.Remembers := by
  cases e with
  | edit query => exact h.of_unchanged rfl rfl rfl
  | loadFirstChunk => exact .of_none h.chunkSize_pos rfl
  | reset => exact .of_none h.chunkSize_pos rfl
  | fetchNextChunk => exact World.fetchNextChunk_remembers h
  | setPageSize size =>
      have hcache : (w.cache.setPageSize size).chunkSize = w.cache.chunkSize ∧
          (w.cache.setPageSize size).prefetching = w.cache.prefetching := by
        unfold PagedCache.setPageSize
        dsimp only
        split <;> exact ⟨rfl, rfl⟩
      exact h.of_unchanged hcache.1 hcache.2 rfl
  | setFilter fn => exact h.of_unchanged rfl rfl rfl
  | goToPage target => exact World.goToPage_remembers h _ 0
  | jumpPages delta => exact World.goToPage_remembers h _ 0
  | nextPage =>
      show (w.nextPage).2.Remembers
      unfold World.nextPage
      split
      · exact World.awaitNext_remembers h _
      · exact World.turnPage_remembers h _ _
  | prevPage =>
      have hcache : w.cache.prevPage.chunkSize = w.cache.chunkSize ∧
          w.cache.prevPage.prefetching = w.cache.prefetching := by
        unfold PagedCache.prevPage
        split <;> exact ⟨rfl, rfl⟩
      exact h.of_unchanged hcache.1 hcache.2 rfl
  | answer i answer =>
      obtain hstep | ⟨r, hr, hstep⟩ := step_answer_cases w i answer
      · rw [hstep]
        exact h
      · rw [hstep]
        cases hpurpose : r.purpose with
        | firstChunk =>
            have hother : ∀ p offset, r.purpose = .nextChunk p offset →
                w.cache.prefetching ≠ some p := by
              intro p offset hp
              cases hpurpose.symm.trans hp
            exact World.arrive_firstChunk_remembers (h.of_settled hr hother) answer
        | nextChunk p offset =>
            have hpos : 0 < ({ w with requests := w.requests.eraseIdx i } :
                World Row Query).cache.chunkSize := h.chunkSize_pos
            exact World.arrive_nextChunk_remembers hpos p offset answer
  | reject i =>
      obtain hstep | ⟨r, hr, hstep⟩ := step_reject_cases w i
      · rw [hstep]
        exact h
      · -- The promise that fails is not the one the cache remembers.
        have hrest := h.of_settled hr fun p offset => hreleased r p offset hr
        rw [hstep]
        unfold World.fail
        split
        · exact hrest
        · exact hrest.of_unchanged rfl rfl rfl
  | resume j =>
      have hrest : ({ w with waiting := w.waiting.eraseIdx j } : World Row Query).Remembers :=
        h.of_unchanged rfl rfl rfl
      obtain hstep | ⟨p, call, -, hstep | ⟨-, hstep⟩⟩ := step_resume_cases w j
      · rw [hstep]
        exact h
      · rw [hstep]
        exact hrest
      · rw [hstep]
        exact World.resume_remembers hrest call

/-! ## Loading the rest -/

variable {S : Server Row Query} {w : World Row Query}

/-- The request that `fetchNextChunk` makes. -/
def World.nextRequest (w : World Row Query) : Request Query :=
  ⟨.nextChunk w.fresh w.cache.serverOffset, w.query, w.cache.chunkSize⟩

theorem fetchNextChunk_of_none (hmore : w.cache.hasMoreOnServer = true)
    (hnone : w.cache.prefetching = none) :
    w.fetchNextChunk.2 = { w with
      cache.prefetching := some w.fresh
      started := some (w.started.getD w.query)
      requests := w.requests ++ [w.nextRequest]
      fresh := w.fresh + 1 } := by
  unfold World.fetchNextChunk
  rw [if_pos hmore, hnone]
  rfl

/-- The next chunk is fetched and answered. -/
def Server.round (S : Server Row Query) (w : World Row Query) : List (Event Row Query) :=
  [.fetchNextChunk, .answer w.requests.length (S.answer w.nextRequest)]

theorem step_answer {i : Nat} {r : Request Query} (hr : w.requests[i]? = some r)
    (answer : Answer Row) :
    (step (.answer i answer) w).2 =
      ({ w with requests := w.requests.eraseIdx i }).arrive r.purpose answer := by
  unfold step
  dsimp only
  rw [hr]

/-- After the fetch its request is the last one. -/
theorem getElem?_fetched (hmore : w.cache.hasMoreOnServer = true)
    (hnone : w.cache.prefetching = none) :
    w.fetchNextChunk.2.requests[w.requests.length]? = some w.nextRequest := by
  rw [fetchNextChunk_of_none hmore hnone]
  exact List.getElem?_concat_length

theorem round_serves (hmore : w.cache.hasMoreOnServer = true)
    (hnone : w.cache.prefetching = none) : Along step S.Serves (S.round w) w := by
  refine ⟨trivial, fun r hr => ?_, trivial⟩
  have hsame := (getElem?_fetched hmore hnone).symm.trans hr
  cases hsame
  rfl

/-- The rows of a chunk have been put behind those that were there, and nothing is on its way. -/
structure World.Advances (w : World Row Query) (chunk : List Row) (w' : World Row Query) : Prop where
  query : w'.query = w.query
  chunkSize : w'.cache.chunkSize = w.cache.chunkSize
  prefetching : w'.cache.prefetching = none
  items : w'.cache.items = w.cache.items ++ chunk
  serverOffset : w'.cache.serverOffset = w.cache.serverOffset + chunk.length
  hasMore : w'.cache.hasMoreOnServer = decide (chunk.length = w.cache.chunkSize)

/-- The chunk that a fetch brings is put behind the rows. -/
theorem arrive_advances (w : World Row Query) (p offset : Nat) (answer : Answer Row) :
    w.Advances answer.rows (w.arrive (.nextChunk p offset) answer) := by
  have hrows := PagedCache.absorbChunk_rows w.cache answer
  have hcache := PagedCache.absorbChunk_cache w.cache answer
  constructor
  · rfl
  · show (w.cache.absorbChunk answer).2.chunkSize = _
    rw [hcache]
  · rfl
  · show (w.cache.absorbChunk answer).2.items ++ (w.cache.absorbChunk answer).1 = _
    rw [hcache, hrows]
  · show (w.cache.absorbChunk answer).2.serverOffset + (w.cache.absorbChunk answer).1.length = _
    rw [hcache, hrows]
  · show decide ((w.cache.absorbChunk answer).1.length =
      (w.cache.absorbChunk answer).2.chunkSize) = _
    rw [hcache, hrows]

/-- **One round** puts the chunk at the offset behind the rows. -/
theorem round_advances (hmore : w.cache.hasMoreOnServer = true)
    (hnone : w.cache.prefetching = none) :
    w.Advances (S.chunk w.nextRequest) (final step (S.round w) w) := by
  have hstep : final step (S.round w) w =
      ({ w.fetchNextChunk.2 with
        requests := w.fetchNextChunk.2.requests.eraseIdx w.requests.length }).arrive
          w.nextRequest.purpose (S.answer w.nextRequest) :=
    step_answer (getElem?_fetched hmore hnone) _
  have hadvances := arrive_advances ({ w.fetchNextChunk.2 with
    requests := w.fetchNextChunk.2.requests.eraseIdx w.requests.length } : World Row Query)
    w.fresh w.cache.serverOffset (S.answer w.nextRequest)
  rw [rows_answer, fetchNextChunk_of_none hmore hnone] at hadvances
  rw [hstep, fetchNextChunk_of_none hmore hnone]
  exact ⟨hadvances.query, hadvances.chunkSize, hadvances.prefetching, hadvances.items,
    hadvances.serverOffset, hadvances.hasMore⟩

/-- **Round after round, what remains is loaded**: the induction is on the number of rows beyond the
offset, which a full chunk makes smaller. -/
theorem catches_up (S : Server Row Query) (n : Nat) (w : World Row Query)
    (hpos : 0 < w.cache.chunkSize) (hmore : w.cache.hasMoreOnServer = true)
    (hnone : w.cache.prefetching = none)
    (hn : (S.rows w.query).length - w.cache.serverOffset ≤ n) : w.CatchesUp S := by
  induction n using Nat.strong_induction_on generalizing w with
  | _ n ih =>
      have hround := round_advances (S := S) hmore hnone
      have hchunk : S.chunk w.nextRequest =
          ((S.rows w.query).drop w.cache.serverOffset).take w.cache.chunkSize := rfl
      by_cases hfull : (S.chunk w.nextRequest).length = w.cache.chunkSize
      · have hlength : w.cache.chunkSize ≤ (S.rows w.query).length - w.cache.serverOffset := by
          rw [hchunk, List.length_take, List.length_drop] at hfull
          omega
        obtain ⟨run, hserves, hitems, hend⟩ := ih (n - 1) (by omega) (final step (S.round w) w)
          (by rw [hround.chunkSize]; exact hpos)
          (by rw [hround.hasMore]; exact decide_eq_true hfull)
          hround.prefetching
          (by rw [hround.query, hround.serverOffset, hfull]; omega)
        have hfirst := round_serves (S := S) hmore hnone
        refine ⟨S.round w ++ run, ⟨hfirst.1, hfirst.2.1, hserves⟩, ?_, ?_⟩
        · rw [final_append, hitems, hround.items, hround.query, hround.serverOffset, hfull, hchunk,
            List.append_assoc, ← List.drop_drop, List.take_append_drop]
        · rw [final_append, hend]
      · refine ⟨S.round w, round_serves hmore hnone, ?_, ?_⟩
        · rw [hround.items, hchunk, List.take_of_length_le]
          rw [hchunk, List.length_take] at hfull
          omega
        · rw [hround.hasMore]
          exact decide_eq_false hfull

/-! ## Runs -/

theorem World.Remembers.recovers (h : w.Remembers) : w.Recovers where
  rejected i := by
    obtain hstep | ⟨r, -, hstep⟩ := step_reject_cases w i
    · rw [hstep]
    · rw [hstep]
      unfold World.fail
      split <;> rfl
  thrown j p call hcall hsettled := by
    unfold step
    dsimp only
    rw [hcall]
    dsimp only
    rw [hsettled]
  issues hmore hnot := by
    show w.fetchNextChunk.2.requests = _
    rw [fetchNextChunk_of_none hmore (h.prefetching_eq_none hnot)]
    rfl
  loads hmore hnot S :=
    catches_up S _ w h.chunkSize_pos hmore (h.prefetching_eq_none hnot) (Nat.le_refl _)

theorem new_remembers (o : Options) (query : Query) :
    (World.new o query : World Row Query).Remembers := .of_none o.chunkSize_pos rfl

/-- **In every run the cache recovers from a failed fetch, as long as none fails that it
remembers.** -/
theorem fetches_recover (o : Options) (query : Query) (run : List (Event Row Query))
    (h : Along step Released run (.new o query)) : (final step run (.new o query)).Recovers :=
  (h.keeps (new_remembers o query) fun _ _ he hw => step_remembers hw he).recovers

/-! ## A failed fetch -/

/-- A hundred rows are there, and the next chunk is asked for; the cache is reset and loaded again, and
then the old fetch fails, and the new one after it. -/
def forgotten_fetch : List (Event Nat Unit) :=
  [.loadFirstChunk, .answer 0 (.array (List.range 100)), .resume 0, .fetchNextChunk, .reset,
    .loadFirstChunk, .reject 0, .reject 0]

theorem fetches_recover_forgotten : (final step forgotten_fetch (World.new {} ())).Recovers := by
  refine fetches_recover {} () forgotten_fetch ⟨trivial, trivial, trivial, trivial, trivial, trivial,
    fun r p offset hr hp => ?_, fun r p offset hr hp => ?_, trivial⟩
  · -- The cache has forgotten the promise.
    exact fun h => nomatch h
  · cases hr
    cases hp

/-- A hundred rows are there, and the fetch of the next chunk fails. -/
def failed_fetch : List (Event Nat Unit) :=
  [.loadFirstChunk, .answer 0 (.array (List.range 100)), .resume 0, .fetchNextChunk, .reject 0]

/-- No request is made any more. -/
theorem no_request_after_failure :
    ¬ ∀ (o : Options) (query : Unit) (run : List (Event Nat Unit)),
      (final step run (.new o query)).Recovers := by
  intro hall
  have hrecovers := hall {} () failed_fetch
  have hmore : (final step failed_fetch (.new {} ())).cache.hasMoreOnServer = true := by
    decide +kernel
  have hnothing : (final step failed_fetch (.new {} ())).requests.length = 0 := by decide +kernel
  have hstill :
      (step .fetchNextChunk (final step failed_fetch (.new {} ()))).2.requests.length = 0 := by
    decide +kernel
  have hnot : ¬ (final step failed_fetch (.new {} ())).OnItsWay := by
    rintro ⟨p, -, r, hr, -⟩
    rw [List.length_eq_zero_iff.mp hnothing] at hr
    cases hr
  rw [hrecovers.issues hmore hnot, List.length_append, List.length_singleton] at hstill
  omega

end IpVault.Client
