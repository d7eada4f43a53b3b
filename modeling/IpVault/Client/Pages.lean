import IpVault.Client.PagedCache
import Mathlib.Tactic

set_option autoImplicit false

/-! # The page that is shown

`nextPage` goes on after its `await` with the place where the next page started before it, and
`loadFirstChunk` replaces the rows whatever page is shown by then. The page stays one of the pages
as long as nobody else has turned or resized it in the meantime, and a first chunk that arrives has
rows for it.
-/

namespace IpVault.Client

open Lib

variable {Row Query : Type}

/-! ## Conditions -/

/-- A first chunk that arrives has a row for the page that is shown, unless it is the first page; and
a `nextPage` goes on with the page and the page size it was called with. -/
def Steady : Event Row Query → World Row Query → Prop
  | .answer i answer, w => ∀ r, w.requests[i]? = some r → r.purpose = .firstChunk →
      w.cache.localPage = 0 ∨
        w.cache.localPage * w.cache.pageSize <
          (PagedCache.filtered w.cache.filterFn answer.rows).length
  | .resume j, w => ∀ p page pageSize, w.waiting[j]? = some (p, .nextPage page pageSize) →
      w.settled p = some true → w.cache.localPage = page ∧ w.cache.pageSize = pageSize
  | _, _ => True

/-! ## The pages of the rows -/

namespace PagedCache

variable {c c' : PagedCache Row}

/-- **The invariant.** The page is the first one or has a row. -/
structure OnPage (c : PagedCache Row) : Prop where
  pageSize_pos : 0 < c.pageSize
  row : c.localPage = 0 ∨ c.localPage * c.pageSize < c.visibleItems.length

theorem lt_pages_iff {page size rows : Nat} (hsize : 0 < size) :
    page < max 1 ((rows + size - 1) / size) ↔ page = 0 ∨ page * size < rows := by
  have hquot : page < (rows + size - 1) / size ↔ page * size < rows := by
    rw [Nat.lt_iff_add_one_le, Nat.le_div_iff_mul_le hsize, Nat.add_one_mul]
    omega
  rw [lt_max_iff, hquot]
  exact or_congr_left Nat.lt_one_iff

/-- The page is one of the pages. -/
theorem OnPage.lt_total (h : c.OnPage) : c.localPage < c.totalLocalPages :=
  (lt_pages_iff h.pageSize_pos).mpr h.row

theorem onPage_of_lt (hsize : 0 < c.pageSize) (h : c.localPage < c.totalLocalPages) : c.OnPage :=
  ⟨hsize, (lt_pages_iff hsize).mp h⟩

theorem length_filtered_append (filterFn : Option (Row → Bool)) (items chunk : List Row) :
    (filtered filterFn items).length ≤ (filtered filterFn (items ++ chunk)).length := by
  cases filterFn with
  | none =>
      show items.length ≤ (items ++ chunk).length
      rw [List.length_append]
      exact Nat.le_add_right _ _
  | some f =>
      show (items.filter f).length ≤ ((items ++ chunk).filter f).length
      rw [List.filter_append, List.length_append]
      exact Nat.le_add_right _ _

/-- A page with a row to it is followed by one when it is turned back. -/
theorem OnPage.prevPage (h : c.OnPage) : c.prevPage.OnPage := by
  unfold PagedCache.prevPage
  split
  · next hpos =>
      have hrow : c.localPage * c.pageSize < c.visibleItems.length :=
        h.row.resolve_left (Nat.ne_of_gt hpos)
      have hle : (c.localPage - 1) * c.pageSize ≤ c.localPage * c.pageSize :=
        Nat.mul_le_mul_right _ (Nat.sub_le _ _)
      exact ⟨h.pageSize_pos, .inr (Nat.lt_of_le_of_lt hle hrow)⟩
  · exact h

/-! ## Another page size -/

/-- The row that was the first to be shown is on the page that is shown. -/
def KeepsFirst (c c' : PagedCache Row) : Prop :=
  ∃ k, c'.localPage * c'.pageSize + k = c.localPage * c.pageSize ∧
    c'.currentPageItems[k]? = c.visibleItems[c.localPage * c.pageSize]?

theorem keepsFirst_of_lt {k : Nat} (hk : k < c'.pageSize)
    (hrow : c'.localPage * c'.pageSize + k = c.localPage * c.pageSize)
    (hvisible : c'.visibleItems = c.visibleItems) : c.KeepsFirst c' := by
  refine ⟨k, hrow, ?_⟩
  show ((c'.visibleItems.drop (c'.localPage * c'.pageSize)).take c'.pageSize)[k]? = _
  rw [List.getElem?_take_of_lt hk, List.getElem?_drop, hrow, hvisible]

/-- **The first visible row stays on the page**, whatever the size. -/
theorem OnPage.setPageSize_keepsFirst (h : c.OnPage) (size : Rat) :
    c.KeepsFirst (c.setPageSize size) := by
  have hnext : 0 < (max 1 size.floor).toNat := by omega
  unfold PagedCache.setPageSize
  dsimp only
  split
  · exact keepsFirst_of_lt h.pageSize_pos (Nat.add_zero _) rfl
  · exact keepsFirst_of_lt (Nat.mod_lt _ hnext) (Nat.div_add_mod' _ _) rfl

theorem OnPage.setPageSize (h : c.OnPage) (size : Rat) : (c.setPageSize size).OnPage := by
  have hnext : 0 < (max 1 size.floor).toNat := by omega
  unfold PagedCache.setPageSize
  dsimp only
  split
  · exact h
  · refine ⟨hnext, ?_⟩
    rcases h.row with hzero | hrow
    · left
      show c.localPage * c.pageSize / _ = 0
      rw [hzero, Nat.zero_mul, Nat.zero_div]
    · right
      exact Nat.lt_of_le_of_lt (Nat.div_mul_le_self _ _) hrow

end PagedCache

/-! ## Steps -/

theorem World.Leads.onPage {w w' : World Row Query} (hleads : w.Leads w') (h : w.cache.OnPage) :
    w'.cache.OnPage := by
  rw [hleads.cache]
  exact ⟨h.pageSize_pos, h.row⟩

namespace World

variable {w : World Row Query}

theorem goToPage_onPage (h : w.cache.OnPage) (wanted guard : Nat) :
    (w.goToPage wanted guard).cache.OnPage := by
  unfold World.goToPage
  split
  · exact (w.awaitNext_leads _).onPage h
  · refine (World.maybePrefetch_leads _).onPage (PagedCache.onPage_of_lt h.pageSize_pos ?_)
    -- The page is clamped to the last one.
    have htotal := h.lt_total
    show min wanted (w.cache.totalLocalPages - 1) < w.cache.totalLocalPages
    omega

/-- A page is turned from the page, and with the page size, that the call was made with. -/
theorem turnPage_onPage (h : w.cache.OnPage) :
    (w.turnPage w.cache.localPage w.cache.pageSize).2.cache.OnPage := by
  refine (World.maybePrefetch_leads _).onPage ?_
  split
  · next hrow => exact ⟨h.pageSize_pos, .inr hrow⟩
  · exact h

theorem resume_onPage (h : w.cache.OnPage) (call : Call)
    (hnext : ∀ page pageSize, call = .nextPage page pageSize →
      w.cache.localPage = page ∧ w.cache.pageSize = pageSize) :
    (w.resume call).2.cache.OnPage := by
  cases call with
  | ensureFilled fetched => exact (w.ensureFilled_leads _).onPage h
  | loadFirstChunk => exact w.maybePrefetch_leads.onPage h
  | goToPage wanted guard => exact goToPage_onPage h wanted guard
  | nextPage page pageSize =>
      obtain ⟨rfl, rfl⟩ := hnext page pageSize rfl
      exact turnPage_onPage h

theorem arrive_onPage (h : w.cache.OnPage) (purpose : Purpose) (answer : Answer Row)
    (hfirst : purpose = .firstChunk → w.cache.localPage = 0 ∨
      w.cache.localPage * w.cache.pageSize <
        (PagedCache.filtered w.cache.filterFn answer.rows).length) :
    (w.arrive purpose answer).cache.OnPage := by
  cases purpose with
  | firstChunk =>
      refine (World.ensureFilled_leads _ 0).onPage ?_
      show ((w.cache.absorbChunk answer).2.putFirst (w.cache.absorbChunk answer).1).OnPage
      rw [PagedCache.absorbChunk_cache, PagedCache.absorbChunk_rows]
      exact ⟨h.pageSize_pos, hfirst rfl⟩
  | nextChunk p offset =>
      show ((w.cache.absorbChunk answer).2.putNext (w.cache.absorbChunk answer).1).OnPage
      rw [PagedCache.absorbChunk_cache, PagedCache.absorbChunk_rows]
      refine ⟨h.pageSize_pos, h.row.imp_right fun hrow => ?_⟩
      exact Nat.lt_of_lt_of_le hrow (PagedCache.length_filtered_append _ _ _)

end World

/-- **Each step keeps the page among the pages.** -/
theorem step_onPage {e : Event Row Query} {w : World Row Query} (h : w.cache.OnPage)
    (hsteady : Steady e w) : (step e w).2.cache.OnPage := by
  cases e with
  | edit query => exact h
  | loadFirstChunk => exact ⟨h.pageSize_pos, .inl rfl⟩
  | reset => exact ⟨h.pageSize_pos, .inl rfl⟩
  | fetchNextChunk => exact w.fetchNextChunk_leads.onPage h
  | setPageSize size => exact h.setPageSize size
  | setFilter fn => exact ⟨h.pageSize_pos, .inl rfl⟩
  | goToPage target => exact World.goToPage_onPage h _ 0
  | jumpPages delta => exact World.goToPage_onPage h _ 0
  | nextPage =>
      show (w.nextPage).2.cache.OnPage
      unfold World.nextPage
      split
      · exact (w.awaitNext_leads _).onPage h
      · exact World.turnPage_onPage h
  | prevPage => exact h.prevPage
  | answer i answer =>
      obtain hstep | ⟨r, hr, hstep⟩ := step_answer_cases w i answer
      · rw [hstep]
        exact h
      · have hrest :
            ({ w with requests := w.requests.eraseIdx i } : World Row Query).cache.OnPage := h
        rw [hstep]
        exact World.arrive_onPage hrest r.purpose answer (hsteady r hr)
  | reject i =>
      obtain hstep | ⟨r, -, hstep⟩ := step_reject_cases w i
      · rw [hstep]
        exact h
      · rw [hstep]
        unfold World.fail
        split <;> exact h
  | resume j =>
      obtain hstep | ⟨p, call, hcall, hstep | ⟨hsettled, hstep⟩⟩ := step_resume_cases w j
      · rw [hstep]
        exact h
      · rw [hstep]
        exact h
      · have hrest :
            ({ w with waiting := w.waiting.eraseIdx j } : World Row Query).cache.OnPage := h
        rw [hstep]
        refine World.resume_onPage hrest call ?_
        rintro page pageSize rfl
        exact hsteady p page pageSize hcall hsettled

/-! ## Turning a page -/

/-- The page a call leaves is the one it was made on, or one next to it. -/
def Turned.ByOne (t : Turned) : Prop := t.after ≤ t.before + 1 ∧ t.before ≤ t.after + 1

theorem turnPage_byOne (w : World Row Query) {t : Turned}
    (ht : (w.turnPage w.cache.localPage w.cache.pageSize).1 = some t) : t.ByOne := by
  cases ht
  unfold Turned.ByOne
  dsimp only
  split
  · exact ⟨Nat.le_refl _, Nat.le_succ_of_le (Nat.le_succ _)⟩
  · exact ⟨Nat.le_succ _, Nat.le_succ _⟩

/-- **A `nextPage` that completes moves by one page at most.** -/
theorem step_byOne {e : Event Row Query} {w : World Row Query} (hsteady : Steady e w) {t : Turned}
    (ht : (step e w).1 = some t) : t.ByOne := by
  cases e with
  | nextPage =>
      have hnext : (w.nextPage).1 = some t := ht
      unfold World.nextPage at hnext
      split at hnext
      · cases hnext
      · exact turnPage_byOne w hnext
  | resume j =>
      obtain hstep | ⟨p, call, hcall, hstep | ⟨hsettled, hstep⟩⟩ := step_resume_cases w j
      · rw [hstep] at ht
        cases ht
      · rw [hstep] at ht
        cases ht
      · rw [hstep] at ht
        -- No other call completes a `nextPage`.
        cases call with
        | nextPage page pageSize =>
            obtain ⟨rfl, rfl⟩ := hsteady p page pageSize hcall hsettled
            exact turnPage_byOne { w with waiting := w.waiting.eraseIdx j } ht
        | ensureFilled fetched => cases ht
        | loadFirstChunk => cases ht
        | goToPage wanted guard => cases ht
  | answer i answer =>
      obtain hstep | ⟨r, -, hstep⟩ := step_answer_cases w i answer
      all_goals
        rw [hstep] at ht
        cases ht
  | reject i =>
      obtain hstep | ⟨r, -, hstep⟩ := step_reject_cases w i
      all_goals
        rw [hstep] at ht
        cases ht
  | _ => cases ht

/-! ## Runs -/

theorem new_onPage (o : Options) (query : Query) :
    (World.new o query : World Row Query).cache.OnPage := ⟨o.pageSize_pos, .inl rfl⟩

/-- The page is one of the pages, a `nextPage` that completes moves by one page at most, and another
page size keeps the first visible row on the page. -/
def World.PageValid (w : World Row Query) (P : Event Row Query → World Row Query → Prop) : Prop :=
  w.cache.localPage < w.cache.totalLocalPages ∧
    (∀ e t, P e w → (step e w).1 = some t → t.ByOne) ∧
    ∀ size, w.cache.KeepsFirst (w.cache.setPageSize size)

/-- **In every run whose steps are steady, the page is valid after every step.** -/
theorem page_valid (o : Options) (query : Query) (run : List (Event Row Query))
    (h : Along step Steady run (.new o query)) :
    (final step run (.new o query)).PageValid Steady := by
  have hpage := h.keeps (new_onPage o query) fun e w he hw => step_onPage hw he
  exact ⟨hpage.lt_total, fun e t he ht => step_byOne he ht, hpage.setPageSize_keepsFirst⟩

/-! ## Clicks -/

/-- Two rows on a page each, and a click on the second page: the next chunk, on its way, is waited
for. -/
def one_click : List (Event Nat Unit) :=
  [.loadFirstChunk, .answer 0 (.array [0, 1]), .resume 0, .goToPage 1, .nextPage,
    .answer 0 (.array [2]), .resume 0]

theorem page_valid_click :
    (final step one_click (.new { chunkSize := 2, pageSize := 1 } ())).PageValid Steady := by
  refine page_valid { chunkSize := 2, pageSize := 1 } () one_click
    ⟨trivial, fun r hr _ => .inl rfl, fun p page size hcall _ => ?_, trivial, trivial,
      fun r hr hfirst => ?_, fun p page size hcall _ => ?_, trivial⟩
  · cases hcall
  · cases hr
    cases hfirst
  · cases hcall
    exact ⟨rfl, rfl⟩

/-- The last of a hundred rows are shown, and the user clicks twice before the next chunk, of ten
rows, is there. -/
def two_clicks : List (Event Nat Unit) :=
  [.loadFirstChunk, .answer 0 (.array (List.range 100)), .resume 0, .goToPage 6, .nextPage, .nextPage,
    .answer 0 (.array (List.range' 100 10)), .resume 0, .resume 0]

/-- Both clicks turn the page: the ninth of eight pages is shown. -/
theorem page_beyond_last :
    ¬ ∀ (o : Options) (query : Unit) (run : List (Event Nat Unit)),
      (final step run (.new o query)).PageValid fun _ _ => True := by
  intro hall
  have hvalid := (hall {} () two_clicks).1
  have hpages : (final step two_clicks (.new {} ())).cache.totalLocalPages ≤
      (final step two_clicks (.new {} ())).cache.localPage := by decide +kernel
  exact absurd hvalid (Nat.not_lt.mpr hpages)

end IpVault.Client
