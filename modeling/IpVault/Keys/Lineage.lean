import IpVault.Api.Keys
import IpVault.Lib.Reach

set_option autoImplicit false

/-! # Lineage

`parent_key_id` makes the keys a graph, on which the database puts no constraint: a table edited
by hand may have cycles, parents that do not exist, and keys that are their own parent. On every
such table `collect_key_subtree` returns the keys that are reached from its root.
-/

namespace IpVault

open Lib

namespace World

/-- `child` is the row of a key whose `parent_key_id` is `parent`. -/
def Parent (w : World) (parent child : Uuid) : Prop :=
  ∃ k ∈ w.keys, k.id = child ∧ k.parent_key_id = some parent

/-- The identifiers reached from `root` along `parent_key_id`, `root` among them. -/
def Descends (w : World) (root id : Uuid) : Prop := Relation.ReflTransGen w.Parent root id

/-- Where no key has a parent there is nothing below a key. -/
theorem descends_of_orphans {w : World} (h : ∀ k ∈ w.keys.rows, k.parent_key_id = none)
    {root id : Uuid} : w.Descends root id ↔ root = id := by
  constructor
  · intro hbelow
    rcases hbelow.cases_head with hroot | ⟨_, ⟨k, hk, -, hparent⟩, -⟩
    · exact hroot
    · cases (h k hk).symm.trans hparent
  · rintro rfl
    exact .refl

/-- What a round of the walk finds: the children of the frontier that are not visited yet. -/
def found (w : World) (visited frontier : List Uuid) : List Uuid :=
  (((Query.children_of frontier).eval w).map ApiKey.id).filter fun id => !visited.contains id

/-- The loop of `collect_key_subtree`, with no bound on its rounds: from what is visited and the
frontier it comes to the last argument. -/
inductive Rounds (w : World) : List Uuid → List Uuid → List Uuid → Prop
  | done (visited : List Uuid) : Rounds w visited [] visited
  | round {visited frontier ids : List Uuid} (hf : frontier ≠ [])
      (h : Rounds w (visited ++ w.found visited frontier) (w.found visited frontier) ids) :
      Rounds w visited frontier ids

/-- It comes to one result at most. -/
theorem Rounds.unique {w : World} {visited frontier ids ids' : List Uuid}
    (h : w.Rounds visited frontier ids) (h' : w.Rounds visited frontier ids') : ids = ids' := by
  induction h with
  | done visited =>
      cases h' with
      | done => rfl
      | round hf _ => exact absurd rfl hf
  | round hf _ ih =>
      cases h' with
      | done => exact absurd rfl hf
      | round _ h' => exact ih h'

/-- No identifier is visited twice. -/
theorem Rounds.nodup {w : World} {visited frontier ids : List Uuid}
    (h : w.Rounds visited frontier ids) (hvisited : visited.Nodup) : ids.Nodup := by
  induction h with
  | done visited => exact hvisited
  | @round visited frontier ids _ _ ih =>
      refine ih (List.nodup_append'.mpr ⟨hvisited, ?_, fun id hid hfound => ?_⟩)
      · refine List.Nodup.filter _ ?_
        exact w.keys.unique.sublist (List.filter_sublist.map ApiKey.id)
      · have hnew := (List.mem_filter.mp hfound).2
        rw [List.contains_iff_mem.mpr hid] at hnew
        cases hnew

end World

section Walk

variable {v : Vault} {root : Uuid} {visited frontier : List Uuid}

/-- What a round of the walk finds. -/
theorem mem_children {id : Uuid} :
    id ∈ v.found visited frontier ↔ id ∉ visited ∧ ∃ a ∈ frontier, v.Parent a id := by
  simp only [World.found, Query.eval, List.mem_filter, List.mem_map, List.contains_eq_mem,
    Bool.not_eq_eq_eq_not, Bool.not_true, decide_eq_false_iff_not, Option.any_eq_true,
    decide_eq_true_eq]
  constructor
  · rintro ⟨⟨k, ⟨hk, a, hp, ha⟩, hid⟩, hnew⟩
    exact ⟨hnew, a, ha, k, hk, hid, hp⟩
  · rintro ⟨hnew, a, ha, k, hk, hid, hp⟩
    exact ⟨⟨k, ⟨hk, a, hp, ha⟩, hid⟩, hnew⟩

/-- What the rounds of the loop end with is what is reached from the root. -/
theorem World.Rounds.finished {ids : List Uuid} (hrounds : v.Rounds visited frontier ids)
    (h : Search v.Parent root visited frontier) (id : Uuid) : id ∈ ids ↔ v.Descends root id := by
  induction hrounds with
  | done visited => exact h.finished id
  | round _ _ ih => exact ih (h.round fun id => mem_children)

/-- **The walk ends by itself**, if it may take a round for each key it has not seen. -/
theorem subtree_walk_rounds {G : Stmt → Vault → Prop} {E : AppError → Vault → Prop}
    (hG : ∀ q, G (.query q) v) (n : Nat)
    (hn : frontier = [] ∨ unvisited (v.keys.rows.map ApiKey.id) visited < n) :
    Prog.Meets database G (fun ids w => v = w ∧ v.Rounds visited frontier ids) E
      (subtree_walk n visited frontier) v := by
  induction n generalizing visited frontier with
  | zero =>
      obtain rfl : frontier = [] := hn.resolve_right (by omega)
      exact ⟨rfl, .done visited⟩
  | succ n ih =>
      unfold subtree_walk
      by_cases hf : frontier = []
      · subst hf
        exact ⟨rfl, .done visited⟩
      · rw [if_neg hf, Prog.meets_bind, meets_select]
        have hnext : v.found visited frontier = [] ∨ unvisited (v.keys.rows.map ApiKey.id)
            (visited ++ v.found visited frontier) < n := by
          cases hfound : v.found visited frontier with
          | nil => exact .inl rfl
          | cons id ids =>
              -- The round found `id`, which is the identifier of a row and was not visited.
              have hid : id ∈ v.found visited frontier := hfound ▸ List.mem_cons_self
              obtain ⟨hnew, a, -, k, hk, rfl, -⟩ := mem_children.mp hid
              have hdrop : unvisited _ (visited ++ k.id :: ids) < unvisited _ visited :=
                unvisited_lt (List.mem_map_of_mem (f := ApiKey.id) hk) hnew List.mem_cons_self
              have hlt := hn.resolve_left hf
              exact .inr (by omega)
        exact ⟨hG _, (ih hnext).imp fun _ _ h => ⟨h.1, .round hf h.2⟩⟩

/-- `collect_key_subtree` ends with its loop. -/
theorem collect_key_subtree_rounds {G : Stmt → Vault → Prop} {E : AppError → Vault → Prop}
    (hG : ∀ q, G (.query q) v) :
    Prog.Meets database G (fun ids w => v = w ∧ v.Rounds [root] [root] ids) E
      (collect_key_subtree root) v := by
  unfold collect_key_subtree
  rw [Prog.meets_bind, meets_select]
  refine ⟨hG _, subtree_walk_rounds hG _ (.inr ?_)⟩
  have hle := unvisited_le (v.keys.rows.map ApiKey.id) [root]
  rw [List.length_map] at hle
  exact Nat.lt_succ_of_le hle

/-- **`collect_key_subtree` returns the keys reached from its root**, whatever the table. -/
theorem collect_key_subtree_meets {G : Stmt → Vault → Prop} {E : AppError → Vault → Prop}
    (hG : ∀ q, G (.query q) v) :
    Prog.Meets database G (fun ids w => v = w ∧ ∀ id, id ∈ ids ↔ v.Descends root id) E
      (collect_key_subtree root) v :=
  (collect_key_subtree_rounds hG).imp fun _ _ h => ⟨h.1, h.2.finished (.init v.Parent root)⟩

/-- **The subtree walk.** On every table of keys the loop ends, in one way, and what the function
returns is each identifier that is reached from the root, once, and nothing else. Its queries are taken
as answered: that a round of very many identifiers may have more bound variables than the engine takes
is a failure of the database. -/
theorem subtree_walk_exact (v : Vault) (root : Uuid) :
    ∃ ids, v.Rounds [root] [root] ids ∧ (∀ ids', v.Rounds [root] [root] ids' → ids' = ids) ∧
      (collect_key_subtree root).run database v = (.ok ids, v) ∧ ids.Nodup ∧
      ∀ id, id ∈ ids ↔ v.Descends root id := by
  have hmeets : Prog.Meets database (fun _ _ => True)
      (fun ids w => v = w ∧ v.Rounds [root] [root] ids) (fun _ _ => False)
      (collect_key_subtree root) v := collect_key_subtree_rounds fun _ => trivial
  have hrun := hmeets.run
  rcases hresult : (collect_key_subtree root).run database v with ⟨e | ids, w⟩
  · exact (hrun.2 e w hresult).elim
  · obtain ⟨rfl, hrounds⟩ := hrun.1 ids w hresult
    refine ⟨ids, hrounds, fun ids' h => h.unique hrounds, rfl, ?_, ?_⟩
    · exact hrounds.nodup (List.nodup_singleton root)
    · exact hrounds.finished (.init v.Parent root)

end Walk

end IpVault
