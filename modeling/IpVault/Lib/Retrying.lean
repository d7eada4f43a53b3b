import Mathlib.Data.Stream.Init
import Mathlib.Tactic

set_option autoImplicit false

/-! # Trying again

An action is tried, and tried again while its result asks for it (`again`) and retries are left.
`tries` counts the tries, and `StopsAfter` says which number that is. What the tries leave behind is a
transcript: one turn for each try, and a pause between two of them.
-/

namespace Lib

variable {α ε β : Type}

/-- The number of tries, if `limit` of them may follow the first. -/
def tries (again : α → Bool) : Nat → Stream' α → Nat
  | 0, _ => 1
  | limit + 1, results => if again results.head then tries again limit results.tail + 1 else 1

/-- The `n` tries end with the first result that does not ask for another, or with the last one
allowed. -/
structure StopsAfter (again : α → Bool) (limit : Nat) (results : Stream' α) (n : Nat) : Prop where
  pos : 0 < n
  le : n ≤ limit + 1
  earlier : ∀ i, i + 1 < n → again (results.get i) = true
  last : again (results.get (n - 1)) = false ∨ n = limit + 1

theorem tries_pos (again : α → Bool) (limit : Nat) (results : Stream' α) :
    0 < tries again limit results := by
  cases limit with
  | zero => exact Nat.one_pos
  | succ limit =>
      rw [tries]
      split <;> omega

theorem tries_stops (again : α → Bool) (limit : Nat) (results : Stream' α) :
    StopsAfter again limit results (tries again limit results) := by
  induction limit generalizing results with
  | zero => exact ⟨Nat.one_pos, Nat.le_refl 1, fun i hi => absurd hi (by rw [tries]; omega), .inr rfl⟩
  | succ limit ih =>
      have hrest := ih results.tail
      cases hagain : again results.head with
      | false =>
          rw [tries, hagain, if_neg Bool.false_ne_true]
          exact ⟨Nat.one_pos, by omega, fun i hi => by omega, .inl hagain⟩
      | true =>
          rw [tries, hagain, if_pos rfl]
          refine ⟨by omega, Nat.succ_le_succ hrest.le, fun i hi => ?_, ?_⟩
          · cases i with
            | zero => exact hagain
            | succ i => exact hrest.earlier i (Nat.lt_of_succ_lt_succ hi)
          · -- The last of one try more is the last of the rest.
            obtain ⟨m, hm⟩ := Nat.exists_eq_succ_of_ne_zero (Nat.ne_of_gt hrest.pos)
            have hlast := hrest.last
            rw [hm] at hlast ⊢
            exact hlast.imp id (congrArg Nat.succ)

/-- There is one such number. -/
theorem StopsAfter.unique {again : α → Bool} {limit : Nat} {results : Stream' α} {n m : Nat}
    (hn : StopsAfter again limit results n) (hm : StopsAfter again limit results m) : n = m := by
  have below : ∀ {n m}, StopsAfter again limit results n → StopsAfter again limit results m →
      ¬ n < m := by
    intro n m hn hm hlt
    have hpos := hn.pos
    have hle := hm.le
    rcases hn.last with hstop | hlimit
    · have hagain := hm.earlier (n - 1) (by omega)
      rw [hstop] at hagain
      cases hagain
    · omega
  exact Nat.le_antisymm (Nat.le_of_not_lt (below hm hn)) (Nat.le_of_not_lt (below hn hm))

/-! ## Transcripts -/

/-- `n` turns, with a pause between any two. -/
def transcript (turn : Nat → List ε) (pause : Nat → ε) (n : Nat) : List ε :=
  (List.range n).flatMap fun i => turn i ++ if i + 1 < n then [pause i] else []

variable {turn : Nat → List ε} {pause : Nat → ε}

@[simp]
theorem transcript_one : transcript turn pause 1 = turn 0 := by simp [transcript, List.range_succ]

/-- The first turn, and the pause after it. -/
theorem transcript_succ {n : Nat} (h : 0 < n) : transcript turn pause (n + 1) =
    turn 0 ++ pause 0 :: transcript (fun i => turn (i + 1)) (fun i => pause (i + 1)) n := by
  unfold transcript
  rw [List.range_succ_eq_map, List.flatMap_cons, List.flatMap_map, if_pos (by omega)]
  simp [List.append_assoc]

/-- What is found in the turns only is found turn by turn. -/
theorem filterMap_transcript_turns {f : ε → Option β} (hpause : ∀ i, f (pause i) = none) (n : Nat) :
    (transcript turn pause n).filterMap f = (List.range n).flatMap fun i => (turn i).filterMap f := by
  unfold transcript
  rw [List.filterMap_flatMap]
  refine congrArg (List.flatMap · (List.range n)) (funext fun i => ?_)
  split <;> simp [hpause]

/-- What is found in the pauses only is found between the turns. -/
theorem filterMap_transcript_pauses {f : ε → Option β} {g : Nat → β}
    (hturn : ∀ i, (turn i).filterMap f = []) (hpause : ∀ i, f (pause i) = some (g i)) (n : Nat) :
    (transcript turn pause n).filterMap f = (List.range (n - 1)).map g := by
  induction n generalizing turn pause g with
  | zero => rfl
  | succ n ih =>
      cases n with
      | zero => rw [transcript_one, hturn]; rfl
      | succ n =>
          have hrest := ih (fun i => hturn (i + 1)) fun i => hpause (i + 1)
          rw [transcript_succ n.succ_pos, List.filterMap_append, hturn, List.nil_append,
            List.filterMap_cons_some (hpause 0), hrest]
          simp [List.range_succ_eq_map]

end Lib
