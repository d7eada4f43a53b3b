import Mathlib.Tactic

set_option autoImplicit false

/-! # A lock for many readers or one writer

`RwLock` is the state of such a lock: the threads that read under it, or the one that writes. `mode`
says what a thread holds; each operation changes the mode of one thread only.
-/

namespace Lib

variable {τ : Type}

/-- What a thread holds. -/
inductive Mode where
  | free
  | read
  | write
  deriving DecidableEq

/-- The threads that hold the lock. -/
structure RwLock (τ : Type) where
  readers : List τ
  writer : Option τ
  exclusive : writer ≠ none → readers = []

namespace RwLock

/-- Nobody holds the lock. -/
def idle : RwLock τ := ⟨[], none, fun h => absurd rfl h⟩

/-- A thread may read. -/
def can_read (L : RwLock τ) : Bool := L.writer.isNone

/-- A thread may write. -/
def can_write (L : RwLock τ) : Bool := L.writer.isNone && L.readers.isEmpty

/-- The thread reads, if it may. -/
def acquire_read (L : RwLock τ) (c : τ) : RwLock τ :=
  if L.writer = none then ⟨c :: L.readers, none, fun hne => absurd rfl hne⟩ else L

/-- The thread writes, if it may. -/
def acquire_write (L : RwLock τ) (c : τ) : RwLock τ :=
  if L.writer = none ∧ L.readers = [] then ⟨[], some c, fun _ => rfl⟩ else L

variable {L : RwLock τ} {c d : τ}

theorem can_read_iff : L.can_read = true ↔ L.writer = none := Option.isNone_iff_eq_none

theorem can_write_iff : L.can_write = true ↔ L.writer = none ∧ L.readers = [] := by
  unfold can_write
  rw [Bool.and_eq_true, Option.isNone_iff_eq_none, List.isEmpty_iff]

theorem writer_acquire_read : (L.acquire_read c).writer = L.writer := by
  unfold acquire_read
  split
  case isTrue h => exact h.symm
  case isFalse => rfl

variable [DecidableEq τ]

def mode (L : RwLock τ) (c : τ) : Mode :=
  if L.writer = some c then .write else if c ∈ L.readers then .read else .free

/-- The thread gives the lock back. -/
def release (L : RwLock τ) (c : τ) : RwLock τ where
  readers := L.readers.filter (· ≠ c)
  writer := if L.writer = some c then none else L.writer
  exclusive hne := by
    have hwriter : L.writer ≠ none := by
      intro hnone
      rw [hnone] at hne
      exact hne rfl
    rw [L.exclusive hwriter, List.filter_nil]

theorem mode_idle (c : τ) : (idle : RwLock τ).mode c = .free := by simp [mode, idle]

theorem mode_eq_write_iff : L.mode c = .write ↔ L.writer = some c := by
  unfold mode
  split
  · simp [*]
  · split <;> simp [*]

theorem mode_eq_read_iff : L.mode c = .read ↔ c ∈ L.readers := by
  unfold mode
  split
  case isTrue h =>
    have hempty : L.readers = [] := L.exclusive (by simp [h])
    simp [hempty]
  case isFalse h => split <;> simp [*]

/-- **While a thread writes, no other holds the lock.** -/
theorem mode_of_other_writes (h : L.mode c = .write) (hne : d ≠ c) : L.mode d = .free := by
  rw [mode_eq_write_iff] at h
  have hempty : L.readers = [] := L.exclusive (by simp [h])
  have hother : some c ≠ some d := fun heq => hne (Option.some.inj heq).symm
  simp [mode, h, hempty, Ne.symm hne]

/-- While a thread reads, nobody writes. -/
theorem writer_of_reads (h : L.mode c = .read) : L.writer = none := by
  rw [mode_eq_read_iff] at h
  by_contra hne
  rw [L.exclusive hne] at h
  cases h

/-- Whoever may write finds nobody holding the lock. -/
theorem mode_of_can_write (h : L.can_write = true) (c : τ) : L.mode c = .free := by
  obtain ⟨hwriter, hreaders⟩ := can_write_iff.mp h
  simp [mode, hwriter, hreaders]

theorem mode_acquire_read (h : L.can_read = true) :
    (L.acquire_read c).mode d = if d = c then .read else L.mode d := by
  rw [can_read_iff] at h
  unfold acquire_read mode
  rw [if_pos h, h]
  by_cases hd : d = c <;> simp [hd]

theorem mode_acquire_write (h : L.can_write = true) :
    (L.acquire_write c).mode d = if d = c then .write else L.mode d := by
  have hfree := mode_of_can_write h d
  rw [can_write_iff] at h
  unfold acquire_write
  rw [if_pos h, hfree]
  unfold mode
  by_cases hd : d = c
  · simp [hd]
  · simp [hd, Ne.symm hd]

theorem mode_release : (L.release c).mode d = if d = c then .free else L.mode d := by
  unfold release mode
  by_cases hd : d = c
  · subst hd
    by_cases hw : L.writer = some d <;> simp [hw]
  · have hother : some c ≠ some d := fun heq => hd (Option.some.inj heq).symm
    by_cases hw : L.writer = some c
    · simp [hw, hd, Ne.symm hd, L.exclusive (show L.writer ≠ none by simp [hw])]
    · simp [hw, hd]

end RwLock

end Lib
