import IpVault.Access.Handlers
import IpVault.Lib.Recall
import IpVault.Service

set_option autoImplicit false

/-! # Requests that take turns

`Service.lean` executes each request from start to end. The handlers are not atomic: each of their
statements is a turn of its own, and the statements of other requests, and the purges of the retention
sweep, come in between. Here any number of requests past authentication take turns statement by
statement, and each remembers what it has read.
-/

namespace IpVault

open Lib

/-- A request past authentication. -/
structure Authenticated where
  ctx : Ctx
  call : Call

/-- What a request of a key is given on `Env.sample`. -/
def Authenticated.sample (key : ApiKey) (call : Call) : Authenticated :=
  ⟨⟨.sample, ⟨key, "203.0.113.9"⟩, 0, ⟨"vault-key", "s3cret", []⟩⟩, call⟩

/-- Two clients, whose requests take turns in the samples. -/
inductive Client where
  | first
  | second
  deriving DecidableEq

/-- The database among several requests. `key_count` is no query of the source: it bounds a loop, which
may go on for as long as others add keys. So it answers with any number, the same as in a run in which
the loops end. -/
def concurrent_database (rounds : Nat) : Machine Db Vault where
  answer
    | .query .key_count, _ => .ok rounds
    | l, v => Stmt.answer l v.toWorld
  after l v := v.after l

/-- A purge of the retention sweep. -/
def purge_outside (threshold : Int) (v : Vault) : Vault := v.after (.purge threshold)

/-- Requests at work on one store. -/
abbrev Requests (τ : Type) := Pool Db.recalling Vault τ AppError (Response × Past Db)

/-- The requests begin. -/
def serving {τ : Type} (requests : τ → Authenticated) (v : Vault) : Requests τ :=
  ⟨v, fun i => ((requests i).call.handler (requests i).ctx).recalling []⟩

/-- One turn. -/
abbrev statement {τ : Type} [DecidableEq τ] (rounds : Nat) :
    Turn τ Int → Requests τ → Option Db.recalling.Op × Requests τ :=
  Pool.turn (concurrent_database rounds).recalling purge_outside

/-- The answer to a query is part of what a request has read. -/
def Saw (past : Past Db) (q : Query) (a : q.Reply) : Prop :=
  (⟨.query q, .ok a⟩ : Σ l : Stmt, Except AppError l.Reply) ∈ past

theorem Saw.of_extends {past past' : Past Db} {q : Query} {a : q.Reply} (h : Saw past q a)
    (hp : past <+: past') : Saw past' q a := hp.subset h

theorem saw_append (past : Past Db) (q : Query) (a : q.Reply) :
    Saw (past ++ [⟨.query q, .ok a⟩]) q a :=
  List.mem_append_right past (List.mem_singleton.mpr rfl)

/-- What was seen before another answer. -/
theorem Saw.of_append {past : Past Db} {l : Stmt} {r : Except AppError l.Reply} {q : Query}
    {a : q.Reply} (h : Saw (past ++ [⟨l, r⟩]) q a) (hne : l ≠ .query q) : Saw past q a := by
  rcases List.mem_append.mp h with h | heq
  · exact h
  · cases List.mem_singleton.mp heq
    exact absurd rfl hne

/-- The statement a request is about to issue, and what it has read. -/
def Requests.issues {τ : Type} (P : Requests τ) (i : τ) (l : Stmt) (past : Past Db) : Prop :=
  P.pending i = some (l, past)

/-- The store after the turn of a request that is about to issue a statement. -/
theorem statement_store {τ : Type} [DecidableEq τ] {rounds : Nat} {P : Requests τ} {i : τ} {l : Stmt}
    {past : Past Db} (h : P.issues i l past) :
    (statement rounds (.of i) P).2.store = P.store.after l := by
  unfold Requests.issues Pool.pending at h
  cases hp : P.thread i with
  | ret a => simp [hp] at h
  | fail e => simp [hp] at h
  | ask o next =>
      rw [hp] at h
      obtain rfl : o = (l, past) := Option.some.inj h
      simp only [statement, Pool.turn, hp]
      rfl

/-- A request that is about to issue nothing leaves the store alone. -/
theorem statement_idle {τ : Type} [DecidableEq τ] {rounds : Nat} {P : Requests τ} {i : τ}
    (h : P.pending i = none) : (statement rounds (.of i) P).2.store = P.store := by
  unfold Pool.pending at h
  cases hp : P.thread i with
  | ret a => simp only [statement, Pool.turn, hp]
  | fail e => simp only [statement, Pool.turn, hp]
  | ask o next => simp [hp] at h

/-! ## Rules -/

section Rules

variable {rounds : Nat} {R : Vault → Vault → Prop} {A G : Db.recalling.Op → Vault → Prop}
variable {E : AppError → Vault → Prop} {past : Past Db} {s : Vault} {α : Type}
/-- A reader only adds to what the request remembers. -/
theorem recalls_reads {p : Handler α} (hp : OnlyReads p)
    (hG : ∀ q past t, G ((.query q : Stmt), past) t) :
    Prog.Recalls (concurrent_database rounds) R A G (fun _ past' _ => past <+: past')
      (fun _ _ => True) past p s :=
  Prog.Issues.recalls hp (fun _ past t ⟨q, hq⟩ => hq ▸ hG q past t) past s

variable (hrefl : ∀ s, R s s) (htrans : ∀ s t u, R s t → R t u → R s u)

include hrefl htrans

/-- One statement; its error ends the request. -/
theorem recalls_exec {l : Stmt} {Q : l.Reply → Past Db → Vault → Prop}
    (hguard : ∀ t, R s t → A (l, past) t → G (l, past) t)
    (hok : ∀ t a, R s t → A (l, past) t → (concurrent_database rounds).answer l t = .ok a →
      ∀ u, R (t.after l) u → Q a (past ++ [⟨l, .ok a⟩]) u)
    (herr : ∀ t e, R s t → (concurrent_database rounds).answer l t = .error e →
      ∀ u, R (t.after l) u → E e u) :
    Prog.Recalls (concurrent_database rounds) R A G Q E past (exec l) s := by
  refine Prog.Recalls.bind hrefl (Prog.Recalls.op fun t hst ha => ⟨hguard t hst ha, ?_⟩)
  intro u htu
  generalize hanswer : (concurrent_database rounds).answer l t = r
  refine Prog.Recalls.ofExcept ?_ ?_
  · rintro a rfl w huw
    exact hok t a hst ha hanswer w (htrans _ _ _ htu huw)
  · rintro e rfl w huw
    exact herr t e hst hanswer w (htrans _ _ _ htu huw)

/-- One query. -/
theorem recalls_select {q : Query} {Q : q.Reply → Past Db → Vault → Prop}
    (hguard : ∀ t, R s t → G ((.query q : Stmt), past) t)
    (h : ∀ t a, R s t → A ((.query q : Stmt), past) t →
      (concurrent_database rounds).answer (.query q) t = .ok a →
        Q a (past ++ [⟨.query q, .ok a⟩]) t) (hQ : ∀ a past' t u, R t u → Q a past' t → Q a past' u) :
    Prog.Recalls (concurrent_database rounds) R A G Q (fun _ _ => True) past (select q) s :=
  recalls_exec (l := .query q) hrefl htrans (fun t hst _ => hguard t hst)
    (fun t a hst ha hanswer u htu => hQ a _ t u htu (h t a hst ha hanswer))
    fun _ _ _ _ _ _ => trivial

end Rules

end IpVault
