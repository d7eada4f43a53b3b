import IpVault.Access.AuditBooks

set_option autoImplicit false

/-! # Changes and their audit rows

Requests one after the other, any statement of which may fail. No request takes an audit row away. A
request that is not cut short between its first write and its audit row leaves both or neither; one
that is leaves its change without a row.
-/

namespace IpVault

open Lib Books Prog

/-- A request, and what those of its statements report that fail, counted from 0. -/
structure Disturbed where
  req : Request
  fails : Nat → Option AppError

/-- A request whose statement number `n` fails. -/
def Disturbed.once (req : Request) (n : Nat) (e : AppError) : Disturbed where
  req := req
  fails k := if k = n then some e else none

/-- The failing statements, as the handler sees them. -/
def Disturbed.faults (e : Disturbed) : Faults Db := fun n _ => (e.fails n).map .error

theorem admits_faults (key_id : Uuid) (e : Disturbed) : (audit_books key_id).Admits e.faults := by
  intro n l r h
  obtain ⟨err, -, rfl⟩ := Option.map_eq_some_iff.mp h
  rfl

namespace Service

variable (S : Service)

/-- One request: the response, and the store. -/
def disturbed (e : Disturbed) (v : Vault) : Response × Vault :=
  match (S.serve e.req).faulty database e.faults 0 v with
  | (.ok response, w) => (response, w)
  | (.error err, w) => (err.into_response, w)

/-- A request none of whose statements fails is an ordinary one. -/
theorem disturbed_none (req : Request) (v : Vault) :
    S.disturbed ⟨req, fun _ => none⟩ v = S.handle req v := by
  unfold disturbed handle
  rw [← faulty_none database (S.serve req) 0 v]
  rfl

theorem disturbed_store (e : Disturbed) (v : Vault) :
    (S.disturbed e v).2 = ((S.serve e.req).faulty database e.faults 0 v).2 := by
  unfold disturbed
  generalize (S.serve e.req).faulty database e.faults 0 v = r
  obtain ⟨_ | _, w⟩ := r <;> rfl

/-- The statements of the request, each with whether it has taken effect. -/
def carried (e : Disturbed) (v : Vault) : List (Stmt × Bool) :=
  (S.serve e.req).carried database (audit_books e.req.key_id) e.faults 0 v

/-- The request ends between its first write to one of the audited tables and its audit row: a
statement fails there, or a check refuses. -/
def CutShort (e : Disturbed) (v : Vault) : Prop :=
  ¬ (S.serve e.req).Unbroken database (audit_books e.req.key_id) e.faults 0 v .clean

/-- The request has left the tables and the audit trail as they were; or the trail has one row more,
which names the key of the request, and all its writes have taken effect. -/
def Accounted (e : Disturbed) (v w : Vault) : Prop :=
  v.SameBooks w.toWorld ∨
    ((∃ rows a, rows.length = v.audit_logs.length ∧ a.api_key_id = some e.req.key_id ∧
        w.audit_logs = rows ++ [a]) ∧
      ∀ step ∈ S.carried e v, step.1.kind ≠ .other → step.2 = true)

variable {S}

/-- What the statements do to the tables and the trail. -/
theorem audit_books_sound (key_id : Uuid) : (audit_books key_id).Sound database
    (fun v w : Vault => v.SameBooks w.toWorld)
    (fun v w => w.audit_logs.length = v.audit_logs.length)
    (fun v w => ∃ a : AuditLog, a.api_key_id = some key_id ∧
      w.audit_logs = v.audit_logs ++ [a]) where
  idle_refl v := .refl v.toWorld
  idle_trans _ _ _ h h' := h.trans h'
  writes_trans _ _ _ h h' := h'.trans h
  writes_of_idle _ _ h := congrArg List.length h.audit_logs
  other l v h := Stmt.same_books_of_other h v.toWorld
  failed l v h := by
    cases hrun : Stmt.txn l v.toWorld with
    | error e =>
        show v.SameBooks (Stmt.after l v.toWorld)
        rw [Stmt.after_of_error hrun]
        exact .refl v.toWorld
    | ok p =>
        have hanswer : failed_answer (Stmt.answer l v.toWorld) = true := h
        rw [Stmt.answer_of_ok hrun] at hanswer
        cases hanswer
  -- A change writes no audit row; where it deletes keys the rows forget them, and none is lost.
  change l v h := by
    have hauditor : Stmt.auditor l = none := by
      by_contra hsome
      have hkind : Stmt.kind l = .change := h
      rw [Stmt.kind, if_pos (Option.isSome_iff_ne_none.mpr hsome)] at hkind
      cases hkind
    show (Stmt.after l v.toWorld).audit_logs.length = v.audit_logs.length
    rcases Stmt.audit_logs_after hauditor v.toWorld with hsame | ⟨ids, -, hrows⟩
    · rw [hsame]
    · rw [hrows, List.length_map]
  record l v h hproper hdone := by
    cases hauditor : Stmt.auditor l with
    | none =>
        have hkind : Stmt.kind l = .record := h
        rw [Stmt.kind, hauditor, if_neg (by decide)] at hkind
        split at hkind <;> cases hkind
    | some named =>
        obtain rfl := hproper named hauditor
        cases hrun : Stmt.txn l v.toWorld with
        | error e =>
            have hanswer : failed_answer (Stmt.answer l v.toWorld) = false := hdone
            rw [Stmt.answer, hrun] at hanswer
            cases hanswer
        | ok p =>
            show ∃ a : AuditLog, _ ∧ (Stmt.after l v.toWorld).audit_logs = _
            rw [Stmt.after_of_ok hrun]
            exact Stmt.one_row_of_auditor hauditor hrun

/-- **No request takes an audit row away**, whatever fails. -/
theorem disturbed_remembers (e : Disturbed) (v : Vault) :
    v.toWorld.Remembers (S.disturbed e v).2.toWorld := by
  rw [disturbed_store]
  exact faulty_keeps (R := fun v w : Vault => v.toWorld.Remembers w.toWorld)
    (fun v => .refl v.toWorld) (fun _ _ _ h h' => h.trans h') Stmt.remembers e.faults
    (S.serve e.req) 0 v

/-- The handler of a request whose key has been found. -/
theorem accounted_of_handler {e : Disturbed} {v : Vault} {key : ApiKey}
    (hkey : v.keys.find? e.req.key_id = some key)
    (h : (e.req.call.handler (S.ctx e.req key)).Unbroken database (audit_books e.req.key_id)
      e.faults 1 v .clean) :
    let p := e.req.call.handler (S.ctx e.req key)
    v.SameBooks (p.faulty database e.faults 1 v).2.toWorld ∨
      ((∃ rows a, rows.length = v.audit_logs.length ∧ a.api_key_id = some e.req.key_id ∧
          (p.faulty database e.faults 1 v).2.audit_logs = rows ++ [a]) ∧
        ∀ step ∈ p.carried database (audit_books e.req.key_id) e.faults 1 v,
          Stmt.kind step.1 ≠ .other → step.2 = true) := by
  have hid : (S.ctx e.req key).key.id = e.req.key_id := (Table.find?_eq_some.mp hkey).2
  have booked : Booked (audit_books e.req.key_id) Closed
      (e.req.call.handler (S.ctx e.req key)) .clean := by
    rw [← hid]
    exact e.req.call.booked
  rcases booked.settles (audit_books_sound e.req.key_id) (admits_faults _ e) (by decide) h with
    ⟨-, hsame⟩ | ⟨⟨t, t', hlength, ⟨a, hnamed, hrow⟩, hsame⟩, hcarried⟩
  · exact .inl hsame
  · exact .inr ⟨⟨t.audit_logs, a, hlength, hnamed, hsame.audit_logs.trans hrow⟩, hcarried⟩

/-- **One request.** Unless it is cut short, it leaves both or neither. -/
theorem accounted_of_not_cut_short {e : Disturbed} {v : Vault} (h : ¬ S.CutShort e v) :
    S.Accounted e v (S.disturbed e v).2 := by
  have hunbroken := not_not.mp h
  rw [disturbed_store]
  -- The first statement reads the key.
  have hserve : S.serve e.req = .ask (.query (.key_by_id e.req.key_id)) fun r =>
      Prog.ofExcept r >>= fun found =>
        Prog.okOr (.Unauthorized "Invalid API Key") found >>= fun key =>
          e.req.call.handler (S.ctx e.req key) := rfl
  unfold Accounted carried
  rw [hserve] at hunbroken ⊢
  cases hfault : e.fails 0 with
  | some err =>
      have hanswer : e.faults 0 (.query (.key_by_id e.req.key_id)) = some (.error err) := by
        simp only [Disturbed.faults, hfault, Option.map_some]
      refine .inl ?_
      simp only [faulty, hanswer]
      exact .refl v.toWorld
  | none =>
      have hanswer : e.faults 0 (.query (.key_by_id e.req.key_id)) = none := by
        simp only [Disturbed.faults, hfault, Option.map_none]
      have hfound : database.answer (.query (.key_by_id e.req.key_id)) v =
          .ok (v.keys.find? e.req.key_id) := rfl
      cases hkey : v.keys.find? e.req.key_id with
      | none =>
          refine .inl ?_
          simp only [faulty, hanswer, hfound, hkey]
          exact .refl v.toWorld
      | some key =>
          simp only [Unbroken, faulty, Prog.carried, hanswer, hfound, hkey] at hunbroken ⊢
          rcases accounted_of_handler hkey hunbroken with hsame | ⟨hrow, hcarried⟩
          · exact .inl hsame
          · refine .inr ⟨hrow, List.forall_mem_cons.mpr ⟨fun _ => rfl, hcarried⟩⟩

/-- **The books are complete.** No request of a run removes an audit row, or alters one but for the
key that is gone; and each request that is not cut short leaves its change and its audit row, or
neither. -/
theorem audit_complete (S : Service) (run : List Disturbed) (v : Vault) :
    v.toWorld.Remembers (final S.disturbed run v).toWorld ∧
      (Along S.disturbed (fun e w => ¬ S.CutShort e w) run v →
        Along S.disturbed (fun e w => S.Accounted e w (S.disturbed e w).2) run v) := by
  constructor
  · induction run generalizing v with
    | nil => exact .refl v.toWorld
    | cons e run ih => exact (disturbed_remembers e v).trans (ih _)
  · intro h
    exact h.mono fun e w hcut => accounted_of_not_cut_short hcut

/-- The sensor creates the group `office`. -/
def office_group : Request := .sample 1 5 (.create_ip_group { name := "office" })

/-- The group is created, by a request whose first read fails and by one no statement of which does. -/
theorem audit_complete_office :
    Along Service.sample.disturbed
      (fun e w => Service.sample.Accounted e w (Service.sample.disturbed e w).2)
      [.once office_group 0 (.DbError .busy), ⟨office_group, fun _ => none⟩] .sample :=
  (audit_complete .sample _ _).2 ⟨fun h => h ⟨Phase.noConfusion, Phase.noConfusion⟩,
    fun h => h trivial, trivial⟩

/-- The fourth statement of that request adds the audit row. If it fails, the group is there without
one. -/
theorem group_without_audit_row :
    ¬ ∀ (S : Service) (req : Request) (n : Nat) (err : AppError) (v : Vault),
      S.Accounted (.once req n err) v (S.disturbed (.once req n err) v).2 := by
  intro all
  have hfails := all .sample office_group 3 (.DbError .busy) .sample
  have hgroups : (Service.sample.disturbed (.once office_group 3 (.DbError .busy))
      Vault.sample).2.groups.rows.length = 2 := by decide
  have hrows : (Service.sample.disturbed (.once office_group 3 (.DbError .busy))
      Vault.sample).2.audit_logs = [] := by decide
  rcases hfails with hsame | ⟨⟨rows, a, -, -, hrow⟩, -⟩
  · rw [hsame.groups] at hgroups
    exact absurd hgroups (by decide)
  · rw [hrows] at hrow
    cases rows <;> cases hrow

end Service

end IpVault
