import SchemaQuery.Proofs.Task.Registry
import SchemaQuery.Proofs.Tracker.World

/-!
Triggers that fail. A trigger can come to nothing in five places: the operation is none for tasks, its query
cannot be rendered, its id is taken, the engine does not start the query, or the execution that it starts
belongs to a task already. The first three come before anything is changed, the fourth is followed by giving
the id back, and in the fifth storing the task uses the reservation up; so whichever it is, the registry is
what it was. Otherwise it has one task more, and the entry of its execution.
-/

namespace SchemaQuery

/-! ### What a registry gains -/

namespace Registry

variable {r : Registry} {id : TaskId}

/-- No task has the id, and it is not reserved. -/
structure Free (r : Registry) (id : TaskId) : Prop where
  cell : r.cell? id = none
  reserved : id ∉ r.reserved

/-- The registry with one reservation more. -/
def holding (r : Registry) (id : TaskId) : Registry := { r with reserved := id :: r.reserved }

/-- A registry has one task more, which is new, as its execution is, and whose end no client has seen. -/
structure Gains (r : Registry) (task : Task) (r' : Registry) : Prop where
  free : r.Free task.id
  uncorrelated : r.correlator.taskFor? task.execution = none
  cells : r'.cells.entries = r.cells.entries ++ [(task.id, ⟨task, false⟩)]
  correlator : r'.correlator.entries.entries = r.correlator.entries.entries ++ [(task.execution, task.id)]
  reserved : r'.reserved = r.reserved

theorem reserve_of_free (h : r.Free id) : r.reserve id = (r.holding id, .ok ()) := by
  have hnew : ¬ (r.contains id = true ∨ id ∈ r.reserved) :=
    not_or.mpr ⟨Keyed.not_contains_of_get?_eq_none h.cell, h.reserved⟩
  rw [reserve, if_neg hnew, holding]

theorem reserve_of_not_free (h : ¬ r.Free id) : r.reserve id = (r, .error (.taskExists id)) := by
  rcases r.reserve_cases id with hr | ⟨hcell, hreserved, -⟩
  · exact hr
  · exact absurd ⟨hcell, hreserved⟩ h

theorem release_holding (h : r.Free id) : (r.holding id).release id = r := by
  have hothers : r.reserved.filter (· ≠ id) = r.reserved :=
    List.filter_eq_self.mpr fun k hk => decide_eq_true fun heq => h.reserved (heq ▸ hk)
  rw [holding, release, List.filter_cons_of_neg (by simp), hothers]

/-- Storing a task under a free id that was reserved for it uses the reservation up. Its execution belongs to
a task already, or it is stored. -/
theorem create_holding (h : r.Free id) (task : Task) (hid : task.id = id) :
    (r.correlator.taskFor? task.execution ≠ none ∧ (r.holding id).create task =
      (r, .error (.engine (.alreadyCorrelated task.execution)))) ∨
    ∃ r', (r.holding id).create task = (r', .ok ()) ∧ r.Gains task r' := by
  subst hid
  have hnew : ¬ r.contains task.id = true := Keyed.not_contains_of_get?_eq_none h.cell
  unfold create
  rw [release_holding h]
  dsimp only
  rw [if_neg hnew]
  by_cases hexecution : r.correlator.contains task.execution = true
  · rw [if_pos hexecution]
    exact .inl ⟨Option.isSome_iff_ne_none.mp hexecution, rfl⟩
  · rw [if_neg hexecution]
    have hunknown : r.correlator.entries.get? task.execution = none :=
      Keyed.get?_eq_none_of_not_contains hexecution
    exact .inr ⟨_, rfl, h, hunknown, Keyed.entries_add h.cell _, Keyed.entries_add hunknown _, rfl⟩

end Registry

/-! ### What a trigger does -/

/-- The query that a request starts. -/
def Request.query? : Request → Option CompiledQuery
  | .start query => some query
  | _ => none

/-- The id of a task that is triggered, and the world once it has one. -/
def World.named {σ : Type} (w : World σ) (s : σ) : Option TaskId → TaskId × σ
  | some id => (id, s)
  | none => ((w.around s).newId, w.next s .newId)

namespace Tracker

variable {σ α : Type} {t : Tracker} {w : World σ}

/-- The queries that a call starts when it runs alone. -/
def started (t : Tracker) (w : World σ) (s : σ) (r : Registry) : Call α → List CompiledQuery
  | .done _ => []
  | .ask request next =>
    request.query?.toList ++ started t w (w.after s r request) (t.serve (w.around s) r request).1
      (next (t.serve (w.around s) r request).2)

/-- The queries that a call starts when it runs alone, the registry that it leaves and its result. -/
def ran (t : Tracker) (w : World σ) (s : σ) (r : Registry) (c : Call α) :
    List CompiledQuery × Registry × α :=
  (t.started w s r c, (t.runIn w s r c).2)

theorem ran_ask (s : σ) (r : Registry) (request : Request) (next : request.Answer → Call α) :
    t.ran w s r (.ask request next) =
      (t.ran w (w.after s r request) (t.serve (w.around s) r request).1
        (next (t.serve (w.around s) r request).2)).map (request.query?.toList ++ ·) id :=
  rfl

/-- What becomes of a trigger that goes by an id, in a world in which the id is known: the queries that
it starts, the registry that it leaves, and its result. -/
inductive Attempt (w : World σ) (s : σ) (r : Registry) (op : Operation) (args : Arguments) (id : TaskId) :
    List CompiledQuery × Registry × Except Error Task → Prop where
  | notATask (htask : op.task = false) :
    Attempt w s r op args id ([], r, .error (.validation (.notATask op.owner op.field)))
  | notRendered (htask : op.task = true) {e : Error} (hrender : op.render args = .error e) :
    Attempt w s r op args id ([], r, .error e)
  | taken (htask : op.task = true) {query : CompiledQuery} (hrender : op.render args = .ok query)
    (htaken : ¬ r.Free id) :
    Attempt w s r op args id ([], r, .error (.taskExists id))
  | notStarted (htask : op.task = true) {query : CompiledQuery} (hrender : op.render args = .ok query)
    (hfree : r.Free id) {e : Error} (hstart : (w.around s).start query = .error e) :
    Attempt w s r op args id ([query], r, .error e)
  | correlated (htask : op.task = true) {query : CompiledQuery} (hrender : op.render args = .ok query)
    (hfree : r.Free id) {execution : ExecutionId} (hstart : (w.around s).start query = .ok execution)
    (hknown : r.correlator.taskFor? execution ≠ none) :
    Attempt w s r op args id ([query], r, .error (.engine (.alreadyCorrelated execution)))
  | stored (htask : op.task = true) {query : CompiledQuery} (hrender : op.render args = .ok query)
    {execution : ExecutionId} (hstart : (w.around s).start query = .ok execution) {now : Instant}
    {r' : Registry} (hgains : r.Gains (.start id op.field args execution now) r') :
    Attempt w s r op args id ([query], r', .ok (.start id op.field args execution now))

/-! ### The stages of a trigger -/

section Stages

variable (s : σ) (r : Registry) (op : Operation) (args : Arguments) (query : CompiledQuery) (id : TaskId)

theorem ran_giveUp (e : Error) : t.ran w s r (giveUp id e) = ([], r.release id, .error e) := rfl

/-- An execution that has started is recorded as a task that starts at the time. -/
theorem ran_record (execution : ExecutionId) :
    t.ran w s r (record op args id execution) =
      ([], (r.create (.start id op.field args execution (w.around s).now)).1,
        (r.create (.start id op.field args execution (w.around s).now)).2.map fun _ =>
          .start id op.field args execution (w.around s).now) :=
  rfl

theorem submit_eq : submit op args id query = .ask (.start query) fun
    | .ok execution => record op args id execution
    | .error e => giveUp id e :=
  rfl

theorem enter_eq : enter op args query id = .ask (.reserve id) fun
    | .ok _ => submit op args id query
    | .error e => .done (.error e) :=
  rfl

variable {op args query id}

/-- With an id that was free, the query is started, and the task stored if nothing is against it. -/
theorem attempt_submit (htask : op.task = true) (hrender : op.render args = .ok query)
    (hfree : r.Free id) :
    Attempt w s r op args id (t.ran w s (r.holding id) (submit op args id query)) := by
  rw [submit_eq, ran_ask, serve]
  cases hstart : (w.around s).start query with
  | error e =>
    dsimp only
    rw [ran_giveUp, Registry.release_holding hfree]
    exact .notStarted htask hrender hfree hstart
  | ok execution =>
    dsimp only
    rw [ran_record]
    generalize (w.around (w.after s (r.holding id) (.start query))).now = now
    rcases Registry.create_holding hfree (.start id op.field args execution now) rfl with
      ⟨hknown, hcreate⟩ | ⟨r', hcreate, hgains⟩
    · rw [hcreate]
      exact .correlated htask hrender hfree hstart hknown
    · rw [hcreate]
      exact .stored htask hrender hstart hgains

/-- With its id, a trigger goes one of the last four ways. -/
theorem attempt_enter (htask : op.task = true) (hrender : op.render args = .ok query) :
    Attempt w s r op args id (t.ran w s r (enter op args query id)) := by
  rw [enter_eq, ran_ask, serve]
  by_cases hfree : r.Free id
  · rw [Registry.reserve_of_free hfree]
    exact attempt_submit s r htask hrender hfree
  · rw [Registry.reserve_of_not_free hfree]
    exact .taken htask hrender hfree

variable (op args)

/-- What becomes of a trigger, whatever the engine and the registry are like. -/
theorem attempt_trigger (given : Option TaskId) :
    Attempt w (w.named s given).2 r op args (w.named s given).1 (t.ran w s r (trigger op args given)) := by
  unfold trigger
  split
  · next htask =>
    split
    · next e hrender => exact .notRendered htask hrender
    · next query hrender =>
      cases given with
      | some id => exact attempt_enter s r htask hrender
      | none => exact attempt_enter _ r htask hrender
  · next htask => exact .notATask (by simpa using htask)

end Stages

/-- A trigger that fails leaves no trace. Whatever the registry, the engine and the inputs are like, where it
ends with an error the registry is what it was. A query is started only for an operation for tasks, if it is
rendered and the id is free. Where it ends with a task, that runs, for the field of the operation and with the
arguments, and the registry has gained it and the entry of its execution; and what was started, and given that
execution, is the query of the operation with the arguments. -/
theorem trigger_leaves_no_trace (t : Tracker) (w : World σ) (s : σ) (r : Registry) (op : Operation)
    (args : Arguments) (given : Option TaskId) :
    let (queries, r', result) := t.ran w s r (trigger op args given)
    (∀ e, result = .error e → r' = r) ∧
    (∀ query ∈ queries, op.task = true ∧ op.render args = .ok query ∧ r.Free (w.named s given).1) ∧
    ∀ task, result = .ok task →
      r.Gains task r' ∧ task.status = .running ∧ task.id = (w.named s given).1 ∧
      task.field = op.field ∧ task.arguments = args ∧
      ∃ query, op.render args = .ok query ∧ queries = [query] ∧
        (w.around (w.named s given).2).start query = .ok task.execution := by
  have hattempt : Attempt w _ r op args _ (t.ran w s r (trigger op args given)) :=
    attempt_trigger s r op args given
  revert hattempt
  generalize t.ran w s r (trigger op args given) = ran
  intro hattempt
  cases hattempt with
  | notATask htask => exact ⟨fun _ _ => rfl, nofun, nofun⟩
  | notRendered htask hrender => exact ⟨fun _ _ => rfl, nofun, nofun⟩
  | taken htask hrender htaken => exact ⟨fun _ _ => rfl, nofun, nofun⟩
  | notStarted htask hrender hfree hstart =>
    exact ⟨fun _ _ => rfl, List.forall_mem_singleton.mpr ⟨htask, hrender, hfree⟩, nofun⟩
  | correlated htask hrender hfree hstart hknown =>
    exact ⟨fun _ _ => rfl, List.forall_mem_singleton.mpr ⟨htask, hrender, hfree⟩, nofun⟩
  | stored htask hrender hstart hgains =>
    refine ⟨nofun, List.forall_mem_singleton.mpr ⟨htask, hrender, hgains.free⟩, ?_⟩
    rintro _ ⟨⟩
    exact ⟨hgains, rfl, rfl, rfl, rfl, _, hrender, rfl, hstart⟩

/-- An engine gives a second task the execution of the first: its query is started, and nothing else done. -/
example :
    let w := World.constant ⟨⟨0, 0⟩, ⟨"t2"⟩, id, fun _ => .ok ⟨"e1"⟩, fun _ => .ok .running, fun _ => .ok []⟩
    let op : Operation := ⟨.query, "users", ⟨"SELECT 1", .read⟩, true, "User", false, none⟩
    let first := (plain default).ran w () ∅ (trigger op ∅ (some ⟨"t1"⟩))
    let second := (plain default).ran w () first.2.1 (trigger op ∅ none)
    first.2.1.size = 1 ∧ second.1 = [⟨"SELECT 1", .read⟩] ∧ second.2.1.ids = [⟨"t1"⟩] ∧
      second.2.2 = .error (.engine (.alreadyCorrelated ⟨"e1"⟩)) :=
  ⟨rfl, rfl, rfl, rfl⟩

end Tracker

end SchemaQuery
