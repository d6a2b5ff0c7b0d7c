import SchemaQuery.Proofs.Tracker.Thinned

/-!
Calls that keep pace. Two calls run in one world, one on a registry that lacks some entries and one on a
registry that has them all. They keep pace if they lead to the same world, to registries that differ no
more than before, and to results that agree. Calls of plain requests keep pace with themselves, calls one
after the other keep pace if each does, and a trigger keeps pace although it stores an execution: nobody
has had it before.
-/

namespace SchemaQuery

/-! ### Storing a task -/

namespace Registry

variable {old x y : Registry} {task : Task}

/-- A task whose execution no task has had is stored on both registries, or on none. -/
theorem Thinned.create (h : Thinned old x y)
    (hexecution : y.correlator.taskFor? task.execution = none) :
    (x.create task).2 = (y.create task).2 ∧ Thinned old (x.create task).1 (y.create task).1 := by
  have hx : x.correlator.taskFor? task.execution = none := by
    rcases h.entry task.execution with heq | ⟨hnone, -⟩
    · rw [heq, hexecution]
    · exact hnone
  have hreserved : (x.release task.id).reserved = (y.release task.id).reserved := by
    rw [Registry.release, h.reserved, Registry.release]
  rw [create_of_uncorrelated hx, create_of_uncorrelated hexecution, Registry.contains, h.cells,
    ← Registry.contains.eq_def]
  split
  · exact ⟨rfl, h.of_same h.cells hreserved rfl rfl⟩
  · refine ⟨rfl, rfl, hreserved, fun e => ?_⟩
    simp only [Correlator.taskFor?_insert]
    rcases h.entry e with heq | ⟨hnone, id, c, hentry, hc⟩
    · exact .inl (by rw [heq])
    · -- An entry that is lacking is not that of the new task.
      have hne : task.execution ≠ e := by
        rintro rfl
        rw [hexecution] at hentry
        cases hentry
      exact .inr ⟨by rw [hnone, if_neg hne, Option.none_or],
        id, c, by rw [hentry, Option.some_or], hc⟩

end Registry

/-- A new task keeps a registry steady if its execution is that of no task and is not given again. -/
theorem World.Steady.create {σ : Type} {w : World σ} {old r : Registry} {s : σ}
    (h : w.Steady old s r) {task : Task} (hunused : r.Unused task.execution)
    (hlater : ∀ requests, task.execution ∉ w.executions s requests) :
    w.Steady old s (r.create task).1 where
  consistent := h.consistent.create task
  kept id c hc hreleasable := by
    have hkept := h.kept id c hc hreleasable
    rcases r.create_cases task with ⟨e, hr⟩ | ⟨-, -, hr⟩ <;> rw [hr]
    · exact hkept
    · rw [Registry.cell?, Keyed.get?_add, ← Registry.cell?.eq_def, hkept, Option.some_or]
  own := h.own.create hunused
  repeats := h.repeats
  fresh requests e he := by
    refine (h.fresh requests e he).create ?_
    rintro rfl
    exact hlater requests he

namespace Tracker

/-! ### Keeping pace -/

section Pace

variable {σ α β : Type}

/-- Two calls have run, each on its registry: the world is the same, the registries differ as before,
and `Q` holds of the results. -/
structure Paced (w : World σ) (old : Registry) (Q : α → β → Prop) (p : σ × Registry × α)
    (q : σ × Registry × β) : Prop where
  world : p.1 = q.1
  thinned : Registry.Thinned old p.2.1 q.2.1
  steady : w.Steady old q.1 q.2.1
  result : Q p.2.2 q.2.2

variable (t : Tracker) (w : World σ) (old : Registry)

/-- The calls keep pace wherever the first registry lacks entries only of tasks that had ended and were
seen. -/
def KeepPace (Q : α → β → Prop) (c : Call α) (d : Call β) : Prop :=
  ∀ s x y, Registry.Thinned old x y → w.Steady old s y →
    Paced w old Q (t.runIn w s x c) (t.runIn w s y d)

variable {t w old} {Q : α → β → Prop}

theorem keepPace_done {a : α} {b : β} (h : Q a b) : KeepPace t w old Q (.done a) (.done b) :=
  fun _ _ _ hthinned hsteady => ⟨rfl, hthinned, hsteady, h⟩

/-- A plain request is made alike on both registries. -/
theorem paced_serve {request : Request} {s : σ} {x y : Registry}
    (hthinned : Registry.Thinned old x y) (hsteady : w.Steady old s y) (hplain : request.Plain) :
    Paced w old Eq (w.after s x request, t.serve (w.around s) x request)
      (w.after s y request, t.serve (w.around s) y request) := by
  obtain ⟨hanswer, hthinned'⟩ := serve_thinned t (w.around s) hthinned hplain
  have hafter : w.after s x request = w.after s y request := by
    rw [World.after, reachesWorld_eq hthinned request]
    rfl
  have hretains := serve_retains t (w.around s) hsteady.consistent hplain
  exact ⟨hafter, hthinned', hsteady.of_retains hretains request, hanswer⟩

/-- Calls that begin with one plain request keep pace if they do after each answer. -/
theorem keepPace_ask {request : Request} {next : request.Answer → Call α}
    {next' : request.Answer → Call β} (hplain : request.Plain)
    (h : ∀ answer, KeepPace t w old Q (next answer) (next' answer)) :
    KeepPace t w old Q (.ask request next) (.ask request next') := by
  intro s x y hthinned hsteady
  obtain ⟨hworld, hthinned', hsteady', hanswer⟩ := paced_serve (t := t) hthinned hsteady hplain
  rw [runIn_ask, runIn_ask]
  simp only at hworld hanswer
  rw [hworld, hanswer]
  exact h _ _ _ _ hthinned' hsteady'

/-- A call of plain requests keeps pace with itself. -/
theorem keepPace_of_only {P : α → α → Prop} {c : Call α} (hc : c.Only Request.Plain)
    (hP : ∀ a, P a a) : KeepPace t w old P c c := by
  induction c with
  | done a => exact keepPace_done (hP a)
  | ask request next ih => exact keepPace_ask hc.1 fun answer => ih answer (hc.2 answer)

/-- Calls one after the other keep pace if each does. -/
theorem keepPace_bind {α' β' : Type} {P : α' → β' → Prop} {c : Call α} {d : Call β}
    {f : α → Call α'} {g : β → Call β'} (h : KeepPace t w old Q c d)
    (hf : ∀ a b, Q a b → KeepPace t w old P (f a) (g b)) :
    KeepPace t w old P (c >>= f) (d >>= g) := by
  intro s x y hthinned hsteady
  obtain ⟨hworld, hthinned', hsteady', hQ⟩ := h s x y hthinned hsteady
  rw [runIn_bind, runIn_bind, hworld]
  exact hf _ _ hQ _ _ _ hthinned' hsteady'

end Pace

/-! ### Triggers -/

section Trigger

variable {σ : Type} {t : Tracker} {w : World σ} {old x y : Registry} {s : σ}

/-- Recording an execution keeps pace if no task has had it and it is not given again. -/
theorem paced_record (hthinned : Registry.Thinned old x y) (hsteady : w.Steady old s y)
    {execution : ExecutionId} (hunused : y.Unused execution)
    (hlater : ∀ requests, execution ∉ w.executions s requests) (op : Operation) (args : Arguments)
    (id : TaskId) :
    Paced w old Eq (t.runIn w s x (record op args id execution))
      (t.runIn w s y (record op args id execution)) := by
  have hsteady' : w.Steady old (w.next s .clock) y :=
    hsteady.of_retains (.refl hsteady.consistent) .clock
  have hexecution := hunused.taskFor?_eq_none hsteady.consistent
  let task := Task.start id op.field args execution (w.around s).now
  have hcreated : w.Steady old (w.next s .clock) (y.create task).1 :=
    hsteady'.create hunused fun requests he =>
      hlater (.clock :: requests) (List.mem_append_right _ he)
  have hthinned' : (x.create task).2 = (y.create task).2 ∧
      Registry.Thinned old (x.create task).1 (y.create task).1 := hthinned.create hexecution
  exact ⟨rfl, hthinned'.2, hcreated, congrArg (Except.map fun _ => task) hthinned'.1⟩

theorem keepPace_submit (op : Operation) (args : Arguments) (id : TaskId) (query : CompiledQuery) :
    KeepPace t w old Eq (submit op args id query) (submit op args id query) := by
  intro s x y hthinned hsteady
  have hsteady' : w.Steady old (w.next s (.start query)) y :=
    hsteady.of_retains (.refl hsteady.consistent) (.start query)
  cases hstart : (w.around s).start query with
  | error e =>
    have hrun (r : Registry) : t.runIn w s r (submit op args id query) =
        t.runIn w (w.next s (.start query)) r (giveUp id e) := by
      rw [submit, Call.bind_request, runIn_ask, serve, hstart]
      rfl
    rw [hrun, hrun]
    have hplain : (giveUp id e).Only Request.Plain := Call.only_request trivial fun _ => trivial
    exact keepPace_of_only hplain (fun _ => rfl) _ x y hthinned hsteady'
  | ok execution =>
    have hrun (r : Registry) : t.runIn w s r (submit op args id query) =
        t.runIn w (w.next s (.start query)) r (record op args id execution) := by
      rw [submit, Call.bind_request, runIn_ask, serve, hstart]
      rfl
    rw [hrun, hrun]
    have hgiven (requests : List Request) : w.executions s (.start query :: requests) =
        execution :: w.executions (w.next s (.start query)) requests := by
      rw [World.executions, World.given?, hstart]
      rfl
    refine paced_record hthinned hsteady' ?_ (fun requests he => ?_) op args id
    · refine hsteady.fresh [.start query] execution ?_
      rw [hgiven]
      exact List.mem_cons_self
    · have hnodup := hsteady.repeats (.start query :: requests)
      rw [hgiven] at hnodup
      exact (List.nodup_cons.mp hnodup).1 he

theorem keepPace_trigger (op : Operation) (args : Arguments) (given : Option TaskId) :
    KeepPace t w old Eq (trigger op args given) (trigger op args given) := by
  have henter (query : CompiledQuery) (id : TaskId) :
      KeepPace t w old Eq (enter op args query id) (enter op args query id) := by
    refine keepPace_ask trivial fun answer => ?_
    cases answer with
    | ok => exact keepPace_submit op args id query
    | error e => exact keepPace_done rfl
  unfold trigger
  split
  · split
    · exact keepPace_done rfl
    · split
      · exact henter _ _
      · exact keepPace_ask trivial fun id => henter _ id
  · exact keepPace_done rfl

end Trigger

end Tracker

end SchemaQuery
