import Mathlib.Logic.Relation
import SchemaQuery.Proofs.Task.Registry

/-!
The three tables of a registry: the tasks, the tasks to which executions belong, and the reserved ids.
Whatever steps are taken, with whatever ids, an entry for an execution names a task that runs it, no
reserved id is that of a task, a task stands under its own id, and what a task was started with is kept
for ever. A task that is refused leaves no trace of itself.
-/

namespace SchemaQuery

namespace Registry

variable {r r' : Registry}

/-- Collecting garbage is a step: it forgets the executions that need not be known any more. -/
theorem step_collectGarbage (r : Registry) : Step r r.collectGarbage.1 := .forget r r.releasable

/-- Steps lead to a later registry. -/
theorem evolves_of_steps (h : Relation.ReflTransGen Step r r') : r.Evolves r' := by
  induction h with
  | refl => exact .refl r
  | tail _ hstep ih => exact ih.trans hstep.evolves

/-- The tables of a registry agree after any steps, and a task stays what it was started as. The entry
of an execution names a task that is stored and runs this execution; a reserved id is that of no task; a
task is stored under its own id; it is there after any further steps, with the id, the field, the
arguments, the execution and the start it had; and a task that is refused changes neither the tasks nor
the entries of executions. -/
theorem Reachable.tables_agree (h : Reachable r) :
    (∀ execution id, r.correlator.taskFor? execution = some id →
        ∃ t, r.task? id = some t ∧ t.execution = execution) ∧
      (∀ id ∈ r.reserved, r.contains id = false) ∧
      (∀ id t, r.task? id = some t → t.id = id) ∧
      (∀ r', Relation.ReflTransGen Step r r' → ∀ id t, r.task? id = some t →
        ∃ t', r'.task? id = some t' ∧ t'.id = t.id ∧ t'.field = t.field ∧
          t'.arguments = t.arguments ∧ t'.execution = t.execution ∧ t'.startedAt = t.startedAt) ∧
      ∀ t e, (r.create t).2 = .error e →
        (r.create t).1.cells = r.cells ∧ (r.create t).1.correlator = r.correlator := by
  have hconsistent := h.consistent
  refine ⟨?_, ?_, ?_, ?_, ?_⟩
  · intro execution id hentry
    obtain ⟨c, hc, hexecution⟩ := hconsistent.correlated execution id hentry
    exact ⟨c.task, task?_eq_some_iff.mpr ⟨c, hc, rfl⟩, hexecution⟩
  · intro id hid
    have hnone : r.cells.get? id = none := hconsistent.reserved id hid
    rw [contains, Keyed.contains, hnone, Option.isSome_none]
  · intro id t ht
    obtain ⟨c, hc, rfl⟩ := task?_eq_some_iff.mp ht
    exact hconsistent.keyed id c hc
  · intro r' hsteps id t ht
    obtain ⟨t', ht', hadvances⟩ := evolves_of_steps hsteps id t ht
    exact ⟨t', ht', hadvances.start_eq⟩
  · intro t e he
    rw [create_of_error he]
    exact ⟨rfl, rfl⟩

/-- A task that runs, and an id whose execution is being started. -/
def oneOfTwo : Registry :=
  (((∅ : Registry).create (.start ⟨"t1"⟩ "users" ∅ ⟨"e1"⟩ ⟨0, 0⟩)).1.reserve ⟨"t2"⟩).1

theorem reachable_oneOfTwo : Reachable oneOfTwo := .step (.step .empty (.create _ _)) (.reserve _ _)

/-- There the execution of the second id is that of the first task, so the second task is refused; and
when the first task has ended, was seen and its execution is forgotten, it is what it was. -/
theorem tables_agree_oneOfTwo :
    let refused := Task.start ⟨"t2"⟩ "users" ∅ ⟨"e1"⟩ ⟨1, 0⟩
    let later := ((oneOfTwo.settle ⟨"t1"⟩ ⟨2, 0⟩ .cancelled).mark ⟨"t1"⟩ true).collectGarbage.1
    oneOfTwo.correlator.taskFor? ⟨"e1"⟩ = some ⟨"t1"⟩ ∧ oneOfTwo.reserved = [⟨"t2"⟩] ∧
      oneOfTwo.contains ⟨"t2"⟩ = false ∧
      (oneOfTwo.create refused).2 = .error (.engine (.alreadyCorrelated ⟨"e1"⟩)) ∧
      (oneOfTwo.create refused).1.cells = oneOfTwo.cells ∧
      later.correlator.taskFor? ⟨"e1"⟩ = none ∧
      ∃ t, later.task? ⟨"t1"⟩ = some t ∧ t.status = .cancelled ∧ t.field = "users" ∧
        t.execution = ⟨"e1"⟩ ∧ t.startedAt = ⟨0, 0⟩ := by
  intro refused later
  obtain ⟨-, hreserved, -, hkept, hrefused⟩ := reachable_oneOfTwo.tables_agree
  have hsteps : Relation.ReflTransGen Step oneOfTwo later :=
    ((Relation.ReflTransGen.single (.settle _ _ _ _)).tail (.mark _ _ _)).tail
      (step_collectGarbage _)
  have herror : (oneOfTwo.create refused).2 = .error (.engine (.alreadyCorrelated ⟨"e1"⟩)) := rfl
  obtain ⟨t, ht, -, hfield, -, hexecution, hstart⟩ := hkept later hsteps ⟨"t1"⟩ _ rfl
  have hstatus : (later.task? ⟨"t1"⟩).map (·.status) = some .cancelled := rfl
  rw [ht] at hstatus
  exact ⟨rfl, rfl, hreserved _ (List.mem_singleton.mpr rfl), herror, (hrefused refused _ herror).1,
    rfl, t, ht, Option.some.inj hstatus, hfield, hexecution, hstart⟩

end Registry

end SchemaQuery
