import SchemaQuery.Proofs.Task.Registry

/-!
Which executions tasks run. A task runs the same execution from its start on, so where no task is new,
executions stay apart that were apart, and one that no task runs goes unused. A new task keeps all apart
if its execution is one that was unused.
-/

namespace SchemaQuery

namespace Registry

variable {r r' : Registry} {execution : ExecutionId} {task : Task}

/-- No two tasks run one execution. -/
def Separate (r : Registry) : Prop :=
  ∀ id id' t t', r.task? id = some t → r.task? id' = some t' → t.execution = t'.execution → id = id'

/-- No task runs the execution. -/
def Unused (r : Registry) (execution : ExecutionId) : Prop :=
  ∀ id t, r.task? id = some t → t.execution ≠ execution

/-- Every task of the second registry is one of the first one, and runs the same execution. -/
def NoneNew (r r' : Registry) : Prop :=
  ∀ id t', r'.task? id = some t' → ∃ t, r.task? id = some t ∧ t'.execution = t.execution

theorem NoneNew.of_cells (h : r'.cells = r.cells) : r.NoneNew r' := by
  intro id t ht
  rw [task?, cell?, h] at ht
  exact ⟨t, ht, rfl⟩

theorem Separate.of_noneNew (h : r.Separate) (hr : r.NoneNew r') : r'.Separate := by
  intro id₁ id₂ t₁' t₂' ht₁' ht₂' hsame
  obtain ⟨t₁, ht₁, hexecution₁⟩ := hr id₁ t₁' ht₁'
  obtain ⟨t₂, ht₂, hexecution₂⟩ := hr id₂ t₂' ht₂'
  exact h id₁ id₂ t₁ t₂ ht₁ ht₂ (by rw [← hexecution₁, ← hexecution₂, hsame])

theorem Unused.of_noneNew (h : r.Unused execution) (hr : r.NoneNew r') : r'.Unused execution := by
  intro id t' ht'
  obtain ⟨t, ht, hexecution⟩ := hr id t' ht'
  rw [hexecution]
  exact h id t ht

theorem Separate.create (h : r.Separate) (hunused : r.Unused task.execution) :
    (r.create task).1.Separate := by
  intro id id' t t' ht ht' hsame
  rcases task?_of_create ht with hbefore | ⟨rfl, rfl⟩
  · rcases task?_of_create ht' with hbefore' | ⟨rfl, -⟩
    · exact h id id' t t' hbefore hbefore' hsame
    · exact absurd hsame (hunused id t hbefore)
  · rcases task?_of_create ht' with hbefore' | ⟨rfl, rfl⟩
    · exact absurd hsame.symm (hunused id' t' hbefore')
    · rfl

theorem Unused.create (h : r.Unused execution) (hne : task.execution ≠ execution) :
    (r.create task).1.Unused execution := by
  intro id t ht
  rcases task?_of_create ht with hbefore | ⟨rfl, -⟩
  · exact h id t hbefore
  · exact hne

theorem Unused.taskFor?_eq_none (h : r.Unused execution) (hr : r.Consistent) :
    r.correlator.taskFor? execution = none := by
  rw [Option.eq_none_iff_forall_not_mem]
  intro id hentry
  obtain ⟨c, hc, hexecution⟩ := hr.correlated execution id hentry
  exact h id c.task (task?_eq_some_iff.mpr ⟨c, hc, rfl⟩) hexecution

end Registry

end SchemaQuery
