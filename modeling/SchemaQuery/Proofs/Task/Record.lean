import SchemaQuery.Proofs.Task.Registry

/-!
What the record of a task says. The time of its end, its result and its error are there exactly when
its status asks for them, however the task came to its end, and a client is shown a record that says as
much. A cancelled task has no error of its own; a client is shown one.
-/

namespace SchemaQuery

/-! ### The record of a task -/

namespace Task

/-- The fields of a task say what its status says. -/
structure Coherent (t : Task) : Prop where
  /-- The time of the end is known exactly if the task has ended. -/
  finishedAt : t.finishedAt.isSome = true ↔ t.status ≠ .running
  /-- There is a result exactly if the task succeeded. -/
  result : t.result.isSome = true ↔ t.status = .succeeded
  /-- There is an error exactly if the task failed. -/
  error : t.error.isSome = true ↔ t.status = .failed

/-- The task has just been started. -/
def IsNew (t : Task) : Prop := t = .start t.id t.field t.arguments t.execution t.startedAt

theorem isNew_start (id : TaskId) (field : String) (arguments : Arguments) (execution : ExecutionId)
    (now : Instant) : (start id field arguments execution now).IsNew :=
  rfl

/-- A task that has just been started has no end, no result and no error. -/
theorem IsNew.coherent {t : Task} (h : t.IsNew) : t.Coherent := by
  rw [h]
  constructor <;> simp [start]

/-- Ending a running task fills in what its new status asks for, and nothing else. -/
theorem Coherent.settle {t : Task} (h : t.Coherent) (now : Instant) (outcome : Outcome) :
    (t.settle now outcome).Coherent := by
  by_cases hfinished : t.isFinished = true
  · rwa [settle_of_isFinished hfinished]
  · have hrunning : t.status = .running := by simpa [isFinished] using hfinished
    have hresult : t.result = none := by
      have := h.result
      simpa [hrunning] using this
    have herror : t.error = none := by
      have := h.error
      simpa [hrunning] using this
    rw [Task.settle, if_neg hfinished]
    cases outcome with
    | succeeded rows => constructor <;> simp [finish, herror]
    | failed error => constructor <;> simp [finish, hresult]
    | cancelled => constructor <;> simp [finish, hresult, herror]

end Task

/-! ### What a client is shown -/

/-- The fields that a client is shown say what the shown status says. -/
structure StatusView.Coherent (v : StatusView) : Prop where
  /-- The task is shown as running exactly if no end is shown. -/
  running : v.status = .running ↔ v.finishedAt = none
  /-- A result is shown exactly if the task is shown as succeeded. -/
  result : v.result.isSome = true ↔ v.status = .succeeded
  /-- An error is shown exactly if the task is shown as failed. -/
  error : v.error.isSome = true ↔ v.status = .failed

/-- What is shown of a coherent record is coherent. -/
theorem Task.Coherent.view {t : Task} (h : t.Coherent) : t.view.Coherent := by
  have hrunning : t.finishedAt = none ↔ t.status = .running := by
    rw [← Option.not_isSome_iff_eq_none, h.finishedAt, Classical.not_not]
  have hresult := h.result
  have herror := h.error
  constructor
  · cases hstatus : t.status <;> simp [Task.view, hstatus, hrunning]
  · cases hstatus : t.status <;> simp [Task.view, hstatus, hresult]
  · cases hstatus : t.status <;> simp [Task.view, hstatus, herror]

theorem Task.view_status_eq_failed_iff (t : Task) :
    t.view.status = .failed ↔ t.status = .failed ∨ t.status = .cancelled := by
  cases hstatus : t.status <;> simp [Task.view, hstatus]

/-! ### The records of a registry -/

/-- The record of a task is coherent, and the end that was seen has come. -/
structure Cell.Coherent (c : Cell) : Prop where
  task : c.task.Coherent
  observed : c.observed = true → c.task.isFinished = true

/-- Every record of the registry is coherent. -/
def Registry.Coherent (r : Registry) : Prop := ∀ id c, r.cell? id = some c → c.Coherent

namespace Registry

variable {r r' : Registry}

theorem coherent_empty : Coherent ∅ := fun _ _ h => nomatch h

theorem Coherent.of_cells (h : r.Coherent) (hcells : r'.cells = r.cells) : r'.Coherent := by
  intro id c hc
  rw [cell?, hcells] at hc
  exact h id c hc

theorem Coherent.create (h : r.Coherent) {t : Task} (ht : t.IsNew) : (r.create t).1.Coherent := by
  rcases r.create_cases t with ⟨e, hr⟩ | ⟨hid, -, hr⟩
  · rw [hr]
    exact h.of_cells rfl
  · intro id c hc
    rw [hr, cell?, Keyed.get?_add, ← cell?.eq_def, Option.or_eq_some_iff] at hc
    rcases hc with hc | ⟨-, hc⟩
    · exact h id c hc
    · split at hc
      · cases hc
        exact ⟨ht.coherent, fun hobserved => absurd hobserved Bool.false_ne_true⟩
      · cases hc

theorem Coherent.settle (h : r.Coherent) (id : TaskId) (now : Instant) (outcome : Outcome) :
    (r.settle id now outcome).Coherent := by
  intro k c hc
  rw [cell?_settle] at hc
  split at hc
  · obtain ⟨c, hk, rfl⟩ := Option.map_eq_some_iff.mp hc
    obtain ⟨htask, hobserved⟩ := h k c hk
    exact ⟨htask.settle now outcome, fun _ => c.task.isFinished_settle now outcome⟩
  · exact h k c hc

/-- The end of a task may be marked as seen once it has come. -/
theorem Coherent.mark (h : r.Coherent) {id : TaskId} {t : Task} (ht : r.task? id = some t)
    (hfinished : t.isFinished = true) : (r.mark id true).Coherent := by
  intro k c hc
  rw [cell?_mark] at hc
  split at hc
  · next hid =>
    subst hid
    obtain ⟨c, hk, rfl⟩ := Option.map_eq_some_iff.mp hc
    obtain ⟨c', hc', rfl⟩ := task?_eq_some_iff.mp ht
    obtain rfl : c = c' := Option.some.inj (hk.symm.trans hc')
    exact ⟨(h id c hk).task, fun _ => hfinished⟩
  · exact h k c hc

end Registry

end SchemaQuery
