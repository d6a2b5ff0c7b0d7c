import SchemaQuery.Task.Basic

/-!
How a task can change: not at all, or once, from running to an end. The changes that are possible can be
put one behind the other, and a task that has ended has none left.
-/

namespace SchemaQuery

namespace Task

/-- The second task is the first one later on: the same, or ended while the first one was running. -/
def Advances (t t' : Task) : Prop :=
  t' = t ∨ t.isFinished = false ∧ ∃ now outcome, t' = t.finish now outcome

@[simp] theorem isFinished_finish (t : Task) (now : Instant) (outcome : Outcome) :
    (t.finish now outcome).isFinished = true := by
  cases outcome <;> rfl

@[simp] theorem id_finish (t : Task) (now : Instant) (outcome : Outcome) :
    (t.finish now outcome).id = t.id := by
  cases outcome <;> rfl

@[simp] theorem execution_finish (t : Task) (now : Instant) (outcome : Outcome) :
    (t.finish now outcome).execution = t.execution := by
  cases outcome <;> rfl

theorem advances_settle (t : Task) (now : Instant) (outcome : Outcome) :
    t.Advances (t.settle now outcome) := by
  unfold settle
  split
  · exact .inl rfl
  · next h => exact .inr ⟨by simpa using h, now, outcome, rfl⟩

namespace Advances

variable {t t' t'' : Task}

theorem refl (t : Task) : t.Advances t := .inl rfl

theorem eq_of_isFinished (h : t.Advances t') (ht : t.isFinished = true) : t' = t := by
  rcases h with h | ⟨hrunning, -⟩
  · exact h
  · rw [ht] at hrunning
    cases hrunning

theorem trans (h : t.Advances t') (h' : t'.Advances t'') : t.Advances t'' := by
  rcases h with rfl | ⟨hrunning, now, outcome, rfl⟩
  · exact h'
  · rw [h'.eq_of_isFinished (isFinished_finish t now outcome)]
    exact .inr ⟨hrunning, now, outcome, rfl⟩

theorem id_eq (h : t.Advances t') : t'.id = t.id := by
  rcases h with rfl | ⟨-, now, outcome, rfl⟩
  · rfl
  · exact id_finish t now outcome

theorem execution_eq (h : t.Advances t') : t'.execution = t.execution := by
  rcases h with rfl | ⟨-, now, outcome, rfl⟩
  · rfl
  · exact execution_finish t now outcome

/-- What a task was started with it keeps. -/
theorem start_eq (h : t.Advances t') : t'.id = t.id ∧ t'.field = t.field ∧
    t'.arguments = t.arguments ∧ t'.execution = t.execution ∧ t'.startedAt = t.startedAt := by
  rcases h with rfl | ⟨-, now, outcome, rfl⟩
  · exact ⟨rfl, rfl, rfl, rfl, rfl⟩
  · cases outcome <;> exact ⟨rfl, rfl, rfl, rfl, rfl⟩

theorem isFinished (h : t.Advances t') (ht : t.isFinished = true) : t'.isFinished = true := by
  rw [h.eq_of_isFinished ht, ht]

end Advances

end Task

end SchemaQuery
