import SchemaQuery.Proofs.Tracker.Requests

/-!
What is stored of a task is coherent, whatever has happened. The fields of a record are written where a
result was fetched or could not be fetched, where the engine reports a failure or a cancellation, and
where a task became too old; the mark that its end was seen is set by other calls, later. Each of these
writes keeps every record coherent, so every run of a tracker does.
-/

namespace SchemaQuery

namespace Tracker

/-! ### One write -/

variable {job : Job} {r r' : Registry}

theorem Job.MayAsk.isNew {task : Task} (h : job.MayAsk r (.create task)) : task.IsNew := by
  cases job with
  | trigger op args id => exact h
  | get | push | poll | converge | sweep | collect => exact h.elim

theorem Job.MayAsk.finished {id : TaskId} (h : job.MayAsk r (.observe id)) :
    ∃ t, r.task? id = some t ∧ t.isFinished = true := by
  cases job with
  | trigger op args id => exact h.elim
  | get | push | poll | converge | sweep | collect => exact h

/-- A request that a job may make keeps every record coherent. -/
theorem coherent_of_serves (h : r.Coherent) {request : Request} {answer : request.Answer}
    (hserves : request.Serves r r' answer) (hasks : job.MayAsk r request) : r'.Coherent := by
  cases request with
  | clock | newId | start query | state execution =>
    obtain rfl : r' = r := hserves
    exact h
  | ids | lookup execution | cell id =>
    obtain rfl := hserves.1
    exact h
  | reserve id =>
    obtain rfl : r' = (r.reserve id).1 := congrArg Prod.fst hserves
    exact h.of_cells (r.cells_reserve id)
  | release id =>
    obtain rfl : r' = r.release id := hserves
    exact h.of_cells rfl
  | create task =>
    obtain rfl : r' = (r.create task).1 := congrArg Prod.fst hserves
    exact h.create hasks.isNew
  | observe id =>
    obtain rfl : r' = r.mark id true := hserves
    obtain ⟨t, ht, hfinished⟩ := hasks.finished
    exact h.mark ht hfinished
  | converge id report =>
    rcases hserves.1 with rfl | ⟨now, outcome, rfl⟩
    · exact h
    · exact h.settle id now outcome
  | forget executions =>
    obtain rfl : r' = (r.forget executions).1 := congrArg Prod.fst hserves
    exact h.of_cells (r.cells_forget executions)

theorem Moves.coherent {t : Tracker} {isLocked : TaskId → Bool} {p p' : Progress job.Result}
    (hmoves : Moves t isLocked r p r' p') (hasks : p.Asks job.MayAsk r) (h : r.Coherent) :
    r'.Coherent := by
  cases hmoves with
  | answered hserves hlocked => exact coherent_of_serves h hserves (hasks.1 r (.refl r))
  | locks hfree htask hrunning => exact h
  | unlocks now answer => exact h.settle _ now _

/-! ### Every run -/

/-- What every event keeps of the records of a machine and of what its calls ask for. -/
structure Machine.Recorded (m : Machine) : Prop where
  sound : m.Sound
  asking : m.Asking
  coherent : m.registry.Coherent

theorem recorded_empty : Machine.Recorded ⟨∅, []⟩ where
  sound := sound_of_consistent Registry.consistent_empty
  asking _ _ _ h := nomatch h
  coherent := Registry.coherent_empty

theorem Machine.Recorded.step {m m' : Machine} (h : m.Recorded) {t : Tracker} {event : Event}
    (hstep : m.step? t event = some m') : m'.Recorded where
  sound := h.sound.step hstep
  asking := h.asking.step h.sound hstep
  coherent := by
    rcases step?_cases hstep with ⟨jobs, rfl⟩ | ⟨place, job, p, p', r', hplace, hmoves, rfl⟩
    · exact h.coherent
    · exact hmoves.coherent (h.asking place job p hplace) h.coherent

/-- The record of a task says what its status says, and so does what a client is shown of it, in every
run of a tracker. The time of the end is there exactly if the task has ended, a result exactly if it
succeeded, an error exactly if it failed, and an end that was seen has come. A client is shown a running
task exactly if no end is shown, a result exactly with a success, an error exactly with a failure, and a
cancelled task as one that failed. -/
theorem Machine.records_agree {t : Tracker} {events : List Event} {m : Machine}
    (hrun : Machine.run? t ⟨∅, []⟩ events = some m) {id : TaskId} {c : Cell}
    (hc : m.registry.cell? id = some c) :
    (c.task.finishedAt.isSome = true ↔ c.task.isFinished = true) ∧
      (c.task.result.isSome = true ↔ c.task.status = .succeeded) ∧
      (c.task.error.isSome = true ↔ c.task.status = .failed) ∧
      (c.observed = true → c.task.isFinished = true) ∧
      (c.task.view.status = .running ↔ c.task.view.finishedAt = none) ∧
      (c.task.view.result.isSome = true ↔ c.task.view.status = .succeeded) ∧
      (c.task.view.error.isSome = true ↔ c.task.view.status = .failed) ∧
      (c.task.status = .cancelled → c.task.view.status = .failed) := by
  have hrecorded : m.Recorded :=
    run?_induction (fun _ _ _ hm hstep => hm.step hstep) recorded_empty hrun
  obtain ⟨htask, hobserved⟩ := hrecorded.coherent id c hc
  obtain ⟨hrunning, hresult, herror⟩ := htask.view
  refine ⟨?_, htask.result, htask.error, hobserved, hrunning, hresult, herror, ?_⟩
  · rw [htask.finishedAt]
    simp [Task.isFinished]
  · intro hcancelled
    exact c.task.view_status_eq_failed_iff.mpr (.inr hcancelled)

/-- An operation without arguments that runs as a task. -/
def allUsers : Operation :=
  ⟨.query, "users", ⟨"SELECT * FROM user", .read⟩, true, "User", true, none⟩

/-- A task is triggered, the engine reports that its execution was cancelled, and a client sees that. -/
def cancelledAndSeen : List Event :=
  [.begin (.trigger allUsers ∅ (some ⟨"t1"⟩)), .serve 0 ⟨0, 0⟩, .reply 0 (.started (.ok ⟨"e1"⟩)),
    .reply 0 (.time ⟨0, 0⟩), .serve 0 ⟨0, 0⟩, .begin (.push ⟨⟨"e1"⟩, .cancelled⟩),
    .begin (.poll ⟨"t1"⟩), .serve 1 ⟨1, 0⟩, .serve 1 ⟨2, 0⟩, .serve 2 ⟨3, 0⟩, .serve 2 ⟨4, 0⟩]

/-- The record has no result and no error of its own; what is shown of it is a failure with an error. -/
theorem Machine.records_agree_cancelled :
    ∃ m c, Machine.run? (.plain .standard) ⟨∅, []⟩ cancelledAndSeen = some m ∧
      m.registry.cell? ⟨"t1"⟩ = some c ∧ c.observed = true ∧ c.task.status = .cancelled ∧
      c.task.finishedAt.isSome = true ∧ c.task.result.isSome = false ∧
      c.task.error.isSome = false ∧ c.task.view.status = .failed ∧
      c.task.view.error.isSome = true ∧ c.task.view.finishedAt ≠ none := by
  obtain ⟨m, c, hrun, hc, hseen, hcancelled⟩ : ∃ m c,
      Machine.run? (.plain .standard) ⟨∅, []⟩ cancelledAndSeen = some m ∧
        m.registry.cell? ⟨"t1"⟩ = some c ∧ c.observed = true ∧ c.task.status = .cancelled :=
    ⟨_, _, rfl, rfl, rfl, rfl⟩
  obtain ⟨hfinishedAt, hresult, herror, hobserved, hrunning, -, hshown, hfailed⟩ :=
    records_agree hrun hc
  have hview := hfailed hcancelled
  refine ⟨m, c, hrun, hc, hseen, hcancelled, hfinishedAt.mpr (hobserved hseen), ?_, ?_, hview,
    hshown.mpr hview, ?_⟩
  · rw [Bool.eq_false_iff]
    intro h
    rw [hresult, hcancelled] at h
    cases h
  · rw [Bool.eq_false_iff]
    intro h
    rw [herror, hcancelled] at h
    cases h
  · intro hnone
    rw [← hrunning, hview] at hnone
    cases hnone

end Tracker

end SchemaQuery
