import SchemaQuery.Proofs.Task.Registry

/-!
What collecting garbage takes away. An entry is meant to leave once its task has ended and that has been
seen. What leaves are the entries of all executions that such tasks ran, and an execution that was
forgotten can be taken up by another task. So exactly the entries leave that are meant to, unless an
execution belongs to a task that has to be followed and is also that of one which need not be.
-/

namespace SchemaQuery

namespace Registry

variable {r : Registry}

/-- Whether the execution of the task with an id need not be known any more. -/
def mayForget (r : Registry) (id : TaskId) : Bool := (r.cell? id).any Cell.isReleasable

/-- An execution is that of a task which need not be followed any more, and belongs to another one that
has to be. -/
def IsShared (r : Registry) : Prop :=
  ∃ execution id other cell, r.correlator.taskFor? execution = some id ∧ r.mayForget id = false ∧
    r.cell? other = some cell ∧ cell.isReleasable = true ∧ cell.task.execution = execution

/-- An execution need not be known exactly if it is that of a task which has ended and was seen. -/
theorem mem_releasable_iff {execution : ExecutionId} : execution ∈ r.releasable ↔
    ∃ id cell, r.cell? id = some cell ∧ cell.isReleasable = true ∧
      cell.task.execution = execution := by
  simp only [releasable, List.mem_map, List.mem_filter, Prod.exists, and_assoc, cell?,
    Keyed.get?_eq_some_iff]

/-- What collecting garbage leaves, and what it counts. -/
theorem collectGarbage_entries (r : Registry) :
    r.collectGarbage.1.correlator.entries.entries =
        r.correlator.entries.entries.filter (fun e => e.1 ∉ r.releasable) ∧
      r.collectGarbage.2 = r.correlator.entries.entries.countP fun e => e.1 ∈ r.releasable :=
  ⟨entries_forget r _, forget_count r _⟩

/-- The execution of an entry that is meant to leave need not be known. -/
theorem Consistent.mem_releasable (h : r.Consistent) {e : ExecutionId × TaskId}
    (he : e ∈ r.correlator.entries.entries) (hforget : r.mayForget e.2 = true) :
    e.1 ∈ r.releasable := by
  obtain ⟨c, hc, hexecution⟩ := h.correlated e.1 e.2 (Correlator.taskFor?_eq_some_iff.mpr he)
  rw [mayForget, hc, Option.any_some] at hforget
  exact mem_releasable_iff.mpr ⟨e.2, c, hc, hforget, hexecution⟩

/-- Where no execution is shared, an entry leaves exactly if it is meant to. -/
theorem Consistent.mem_releasable_iff (h : r.Consistent) (hshared : ¬ r.IsShared)
    {e : ExecutionId × TaskId} (he : e ∈ r.correlator.entries.entries) :
    e.1 ∈ r.releasable ↔ r.mayForget e.2 = true := by
  refine ⟨fun hmem => ?_, h.mem_releasable he⟩
  obtain ⟨other, cell, hcell, hreleasable, hexecution⟩ := Registry.mem_releasable_iff.mp hmem
  cases hforget : r.mayForget e.2 with
  | true => rfl
  | false =>
    exact absurd ⟨e.1, e.2, other, cell, Correlator.taskFor?_eq_some_iff.mpr he, hforget, hcell,
      hreleasable, hexecution⟩ hshared

/-- Collecting garbage takes away the entries whose tasks have ended and were seen, leaves all others,
and counts the former, exactly if no execution is shared between a task that need not be followed any
more and one that has to be. -/
theorem Reachable.collectGarbage_iff (h : Reachable r) :
    (r.collectGarbage.1.correlator.entries.entries =
          r.correlator.entries.entries.filter (fun e => !r.mayForget e.2) ∧
        r.collectGarbage.2 = r.correlator.entries.entries.countP fun e => r.mayForget e.2) ↔
      ¬ r.IsShared := by
  obtain ⟨hentries, hcount⟩ := r.collectGarbage_entries
  rw [hentries, hcount]
  constructor
  · rintro ⟨hfilter, -⟩ ⟨execution, id, other, cell, hentry, hforget, hcell, hreleasable, hexecution⟩
    have hmem := Correlator.taskFor?_eq_some_iff.mp hentry
    have hstays : (execution, id) ∈ r.correlator.entries.entries.filter fun e => e.1 ∉ r.releasable := by
      rw [hfilter]
      exact List.mem_filter.mpr ⟨hmem, by simpa using hforget⟩
    have hleaves := mem_releasable_iff.mpr ⟨other, cell, hcell, hreleasable, hexecution⟩
    simpa [hleaves] using (List.mem_filter.mp hstays).2
  · intro hshared
    have hiff {e : ExecutionId × TaskId} (he : e ∈ r.correlator.entries.entries) :=
      h.consistent.mem_releasable_iff hshared he
    constructor
    · refine List.filter_congr fun e he => ?_
      simp [hiff he]
    · refine List.countP_congr fun e he => ?_
      simpa using hiff he

/-- A task that runs an execution which was forgotten before, while the one that ran it first is there. -/
def takenUpAgain : Registry :=
  let first := Task.start ⟨"t1"⟩ "users" ∅ ⟨"e1"⟩ ⟨0, 0⟩
  let second := Task.start ⟨"t2"⟩ "users" ∅ ⟨"e1"⟩ ⟨1, 0⟩
  let seen := (((∅ : Registry).create first).1.settle ⟨"t1"⟩ ⟨0, 0⟩ .cancelled).mark ⟨"t1"⟩ true
  (seen.collectGarbage.1.create second).1

theorem reachable_takenUpAgain : Reachable takenUpAgain := by
  refine .step ?_ (.create _ _)
  refine .step ?_ (.forget _ _)
  refine .step ?_ (.mark _ _ _)
  refine .step ?_ (.settle _ _ _ _)
  exact .step .empty (.create _ _)

/-- There the entry of a running task is taken away: it is not meant to leave, and none is left. -/
theorem collectGarbage_takenUpAgain :
    ¬ (takenUpAgain.collectGarbage.1.correlator.entries.entries =
          takenUpAgain.correlator.entries.entries.filter (fun e => !takenUpAgain.mayForget e.2) ∧
        takenUpAgain.collectGarbage.2 =
          takenUpAgain.correlator.entries.entries.countP fun e => takenUpAgain.mayForget e.2) :=
  fun h => reachable_takenUpAgain.collectGarbage_iff.mp h
    ⟨⟨"e1"⟩, ⟨"t2"⟩, ⟨"t1"⟩, _, rfl, rfl, rfl, rfl, rfl⟩

/-- So collecting garbage can cut a running task off from its execution. -/
theorem collectGarbage_forgets_running :
    ∃ r execution id t, Reachable r ∧ r.correlator.taskFor? execution = some id ∧
      r.task? id = some t ∧ t.isFinished = false ∧
        r.collectGarbage.1.correlator.taskFor? execution = none :=
  ⟨takenUpAgain, ⟨"e1"⟩, ⟨"t2"⟩, _, reachable_takenUpAgain, rfl, rfl, rfl, rfl⟩

/-- No execution is shared where every task runs one of its own. -/
theorem Consistent.not_isShared (h : r.Consistent)
    (hown : ∀ id id' c c', r.cell? id = some c → r.cell? id' = some c' →
      c.task.execution = c'.task.execution → id = id') : ¬ r.IsShared := by
  rintro ⟨execution, id, other, cell, hentry, hforget, hcell, hreleasable, hexecution⟩
  obtain ⟨c, hc, hce⟩ := h.correlated execution id hentry
  obtain rfl := hown id other c cell hc hcell (hce.trans hexecution.symm)
  rw [mayForget, hcell, Option.any_some, hreleasable] at hforget
  cases hforget

end Registry

end SchemaQuery
