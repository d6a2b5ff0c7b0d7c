import SchemaQuery.Proofs.Task.Executions
import SchemaQuery.Proofs.Tracker.Requests
import SchemaQuery.Proofs.Tracker.World

/-!
Two registries that differ in what was forgotten. One has all entries of executions, the other one lacks
entries of tasks that had ended and were seen. Requests that ask for no entry and give no execution are
answered alike on both and keep the difference as it is. A new task is stored on both or refused on both,
because its execution is one that no task has had.
-/

namespace SchemaQuery

/-! ### The difference -/

/-- The first registry is the second one without some entries, of tasks that had ended and were seen in
the old one. -/
structure Registry.Thinned (old x y : Registry) : Prop where
  cells : x.cells = y.cells
  reserved : x.reserved = y.reserved
  entry : ∀ e, x.correlator.taskFor? e = y.correlator.taskFor? e ∨
    x.correlator.taskFor? e = none ∧ ∃ id c, y.correlator.taskFor? e = some id ∧
      old.cell? id = some c ∧ c.isReleasable = true

namespace Registry

variable {old r r' x y x' y' : Registry}

theorem Thinned.refl (old r : Registry) : Thinned old r r := ⟨rfl, rfl, fun _ => .inl rfl⟩

/-- Whatever is done alike to tasks and reservations keeps the difference. -/
theorem Thinned.of_same (h : Thinned old x y) (hcells : x'.cells = y'.cells)
    (hreserved : x'.reserved = y'.reserved) (hx : x'.correlator = x.correlator)
    (hy : y'.correlator = y.correlator) : Thinned old x' y' where
  cells := hcells
  reserved := hreserved
  entry e := by
    rw [hx, hy]
    exact h.entry e

theorem Thinned.cell? (h : Thinned old x y) (id : TaskId) : x.cell? id = y.cell? id := by
  rw [Registry.cell?, h.cells]
  rfl

theorem Thinned.task? (h : Thinned old x y) (id : TaskId) : x.task? id = y.task? id := by
  rw [Registry.task?, h.cell? id]
  rfl

theorem Thinned.judge (h : Thinned old x y) (id : TaskId) (report : ExecutionState) :
    x.judge id report = y.judge id report := by
  rw [Registry.judge, h.task? id]
  rfl

theorem Thinned.settle (h : Thinned old x y) (id : TaskId) (now : Instant) (outcome : Outcome) :
    Thinned old (x.settle id now outcome) (y.settle id now outcome) :=
  h.of_same (by rw [Registry.settle, h.cells, Registry.settle]) h.reserved rfl rfl

/-- A task is ended on both with one answer. -/
theorem Thinned.settleAnswer (h : Thinned old x y) (id : TaskId) (now : Instant)
    (outcome : Outcome) : (x.settleAnswer id now outcome).2 = (y.settleAnswer id now outcome).2 ∧
      Thinned old (x.settleAnswer id now outcome).1 (y.settleAnswer id now outcome).1 := by
  have hsettle := h.settle id now outcome
  refine ⟨?_, hsettle⟩
  rw [Registry.settleAnswer, hsettle.task? id]
  rfl

theorem cell?_settle_of_isReleasable {id k : TaskId} {c : Cell} (hc : r.cell? k = some c)
    (hreleasable : c.isReleasable = true) (now : Instant) (outcome : Outcome) :
    (r.settle id now outcome).cell? k = some c := by
  have hfinished : c.task.isFinished = true := (Bool.and_eq_true_iff.mp hreleasable).2
  rw [cell?_settle, hc]
  split
  · rw [Option.map_some, Task.settle_of_isFinished hfinished]
  · rfl

/-- An ended task that was seen stays as it is when it is seen again. -/
theorem cell?_mark_of_isReleasable {id k : TaskId} {c : Cell} (hc : r.cell? k = some c)
    (hreleasable : c.isReleasable = true) : (r.mark id true).cell? k = some c := by
  obtain ⟨task, observed⟩ := c
  obtain rfl : observed = true := (Bool.and_eq_true_iff.mp hreleasable).1
  rw [cell?_mark, hc]
  split <;> rfl

/-- The second registry is the first one later on: its parts agree, tasks that had ended and were seen are
what they were, and no task is new. -/
structure Retains (r r' : Registry) : Prop where
  consistent : r'.Consistent
  kept : ∀ id c, r.cell? id = some c → c.isReleasable = true → r'.cell? id = some c
  noneNew : r.NoneNew r'

theorem Retains.refl (hr : r.Consistent) : r.Retains r :=
  ⟨hr, fun _ _ hc _ => hc, .of_cells rfl⟩

theorem retains_settle (r : Registry) (hr : r.Consistent) (id : TaskId) (now : Instant)
    (outcome : Outcome) : r.Retains (r.settle id now outcome) := by
  refine ⟨(Step.settle ..).consistent hr, fun k c hc hreleasable => ?_, fun k t' ht' => ?_⟩
  · exact cell?_settle_of_isReleasable hc hreleasable now outcome
  · rw [task?_settle] at ht'
    split at ht'
    · obtain ⟨t, ht, rfl⟩ := Option.map_eq_some_iff.mp ht'
      exact ⟨t, ht, (t.advances_settle now outcome).execution_eq⟩
    · exact ⟨t', ht', rfl⟩

end Registry

/-! ### Requests that are answered alike -/

/-- The request asks for no entry of an execution, and is given no execution. -/
def Request.Plain : Request → Prop
  | .clock | .newId | .ids | .reserve _ | .release _ | .cell _ | .observe _ | .converge _ _
  | .state _ => True
  | .create _ | .lookup _ | .forget _ | .start _ => False

theorem Request.Looks.plain {request : Request} (h : request.Looks) : request.Plain := by
  cases request <;> trivial

namespace Tracker

variable {old r x y : Registry} {request : Request}

/-- A plain request reaches the world from both registries or from none. -/
theorem reachesWorld_eq (h : Registry.Thinned old x y) (request : Request) :
    x.reachesWorld request = y.reachesWorld request := by
  cases request with
  | converge id report =>
    rw [Registry.reachesWorld, h.judge id report]
    rfl
  | _ => rfl

/-- A plain request is answered alike on both registries, and leaves them different as they were. -/
theorem serve_thinned (t : Tracker) (around : Surroundings) (h : Registry.Thinned old x y)
    (hplain : request.Plain) : (t.serve around x request).2 = (t.serve around y request).2 ∧
      Registry.Thinned old (t.serve around x request).1 (t.serve around y request).1 := by
  cases request with
  | clock | newId | state execution => exact ⟨rfl, h⟩
  | ids => exact ⟨by rw [serve, Registry.ids, h.cells]; rfl, h⟩
  | cell id => exact ⟨h.cell? id, h⟩
  | release id =>
    exact ⟨rfl, h.of_same h.cells (by rw [serve, Registry.release, h.reserved]; rfl) rfl rfl⟩
  | observe id =>
    exact ⟨rfl, h.of_same (by rw [serve, Registry.mark, h.cells]; rfl) h.reserved rfl rfl⟩
  | reserve id =>
    have hfree : (x.contains id ∨ id ∈ x.reserved) ↔ (y.contains id ∨ id ∈ y.reserved) := by
      rw [Registry.contains, h.cells, h.reserved]
      rfl
    simp only [serve, Registry.reserve, hfree]
    split
    · exact ⟨rfl, h⟩
    · exact ⟨rfl, h.of_same h.cells (congrArg (id :: ·) h.reserved) rfl rfl⟩
  | converge id report =>
    simp only [serve, h.judge id report]
    cases y.judge id report with
    | missing => exact ⟨rfl, h⟩
    | unchanged task => exact ⟨rfl, h⟩
    | ends outcome => exact h.settleAnswer id _ outcome
    | fetches task => exact h.settleAnswer id _ _
  | create | lookup | forget | start => exact hplain.elim

/-- What a plain request may do to a registry. -/
theorem serve_retains (t : Tracker) (around : Surroundings) (hr : r.Consistent)
    (hplain : request.Plain) : r.Retains (t.serve around r request).1 := by
  cases request with
  | clock | newId | ids | cell id | state execution => exact .refl hr
  | reserve id =>
    have hcells : (r.reserve id).1.cells = r.cells := r.cells_reserve id
    refine ⟨(Registry.Step.reserve r id).consistent hr, fun k c hc _ => ?_, .of_cells hcells⟩
    rw [serve, Registry.cell?, hcells]
    exact hc
  | release id =>
    exact ⟨(Registry.Step.release r id).consistent hr, fun _ _ hc _ => hc, .of_cells rfl⟩
  | observe id =>
    refine ⟨(Registry.Step.mark r id true).consistent hr, fun k c hc hreleasable => ?_,
      fun k task' htask' => ?_⟩
    · exact Registry.cell?_mark_of_isReleasable hc hreleasable
    · rw [serve, Registry.task?_mark] at htask'
      exact ⟨task', htask', rfl⟩
  | converge id report =>
    rw [serve]
    cases r.judge id report with
    | missing => exact .refl hr
    | unchanged task => exact .refl hr
    | ends outcome => exact r.retains_settle hr id _ outcome
    | fetches task => exact r.retains_settle hr id _ _
  | create | lookup | forget | start => exact hplain.elim

end Tracker

/-! ### What is true of the full registry -/

/-- The parts of the registry agree, tasks that had ended and were seen in the old one are what they
were, and an execution is that of one task at most and is never given again. -/
structure World.Steady {σ : Type} (w : World σ) (old : Registry) (s : σ) (r : Registry) : Prop where
  consistent : r.Consistent
  kept : ∀ id c, old.cell? id = some c → c.isReleasable = true → r.cell? id = some c
  own : r.Separate
  repeats : w.NeverRepeats s
  fresh : ∀ requests, ∀ e ∈ w.executions s requests, r.Unused e

namespace World

variable {σ : Type} {w : World σ} {old r r' : Registry} {s : σ}

theorem NeverRepeats.next (h : w.NeverRepeats s) (request : Request) :
    w.NeverRepeats (w.next s request) :=
  fun requests => (List.nodup_append.mp (h (request :: requests))).2.1

theorem NeverRepeats.after (h : w.NeverRepeats s) (r : Registry) (request : Request) :
    w.NeverRepeats (w.after s r request) := by
  unfold World.after
  split
  · exact h.next request
  · exact h

/-- The executions that are given later are among those that can be given now. -/
theorem mem_executions_of_after {r : Registry} {request : Request} {requests : List Request}
    {e : ExecutionId} (he : e ∈ w.executions (w.after s r request) requests) :
    ∃ requests', e ∈ w.executions s requests' := by
  unfold World.after at he
  split at he
  · exact ⟨request :: requests, List.mem_append_right _ he⟩
  · exact ⟨requests, he⟩

/-- A registry that retains what it had is as steady. -/
theorem Steady.of_retains (h : w.Steady old s r) (hr : r.Retains r') (request : Request) :
    w.Steady old (w.after s r request) r' where
  consistent := hr.consistent
  kept id c hc hreleasable := hr.kept id c (h.kept id c hc hreleasable) hreleasable
  own := h.own.of_noneNew hr.noneNew
  repeats := h.repeats.after r request
  fresh requests e he := by
    obtain ⟨requests', he'⟩ := mem_executions_of_after he
    exact (h.fresh requests' e he').of_noneNew hr.noneNew

end World

end SchemaQuery
