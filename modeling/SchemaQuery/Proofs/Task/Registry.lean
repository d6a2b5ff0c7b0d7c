import SchemaQuery.Proofs.Collection.Keyed
import SchemaQuery.Proofs.Task.Lifecycle
import SchemaQuery.Task.Registry

/-!
What the steps of a registry can do. No step takes a task away, and a task changes as tasks change, once
at most. The parts of a registry agree with each other after every step: a task stands under its own id,
an execution belongs to a task that runs it, and a reserved id is the id of no task.
-/

namespace SchemaQuery

/-! ### What is known of an execution -/

namespace Correlator

theorem taskFor?_eq_some_iff {c : Correlator} {execution : ExecutionId} {id : TaskId} :
    c.taskFor? execution = some id ↔ (execution, id) ∈ c.entries.entries :=
  Keyed.get?_eq_some_iff

@[simp] theorem taskFor?_insert (c : Correlator) (execution e : ExecutionId) (id : TaskId) :
    (c.insert execution id).1.taskFor? e =
      (c.taskFor? e).or (if execution = e then some id else none) :=
  Keyed.get?_add c.entries execution e id

@[simp] theorem taskFor?_remove (c : Correlator) (execution e : ExecutionId) :
    (c.remove execution).1.taskFor? e = if execution = e then none else c.taskFor? e :=
  Keyed.get?_erase c.entries execution e

end Correlator

namespace Registry

variable {r r' : Registry}

/-! ### What each step does to the tasks -/

theorem task?_eq_some_iff {id : TaskId} {t : Task} :
    r.task? id = some t ↔ ∃ c, r.cell? id = some c ∧ c.task = t :=
  Option.map_eq_some_iff

@[simp] theorem cells_reserve (r : Registry) (id : TaskId) : (r.reserve id).1.cells = r.cells := by
  unfold reserve
  split <;> rfl

@[simp] theorem correlator_reserve (r : Registry) (id : TaskId) :
    (r.reserve id).1.correlator = r.correlator := by
  unfold reserve
  split <;> rfl

/-- A reserved id is one that was reserved before, or a new one that no task has. -/
theorem mem_reserved_reserve {id k : TaskId} (h : k ∈ (r.reserve id).1.reserved) :
    k ∈ r.reserved ∨ r.cell? k = none := by
  unfold reserve at h
  split at h
  · exact .inl h
  · next hfree =>
    rcases List.mem_cons.mp h with rfl | h
    · exact .inr (Keyed.get?_eq_none_of_not_contains fun hc => hfree (.inl hc))
    · exact .inl h

/-- An id is refused where a task has it or it is reserved, and is reserved elsewhere. -/
theorem reserve_cases (r : Registry) (id : TaskId) :
    r.reserve id = (r, .error (.taskExists id)) ∨ r.cell? id = none ∧ id ∉ r.reserved ∧
      r.reserve id = ({ r with reserved := id :: r.reserved }, .ok ()) := by
  unfold reserve
  split
  · exact .inl rfl
  · next hfree =>
    obtain ⟨hid, hreserved⟩ := not_or.mp hfree
    exact .inr ⟨Keyed.get?_eq_none_of_not_contains hid, hreserved, rfl⟩

/-- A task is refused, or it is new and so is its execution. -/
theorem create_cases (r : Registry) (t : Task) :
    (∃ e, r.create t = (r.release t.id, .error e)) ∨
      r.cell? t.id = none ∧ r.correlator.taskFor? t.execution = none ∧
        r.create t = (⟨r.cells.add t.id ⟨t, false⟩, (r.correlator.insert t.execution t.id).1,
          (r.release t.id).reserved⟩, .ok ()) := by
  unfold create
  by_cases hid : (r.release t.id).contains t.id = true
  · simp only [if_pos hid]
    exact .inl ⟨_, rfl⟩
  · by_cases hexecution : (r.release t.id).correlator.contains t.execution = true
    · simp only [if_neg hid, if_pos hexecution]
      exact .inl ⟨_, rfl⟩
    · simp only [if_neg hid, if_neg hexecution]
      exact .inr ⟨Keyed.get?_eq_none_of_not_contains hid,
        Keyed.get?_eq_none_of_not_contains hexecution, rfl⟩

/-- Where a task is refused, nothing but a reservation of its id is lost. -/
theorem create_of_error {t : Task} {e : Error} (h : (r.create t).2 = .error e) :
    (r.create t).1 = r.release t.id := by
  rcases r.create_cases t with ⟨e, hr⟩ | ⟨-, -, hr⟩
  · rw [hr]
  · rw [hr] at h
    cases h

theorem create_of_uncorrelated {task : Task}
    (h : r.correlator.taskFor? task.execution = none) : r.create task =
      if r.contains task.id then (r.release task.id, .error (.taskExists task.id))
      else (⟨r.cells.add task.id ⟨task, false⟩, (r.correlator.insert task.execution task.id).1,
        (r.release task.id).reserved⟩, .ok ()) := by
  have hnone : (r.release task.id).correlator.contains task.execution = false := by
    rw [Correlator.contains, Keyed.contains]
    exact Option.isSome_eq_false_iff.mpr (Option.isNone_iff_eq_none.mpr h)
  simp only [create, hnone]
  rfl

/-- A task that is new, and so is its execution, is not refused. -/
theorem create_of_new {t : Task} (hid : r.cell? t.id = none)
    (hexecution : r.correlator.taskFor? t.execution = none) : (r.create t).2 = .ok () := by
  have hnew : ¬ r.contains t.id = true := Keyed.not_contains_of_get?_eq_none hid
  rw [create_of_uncorrelated hexecution, if_neg hnew]

@[simp] theorem cells_forget (r : Registry) (executions : List ExecutionId) :
    (r.forget executions).1.cells = r.cells := by
  induction executions generalizing r with
  | nil => rfl
  | cons execution executions ih => rw [forget, ih]

@[simp] theorem reserved_forget (r : Registry) (executions : List ExecutionId) :
    (r.forget executions).1.reserved = r.reserved := by
  induction executions generalizing r with
  | nil => rfl
  | cons execution executions ih => rw [forget, ih]

/-- Forgetting takes away the entries of the given executions and no others. -/
theorem entries_forget (r : Registry) (executions : List ExecutionId) :
    (r.forget executions).1.correlator.entries.entries =
      r.correlator.entries.entries.filter fun e => e.1 ∉ executions := by
  induction executions generalizing r with
  | nil => exact (List.filter_eq_self.mpr fun e _ => by simp).symm
  | cons execution executions ih =>
    rw [forget, ih, Correlator.remove, Keyed.entries_erase, List.filter_filter]
    refine List.filter_congr fun e _ => ?_
    simp [Bool.and_comm]

/-- After forgetting, an execution belongs to its task unless it was forgotten. -/
theorem taskFor?_forget (r : Registry) (executions : List ExecutionId) (e : ExecutionId) :
    (r.forget executions).1.correlator.taskFor? e =
      if e ∈ executions then none else r.correlator.taskFor? e := by
  induction executions generalizing r with
  | nil => simp [forget]
  | cons execution executions ih =>
    rw [forget, ih, Correlator.taskFor?_remove]
    by_cases h : execution = e
    · simp [h]
    · simp [h, Ne.symm h]

/-- The first execution counts if it belonged to a task. -/
theorem forget_cons_count (r : Registry) (execution : ExecutionId) (executions : List ExecutionId) :
    (r.forget (execution :: executions)).2 =
      (if (r.correlator.taskFor? execution).isSome then 1 else 0) +
        (({ r with correlator := (r.correlator.remove execution).1 } : Registry).forget
          executions).2 := by
  change (if (r.correlator.taskFor? execution).isSome then
    (({ r with correlator := (r.correlator.remove execution).1 } : Registry).forget
      executions).2 + 1 else _) = _
  split
  · exact Nat.add_comm _ _
  · exact (Nat.zero_add _).symm

/-- Each entry that is taken away is counted once, also if its execution is given twice. -/
theorem forget_count (r : Registry) (executions : List ExecutionId) :
    (r.forget executions).2 = r.correlator.entries.entries.countP fun e => e.1 ∈ executions := by
  induction executions generalizing r with
  | nil => exact (List.countP_eq_zero.mpr fun e _ => by simp).symm
  | cons execution executions ih =>
    -- The entries are those of this execution, one at most, and the others.
    have hone : (r.correlator.entries.entries.filter (·.1 = execution)).countP
        (fun e => e.1 ∈ execution :: executions) =
        if (r.correlator.taskFor? execution).isSome then 1 else 0 := by
      refine Eq.trans ?_ (r.correlator.entries.countP_key execution)
      rw [List.countP_filter]
      refine List.countP_congr fun e _ => ?_
      simp +contextual
    have hothers : (r.correlator.entries.entries.filter fun e => !decide (e.1 = execution)).countP
        (fun e => e.1 ∈ execution :: executions) =
        (({ r with correlator := (r.correlator.remove execution).1 } : Registry).forget
          executions).2 := by
      rw [ih, Correlator.remove, Keyed.entries_erase, List.countP_filter, List.countP_filter]
      refine List.countP_congr fun e _ => ?_
      by_cases he : e.1 = execution <;> simp [he]
    rw [List.countP_eq_countP_filter_add _ _ (·.1 = execution), hone, hothers, forget_cons_count]

/-- Once a task is settled, it is the settled task, and every other task is what it was. -/
theorem cell?_settle (r : Registry) (id k : TaskId) (now : Instant) (outcome : Outcome) :
    (r.settle id now outcome).cell? k = if id = k then
      (r.cell? k).map fun c => { c with task := c.task.settle now outcome } else r.cell? k :=
  Keyed.get?_modify r.cells id k _

theorem cell?_mark (r : Registry) (id k : TaskId) (observed : Bool) :
    (r.mark id observed).cell? k = if id = k then
      (r.cell? k).map fun c => { c with observed := observed } else r.cell? k :=
  Keyed.get?_modify r.cells id k _

@[simp] theorem task?_reserve (r : Registry) (id k : TaskId) :
    (r.reserve id).1.task? k = r.task? k := by
  rw [task?, cell?, cells_reserve]
  rfl

@[simp] theorem task?_forget (r : Registry) (executions : List ExecutionId) (k : TaskId) :
    (r.forget executions).1.task? k = r.task? k := by
  rw [task?, cell?, cells_forget]
  rfl

@[simp] theorem task?_mark (r : Registry) (id k : TaskId) (observed : Bool) :
    (r.mark id observed).task? k = r.task? k := by
  rw [task?, task?, cell?_mark]
  split
  · exact Option.map_map ..
  · rfl

theorem task?_settle (r : Registry) (id k : TaskId) (now : Instant) (outcome : Outcome) :
    (r.settle id now outcome).task? k =
      if id = k then (r.task? k).map fun t => t.settle now outcome else r.task? k := by
  rw [task?, task?, cell?_settle]
  split
  · rw [Option.map_map, Option.map_map]
    rfl
  · rfl

theorem task?_create (r : Registry) (t : Task) {k : TaskId} {t' : Task} (h : r.task? k = some t') :
    (r.create t).1.task? k = some t' := by
  obtain ⟨c, hc, rfl⟩ := task?_eq_some_iff.mp h
  refine task?_eq_some_iff.mpr ⟨c, ?_, rfl⟩
  rcases r.create_cases t with ⟨e, hr⟩ | ⟨-, -, hr⟩ <;> rw [hr]
  · exact hc
  · rw [cell?, Keyed.get?_add, ← cell?.eq_def, hc, Option.some_or]

/-- The tasks after one is stored are that one and those before. -/
theorem task?_of_create {task : Task} {id : TaskId} {t : Task} (h : (r.create task).1.task? id = some t) :
    r.task? id = some t ∨ t = task ∧ id = task.id := by
  rcases r.create_cases task with ⟨e, hr⟩ | ⟨-, -, hr⟩ <;> rw [hr] at h
  · exact .inl h
  · obtain ⟨c, hc, rfl⟩ := task?_eq_some_iff.mp h
    rw [cell?, Keyed.get?_add, ← cell?.eq_def, Option.or_eq_some_iff] at hc
    rcases hc with hc | ⟨-, hc⟩
    · exact .inl (task?_eq_some_iff.mpr ⟨c, hc, rfl⟩)
    · split at hc
      · next hid =>
        cases hc
        exact .inr ⟨rfl, hid.symm⟩
      · cases hc

/-! ### Steps -/

/-- A step of a registry. Collecting garbage forgets the executions that need not be known any more; how
many entries leave at a step does not matter to the parts that stay. -/
inductive Step : Registry → Registry → Prop where
  | reserve (r : Registry) (id : TaskId) : Step r (r.reserve id).1
  | release (r : Registry) (id : TaskId) : Step r (r.release id)
  | create (r : Registry) (t : Task) : Step r (r.create t).1
  | settle (r : Registry) (id : TaskId) (now : Instant) (outcome : Outcome) :
    Step r (r.settle id now outcome)
  | mark (r : Registry) (id : TaskId) (observed : Bool) : Step r (r.mark id observed)
  | forget (r : Registry) (executions : List ExecutionId) : Step r (r.forget executions).1

/-- The registries that steps lead to from the one without tasks. -/
inductive Reachable : Registry → Prop where
  | empty : Reachable ∅
  | step {r r' : Registry} : Reachable r → Step r r' → Reachable r'

/-- The second registry is the first one later on: it has all of its tasks, each the same or ended. -/
def Evolves (r r' : Registry) : Prop :=
  ∀ id t, r.task? id = some t → ∃ t', r'.task? id = some t' ∧ t.Advances t'

theorem Evolves.refl (r : Registry) : r.Evolves r := fun _ t h => ⟨t, h, .refl t⟩

theorem Evolves.trans {r₁ r₂ r₃ : Registry} (h : r₁.Evolves r₂) (h' : r₂.Evolves r₃) :
    r₁.Evolves r₃ := by
  intro id t ht
  obtain ⟨t', ht', hadvances⟩ := h id t ht
  obtain ⟨t'', ht'', hadvances'⟩ := h' id t' ht'
  exact ⟨t'', ht'', hadvances.trans hadvances'⟩

/-- A task that has ended is there for ever, as it is. -/
theorem Evolves.task?_of_isFinished (h : r.Evolves r') {id : TaskId} {t : Task}
    (ht : r.task? id = some t) (hfinished : t.isFinished = true) : r'.task? id = some t := by
  obtain ⟨t', ht', hadvances⟩ := h id t ht
  rwa [hadvances.eq_of_isFinished hfinished] at ht'

/-- No step takes a task away or changes one that has ended. -/
theorem Step.evolves (h : Step r r') : r.Evolves r' := by
  intro k t ht
  cases h with
  | reserve id => exact ⟨t, by rwa [task?_reserve], .refl t⟩
  | release id => exact ⟨t, ht, .refl t⟩
  | create task => exact ⟨t, task?_create r task ht, .refl t⟩
  | settle id now outcome =>
    rw [task?_settle, ht]
    split
    · exact ⟨_, rfl, t.advances_settle now outcome⟩
    · exact ⟨t, rfl, .refl t⟩
  | mark id observed => exact ⟨t, by rwa [task?_mark], .refl t⟩
  | forget executions => exact ⟨t, by rwa [task?_forget], .refl t⟩

/-! ### How the parts agree -/

/-- The parts of a registry agree with each other. -/
structure Consistent (r : Registry) : Prop where
  /-- A task stands under its own id. -/
  keyed : ∀ id c, r.cell? id = some c → c.task.id = id
  /-- An execution belongs to a task that runs it. -/
  correlated : ∀ execution id, r.correlator.taskFor? execution = some id →
    ∃ c, r.cell? id = some c ∧ c.task.execution = execution
  /-- A reserved id is the id of no task. -/
  reserved : ∀ id ∈ r.reserved, r.cell? id = none

theorem consistent_empty : Consistent ∅ where
  keyed _ _ h := nomatch h
  correlated _ _ h := nomatch h
  reserved _ h := nomatch h

/-- The parts go on agreeing while tasks change as tasks do, none is new, and known executions and
reserved ids become fewer at most. -/
theorem Consistent.of_evolves (h : r.Consistent) (hevolves : r.Evolves r')
    (hnone : ∀ id, r.cell? id = none → r'.cell? id = none)
    (hcorrelator : ∀ e id, r'.correlator.taskFor? e = some id → r.correlator.taskFor? e = some id)
    (hreserved : ∀ id ∈ r'.reserved, id ∈ r.reserved) : r'.Consistent where
  keyed id c' hc' := by
    cases hc : r.cell? id with
    | none => rw [hnone id hc] at hc'; cases hc'
    | some c =>
      obtain ⟨t', ht', hadvances⟩ := hevolves id c.task (task?_eq_some_iff.mpr ⟨c, hc, rfl⟩)
      obtain rfl : c'.task = t' := by simpa [task?, hc'] using ht'
      rw [hadvances.id_eq, h.keyed id c hc]
  correlated e id he := by
    obtain ⟨c, hc, rfl⟩ := h.correlated e id (hcorrelator e id he)
    obtain ⟨t', ht', hadvances⟩ := hevolves id c.task (task?_eq_some_iff.mpr ⟨c, hc, rfl⟩)
    obtain ⟨c', hc', rfl⟩ := task?_eq_some_iff.mp ht'
    exact ⟨c', hc', hadvances.execution_eq⟩
  reserved id hid := hnone id (h.reserved id (hreserved id hid))

theorem Consistent.create (h : r.Consistent) (t : Task) : (r.create t).1.Consistent := by
  rcases r.create_cases t with ⟨e, hr⟩ | ⟨hnew, hexecution, hr⟩ <;> rw [hr]
  · exact h.of_evolves (Evolves.refl r) (fun _ hk => hk) (fun _ _ he => he)
      fun k hk => (List.mem_filter.mp hk).1
  · have hcell (id : TaskId) : (r.cells.add t.id ⟨t, false⟩).get? id =
        (r.cell? id).or (if t.id = id then some ⟨t, false⟩ else none) := Keyed.get?_add ..
    refine ⟨fun id c hc => ?_, fun e id he => ?_, fun id hid => ?_⟩
    · rw [cell?, hcell, Option.or_eq_some_iff] at hc
      rcases hc with hc | ⟨-, hc⟩
      · exact h.keyed id c hc
      · split at hc
        · next hid => cases hc; exact hid
        · cases hc
    · rw [Correlator.taskFor?_insert, Option.or_eq_some_iff] at he
      rcases he with he | ⟨-, he⟩
      · obtain ⟨c, hc, hce⟩ := h.correlated e id he
        exact ⟨c, by rw [cell?, hcell, hc, Option.some_or], hce⟩
      · split at he
        · next hte =>
          cases he
          exact ⟨⟨t, false⟩, by rw [cell?, hcell, hnew, Option.none_or, if_pos rfl], hte⟩
        · cases he
    · obtain ⟨hreserved, hne⟩ := List.mem_filter.mp hid
      have hne : t.id ≠ id := fun heq => by simp [heq] at hne
      rw [cell?, hcell, h.reserved id hreserved, if_neg hne, Option.or_none]

/-- Every step keeps the parts in agreement. -/
theorem Step.consistent (h : Step r r') (hr : r.Consistent) : r'.Consistent := by
  have hevolves := h.evolves
  cases h with
  | reserve id =>
    refine ⟨fun k c hc => ?_, fun e k he => ?_, fun k hk => ?_⟩
    · rw [cell?, cells_reserve] at hc
      exact hr.keyed k c hc
    · rw [correlator_reserve] at he
      rw [cell?, cells_reserve]
      exact hr.correlated e k he
    · rw [cell?, cells_reserve]
      exact (mem_reserved_reserve hk).elim (hr.reserved k) fun hnone => hnone
  | release id =>
    exact hr.of_evolves hevolves (fun _ hk => hk) (fun _ _ he => he)
      fun k hk => (List.mem_filter.mp hk).1
  | create t => exact hr.create t
  | settle id now outcome =>
    refine hr.of_evolves hevolves (fun k hk => ?_) (fun _ _ he => he) fun _ hk => hk
    rw [cell?_settle, hk, Option.map_none, ite_self]
  | mark id observed =>
    refine hr.of_evolves hevolves (fun k hk => ?_) (fun _ _ he => he) fun _ hk => hk
    rw [cell?_mark, hk, Option.map_none, ite_self]
  | forget executions =>
    refine hr.of_evolves hevolves (fun k hk => ?_) (fun e k he => ?_) fun k hk => ?_
    · rwa [cell?, cells_forget]
    · rw [taskFor?_forget] at he
      split at he
      · cases he
      · exact he
    · rwa [reserved_forget] at hk

/-- In every registry that steps lead to, the parts agree. -/
theorem Reachable.consistent (h : Reachable r) : r.Consistent := by
  induction h with
  | empty => exact consistent_empty
  | step _ hstep ih => exact hstep.consistent ih

end Registry

end SchemaQuery
