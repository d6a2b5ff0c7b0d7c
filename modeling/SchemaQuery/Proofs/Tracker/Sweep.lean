import SchemaQuery.Proofs.Tracker.Linearization

/-!
A sweep polls the tasks that have become too old. It lists the tasks in an order of its own, passes over
those that have ended or are young, ignores what goes wrong, and marks nothing as seen; a poll looks at one
task, whatever its age, and marks its end. But both look a task up at the engine in the same way, which
concerns no other task. So while the clock stands still and the engine has one answer for each execution,
a sweep leaves every record as polling each task that is too old would, in whatever order.
-/

namespace SchemaQuery

/-! ### Changes of tasks -/

/-- The change of one task, under its id. -/
def Task.changeAt (id : TaskId) (f : Task → Task) (k : TaskId) (task : Task) : Task :=
  if id = k then f task else task

/-- Nothing has changed in a registry but the tasks: the one under each id as `f` says. -/
structure Registry.Renews (r : Registry) (f : TaskId → Task → Task) (r' : Registry) : Prop where
  cell : ∀ id, r'.cell? id = (r.cell? id).map fun c => { c with task := f id c.task }
  ids : r'.ids = r.ids
  correlator : r'.correlator = r.correlator
  reserved : r'.reserved = r.reserved

namespace Registry

variable {r r₁ r₂ : Registry} {f g : TaskId → Task → Task}

namespace Renews

/-- What a change says of tasks that are not there does not matter. -/
theorem congr (h : r.Renews f r₁) (hfg : ∀ id task, r.task? id = some task → f id task = g id task) :
    r.Renews g r₁ where
  cell id := by
    rw [h.cell]
    cases hc : r.cell? id with
    | none => rfl
    | some c => simp only [Option.map_some, hfg id c.task (task?_eq_some_iff.mpr ⟨c, hc, rfl⟩)]
  ids := h.ids
  correlator := h.correlator
  reserved := h.reserved

theorem refl (r : Registry) : r.Renews (fun _ task => task) r :=
  ⟨fun id => (congrFun Option.map_id (r.cell? id)).symm, rfl, rfl, rfl⟩

theorem trans (h : r.Renews f r₁) (h' : r₁.Renews g r₂) :
    r.Renews (fun id task => g id (f id task)) r₂ where
  cell id := by
    rw [h'.cell, h.cell, Option.map_map]
    rfl
  ids := h'.ids.trans h.ids
  correlator := h'.correlator.trans h.correlator
  reserved := h'.reserved.trans h.reserved

theorem task? (h : r.Renews f r₁) (id : TaskId) : r₁.task? id = (r.task? id).map (f id) := by
  rw [Registry.task?, Registry.task?, h.cell, Option.map_map, Option.map_map]
  rfl

variable {id : TaskId} {task : Task} {f g : Task → Task}

theorem changeAt_congr (h : r.Renews (Task.changeAt id f) r₁) (htask : r.task? id = some task)
    (hfg : f task = g task) : r.Renews (Task.changeAt id g) r₁ := by
  refine h.congr fun k task' hk => ?_
  unfold Task.changeAt
  split
  · next hid =>
    rw [← hid, htask] at hk
    cases hk
    exact hfg
  · rfl

theorem of_fixed (h : ∀ task, r.task? id = some task → f task = task) :
    r.Renews (Task.changeAt id f) r := by
  refine (refl r).congr fun k task hk => ?_
  unfold Task.changeAt
  split
  · next hid => exact (h task (hid ▸ hk)).symm
  · rfl

end Renews

@[simp] theorem ids_mark (r : Registry) (id : TaskId) (observed : Bool) :
    (r.mark id observed).ids = r.ids := by
  simp [mark, ids, Keyed.keys, Keyed.modify, Function.comp_def]

@[simp] theorem ids_settle (r : Registry) (id : TaskId) (now : Instant) (outcome : Outcome) :
    (r.settle id now outcome).ids = r.ids := by
  simp [settle, ids, Keyed.keys, Keyed.modify, Function.comp_def]

theorem renews_settle (r : Registry) (id : TaskId) (now : Instant) (outcome : Outcome) :
    r.Renews (Task.changeAt id fun task => task.settle now outcome) (r.settle id now outcome) where
  cell k := by
    rw [cell?_settle]
    unfold Task.changeAt
    split
    · rfl
    · exact (congrFun Option.map_id (r.cell? k)).symm
  ids := r.ids_settle id now outcome
  correlator := rfl
  reserved := rfl

end Registry

namespace Tracker

variable (t : Tracker) (around : Surroundings)

/-! ### What a look at the engine makes of a task -/

/-- A task to which a report is applied. -/
def applied (report : ExecutionState) (task : Task) : Task :=
  match task.judge report with
  | .missing | .unchanged _ => task
  | .ends outcome => task.settle around.now outcome
  | .fetches _ =>
    task.settle around.now (t.outcomeOfFetch task.field (around.fetch task.execution))

/-- The report that is applied to a task once the engine has answered, where the task may have reached
the greatest age; none if the engine failed and the task is young. -/
def concluded : Except Error ExecutionState → Option Span → Except Error ExecutionState
  | .ok .running, some maxAge => .ok (expiry maxAge)
  | .ok state, _ => .ok state
  | .error _, some maxAge => .ok (expiry maxAge)
  | .error e, none => .error e

/-- A task that is looked up at the engine. -/
def checked (task : Task) : Task :=
  match concluded (around.state task.execution) (t.expired? task around.now) with
  | .ok report => t.applied around report task
  | .error _ => task

/-- Whether a sweep looks a task up: it runs and has reached the greatest age. -/
def isOverdue (task : Task) : Bool := !task.isFinished && (t.expired? task around.now).isSome

/-- The tasks that a sweep looks up. -/
def overdue (r : Registry) : List TaskId :=
  r.ids.filter fun id => (r.task? id).any (t.isOverdue around)

/-- A task that a sweep has come by. -/
def swept (task : Task) : Task := if t.isOverdue around task then t.checked around task else task

/-- A task that a poll has looked at. -/
def polled (task : Task) : Task := if task.isFinished then task else t.checked around task

theorem swept_eq_polled {task : Task} (h : t.isOverdue around task = true) :
    t.swept around task = t.polled around task := by
  have hrunning : task.isFinished = false := by simpa using (Bool.and_eq_true_iff.mp h).1
  rw [swept, polled, if_pos h, hrunning]
  rfl

/-! ### Calls, request by request -/

variable (id : TaskId)

theorem refresh_eq (task : Task) : t.refresh id task =
    .ask (.state task.execution) fun answer => .ask .clock fun now =>
      match concluded answer (t.expired? task now) with
      | .ok report => converge id report
      | .error e => .done (.error e) := by
  refine congrArg (Call.ask (.state task.execution)) (funext fun answer => ?_)
  refine congrArg (Call.ask .clock) (funext fun now => ?_)
  dsimp only [Call.bind]
  cases answer with
  | error e => cases t.expired? task now <;> rfl
  | ok state => cases state <;> cases t.expired? task now <;> rfl

theorem poll_eq : t.poll id = .ask (.cell id) fun
    | none => .done (.error (.notFound id))
    | some cell =>
      if cell.task.isFinished then present id cell.task
      else t.refresh id cell.task >>= fun
        | .error e => .done (.error e)
        | .ok task => present id task := rfl

/-- What a sweep counts of the answer to looking a task up. -/
def isTimeout : Except Error Task → Bool
  | .ok task => task.timedOut
  | .error _ => false

theorem sweepOne_eq : t.sweepOne id = .ask (.cell id) fun
    | none => .done false
    | some cell =>
      if cell.task.isFinished then .done false
      else .ask .clock fun now =>
        match t.expired? cell.task now with
        | none => .done false
        | some _ => t.refresh id cell.task >>= fun result => .done (isTimeout result) := by
  refine congrArg (Call.ask (.cell id)) (funext fun cell => ?_)
  dsimp only [Call.bind]
  cases cell with
  | none => rfl
  | some cell =>
    dsimp only
    split
    · rfl
    · refine congrArg (Call.ask .clock) (funext fun now => ?_)
      dsimp only [Call.bind]
      cases t.expired? cell.task now with
      | none => rfl
      | some maxAge =>
        refine congrArg (t.refresh id cell.task >>= ·) (funext fun result => ?_)
        cases result <;> rfl

/-! ### One task -/

variable (r : Registry)

/-- Applying a report to a task concerns this task alone, and is answered with it. -/
theorem serve_applied (report : ExecutionState) :
    ∃ r', t.serve around r (.converge id report) = (r', r'.known id) ∧
      r.Renews (Task.changeAt id (t.applied around report)) r' := by
  rcases judge_cases r id report with ⟨htask, hjudge⟩ | ⟨task, htask, hcases⟩
  · refine ⟨r, by rw [serve, hjudge, Registry.known, htask], .of_fixed fun task htask' => ?_⟩
    rw [htask] at htask'
    cases htask'
  · have hown : r.judge id report = task.judge report := by rw [Registry.judge, htask]
    rw [hown] at hcases
    rw [serve, hown]
    rcases hcases with hjudge | ⟨-, ⟨outcome, hjudge⟩ | ⟨-, hjudge⟩⟩
    · refine ⟨r, by rw [hjudge, Registry.known_eq_ok_iff.mpr htask], ?_⟩
      have hsame : r.Renews (Task.changeAt id fun task => task) r := .of_fixed fun _ _ => rfl
      exact hsame.changeAt_congr htask (by rw [applied, hjudge])
    · refine ⟨_, by rw [hjudge]; rfl, ?_⟩
      exact (r.renews_settle id ..).changeAt_congr htask (by rw [applied, hjudge])
    · refine ⟨_, by rw [hjudge]; rfl, ?_⟩
      exact (r.renews_settle id ..).changeAt_congr htask (by rw [applied, hjudge])

/-- Looking a task up concerns this task alone. -/
theorem renews_refresh {task : Task} (htask : r.task? id = some task) :
    r.Renews (Task.changeAt id (t.checked around)) (t.run around r (t.refresh id task)).1 := by
  rw [refresh_eq]
  change r.Renews _ (t.run around r
    (match concluded (around.state task.execution) (t.expired? task around.now) with
      | .ok report => converge id report
      | .error e => .done (.error e))).1
  cases hreport : concluded (around.state task.execution) (t.expired? task around.now) with
  | ok report =>
    obtain ⟨r', hserve, hrenews⟩ := t.serve_applied around id r report
    change r.Renews _ (t.serve around r (.converge id report)).1
    rw [hserve]
    exact hrenews.changeAt_congr htask (by rw [checked, hreport])
  | error e =>
    have hsame : r.Renews (Task.changeAt id fun task => task) r := .of_fixed fun _ _ => rfl
    exact hsame.changeAt_congr htask (by rw [checked, hreport])

/-- A sweep that comes by a task looks it up if it is too old, and leaves it as it is otherwise. -/
theorem renews_sweepOne :
    r.Renews (Task.changeAt id (t.swept around)) (t.run around r (t.sweepOne id)).1 := by
  rw [sweepOne_eq, run, serve]
  cases hcell : r.cell? id with
  | none =>
    refine .of_fixed fun task htask => ?_
    rw [Registry.task?, hcell] at htask
    cases htask
  | some cell =>
    have htask : r.task? id = some cell.task := Registry.task?_eq_some_iff.mpr ⟨cell, hcell, rfl⟩
    have hleft (h : t.isOverdue around cell.task = false) :
        r.Renews (Task.changeAt id (t.swept around)) r := by
      refine .of_fixed fun task htask' => ?_
      rw [htask] at htask'
      cases htask'
      rw [swept, h]
      rfl
    dsimp only
    cases hfinished : cell.task.isFinished with
    | true => exact hleft (by rw [isOverdue, hfinished]; rfl)
    | false =>
      rw [if_neg Bool.false_ne_true, run, serve]
      dsimp only
      cases hage : t.expired? cell.task around.now with
      | none => exact hleft (by rw [isOverdue, hage, hfinished]; rfl)
      | some maxAge =>
        have hoverdue : t.isOverdue around cell.task = true := by rw [isOverdue, hage, hfinished]; rfl
        dsimp only
        rw [run_bind]
        exact (t.renews_refresh around id r htask).changeAt_congr htask
          (by rw [swept, if_pos hoverdue])

/-- What a poll makes of the tasks: it looks its task up if that is running, and leaves all others. -/
theorem tasks_poll :
    (∀ k, (t.run around r (t.poll id)).1.task? k =
      (r.task? k).map (Task.changeAt id (t.polled around) k)) ∧
      (t.run around r (t.poll id)).1.ids = r.ids := by
  have hpresent (task : Task) (r' : Registry) :
      (∀ k, (t.run around r' (present id task)).1.task? k = r'.task? k) ∧
        (t.run around r' (present id task)).1.ids = r'.ids := by
    unfold present
    cases task.isFinished with
    | true => exact ⟨fun k => r'.task?_mark id k true, r'.ids_mark id true⟩
    | false => exact ⟨fun _ => rfl, rfl⟩
  have hends {r' r'' : Registry} (h : r.Renews (Task.changeAt id (t.polled around)) r')
      (h' : (∀ k, r''.task? k = r'.task? k) ∧ r''.ids = r'.ids) :
      (∀ k, r''.task? k = (r.task? k).map (Task.changeAt id (t.polled around) k)) ∧
        r''.ids = r.ids :=
    ⟨fun k => (h'.1 k).trans (h.task? k), h'.2.trans h.ids⟩
  rw [poll_eq, run, serve]
  cases hcell : r.cell? id with
  | none =>
    refine hends (.of_fixed fun task htask => ?_) ⟨fun _ => rfl, rfl⟩
    rw [Registry.task?, hcell] at htask
    cases htask
  | some cell =>
    have htask : r.task? id = some cell.task := Registry.task?_eq_some_iff.mpr ⟨cell, hcell, rfl⟩
    dsimp only
    cases hfinished : cell.task.isFinished with
    | true =>
      refine hends (.of_fixed fun task htask' => ?_) (hpresent cell.task r)
      rw [htask] at htask'
      cases htask'
      rw [polled, if_pos hfinished]
    | false =>
      rw [if_neg Bool.false_ne_true, run_bind]
      have hrenews := (t.renews_refresh around id r htask).changeAt_congr (g := t.polled around) htask
        (by rw [polled, hfinished]; rfl)
      cases (t.run around r (t.refresh id cell.task)).2 with
      | error e => exact hends hrenews ⟨fun _ => rfl, rfl⟩
      | ok task => exact hends hrenews (hpresent task _)

/-! ### All tasks -/

/-- The change of the tasks under some ids. -/
def changeAmong (ids : List TaskId) (f : Task → Task) (k : TaskId) (task : Task) : Task :=
  if k ∈ ids then f task else task

/-- A task that is changed before the others is not changed again. -/
theorem changeAmong_cons {id : TaskId} {ids : List TaskId} (hid : id ∉ ids) (f : Task → Task)
    (k : TaskId) (task : Task) :
    changeAmong ids f k (Task.changeAt id f k task) = changeAmong (id :: ids) f k task := by
  unfold changeAmong Task.changeAt
  by_cases hk : id = k
  · subst hk
    simp [hid]
  · simp [hk, Ne.symm hk]

/-- A sweep that comes by some tasks, each once, looks up those among them that are too old. -/
theorem renews_sweepEach {ids : List TaskId} (hnodup : ids.Nodup) (r : Registry) :
    r.Renews (changeAmong ids (t.swept around)) (t.run around r (t.sweepEach ids)).1 := by
  induction ids generalizing r with
  | nil => exact (Registry.Renews.refl r).congr fun _ _ _ => (if_neg List.not_mem_nil).symm
  | cons id ids ih =>
    obtain ⟨hid, hnodup⟩ := List.nodup_cons.mp hnodup
    have h := (t.renews_sweepOne around id r).trans (ih hnodup _)
    rw [sweepEach, run_bind, run_bind]
    exact h.congr fun k task _ => changeAmong_cons hid _ k task

/-- Polls of some tasks, each once, look up those among them that run. -/
theorem tasks_polls {ids : List TaskId} (hnodup : ids.Nodup) (r : Registry) :
    (∀ k, (t.run around r (Call.inTurn (ids.map t.poll))).1.task? k =
      (r.task? k).map (changeAmong ids (t.polled around) k)) ∧
      (t.run around r (Call.inTurn (ids.map t.poll))).1.ids = r.ids := by
  induction ids generalizing r with
  | nil =>
    refine ⟨fun k => ?_, rfl⟩
    have hid : changeAmong [] (t.polled around) k = id := funext fun task => if_neg List.not_mem_nil
    rw [hid, Option.map_id]
    rfl
  | cons id ids ih =>
    obtain ⟨hid, hnodup⟩ := List.nodup_cons.mp hnodup
    obtain ⟨htask, hids⟩ := t.tasks_poll around id r
    obtain ⟨htasks, hids'⟩ := ih hnodup (t.run around r (t.poll id)).1
    rw [List.map_cons, Call.inTurn, run_bind, run_bind]
    refine ⟨fun k => ?_, hids'.trans hids⟩
    refine (htasks k).trans ?_
    rw [htask, Option.map_map]
    exact congrArg (fun f => (r.task? k).map f) (funext (changeAmong_cons hid _ k))

/-- A sweep is polling of the tasks that run and have reached the greatest age. While the clock stands
still and the engine has one answer for each execution, it leaves every record as polling each such task
once does, in whatever order the registry lists its tasks and in whatever order they are polled. A task
that has ended or is young stays as it is, and so do all marks of ends that were seen, the executions that
belong to tasks, and the reserved ids. Without a greatest age nothing changes, and nothing is counted. -/
theorem sweep_polls_overdue (r : Registry) (horder : (around.order r.ids).Perm r.ids)
    {ids : List TaskId} (hids : ids.Perm (t.overdue around r)) :
    (∀ id, (t.run around r t.sweepExpired).1.task? id =
      (t.run around r (Call.inTurn (ids.map t.poll))).1.task? id) ∧
      (t.run around r t.sweepExpired).1.ids = (t.run around r (Call.inTurn (ids.map t.poll))).1.ids ∧
      (∀ id c, r.cell? id = some c → ∃ c', (t.run around r t.sweepExpired).1.cell? id = some c' ∧
        c'.observed = c.observed ∧ (t.isOverdue around c.task = false → c' = c)) ∧
      (t.run around r t.sweepExpired).1.correlator = r.correlator ∧
      (t.run around r t.sweepExpired).1.reserved = r.reserved ∧
      (t.config.maxAge = none → t.run around r t.sweepExpired = (r, 0)) := by
  have hnone (h : t.config.maxAge = none) : t.run around r t.sweepExpired = (r, 0) := by
    rw [sweepExpired, h]
    rfl
  have hmem {id : TaskId} {task : Task} (htask : r.task? id = some task) : id ∈ r.ids := by
    obtain ⟨c, hc, -⟩ := Registry.task?_eq_some_iff.mp htask
    exact Keyed.contains_iff.mp (Option.isSome_iff_exists.mpr ⟨c, hc⟩)
  -- Every task is listed, so a sweep comes by every task.
  have hswept : r.Renews (fun _ => t.swept around) (t.run around r t.sweepExpired).1 := by
    cases hage : t.config.maxAge with
    | none =>
      rw [hnone hage]
      refine (Registry.Renews.refl r).congr fun id task _ => ?_
      rw [swept, isOverdue, expired?, hage, Option.filter_none]
      simp
    | some maxAge =>
      have hlisted : (around.order r.ids).Nodup := horder.nodup_iff.mpr r.cells.nodup
      have hrun : t.run around r t.sweepExpired =
          t.run around r (t.sweepEach (around.order r.ids)) := by
        rw [sweepExpired, hage]
        rfl
      rw [hrun]
      refine (t.renews_sweepEach around hlisted r).congr fun id task htask => if_pos ?_
      exact horder.mem_iff.mpr (hmem htask)
  have hnodup : ids.Nodup :=
    hids.nodup_iff.mpr (List.Nodup.sublist List.filter_sublist r.cells.nodup)
  obtain ⟨htasks, hsame⟩ := t.tasks_polls around hnodup r
  refine ⟨fun id => ?_, hswept.ids.trans hsame.symm, fun id c hc => ?_, hswept.correlator,
    hswept.reserved, hnone⟩
  · rw [hswept.task?, htasks]
    cases htask : r.task? id with
    | none => rfl
    | some task =>
      refine congrArg some ?_
      have hiff : id ∈ ids ↔ t.isOverdue around task = true := by
        rw [hids.mem_iff, overdue, List.mem_filter, htask]
        exact and_iff_right (hmem htask)
      unfold changeAmong
      by_cases hid : id ∈ ids
      · rw [if_pos hid, swept_eq_polled t around (hiff.mp hid)]
      · rw [if_neg hid, swept, if_neg (mt hiff.mpr hid)]
  · refine ⟨{ c with task := t.swept around c.task }, by rw [hswept.cell, hc]; rfl, rfl,
      fun hyoung => ?_⟩
    rw [swept, hyoung]
    rfl

/-- Two tasks that started a while ago, and one that has just started. -/
def threeTasks : Registry :=
  ((oneTask.create (.start ⟨"t2"⟩ "users" ∅ ⟨"e2"⟩ ⟨50, 0⟩)).1.create
    (.start ⟨"t3"⟩ "users" ∅ ⟨"e3"⟩ ⟨150, 0⟩)).1

/-- Two minutes and more after the first two tasks started, all executions run but the second one, which
has succeeded; the tasks are listed from the last to the first. -/
def mostStillRun : Surroundings :=
  { noRows with
    now := ⟨200, 0⟩
    order := List.reverse
    state := fun execution => .ok (if execution = ⟨"e2"⟩ then .succeeded else .running) }

/-- A task that may run for two minutes. -/
def twoMinutes : Tracker := .plain ⟨some 120, 60, 30⟩

/-- The first task becomes too old and the second one succeeds, as polls of the two in the other order
leave them; the third one is young. -/
theorem sweep_polls_overdue_twoOfThree :
    twoMinutes.overdue mostStillRun threeTasks = [⟨"t1"⟩, ⟨"t2"⟩] ∧
      (∀ id, (twoMinutes.run mostStillRun threeTasks twoMinutes.sweepExpired).1.task? id =
        (twoMinutes.run mostStillRun threeTasks
          (Call.inTurn ([⟨"t1"⟩, ⟨"t2"⟩].map twoMinutes.poll))).1.task? id) ∧
      ((twoMinutes.run mostStillRun threeTasks twoMinutes.sweepExpired).1.task? ⟨"t1"⟩).map
        Task.timedOut = some true ∧
      ((twoMinutes.run mostStillRun threeTasks twoMinutes.sweepExpired).1.task? ⟨"t2"⟩).map
        Task.status = some .succeeded ∧
      (twoMinutes.run mostStillRun threeTasks twoMinutes.sweepExpired).1.cell? ⟨"t3"⟩ =
        threeTasks.cell? ⟨"t3"⟩ := by
  have hoverdue : twoMinutes.overdue mostStillRun threeTasks = [⟨"t1"⟩, ⟨"t2"⟩] := by rfl
  obtain ⟨htasks, -, -, -⟩ := sweep_polls_overdue twoMinutes mostStillRun threeTasks
    (List.reverse_perm _) (show List.Perm [⟨"t1"⟩, ⟨"t2"⟩] _ from hoverdue ▸ .refl _)
  exact ⟨hoverdue, htasks, rfl, rfl, rfl⟩

end Tracker

end SchemaQuery
