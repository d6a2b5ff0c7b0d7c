import SchemaQuery.Proofs.Tracker.Sweep

/-!
What one poll decides. A poll of a running task meets four things outside the registry: what the engine says
of the execution, the time after that, and, should the task end, what fetching its result gives and the time
of its end. These and the greatest age settle what the client is shown and what is recorded. The engine is
not asked about a task that has ended, the age is not looked at where the engine knows an end, and nothing is
recorded where the task runs on or the engine's error is passed on.
-/

namespace SchemaQuery

/-! ### Changes under one id -/

/-- Nothing has changed in a registry but what stands under one id. -/
structure Registry.KeepsOthers (r : Registry) (id : TaskId) (r' : Registry) : Prop where
  cell : ∀ k, k ≠ id → r'.cell? k = r.cell? k
  ids : r'.ids = r.ids
  correlator : r'.correlator = r.correlator
  reserved : r'.reserved = r.reserved

namespace Registry.KeepsOthers

variable {r r' : Registry} {id : TaskId}

theorem refl (r : Registry) (id : TaskId) : r.KeepsOthers id r := ⟨fun _ _ => rfl, rfl, rfl, rfl⟩

theorem mark (h : r.KeepsOthers id r') (observed : Bool) :
    r.KeepsOthers id (r'.mark id observed) where
  cell k hk := by rw [cell?_mark, if_neg (Ne.symm hk), h.cell k hk]
  ids := (r'.ids_mark id observed).trans h.ids
  correlator := h.correlator
  reserved := h.reserved

theorem settle (h : r.KeepsOthers id r') (now : Instant) (outcome : Outcome) :
    r.KeepsOthers id (r'.settle id now outcome) where
  cell k hk := by rw [cell?_settle, if_neg (Ne.symm hk), h.cell k hk]
  ids := (r'.ids_settle id now outcome).trans h.ids
  correlator := h.correlator
  reserved := h.reserved

end Registry.KeepsOthers

/-! ### What a poll meets -/

/-- What a poll of a running task meets outside the registry. -/
structure Met where
  /-- What the engine says of the execution. -/
  answer : Except Error ExecutionState
  /-- The time once the engine has answered, at which the age of the task is taken. -/
  now : Instant
  /-- What fetching the result gives. -/
  fetched : Except Error (List Record)
  /-- The time at which the task ends. -/
  finish : Instant

/-- What a poll of a task meets in a world: the engine is asked, then the clock, and what is done after
that is done in the world that this leaves. -/
def World.met {σ : Type} (w : World σ) (s : σ) (task : Task) : Met :=
  let asked := w.next s (.state task.execution)
  let timed := w.next asked .clock
  ⟨(w.around s).state task.execution, (w.around asked).now,
    (w.around timed).fetch task.execution, (w.around timed).now⟩

namespace Tracker

variable {t : Tracker} {r : Registry} {id : TaskId} {task : Task}

theorem expired?_eq_some_iff {now : Instant} {maxAge : Span} :
    t.expired? task now = some maxAge ↔
      t.config.maxAge = some maxAge ∧ maxAge.toNanos ≤ (task.age now).toNanos := by
  rw [expired?, Option.filter_eq_some_iff, decide_eq_true_iff]

/-- There is no greatest age, or the task is younger. -/
def IsYoung (t : Tracker) (task : Task) (now : Instant) : Prop :=
  ∀ maxAge, t.config.maxAge = some maxAge → (task.age now).toNanos < maxAge.toNanos

theorem expired?_eq_none {now : Instant} (h : t.IsYoung task now) : t.expired? task now = none := by
  refine Option.eq_none_iff_forall_ne_some.mpr fun maxAge hexpired => ?_
  obtain ⟨hmax, hle⟩ := expired?_eq_some_iff.mp hexpired
  exact absurd (h maxAge hmax) (Nat.not_lt.mpr hle)

/-! ### A running task -/

/-- How a running task ends by a report, if it does. -/
def outcome? (t : Tracker) (task : Task) (fetched : Except Error (List Record)) :
    ExecutionState → Option Outcome
  | .running => none
  | .succeeded => some (t.outcomeOfFetch task.field fetched)
  | .failed reason => some (.failed (reason.getD "execution failed"))
  | .cancelled => some .cancelled

/-- A report ends a running task, or leaves it, and is answered with the task. -/
theorem serve_converge_running (around : Surroundings) (htask : r.task? id = some task)
    (hrunning : task.isFinished = false) (report : ExecutionState) :
    t.serve around r (.converge id report) =
      match t.outcome? task (around.fetch task.execution) report with
      | none => (r, .ok task)
      | some outcome => (r.settle id around.now outcome, .ok (task.finish around.now outcome)) := by
  have hsettle (outcome : Outcome) : r.settleAnswer id around.now outcome =
      (r.settle id around.now outcome, .ok (task.finish around.now outcome)) := by
    rw [Registry.settleAnswer, Registry.task?_settle, if_pos rfl, htask, Option.map_some, Task.settle,
      hrunning]
    rfl
  have hjudge : r.judge id report = task.judge report := by rw [Registry.judge, htask]
  rw [serve, hjudge]
  unfold Task.judge
  rw [hrunning, if_neg Bool.false_ne_true]
  cases report with
  | running => rfl
  | succeeded | failed reason | cancelled => exact hsettle _

/-- What a poll leaves and answers where a running task ends. -/
def ended (r : Registry) (id : TaskId) (m : Met) (outcome : Outcome) (view : StatusView) :
    Registry × Except Error StatusView :=
  ((r.settle id m.finish outcome).mark id true, .ok view)

/-- What a poll of a running task leaves and answers, by what it meets. -/
def decided (t : Tracker) (r : Registry) (id : TaskId) (task : Task) (m : Met) :
    Registry × Except Error StatusView :=
  match concluded m.answer (t.expired? task m.now) with
  | .error e => (r, .error e)
  | .ok report =>
    match t.outcome? task m.fetched report with
    | none => (r, .ok task.view)
    | some outcome => ended r id m outcome (task.finish m.finish outcome).view

section Runs

variable {σ : Type} (w : World σ) (s : σ) {c : Cell}

theorem runIn_present (t : Tracker) (r : Registry) (id : TaskId) (task : Task) :
    t.runIn w s r (present id task) =
      (s, if task.isFinished then r.mark id true else r, .ok task.view) := by
  unfold present
  cases task.isFinished <;> rfl

theorem runIn_poll_unknown (hcell : r.cell? id = none) :
    t.runIn w s r (t.poll id) = (s, r, .error (.notFound id)) := by
  rw [poll_eq, runIn_ask, serve, hcell]
  rfl

theorem runIn_poll_finished (hcell : r.cell? id = some c) (hfinished : c.task.isFinished = true) :
    t.runIn w s r (t.poll id) = (s, r.mark id true, .ok c.task.view) := by
  rw [poll_eq, runIn_ask, serve, hcell]
  dsimp only
  rw [if_pos hfinished, runIn_present, if_pos hfinished]
  rfl

/-- Applying a report to a running task and presenting what it is then. -/
theorem runIn_apply (htask : r.task? id = some task) (hrunning : task.isFinished = false)
    (report : ExecutionState) :
    (t.runIn w s r (converge id report >>= fun
      | .error e => .done (.error e)
      | .ok task => present id task)).2 =
      match t.outcome? task ((w.around s).fetch task.execution) report with
      | none => (r, .ok task.view)
      | some outcome => ((r.settle id (w.around s).now outcome).mark id true,
          .ok (task.finish (w.around s).now outcome).view) := by
  rw [converge, Call.bind_request, runIn_ask, serve_converge_running _ htask hrunning]
  cases t.outcome? task ((w.around s).fetch task.execution) report with
  | none =>
    dsimp only
    rw [runIn_present, hrunning, if_neg Bool.false_ne_true]
  | some outcome =>
    dsimp only
    rw [runIn_present, Task.isFinished_finish, if_pos rfl]

/-- A poll of a running task decides by what it meets. -/
theorem runIn_poll_running (hcell : r.cell? id = some c) (hrunning : c.task.isFinished = false) :
    (t.runIn w s r (t.poll id)).2 = t.decided r id c.task (w.met s c.task) := by
  have htask : r.task? id = some c.task := Registry.task?_eq_some_iff.mpr ⟨c, hcell, rfl⟩
  rw [poll_eq, runIn_ask, serve, hcell]
  dsimp only
  rw [hrunning, if_neg Bool.false_ne_true, refresh_eq, Call.bind_ask, runIn_ask, serve, Call.bind_ask,
    runIn_ask, serve]
  -- The world has gone on twice, and nothing else has happened.
  have hcellAsked : w.after s r (.cell id) = s := rfl
  have hasked : w.after s r (.state c.task.execution) = w.next s (.state c.task.execution) := rfl
  rw [hcellAsked, hasked, decided, World.met]
  dsimp only
  cases concluded ((w.around s).state c.task.execution)
      (t.expired? c.task (w.around (w.next s (.state c.task.execution))).now) with
  | error e => rfl
  | ok report => exact runIn_apply w _ htask hrunning report

end Runs

/-! ### The decision -/

/-- The text of the error of a task that became too old. -/
def expiryText (maxAge : Span) : String :=
  Task.timeoutMark ++ ": no terminal status within " ++ String.ofList (Decimal.digits maxAge.seconds) ++ "s"

/-- What a poll leaves and answers where a running task fails. -/
def failedAs (r : Registry) (id : TaskId) (task : Task) (m : Met) (text : String) :
    Registry × Except Error StatusView :=
  ended r id m (.failed text) ⟨.failed, none, task.startedAt, some m.finish, some text⟩

/-- What a poll of a running task leaves and answers follows from what it meets: an end that the engine
knows counts at any age, the greatest age where the engine knows none. -/
structure DecidesRunning (t : Tracker) (r : Registry) (id : TaskId) (task : Task) (m : Met)
    (after : Registry × Except Error StatusView) : Prop where
  succeeded : m.answer = .ok .succeeded → ∀ rows, m.fetched = .ok rows →
    after = ended r id m (.succeeded (t.shapeRows task.field rows))
      ⟨.succeeded, some (t.shapeRows task.field rows), task.startedAt, some m.finish, none⟩
  fetchFailed : m.answer = .ok .succeeded → ∀ e, m.fetched = .error e →
    after = failedAs r id task m ("result fetch failed: " ++ e.message)
  failed : ∀ reason, m.answer = .ok (.failed reason) →
    after = failedAs r id task m (reason.getD "execution failed")
  /-- A task whose execution was cancelled is shown as failed. -/
  cancelled : m.answer = .ok .cancelled →
    after = ended r id m .cancelled
      ⟨.failed, none, task.startedAt, some m.finish, some (task.error.getD "cancelled")⟩
  expired : ∀ maxAge, t.config.maxAge = some maxAge → maxAge.toNanos ≤ (task.age m.now).toNanos →
    (m.answer = .ok .running ∨ ∃ e, m.answer = .error e) →
      after = failedAs r id task m (expiryText maxAge)
  running : t.IsYoung task m.now → m.answer = .ok .running →
    after = (r, .ok ⟨.running, none, task.startedAt, task.finishedAt, none⟩)
  /-- An error of the engine is passed on. -/
  unanswered : t.IsYoung task m.now → ∀ e, m.answer = .error e → after = (r, .error e)

theorem view_of_running (hrunning : task.isFinished = false) :
    task.view = ⟨.running, none, task.startedAt, task.finishedAt, none⟩ := by
  have hstatus : task.status = .running := by simpa [Task.isFinished] using hrunning
  simp [Task.view, hstatus]

theorem status_view_ne_running (hfinished : task.isFinished = true) : task.view.status ≠ .running := by
  have hstatus : task.status ≠ .running := by simpa [Task.isFinished] using hfinished
  cases h : task.status with
  | running => exact absurd h hstatus
  | succeeded | failed | cancelled => simp [Task.view, h]

theorem concluded_of_ne_running {state : ExecutionState} (h : state ≠ .running) (maxAge? : Option Span) :
    concluded (.ok state) maxAge? = .ok state := by
  cases state with
  | running => exact absurd rfl h
  | succeeded | failed reason | cancelled => cases maxAge? <;> rfl

/-- Where the engine knows no end, the greatest age ends a task that has reached it. -/
theorem concluded_of_expired {answer : Except Error ExecutionState} {maxAge : Span}
    (h : answer = .ok .running ∨ ∃ e, answer = .error e) :
    concluded answer (some maxAge) = .ok (expiry maxAge) := by
  rcases h with rfl | ⟨e, rfl⟩ <;> rfl

theorem decided_of_ends {m : Met} {report : ExecutionState} {outcome : Outcome}
    (hreport : concluded m.answer (t.expired? task m.now) = .ok report)
    (houtcome : t.outcome? task m.fetched report = some outcome) :
    t.decided r id task m = ended r id m outcome (task.finish m.finish outcome).view := by
  rw [decided, hreport]
  dsimp only
  rw [houtcome]

/-- What a poll of a running task meets decides it as it should. -/
theorem decidesRunning_decided (hrunning : task.isFinished = false) (m : Met) :
    t.DecidesRunning r id task m (t.decided r id task m) := by
  have hends {state : ExecutionState} (hanswer : m.answer = .ok state) (hstate : state ≠ .running)
      {outcome : Outcome} (houtcome : t.outcome? task m.fetched state = some outcome) :
      t.decided r id task m = ended r id m outcome (task.finish m.finish outcome).view :=
    decided_of_ends (by rw [hanswer, concluded_of_ne_running hstate]) houtcome
  constructor
  case succeeded =>
    intro hanswer rows hrows
    have houtcome : t.outcome? task m.fetched .succeeded =
        some (.succeeded (t.shapeRows task.field rows)) := by rw [hrows]; rfl
    exact hends hanswer nofun houtcome
  case fetchFailed =>
    intro hanswer e he
    have houtcome : t.outcome? task m.fetched .succeeded =
        some (.failed ("result fetch failed: " ++ e.message)) := by rw [he]; rfl
    exact hends hanswer nofun houtcome
  case failed =>
    intro reason hanswer
    exact hends hanswer nofun rfl
  case cancelled =>
    intro hanswer
    exact hends hanswer nofun rfl
  case expired =>
    intro maxAge hmax hage hanswer
    have hreport : concluded m.answer (t.expired? task m.now) = .ok (expiry maxAge) := by
      rw [expired?_eq_some_iff.mpr ⟨hmax, hage⟩, concluded_of_expired hanswer]
    exact decided_of_ends hreport rfl
  case running =>
    intro hyoung hanswer
    rw [decided, hanswer, expired?_eq_none hyoung, ← view_of_running hrunning]
    rfl
  case unanswered =>
    intro hyoung e hanswer
    rw [decided, hanswer, expired?_eq_none hyoung]
    rfl

/-- A poll leaves the registry as it is, or it shows a task that has ended, marks it, and has changed
nothing else but that it ended it. -/
theorem poll_leaves {σ : Type} (t : Tracker) (w : World σ) (s : σ) (r : Registry) (id : TaskId) :
    (t.runIn w s r (t.poll id)).2.1 = r ∨ ∃ (task : Task) (r' : Registry),
      (r' = r ∨ ∃ now outcome, r' = r.settle id now outcome) ∧ task.isFinished = true ∧
        (t.runIn w s r (t.poll id)).2 = (r'.mark id true, .ok task.view) := by
  cases hcell : r.cell? id with
  | none => exact .inl (by rw [runIn_poll_unknown w s hcell])
  | some c =>
    cases hfinished : c.task.isFinished with
    | true => exact .inr ⟨c.task, r, .inl rfl, hfinished, by rw [runIn_poll_finished w s hcell hfinished]⟩
    | false =>
      rw [runIn_poll_running w s hcell hfinished, decided]
      cases concluded (w.met s c.task).answer (t.expired? c.task (w.met s c.task).now) with
      | error e => exact .inl rfl
      | ok report =>
        dsimp only
        cases t.outcome? c.task (w.met s c.task).fetched report with
        | none => exact .inl rfl
        | some outcome =>
          exact .inr ⟨c.task.finish (w.met s c.task).finish outcome, _, .inr ⟨_, _, rfl⟩,
            Task.isFinished_finish .., rfl⟩

/-- What a poll decides. An unknown id is not found and a task that has ended is shown as it is, neither with
anything asked of the world. A running task ends as the engine says, at any age, or because it has reached the
greatest age, where the engine knows no end; otherwise nothing changes and it is shown running, or the error
of the engine is passed on. In every case all other tasks, the entries of executions and the reservations stay
as they are, and an end is marked as seen only if it is shown. -/
theorem poll_decides {σ : Type} (t : Tracker) (w : World σ) (s : σ) (r : Registry) (id : TaskId) :
    (r.cell? id = none → t.runIn w s r (t.poll id) = (s, r, .error (.notFound id))) ∧
    (∀ c, r.cell? id = some c → c.task.isFinished = true →
      t.runIn w s r (t.poll id) = (s, r.mark id true, .ok c.task.view)) ∧
    (∀ c, r.cell? id = some c → c.task.isFinished = false →
      t.DecidesRunning r id c.task (w.met s c.task) (t.runIn w s r (t.poll id)).2) ∧
    r.KeepsOthers id (t.runIn w s r (t.poll id)).2.1 ∧
    ∀ c c', r.cell? id = some c → (t.runIn w s r (t.poll id)).2.1.cell? id = some c' →
      c.observed = false → c'.observed = true →
        ∃ view, (t.runIn w s r (t.poll id)).2.2 = .ok view ∧ view.status ≠ .running := by
  refine ⟨runIn_poll_unknown w s, fun c hcell hfinished => runIn_poll_finished w s hcell hfinished,
    fun c hcell hrunning => ?_, ?_, fun c c' hc hc' hunseen hseen => ?_⟩
  · rw [runIn_poll_running w s hcell hrunning]
    exact decidesRunning_decided hrunning _
  · rcases t.poll_leaves w s r id with hsame | ⟨task, r', hr', -, hpoll⟩
    · rw [hsame]
      exact .refl r id
    · rw [hpoll]
      rcases hr' with rfl | ⟨now, outcome, rfl⟩
      · exact (Registry.KeepsOthers.refl _ id).mark true
      · exact ((Registry.KeepsOthers.refl r id).settle now outcome).mark true
  · rcases t.poll_leaves w s r id with hsame | ⟨task, r', -, hfinished, hpoll⟩
    · rw [hsame, hc] at hc'
      cases hc'
      rw [hunseen] at hseen
      cases hseen
    · exact ⟨task.view, by rw [hpoll], status_view_ne_running hfinished⟩

end Tracker

end SchemaQuery
