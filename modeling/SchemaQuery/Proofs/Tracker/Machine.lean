import SchemaQuery.Proofs.Tracker.Ensures

/-!
What one event does to a machine. Calls begin, or one call moves: its request is answered, it locks a
task to fetch its result, or it ends the task that it has locked. A locked task is still running, only
one call has locked it, and nobody else changes it; and every call goes on ensuring what it ensured when
it began.
-/

namespace SchemaQuery

/-! ### Requests that are made -/

/-- The registry before a request is made, the one after it, and the answer. -/
def Request.Serves (r : Registry) : (request : Request) → Registry → request.Answer → Prop
  | .ids, r', answer => r' = r ∧ answer.isPerm r.ids = true
  | .reserve id, r', answer => (r', answer) = r.reserve id
  | .release id, r', _ => r' = r.release id
  | .create task, r', answer => (r', answer) = r.create task
  | .lookup execution, r', answer => r' = r ∧ answer = r.correlator.taskFor? execution
  | .cell id, r', answer => r' = r ∧ answer = r.cell? id
  | .observe id, r', _ => r' = r.mark id true
  | .converge id _, r', answer =>
    (r' = r ∨ ∃ now outcome, r' = r.settle id now outcome) ∧ answer = r'.known id
  | .forget executions, r', answer => (r', answer) = r.forget executions
  | .clock, r', _ | .newId, r', _ | .start _, r', _ | .state _, r', _ => r' = r

/-- A request that is made is a step of the registry, or leaves it as it is. -/
theorem Request.Serves.step {r r' : Registry} {request : Request} {answer : request.Answer}
    (h : request.Serves r r' answer) : r' = r ∨ r.Step r' := by
  cases request with
  | clock | newId | start query | state execution => exact .inl h
  | ids | lookup execution | cell id => exact .inl h.1
  | reserve id =>
    obtain rfl : r' = (r.reserve id).1 := congrArg Prod.fst h
    exact .inr (.reserve r id)
  | release id =>
    obtain rfl : r' = r.release id := h
    exact .inr (.release r id)
  | create task =>
    obtain rfl : r' = (r.create task).1 := congrArg Prod.fst h
    exact .inr (.create r task)
  | forget executions =>
    obtain rfl : r' = (r.forget executions).1 := congrArg Prod.fst h
    exact .inr (.forget r executions)
  | observe id =>
    obtain rfl : r' = r.mark id true := h
    exact .inr (.mark r id true)
  | converge id report =>
    rcases h.1 with hsame | ⟨now, outcome, rfl⟩
    · exact .inl hsame
    · exact .inr (.settle r id now outcome)

/-- A request that is made is answered as it can be where it leaves the registry. -/
theorem Request.Serves.allows {r r' : Registry} {request : Request} {answer : request.Answer}
    (h : request.Serves r r' answer) : request.Allows r' answer := by
  cases request with
  | ids => rw [Request.Allows, h.1]; exact h.2
  | lookup execution => rw [Request.Allows, h.1]; exact h.2
  | cell id => rw [Request.Allows, h.1]; exact h.2
  | converge id report => exact h.2
  | clock | newId | start query | state execution | reserve id | release id | create task
  | forget executions | observe id => trivial

namespace Tracker

/-! ### What a report means -/

/-- A report concerns no task, leaves its task as it is, ends it, or has its result fetched; only a
running task is ended, and only a success has a result fetched. -/
theorem judge_cases (r : Registry) (id : TaskId) (report : ExecutionState) :
    (r.task? id = none ∧ r.judge id report = .missing) ∨ ∃ task, r.task? id = some task ∧
      (r.judge id report = .unchanged task ∨ task.isFinished = false ∧
        ((∃ outcome, r.judge id report = .ends outcome) ∨
          report = .succeeded ∧ r.judge id report = .fetches task)) := by
  unfold Registry.judge
  cases r.task? id with
  | none => exact .inl ⟨rfl, rfl⟩
  | some task =>
    refine .inr ⟨task, rfl, ?_⟩
    simp only [Task.judge]
    split
    · exact .inl rfl
    · next hrunning =>
      have hrunning : task.isFinished = false := by simpa using hrunning
      cases report with
      | running => exact .inl rfl
      | succeeded => exact .inr ⟨hrunning, .inr ⟨rfl, rfl⟩⟩
      | failed reason => exact .inr ⟨hrunning, .inl ⟨_, rfl⟩⟩
      | cancelled => exact .inr ⟨hrunning, .inl ⟨_, rfl⟩⟩

/-! ### Moves of one call -/

/-- A move of one call: what becomes of the registry and how far the call is then. -/
inductive Moves (t : Tracker) (isLocked : TaskId → Bool) (r : Registry) {α : Type} :
    Progress α → Registry → Progress α → Prop where
  /-- A request is answered, and locked tasks stay as they are. -/
  | answered {request : Request} {next : request.Answer → Call α} {r' : Registry}
      {answer : request.Answer} (hserves : request.Serves r r' answer)
      (hlocked : ∀ id task, isLocked id = true → r.task? id = some task → r'.task? id = some task) :
      Moves t isLocked r (.at (.ask request next)) r' (.at (next answer))
  /-- A running task is locked, while its result is fetched. -/
  | locks {id : TaskId} {report : ExecutionState} {next : Except Error Task → Call α} {task : Task}
      (hfree : isLocked id = false) (htask : r.task? id = some task)
      (hrunning : task.isFinished = false) :
      Moves t isLocked r (.at (.ask (.converge id report) next)) r (.fetching task id next)
  /-- The locked task ends, by what fetching its result gave. -/
  | unlocks {task : Task} {id : TaskId} {next : Except Error Task → Call α} (now : Instant)
      (answer : Except Error (List Record)) :
      Moves t isLocked r (.fetching task id next)
        (r.settle id now (t.outcomeOfFetch task.field answer))
        (.at (next ((r.settle id now (t.outcomeOfFetch task.field answer)).known id)))

variable {t : Tracker} {isLocked : TaskId → Bool} {r r' : Registry} {α : Type}

theorem Moves.unchanged {request : Request} {next : request.Answer → Call α}
    {answer : request.Answer} (hserves : request.Serves r r answer) :
    Moves t isLocked r (.at (.ask request next)) r (.at (next answer)) :=
  .answered hserves fun _ _ _ h => h

theorem moves_of_serveLocal {now : Instant} {request : Request} {next : request.Answer → Call α}
    {p' : Progress α} (h : serveLocal r isLocked now request next = some (r', p')) :
    Moves t isLocked r (.at (.ask request next)) r' p' := by
  cases request with
  | clock | newId | ids | start query | state execution => cases h
  | reserve id =>
    cases h
    exact .answered rfl fun k task _ hk => by rwa [Registry.task?_reserve]
  | release id =>
    cases h
    exact .answered rfl fun k task _ hk => hk
  | create task =>
    cases h
    exact .answered rfl fun k t' _ hk => Registry.task?_create r task hk
  | lookup execution =>
    cases h
    exact .unchanged ⟨rfl, rfl⟩
  | forget executions =>
    cases h
    exact .answered rfl fun k task _ hk => by rwa [Registry.task?_forget]
  | cell id =>
    rw [serveLocal] at h
    split at h
    · cases h
    · cases h
      exact .unchanged ⟨rfl, rfl⟩
  | observe id =>
    rw [serveLocal] at h
    split at h
    · cases h
    · cases h
      exact .answered rfl fun k task _ hk => by rwa [Registry.task?_mark]
  | converge id report =>
    rw [serveLocal] at h
    split at h
    · cases h
    · next hfree =>
      rcases judge_cases r id report with ⟨htask, hjudge⟩ | ⟨task, htask, hjudge | ⟨hrunning, hjudge⟩⟩
      · rw [hjudge] at h
        cases h
        exact .unchanged ⟨.inl rfl, by rw [Registry.known, htask]⟩
      · rw [hjudge] at h
        cases h
        exact .unchanged ⟨.inl rfl, (Registry.known_eq_ok_iff.mpr htask).symm⟩
      · rcases hjudge with ⟨outcome, hjudge⟩ | ⟨-, hjudge⟩
        · rw [hjudge] at h
          cases h
          refine .answered ⟨.inr ⟨now, outcome, rfl⟩, rfl⟩ fun k task hk htask => ?_
          rw [Registry.task?_settle, if_neg ?_, htask]
          rintro rfl
          exact hfree hk
        · rw [hjudge] at h
          cases h
          exact .locks (by simpa using hfree) htask hrunning

theorem moves_of_receive {p p' : Progress α} {reply : Reply}
    (h : receive t r p reply = some (r', p')) : Moves t isLocked r p r' p' := by
  unfold receive at h
  split at h
  · cases h; exact .unchanged rfl
  · cases h; exact .unchanged rfl
  · split at h
    · next horder => cases h; exact .unchanged ⟨rfl, horder⟩
    · cases h
  · cases h; exact .unchanged rfl
  · cases h; exact .unchanged rfl
  · cases h; exact .unlocks _ _
  · cases h

theorem Moves.step {p p' : Progress α} (h : Moves t isLocked r p r' p') : r' = r ∨ r.Step r' := by
  cases h with
  | answered hserves _ => exact hserves.step
  | locks _ _ _ => exact .inl rfl
  | unlocks now answer => exact .inr (.settle ..)

theorem Moves.evolves {p p' : Progress α} (h : Moves t isLocked r p r' p') : r.Evolves r' := by
  rcases h.step with rfl | hstep
  · exact .refl r'
  · exact hstep.evolves

theorem Moves.consistent {p p' : Progress α} (h : Moves t isLocked r p r' p') (hr : r.Consistent) :
    r'.Consistent := by
  rcases h.step with rfl | hstep
  · exact hr
  · exact hstep.consistent hr

/-! ### Moves of a machine -/

/-- A request of the registry can be made exactly if a call makes it next and it has not to wait. -/
theorem step?_serve_eq_some_iff {m m' : Machine} {place : Nat} {now : Instant} :
    m.step? t (.serve place now) = some m' ↔
      ∃ (job : Job) (request : Request) (next : request.Answer → Call job.Result) (r' : Registry)
        (p' : Progress job.Result), m.threads[place]? = some ⟨job, .at (.ask request next)⟩ ∧
          serveLocal m.registry m.isLocked now request next = some (r', p') ∧
          m' = ⟨r', m.threads.set place ⟨job, p'⟩⟩ := by
  constructor
  · intro h
    obtain ⟨⟨job, p⟩, hthread, h⟩ := Option.bind_eq_some_iff.mp h
    cases p with
    | fetching task id next => cases h
    | «at» call =>
      cases call with
      | done value => cases h
      | ask request next =>
        obtain ⟨⟨r', p'⟩, hserve, h⟩ := Option.bind_eq_some_iff.mp h
        cases h
        exact ⟨job, request, next, r', p', hthread, hserve, rfl⟩
  · rintro ⟨job, request, next, r', p', hthread, hserve, rfl⟩
    refine Option.bind_eq_some_iff.mpr ⟨_, hthread, ?_⟩
    exact Option.bind_eq_some_iff.mpr ⟨(r', p'), hserve, rfl⟩

/-- An answer from outside can arrive exactly if a call waits for it. -/
theorem step?_reply_eq_some_iff {m m' : Machine} {place : Nat} {reply : Reply} :
    m.step? t (.reply place reply) = some m' ↔
      ∃ (job : Job) (p p' : Progress job.Result) (r' : Registry),
        m.threads[place]? = some ⟨job, p⟩ ∧ receive t m.registry p reply = some (r', p') ∧
          m' = ⟨r', m.threads.set place ⟨job, p'⟩⟩ := by
  constructor
  · intro h
    obtain ⟨⟨job, p⟩, hthread, h⟩ := Option.bind_eq_some_iff.mp h
    obtain ⟨⟨r', p'⟩, hreceive, h⟩ := Option.bind_eq_some_iff.mp h
    cases h
    exact ⟨job, p, p', r', hthread, hreceive, rfl⟩
  · rintro ⟨job, p, p', r', hthread, hreceive, rfl⟩
    refine Option.bind_eq_some_iff.mpr ⟨_, hthread, ?_⟩
    exact Option.bind_eq_some_iff.mpr ⟨(r', p'), hreceive, rfl⟩

/-- An event begins some jobs, or one call moves. -/
theorem step?_cases {m m' : Machine} {event : Event} (h : m.step? t event = some m') :
    (∃ jobs : List Job, m' = { m with threads := m.threads ++ jobs.map (Thread.start t) }) ∨
      ∃ (place : Nat) (job : Job) (p p' : Progress job.Result) (r' : Registry),
        m.threads[place]? = some ⟨job, p⟩ ∧ Moves t m.isLocked m.registry p r' p' ∧
          m' = ⟨r', m.threads.set place ⟨job, p'⟩⟩ := by
  cases event with
  | begin job => cases h; exact .inl ⟨[job], rfl⟩
  | beginBatch notifications =>
    cases h
    exact .inl ⟨notifications.map Job.push, by rw [List.map_map]; rfl⟩
  | serve place now =>
    obtain ⟨job, request, next, r', p', hthread, hserve, rfl⟩ := step?_serve_eq_some_iff.mp h
    exact .inr ⟨place, job, _, p', r', hthread, moves_of_serveLocal hserve, rfl⟩
  | reply place answer =>
    obtain ⟨job, p, p', r', hthread, hreceive, rfl⟩ := step?_reply_eq_some_iff.mp h
    exact .inr ⟨place, job, p, p', r', hthread, moves_of_receive hreceive, rfl⟩

end Tracker

end SchemaQuery
