import SchemaQuery.Proofs.Tracker.Sound

/-!
Calls that take turns in surroundings that stay as they are. While the clock stands still and the engine
has one answer to each question, what a call does next is settled, and open is only whose turn it is: the
lists of turns are all the ways in which the calls of a machine can interleave. In its turn a call has its
request answered as if it ran alone. A success alone may take two turns, one to lock its task and one in
which the result arrives; the first one changes nothing but the lock, and the second one does what the
request would do if it were made then.
-/

namespace SchemaQuery

/-- The event by which a call goes on whose request comes next: a request of the registry is made, and
others are answered from outside. -/
def Request.event (around : Surroundings) (r : Registry) (place : Nat) : Request → Tracker.Event
  | .clock => .reply place (.time around.now)
  | .newId => .reply place (.newId around.newId)
  | .ids => .reply place (.order (around.order r.ids))
  | .start query => .reply place (.started (around.start query))
  | .state execution => .reply place (.state (around.state execution))
  | .reserve _ | .release _ | .create _ | .lookup _ | .cell _ | .observe _ | .converge _ _
  | .forget _ => .serve place around.now

namespace Tracker

/-- The event by which a call goes on, unless it has ended. -/
def Progress.event? {α : Type} (around : Surroundings) (r : Registry) (place : Nat) :
    Progress α → Option Event
  | .at (.done _) => none
  | .at (.ask request _) => some (request.event around r place)
  | .fetching task _ _ => some (.reply place (.rows around.now (around.fetch task.execution)))

/-- The machine once the call at a place has taken a turn, if it can go on. -/
def Machine.turn? (t : Tracker) (around : Surroundings) (m : Machine) (place : Nat) :
    Option Machine := do
  let th ← m.threads[place]?
  let event ← th.progress.event? around m.registry place
  m.step? t event

/-- The machine once the calls at some places have taken turns, one after the other. -/
def Machine.turns? (t : Tracker) (around : Surroundings) (m : Machine) (places : List Nat) :
    Option Machine :=
  places.foldlM (Machine.turn? t around) m

/-! ### What a call does in its turn -/

/-- What becomes of the registry and of a call in its turn. -/
inductive Turns (t : Tracker) (around : Surroundings) (r : Registry) {α : Type} :
    Progress α → Registry → Progress α → Prop where
  /-- The request is answered as if the call ran alone. -/
  | served {request : Request} {next : request.Answer → Call α} {r' : Registry}
      {answer : request.Answer} (h : t.serve around r request = (r', answer)) :
      Turns t around r (.at (.ask request next)) r' (.at (next answer))
  /-- A success locks its task, which still runs. -/
  | locks {id : TaskId} {next : Except Error Task → Call α} {task : Task}
      (h : r.judge id .succeeded = .fetches task) :
      Turns t around r (.at (.ask (.converge id .succeeded) next)) r (.fetching task id next)
  /-- The result arrives, and the success is answered as if it came only now. -/
  | fetched {id : TaskId} {next : Except Error Task → Call α} {task : Task} {r' : Registry}
      {answer : Except Error Task} (h : t.serve around r (.converge id .succeeded) = (r', answer)) :
      Turns t around r (.fetching task id next) r' (.at (next answer))

variable {t : Tracker} {around : Surroundings} {r r' : Registry} {m m' : Machine} {α : Type}

/-- A request of the registry that is made is answered as if the call ran alone, or locks its task. -/
theorem turns_of_serveLocal {isLocked : TaskId → Bool} {request : Request}
    {next : request.Answer → Call α} {p' : Progress α}
    (h : serveLocal r isLocked around.now request next = some (r', p')) :
    Turns t around r (.at (.ask request next)) r' p' := by
  cases request with
  | clock | newId | ids | start query | state execution => cases h
  | reserve id | release id | create task | lookup execution | forget executions =>
    cases h
    exact .served rfl
  | cell id | observe id =>
    rw [serveLocal] at h
    split at h
    · cases h
    · cases h
      exact .served rfl
  | converge id report =>
    rw [serveLocal] at h
    split at h
    · cases h
    · rcases judge_cases r id report with
        ⟨-, hjudge⟩ | ⟨task, -, hjudge | ⟨-, ⟨outcome, hjudge⟩ | ⟨rfl, hjudge⟩⟩⟩
      all_goals
        rw [hjudge] at h
        cases h
      · exact .served (by rw [serve, hjudge])
      · exact .served (by rw [serve, hjudge])
      · refine .served ?_
        rw [serve, hjudge]
        rfl
      · exact .locks hjudge

/-- In its turn a call has its request answered as if it ran alone; a success may lock its task before. -/
theorem Machine.Sound.turns_of_turn? (hm : m.Sound) {place : Nat}
    (h : m.turn? t around place = some m') :
    ∃ (job : Job) (p p' : Progress job.Result) (r' : Registry), m.threads[place]? = some ⟨job, p⟩ ∧
      Turns t around m.registry p r' p' ∧ m' = ⟨r', m.threads.set place ⟨job, p'⟩⟩ := by
  obtain ⟨⟨job, p⟩, hthread, h⟩ := Option.bind_eq_some_iff.mp h
  obtain ⟨event, hevent, hstep⟩ := Option.bind_eq_some_iff.mp h
  have hreply {reply : Reply} (h : m.step? t (.reply place reply) = some m') : ∃ p' r',
      receive t m.registry p reply = some (r', p') ∧ m' = ⟨r', m.threads.set place ⟨job, p'⟩⟩ := by
    obtain ⟨job', q, p', r', hthread', hreceive, hm'⟩ := step?_reply_eq_some_iff.mp h
    rw [hthread] at hthread'
    cases hthread'
    exact ⟨p', r', hreceive, hm'⟩
  cases p with
  | fetching task id next =>
    cases hevent
    obtain ⟨p', r', hreceive, hm'⟩ := hreply hstep
    obtain ⟨htask, hrunning⟩ := hm.locked place job task id next hthread
    have hjudge : m.registry.judge id .succeeded = .fetches task := by
      rw [Registry.judge, htask]
      simp only [Task.judge, hrunning]
      rfl
    cases hreceive
    refine ⟨job, _, _, _, hthread, .fetched ?_, hm'⟩
    rw [serve, hjudge]
    rfl
  | «at» c =>
    cases c with
    | done value => cases hevent
    | ask request next =>
      cases hevent
      cases request with
      | clock | newId | start query | state execution =>
        obtain ⟨p', r', hreceive, hm'⟩ := hreply hstep
        cases hreceive
        exact ⟨job, _, _, _, hthread, .served rfl, hm'⟩
      | ids =>
        obtain ⟨p', r', hreceive, hm'⟩ := hreply hstep
        rw [receive] at hreceive
        split at hreceive
        · cases hreceive
          exact ⟨job, _, _, _, hthread, .served rfl, hm'⟩
        · cases hreceive
      | reserve id | release id | create task | lookup execution | cell id | observe id
      | converge id report | forget executions =>
        obtain ⟨job', request', next', r', p', hthread', hserve, hm'⟩ :=
          step?_serve_eq_some_iff.mp hstep
        rw [hthread] at hthread'
        cases hthread'
        exact ⟨job, _, p', r', hthread, turns_of_serveLocal hserve, hm'⟩

theorem Machine.Sound.turn (hm : m.Sound) {place : Nat} (h : m.turn? t around place = some m') :
    m'.Sound := by
  obtain ⟨th, -, h⟩ := Option.bind_eq_some_iff.mp h
  obtain ⟨event, -, hstep⟩ := Option.bind_eq_some_iff.mp h
  exact hm.step hstep

/-! ### Every move is a turn -/

/-- The turn of a call is the event by which it goes on. -/
theorem Machine.turn?_eq {place : Nat} {th : Thread} {event : Event}
    (hthread : m.threads[place]? = some th)
    (hevent : th.progress.event? around m.registry place = some event) :
    m.turn? t around place = m.step? t event := by
  rw [turn?, hthread, Option.bind_eq_bind, Option.bind_some, hevent]
  rfl

/-- Every event in which a call makes a request is its turn, if the time is that of the event. -/
theorem Machine.turn?_of_serve {place : Nat} {now : Instant} (around : Surroundings)
    (h : m.step? t (.serve place now) = some m') :
    m.turn? t { around with now := now } place = some m' := by
  obtain ⟨job, request, next, r', p', hthread, hserve, -⟩ := step?_serve_eq_some_iff.mp h
  cases request with
  | clock | newId | ids | start query | state execution => cases hserve
  | reserve id | release id | create task | lookup execution | cell id | observe id
  | converge id report | forget executions => exact (turn?_eq hthread rfl).trans h

/-- Every event in which a call receives an answer is its turn, if the surroundings give this answer. -/
theorem Machine.exists_turn?_of_reply {place : Nat} {reply : Reply} (around : Surroundings)
    (h : m.step? t (.reply place reply) = some m') :
    ∃ around', m.turn? t around' place = some m' := by
  obtain ⟨job, p, p', r', hthread, hreceive, -⟩ := step?_reply_eq_some_iff.mp h
  unfold receive at hreceive
  split at hreceive
  · next now => exact ⟨{ around with now := now }, (turn?_eq hthread rfl).trans h⟩
  · next id => exact ⟨{ around with newId := id }, (turn?_eq hthread rfl).trans h⟩
  · next ids => exact ⟨{ around with order := fun _ => ids }, (turn?_eq hthread rfl).trans h⟩
  · next answer => exact ⟨{ around with start := fun _ => answer }, (turn?_eq hthread rfl).trans h⟩
  · next answer => exact ⟨{ around with state := fun _ => answer }, (turn?_eq hthread rfl).trans h⟩
  · next now answer =>
    exact ⟨{ around with now := now, fetch := fun _ => answer }, (turn?_eq hthread rfl).trans h⟩
  · cases hreceive

/-! ### Whose turn it can be -/

theorem Machine.exists_turn_of_fetching {place : Nat} {job : Job} {task : Task} {id : TaskId}
    {next : Except Error Task → Call job.Result}
    (hthread : m.threads[place]? = some ⟨job, .fetching task id next⟩) :
    ∃ m', m.turn? t around place = some m' := by
  rw [turn?_eq hthread rfl]
  exact ⟨_, step?_reply_eq_some_iff.mpr ⟨job, _, _, _, hthread, rfl, rfl⟩⟩

theorem Machine.exists_turn_of_lookup {place : Nat} {job : Job} {execution : ExecutionId}
    {next : Option TaskId → Call job.Result}
    (hthread : m.threads[place]? = some ⟨job, .at (.ask (.lookup execution) next)⟩) :
    ∃ m', m.turn? t around place = some m' := by
  rw [turn?_eq hthread rfl]
  exact ⟨_, step?_serve_eq_some_iff.mpr ⟨job, _, _, _, _, hthread, rfl, rfl⟩⟩

theorem Machine.exists_turn_of_converge {place : Nat} {job : Job} {id : TaskId}
    {report : ExecutionState} {next : Except Error Task → Call job.Result}
    (hthread : m.threads[place]? = some ⟨job, .at (.ask (.converge id report) next)⟩)
    (hfree : m.isLocked id = false) : ∃ m', m.turn? t around place = some m' := by
  have hserve : ∃ r' p', serveLocal m.registry m.isLocked around.now (.converge id report) next =
      some (r', p') := by
    rw [serveLocal, hfree]
    cases m.registry.judge id report <;> exact ⟨_, _, rfl⟩
  obtain ⟨r', p', hserve⟩ := hserve
  rw [turn?_eq hthread rfl]
  exact ⟨_, step?_serve_eq_some_iff.mpr
    ⟨job, .converge id report, next, r', p', hthread, hserve, rfl⟩⟩

end Tracker

end SchemaQuery
