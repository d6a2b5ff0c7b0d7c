import SchemaQuery.Proofs.Tracker.Sound

/-!
A task is written once. Whatever calls run together and whatever the engine answers, a task changes at
most once, its result is asked for at most once, and what calls end with is what is stored. The argument
is about tasks that are taken: those whose result is being fetched, and those that have ended. A task
that is taken stays taken, and the result of a task is asked for only while it is not.
-/

namespace SchemaQuery

namespace Tracker

/-! ### Asking for results -/

/-- The task whose result an event asks for: the one that the call which moves has locked by it. -/
def Machine.fetched? (t : Tracker) (m : Machine) : Event → Option TaskId
  | .serve place now => (m.step? t (.serve place now)).bind fun m' => m'.lockedAt place
  | _ => none

/-- The tasks whose results are asked for by some events, one after the other. -/
def Machine.fetches (t : Tracker) (m : Machine) : List Event → List TaskId
  | [] => []
  | event :: events =>
    match m.step? t event with
    | some m' => (m.fetched? t event).toList ++ m'.fetches t events
    | none => []

/-- The result of the task is being fetched, or the task has ended. -/
def Machine.IsTaken (m : Machine) (id : TaskId) : Prop :=
  m.isLocked id = true ∨ ∃ task, m.registry.task? id = some task ∧ task.isFinished = true

theorem Machine.Sound.isLocked_eq_false {m : Machine} (h : m.Sound) {id : TaskId} {task : Task}
    (htask : m.registry.task? id = some task) (hfinished : task.isFinished = true) :
    m.isLocked id = false := by
  rw [Bool.eq_false_iff]
  intro hlocked
  obtain ⟨place, hplace⟩ := isLocked_iff.mp hlocked
  obtain ⟨⟨job, p⟩, hthread, hlock⟩ := Option.bind_eq_some_iff.mp hplace
  cases p with
  | «at» call => cases hlock
  | fetching task' id' next =>
    cases hlock
    obtain ⟨htask', hrunning⟩ := h.locked place job task' id next hthread
    rw [htask] at htask'
    cases htask'
    rw [hfinished] at hrunning
    cases hrunning

/-- A task that is taken stays taken: fetching its result ends it. -/
theorem Machine.Sound.isTaken_step {m m' : Machine} (h : m.Sound) {t : Tracker} {event : Event}
    (hstep : m.step? t event = some m') {id : TaskId} (htaken : m.IsTaken id) : m'.IsTaken id := by
  rcases htaken with hlocked | ⟨task, htask, hfinished⟩
  · obtain ⟨k, hk⟩ := isLocked_iff.mp hlocked
    rcases step?_cases hstep with ⟨jobs, rfl⟩ | ⟨place, job, p, p', r', hplace, hmoves, rfl⟩
    · exact .inl (isLocked_iff.mpr ⟨k, by rwa [lockedAt_append]⟩)
    · by_cases hne : place = k
      · subst hne
        have hlock : Thread.locked? ⟨job, p⟩ = some id := by
          rwa [lockedAt, hplace, Option.bind_some] at hk
        cases hmoves with
        | answered hserves hkeeps => cases hlock
        | locks hfree htask hrunning => cases hlock
        | @unlocks task id' next now answer =>
          cases hlock
          obtain ⟨htask, -⟩ := h.locked place job task id next hplace
          refine .inr ⟨_, ?_, task.isFinished_settle now (t.outcomeOfFetch task.field answer)⟩
          rw [Registry.task?_settle, if_pos rfl, htask]
          rfl
      · exact .inl (isLocked_iff.mpr ⟨k, by rwa [lockedAt_set hplace, if_neg hne]⟩)
  · exact .inr ⟨task, (step?_evolves hstep).task?_of_isFinished htask hfinished, hfinished⟩

/-- The result of a task is asked for only while the task is not taken, and then it is. -/
theorem Machine.isTaken_of_fetched? {t : Tracker} {m m' : Machine} {event : Event} {id : TaskId}
    (hstep : m.step? t event = some m') (hf : m.fetched? t event = some id) :
    ¬ m.IsTaken id ∧ m'.IsTaken id := by
  cases event with
  | begin job => cases hf
  | beginBatch notifications => cases hf
  | reply place answer => cases hf
  | serve place now =>
    rw [fetched?, hstep, Option.bind_some] at hf
    refine ⟨?_, .inl (isLocked_iff.mpr ⟨place, hf⟩)⟩
    obtain ⟨job, request, next, r', p', hthread, hserve, rfl⟩ := step?_serve_eq_some_iff.mp hstep
    rw [lockedAt_set hthread, if_pos rfl] at hf
    cases moves_of_serveLocal (t := t) hserve with
    | answered hserves hkeeps => cases hf
    | @locks id' report next task hfree htask hrunning =>
      cases hf
      rintro (hlocked | ⟨task', htask', hfinished⟩)
      · rw [hfree] at hlocked
        cases hlocked
      · rw [htask] at htask'
        cases htask'
        rw [hrunning] at hfinished
        cases hfinished

/-- No result is asked for twice, nor that of a task which is taken. -/
theorem Machine.Sound.fetches_nodup {m : Machine} (h : m.Sound) (t : Tracker) (events : List Event) :
    (m.fetches t events).Nodup ∧ ∀ id ∈ m.fetches t events, ¬ m.IsTaken id := by
  induction events generalizing m with
  | nil => exact ⟨List.nodup_nil, fun id hid => nomatch hid⟩
  | cons event events ih =>
    rw [fetches]
    cases hstep : m.step? t event with
    | none => exact ⟨List.nodup_nil, fun id hid => nomatch hid⟩
    | some m' =>
      obtain ⟨hnodup, hlater⟩ := ih (h.step hstep)
      have hnot : ∀ id ∈ m'.fetches t events, ¬ m.IsTaken id :=
        fun id hid htaken => hlater id hid (h.isTaken_step hstep htaken)
      cases hf : m.fetched? t event with
      | none => exact ⟨hnodup, hnot⟩
      | some id =>
        obtain ⟨hfree, htaken⟩ := isTaken_of_fetched? hstep hf
        refine ⟨List.nodup_cons.mpr ⟨fun hid => hlater id hid htaken, hnodup⟩, fun k hk => ?_⟩
        rcases List.mem_cons.mp hk with rfl | hk
        · exact hfree
        · exact hnot k hk

/-! ### Polling a task that has ended -/

/-- How many requests a poll has before it, once the task has ended. -/
inductive PollStage (t : Tracker) (id : TaskId) (task : Task) :
    Nat → Progress (Except Error StatusView) → Prop where
  | reads : PollStage t id task 2 (.at (t.poll id))
  | marks : PollStage t id task 1 (.at (.ask (.observe id) fun _ => .done (.ok task.view)))
  | ended : PollStage t id task 0 (.at (.done (.ok task.view)))

/-- Whether an event makes the request of the call at a place. -/
def Event.serves (place : Nat) : Event → Bool
  | .serve k _ => k = place
  | _ => false

section Poll

variable {t : Tracker} {id : TaskId} {task : Task} {n : Nat} {p : Progress (Except Error StatusView)}

theorem PollStage.receive (h : PollStage t id task n p) (r : Registry) (reply : Reply) :
    receive t r p reply = none := by
  cases h <;> cases reply <;> rfl

/-- Its next request can be made, and is one less to make. -/
theorem PollStage.serve (h : PollStage t id task n p) {r : Registry} {isLocked : TaskId → Bool}
    (htask : r.task? id = some task) (hfinished : task.isFinished = true)
    (hfree : isLocked id = false) (now : Instant) :
    (n = 0 ∧ p = .at (.done (.ok task.view))) ∨ ∃ request next r' p',
      p = .at (.ask request next) ∧ serveLocal r isLocked now request next = some (r', p') ∧
        ∃ k, n = k + 1 ∧ PollStage t id task k p' := by
  cases h with
  | ended => exact .inl ⟨rfl, rfl⟩
  | marks =>
    refine .inr ⟨_, _, r.mark id true, _, rfl, ?_, 0, rfl, .ended⟩
    rw [serveLocal, hfree]
    rfl
  | reads =>
    obtain ⟨cell, hcell, rfl⟩ := Registry.task?_eq_some_iff.mp htask
    refine .inr ⟨.cell id, _, r, .at (present id cell.task), rfl, ?_, 1, rfl, ?_⟩
    · rw [serveLocal, hfree, hcell]
      change some (r, Progress.at (if cell.task.isFinished = true then present id cell.task else _)) = _
      rw [if_pos hfinished]
    · rw [present, if_pos hfinished]
      exact .marks

/-- While others go on, the poll goes on by itself alone. -/
theorem Machine.Sound.pollStage_step {m m' : Machine} (h : m.Sound) {event : Event}
    (hstep : m.step? t event = some m') (htask : m.registry.task? id = some task)
    (hfinished : task.isFinished = true) {place : Nat}
    (hthread : m.threads[place]? = some ⟨.poll id, p⟩) (hp : PollStage t id task n p) :
    ∃ k p', m'.threads[place]? = some ⟨.poll id, p'⟩ ∧ PollStage t id task k p' ∧
      k + (if event.serves place then 1 else 0) = n := by
  have hfree := h.isLocked_eq_false htask hfinished
  obtain ⟨hlt, -⟩ := List.getElem?_eq_some_iff.mp hthread
  cases event with
  | begin job =>
    cases hstep
    exact ⟨n, p, by rwa [List.getElem?_append_left hlt], hp, rfl⟩
  | beginBatch notifications =>
    cases hstep
    exact ⟨n, p, by rwa [List.getElem?_append_left hlt], hp, rfl⟩
  | serve k now =>
    obtain ⟨job, request, next, r', p', hk, hserve, rfl⟩ := step?_serve_eq_some_iff.mp hstep
    by_cases hne : k = place
    · subst hne
      rw [hthread] at hk
      cases hk
      rcases hp.serve htask hfinished hfree now with
        ⟨-, hended⟩ | ⟨request', next', r'', p'', hask, hserve', k', rfl, hp'⟩
      · cases hended
      · cases hask
        rw [hserve] at hserve'
        cases hserve'
        refine ⟨k', p', ?_, hp', by simp [Event.serves]⟩
        rw [List.getElem?_set, if_pos rfl, if_pos hlt]
    · refine ⟨n, p, ?_, hp, by simp [Event.serves, hne]⟩
      rwa [List.getElem?_set, if_neg hne]
  | reply k reply =>
    obtain ⟨job, q, q', r', hk, hreceive, rfl⟩ := step?_reply_eq_some_iff.mp hstep
    have hne : k ≠ place := by
      rintro rfl
      rw [hthread] at hk
      cases hk
      rw [hp.receive] at hreceive
      cases hreceive
    exact ⟨n, p, by rwa [List.getElem?_set, if_neg hne], hp, rfl⟩

/-- However others go on, a poll of a task that has ended makes two requests and ends with the view. -/
theorem Machine.Sound.pollStage_run {m m' : Machine} (h : m.Sound) {events : List Event}
    (hrun : m.run? t events = some m') (htask : m.registry.task? id = some task)
    (hfinished : task.isFinished = true) {place : Nat}
    (hthread : m.threads[place]? = some ⟨.poll id, p⟩) (hp : PollStage t id task n p) :
    ∃ k p', m'.threads[place]? = some ⟨.poll id, p'⟩ ∧ PollStage t id task k p' ∧
      k + events.countP (Event.serves place) = n := by
  induction events generalizing m n p with
  | nil => cases hrun; exact ⟨n, p, hthread, hp, rfl⟩
  | cons event events ih =>
    obtain ⟨m₁, hstep, hrun⟩ := Option.bind_eq_some_iff.mp hrun
    obtain ⟨k₁, p₁, hthread₁, hp₁, hcount₁⟩ := h.pollStage_step hstep htask hfinished hthread hp
    have htask₁ := (step?_evolves hstep).task?_of_isFinished htask hfinished
    obtain ⟨k, p', hthread', hp', hcount⟩ := ih (h.step hstep) hrun htask₁ hthread₁ hp₁
    refine ⟨k, p', hthread', hp', ?_⟩
    rw [List.countP_cons]
    omega

end Poll

/-! ### All of it -/

/-- A task is written once. However the calls of a tracker run together and whatever the engine answers:
no result is asked for twice; a call that ends with a task which has ended, or with the view of one, ends
with what is stored; what is stored of a task changes at most once, when it ends; and a poll that begins
after a task has ended takes two requests that are never held up, waits for no answer from outside, and
ends with the view. -/
theorem Machine.write_once {t : Tracker} {r : Registry} (hr : r.Reachable) {events : List Event}
    {m : Machine} (hrun : Machine.run? t ⟨r, []⟩ events = some m) :
    (Machine.fetches t ⟨r, []⟩ events).Nodup ∧
      (∀ (place : Nat) (job : Job) (result : job.Result),
        m.threads[place]? = some ⟨job, .at (.done result)⟩ → job.Holds m.registry result) ∧
      (∀ more m', m.run? t more = some m' → m.registry.Evolves m'.registry) ∧
      ∀ id task, m.registry.task? id = some task → task.isFinished = true →
        ∀ more m', m.run? t (.begin (.poll id) :: more) = some m' →
          ∃ p : Progress (Except Error StatusView),
            m'.threads[m.threads.length]? = some ⟨.poll id, p⟩ ∧
            (∀ reply, receive t m'.registry p reply = none) ∧
            (p = .at (.done (.ok task.view)) ∨
              more.countP (Event.serves m.threads.length) < 2 ∧
                ∀ now, (m'.step? t (.serve m.threads.length now)).isSome = true) := by
  have hstart := sound_of_consistent hr.consistent
  have hsound := hstart.run hrun
  refine ⟨(hstart.fetches_nodup t events).1, fun place job result hthread => ?_,
    fun more m' hmore => run?_evolves hmore, ?_⟩
  · exact hsound.ensures place job _ hthread
  · intro id task htask hfinished more m' hmore
    rw [run?_cons] at hmore
    obtain ⟨m₁, hbegin, hmore⟩ := Option.bind_eq_some_iff.mp hmore
    have hsound₁ := hsound.step hbegin
    cases hbegin
    have hthread : (m.threads ++ [Thread.start t (.poll id)])[m.threads.length]? =
        some ⟨.poll id, .at (t.poll id)⟩ := by
      rw [List.getElem?_append_right (Nat.le_refl _), Nat.sub_self]
      rfl
    obtain ⟨k, p, hp, hstage, hcount⟩ :=
      hsound₁.pollStage_run hmore htask hfinished hthread .reads
    refine ⟨p, hp, hstage.receive m'.registry, ?_⟩
    have htask' := (run?_evolves hmore).task?_of_isFinished htask hfinished
    have hfree := (hsound₁.run hmore).isLocked_eq_false htask' hfinished
    cases k with
    | zero => cases hstage; exact .inl rfl
    | succ k =>
      refine .inr ⟨by omega, fun now => ?_⟩
      rcases hstage.serve htask' hfinished hfree now with
        ⟨hk, -⟩ | ⟨request, next, r', p', rfl, hserve, -⟩
      · cases hk
      · rw [step?_serve_eq_some_iff.mpr ⟨.poll id, request, next, r', p', hp, hserve, rfl⟩]
        rfl

/-- Two reports on one execution: the second one looks its task up before the first one has ended it, and
waits while the result is fetched. -/
def race : List Event :=
  [.begin (.push ⟨⟨"e1"⟩, .succeeded⟩), .beginBatch [⟨⟨"e1"⟩, .failed none⟩], .serve 0 ⟨0, 0⟩,
    .serve 1 ⟨0, 0⟩, .serve 0 ⟨0, 0⟩, .reply 0 (.rows ⟨1, 0⟩ (.ok [])), .serve 1 ⟨2, 0⟩]

/-- A registry with one task. -/
def oneTask : Registry := ((∅ : Registry).create (.start ⟨"t1"⟩ "users" ∅ ⟨"e1"⟩ ⟨0, 0⟩)).1

/-- The result is asked for once, both reports end with the task as the first one has ended it, and a
poll behind them asks nobody. -/
theorem Machine.write_once_race :
    ∃ m, Machine.run? (.plain .standard) ⟨oneTask, []⟩ race = some m ∧
      Machine.fetches (.plain .standard) ⟨oneTask, []⟩ race = [⟨"t1"⟩] ∧
      (Machine.fetches (.plain .standard) ⟨oneTask, []⟩ race).Nodup ∧
      ∃ task, m.registry.task? ⟨"t1"⟩ = some task ∧ task.status = .succeeded ∧
        m.threads[1]? = some ⟨.push ⟨⟨"e1"⟩, .failed none⟩, .at (.done (.ok (some task)))⟩ ∧
        ∀ more m', m.run? (.plain .standard) (.begin (.poll ⟨"t1"⟩) :: more) = some m' →
          ∃ p : Progress (Except Error StatusView), m'.threads[2]? = some ⟨.poll ⟨"t1"⟩, p⟩ ∧
            ∀ reply, receive (.plain .standard) m'.registry p reply = none := by
  have hr : oneTask.Reachable := .step .empty (.create _ _)
  refine ⟨_, rfl, rfl, ?_⟩
  obtain ⟨hnodup, -, -, hpoll⟩ := write_once hr
    (show Machine.run? (.plain .standard) ⟨oneTask, []⟩ race = some _ from rfl)
  refine ⟨hnodup, _, rfl, rfl, rfl, fun more m' hmore => ?_⟩
  obtain ⟨p, hp, hreceive, -⟩ := hpoll ⟨"t1"⟩ _ rfl rfl more m' hmore
  exact ⟨p, hp, hreceive⟩

end Tracker

end SchemaQuery
