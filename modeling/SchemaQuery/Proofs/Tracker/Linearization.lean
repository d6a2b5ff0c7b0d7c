import Mathlib.Algebra.GroupWithZero.Nat
import SchemaQuery.Proofs.Tracker.Abreast
import SchemaQuery.Proofs.Tracker.Turns
import SchemaQuery.Proofs.Tracker.WriteOnce

/-!
A batch of notifications is linearizable. While the clock stands still and the engine has one answer for
each execution, its pushes have the results, and leave the registry, that they would if they were made one
at a time in some order. A push takes effect in the turn in which it ends: before that it has looked its
task up, which no push can change, and has locked it at most. So the order is the one in which the pushes
end, while their results are listed as the notifications are.
-/

namespace SchemaQuery

namespace Tracker

variable {t : Tracker} {around : Surroundings} {r r' : Registry} {m m' : Machine} {n : Notification}
  {id : TaskId} {α : Type}

/-! ### What pushes have ended with -/

/-- What a call has ended with. -/
def Progress.result? : Progress α → Option α
  | .at (.done a) => some a
  | _ => none

/-- A notification with the result of its push. -/
abbrev Pushed : Type := Notification × Except Error (Option Task)

/-- The push that a call has been, once it has ended. -/
def Thread.pushed? : Thread → Option Pushed
  | ⟨.push n, p⟩ => p.result?.map (n, ·)
  | _ => none

/-- The pushes that have ended, as the notifications were listed. -/
def Machine.pushed (m : Machine) : List Pushed := m.threads.filterMap Thread.pushed?

/-- Where all pushes of a batch have ended, there is one for each notification, in their order. -/
theorem map_fst_pushed {threads : List Thread} {notifications : List Notification}
    (hjobs : threads.map Thread.job = notifications.map Job.push)
    (hended : ∀ th ∈ threads, th.pushed? ≠ none) :
    (threads.filterMap Thread.pushed?).map Prod.fst = notifications := by
  induction threads generalizing notifications with
  | nil => exact (List.map_eq_nil_iff.mp hjobs.symm).symm
  | cons th threads ih =>
    obtain ⟨job, p⟩ := th
    obtain ⟨n, notifications, rfl, hjob, hrest⟩ := List.map_eq_cons_iff.mp hjobs.symm
    cases hjob
    cases hpushed : Thread.pushed? ⟨.push n, p⟩ with
    | none => exact absurd hpushed (hended _ List.mem_cons_self)
    | some e =>
      obtain ⟨result, -, rfl⟩ := Option.map_eq_some_iff.mp hpushed
      rw [List.filterMap_cons_some hpushed, List.map_cons,
        ih hrest.symm fun th hth => hended th (List.mem_cons_of_mem _ hth)]

/-! ### One push after another -/

/-- A call behind others runs where they have left the registry. -/
theorem run_inTurn_concat (r : Registry) (cs : List (Call α)) (c : Call α) :
    t.run around r (Call.inTurn (cs ++ [c])) =
      ((t.run around (t.run around r (Call.inTurn cs)).1 c).1,
        (t.run around r (Call.inTurn cs)).2 ++
          [(t.run around (t.run around r (Call.inTurn cs)).1 c).2]) := by
  induction cs generalizing r with
  | nil =>
    change t.run around r (c >>= fun a => .done [a]) = _
    rw [run_bind]
    rfl
  | cons c' cs ih =>
    rw [List.cons_append, Call.inTurn, Call.inTurn, run_bind, run_bind, run_bind, run_bind, ih]
    rfl

/-- A report that is applied leaves the registry as it is or ends the task, and is answered with what is
then known of the task. -/
theorem serve_converge (t : Tracker) (around : Surroundings) (r : Registry) (id : TaskId)
    (report : ExecutionState) :
    ∃ r', t.serve around r (.converge id report) = (r', r'.known id) ∧
      (r' = r ∨ ∃ outcome, r' = r.settle id around.now outcome) := by
  rcases judge_cases r id report with
    ⟨htask, hjudge⟩ | ⟨task, htask, hjudge | ⟨-, ⟨outcome, hjudge⟩ | ⟨-, hjudge⟩⟩⟩
  · refine ⟨r, ?_, .inl rfl⟩
    rw [serve, hjudge, Registry.known, htask]
  · refine ⟨r, ?_, .inl rfl⟩
    rw [serve, hjudge, Registry.known_eq_ok_iff.mpr htask]
  · refine ⟨_, ?_, .inr ⟨outcome, rfl⟩⟩
    rw [serve, hjudge]
    rfl
  · refine ⟨_, ?_, .inr ⟨t.outcomeOfFetch task.field (around.fetch task.execution), rfl⟩⟩
    rw [serve, hjudge]
    rfl

theorem run_push_of_none (hnone : r.correlator.taskFor? n.execution = none) :
    t.run around r (push n) = (r, .ok none) := by
  rw [push_eq, run, serve]
  simp only [hnone]
  rfl

/-- A push of an execution that belongs to a task applies the report, ends with the task, and leaves the
tasks of all executions as they are. -/
theorem run_push_of_some (hr : r.Consistent) (hfound : r.correlator.taskFor? n.execution = some id)
    {answer : Except Error Task} (h : t.serve around r (.converge id n.state) = (r', answer)) :
    t.run around r (push n) = (r', answer.map some) ∧ r'.correlator = r.correlator ∧
      ∃ task, answer = .ok task := by
  have hrun : t.run around r (push n) = (r', answer.map some) := by
    rw [push_eq, run, serve]
    simp only [hfound, lookedUp, run, h]
  refine ⟨hrun, ?_⟩
  obtain ⟨c, hc, -⟩ := hr.correlated n.execution id hfound
  have htask : r.task? id = some c.task := Registry.task?_eq_some_iff.mpr ⟨c, hc, rfl⟩
  obtain ⟨r'', hserve, hr''⟩ := serve_converge t around r id n.state
  rw [hserve] at h
  cases h
  rcases hr'' with rfl | ⟨outcome, rfl⟩
  · exact ⟨rfl, c.task, Registry.known_eq_ok_iff.mpr htask⟩
  · refine ⟨rfl, c.task.settle around.now outcome, Registry.known_eq_ok_iff.mpr ?_⟩
    rw [Registry.task?_settle, if_pos rfl, htask]
    rfl

/-! ### How far a push is -/

/-- How far a push is, where executions belong to tasks like this. -/
inductive PushStage (c : Correlator) (n : Notification) :
    Progress (Except Error (Option Task)) → Prop where
  | looksUp : PushStage c n (.at (push n))
  | applies {id : TaskId} {report : ExecutionState} (hfound : c.taskFor? n.execution = some id)
    (hreport : n.state = report) :
    PushStage c n (.at (.ask (.converge id report) fun answer => .done (answer.map some)))
  | fetches {id : TaskId} {task : Task} (hfound : c.taskFor? n.execution = some id)
    (hreport : n.state = .succeeded) :
    PushStage c n (.fetching task id fun answer => .done (answer.map some))
  | ended {found : Option Task} (hfound : found = none ↔ c.taskFor? n.execution = none) :
    PushStage c n (.at (.done (.ok found)))

/-- How many turns a push has before it at most. -/
def Progress.turnsLeft : Progress α → Nat
  | .at (.ask (.lookup _) _) => 3
  | .at (.ask _ _) => 2
  | .fetching _ _ _ => 1
  | .at (.done _) => 0

/-- A turn of a push brings it nearer to its end. It changes nothing, or the push ends in it and does what
it would do if it were made as a whole then. -/
theorem PushStage.turn {p p' : Progress (Except Error (Option Task))}
    (hp : PushStage r.correlator n p) (hr : r.Consistent) (h : Turns t around r p r' p') :
    r'.correlator = r.correlator ∧ PushStage r.correlator n p' ∧ p.result? = none ∧
      p'.turnsLeft < p.turnsLeft ∧ ((r' = r ∧ p'.result? = none) ∨
        ∃ result, p'.result? = some result ∧ t.run around r (push n) = (r', result)) := by
  have hends {id : TaskId} {answer : Except Error Task}
      (hfound : r.correlator.taskFor? n.execution = some id)
      (hserve : t.serve around r (.converge id n.state) = (r', answer)) :
      r'.correlator = r.correlator ∧ PushStage r.correlator n (.at (.done (answer.map some))) ∧
        t.run around r (push n) = (r', answer.map some) := by
    obtain ⟨hrun, hcorrelator, task, rfl⟩ := run_push_of_some hr hfound hserve
    exact ⟨hcorrelator, .ended (by simp [hfound]), hrun⟩
  cases hp with
  | looksUp =>
    rw [push_eq] at h
    cases h with
    | served hserve =>
      cases hserve
      cases hfound : r.correlator.taskFor? n.execution with
      | none =>
        exact ⟨rfl, .ended (by simp [hfound]), rfl, Nat.zero_lt_succ 2,
          .inr ⟨_, rfl, run_push_of_none hfound⟩⟩
      | some id => exact ⟨rfl, .applies hfound rfl, rfl, Nat.lt_succ_self 2, .inl ⟨rfl, rfl⟩⟩
  | applies hfound hreport =>
    cases h with
    | served hserve =>
      subst hreport
      obtain ⟨hcorrelator, hstage, hrun⟩ := hends hfound hserve
      exact ⟨hcorrelator, hstage, rfl, Nat.two_pos, .inr ⟨_, rfl, hrun⟩⟩
    | locks hjudge => exact ⟨rfl, .fetches hfound hreport, rfl, Nat.one_lt_two, .inl ⟨rfl, rfl⟩⟩
  | fetches hfound hreport =>
    cases h with
    | fetched hserve =>
      obtain ⟨hcorrelator, hstage, hrun⟩ := hends hfound (hreport ▸ hserve)
      exact ⟨hcorrelator, hstage, rfl, Nat.one_pos, .inr ⟨_, rfl, hrun⟩⟩
  | ended hfound => cases h

/-! ### The order in which pushes end -/

/-- How many turns the calls of a machine have before them at most, if they are pushes. -/
def Machine.turnsLeft (m : Machine) : Nat := (m.threads.map (·.progress.turnsLeft)).sum

section

variable {place : Nat} {p : Progress (Except Error (Option Task))}
  (h : m.threads[place]? = some ⟨.push n, p⟩) (r' : Registry) (p' : Progress (Except Error (Option Task)))
include h

theorem Machine.exists_of_push : ∃ before behind,
    m.threads = before ++ ⟨.push n, p⟩ :: behind ∧
      m.threads.set place ⟨.push n, p'⟩ = before ++ ⟨.push n, p'⟩ :: behind := by
  obtain ⟨hlt, hget⟩ := List.getElem?_eq_some_iff.mp h
  obtain ⟨before, behind, hthreads, -, hset⟩ :=
    @List.exists_of_set Thread place ⟨.push n, p'⟩ m.threads hlt
  rw [hget] at hthreads
  exact ⟨before, behind, hthreads, hset⟩

theorem Machine.jobs_set :
    (m.threads.set place ⟨.push n, p'⟩).map Thread.job = m.threads.map Thread.job := by
  obtain ⟨before, behind, hthreads, hset⟩ := exists_of_push h p'
  rw [hset, hthreads, List.map_append, List.map_append]
  rfl

/-- A push that ends joins those that have ended. -/
theorem Machine.pushed_set (hbusy : p.result? = none) :
    (Machine.pushed ⟨r', m.threads.set place ⟨.push n, p'⟩⟩).Perm
      ((p'.result?.map (n, ·)).toList ++ m.pushed) := by
  obtain ⟨before, behind, hthreads, hset⟩ := exists_of_push h p'
  have hnone : Thread.pushed? ⟨.push n, p⟩ = none := by rw [Thread.pushed?, hbusy, Option.map_none]
  rw [pushed, pushed, hset, hthreads, List.filterMap_append, List.filterMap_append,
    List.filterMap_cons_none hnone, List.filterMap_cons, Thread.pushed?]
  cases p'.result? with
  | none => exact .refl _
  | some result => exact List.perm_middle

theorem Machine.turnsLeft_set :
    Machine.turnsLeft ⟨r', m.threads.set place ⟨.push n, p'⟩⟩ + p.turnsLeft =
      m.turnsLeft + p'.turnsLeft := by
  obtain ⟨before, behind, hthreads, hset⟩ := exists_of_push h p'
  rw [turnsLeft, turnsLeft, hset, hthreads]
  simp only [List.map_append, List.map_cons, List.sum_append, List.sum_cons]
  omega

end

/-- The pushes of a batch have the results, and leave the registry, that they would if those that have
ended had been made one at a time in some order, and the others not at all. -/
structure Machine.Linearized (t : Tracker) (around : Surroundings) (r : Registry)
    (notifications : List Notification) (m : Machine) : Prop where
  sound : m.Sound
  /-- Executions belong to the same tasks as before the batch. -/
  correlator : m.registry.correlator = r.correlator
  /-- Each notification is pushed in its place. -/
  jobs : m.threads.map Thread.job = notifications.map Job.push
  stages : ∀ n p, ⟨.push n, p⟩ ∈ m.threads → PushStage r.correlator n p
  order : ∃ order : List Pushed, order.Perm m.pushed ∧
    t.run around r (Call.inTurn (order.map fun e => push e.1)) = (m.registry, order.map Prod.snd)

namespace Machine.Linearized

variable {notifications : List Notification} {place : Nat}

/-- It is so when a batch begins. -/
theorem begins (hr : r.Consistent)
    (h : Machine.step? t ⟨r, []⟩ (.beginBatch notifications) = some m) :
    m.Linearized t around r notifications where
  sound := (sound_of_consistent hr).step h
  correlator := by cases h; rfl
  jobs := by
    cases h
    simp [Thread.start, Function.comp_def]
  stages n p hp := by
    cases h
    obtain ⟨n', -, hn'⟩ := List.mem_map.mp hp
    cases hn'
    exact .looksUp
  order := by
    cases h
    refine ⟨[], ?_, rfl⟩
    simp [Machine.pushed, Thread.start, Thread.pushed?, Job.call, push_eq, Progress.result?]

/-- Every call of the machine is a push. -/
theorem exists_push (h : m.Linearized t around r notifications) {th : Thread} (hth : th ∈ m.threads) :
    ∃ n p, th = ⟨.push n, p⟩ ∧ PushStage r.correlator n p := by
  obtain ⟨job, p⟩ := th
  have hjob : job ∈ notifications.map Job.push := h.jobs ▸ List.mem_map_of_mem hth
  obtain ⟨n, -, rfl⟩ := List.mem_map.mp hjob
  exact ⟨n, p, rfl, h.stages n p hth⟩

/-- It stays so in every turn, and there is one turn less to take. -/
theorem turn (h : m.Linearized t around r notifications) (hturn : m.turn? t around place = some m') :
    m'.Linearized t around r notifications ∧ m'.turnsLeft < m.turnsLeft := by
  obtain ⟨job, p, p', r', hthread, hturns, rfl⟩ := h.sound.turns_of_turn? hturn
  obtain ⟨n, q, heq, hstage⟩ := h.exists_push (List.mem_of_getElem? hthread)
  cases heq
  obtain ⟨hcorrelator, hstage', hbusy, hless, hends⟩ :=
    PushStage.turn (h.correlator ▸ hstage) h.sound.consistent hturns
  rw [h.correlator] at hcorrelator hstage'
  have hjobs := (jobs_set hthread p').trans h.jobs
  refine ⟨⟨h.sound.turn hturn, hcorrelator, hjobs, fun k q hq => ?_, ?_⟩, ?_⟩
  · rcases List.mem_or_eq_of_mem_set hq with hq | heq
    · exact h.stages k q hq
    · cases heq
      exact hstage'
  · obtain ⟨order, hperm, hrun⟩ := h.order
    have hpushed := (pushed_set hthread r' p' hbusy).symm
    rcases hends with ⟨rfl, hnone⟩ | ⟨result, hsome, hpush⟩
    · rw [hnone] at hpushed
      exact ⟨order, hperm.trans hpushed, hrun⟩
    · rw [hsome] at hpushed
      -- What ends now comes last.
      refine ⟨order ++ [(n, result)], ?_, ?_⟩
      · exact ((List.perm_append_singleton _ _).trans (hperm.cons _)).trans hpushed
      · rw [List.map_append, List.map_append, List.map_singleton, List.map_singleton,
          run_inTurn_concat, hrun, hpush]
  · have hturns := turnsLeft_set hthread r' p'
    omega

/-- It stays so in every run of turns, which is at most as long as there were turns to take. -/
theorem turns (h : m.Linearized t around r notifications) {places : List Nat}
    (hrun : m.turns? t around places = some m') :
    m'.Linearized t around r notifications ∧ places.length + m'.turnsLeft ≤ m.turnsLeft := by
  induction places generalizing m with
  | nil =>
    cases hrun
    exact ⟨h, Nat.le_of_eq (Nat.zero_add _)⟩
  | cons place places ih =>
    obtain ⟨m₁, hturn, hrun⟩ := Option.bind_eq_some_iff.mp hrun
    obtain ⟨h₁, hless⟩ := h.turn hturn
    obtain ⟨h', hle⟩ := ih h₁ hrun
    refine ⟨h', ?_⟩
    rw [List.length_cons]
    omega

/-- While some push has not ended, some push can go on: one that fetches a result goes on as soon as the
result arrives, and if there is none then no task is locked. -/
theorem exists_turn (h : m.Linearized t around r notifications)
    (hbusy : ∃ th ∈ m.threads, th.pushed? = none) : ∃ place m', m.turn? t around place = some m' := by
  by_cases hfetch : ∃ place id, m.lockedAt place = some id
  · obtain ⟨place, id, hlocked⟩ := hfetch
    obtain ⟨⟨job, p⟩, hthread, hlock⟩ := Option.bind_eq_some_iff.mp hlocked
    cases p with
    | «at» c => cases hlock
    | fetching task id' next => exact ⟨place, exists_turn_of_fetching hthread⟩
  · have hfree (id : TaskId) : m.isLocked id = false := by
      rw [Bool.eq_false_iff]
      exact fun hlocked => hfetch ((isLocked_iff.mp hlocked).imp fun _ hplace => ⟨id, hplace⟩)
    obtain ⟨th, hth, hnone⟩ := hbusy
    obtain ⟨place, hthread⟩ := List.mem_iff_getElem?.mp hth
    obtain ⟨n, p, rfl, hstage⟩ := h.exists_push hth
    refine ⟨place, ?_⟩
    cases hstage with
    | looksUp =>
      rw [push_eq] at hthread
      exact exists_turn_of_lookup hthread
    | applies hfound hreport => exact exists_turn_of_converge hthread (hfree _)
    | fetches hfound hreport => exact exists_turn_of_fetching hthread
    | ended hfound => cases hnone

end Machine.Linearized

/-- A batch of notifications is linearizable. While the clock stands still and the engine has one answer
for each execution, however its pushes take turns: they end, each after three turns at most, and there is
always one that can go on; then there is a result for each notification, in their order. Each result is
that a task was found, or that the execution belongs to none. And at any time the pushes that have ended
have the results, and the registry is as it would be, if these pushes had been made one at a time in some
order. -/
theorem Machine.batch_linearizable (hr : r.Reachable) (around : Surroundings)
    {notifications : List Notification} {m₀ : Machine}
    (hbegin : Machine.step? t ⟨r, []⟩ (.beginBatch notifications) = some m₀) {places : List Nat}
    (hrun : m₀.turns? t around places = some m) :
    places.length ≤ 3 * notifications.length ∧
      ((∀ place, m.turn? t around place = none) → m.pushed.map Prod.fst = notifications) ∧
      (∀ n result, (n, result) ∈ m.pushed →
        ∃ found, result = .ok found ∧ (found = none ↔ r.correlator.taskFor? n.execution = none)) ∧
      ∃ order : List Pushed, order.Perm m.pushed ∧
        t.run around r (Call.inTurn (order.map fun e => push e.1)) =
          (m.registry, order.map Prod.snd) := by
  have hstart : m₀.Linearized t around r notifications := .begins hr.consistent hbegin
  obtain ⟨hlinear, hlength⟩ := hstart.turns hrun
  refine ⟨?_, fun hstuck => map_fst_pushed hlinear.jobs fun th hth hnone => ?_,
    fun n result hmem => ?_, hlinear.order⟩
  · have hturns : m₀.turnsLeft = 3 * notifications.length := by
      cases hbegin
      simp [turnsLeft, Thread.start, Job.call, push_eq, Progress.turnsLeft, Function.comp_def,
        Nat.mul_comm]
    omega
  · obtain ⟨place, m', hturn⟩ := hlinear.exists_turn ⟨th, hth, hnone⟩
    rw [hstuck place] at hturn
    cases hturn
  · obtain ⟨th, hth, hpushed⟩ := List.mem_filterMap.mp hmem
    obtain ⟨k, p, rfl, hstage⟩ := hlinear.exists_push hth
    obtain ⟨result', hresult, heq⟩ := Option.map_eq_some_iff.mp hpushed
    cases heq
    cases hstage with
    | looksUp =>
      rw [push_eq] at hresult
      cases hresult
    | applies hfound hreport => cases hresult
    | fetches hfound hreport => cases hresult
    | ended hfound =>
      cases hresult
      exact ⟨_, rfl, hfound⟩

/-- Surroundings in which results have no rows. -/
def noRows : Surroundings where
  now := ⟨5, 0⟩
  newId := ⟨"t2"⟩
  order ids := ids
  start _ := .ok ⟨"e2"⟩
  state _ := .ok .running
  fetch _ := .ok []

/-- Reports on one execution that contradict each other and come twice, and one that concerns no task. -/
def contested : List Notification :=
  [⟨⟨"e1"⟩, .failed none⟩, ⟨⟨"e9"⟩, .succeeded⟩, ⟨⟨"e1"⟩, .succeeded⟩, ⟨⟨"e1"⟩, .succeeded⟩]

/-- The first success locks the task before the failure that stands in front of it is applied, so the task
succeeds. Pushed in the order in which they are listed the notifications would fail it, but there is an
order in which they have the same results. -/
theorem Machine.batch_linearizable_contested :
    ∃ m₀ m, Machine.step? (.plain .standard) ⟨oneTask, []⟩ (.beginBatch contested) = some m₀ ∧
      m₀.turns? (.plain .standard) noRows [0, 2, 3, 2, 1, 2, 0, 3] = some m ∧
      m.pushed.map Prod.fst = contested ∧
      (m.registry.task? ⟨"t1"⟩).map Task.status = some .succeeded ∧
      ((run (.plain .standard) noRows oneTask (Call.inTurn (contested.map push))).1.task? ⟨"t1"⟩).map
        Task.status = some .failed ∧
      ∃ order : List Pushed, order.Perm m.pushed ∧
        run (.plain .standard) noRows oneTask (Call.inTurn (order.map fun e => push e.1)) =
          (m.registry, order.map Prod.snd) := by
  have hr : oneTask.Reachable := .step .empty (.create _ _)
  refine ⟨_, _, rfl, rfl, ?_⟩
  obtain ⟨-, hpushed, -, horder⟩ := batch_linearizable hr noRows
    (show Machine.step? (.plain .standard) ⟨oneTask, []⟩ (.beginBatch contested) = some _ from rfl)
    (show turns? (.plain .standard) noRows _ [0, 2, 3, 2, 1, 2, 0, 3] = some _ from rfl)
  refine ⟨hpushed fun place => ?_, rfl, rfl, horder⟩
  match place with
  | 0 | 1 | 2 | 3 => rfl
  | _ + 4 => rfl

end Tracker

end SchemaQuery
