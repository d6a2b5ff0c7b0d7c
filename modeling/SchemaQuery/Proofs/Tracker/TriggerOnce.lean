import SchemaQuery.Proofs.Tracker.Reservation

/-!
Every execution that is started is followed by one task. A trigger whose query the engine has started
stores its task, whatever others do meanwhile; the stored tasks are those that triggers have made, each
by one of them; and an id that no trigger holds and for which none has made a task is free.
-/

namespace SchemaQuery

namespace Tracker

variable {m m' : Machine} {event : Event}

/-! ### Tasks and who made them -/

/-- The stored tasks are those that triggers have made, each by one trigger. -/
structure Machine.Accounts (m : Machine) : Prop where
  made : ∀ place task, m.Made place task → m.registry.Stores task
  unique : ∀ i j task task', m.Made i task → m.Made j task' → task.id = task'.id → i = j
  origin : ∀ id t, m.registry.task? id = some t → ∃ place task, m.Made place task ∧ task.id = id

namespace Machine.Accounts

variable {place : Nat}

theorem of_same (h : m.Accounts) (hstores : ∀ task, m.registry.Stores task → m'.registry.Stores task)
    (hr : m.registry.NoneNew m'.registry)
    (hmade : ∀ k task, m'.Made k task ↔ m.Made k task) : m'.Accounts where
  made k task hk := hstores task (h.made k task ((hmade k task).mp hk))
  unique i j task task' hi hj :=
    h.unique i j task task' ((hmade i task).mp hi) ((hmade j task').mp hj)
  origin id t' ht' := by
    obtain ⟨t, ht, -⟩ := hr id t' ht'
    obtain ⟨k, task, hk, hid⟩ := h.origin id t ht
    exact ⟨k, task, (hmade k task).mpr hk, hid⟩

/-- A trigger may make a task that is new. -/
theorem make (h : m.Accounts) {task : Task} (hid : m.registry.cell? task.id = none)
    (hexecution : m.registry.correlator.taskFor? task.execution = none)
    (hnothing : ∀ t, ¬ m.Made place t) (hr : m'.registry = (m.registry.create task).1)
    (hmade : ∀ k t, m'.Made k t ↔ if place = k then some task = some t else m.Made k t) :
    m'.Accounts := by
  have hnone : m.registry.task? task.id = none := by rw [Registry.task?, hid, Option.map_none]
  obtain ⟨htask, hentry⟩ := Registry.stores_create hid hexecution
  refine ⟨fun k t hk => ?_, fun i j t t' hi hj hsame => ?_, fun id t ht => ?_⟩
  · rw [hr]
    rw [hmade] at hk
    split at hk
    · cases hk
      exact ⟨task, htask, .refl task, .inl hentry⟩
    · exact (h.made k t hk).create task
  · -- Nobody has made a task with the id of the new one.
    have hnobody (k : Nat) (t : Task) (hk : m.Made k t) : t.id ≠ task.id := by
      intro heq
      obtain ⟨t', ht', -⟩ := h.made k t hk
      rw [heq, hnone] at ht'
      cases ht'
    exact unique_of_moves (g := Task.id) h.unique hnobody hmade hi hj hsame
  · rw [hr] at ht
    rcases Registry.task?_of_create ht with hbefore | ⟨rfl, rfl⟩
    · obtain ⟨k, t', hk, hid'⟩ := h.origin id t hbefore
      have hne : place ≠ k := by
        rintro rfl
        exact hnothing t' hk
      exact ⟨k, t', (hmade k t').mpr (by rwa [if_neg hne]), hid'⟩
    · exact ⟨place, t, (hmade place t).mpr (by rw [if_pos rfl]), rfl⟩

/-- Every event keeps account of who made which task. -/
theorem step (h : m.Accounts) {past : List ExecutionId} (hspends : m.Spends past)
    (hchange : m.Change m' event) : m'.Accounts := by
  cases hchange with
  | upkeep hr hgiven hstays hfresh =>
    exact h.of_same (fun task hstores => hstores.of_upkeep hr hspends.own) hr.noneNew
      fun k task => shows_of_stays hstays hfresh fun _ hf => hf.2.2
  | @moves place op args phase phase' got hat hat' hmoves hgiven hothers =>
    generalize hr : m'.registry = r' at hmoves
    -- A move after which tasks and executions are what they were.
    have hquiet (hcells : r'.cells = m.registry.cells)
        (hcorrelator : r'.correlator = m.registry.correlator)
        (hmade : ∀ k task, m'.Made k task ↔ m.Made k task) : m'.Accounts := by
      have htask (id : TaskId) : m'.registry.task? id = m.registry.task? id := by
        rw [Registry.task?, Registry.cell?, hr, hcells]
        rfl
      refine h.of_same (fun task hstores => ?_) (.of_cells (by rw [hr, hcells])) hmade
      unfold Registry.Stores
      rwa [htask, hr, hcorrelator]
    cases hmoves with
    | names | reserves | refused | started | failed | timed | leaves =>
      exact hquiet rfl rfl fun k task => shows_of_same hat hat' hothers rfl
    | @stores task r' answer hcreate =>
      rcases m.registry.create_cases task with ⟨e, heq⟩ | ⟨hid, hexecution, heq⟩
      · rw [hcreate] at heq
        cases heq
        exact hquiet rfl rfl fun k task => shows_of_same hat hat' hothers rfl
      · have hr' : m'.registry = (m.registry.create task).1 := by rw [hr, hcreate]
        rw [hcreate] at heq
        cases heq
        refine h.make hid hexecution (fun t ht => ?_) hr' fun k t => shows_of_moves hat' hothers
        cases hat.shows_iff.mp ht

end Machine.Accounts

/-! ### Executions that were given -/

/-- What is true of the triggers of a machine after some events. -/
structure Machine.Tracked (m : Machine) (past : List Event) : Prop where
  recorded : m.Recorded
  phased : m.Phased
  reserves : m.Reserves
  spends : m.Spends (executions past)
  accounts : m.Accounts
  /-- No execution that was given to a trigger is lost. -/
  gives : ∀ event ∈ past, ∀ place execution, event.given? = some (place, execution) →
    m.Shows Phase.execution? place execution

namespace Machine.Tracked

variable {past : List Event} {place : Nat}

theorem empty : Machine.Tracked ⟨∅, []⟩ [] := by
  have hnothing {β : Type} (f : Phase → Option β) (k : Nat) (b : β) :
      ¬ Machine.Shows ⟨∅, []⟩ f k b := by
    rintro ⟨phase, ⟨op, args, given, hplace, -⟩, -⟩
    cases hplace
  constructor
  case recorded => exact recorded_empty
  case phased => exact fun _ _ _ _ _ hplace => nomatch hplace
  case reserves =>
    constructor
    · exact fun id => ⟨fun hid => (nomatch hid), fun ⟨k, hk⟩ => (hnothing _ k id hk).elim⟩
    · exact fun i j id hi => (hnothing _ i id hi).elim
  case spends =>
    constructor
    · exact fun _ _ _ _ ht => nomatch ht
    · exact fun _ _ _ _ ht => nomatch ht
    · exact fun k e hk => (hnothing _ k e hk).elim
    · exact fun i j e hi => (hnothing _ i e hi).elim
  case accounts =>
    constructor
    · exact fun k task hk => (hnothing _ k task hk).elim
    · exact fun i j task task' hi => (hnothing _ i task hi).elim
    · exact fun _ _ ht => nomatch ht
  case gives => exact fun _ he => nomatch he

theorem cell?_of_holds (h : m.Tracked past) {id : TaskId} (hholds : m.Holds place id) :
    m.registry.cell? id = none :=
  h.recorded.sound.consistent.reserved id ((h.reserves.reserved id).mpr ⟨place, hholds⟩)

theorem taskFor?_of_inHand (h : m.Tracked past) {execution : ExecutionId}
    (hhand : m.InHand place execution) : m.registry.correlator.taskFor? execution = none :=
  (h.spends.inHand place execution hhand).2.taskFor?_eq_none h.recorded.sound.consistent

/-- A task that a trigger is about to store is new, and so is its execution. -/
theorem isNew_of_storing (h : m.Tracked past) {task : Task} (hat : m.At place (.storing task)) :
    m.registry.cell? task.id = none ∧ m.registry.correlator.taskFor? task.execution = none :=
  ⟨h.cell?_of_holds (hat.shows_iff.mpr rfl), h.taskFor?_of_inHand (hat.shows_iff.mpr rfl)⟩

/-- A trigger that moves does not lose its execution. -/
theorem shows_execution (h : m.Tracked past) (hchange : m.Change m' event) {execution : ExecutionId}
    (hshows : m.Shows Phase.execution? place execution) :
    m'.Shows Phase.execution? place execution := by
  obtain ⟨phase, hat, hexecution⟩ := hshows
  cases hchange with
  | upkeep hr hgiven hstays hfresh => exact ⟨phase, hstays place phase hat, hexecution⟩
  | @moves k op args phase₀ phase' got hat₀ hat' hmoves hgiven hothers =>
    by_cases hk : k = place
    · subst hk
      obtain rfl := hat.unique hat₀
      refine ⟨phase', hat', ?_⟩
      generalize hr : m'.registry = r' at hmoves
      cases hmoves with
      | timed now => exact hexecution
      | @stores task r' answer hcreate =>
        obtain ⟨hid, hnew⟩ := h.isNew_of_storing hat
        have hok := Registry.create_of_new hid hnew
        rw [hcreate] at hok
        subst hok
        exact hexecution
      | names | reserves | refused | started | failed | leaves => cases hexecution
    · exact ⟨phase, (hothers place phase hk).mpr hat, hexecution⟩

/-- Every event keeps all of this, unless the engine gives an execution twice. -/
theorem step (h : m.Tracked past) {t : Tracker} (hstep : m.step? t event = some m')
    (hnew : ∀ e, event.execution? = some e → e ∉ executions past) : m'.Tracked (past ++ [event]) := by
  obtain ⟨hphased, hchange⟩ := h.recorded.change h.phased hstep
  have hexecutions : executions (past ++ [event]) = executions past ++ event.execution?.toList := by
    rw [executions, List.filterMap_append]
    congr 1
  refine ⟨h.recorded.step hstep, hphased, h.reserves.step hchange, ?_, h.accounts.step h.spends hchange,
    fun e he place execution hgiven => ?_⟩
  · rw [hexecutions]
    exact h.spends.step hchange hnew
  · rcases List.mem_append.mp he with he | he
    · exact h.shows_execution hchange (h.gives e he place execution hgiven)
    · obtain rfl := List.mem_singleton.mp he
      cases hchange with
      | upkeep hr hgiven' hstays hfresh =>
        rw [hgiven'] at hgiven
        cases hgiven
      | @moves k op args phase phase' got hat hat' hmoves hgiven' hothers =>
        rw [hgiven', Option.map_eq_some_iff] at hgiven
        obtain ⟨execution', rfl, heq⟩ := hgiven
        cases heq
        generalize hr : m'.registry = r' at hmoves
        cases hmoves with
        | started => exact ⟨_, hat', rfl⟩

/-- Every run in which the engine gives no execution twice keeps all of this. -/
theorem run (h : m.Tracked past) {t : Tracker} {events : List Event}
    (hrun : m.run? t events = some m') (hnew : (executions (past ++ events)).Nodup) :
    m'.Tracked (past ++ events) := by
  induction events generalizing m past with
  | nil =>
    cases hrun
    rwa [List.append_nil]
  | cons event events ih =>
    rw [run?_cons] at hrun
    obtain ⟨m₁, hstep, hrun⟩ := Option.bind_eq_some_iff.mp hrun
    have happend : past ++ event :: events = past ++ [event] ++ events := by simp
    rw [happend] at hnew ⊢
    refine ih (h.step hstep fun e he hpast => ?_) hrun hnew
    have hprefix : (executions (past ++ [event])).Nodup := by
      rw [executions, List.filterMap_append] at hnew
      exact (List.nodup_append.mp hnew).1
    rw [executions, List.filterMap_append, List.nodup_append] at hprefix
    exact hprefix.2.2 e hpast e (by simp [he]) rfl

end Machine.Tracked

/-! ### What becomes of a trigger -/

/-- A trigger that was given an execution has yet to read the clock, and can do so; or it has yet to store
its task, and can do so; or it has stored it. -/
inductive Machine.Completes (t : Tracker) (m : Machine) (place : Nat) (execution : ExecutionId) :
    Prop where
  | recording {id : TaskId} (hat : m.At place (.recording id execution))
    (hnext : ∀ now, ∃ m' task, m.step? t (.reply place (.time now)) = some m' ∧
      m'.At place (.storing task) ∧ task.id = id ∧ task.execution = execution)
  | storing {task : Task} (hat : m.At place (.storing task)) (hexecution : task.execution = execution)
    (hnext : ∀ now, ∃ m', m.step? t (.serve place now) = some m' ∧
      m'.At place (.ended (.ok task)) ∧ m'.registry.task? task.id = some task ∧
        m'.registry.correlator.taskFor? execution = some task.id)
  | ended {task : Task} (hat : m.At place (.ended (.ok task))) (hexecution : task.execution = execution)
    (hstores : m.registry.Stores task)

variable {t : Tracker} {past : List Event} {place : Nat}

/-- A trigger whose execution has started can go on as soon as the clock is read. -/
theorem Machine.At.step_recording {id : TaskId} {execution : ExecutionId}
    (h : m.At place (.recording id execution)) (now : Instant) :
    ∃ m' task, m.step? t (.reply place (.time now)) = some m' ∧ m'.At place (.storing task) ∧
      task.id = id ∧ task.execution = execution := by
  obtain ⟨op, args, given, hplace, hfits⟩ := h
  obtain ⟨hlt, -⟩ := List.getElem?_eq_some_iff.mp hplace
  let task := Task.start id op.field args execution now
  have hreceive : receive t m.registry (.at ((Phase.recording id execution).call op args))
      (.time now) = some (m.registry, .at ((Phase.storing task).call op args)) := rfl
  have hstep := step?_reply_eq_some_iff.mpr ⟨_, _, _, _, hplace, hreceive, rfl⟩
  exact ⟨_, task, hstep, ⟨op, args, given, List.getElem?_set_self hlt, hfits, rfl, rfl⟩, rfl, rfl⟩

/-- A trigger that is about to store its task can do so at any time, and is not refused. -/
theorem Machine.Tracked.step_storing (h : m.Tracked past) {task : Task}
    (hat : m.At place (.storing task)) (now : Instant) :
    ∃ m', m.step? t (.serve place now) = some m' ∧ m'.At place (.ended (.ok task)) ∧
      m'.registry.task? task.id = some task ∧
        m'.registry.correlator.taskFor? task.execution = some task.id := by
  obtain ⟨hid, hexecution⟩ := h.isNew_of_storing hat
  have hok := Registry.create_of_new hid hexecution
  obtain ⟨op, args, given, hplace, hfits⟩ := hat
  obtain ⟨hlt, -⟩ := List.getElem?_eq_some_iff.mp hplace
  have hserve : serveLocal m.registry m.isLocked now (.create task)
      (fun created => .done (created.map fun _ => task)) =
        some ((m.registry.create task).1, .at ((Phase.ended (.ok task)).call op args)) := by
    rw [serveLocal, hok]
    rfl
  have hstep := step?_serve_eq_some_iff (t := t).mpr ⟨_, _, _, _, _, hplace, hserve, rfl⟩
  exact ⟨_, hstep, ⟨op, args, given, List.getElem?_set_self hlt, hfits⟩,
    Registry.stores_create hid hexecution⟩

/-- Every trigger that was given an execution ends with its task, and both are stored. -/
theorem Machine.Tracked.completes (h : m.Tracked past) {execution : ExecutionId}
    (hgiven : .reply place (.started (.ok execution)) ∈ past) : m.Completes t place execution := by
  obtain ⟨phase, hat, hexecution⟩ := h.gives _ hgiven place execution rfl
  cases phase with
  | recording id e =>
    cases hexecution
    exact .recording hat hat.step_recording
  | storing task =>
    cases hexecution
    exact .storing hat rfl (h.step_storing hat)
  | ended result =>
    cases result with
    | error e => cases hexecution
    | ok task =>
      cases hexecution
      exact .ended hat rfl (h.accounts.made place task (hat.shows_iff.mpr rfl))
  | naming | entering | starting | leaving => cases hexecution

/-- Only a trigger that holds its id asks the engine for a start. -/
theorem Machine.Tracked.at_starting (h : m.Tracked past) {job : Job} {query : CompiledQuery}
    {next : Except Error ExecutionId → Call job.Result}
    (hplace : m.threads[place]? = some ⟨job, .at (.ask (.start query) next)⟩) :
    ∃ id, m.At place (.starting id query) := by
  by_cases hjob : ∃ op args given, job = .trigger op args given
  · obtain ⟨op, args, given, rfl⟩ := hjob
    obtain ⟨phase, hcall, hfits⟩ := h.phased place op args given _ hplace
    rw [hcall] at hplace
    cases phase with
    | starting id query' =>
      cases hcall
      exact ⟨id, op, args, given, hplace, hfits⟩
    | naming | entering | recording | storing | leaving | ended => cases hcall
  · have hasks := h.recorded.asking place job _ hplace
    rw [Job.mayAsk_eq_follows fun op args given heq => hjob ⟨op, args, given, heq⟩] at hasks
    exact (hasks.1 m.registry (.refl m.registry)).elim

/-- An id can be reserved exactly if no trigger holds it and none has made a task with it. -/
theorem Machine.Tracked.reserve_iff (h : m.Tracked past) (id : TaskId) :
    (m.registry.reserve id).2 = .ok () ↔
      (∀ place, ¬ m.Holds place id) ∧ ∀ place task, m.Made place task → task.id ≠ id := by
  constructor
  · intro hok
    rcases m.registry.reserve_cases id with heq | ⟨hid, hfree, -⟩
    · rw [heq] at hok
      cases hok
    · refine ⟨fun place hholds => hfree ((h.reserves.reserved id).mpr ⟨place, hholds⟩), ?_⟩
      rintro place task hmade rfl
      obtain ⟨t, ht, -⟩ := h.accounts.made place task hmade
      rw [Registry.task?, hid] at ht
      cases ht
  · rintro ⟨hnobody, hnone⟩
    have hid : m.registry.contains id = false := by
      rw [Registry.contains, Keyed.contains, Option.isSome_eq_false_iff, Option.isNone_iff_eq_none,
        Option.eq_none_iff_forall_ne_some]
      intro c hc
      obtain ⟨place, task, hmade, heq⟩ :=
        h.accounts.origin id c.task (Registry.task?_eq_some_iff.mpr ⟨c, hc, rfl⟩)
      exact hnone place task hmade heq
    have hfree : id ∉ m.registry.reserved := by
      rw [h.reserves.reserved]
      rintro ⟨place, hholds⟩
      exact hnobody place hholds
    rw [Registry.reserve, if_neg (by simp [hid, hfree])]

/-- Triggers make one task for each id at most, and no execution goes without its task, however calls
interleave, as long as the engine gives no execution twice. Every trigger is in a phase. The engine is
asked for a start only by a trigger that holds an id which no task has and no other trigger holds. A
trigger that is given an execution stores its task and the entry of the execution, and ends with the
task. No two triggers make tasks with one id. And an id is free exactly if no trigger holds it and none
has made a task with it. -/
theorem Machine.trigger_once {events : List Event}
    (hrun : Machine.run? t ⟨∅, []⟩ events = some m) (hnew : (executions events).Nodup) :
    m.Phased ∧
      (∀ (place : Nat) (job : Job) query (next : Except Error ExecutionId → Call job.Result),
        m.threads[place]? = some ⟨job, .at (.ask (.start query) next)⟩ →
          ∃ id, m.At place (.starting id query) ∧ m.registry.task? id = none ∧
            ∀ other, m.Holds other id → other = place) ∧
      (∀ place execution, .reply place (.started (.ok execution)) ∈ events →
        m.Completes t place execution) ∧
      (∀ i j task task', m.Made i task → m.Made j task' → task.id = task'.id → i = j) ∧
      ∀ id, (m.registry.reserve id).2 = .ok () ↔
        (∀ place, ¬ m.Holds place id) ∧ ∀ place task, m.Made place task → task.id ≠ id := by
  have htracked : m.Tracked events := Tracked.empty.run hrun hnew
  refine ⟨htracked.phased, fun place job query next hplace => ?_,
    fun place execution hgiven => htracked.completes hgiven, htracked.accounts.unique,
    htracked.reserve_iff⟩
  obtain ⟨id, hat⟩ := htracked.at_starting hplace
  have hholds : m.Holds place id := hat.shows_iff.mpr rfl
  have hnone : m.registry.task? id = none := by
    rw [Registry.task?, htracked.cell?_of_holds hholds, Option.map_none]
  exact ⟨id, hat, hnone, fun other hother => htracked.reserves.unique other place id hother hholds⟩

/-- Two triggers with one id, and a third one that the engine refuses. A report on the execution comes
before its task is stored. -/
def triggerRace : List Event :=
  [.begin (.trigger allUsers ∅ (some ⟨"t1"⟩)), .begin (.trigger allUsers ∅ (some ⟨"t1"⟩)),
    .serve 0 ⟨0, 0⟩, .serve 1 ⟨0, 0⟩, .begin (.trigger allUsers ∅ none), .reply 2 (.newId ⟨"t2"⟩),
    .serve 2 ⟨1, 0⟩, .reply 0 (.started (.ok ⟨"e1"⟩)), .reply 2 (.started (.error (.io "down"))),
    .begin (.push ⟨⟨"e1"⟩, .cancelled⟩), .serve 3 ⟨2, 0⟩, .reply 0 (.time ⟨3, 0⟩), .serve 2 ⟨4, 0⟩,
    .serve 0 ⟨5, 0⟩]

/-- The first trigger makes the one task, the second one is refused before the engine is asked, and the
third one leaves its id free. -/
theorem Machine.trigger_once_race :
    ∃ m, Machine.run? (.plain .standard) ⟨∅, []⟩ triggerRace = some m ∧
      (executions triggerRace).Nodup ∧ m.Completes (.plain .standard) 0 ⟨"e1"⟩ ∧
      m.At 1 (.ended (.error (.taskExists ⟨"t1"⟩))) ∧
      (∀ place task, m.Made place task → task.id = ⟨"t1"⟩ → place = 0) ∧
      ∀ place, ¬ m.Holds place ⟨"t2"⟩ := by
  have hnew : (executions triggerRace).Nodup := by decide
  obtain ⟨m, hrun, hfirst, hsecond, hfree⟩ :
      ∃ m, Machine.run? (.plain .standard) ⟨∅, []⟩ triggerRace = some m ∧
        m.At 0 (.ended (.ok (.start ⟨"t1"⟩ allUsers.field ∅ ⟨"e1"⟩ ⟨3, 0⟩))) ∧
        m.At 1 (.ended (.error (.taskExists ⟨"t1"⟩))) ∧ (m.registry.reserve ⟨"t2"⟩).2 = .ok () := by
    refine ⟨_, rfl, ⟨allUsers, ∅, some ⟨"t1"⟩, rfl, ?_⟩, ⟨allUsers, ∅, some ⟨"t1"⟩, rfl, trivial⟩, rfl⟩
    exact ⟨fun _ hk => Option.some.inj hk, rfl, rfl⟩
  obtain ⟨-, -, hcompletes, hunique, hreserve⟩ := trigger_once hrun hnew
  refine ⟨m, hrun, hnew, hcompletes 0 ⟨"e1"⟩ ?_, hsecond, fun place task hmade hid => ?_,
    ((hreserve ⟨"t2"⟩).mp hfree).1⟩
  · exact List.mem_of_getElem? (i := 7) rfl
  · exact hunique place 0 task _ hmade (hfirst.shows_iff.mpr rfl) hid

end Tracker

end SchemaQuery
