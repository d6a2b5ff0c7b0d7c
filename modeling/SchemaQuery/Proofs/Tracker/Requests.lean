import SchemaQuery.Proofs.Task.Record
import SchemaQuery.Proofs.Tracker.Sound

/-!
What the calls of the tracker ask for. A trigger reserves and stores, and stores only tasks that have
just been started. Every other call asks for what is known or applies a report, but for two requests:
the end of a task is marked as seen only once it has come, and an execution is forgotten only once a
task that ran it has ended. Both go on being true while others change the registry.
-/

namespace SchemaQuery

/-! ### The requests of a call -/

namespace Call

variable {α β : Type}

/-- Whatever is answered, the call makes requests of this kind alone. -/
def Only (K : Request → Prop) : Call α → Prop
  | .done _ => True
  | .ask request next => K request ∧ ∀ answer, (next answer).Only K

/-- However others change the registry meanwhile, the call makes each request where it may be made. -/
def Asks (P : Registry → Request → Prop) : Call α → Registry → Prop
  | .done _, _ => True
  | .ask request next, r => (∀ r', r.Evolves r' → P r' request) ∧
    ∀ r' answer, r.Evolves r' → r'.Consistent → request.Allows r' answer → (next answer).Asks P r'

variable {K : Request → Prop} {P : Registry → Request → Prop} {Q : Registry → α → Prop}

theorem only_request {request : Request} {f : request.Answer → Call α} (h : K request)
    (hf : ∀ answer, (f answer).Only K) : (Call.request request >>= f).Only K :=
  ⟨h, hf⟩

theorem Only.bind {c : Call α} {f : α → Call β} (hc : c.Only K) (hf : ∀ a, (f a).Only K) :
    (c >>= f).Only K := by
  induction c with
  | done a => exact hf a
  | ask request next ih => exact ⟨hc.1, fun answer => ih answer (hc.2 answer)⟩

theorem Only.imp {K' : Request → Prop} {c : Call α} (hc : c.Only K)
    (hK : ∀ request, K request → K' request) : c.Only K' := by
  induction c with
  | done a => trivial
  | ask request next ih => exact ⟨hK request hc.1, fun answer => ih answer (hc.2 answer)⟩

theorem Only.asks {c : Call α} (h : c.Only K) (hK : ∀ request, K request → ∀ r, P r request)
    (r : Registry) : c.Asks P r := by
  induction c generalizing r with
  | done a => trivial
  | ask request next ih =>
    exact ⟨fun r' _ => hK request h.1 r', fun r' answer _ _ _ => ih answer (h.2 answer) r'⟩

theorem asks_request {request : Request} {f : request.Answer → Call α} {r : Registry}
    (hP : ∀ r', r.Evolves r' → P r' request)
    (hf : ∀ r' answer, r.Evolves r' → r'.Consistent → request.Allows r' answer →
      (f answer).Asks P r') : (Call.request request >>= f).Asks P r :=
  ⟨hP, hf⟩

/-- One call after another: the second one goes on from what the first one ensures. -/
theorem Asks.bind {c : Call α} {f : α → Call β} {r : Registry} (h : c.Asks P r)
    (hQ : c.Ensures Q r) (hf : ∀ r' a, r.Evolves r' → Q r' a → (f a).Asks P r') :
    (c >>= f).Asks P r := by
  induction c generalizing r with
  | done a => exact hf r a (.refl r) hQ
  | ask request next ih =>
    refine ⟨h.1, fun r' answer hevolves hconsistent hanswer => ?_⟩
    have hnext := h.2 r' answer hevolves hconsistent hanswer
    have hensures := hQ r' answer hevolves hconsistent hanswer
    exact ih answer hnext hensures fun r'' a hevolves' ha => hf r'' a (hevolves.trans hevolves') ha

theorem Asks.of_evolves {c : Call α} {r r' : Registry} (h : c.Asks P r) (hevolves : r.Evolves r') :
    c.Asks P r' := by
  cases c with
  | done a => trivial
  | ask request next =>
    refine ⟨fun r'' hevolves' => h.1 r'' (hevolves.trans hevolves'), ?_⟩
    intro r'' answer hevolves' hconsistent hanswer
    exact h.2 r'' answer (hevolves.trans hevolves') hconsistent hanswer

end Call

/-! ### Kinds of requests -/

/-- A task that ran this execution has ended. -/
def Registry.HasEnded (r : Registry) (execution : ExecutionId) : Prop :=
  ∃ id t, r.task? id = some t ∧ t.isFinished = true ∧ t.execution = execution

theorem Registry.Evolves.hasEnded {r r' : Registry} (h : r.Evolves r') {execution : ExecutionId}
    (hended : r.HasEnded execution) : r'.HasEnded execution := by
  obtain ⟨id, t, ht, hfinished, hexecution⟩ := hended
  exact ⟨id, t, h.task?_of_isFinished ht hfinished, hfinished, hexecution⟩

namespace Request

/-- The request asks for what is known of a task, or applies a report. -/
def Looks : Request → Prop
  | .clock | .ids | .cell _ | .converge _ _ | .state _ => True
  | .newId | .reserve _ | .release _ | .create _ | .lookup _ | .observe _ | .forget _ | .start _ => False

/-- The request belongs to the making of a task, which has just been started when it is stored. -/
def Triggers : Request → Prop
  | .clock | .newId | .reserve _ | .release _ | .start _ => True
  | .create task => task.IsNew
  | .ids | .lookup _ | .cell _ | .observe _ | .converge _ _ | .forget _ | .state _ => False

/-- The request belongs to the following of tasks: an end that is marked as seen has come, and an
execution that is forgotten is that of a task which has ended. -/
def Follows (r : Registry) : Request → Prop
  | .observe id => ∃ t, r.task? id = some t ∧ t.isFinished = true
  | .forget executions => ∀ execution ∈ executions, r.HasEnded execution
  | .lookup _ => True
  | request => request.Looks

theorem Looks.follows {request : Request} (h : request.Looks) (r : Registry) :
    request.Follows r := by
  cases request <;> trivial

end Request

namespace Tracker

/-- What the call of a job may ask for, where it asks for it. -/
def Job.MayAsk (job : Job) (r : Registry) (request : Request) : Prop :=
  match job with
  | .trigger _ _ _ => request.Triggers
  | _ => request.Follows r

/-! ### What each call asks for -/

theorem only_giveUp (id : TaskId) (e : Error) : (giveUp id e).Only Request.Triggers :=
  Call.only_request trivial fun _ => trivial

theorem only_record (op : Operation) (args : Arguments) (id : TaskId) (execution : ExecutionId) :
    (record op args id execution).Only Request.Triggers := by
  refine Call.only_request trivial fun now => ?_
  exact Call.only_request (Task.isNew_start ..) fun _ => trivial

theorem only_submit (op : Operation) (args : Arguments) (id : TaskId) (query : CompiledQuery) :
    (submit op args id query).Only Request.Triggers := by
  refine Call.only_request trivial fun answer => ?_
  split
  · exact only_record op args id _
  · exact only_giveUp id _

theorem only_enter (op : Operation) (args : Arguments) (query : CompiledQuery) (id : TaskId) :
    (enter op args query id).Only Request.Triggers := by
  refine Call.only_request trivial fun answer => ?_
  split
  · exact only_submit op args id query
  · trivial

/-- A trigger makes a task, and nothing else. -/
theorem only_trigger (op : Operation) (args : Arguments) (id : Option TaskId) :
    (trigger op args id).Only Request.Triggers := by
  unfold trigger
  split
  · split
    · trivial
    · split
      · exact only_enter op args _ _
      · exact Call.only_request trivial fun id => only_enter op args _ id
  · trivial

theorem only_converge (id : TaskId) (report : ExecutionState) :
    (converge id report).Only Request.Looks :=
  ⟨trivial, fun _ => trivial⟩

theorem only_refresh (t : Tracker) (id : TaskId) (task : Task) :
    (t.refresh id task).Only Request.Looks := by
  refine Call.only_request trivial fun answer => ?_
  refine Call.only_request trivial fun now => ?_
  split
  · exact only_converge id _
  · exact only_converge id _
  · exact only_converge id _
  · trivial

theorem only_get (id : TaskId) : (get id).Only Request.Looks := by
  refine Call.only_request trivial fun cell => ?_
  split <;> trivial

theorem only_sweepOne (t : Tracker) (id : TaskId) : (t.sweepOne id).Only Request.Looks := by
  refine Call.only_request trivial fun cell => ?_
  split
  · trivial
  · split
    · trivial
    · refine Call.only_request trivial fun now => ?_
      split
      · trivial
      · refine (t.only_refresh id _).bind fun result => ?_
        split <;> trivial

theorem only_sweepEach (t : Tracker) (ids : List TaskId) :
    (t.sweepEach ids).Only Request.Looks := by
  induction ids with
  | nil => trivial
  | cons id ids ih =>
    refine (t.only_sweepOne id).bind fun timedOut => ?_
    exact ih.bind fun rest => trivial

theorem only_sweepExpired (t : Tracker) : t.sweepExpired.Only Request.Looks := by
  unfold sweepExpired
  split
  · trivial
  · exact Call.only_request trivial fun ids => t.only_sweepEach ids

theorem only_releasableOf (ids : List TaskId) : (releasableOf ids).Only Request.Looks := by
  induction ids with
  | nil => trivial
  | cons id ids ih => exact Call.only_request trivial fun cell => ih.bind fun rest => trivial

/-- The executions that are found to be releasable are those of tasks that have ended. -/
theorem ensures_releasableOf (ids : List TaskId) (r : Registry) :
    (releasableOf ids).Ensures (fun r executions => ∀ e ∈ executions, r.HasEnded e) r := by
  induction ids generalizing r with
  | nil => exact fun e he => nomatch he
  | cons id ids ih =>
    refine Call.ensures_request fun r₁ cell _ _ hanswer => ?_
    obtain rfl : cell = r₁.cell? id := hanswer
    refine (ih r₁).bind fun r₂ rest hevolves hrest => ?_
    intro e he
    split at he
    · next c hc =>
      split at he
      · next hreleasable =>
        rcases List.mem_cons.mp he with rfl | he
        · have hfinished : c.task.isFinished = true := (Bool.and_eq_true_iff.mp hreleasable).2
          have htask : r₁.task? id = some c.task := Registry.task?_eq_some_iff.mpr ⟨c, hc, rfl⟩
          exact hevolves.hasEnded ⟨id, c.task, htask, hfinished, rfl⟩
        · exact hrest e he
      · exact hrest e he
    · exact hrest e he

theorem asks_collectGarbage (r : Registry) : collectGarbage.Asks Request.Follows r := by
  refine Call.asks_request (fun _ _ => trivial) fun r₁ ids _ _ _ => ?_
  have hlooks := (only_releasableOf ids).asks (P := Request.Follows)
    (fun _ hlooks r => hlooks.follows r) r₁
  refine hlooks.bind (ensures_releasableOf ids r₁) fun r₂ executions _ hended => ?_
  exact ⟨fun r₃ hevolves e he => hevolves.hasEnded (hended e he), fun _ _ _ _ _ => trivial⟩

/-- The end of a task is marked as seen only if it has come. -/
theorem asks_present {id : TaskId} {task : Task} {r : Registry} (h : Tells id r (.ok task)) :
    (present id task).Asks Request.Follows r := by
  unfold present
  by_cases hfinished : task.isFinished = true
  · rw [if_pos hfinished]
    have htask := h task rfl hfinished
    refine Call.asks_request (fun r' hevolves => ?_) fun _ _ _ _ _ => trivial
    exact ⟨task, hevolves.task?_of_isFinished htask hfinished, hfinished⟩
  · rw [if_neg hfinished]
    trivial

theorem asks_poll (t : Tracker) (id : TaskId) (r : Registry) :
    (t.poll id).Asks Request.Follows r := by
  refine Call.asks_request (fun _ _ => trivial) fun r₁ cell _ _ hanswer => ?_
  obtain rfl : cell = r₁.cell? id := hanswer
  split
  · trivial
  · next cell hcell =>
    split
    · exact asks_present (tells_of_cell? hcell)
    · have hlooks := (t.only_refresh id cell.task).asks (P := Request.Follows)
        (fun _ hlooks r => hlooks.follows r) r₁
      refine hlooks.bind (t.ensures_refresh id cell.task r₁) fun r₂ result _ htells => ?_
      split
      · trivial
      · exact asks_present htells

theorem asks_push (n : Notification) (r : Registry) : (push n).Asks Request.Follows r := by
  refine Call.asks_request (fun _ _ => trivial) fun r₁ found _ _ _ => ?_
  split
  · exact Call.asks_request (fun _ _ => trivial) fun _ _ _ _ _ => trivial
  · trivial

/-- Every job asks only for what it may ask for. -/
theorem Job.asks (t : Tracker) (job : Job) (r : Registry) : (job.call t).Asks job.MayAsk r := by
  have hfollows {request : Request} (hlooks : request.Looks) (r : Registry) :
      request.Follows r := hlooks.follows r
  cases job with
  | trigger op args id => exact (only_trigger op args id).asks (fun _ htriggers _ => htriggers) r
  | get id => exact (only_get id).asks (fun _ => hfollows) r
  | push n => exact asks_push n r
  | poll id => exact t.asks_poll id r
  | converge id report => exact (only_converge id report).asks (fun _ => hfollows) r
  | sweep => exact t.only_sweepExpired.asks (fun _ => hfollows) r
  | collect => exact asks_collectGarbage r

/-! ### Requests while others move -/

/-- However others change the registry, a call goes on to make each request where it may be made. -/
def Progress.Asks {α : Type} (P : Registry → Request → Prop) : Progress α → Registry → Prop
  | .at c, r => c.Asks P r
  | .fetching _ id next, r => ∀ r', r.Evolves r' → r'.Consistent → (next (r'.known id)).Asks P r'

section Moves

variable {α : Type} {P : Registry → Request → Prop} {p p' : Progress α} {r r' : Registry}

theorem Progress.Asks.of_evolves (h : p.Asks P r) (hevolves : r.Evolves r') : p.Asks P r' := by
  cases p with
  | «at» c => exact Call.Asks.of_evolves h hevolves
  | fetching task id next =>
    exact fun r'' hevolves' hconsistent => h r'' (hevolves.trans hevolves') hconsistent

/-- A call that moves goes on making its requests where they may be made. -/
theorem Moves.asks {t : Tracker} {isLocked : TaskId → Bool} (h : Moves t isLocked r p r' p')
    (hr : r.Consistent) (hp : p.Asks P r) : p'.Asks P r' := by
  have hevolves := h.evolves
  have hconsistent := h.consistent hr
  cases h with
  | answered hserves hlocked => exact hp.2 r' _ hevolves hconsistent hserves.allows
  | locks hfree htask hrunning =>
    exact fun r' hevolves' hconsistent' => hp.2 r' _ hevolves' hconsistent' rfl
  | unlocks now answer => exact hp _ hevolves hconsistent

end Moves

/-- Every call of the machine makes its requests where its job may make them. -/
def Machine.Asking (m : Machine) : Prop :=
  ∀ (place : Nat) (job : Job) (p : Progress job.Result), m.threads[place]? = some ⟨job, p⟩ →
    p.Asks job.MayAsk m.registry

/-- Every event keeps the calls of a machine to what their jobs may ask for. -/
theorem Machine.Asking.step {m m' : Machine} (h : m.Asking) (hm : m.Sound) {t : Tracker}
    {event : Event} (hstep : m.step? t event = some m') : m'.Asking := by
  intro k job q hk
  rcases step?_cases hstep with ⟨jobs, rfl⟩ | ⟨place, job', p, p', r', hplace, hmoves, rfl⟩
  · rcases mem_of_append hk with hk | ⟨job', hjob⟩
    · exact h k job q hk
    · cases hjob
      exact job.asks t m.registry
  · rcases eq_of_set hk with ⟨rfl, heq⟩ | ⟨-, hk⟩
    · cases heq
      exact hmoves.asks hm.consistent (h place job p hplace)
    · exact (h k job q hk).of_evolves hmoves.evolves

end Tracker

end SchemaQuery
