import SchemaQuery.Proofs.Task.Executions
import SchemaQuery.Proofs.Tracker.Phase
import SchemaQuery.Proofs.Tracker.Records

/-!
What one event does to the triggers of a machine. A call that is no trigger makes no task and touches no
reservation; it can end tasks, and it can forget executions of tasks that have ended. So an event moves
one trigger from a phase to another, or leaves all triggers in their phases, while others may begin.
-/

namespace SchemaQuery

/-! ### Moves of other calls -/

/-- What calls other than triggers do to a registry: no task is new, no reservation is made or given
back, and an entry leaves only if a task that ran its execution has ended. -/
structure Registry.Upkeep (r r' : Registry) : Prop where
  evolves : r.Evolves r'
  none : ∀ id, r.task? id = none → r'.task? id = none
  reserved : r'.reserved = r.reserved
  entry : ∀ e id, r.correlator.taskFor? e = some id →
    r'.correlator.taskFor? e = some id ∨ r.HasEnded e

namespace Registry

theorem Upkeep.refl (r : Registry) : r.Upkeep r where
  evolves := .refl r
  none _ h := h
  reserved := rfl
  entry _ _ h := .inl h

theorem Upkeep.task?_before {r r' : Registry} (h : r.Upkeep r') {id : TaskId} {t' : Task}
    (ht' : r'.task? id = some t') : ∃ t, r.task? id = some t ∧ t.Advances t' := by
  cases ht : r.task? id with
  | none =>
    rw [h.none id ht] at ht'
    cases ht'
  | some t =>
    obtain ⟨t'', ht'', hadvances⟩ := h.evolves id t ht
    obtain rfl : t'' = t' := Option.some.inj (ht''.symm.trans ht')
    exact ⟨t, rfl, hadvances⟩

theorem Upkeep.noneNew {r r' : Registry} (h : r.Upkeep r') : r.NoneNew r' := by
  intro id t' ht'
  obtain ⟨t, ht, hadvances⟩ := h.task?_before ht'
  exact ⟨t, ht, hadvances.execution_eq⟩

theorem upkeep_settle (r : Registry) (id : TaskId) (now : Instant) (outcome : Outcome) :
    r.Upkeep (r.settle id now outcome) where
  evolves := (Step.settle r id now outcome).evolves
  none k hk := by rw [task?_settle, hk, Option.map_none, ite_self]
  reserved := rfl
  entry _ _ h := .inl h

end Registry

/-- A request that belongs to the following of tasks is no more than upkeep. -/
theorem Request.Serves.upkeep {r r' : Registry} {request : Request} {answer : request.Answer}
    (h : request.Serves r r' answer) (hfollows : request.Follows r) : r.Upkeep r' := by
  cases request with
  | clock | state execution =>
    obtain rfl : r' = r := h
    exact .refl r'
  | ids | lookup execution | cell id =>
    obtain rfl := h.1
    exact .refl r'
  | observe id =>
    obtain rfl : r' = r.mark id true := h
    exact ⟨(Registry.Step.mark r id true).evolves, fun k hk => by rwa [Registry.task?_mark], rfl,
      fun _ _ he => .inl he⟩
  | converge id report =>
    rcases h.1 with rfl | ⟨now, outcome, rfl⟩
    · exact .refl r'
    · exact r.upkeep_settle id now outcome
  | forget executions =>
    obtain rfl : r' = (r.forget executions).1 := congrArg Prod.fst h
    refine ⟨(Registry.Step.forget r executions).evolves, fun k hk => by rwa [Registry.task?_forget],
      r.reserved_forget executions, fun e id he => ?_⟩
    rw [Registry.taskFor?_forget]
    split
    · next hmem => exact .inr (hfollows e hmem)
    · exact .inl he
  | newId | reserve id | release id | create task | start query => exact hfollows.elim

namespace Tracker

/-- A call that only follows tasks does no more than upkeep when it moves. -/
theorem Moves.upkeep {α : Type} {t : Tracker} {isLocked : TaskId → Bool} {r r' : Registry}
    {p p' : Progress α} (h : Moves t isLocked r p r' p') (hp : p.Asks Request.Follows r) :
    r.Upkeep r' := by
  cases h with
  | answered hserves hlocked => exact hserves.upkeep (hp.1 r (.refl r))
  | locks hfree htask hrunning => exact .refl r
  | unlocks now answer => exact r.upkeep_settle _ now _

/-! ### Triggers of a machine -/

/-- The trigger at a place is in a phase. -/
def Machine.At (m : Machine) (place : Nat) (phase : Phase) : Prop :=
  ∃ op args given, m.threads[place]? = some ⟨.trigger op args given, .at (phase.call op args)⟩ ∧
    phase.Fits op args given

/-- The trigger at a place is in a phase that shows something. -/
def Machine.Shows {β : Type} (m : Machine) (f : Phase → Option β) (place : Nat) (b : β) : Prop :=
  ∃ phase, m.At place phase ∧ f phase = some b

/-- Every trigger is in a phase. -/
def Machine.Phased (m : Machine) : Prop :=
  ∀ (place : Nat) (op : Operation) (args : Arguments) (given : Option TaskId) p,
    m.threads[place]? = some ⟨.trigger op args given, p⟩ →
      ∃ phase : Phase, p = .at (phase.call op args) ∧ phase.Fits op args given

/-- The execution that an event gives to a trigger, and the place of the trigger. -/
def Event.given? : Event → Option (Nat × ExecutionId)
  | .reply place answer => answer.execution?.map fun execution => (place, execution)
  | _ => none

/-- What an event does to the triggers of a machine: at most one of them moves, and others may begin. -/
inductive Machine.Change (m m' : Machine) (event : Event) : Prop where
  | upkeep (hr : m.registry.Upkeep m'.registry) (hgiven : event.given? = none)
    (hstays : ∀ place phase, m.At place phase → m'.At place phase)
    (hfresh : ∀ place phase, m'.At place phase → m.At place phase ∨ phase.IsFresh)
  | moves {place : Nat} {op : Operation} {args : Arguments} {phase phase' : Phase}
    {got : Option ExecutionId} (hat : m.At place phase) (hat' : m'.At place phase')
    (hmoves : phase.Moves op args m.registry m'.registry phase' got)
    (hgiven : event.given? = got.map fun execution => (place, execution))
    (hothers : ∀ k phase, place ≠ k → (m'.At k phase ↔ m.At k phase))

section

variable {m m' : Machine} {t : Tracker} {place : Nat} {phase phase' : Phase}

/-- A trigger is known by its inputs and what is left of it. -/
theorem thread_injective {op op' : Operation} {args args' : Arguments} {given given' : Option TaskId}
    {c c' : Call (Except Error Task)}
    (h : (⟨.trigger op args given, .at c⟩ : Thread) = ⟨.trigger op' args' given', .at c'⟩) :
    op = op' ∧ args = args' ∧ given = given' ∧ c = c' := by
  simp only [Thread.mk.injEq, Job.trigger.injEq] at h
  obtain ⟨⟨rfl, rfl, rfl⟩, hcall⟩ := h
  exact ⟨rfl, rfl, rfl, Progress.at.inj (eq_of_heq hcall)⟩

theorem Machine.At.unique (h : m.At place phase) (h' : m.At place phase') : phase = phase' := by
  obtain ⟨op, args, given, hthread, -⟩ := h
  obtain ⟨op', args', given', hthread', -⟩ := h'
  rw [hthread] at hthread'
  obtain ⟨rfl, rfl, rfl, hcall⟩ := thread_injective (Option.some.inj hthread')
  exact Phase.call_injective hcall

/-- What a trigger shows in its phase. -/
theorem Machine.At.shows_iff (h : m.At place phase) {β : Type} {f : Phase → Option β} {b : β} :
    m.Shows f place b ↔ f phase = some b := by
  constructor
  · rintro ⟨phase', hat, hf⟩
    rwa [h.unique hat]
  · exact fun hf => ⟨phase, h, hf⟩

theorem at_set_of_ne {k : Nat} (hne : place ≠ k) (r : Registry) (th : Thread) :
    Machine.At ⟨r, m.threads.set place th⟩ k phase ↔ m.At k phase := by
  unfold Machine.At
  rw [List.getElem?_set_ne hne]

/-- An event that begins jobs begins triggers which have done nothing. -/
theorem change_of_begins {event : Event} (jobs : List Job) (hgiven : event.given? = none)
    (hphased : m.Phased) :
    Machine.Phased { m with threads := m.threads ++ jobs.map (Thread.start t) } ∧
      m.Change { m with threads := m.threads ++ jobs.map (Thread.start t) } event := by
  constructor
  · intro place op args given p hplace
    rcases mem_of_append hplace with hplace | ⟨job, hjob⟩
    · exact hphased place op args given p hplace
    · cases hjob
      obtain ⟨phase, hcall, hfits, -⟩ := Phase.exists_isFresh op args given
      exact ⟨phase, congrArg Progress.at hcall, hfits⟩
  · refine .upkeep (.refl m.registry) hgiven (fun place phase hat => ?_) fun place phase hat => ?_
    · obtain ⟨op, args, given, hplace, hfits⟩ := hat
      obtain ⟨hlt, -⟩ := List.getElem?_eq_some_iff.mp hplace
      exact ⟨op, args, given, by rwa [List.getElem?_append_left hlt], hfits⟩
    · obtain ⟨op, args, given, hplace, hfits⟩ := hat
      rcases mem_of_append hplace with hplace | ⟨job, hjob⟩
      · exact .inl ⟨op, args, given, hplace, hfits⟩
      · cases job with
        | trigger op' args' given' =>
          obtain ⟨rfl, rfl, rfl, hcall⟩ := thread_injective hjob
          obtain ⟨phase', hcall', -, hfresh⟩ := Phase.exists_isFresh op args given
          have hsame : phase.call op args = phase'.call op args := hcall.trans hcall'
          rw [Phase.call_injective hsame]
          exact .inr hfresh
        | get | push | poll | converge | sweep | collect => cases hjob

/-- A trigger that moves goes from one phase to another, and the other triggers stay in theirs. -/
theorem change_of_moves {event : Event} {op : Operation} {args : Arguments} {given : Option TaskId}
    {r' : Registry} {got : Option ExecutionId} (hphased : m.Phased)
    (hplace : m.threads[place]? = some ⟨.trigger op args given, .at (phase.call op args)⟩)
    (hfits : phase.Fits op args given) (hmoves : phase.Moves op args m.registry r' phase' got)
    (hgiven : event.given? = got.map fun execution => (place, execution)) :
    Machine.Phased ⟨r', m.threads.set place ⟨.trigger op args given, .at (phase'.call op args)⟩⟩ ∧
      m.Change ⟨r', m.threads.set place ⟨.trigger op args given, .at (phase'.call op args)⟩⟩
        event := by
  have hfits' := hmoves.fits hfits
  obtain ⟨hlt, -⟩ := List.getElem?_eq_some_iff.mp hplace
  have hset : (m.threads.set place ⟨.trigger op args given, .at (phase'.call op args)⟩)[place]? =
      some ⟨.trigger op args given, .at (phase'.call op args)⟩ := List.getElem?_set_self hlt
  constructor
  · intro k op' args' given' p hk
    rcases eq_of_set hk with ⟨rfl, heq⟩ | ⟨-, hk⟩
    · cases heq
      exact ⟨phase', rfl, hfits'⟩
    · exact hphased k op' args' given' p hk
  · exact .moves ⟨op, args, given, hplace, hfits⟩ ⟨op, args, given, hset, hfits'⟩ hmoves hgiven
      fun k phase hne => at_set_of_ne hne r' _

/-- A call that is no trigger leaves all triggers in their phases. -/
theorem change_of_upkeep {event : Event} {job : Job} {p p' : Progress job.Result} {r' : Registry}
    (hphased : m.Phased) (hplace : m.threads[place]? = some ⟨job, p⟩)
    (hjob : ∀ op args given, job ≠ .trigger op args given) (hr : m.registry.Upkeep r')
    (hgiven : event.given? = none) :
    Machine.Phased ⟨r', m.threads.set place ⟨job, p'⟩⟩ ∧
      m.Change ⟨r', m.threads.set place ⟨job, p'⟩⟩ event := by
  constructor
  · intro k op args given q hk
    rcases eq_of_set hk with ⟨-, heq⟩ | ⟨-, hk⟩
    · exact absurd (congrArg Thread.job heq).symm (hjob op args given)
    · exact hphased k op args given q hk
  · refine .upkeep hr hgiven (fun k phase hat => ?_) fun k phase hat => ?_
    · obtain ⟨op, args, given, hk, hfits⟩ := hat
      have hne : place ≠ k := by
        rintro rfl
        rw [hplace] at hk
        exact hjob op args given (congrArg Thread.job (Option.some.inj hk))
      exact (at_set_of_ne hne r' _).mpr ⟨op, args, given, hk, hfits⟩
    · obtain ⟨op, args, given, hk, hfits⟩ := hat
      rcases eq_of_set hk with ⟨-, heq⟩ | ⟨-, hk⟩
      · exact absurd (congrArg Thread.job heq).symm (hjob op args given)
      · exact .inl ⟨op, args, given, hk, hfits⟩

end

/-- Only a call that has asked for a start receives an execution. -/
theorem asks_start_of_receive {α : Type} {t : Tracker} {r r' : Registry} {p p' : Progress α}
    {reply : Reply} {execution : ExecutionId} (h : receive t r p reply = some (r', p'))
    (hreply : reply.execution? = some execution) :
    ∃ query next, p = .at (.ask (.start query) next) := by
  unfold receive at h
  split at h
  · cases hreply
  · cases hreply
  · cases hreply
  · exact ⟨_, _, rfl⟩
  · cases hreply
  · cases hreply
  · cases h

/-- What a job other than a trigger may ask for belongs to the following of tasks. -/
theorem Job.mayAsk_eq_follows {job : Job} (hjob : ∀ op args given, job ≠ .trigger op args given) :
    job.MayAsk = Request.Follows := by
  cases job with
  | trigger op args given => exact absurd rfl (hjob op args given)
  | get | push | poll | converge | sweep | collect => rfl

/-- Every event is a change of this kind. -/
theorem Machine.Recorded.change {m m' : Machine} (h : m.Recorded) (hphased : m.Phased) {t : Tracker}
    {event : Event} (hstep : m.step? t event = some m') : m'.Phased ∧ m.Change m' event := by
  have hasks {place : Nat} {job : Job} {p : Progress job.Result}
      (hplace : m.threads[place]? = some ⟨job, p⟩)
      (hjob : ∀ op args given, job ≠ .trigger op args given) :
      p.Asks Request.Follows m.registry := by
    rw [← Job.mayAsk_eq_follows hjob]
    exact h.asking place job p hplace
  cases event with
  | begin job =>
    cases hstep
    exact change_of_begins [job] rfl hphased
  | beginBatch notifications =>
    cases hstep
    have hgiven : (Event.beginBatch notifications).given? = none := rfl
    have hbegins := change_of_begins (t := t) (notifications.map Job.push) hgiven hphased
    rwa [List.map_map] at hbegins
  | serve place now =>
    obtain ⟨job, request, next, r', p', hplace, hserve, rfl⟩ := step?_serve_eq_some_iff.mp hstep
    by_cases hjob : ∃ op args given, job = .trigger op args given
    · obtain ⟨op, args, given, rfl⟩ := hjob
      obtain ⟨phase, hcall, hfits⟩ := hphased place op args given _ hplace
      obtain ⟨phase', rfl, hmoves⟩ :=
        Phase.moves_of_serveLocal (Progress.at.inj hcall).symm hserve
      rw [hcall] at hplace
      exact change_of_moves hphased hplace hfits hmoves rfl
    · have hjob : ∀ op args given, job ≠ .trigger op args given :=
        fun op args given heq => hjob ⟨op, args, given, heq⟩
      have hmoves := Tracker.moves_of_serveLocal (t := t) hserve
      exact change_of_upkeep hphased hplace hjob (hmoves.upkeep (hasks hplace hjob)) rfl
  | reply place reply =>
    obtain ⟨job, p, p', r', hplace, hreceive, rfl⟩ := step?_reply_eq_some_iff.mp hstep
    by_cases hjob : ∃ op args given, job = .trigger op args given
    · obtain ⟨op, args, given, rfl⟩ := hjob
      obtain ⟨phase, rfl, hfits⟩ := hphased place op args given _ hplace
      obtain ⟨phase', rfl, hmoves⟩ := Phase.moves_of_receive hreceive
      exact change_of_moves hphased hplace hfits hmoves rfl
    · have hjob : ∀ op args given, job ≠ .trigger op args given :=
        fun op args given heq => hjob ⟨op, args, given, heq⟩
      have hmoves : Moves t m.isLocked m.registry p r' p' := Tracker.moves_of_receive hreceive
      refine change_of_upkeep hphased hplace hjob (hmoves.upkeep (hasks hplace hjob)) ?_
      cases hexecution : reply.execution? with
      | none => rw [Event.given?, hexecution, Option.map_none]
      | some execution =>
        obtain ⟨query, next, rfl⟩ := asks_start_of_receive hreceive hexecution
        exact ((hasks hplace hjob).1 m.registry (.refl m.registry)).elim

end Tracker

end SchemaQuery
