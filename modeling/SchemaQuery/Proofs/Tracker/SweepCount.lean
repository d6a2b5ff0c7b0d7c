import SchemaQuery.Proofs.Tracker.Sweep

/-!
What a sweep counts. A sweep is to count the tasks that it has failed for their age. It counts the tasks
that its looks at the engine come back with, where their error begins like that of a task that became too
old, and such an error can have come from elsewhere: the engine may give a reason that begins so, and
another call may have failed the task in the meantime. So a run is read twice. Once for the tasks that the
call has ended although the engine knew no end of theirs, which are those it should count; and once for the
tasks that it finds failed like this without having ended them so. What a sweep ends with is how many
there are of both.
-/

namespace SchemaQuery

/-! ### Tasks that end -/

/-- The tasks that run in the first registry and have ended in the second one. -/
def Registry.endedIn (r r' : Registry) : List TaskId :=
  r'.ids.filter fun id => (r.task? id).any (!·.isFinished) && (r'.task? id).any (·.isFinished)

namespace Registry

theorem mem_endedIn_iff {r r' : Registry} {id : TaskId} : id ∈ r.endedIn r' ↔
    (∃ task, r.task? id = some task ∧ task.isFinished = false) ∧
      ∃ task, r'.task? id = some task ∧ task.isFinished = true := by
  simp only [endedIn, List.mem_filter, Bool.and_eq_true, Option.any_eq_true, Bool.not_eq_true']
  refine and_iff_right_of_imp fun ⟨_, task, htask, _⟩ => ?_
  obtain ⟨c, hc, -⟩ := task?_eq_some_iff.mp htask
  exact Keyed.contains_iff.mp (Option.isSome_iff_exists.mpr ⟨c, hc⟩)

theorem nodup_endedIn (r r' : Registry) : (r.endedIn r').Nodup :=
  List.Nodup.sublist List.filter_sublist r'.cells.nodup

@[simp] theorem endedIn_self (r : Registry) : r.endedIn r = [] := by
  refine List.eq_nil_iff_forall_not_mem.mpr fun id hid => ?_
  obtain ⟨⟨task, htask, hrunning⟩, task', htask', hfinished⟩ := mem_endedIn_iff.mp hid
  rw [htask] at htask'
  cases htask'
  rw [hrunning] at hfinished
  cases hfinished

/-- Where a running task is settled, this task ends and no other. -/
theorem endedIn_settle {r : Registry} {id : TaskId} {task : Task} (htask : r.task? id = some task)
    (hrunning : task.isFinished = false) (now : Instant) (outcome : Outcome) :
    r.endedIn (r.settle id now outcome) = [id] := by
  refine List.perm_singleton.mp ((List.perm_ext_iff_of_nodup (nodup_endedIn ..)
    (List.pairwise_singleton _ id)).mpr fun k => ?_)
  rw [mem_endedIn_iff, List.mem_singleton, task?_settle]
  constructor
  · rintro ⟨⟨task', htask', hrunning'⟩, task'', htask'', hfinished⟩
    by_contra hne
    rw [if_neg (Ne.symm hne), htask'] at htask''
    cases htask''
    rw [hrunning'] at hfinished
    cases hfinished
  · rintro rfl
    rw [if_pos rfl, htask]
    exact ⟨⟨task, rfl, hrunning⟩, _, rfl, task.isFinished_settle now outcome⟩

end Registry

namespace Tracker

/-! ### Reading a run -/

/-- Whether the engine knows no end of an execution: it says that it runs, or it fails to say anything. -/
def isOpen : Except Error ExecutionState → Bool
  | .ok .running | .error _ => true
  | .ok _ => false

/-- The place of the call that an event moves. -/
def Event.place? : Event → Option Nat
  | .serve place _ | .reply place _ => some place
  | .begin _ | .beginBatch _ => none

/-- Whether the engine knew no end when it last answered the call at a place. -/
def Event.opens (place : Nat) (before : Bool) : Event → Bool
  | .reply k (.state answer) => if k = place then isOpen answer else before
  | _ => before

/-- The task to which a call is applying a report. -/
def Thread.target? : Thread → Option TaskId
  | ⟨_, .at (.ask (.converge id _) _)⟩ => some id
  | ⟨_, .fetching _ id _⟩ => some id
  | _ => none

/-- Whether a task is stored as one that became too old. -/
def Machine.isTimedOut (m : Machine) (id : TaskId) : Bool := (m.registry.task? id).any Task.timedOut

/-- The tasks that the call at a place ends by an event for their age: the engine knew no end of theirs. -/
def Machine.expiresBy (place : Nat) (opened : Bool) (m m' : Machine) (event : Event) : List TaskId :=
  if event.place? = some place ∧ opened then m.registry.endedIn m'.registry else []

/-- The task that the call at a place finds by an event to be stored as one that became too old, if it does
not end it by this event for its age. -/
def Machine.mistakesBy (place : Nat) (opened : Bool) (m m' : Machine) (event : Event) : List TaskId :=
  if event.place? = some place then
    (m.threads[place]?.bind Thread.target?).toList.filter fun id =>
      m'.isTimedOut id && !decide (id ∈ m.expiresBy place opened m' event)
  else []

/-- The tasks that the call at a place ends by some events for their age. -/
def Machine.expiries (t : Tracker) (place : Nat) (opened : Bool) (m : Machine) :
    List Event → List TaskId
  | [] => []
  | event :: events =>
    match m.step? t event with
    | some m' =>
      m.expiresBy place opened m' event ++ m'.expiries t place (event.opens place opened) events
    | none => []

/-- The tasks that the call at a place finds to be stored as ones that became too old, where it was not
this call that ended them for their age. -/
def Machine.mistakes (t : Tracker) (place : Nat) (opened : Bool) (m : Machine) :
    List Event → List TaskId
  | [] => []
  | event :: events =>
    match m.step? t event with
    | some m' =>
      m.mistakesBy place opened m' event ++ m'.mistakes t place (event.opens place opened) events
    | none => []

/-- No task is ended twice, nor one that has ended before. -/
theorem Machine.expiries_nodup (t : Tracker) (place : Nat) (opened : Bool) (m : Machine)
    (events : List Event) :
    (m.expiries t place opened events).Nodup ∧ ∀ id ∈ m.expiries t place opened events,
      ∀ task, m.registry.task? id = some task → task.isFinished = false := by
  induction events generalizing m opened with
  | nil => exact ⟨List.nodup_nil, fun id hid => nomatch hid⟩
  | cons event events ih =>
    rw [expiries]
    cases hstep : m.step? t event with
    | none => exact ⟨List.nodup_nil, fun id hid => nomatch hid⟩
    | some m' =>
      obtain ⟨hnodup, hlater⟩ := ih (event.opens place opened) m'
      have hby {id : TaskId} (hid : id ∈ m.expiresBy place opened m' event) :
          id ∈ m.registry.endedIn m'.registry := by
        unfold expiresBy at hid
        split at hid
        · exact hid
        · cases hid
      refine ⟨List.nodup_append.mpr ⟨?_, hnodup, ?_⟩, fun id hid task htask => ?_⟩
      · unfold expiresBy
        split
        · exact Registry.nodup_endedIn ..
        · exact List.nodup_nil
      · -- What ends now has ended for all that comes later.
        rintro id hid _ hid' rfl
        obtain ⟨-, task, htask, hfinished⟩ := Registry.mem_endedIn_iff.mp (hby hid)
        rw [hlater id hid' task htask] at hfinished
        cases hfinished
      · rcases List.mem_append.mp hid with hid | hid
        · obtain ⟨⟨task', htask', hrunning⟩, -⟩ := Registry.mem_endedIn_iff.mp (hby hid)
          rw [htask] at htask'
          cases htask'
          exact hrunning
        · obtain ⟨task', htask', hadvances⟩ := step?_evolves hstep id task htask
          rw [Bool.eq_false_iff]
          intro hfinished
          rw [hadvances.eq_of_isFinished hfinished] at htask'
          rw [hlater id hid task htask'] at hfinished
          cases hfinished

end Tracker

/-! ### The tally of a call -/

namespace Request

/-- What an answer adds to the count of a sweep. -/
def tally : (request : Request) → request.Answer → Nat
  | .converge _ _, answer => if Tracker.isTimeout answer then 1 else 0
  | _, _ => 0

/-- Whether the engine knew no end when it last answered. -/
def opens (before : Bool) : (request : Request) → request.Answer → Bool
  | .state _, answer => Tracker.isOpen answer
  | _, _ => before

/-- A request that a sweep makes. Once the engine knew no end, only the greatest age ends a task. -/
def Sweeps (opened : Bool) : Request → Prop
  | .converge _ report => opened = true → report = .running ∨ ∃ maxAge, report = Tracker.expiry maxAge
  | .clock | .ids | .cell _ | .state _ => True
  | .newId | .reserve _ | .release _ | .create _ | .lookup _ | .observe _ | .forget _ | .start _ => False

end Request

namespace Call

variable {α β : Type} {P : Nat → β → Prop} {Q : Nat → α → Prop}

/-- However it is answered, the call makes the requests of a sweep, and `Q` holds of the tally of their
answers and of what it ends with. -/
def Tallies (Q : Nat → α → Prop) (opened : Bool) (k : Nat) : Call α → Prop
  | .done a => Q k a
  | .ask request next => request.Sweeps opened ∧ ∀ answer,
    (next answer).Tallies Q (request.opens opened answer) (k + request.tally answer)

theorem Tallies.imp {P : Nat → α → Prop} {c : Call α} {opened : Bool} {k : Nat}
    (hc : c.Tallies Q opened k) (hP : ∀ k a, Q k a → P k a) : c.Tallies P opened k := by
  induction c generalizing opened k with
  | done a => exact hP k a hc
  | ask request next ih => exact ⟨hc.1, fun answer => ih answer (hc.2 answer)⟩

/-- One call after another: the second one goes on with the tally of the first. -/
theorem Tallies.bind {c : Call α} {f : α → Call β} {opened : Bool} {k : Nat}
    (hc : c.Tallies Q opened k) (hf : ∀ opened k a, Q k a → (f a).Tallies P opened k) :
    (c >>= f).Tallies P opened k := by
  induction c generalizing opened k with
  | done a => exact hf opened k a hc
  | ask request next ih => exact ⟨hc.1, fun answer => ih answer (hc.2 answer)⟩

end Call

namespace Tracker

variable (t : Tracker)

/-- A report that is applied once the engine knew no end ends its task for its age, or not at all. -/
theorem sweeps_concluded {answer : Except Error ExecutionState} {age? : Option Span}
    {report : ExecutionState} (h : concluded answer age? = .ok report) (id : TaskId) :
    (Request.converge id report).Sweeps (isOpen answer) := by
  intro hopen
  unfold concluded at h
  split at h
  · cases h; exact .inr ⟨_, rfl⟩
  · next state _ _ =>
    cases h
    cases report with
    | running => exact .inl rfl
    | succeeded | failed | cancelled => cases hopen
  · cases h; exact .inr ⟨_, rfl⟩
  · cases h

/-- Looking a task up counts it if it comes back as one that became too old. -/
theorem tallies_refresh (id : TaskId) (task : Task) (opened : Bool) (k : Nat) :
    (t.refresh id task).Tallies (fun k' result => k' = k + if isTimeout result then 1 else 0)
      opened k := by
  rw [refresh_eq]
  refine ⟨trivial, fun answer => ⟨trivial, fun now => ?_⟩⟩
  dsimp only
  cases hreport : concluded answer (t.expired? task now) with
  | ok report => exact ⟨sweeps_concluded hreport id, fun answer => rfl⟩
  | error e => rfl

theorem tallies_sweepOne (id : TaskId) (opened : Bool) (k : Nat) :
    (t.sweepOne id).Tallies (fun k' timedOut => k' = k + if timedOut then 1 else 0) opened k := by
  rw [sweepOne_eq]
  refine ⟨trivial, fun cell => ?_⟩
  cases cell with
  | none => rfl
  | some cell =>
    dsimp only
    split
    · rfl
    · refine ⟨trivial, fun now => ?_⟩
      dsimp only
      cases t.expired? cell.task now with
      | none => rfl
      | some maxAge =>
        refine (t.tallies_refresh id cell.task opened k).bind fun opened k' result h => ?_
        exact h

theorem tallies_sweepEach (ids : List TaskId) (opened : Bool) (k : Nat) :
    (t.sweepEach ids).Tallies (fun k' n => k' = k + n) opened k := by
  induction ids generalizing opened k with
  | nil => rfl
  | cons id ids ih =>
    refine (t.tallies_sweepOne id opened k).bind fun opened k₁ timedOut hone => ?_
    refine (ih opened k₁).bind fun opened k₂ rest hrest => ?_
    change k₂ = k + if timedOut then rest + 1 else rest
    cases timedOut with
    | true => simp only [if_true] at hone ⊢; omega
    | false => simp at hone ⊢; omega

/-- A sweep ends with the tally of its answers. -/
theorem tallies_sweepExpired : t.sweepExpired.Tallies Eq false 0 := by
  unfold sweepExpired
  cases t.config.maxAge with
  | none => rfl
  | some maxAge =>
    refine ⟨trivial, fun ids => (t.tallies_sweepEach ids false 0).imp fun k n h => ?_⟩
    rw [h, Nat.zero_add]

/-! ### The tally of a machine -/

/-- However it is answered, the call goes on to end with the tally of all answers, where the answers so far
make `k`. A result is fetched only where the engine knew the end. -/
def Progress.Tallies (opened : Bool) (k : Nat) : Progress Nat → Prop
  | .at c => c.Tallies Eq opened k
  | .fetching _ _ next => opened = false ∧ ∀ answer,
    (next answer).Tallies Eq opened (k + if isTimeout answer then 1 else 0)

/-- The tally of the call at a place stands at `k`, if it is a sweep. -/
structure Machine.Tallied (place : Nat) (opened : Bool) (k : Nat) (m : Machine) : Prop where
  unborn : m.threads.length ≤ place → opened = false ∧ k = 0
  tallies : ∀ p : Progress Nat, m.threads[place]? = some ⟨.sweep, p⟩ → p.Tallies opened k

variable {t : Tracker} {r r' : Registry} {isLocked : TaskId → Bool} {now : Instant}

theorem isTimeout_known (r : Registry) (id : TaskId) :
    isTimeout (r.known id) = (r.task? id).any Task.timedOut := by
  unfold Registry.known
  cases r.task? id <;> rfl

theorem timedOut_eq_false {task : Task} (hrunning : task.isFinished = false) :
    task.timedOut = false := by
  have hstatus : task.status = .running := by simpa [Task.isFinished] using hrunning
  simp [Task.timedOut, hstatus]

/-- The report by which a running task is failed for its age makes it one that became too old. -/
theorem timedOut_settle_expiry {task : Task} (hrunning : task.isFinished = false) (now : Instant)
    {maxAge : Span} {outcome : Outcome} (h : task.judge (expiry maxAge) = .ends outcome) :
    (task.settle now outcome).timedOut = true := by
  unfold Task.judge at h
  rw [hrunning] at h
  cases h
  rw [Task.settle, hrunning]
  simp [Task.finish, Task.timedOut, List.isPrefixOf_iff_prefix]

section

variable {m : Machine} {place : Nat} {opened : Bool} {k : Nat} {event : Event}

/-- What the call at a place adds to its count by an event that leaves the registry as it is, where it
applies no report: nothing. -/
theorem length_by_of_same (htarget : m.threads[place]?.bind Thread.target? = none)
    (threads : List Thread) :
    (m.expiresBy place opened ⟨m.registry, threads⟩ event).length +
      (m.mistakesBy place opened ⟨m.registry, threads⟩ event).length = 0 := by
  unfold Machine.expiresBy Machine.mistakesBy
  rw [htarget, Registry.endedIn_self]
  simp

/-- What the call at a place adds to its count by an event in which a report is applied to a task: one, if
the task comes back as one that became too old. A task that it ends once the engine knew no end does. -/
theorem length_by_of_applied {id : TaskId} (hplace : event.place? = some place)
    (htarget : m.threads[place]?.bind Thread.target? = some id) (threads : List Thread)
    (hcases : opened = true → r' = m.registry ∨ ∃ task now outcome, m.registry.task? id = some task ∧
      task.isFinished = false ∧ r' = m.registry.settle id now outcome ∧
      (task.settle now outcome).timedOut = true) :
    (m.expiresBy place opened ⟨r', threads⟩ event).length +
      (m.mistakesBy place opened ⟨r', threads⟩ event).length =
        if isTimeout (r'.known id) then 1 else 0 := by
  rw [isTimeout_known]
  unfold Machine.mistakesBy Machine.expiresBy Machine.isTimedOut
  simp only [hplace, true_and, htarget, if_true]
  cases opened with
  | false => cases h : (r'.task? id).any Task.timedOut <;> simp [h]
  | true =>
    rcases hcases rfl with rfl | ⟨task, now, outcome, htask, hrunning, rfl, htimedOut⟩
    · rw [Registry.endedIn_self]
      cases h : (m.registry.task? id).any Task.timedOut <;> simp [h]
    · rw [Registry.endedIn_settle htask hrunning]
      have hsettled : (m.registry.settle id now outcome).task? id = some (task.settle now outcome) := by
        rw [Registry.task?_settle, if_pos rfl, htask]
        rfl
      simp [hsettled, htimedOut]

/-- A sweep that makes a request of the registry adds to its tally what it ends for its age and what it
mistakes for that. -/
theorem Progress.tallies_serveLocal {request : Request} {next : request.Answer → Call Nat}
    {p' : Progress Nat} (hthread : m.threads[place]? = some ⟨.sweep, .at (.ask request next)⟩)
    (hp : (Progress.at (.ask request next)).Tallies opened k)
    (hserve : serveLocal m.registry m.isLocked now request next = some (r', p'))
    (threads : List Thread) :
    p'.Tallies opened (k + ((m.expiresBy place opened ⟨r', threads⟩ (.serve place now)).length +
      (m.mistakesBy place opened ⟨r', threads⟩ (.serve place now)).length)) := by
  obtain ⟨hsweeps, hnext⟩ := hp
  cases request with
  | cell id =>
    rw [serveLocal] at hserve
    split at hserve
    · cases hserve
    · cases hserve
      rw [length_by_of_same (by rw [hthread]; rfl)]
      exact hnext _
  | converge id report =>
    have htarget : m.threads[place]?.bind Thread.target? = some id := by rw [hthread]; rfl
    rw [serveLocal] at hserve
    split at hserve
    · cases hserve
    · rcases judge_cases m.registry id report with ⟨htask, hjudge⟩ | ⟨task, htask, hjudge | ⟨hrunning, hjudge⟩⟩
      · rw [hjudge] at hserve
        cases hserve
        rw [length_by_of_applied rfl htarget threads fun _ => .inl rfl]
        have hknown : m.registry.known id = .error (.notFound id) := by rw [Registry.known, htask]
        exact hknown ▸ hnext _
      · rw [hjudge] at hserve
        cases hserve
        rw [length_by_of_applied rfl htarget threads fun _ => .inl rfl]
        exact Registry.known_eq_ok_iff.mpr htask ▸ hnext _
      · rcases hjudge with ⟨outcome, hjudge⟩ | ⟨rfl, hjudge⟩
        · rw [hjudge] at hserve
          cases hserve
          rw [length_by_of_applied rfl htarget threads fun hopened => ?_]
          · exact hnext _
          · refine .inr ⟨task, now, outcome, htask, hrunning, rfl, ?_⟩
            have hjudge : task.judge report = .ends outcome := by
              rwa [Registry.judge, htask] at hjudge
            rcases hsweeps hopened with rfl | ⟨maxAge, rfl⟩
            · unfold Task.judge at hjudge
              rw [hrunning] at hjudge
              cases hjudge
            · exact timedOut_settle_expiry hrunning now hjudge
        · -- A result is fetched only where the engine knew the end.
          rw [hjudge] at hserve
          cases hserve
          have hclosed : opened = false := by
            rw [Bool.eq_false_iff]
            intro hopened
            rcases hsweeps hopened with h | ⟨maxAge, h⟩ <;> cases h
          subst hclosed
          rw [length_by_of_applied rfl htarget threads fun _ => .inl rfl,
            Registry.known_eq_ok_iff.mpr htask, isTimeout, timedOut_eq_false hrunning]
          exact ⟨rfl, hnext⟩
  | clock | ids | state execution => cases hserve
  | newId | reserve id | release id | create task | lookup execution | observe id | forget executions
  | start query => exact hsweeps.elim

/-- A sweep that receives an answer from outside likewise. -/
theorem Progress.tallies_receive {p p' : Progress Nat} {reply : Reply}
    (hthread : m.threads[place]? = some ⟨.sweep, p⟩) (hp : p.Tallies opened k)
    (hreceive : receive t m.registry p reply = some (r', p')) (threads : List Thread) :
    p'.Tallies (Event.opens place opened (.reply place reply))
      (k + ((m.expiresBy place opened ⟨r', threads⟩ (.reply place reply)).length +
        (m.mistakesBy place opened ⟨r', threads⟩ (.reply place reply)).length)) := by
  unfold receive at hreceive
  split at hreceive
  · cases hreceive
    rw [length_by_of_same (by rw [hthread]; rfl)]
    exact hp.2 _
  · exact hp.1.elim
  · split at hreceive
    · cases hreceive
      rw [length_by_of_same (by rw [hthread]; rfl)]
      exact hp.2 _
    · cases hreceive
  · exact hp.1.elim
  · cases hreceive
    rw [length_by_of_same (by rw [hthread]; rfl), Event.opens, if_pos rfl]
    exact hp.2 _
  · -- The engine knew the end of the task whose result it now gives.
    next task id next now answer =>
    cases hreceive
    obtain ⟨hclosed, hnext⟩ := hp
    have htarget : m.threads[place]?.bind Thread.target? = some id := by rw [hthread]; rfl
    rw [length_by_of_applied rfl htarget threads
      fun hopened => by rw [hclosed] at hopened; cases hopened]
    exact hnext _
  · cases hreceive

end

theorem Machine.Tallied.append {m : Machine} {place : Nat} {opened : Bool} {k : Nat}
    (h : m.Tallied place opened k) (jobs : List Job) :
    Machine.Tallied place opened k ⟨m.registry, m.threads ++ jobs.map (Thread.start t)⟩ where
  unborn hplace := h.unborn (by rw [List.length_append] at hplace; omega)
  tallies p hp := by
    rcases Nat.lt_or_ge place m.threads.length with hold | hnew
    · rw [List.getElem?_append_left hold] at hp
      exact h.tallies p hp
    · obtain ⟨rfl, rfl⟩ := h.unborn hnew
      rcases mem_of_append hp with hp | ⟨job, hjob⟩
      · rw [List.getElem?_eq_none hnew] at hp
        cases hp
      · cases hjob
        exact t.tallies_sweepExpired

theorem Machine.Tallied.set_other {m : Machine} {place other : Nat} {opened : Bool} {k : Nat}
    (h : m.Tallied place opened k) (hne : other ≠ place) (r' : Registry) (th : Thread) :
    Machine.Tallied place opened k ⟨r', m.threads.set other th⟩ where
  unborn hplace := h.unborn (by rwa [List.length_set] at hplace)
  tallies p hp := by
    rcases eq_of_set hp with ⟨heq, -⟩ | ⟨-, hp⟩
    · exact absurd heq hne
    · exact h.tallies p hp

theorem Machine.tallied_set {m : Machine} {place : Nat} {opened : Bool} {k : Nat} {job : Job}
    {p p' : Progress job.Result} (hplace : m.threads[place]? = some ⟨job, p⟩) {r' : Registry}
    (hp' : ∀ q : Progress Nat, (⟨job, p'⟩ : Thread) = ⟨.sweep, q⟩ → q.Tallies opened k) :
    Machine.Tallied place opened k ⟨r', m.threads.set place ⟨job, p'⟩⟩ where
  unborn hlength := by
    rw [List.length_set] at hlength
    rw [List.getElem?_eq_none hlength] at hplace
    cases hplace
  tallies q hq := by
    rcases eq_of_set hq with ⟨-, heq⟩ | ⟨hne, -⟩
    · exact hp' q heq.symm
    · exact absurd rfl hne

/-- Every event adds to the tally of a sweep what the sweep ends for its age by it, and what it mistakes for
that. -/
theorem Machine.Tallied.step {m m' : Machine} {place : Nat} {opened : Bool} {k : Nat} {event : Event}
    (h : m.Tallied place opened k) (hstep : m.step? t event = some m') :
    m'.Tallied place (event.opens place opened) (k + ((m.expiresBy place opened m' event).length +
      (m.mistakesBy place opened m' event).length)) := by
  have hother (hne : event.place? ≠ some place) :
      (m.expiresBy place opened m' event).length + (m.mistakesBy place opened m' event).length = 0 := by
    simp [expiresBy, mistakesBy, hne]
  cases event with
  | begin job =>
    cases hstep
    rw [hother nofun]
    exact h.append [job]
  | beginBatch notifications =>
    cases hstep
    rw [hother nofun]
    have happend := h.append (t := t) (notifications.map Job.push)
    rwa [List.map_map] at happend
  | serve i now =>
    obtain ⟨job, request, next, r', p', hthread, hserve, rfl⟩ := step?_serve_eq_some_iff.mp hstep
    by_cases hi : i = place
    · subst hi
      refine tallied_set hthread fun q hq => ?_
      cases hq
      exact Progress.tallies_serveLocal hthread (h.tallies _ hthread) hserve _
    · rw [hother fun heq => hi (Option.some.inj heq)]
      exact h.set_other hi r' _
  | reply i answer =>
    obtain ⟨job, p, p', r', hthread, hreceive, rfl⟩ := step?_reply_eq_some_iff.mp hstep
    by_cases hi : i = place
    · subst hi
      refine tallied_set hthread fun q hq => ?_
      cases hq
      exact Progress.tallies_receive hthread (h.tallies _ hthread) hreceive _
    · have hopens : (Event.reply i answer).opens place opened = opened := by
        cases answer <;> simp [Event.opens, hi]
      rw [hother fun heq => hi (Option.some.inj heq), hopens]
      exact h.set_other hi r' _

/-- A run tallies for a sweep what it ends for its age and what it mistakes for that. -/
theorem Machine.Tallied.run {m m' : Machine} {place : Nat} {opened : Bool} {k : Nat}
    {events : List Event} (h : m.Tallied place opened k) (hrun : m.run? t events = some m') :
    ∃ opened', m'.Tallied place opened' (k + ((m.expiries t place opened events).length +
      (m.mistakes t place opened events).length)) := by
  induction events generalizing m opened k with
  | nil =>
    cases hrun
    exact ⟨opened, h⟩
  | cons event events ih =>
    rw [run?_cons] at hrun
    obtain ⟨m₁, hstep, hrun⟩ := Option.bind_eq_some_iff.mp hrun
    obtain ⟨opened', htallied⟩ := ih (h.step hstep) hrun
    refine ⟨opened', ?_⟩
    rw [expiries, mistakes, hstep]
    dsimp only
    rw [List.length_append, List.length_append]
    convert htallied using 1
    omega

/-- What a sweep ends with, whatever calls run with it and whatever the engine answers, is the number of
tasks that it has ended for their age, the engine knowing no end of theirs, and of those it has found to be
stored with an error like that of a task that became too old. It counts each task of the first kind once,
and it counts its own timeouts exactly if it has found no task of the second kind. -/
theorem Machine.sweep_count_iff {r : Registry} {events : List Event} {m : Machine} {place n : Nat}
    (hrun : Machine.run? t ⟨r, []⟩ events = some m)
    (hdone : m.threads[place]? = some ⟨.sweep, .at (.done n)⟩) :
    n = (Machine.expiries t place false ⟨r, []⟩ events).length +
        (Machine.mistakes t place false ⟨r, []⟩ events).length ∧
      (Machine.expiries t place false ⟨r, []⟩ events).Nodup ∧
      (n = (Machine.expiries t place false ⟨r, []⟩ events).length ↔
        Machine.mistakes t place false ⟨r, []⟩ events = []) := by
  have hbegin : Machine.Tallied place false 0 ⟨r, []⟩ := ⟨fun _ => ⟨rfl, rfl⟩, fun _ h => nomatch h⟩
  obtain ⟨opened, htallied⟩ := hbegin.run hrun
  have hcount := htallied.tallies _ hdone
  rw [Nat.zero_add, Progress.Tallies, Call.Tallies] at hcount
  refine ⟨hcount.symm, (expiries_nodup ..).1, ?_⟩
  rw [← List.length_eq_zero_iff]
  omega

/-- A sweep of three tasks: the first one runs on although it is old, the second one has failed with a
reason of the engine that begins like the error of a task that became too old, and the third one is young. -/
def twoTimeouts : List Event :=
  [.begin .sweep, .reply 0 (.order [⟨"t1"⟩, ⟨"t2"⟩, ⟨"t3"⟩]), .serve 0 ⟨200, 0⟩,
    .reply 0 (.time ⟨200, 0⟩), .reply 0 (.state (.ok .running)), .reply 0 (.time ⟨200, 0⟩),
    .serve 0 ⟨200, 0⟩, .serve 0 ⟨200, 0⟩, .reply 0 (.time ⟨200, 0⟩),
    .reply 0 (.state (.ok (.failed (some "timeout of a statement")))), .reply 0 (.time ⟨200, 0⟩),
    .serve 0 ⟨200, 0⟩, .serve 0 ⟨200, 0⟩, .reply 0 (.time ⟨200, 0⟩)]

/-- The sweep ends with two: the first task, which it has failed for its age, and the second one, which it
mistakes for such a task. -/
theorem Machine.sweep_count_twoTimeouts :
    ∃ m, Machine.run? twoMinutes ⟨threeTasks, []⟩ twoTimeouts = some m ∧
      m.threads[0]? = some ⟨.sweep, .at (.done 2)⟩ ∧
      Machine.expiries twoMinutes 0 false ⟨threeTasks, []⟩ twoTimeouts = [⟨"t1"⟩] ∧
      Machine.mistakes twoMinutes 0 false ⟨threeTasks, []⟩ twoTimeouts = [⟨"t2"⟩] ∧
      2 = (Machine.expiries twoMinutes 0 false ⟨threeTasks, []⟩ twoTimeouts).length +
        (Machine.mistakes twoMinutes 0 false ⟨threeTasks, []⟩ twoTimeouts).length := by
  have hends : (Machine.run? twoMinutes ⟨threeTasks, []⟩ twoTimeouts).bind (·.threads[0]?) =
      some ⟨.sweep, .at (.done 2)⟩ := rfl
  obtain ⟨m, hrun, hdone⟩ := Option.bind_eq_some_iff.mp hends
  exact ⟨m, hrun, hdone, rfl, rfl, (sweep_count_iff hrun hdone).1⟩

/-- A sweep of one task, which the engine reports to have failed. -/
def failsMeanwhile : List Event :=
  [.begin .sweep, .reply 0 (.order [⟨"t1"⟩]), .serve 0 ⟨200, 0⟩, .reply 0 (.time ⟨200, 0⟩),
    .reply 0 (.state (.ok (.failed (some "timeout of a statement")))), .reply 0 (.time ⟨200, 0⟩),
    .serve 0 ⟨200, 0⟩]

/-- A sweep that has failed no task for its age counts one that failed by a report of the engine. -/
theorem Machine.sweep_counts_report :
    ∃ m, Machine.run? twoMinutes ⟨oneTask, []⟩ failsMeanwhile = some m ∧
      m.threads[0]? = some ⟨.sweep, .at (.done 1)⟩ ∧
      (m.registry.task? ⟨"t1"⟩).bind Task.error = some "timeout of a statement" ∧
      Machine.expiries twoMinutes 0 false ⟨oneTask, []⟩ failsMeanwhile = [] :=
  ⟨_, rfl, rfl, rfl, rfl⟩

end Tracker

end SchemaQuery
