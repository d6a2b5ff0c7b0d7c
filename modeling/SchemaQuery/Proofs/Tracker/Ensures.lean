import SchemaQuery.Proofs.Fallible
import SchemaQuery.Proofs.Task.Registry
import SchemaQuery.Tracker.Machine

/-!
What is known of the value that a call ends with. While a call is in progress others change the registry
between any two of its requests, but only as registries change, and a request is answered from the
registry as it then is. So a call is followed from request to request, against every later registry and
every answer that is possible there, and what it has found out has to outlast the changes of others.
-/

namespace SchemaQuery

/-- The task with an id, as an answer. -/
def Registry.known (r : Registry) (id : TaskId) : Except Error Task :=
  match r.task? id with
  | some t => .ok t
  | none => .error (.notFound id)

theorem Registry.known_eq_ok_iff {r : Registry} {id : TaskId} {t : Task} :
    r.known id = .ok t ↔ r.task? id = some t := by
  unfold known
  cases r.task? id <;> simp

/-- The request can be answered like this where it leaves the registry like that. -/
def Request.Allows (r : Registry) : (request : Request) → request.Answer → Prop
  | .ids, answer => answer.isPerm r.ids = true
  | .lookup execution, answer => answer = r.correlator.taskFor? execution
  | .cell id, answer => answer = r.cell? id
  | .converge id _, answer => answer = r.known id
  | _, _ => True

/-- What is known outlasts the changes of others. -/
def Registry.Lasting {α : Type} (Q : Registry → α → Prop) : Prop :=
  ∀ r r' a, r.Evolves r' → Q r a → Q r' a

namespace Call

variable {α β : Type} {Q : Registry → α → Prop}

/-- However others change the registry meanwhile and whatever is answered, the call ends with a value of
which `Q` holds in the registry at its end. -/
def Ensures (Q : Registry → α → Prop) : Call α → Registry → Prop
  | .done a, r => Q r a
  | .ask request next, r => ∀ r' answer, r.Evolves r' → r'.Consistent → request.Allows r' answer →
    (next answer).Ensures Q r'

/-- What a call ensures it goes on ensuring while others change the registry. -/
theorem Ensures.of_evolves (hQ : Registry.Lasting Q) {c : Call α} {r r' : Registry}
    (h : c.Ensures Q r) (hevolves : r.Evolves r') : c.Ensures Q r' := by
  cases c with
  | done a => exact hQ r r' a hevolves h
  | ask request next =>
    intro r'' answer hevolves' hconsistent hanswer
    exact h r'' answer (hevolves.trans hevolves') hconsistent hanswer

theorem Ensures.imp {P : Registry → α → Prop} {c : Call α} {r : Registry} (h : c.Ensures Q r)
    (hP : ∀ r a, Q r a → P r a) : c.Ensures P r := by
  induction c generalizing r with
  | done a => exact hP r a h
  | ask request next ih =>
    exact fun r' answer hevolves hconsistent hanswer =>
      ih answer (h r' answer hevolves hconsistent hanswer)

theorem ensures_true (c : Call α) (r : Registry) : c.Ensures (fun _ _ => True) r := by
  induction c generalizing r with
  | done a => trivial
  | ask request next ih => exact fun r' answer _ _ _ => ih answer r'

theorem ensures_request {request : Request} {f : request.Answer → Call α} {r : Registry}
    (h : ∀ r' answer, r.Evolves r' → r'.Consistent → request.Allows r' answer →
      (f answer).Ensures Q r') : (Call.request request >>= f).Ensures Q r :=
  h

/-- One call after another: the second one goes on from what the first one ensures. -/
theorem Ensures.bind {P : Registry → β → Prop} {c : Call α} {f : α → Call β} {r : Registry}
    (h : c.Ensures Q r) (hf : ∀ r' a, r.Evolves r' → Q r' a → (f a).Ensures P r') :
    (c >>= f).Ensures P r := by
  induction c generalizing r with
  | done a => exact hf r a (.refl r) h
  | ask request next ih =>
    intro r' answer hevolves hconsistent hanswer
    refine ih answer (h r' answer hevolves hconsistent hanswer) fun r'' a hevolves' ha => ?_
    exact hf r'' a (hevolves.trans hevolves') ha

end Call

namespace Tracker

/-! ### Results that last -/

/-- A task that has ended is answered as it stands under the id. -/
def Tells (id : TaskId) (r : Registry) (result : Except Error Task) : Prop :=
  ∀ task, result = .ok task → task.isFinished = true → r.task? id = some task

/-- What a job ends with when it ends with a task that has ended, or with what a client is shown of
one: the task as it is stored. -/
def Job.Holds (r : Registry) : (job : Job) → job.Result → Prop
  | .trigger _ _ _, result => ∀ task, result = .ok task → task.isFinished = true →
    r.task? task.id = some task
  | .get id, result => Tells id r result
  | .push _, result => ∀ task, result = .ok (some task) → task.isFinished = true →
    r.task? task.id = some task
  | .poll id, result => ∀ view, result = .ok view → view.status ≠ .running →
    ∃ task, r.task? id = some task ∧ task.isFinished = true ∧ view = task.view
  | .converge id _, result => Tells id r result
  | .sweep, _ => True
  | .collect, _ => True

theorem lasting_tells (id : TaskId) : Registry.Lasting (Tells id) :=
  fun _ _ _ hevolves h task hok hfinished =>
    hevolves.task?_of_isFinished (h task hok hfinished) hfinished

/-- What a job ended with goes on being what is stored. -/
theorem Job.lasting_holds (job : Job) : Registry.Lasting fun r result => job.Holds r result := by
  intro r r' result hevolves h
  cases job with
  | trigger op args id =>
    exact fun task hok hfinished => hevolves.task?_of_isFinished (h task hok hfinished) hfinished
  | get id => exact lasting_tells id r r' result hevolves h
  | push n =>
    exact fun task hok hfinished => hevolves.task?_of_isFinished (h task hok hfinished) hfinished
  | poll id =>
    intro view hok hrunning
    obtain ⟨task, htask, hfinished, hview⟩ := h view hok hrunning
    exact ⟨task, hevolves.task?_of_isFinished htask hfinished, hfinished, hview⟩
  | converge id report => exact lasting_tells id r r' result hevolves h
  | sweep => trivial
  | collect => trivial

/-! ### What each call ensures -/

/-- Applying a report ends with the task as it then is. -/
theorem ensures_converge (id : TaskId) (report : ExecutionState) (r : Registry) :
    (converge id report).Ensures (Tells id) r := by
  intro r' answer _ _ hanswer task hok _
  obtain rfl : answer = r'.known id := hanswer
  exact Registry.known_eq_ok_iff.mp hok

/-- Looking a task up at the engine ends with the task as it then is, or with an error. -/
theorem ensures_refresh (t : Tracker) (id : TaskId) (task : Task) (r : Registry) :
    (t.refresh id task).Ensures (Tells id) r := by
  refine Call.ensures_request fun r₁ answer _ _ _ => ?_
  refine Call.ensures_request fun r₂ now _ _ _ => ?_
  split
  · exact ensures_converge id _ r₂
  · exact ensures_converge id _ r₂
  · exact ensures_converge id _ r₂
  · exact fun task hok => nomatch hok

theorem ensures_present {id : TaskId} {task : Task} {r : Registry}
    (h : Tells id r (.ok task)) :
    (present id task).Ensures (fun r result => (Job.poll id).Holds r result) r := by
  unfold present
  by_cases hfinished : task.isFinished = true
  · rw [if_pos hfinished]
    refine Call.ensures_request fun r' _ hevolves _ _ view hview _ => ?_
    cases hview
    exact ⟨task, hevolves.task?_of_isFinished (h task rfl hfinished) hfinished, hfinished, rfl⟩
  · rw [if_neg hfinished]
    intro view hview hrunning
    cases hview
    have hstatus : task.status = .running := by simpa [Task.isFinished] using hfinished
    exact absurd (by simp [Task.view, hstatus]) hrunning

theorem tells_of_cell? {id : TaskId} {r : Registry} {cell : Cell} (h : r.cell? id = some cell) :
    Tells id r (.ok cell.task) := by
  intro task hok _
  cases hok
  exact Registry.task?_eq_some_iff.mpr ⟨cell, h, rfl⟩

/-- Triggering ends with a task that runs, or with an error. -/
def Runs (_ : Registry) (result : Except Error Task) : Prop :=
  ∀ task, result = .ok task → task.isFinished = false

theorem ensures_submit (op : Operation) (args : Arguments) (id : TaskId) (query : CompiledQuery)
    (r : Registry) : (submit op args id query).Ensures Runs r := by
  refine Call.ensures_request fun r₁ answer _ _ _ => ?_
  split
  · next execution =>
    refine Call.ensures_request fun r₂ now _ _ _ => ?_
    refine Call.ensures_request fun r₃ created _ _ _ => ?_
    intro task hok
    obtain ⟨-, -, rfl⟩ := map_eq_ok_iff.mp hok
    rfl
  · refine Call.ensures_request fun r₂ _ _ _ _ => ?_
    exact fun task hok => nomatch hok

theorem ensures_enter (op : Operation) (args : Arguments) (query : CompiledQuery) (id : TaskId)
    (r : Registry) : (enter op args query id).Ensures Runs r := by
  refine Call.ensures_request fun r₁ answer _ _ _ => ?_
  split
  · exact ensures_submit op args id query r₁
  · exact fun task hok => nomatch hok

theorem ensures_trigger (op : Operation) (args : Arguments) (id : Option TaskId) (r : Registry) :
    (trigger op args id).Ensures Runs r := by
  unfold trigger
  split
  · split
    · exact fun task hok => nomatch hok
    · split
      · exact ensures_enter op args _ _ r
      · exact Call.ensures_request fun r₁ id _ _ _ => ensures_enter op args _ id r₁
  · exact fun task hok => nomatch hok

/-- A notification ends with the task of its execution as it then is. -/
theorem ensures_push (n : Notification) (r : Registry) :
    (push n).Ensures (fun r result => (Job.push n).Holds r result) r := by
  refine Call.ensures_request fun r₁ found _ hconsistent hanswer => ?_
  obtain rfl : found = r₁.correlator.taskFor? n.execution := hanswer
  split
  · next id hid =>
    refine Call.ensures_request fun r₂ answer _ hconsistent hanswer task hok _ => ?_
    obtain rfl : answer = r₂.known id := hanswer
    obtain ⟨task, htask, heq⟩ := map_eq_ok_iff.mp hok
    cases heq
    have hstored := Registry.known_eq_ok_iff.mp htask
    obtain ⟨cell, hcell, rfl⟩ := Registry.task?_eq_some_iff.mp hstored
    -- The answer is stored under the id that was looked up, which is its own.
    rwa [hconsistent.keyed id cell hcell]
  · exact fun task hok => nomatch hok

/-- Looking a task up for a client ends with what is stored of it. -/
theorem ensures_poll (t : Tracker) (id : TaskId) (r : Registry) :
    (t.poll id).Ensures (fun r result => (Job.poll id).Holds r result) r := by
  refine Call.ensures_request fun r₁ cell _ _ hanswer => ?_
  obtain rfl : cell = r₁.cell? id := hanswer
  split
  · exact fun view hok => nomatch hok
  · next cell hcell =>
    split
    · exact ensures_present (tells_of_cell? hcell)
    · refine (t.ensures_refresh id cell.task r₁).bind fun r₂ result _ htells => ?_
      split
      · exact fun view hok => nomatch hok
      · exact ensures_present htells

/-- Every job ends with what is stored of a task that has ended. -/
theorem Job.ensures_holds (t : Tracker) (job : Job) (r : Registry) :
    (job.call t).Ensures (fun r result => job.Holds r result) r := by
  cases job with
  | trigger op args id =>
    refine (ensures_trigger op args id r).imp fun r result hruns task hok hfinished => ?_
    rw [hruns task hok] at hfinished
    cases hfinished
  | get id =>
    refine Call.ensures_request fun r' cell _ _ hanswer => ?_
    obtain rfl : cell = r'.cell? id := hanswer
    split
    · next cell hcell => exact tells_of_cell? hcell
    · exact fun task hok => nomatch hok
  | push n => exact ensures_push n r
  | poll id => exact ensures_poll t id r
  | converge id report => exact ensures_converge id report r
  | sweep => exact (Call.ensures_true _ r).imp fun _ _ _ => trivial
  | collect => exact (Call.ensures_true _ r).imp fun _ _ _ => trivial

end Tracker

end SchemaQuery
