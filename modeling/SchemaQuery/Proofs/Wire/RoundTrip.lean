import SchemaQuery.Proofs.Tracker.Checked
import SchemaQuery.Proofs.Wire.Config
import SchemaQuery.Proofs.Wire.Schema
import SchemaQuery.Proofs.Wire.Task

/-!
What is written is read back. Most kinds of values are never nested deeply and are always read back. A task
and a view are read back as long as no more containers are nested in them than may be, where a task also
needs arguments whose binary numbers are finite; and those of every task that is stored are.
-/

namespace SchemaQuery

/-! ### Tasks and views -/

/-- What the encoding of a task has to be for it to be read back: the fields of each object stand in the
order of their names, as a map of sorted keys has them, and the texts of numbers and times read back. -/
structure Task.ReadsBack (t : Task) : Prop where
  ordered : t.toJson.Ordered
  numbers : t.toJson.Legible
  times : ∀ time ∈ t.times, time.ReadsBack

/-- What the encoding of a view has to be for it to be read back. -/
structure StatusView.ReadsBack (v : StatusView) : Prop where
  ordered : v.toJson.Ordered
  numbers : v.toJson.Legible
  times : ∀ time ∈ v.times, time.ReadsBack

theorem Task.read_text {t : Task} (hargs : t.arguments.Finite) (h : t.ReadsBack) :
    Task.decoder.read t.toJson.text =
      if t.toJson.depth ≤ Json.depthLimit then .ok t else .error (.json "") :=
  (Task.inverts hargs h.numbers h.ordered h.times).read_text h.numbers

theorem StatusView.read_text {v : StatusView} (h : v.ReadsBack) :
    StatusView.decoder.read v.toJson.text =
      if v.toJson.depth ≤ Json.depthLimit then .ok v else .error (.json "") :=
  (StatusView.inverts h.numbers h.ordered h.times).read_text h.numbers

/-! ### Arguments that are accepted -/

theorem Value.finite_of_literal {key : String} {v : Value} {text : List Char}
    (h : v.literal key = .ok text) : v.Finite := by
  cases v with
  | null | bool | int | text => trivial
  | float x =>
    cases x with
    | finite y => exact ⟨y, rfl⟩
    | _ => cases h
  | list | object => cases h

theorem Arguments.finite_of_check {args : Arguments} (h : args.check = .ok ()) : args.Finite := by
  intro ⟨key, v⟩ hmem
  obtain ⟨text, htext, -⟩ := map_eq_ok_iff.mp (forM_eq_ok_iff.mp h (key, v) hmem)
  exact Value.finite_of_literal htext

namespace Wire

/-- What is written of a public type is read back, with these limits. A task and a view are read back
exactly if no more than 127 containers are nested in them; a task needs finite numbers as arguments. A
trigger with other arguments ends with an error before it asks for anything, so every task that is stored
in any run of a tracker has finite ones. -/
theorem read_text_toJson :
    (∀ t : Task, t.arguments.Finite → t.ReadsBack → Task.decoder.read t.toJson.text =
      if t.toJson.depth ≤ Json.depthLimit then .ok t else .error (.json "")) ∧
    (∀ v : StatusView, v.ReadsBack → StatusView.decoder.read v.toJson.text =
      if v.toJson.depth ≤ Json.depthLimit then .ok v else .error (.json "")) ∧
    (∀ n : Notification, Notification.decoder.read n.toJson.text = .ok n) ∧
    (∀ state : ExecutionState, ExecutionState.decoder.read state.toJson.text = .ok state) ∧
    (∀ op : Operation, Operation.decoder.read op.toJson.text = .ok op) ∧
    (∀ s : OperationSet, OperationSet.decoder.read s.toJson.text = .ok s) ∧
    (∀ m : Metadata, Metadata.decoder.read m.toJson.text = .ok m) ∧
    (∀ t : PreparedTemplate, PreparedTemplate.decoder.read t.toJson.text = .ok t) ∧
    (∀ q : CompiledQuery, CompiledQuery.decoder.read q.toJson.text = .ok q) ∧
    (∀ c : Config, Config.decoder.read c.toJson.text = .ok c) ∧
    (∀ (op : Operation) (args : Arguments) (id : Option TaskId), ¬ args.Finite →
      ∃ e, Tracker.trigger op args id = .done (.error e)) ∧
    ∀ (t : Tracker) (events : List Tracker.Event) (m : Tracker.Machine),
      Tracker.Machine.run? t ⟨∅, []⟩ events = some m →
        ∀ id task, m.registry.task? id = some task → task.arguments.Finite := by
  refine ⟨fun t => t.read_text, fun v => v.read_text,
    fun n => n.inverts.read_text_of_within n.within (by decide),
    fun state => state.inverts.read_text_of_within state.within (by decide),
    fun op => op.inverts.read_text_of_within op.within (by decide),
    fun s => s.inverts.read_text_of_within s.within (by decide),
    fun m => m.inverts.read_text_of_within m.within (by decide),
    fun t => t.inverts.read_text_of_within t.within (by decide),
    fun q => q.inverts.read_text_of_within q.within (by decide),
    fun c => c.inverts.read_text_of_within c.within (by decide), fun op args id hargs => ?_,
    fun t events m hrun id task htask => ?_⟩
  · exact (Tracker.check_or_ended op args id).resolve_left fun hcheck =>
      hargs (Arguments.finite_of_check hcheck)
  · exact Arguments.finite_of_check (Tracker.check_of_run hrun htask)

/-! ### A task with a number -/

/-- One and a half. -/
def oneAndAHalf : Finite64 := ⟨false, 3 * Nat.pow 2 51, 1022, by decide, by decide, .inr (by decide)⟩

theorem oneAndAHalf_readsBack : oneAndAHalf.ReadsBack := by decide +kernel

/-- A number as the one argument. -/
def numberArgument (x : Binary64) : Arguments := Dictionary.ofList [("x", .float x)]

/-- A task with a number as its argument, which found one record. -/
def numberTask : Task :=
  (Task.start ⟨"t1"⟩ "users" (numberArgument (.finite oneAndAHalf)) ⟨"e1"⟩ ⟨0, 0⟩).finish ⟨1, 500000000⟩
    (.succeeded [Dictionary.ofList [("name", .string "Ada"), ("id", .nat 7)]])

theorem numberTask_readsBack : numberTask.ReadsBack where
  ordered := Task.ordered_iff.mpr
    ⟨⟨by decide, trivial, trivial⟩, ⟨by decide, trivial, trivial, trivial⟩, trivial⟩
  numbers := Task.legible_iff.mpr
    ⟨⟨oneAndAHalf_readsBack, trivial⟩, ⟨trivial, trivial, trivial⟩, trivial⟩
  times := by decide +kernel

theorem numberTask_view_readsBack : numberTask.view.ReadsBack where
  ordered := StatusView.ordered_iff.mpr (Task.ordered_iff.mp numberTask_readsBack.ordered).2
  numbers := StatusView.legible_iff.mpr (Task.legible_iff.mp numberTask_readsBack.numbers).2
  times := numberTask_readsBack.times

/-- A trigger with a number as its argument, up to the storing of its task. -/
def numberTrigger : List Tracker.Event :=
  [.begin (.trigger Tracker.allUsers (numberArgument (.finite oneAndAHalf)) (some ⟨"t1"⟩)),
    .serve 0 ⟨0, 0⟩, .reply 0 (.started (.ok ⟨"e1"⟩)), .reply 0 (.time ⟨0, 0⟩), .serve 0 ⟨0, 0⟩]

/-- The task with the number and its view are read back, a trigger stores one, and a trigger with an
argument that is no number does not. -/
theorem read_text_toJson_numberTask :
    numberTask.arguments.Finite ∧ numberTask.ReadsBack ∧
      Task.decoder.read numberTask.toJson.text = .ok numberTask ∧
      StatusView.decoder.read numberTask.view.toJson.text = .ok numberTask.view ∧
      (∃ e, Tracker.trigger Tracker.allUsers (numberArgument .notANumber) none = .done (.error e)) ∧
      ∃ m task, Tracker.Machine.run? (.plain .standard) ⟨∅, []⟩ numberTrigger = some m ∧
        m.registry.task? ⟨"t1"⟩ = some task ∧ task.arguments.Finite := by
  have hfinite : numberTask.arguments.Finite := by
    intro e he
    obtain rfl := List.mem_singleton.mp he
    exact ⟨oneAndAHalf, rfl⟩
  have hnan : ¬ (numberArgument .notANumber).Finite := fun h => by
    obtain ⟨y, hy⟩ := h ("x", .float .notANumber) List.mem_cons_self
    cases hy
  obtain ⟨htask, hview, -, -, -, -, -, -, -, -, htrigger, hstored⟩ := read_text_toJson
  have hread := htask numberTask hfinite numberTask_readsBack
  have hshown := hview numberTask.view numberTask_view_readsBack
  rw [if_pos (by decide +kernel)] at hread hshown
  obtain ⟨m, task, hrun, hm⟩ : ∃ m task,
      Tracker.Machine.run? (.plain .standard) ⟨∅, []⟩ numberTrigger = some m ∧
        m.registry.task? ⟨"t1"⟩ = some task :=
    ⟨_, _, rfl, rfl⟩
  exact ⟨hfinite, numberTask_readsBack, hread, hshown, htrigger _ _ _ hnan, m, task, hrun, hm,
    hstored _ _ m hrun _ task hm⟩

/-! ### A task with a deep list -/

/-- A list in a list, and so on. -/
def nested : Nat → Value
  | 0 => .list []
  | n + 1 => .list [nested n]

theorem finite_nested (n : Nat) : (nested n).Finite := by
  induction n with
  | zero => trivial
  | succ n ih => exact ⟨ih, trivial⟩

theorem legible_nested (n : Nat) : (nested n).toJson.Legible := by
  induction n with
  | zero => trivial
  | succ n ih => exact ⟨ih, trivial⟩

theorem ordered_nested (n : Nat) : (nested n).toJson.Ordered := by
  induction n with
  | zero => trivial
  | succ n ih => exact ⟨ih, trivial⟩

theorem depth_nested (n : Nat) : (nested n).toJson.depth = n + 1 := by
  induction n with
  | zero => rfl
  | succ n ih =>
    have hdepth : (nested (n + 1)).toJson.depth = max (nested n).toJson.depth 0 + 1 := rfl
    rw [hdepth, ih, Nat.max_eq_left (Nat.zero_le _)]

/-- A task with a list of 126 levels as its argument. -/
def nestedTask : Task :=
  .start ⟨"t1"⟩ "users" (Dictionary.ofList [("x", nested 125)]) ⟨"e1"⟩ ⟨0, 0⟩

/-- The task, its arguments and the list have 128 levels, one too many, so the task is not read back. -/
theorem read_text_nestedTask_eq_error :
    nestedTask.arguments.Finite ∧ nestedTask.ReadsBack ∧
      Task.decoder.read nestedTask.toJson.text = .error (.json "") := by
  have hfinite : nestedTask.arguments.Finite := by
    intro e he
    obtain rfl := List.mem_singleton.mp he
    exact finite_nested 125
  have hreads : nestedTask.ReadsBack := by
    refine ⟨Task.ordered_iff.mpr ⟨⟨List.pairwise_singleton .., ?_, trivial⟩, trivial⟩,
      Task.legible_iff.mpr ⟨⟨?_, trivial⟩, trivial⟩, by decide +kernel⟩
    · exact ordered_nested 125
    · exact legible_nested 125
  have hdepth : ¬ nestedTask.toJson.depth ≤ Json.depthLimit := by
    intro h
    have harguments : (Json.ofFields [("x", (nested 125).toJson)]).depth ≤ 126 :=
      (Decoder.depth_ofFields_le_iff (by simp)).mp h ("arguments", nestedTask.arguments.toJson)
        (by simp [nestedTask])
    have hlist := (Decoder.depth_ofFields_le_iff (by simp)).mp harguments _ List.mem_cons_self
    rw [depth_nested] at hlist
    omega
  refine ⟨hfinite, hreads, ?_⟩
  rw [Task.read_text hfinite hreads, if_neg hdepth]

end Wire

end SchemaQuery
