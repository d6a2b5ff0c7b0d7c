import SchemaQuery.Proofs.Tracker.Abreast
import SchemaQuery.Proofs.Tracker.Records

/-!
Collecting garbage goes unseen. It takes away entries of executions whose tasks have ended and were seen.
All that such an entry is for is to find the task that a notification is about, and this task stays as it
is whatever the notification says; and no new task can meet the entry, because its execution is a new
one. So the clients of a tracker that collects garbage and those of one that does not are told the same,
but for notifications on tasks that had ended and were seen: these are passed over by the one, and
answered with the task as it stands by the other.
-/

namespace SchemaQuery

/-! ### Taking entries away -/

namespace Registry

variable {σ : Type} {w : World σ} {old x y : Registry} {s : σ}

theorem Thinned.later (h : Thinned old x y) (hsteady : w.Steady old s y) : Thinned y x y where
  cells := h.cells
  reserved := h.reserved
  entry e := by
    rcases h.entry e with heq | ⟨hnone, id, c, hentry, hc, hreleasable⟩
    · exact .inl heq
    · exact .inr ⟨hnone, id, c, hentry, hsteady.kept id c hc hreleasable, hreleasable⟩

/-- Executions of tasks that have ended and were seen may be forgotten. -/
theorem Thinned.forget (h : Thinned y x y) (hsteady : w.Steady old s y)
    {executions : List ExecutionId} (hreleasable : ∀ e ∈ executions, ∃ id c, x.cell? id = some c ∧
      c.isReleasable = true ∧ c.task.execution = e) : Thinned y (x.forget executions).1 y where
  cells := by rw [cells_forget, h.cells]
  reserved := by rw [reserved_forget, h.reserved]
  entry e := by
    rw [taskFor?_forget]
    split
    · next hmem =>
      cases hentry : y.correlator.taskFor? e with
      | none => exact .inl rfl
      | some id =>
        -- The task of the entry is the one that was found to be releasable.
        obtain ⟨k, c, hc, hreleasable, rfl⟩ := hreleasable e hmem
        rw [h.cell? k] at hc
        obtain ⟨c', hc', hsame⟩ := hsteady.consistent.correlated c.task.execution id hentry
        obtain rfl := hsteady.own id k c'.task c.task (task?_eq_some_iff.mpr ⟨c', hc', rfl⟩)
          (task?_eq_some_iff.mpr ⟨c, hc, rfl⟩) hsame
        exact .inr ⟨rfl, id, c, rfl, hc, hreleasable⟩
    · exact h.entry e

end Registry

/-- What is true of the full registry is true seen from itself. -/
theorem World.Steady.later {σ : Type} {w : World σ} {old r : Registry} {s : σ}
    (h : w.Steady old s r) : w.Steady r s r :=
  { h with kept := fun _ _ hc _ => hc }

namespace Tracker

variable {σ : Type} {t : Tracker} {w : World σ} {old x y : Registry} {s : σ}

/-- Looking for executions that need not be known finds those of tasks that have ended and were seen. -/
theorem runIn_releasableOf (r : Registry) (ids : List TaskId) :
    t.runIn w s r (releasableOf ids) = (s, r, ids.filterMap fun id =>
      ((r.cell? id).filter Cell.isReleasable).map (·.task.execution)) := by
  induction ids with
  | nil => rfl
  | cons id ids ih =>
    have hsame : w.after s r (.cell id) = s := rfl
    rw [releasableOf, Call.bind_request, runIn_ask, runIn_bind, hsame, List.filterMap_cons]
    simp only [serve, ih]
    cases r.cell? id with
    | none => rfl
    | some c => cases hreleasable : c.isReleasable <;> simp [Option.filter, hreleasable, runIn]

/-- Collecting garbage forgets executions of tasks that have ended and were seen, and leaves the world
as it is. -/
theorem runIn_collectGarbage (r : Registry) : ∃ executions count,
    t.runIn w s r collectGarbage = (s, (r.forget executions).1, count) ∧
      ∀ e ∈ executions, ∃ id c, r.cell? id = some c ∧ c.isReleasable = true ∧
        c.task.execution = e := by
  have hrun : t.runIn w s r collectGarbage =
      t.runIn w s r (releasableOf ((w.around s).order r.ids) >>= fun executions =>
        Call.request (.forget executions)) := rfl
  rw [hrun, runIn_bind, runIn_releasableOf]
  refine ⟨_, _, rfl, fun e he => ?_⟩
  obtain ⟨id, -, hfound⟩ := List.mem_filterMap.mp he
  obtain ⟨c, hfilter, rfl⟩ := Option.map_eq_some_iff.mp hfound
  obtain ⟨hc, hreleasable⟩ := Option.filter_eq_some_iff.mp hfilter
  exact ⟨id, c, hc, hreleasable, rfl⟩

/-! ### Activities -/

theorem only_poll (t : Tracker) (id : TaskId) : (t.poll id).Only Request.Plain := by
  have hpresent (task : Task) : (present id task).Only Request.Plain := by
    unfold present
    split
    · exact Call.only_request trivial fun _ => trivial
    · trivial
  refine Call.only_request trivial fun cell => ?_
  split
  · trivial
  · split
    · exact hpresent _
    · refine ((t.only_refresh id _).imp fun _ hlooks => hlooks.plain).bind fun result => ?_
      split
      · trivial
      · exact hpresent _

/-- The results of an activity where garbage is collected and where it is not: the same, but for
notifications. -/
def Activity.Agrees (before : Registry) : (a : Activity) → a.Result → a.Result → Prop
  | .call (.push _), result, result' => PushAgrees before result result'
  | .batch _ _, results, results' => List.Forall₂ (PushAgrees before) results results'
  | _, result, result' => result = result'

/-- Every activity keeps pace, unless it collects garbage. -/
theorem Activity.keepPace (a : Activity) (ha : a.collects = false) :
    KeepPace t w old (a.Agrees old) (a.run t) (a.run t) := by
  have hlooks {α : Type} {c : Call α} (hc : c.Only Request.Looks) : KeepPace t w old Eq c c :=
    keepPace_of_only (hc.imp fun _ hlooks => hlooks.plain) fun _ => rfl
  cases a with
  | batch notifications turns =>
    let ps : List Pair := notifications.map fun n => (push n, push n)
    have hps : ∀ p ∈ ps, Abreast old p.1 p.2 := by
      intro p hp
      obtain ⟨n, -, rfl⟩ := List.mem_map.mp hp
      exact abreast_push n
    have hpairs : KeepPace t w old (List.Forall₂ (PushAgrees old))
        (Call.together turns (ps.map Prod.fst)) (Call.together turns (ps.map Prod.snd)) :=
      keepPace_together turns ps hps
    rwa [List.map_map, List.map_map] at hpairs
  | call job =>
    cases job with
    | trigger op args given => exact keepPace_trigger op args given
    | get id => exact hlooks (only_get id)
    | push n => exact (abreast_push n).keepPace
    | poll id => exact keepPace_of_only (t.only_poll id) fun _ => rfl
    | converge id report => exact hlooks (only_converge id report)
    | sweep => exact hlooks t.only_sweepExpired
    | collect => cases ha

/-- An activity where garbage is collected and the same one where it is not: it began on the same tasks
and marks, and the results agree. -/
inductive Ended.Agrees : Ended → Ended → Prop where
  | intro {before before' : Registry} (hcells : before.cells = before'.cells) {a : Activity}
    {result result' : a.Result} (hresult : a.Agrees before' result result') :
    Ended.Agrees ⟨before, a, result⟩ ⟨before', a, result'⟩

/-! ### Garbage -/

/-- Activities lead to the same world, tasks and marks with and without those that collect garbage, from
any two registries that differ in what such have taken away. -/
theorem perform_thinned (activities : List Activity) (hthinned : Registry.Thinned y x y)
    (hsteady : w.Steady y s y) :
    (t.perform w s x activities).1 =
        (t.perform w s y (activities.filter fun a => !a.collects)).1 ∧
      (t.perform w s x activities).2.1.cells =
        (t.perform w s y (activities.filter fun a => !a.collects)).2.1.cells ∧
      List.Forall₂ Ended.Agrees
        ((t.perform w s x activities).2.2.filter fun e => !e.activity.collects)
        (t.perform w s y (activities.filter fun a => !a.collects)).2.2 := by
  induction activities generalizing s x y with
  | nil => exact ⟨rfl, hthinned.cells, .nil⟩
  | cons a activities ih =>
    cases ha : a.collects with
    | true =>
      have hcollect : a = .call .collect := by
        cases a with
        | batch => cases ha
        | call job => cases job <;> first | rfl | cases ha
      subst hcollect
      obtain ⟨executions, count, hrun, hreleasable⟩ :=
        runIn_collectGarbage (t := t) (w := w) (s := s) x
      rw [perform_cons t w (a := .call .collect) hrun,
        List.filter_cons_of_neg (by simp [Activity.collects]),
        List.filter_cons_of_neg (by simp [Activity.collects])]
      exact ih (hthinned.forget hsteady hreleasable) hsteady
    | false =>
      obtain ⟨hworld, hthinned', hsteady', hresult⟩ := a.keepPace (t := t) ha s x y hthinned hsteady
      obtain ⟨hworld', hcells, hlog⟩ := ih (hthinned'.later hsteady') hsteady'.later
      rw [List.filter_cons_of_pos (by simp [ha]), perform_cons t w rfl, perform_cons t w rfl,
        List.filter_cons_of_pos (by simp [ha]), hworld]
      exact ⟨hworld', hcells, .cons (.intro hthinned.cells hresult) hlog⟩

/-- Collecting garbage goes unseen. Whatever clients do one after the other, in whatever world, as long
as the engine gives no execution twice: with the collections of garbage left out, the world goes the same
way, every task and every mark is the same before each activity and at the end, and every activity ends
with the same result, but for notifications. One of these may be passed over where garbage was collected,
and then it is answered, where it was not, with a task that had ended and was seen before, as it was. -/
theorem garbage_unseen (t : Tracker) (w : World σ) (hnew : w.NeverRepeats s)
    (activities : List Activity) :
    (t.perform w s ∅ activities).1 =
        (t.perform w s ∅ (activities.filter fun a => !a.collects)).1 ∧
      (t.perform w s ∅ activities).2.1.cells =
        (t.perform w s ∅ (activities.filter fun a => !a.collects)).2.1.cells ∧
      List.Forall₂ Ended.Agrees
        ((t.perform w s ∅ activities).2.2.filter fun e => !e.activity.collects)
        (t.perform w s ∅ (activities.filter fun a => !a.collects)).2.2 := by
  have hsteady : w.Steady ∅ s ∅ := by
    constructor
    case consistent => exact Registry.consistent_empty
    case kept => exact fun _ _ hc _ => hc
    case own => exact fun _ _ _ _ ht => nomatch ht
    case repeats => exact hnew
    case fresh => exact fun _ _ _ _ _ ht => nomatch ht
  exact perform_thinned activities (.refl ∅ ∅) hsteady

/-- An engine with a supply of executions, which gives each of them once. -/
def supply : World (List ExecutionId) where
  around executions :=
    { now := ⟨executions.length, 0⟩
      newId := ⟨"new"⟩
      order := id
      start := fun _ => match executions with
        | [] => .error (.io "exhausted")
        | execution :: _ => .ok execution
      state := fun _ => .ok .running
      fetch := fun _ => .ok [] }
  next executions
    | .start _ => executions.tail
    | _ => executions

theorem neverRepeats_supply {executions : List ExecutionId} (h : executions.Nodup) :
    supply.NeverRepeats executions := by
  intro requests
  refine List.Nodup.sublist ?_ h
  clear h
  induction requests generalizing executions with
  | nil => exact List.nil_sublist executions
  | cons request requests ih =>
    cases request with
    | start query =>
      cases executions with
      | nil => exact ih
      | cons execution executions => exact ih.cons_cons execution
    | _ => exact ih

/-- A task whose end is seen, a collection, and three more reports on its execution. -/
def lateReports : List Activity :=
  [.call (.trigger allUsers ∅ (some ⟨"t1"⟩)), .call (.push ⟨⟨"e1"⟩, .cancelled⟩),
    .call (.poll ⟨"t1"⟩), .call .collect, .call (.push ⟨⟨"e1"⟩, .succeeded⟩),
    .batch [⟨⟨"e1"⟩, .running⟩, ⟨⟨"e1"⟩, .failed none⟩] [1, 0, 0], .call (.get ⟨"t1"⟩)]

/-- The entry is gone in one run only, where the next report is passed over; the task is the same. -/
theorem garbage_unseen_lateReports :
    ∃ r r' log log', Tracker.perform (.plain .standard) supply [⟨"e1"⟩] ∅ lateReports = ([], r, log) ∧
      Tracker.perform (.plain .standard) supply [⟨"e1"⟩] ∅
        (lateReports.filter fun a => !a.collects) = ([], r', log') ∧
      r.correlator.size = 0 ∧ r'.correlator.size = 1 ∧ r.cells = r'.cells ∧
      List.Forall₂ Ended.Agrees (log.filter fun e => !e.activity.collects) log' ∧
      (∃ before, log[4]? = some ⟨before, .call (.push ⟨⟨"e1"⟩, .succeeded⟩), .ok none⟩) ∧
      ∃ before task, task.status = .cancelled ∧
        log'[3]? = some ⟨before, .call (.push ⟨⟨"e1"⟩, .succeeded⟩), .ok (some task)⟩ := by
  obtain ⟨r, log, hrun, hsize, hpassed⟩ : ∃ r log,
      Tracker.perform (.plain .standard) supply [⟨"e1"⟩] ∅ lateReports = ([], r, log) ∧
        r.correlator.size = 0 ∧
        ∃ before, log[4]? = some ⟨before, .call (.push ⟨⟨"e1"⟩, .succeeded⟩), .ok none⟩ :=
    ⟨_, _, rfl, rfl, _, rfl⟩
  obtain ⟨r', log', hrun', hsize', hanswered⟩ : ∃ r log,
      Tracker.perform (.plain .standard) supply [⟨"e1"⟩] ∅
          (lateReports.filter fun a => !a.collects) = ([], r, log) ∧
        r.correlator.size = 1 ∧ ∃ before task, task.status = .cancelled ∧
          log[3]? = some ⟨before, .call (.push ⟨⟨"e1"⟩, .succeeded⟩), .ok (some task)⟩ :=
    ⟨_, _, rfl, rfl, _, _, rfl, rfl⟩
  have hnew : supply.NeverRepeats [⟨"e1"⟩] := neverRepeats_supply (by simp)
  have hunseen := garbage_unseen (.plain .standard) supply hnew lateReports
  rw [hrun, hrun'] at hunseen
  obtain ⟨-, hcells, hagrees⟩ := hunseen
  exact ⟨r, r', log, log', hrun, hrun', hsize, hsize', hcells, hagrees, hpassed, hanswered⟩

end Tracker

end SchemaQuery
