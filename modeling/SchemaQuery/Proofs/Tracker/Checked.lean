import SchemaQuery.Proofs.Query.Rendering
import SchemaQuery.Proofs.Tracker.Trigger

/-!
The arguments of stored tasks. A trigger renders its query before it does anything else, and that checks
its arguments; a trigger whose query cannot be rendered ends at once. So every argument of a stored task
has a literal, whatever happens to the task later.
-/

namespace SchemaQuery

namespace Tracker

theorem check_of_render {op : Operation} {args : Arguments} {query : CompiledQuery}
    (h : op.render args = .ok query) : args.check = .ok () :=
  (PreparedTemplate.render_eq_ok_iff.mp h).1

/-- Every trigger has checked arguments, or has ended with an error. -/
def Machine.Vets (m : Machine) : Prop :=
  ∀ (place : Nat) (op : Operation) (args : Arguments) (given : Option TaskId) p,
    m.threads[place]? = some ⟨.trigger op args given, p⟩ →
      args.check = .ok () ∨ ∃ e, p = .at (.done (.error e))

/-- A trigger that begins has checked arguments, or ends at once. -/
theorem check_or_ended (op : Operation) (args : Arguments) (given : Option TaskId) :
    args.check = .ok () ∨ ∃ e, trigger op args given = .done (.error e) := by
  unfold trigger
  split
  · split
    · next e _ => exact .inr ⟨e, rfl⟩
    · next query hrender => exact .inl (check_of_render hrender)
  · exact .inr ⟨_, rfl⟩

theorem Machine.Vets.step {m m' : Machine} (h : m.Vets) {t : Tracker} {event : Event}
    (hstep : m.step? t event = some m') : m'.Vets := by
  intro k op args given q hk
  rcases step?_cases hstep with ⟨jobs, rfl⟩ | ⟨place, job, p, p', r', hplace, hmoves, rfl⟩
  · rcases mem_of_append hk with hk | ⟨job, hjob⟩
    · exact h k op args given q hk
    · cases hjob
      exact (check_or_ended op args given).imp_right fun ⟨e, he⟩ => ⟨e, congrArg Progress.at he⟩
  · rcases eq_of_set hk with ⟨-, heq⟩ | ⟨-, hk⟩
    · cases heq
      rcases h place op args given p hplace with hcheck | ⟨e, rfl⟩
      · exact .inl hcheck
      · -- A call that has ended does not move.
        cases hmoves
    · exact h k op args given q hk

/-- The arguments of every task are checked. -/
structure Machine.Checked (m : Machine) : Prop where
  recorded : m.Recorded
  phased : m.Phased
  vets : m.Vets
  tasks : ∀ id task, m.registry.task? id = some task → task.arguments.check = .ok ()

namespace Machine.Checked

theorem empty : Machine.Checked ⟨∅, []⟩ where
  recorded := recorded_empty
  phased _ _ _ _ _ hplace := nomatch hplace
  vets _ _ _ _ _ hplace := nomatch hplace
  tasks _ _ htask := nomatch htask

theorem check_of_storing {m : Machine} (h : m.Vets) {place : Nat} {task : Task}
    (hat : m.At place (.storing task)) : task.arguments.check = .ok () := by
  obtain ⟨op, args, given, hplace, -, -, rfl⟩ := hat
  rcases h place op task.arguments given _ hplace with hcheck | ⟨e, he⟩
  · exact hcheck
  · cases he

/-- Every event keeps this: tasks keep their arguments, and a new one was made by a trigger. -/
theorem step {m m' : Machine} (h : m.Checked) {t : Tracker} {event : Event}
    (hstep : m.step? t event = some m') : m'.Checked := by
  obtain ⟨hphased, hchange⟩ := h.recorded.change h.phased hstep
  refine ⟨h.recorded.step hstep, hphased, h.vets.step hstep, fun id task htask => ?_⟩
  cases hchange with
  | upkeep hr hgiven hstays hfresh =>
    obtain ⟨task₀, htask₀, hadvances⟩ := hr.task?_before htask
    rw [hadvances.start_eq.2.2.1]
    exact h.tasks id task₀ htask₀
  | @moves place op args phase phase' got hat hat' hmoves hgiven hothers =>
    generalize m'.registry = r' at hmoves htask
    cases hmoves with
    | names | reserves | refused | started | failed | timed | leaves => exact h.tasks id task htask
    | @stores stored r' answer hcreate =>
      obtain rfl : (m.registry.create stored).1 = r' := congrArg Prod.fst hcreate
      rcases Registry.task?_of_create htask with hbefore | ⟨rfl, -⟩
      · exact h.tasks id task hbefore
      · exact check_of_storing h.vets hat

end Machine.Checked

/-- Every argument of a task that is stored in any run has a literal. -/
theorem check_of_run {t : Tracker} {events : List Event} {m : Machine}
    (hrun : Machine.run? t ⟨∅, []⟩ events = some m) {id : TaskId} {task : Task}
    (htask : m.registry.task? id = some task) : task.arguments.check = .ok () := by
  have hchecked : m.Checked := run?_induction (fun _ _ _ hm hstep => hm.step hstep) .empty hrun
  exact hchecked.tasks id task htask

end Tracker

end SchemaQuery
