import SchemaQuery.Proofs.Tracker.Pace

/-!
Notifications on two registries. One that looks for its task finds the same one on both, or none where
the entry is lacking. Where it finds one that had ended and was seen, it ends with this task as it
stands; so the two results are the same, or one has passed over what the other one answers as it was.
Notifications of a batch take turns, and stay abreast with each turn that one of them takes.
-/

namespace SchemaQuery

namespace Tracker

variable {σ : Type} {t : Tracker} {w : World σ} {old x y : Registry} {s : σ}

/-! ### One notification -/

/-- The results of a notification where garbage is collected and where it is not: the same, or the former
passes over a task that had ended and was seen, which the latter answers as it was. -/
inductive PushAgrees (before : Registry) :
    Except Error (Option Task) → Except Error (Option Task) → Prop where
  | same (result : Except Error (Option Task)) : PushAgrees before result result
  | passedOver {id : TaskId} {c : Cell} (hc : before.cell? id = some c) (hobserved : c.observed = true)
    (hfinished : c.task.isFinished = true) : PushAgrees before (.ok none) (.ok (some c.task))

/-- What is left of a notification once its task has been looked up. -/
def lookedUp (n : Notification) : Option TaskId → Call (Except Error (Option Task))
  | some id => .ask (.converge id n.state) fun answer => .done (answer.map some)
  | none => .done (.ok none)

theorem push_eq (n : Notification) : push n = .ask (.lookup n.execution) (lookedUp n) := by
  rw [push, Call.bind_request]
  congr 1
  funext found
  cases found <;> rfl

theorem only_lookedUp (n : Notification) (found : Option TaskId) :
    (lookedUp n found).Only Request.Plain := by
  cases found with
  | none => trivial
  | some id => exact ⟨trivial, fun _ => trivial⟩

/-- How far a notification is that is applied on both registries. -/
inductive Abreast (old : Registry) :
    Call (Except Error (Option Task)) → Call (Except Error (Option Task)) → Prop where
  /-- It has yet to look its task up. -/
  | looksUp (n : Notification) :
    Abreast old (.ask (.lookup n.execution) (lookedUp n)) (.ask (.lookup n.execution) (lookedUp n))
  /-- The task is the same. -/
  | plain {c : Call (Except Error (Option Task))} (hc : c.Only Request.Plain) : Abreast old c c
  /-- One has passed the task over, the other one has yet to see that it has ended. -/
  | passesOver {id : TaskId} (report : ExecutionState) {c : Cell} (hc : old.cell? id = some c)
    (hreleasable : c.isReleasable = true) :
    Abreast old (.done (.ok none)) (.ask (.converge id report) fun answer => .done (answer.map some))
  /-- One has passed the task over, the other one has answered it. -/
  | passedOver {id : TaskId} {c : Cell} (hc : old.cell? id = some c)
    (hreleasable : c.isReleasable = true) : Abreast old (.done (.ok none)) (.done (.ok (some c.task)))

/-- One turn of a call: its next request, if it has one. -/
def turn {α : Type} (t : Tracker) (w : World σ) (s : σ) (r : Registry) :
    Call α → σ × Registry × Call α
  | .done a => (s, r, .done a)
  | .ask request next =>
    (w.after s r request, (t.serve (w.around s) r request).1, next (t.serve (w.around s) r request).2)

theorem runIn_turn {α : Type} (s : σ) (r : Registry) (c : Call α) :
    t.runIn w s r c =
      t.runIn w (t.turn w s r c).1 (t.turn w s r c).2.1 (t.turn w s r c).2.2 := by
  cases c <;> rfl

/-- A call of plain requests takes its turn on both registries alike. -/
theorem paced_turn_of_only (hthinned : Registry.Thinned old x y) (hsteady : w.Steady old s y)
    {c : Call (Except Error (Option Task))} (hc : c.Only Request.Plain) :
    Paced w old (Abreast old) (t.turn w s x c) (t.turn w s y c) := by
  cases c with
  | done a => exact ⟨rfl, hthinned, hsteady, .plain hc⟩
  | ask request next =>
    obtain ⟨hworld, hthinned', hsteady', hanswer⟩ := paced_serve (t := t) hthinned hsteady hc.1
    refine ⟨hworld, hthinned', hsteady', ?_⟩
    simp only at hanswer
    rw [turn, turn, hanswer]
    exact .plain (hc.2 _)

theorem Abreast.turn {c d : Call (Except Error (Option Task))} (h : Abreast old c d)
    (hthinned : Registry.Thinned old x y) (hsteady : w.Steady old s y) :
    Paced w old (Abreast old) (t.turn w s x c) (t.turn w s y d) := by
  cases h with
  | plain hc => exact paced_turn_of_only hthinned hsteady hc
  | passedOver hc hreleasable => exact ⟨rfl, hthinned, hsteady, .passedOver hc hreleasable⟩
  | @passesOver id report c hc hreleasable =>
    have hstored : y.task? id = some c.task :=
      Registry.task?_eq_some_iff.mpr ⟨c, hsteady.kept id c hc hreleasable, rfl⟩
    have hjudge : y.judge id report = .unchanged c.task := by
      have hfinished : c.task.isFinished = true := (Bool.and_eq_true_iff.mp hreleasable).2
      rw [Registry.judge, hstored]
      exact if_pos hfinished
    have hturn : t.turn w s y (.ask (.converge id report) fun answer => .done (answer.map some)) =
        (s, y, .done (.ok (some c.task))) := by
      simp only [Tracker.turn, World.after, Registry.reachesWorld, serve, hjudge]
      rfl
    rw [hturn]
    exact ⟨rfl, hthinned, hsteady, .passedOver hc hreleasable⟩
  | looksUp n =>
    refine ⟨rfl, hthinned, hsteady, ?_⟩
    simp only [Tracker.turn, serve]
    rcases hthinned.entry n.execution with heq | ⟨hnone, id, c, hentry, hc, hreleasable⟩
    · rw [heq]
      exact .plain (only_lookedUp n _)
    · rw [hnone, hentry]
      exact .passesOver n.state hc hreleasable

/-- Notifications of which the second one has ended have both ended. -/
theorem Abreast.of_done {c : Call (Except Error (Option Task))} {b : Except Error (Option Task)}
    (h : Abreast old c (.done b)) : ∃ a, c = .done a ∧ PushAgrees old a b := by
  cases h with
  | plain hc => exact ⟨b, rfl, .same b⟩
  | passedOver hc hreleasable =>
    obtain ⟨hobserved, hfinished⟩ := Bool.and_eq_true_iff.mp hreleasable
    exact ⟨.ok none, rfl, .passedOver hc hobserved hfinished⟩

/-- Notifications that are abreast keep pace: turn by turn, until the second one has ended. -/
theorem Abreast.keepPace {c d : Call (Except Error (Option Task))} (h : Abreast old c d) :
    KeepPace t w old (PushAgrees old) c d := by
  induction d generalizing c with
  | done b =>
    obtain ⟨a, rfl, hagrees⟩ := h.of_done
    exact keepPace_done hagrees
  | ask request next ih =>
    intro s x y hthinned hsteady
    obtain ⟨hworld, hthinned', hsteady', habreast⟩ := h.turn (t := t) hthinned hsteady
    rw [runIn_turn s x c, runIn_turn s y (.ask request next), hworld]
    exact ih _ habreast _ _ _ hthinned' hsteady'

theorem abreast_push (n : Notification) : Abreast old (push n) (push n) := by
  rw [push_eq]
  exact .looksUp n

/-! ### Batches -/

/-- Two calls side by side. -/
abbrev Pair : Type := Call (Except Error (Option Task)) × Call (Except Error (Option Task))

theorem keepPace_inTurn (ps : List Pair) (h : ∀ p ∈ ps, Abreast old p.1 p.2) :
    KeepPace t w old (List.Forall₂ (PushAgrees old)) (Call.inTurn (ps.map Prod.fst))
      (Call.inTurn (ps.map Prod.snd)) := by
  induction ps with
  | nil => exact keepPace_done .nil
  | cons p ps ih =>
    refine keepPace_bind (h p List.mem_cons_self).keepPace fun a b hab => ?_
    refine keepPace_bind (ih fun q hq => h q (List.mem_cons_of_mem p hq)) fun as bs hrest => ?_
    exact keepPace_done (.cons hab hrest)

theorem runIn_together_cons {α : Type} (s : σ) (r : Registry) {k : Nat} (turns : List Nat)
    {cs : List (Call α)} {c : Call α} (hk : cs[k]? = some c) :
    t.runIn w s r (Call.together (k :: turns) cs) =
      t.runIn w (t.turn w s r c).1 (t.turn w s r c).2.1
        (Call.together turns (cs.set k (t.turn w s r c).2.2)) := by
  cases c with
  | ask request next =>
    simp only [Call.together, hk]
    rfl
  | done a =>
    obtain ⟨hlt, heq⟩ := List.getElem?_eq_some_iff.mp hk
    have hset : cs.set k (.done a) = cs := by rw [← heq, List.set_getElem_self]
    simp only [Call.together, hk, turn, hset]

/-- Notifications that take turns keep pace. -/
theorem keepPace_together (turns : List Nat) (ps : List Pair) (h : ∀ p ∈ ps, Abreast old p.1 p.2) :
    KeepPace t w old (List.Forall₂ (PushAgrees old)) (Call.together turns (ps.map Prod.fst))
      (Call.together turns (ps.map Prod.snd)) := by
  induction turns generalizing ps with
  | nil => exact keepPace_inTurn ps h
  | cons k turns ih =>
    intro s x y hthinned hsteady
    cases hk : ps[k]? with
    | none =>
      have hnone {α : Type} (f : Pair → Call α) :
          Call.together (k :: turns) (ps.map f) = Call.together turns (ps.map f) := by
        simp only [Call.together, List.getElem?_map, hk, Option.map_none]
      rw [hnone, hnone]
      exact ih ps h s x y hthinned hsteady
    | some p =>
      have hfst : (ps.map Prod.fst)[k]? = some p.1 := by rw [List.getElem?_map, hk, Option.map_some]
      have hsnd : (ps.map Prod.snd)[k]? = some p.2 := by rw [List.getElem?_map, hk, Option.map_some]
      obtain ⟨hworld, hthinned', hsteady', habreast⟩ :=
        (h p (List.mem_of_getElem? hk)).turn (t := t) hthinned hsteady
      rw [runIn_together_cons s x turns hfst, runIn_together_cons s y turns hsnd, hworld]
      have hset := ih (ps.set k ((t.turn w s x p.1).2.2, (t.turn w s y p.2).2.2)) fun q hq => by
        rcases List.mem_or_eq_of_mem_set hq with hq | rfl
        · exact h q hq
        · exact habreast
      rw [List.map_set, List.map_set] at hset
      exact hset _ _ _ hthinned' hsteady'

end Tracker

end SchemaQuery
