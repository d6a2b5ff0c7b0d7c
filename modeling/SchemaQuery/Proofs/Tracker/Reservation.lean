import SchemaQuery.Proofs.Tracker.Trigger

/-!
Triggers do not get in each other's way. The reservation of an id, the start of its execution and the
storing of its task are made one after the other, and anything can happen in between. But an id is
reserved exactly while one trigger holds it, an execution that the engine has given to a trigger is that
of no stored task until the trigger stores its own, and every stored task was made by one trigger. So a
task whose execution has started is never refused, and every execution that was started is followed.
-/

namespace SchemaQuery

/-! ### Tasks that are stored -/

/-- The task is stored, running or ended by now, and its execution belongs to it until it has ended. -/
def Registry.Stores (r : Registry) (task : Task) : Prop :=
  ∃ t, r.task? task.id = some t ∧ task.Advances t ∧
    (r.correlator.taskFor? task.execution = some task.id ∨ t.isFinished = true)

namespace Registry

variable {r r' : Registry} {task : Task}

/-- A stored task stays stored under upkeep, where no other task runs its execution. -/
theorem Stores.of_upkeep (h : r.Stores task) (hr : r.Upkeep r') (hown : r.Separate) :
    r'.Stores task := by
  obtain ⟨t, ht, hadvances, hentry⟩ := h
  obtain ⟨t', ht', hadvances'⟩ := hr.evolves task.id t ht
  refine ⟨t', ht', hadvances.trans hadvances', ?_⟩
  rcases hentry with hentry | hfinished
  · rcases hr.entry task.execution task.id hentry with hentry | ⟨id, t₀, ht₀, hfinished, hexecution⟩
    · exact .inl hentry
    · -- The task that has ended is this one.
      obtain rfl := hown id task.id t₀ t ht₀ ht (hexecution.trans hadvances.execution_eq.symm)
      rw [ht] at ht₀
      cases ht₀
      exact .inr (hadvances'.isFinished hfinished)
  · exact .inr (hadvances'.isFinished hfinished)

theorem Stores.create (h : r.Stores task) (t : Task) : (r.create t).1.Stores task := by
  obtain ⟨t', ht', hadvances, hentry⟩ := h
  refine ⟨t', r.task?_create t ht', hadvances, ?_⟩
  rcases hentry with hentry | hfinished
  · refine .inl ?_
    rcases r.create_cases t with ⟨e, hr⟩ | ⟨-, -, hr⟩ <;> rw [hr]
    · exact hentry
    · rw [Correlator.taskFor?_insert, hentry, Option.some_or]
  · exact .inr hfinished

/-- A new task whose execution is new is stored with its entry. -/
theorem stores_create (hid : r.cell? task.id = none)
    (hexecution : r.correlator.taskFor? task.execution = none) :
    (r.create task).1.task? task.id = some task ∧
      (r.create task).1.correlator.taskFor? task.execution = some task.id := by
  have hok := create_of_new hid hexecution
  rcases r.create_cases task with ⟨e, hr⟩ | ⟨-, -, hr⟩
  · rw [hr] at hok
    cases hok
  · rw [hr]
    refine ⟨task?_eq_some_iff.mpr ⟨⟨task, false⟩, ?_, rfl⟩, ?_⟩
    · rw [cell?, Keyed.get?_add, ← cell?.eq_def, hid, Option.none_or, if_pos rfl]
    · rw [Correlator.taskFor?_insert, hexecution, Option.none_or, if_pos rfl]

end Registry

namespace Tracker

/-! ### What triggers show after an event -/

/-- The trigger at a place holds an id. -/
abbrev Machine.Holds (m : Machine) (place : Nat) (id : TaskId) : Prop := m.Shows Phase.held? place id

/-- The trigger at a place has an execution in hand. -/
abbrev Machine.InHand (m : Machine) (place : Nat) (execution : ExecutionId) : Prop :=
  m.Shows Phase.inHand? place execution

/-- The trigger at a place has made a task. -/
abbrev Machine.Made (m : Machine) (place : Nat) (task : Task) : Prop :=
  m.Shows Phase.made? place task

variable {m m' : Machine} {event : Event}

section Shows

variable {β : Type} {f : Phase → Option β} {place k : Nat} {phase phase' : Phase} {b b' : β}

theorem Machine.Shows.unique (h : m.Shows f place b) (h' : m.Shows f place b') : b = b' := by
  obtain ⟨phase, hat, hf⟩ := h
  rw [hat.shows_iff, hf] at h'
  exact Option.some.inj h'

/-- Triggers that stay in their phases, and new ones that have done nothing, show what was shown. -/
theorem shows_of_stays (hstays : ∀ place phase, m.At place phase → m'.At place phase)
    (hfresh : ∀ place phase, m'.At place phase → m.At place phase ∨ phase.IsFresh)
    (hf : ∀ phase, phase.IsFresh → f phase = none) : m'.Shows f k b ↔ m.Shows f k b := by
  constructor
  · rintro ⟨phase, hat, hshows⟩
    rcases hfresh k phase hat with hat | hfresh
    · exact ⟨phase, hat, hshows⟩
    · rw [hf phase hfresh] at hshows
      cases hshows
  · rintro ⟨phase, hat, hshows⟩
    exact ⟨phase, hstays k phase hat, hshows⟩

/-- The trigger that moves shows what its new phase shows, and every other one what it showed. -/
theorem shows_of_moves (hat' : m'.At place phase')
    (hothers : ∀ k phase, place ≠ k → (m'.At k phase ↔ m.At k phase)) :
    m'.Shows f k b ↔ if place = k then f phase' = some b else m.Shows f k b := by
  split
  · next hk =>
    subst hk
    exact hat'.shows_iff
  · next hne => exact exists_congr fun phase => and_congr_left' (hothers k phase hne)

theorem shows_of_same (hat : m.At place phase) (hat' : m'.At place phase')
    (hothers : ∀ k phase, place ≠ k → (m'.At k phase ↔ m.At k phase))
    (hsame : f phase' = f phase) : m'.Shows f k b ↔ m.Shows f k b := by
  rw [shows_of_moves hat' hothers]
  split
  · next hk =>
    subst hk
    rw [hsame, hat.shows_iff]
  · rfl

theorem shows_of_none (hat' : m'.At place phase')
    (hothers : ∀ k phase, place ≠ k → (m'.At k phase ↔ m.At k phase)) (hnone : f phase' = none) :
    m'.Shows f k b ↔ place ≠ k ∧ m.Shows f k b := by
  rw [shows_of_moves hat' hothers]
  split
  · next hk => simp [hnone, hk]
  · next hk => simp [hk]

/-- No two triggers show the same, if none did before and the one that moves shows something new. -/
theorem unique_of_moves {γ : Type} {g : β → γ}
    (h : ∀ i j b b', m.Shows f i b → m.Shows f j b' → g b = g b' → i = j)
    (hnobody : ∀ k b', m.Shows f k b' → g b' ≠ g b)
    (hshows : ∀ k b', m'.Shows f k b' ↔ if place = k then some b = some b' else m.Shows f k b')
    {i j : Nat} {b₁ b₂ : β} (hi : m'.Shows f i b₁) (hj : m'.Shows f j b₂) (heq : g b₁ = g b₂) :
    i = j := by
  rw [hshows] at hi hj
  split at hi <;> split at hj
  · omega
  · cases hi
    exact absurd heq.symm (hnobody j b₂ hj)
  · cases hj
    exact absurd heq (hnobody i b₁ hi)
  · exact h i j b₁ b₂ hi hj heq

end Shows

/-! ### Reserved ids -/

/-- The reserved ids are those that triggers hold. -/
structure Machine.Reserves (m : Machine) : Prop where
  reserved : ∀ id, id ∈ m.registry.reserved ↔ ∃ place, m.Holds place id
  unique : ∀ i j id, m.Holds i id → m.Holds j id → i = j

namespace Machine.Reserves

variable {place : Nat} {id : TaskId}

theorem of_same (h : m.Reserves) (hreserved : m'.registry.reserved = m.registry.reserved)
    (hholds : ∀ k id, m'.Holds k id ↔ m.Holds k id) : m'.Reserves where
  reserved id := by
    rw [hreserved, h.reserved]
    exact exists_congr fun k => (hholds k id).symm
  unique i j id hi hj := h.unique i j id ((hholds i id).mp hi) ((hholds j id).mp hj)

/-- A trigger may reserve an id that is free. -/
theorem reserve (h : m.Reserves) (hfree : id ∉ m.registry.reserved)
    (hnothing : ∀ k, ¬ m.Holds place k) (hreserved : m'.registry.reserved = id :: m.registry.reserved)
    (hholds : ∀ k b, m'.Holds k b ↔ if place = k then some id = some b else m.Holds k b) :
    m'.Reserves where
  reserved b := by
    rw [hreserved, List.mem_cons, h.reserved]
    constructor
    · rintro (rfl | ⟨k, hk⟩)
      · exact ⟨place, (hholds place b).mpr (by rw [if_pos rfl])⟩
      · have hne : place ≠ k := by
          rintro rfl
          exact hnothing b hk
        exact ⟨k, (hholds k b).mpr (by rwa [if_neg hne])⟩
    · rintro ⟨k, hk⟩
      rw [hholds] at hk
      split at hk
      · exact .inl (Option.some.inj hk).symm
      · exact .inr ⟨k, hk⟩
  unique i j b hi hj := by
    refine unique_of_moves (g := fun b => b) (fun i j b b' hi hj heq => ?_) (fun k b hk => ?_)
      hholds hi hj rfl
    · subst heq
      exact h.unique i j b hi hj
    · rintro rfl
      exact hfree ((h.reserved b).mpr ⟨k, hk⟩)

/-- A trigger may give its id back, or use it up. -/
theorem release (h : m.Reserves) (hheld : m.Holds place id)
    (hreserved : m'.registry.reserved = (m.registry.release id).reserved)
    (hholds : ∀ k b, m'.Holds k b ↔ place ≠ k ∧ m.Holds k b) : m'.Reserves where
  reserved b := by
    have hmem : b ∈ (m.registry.release id).reserved ↔ b ∈ m.registry.reserved ∧ b ≠ id := by
      simp [Registry.release]
    rw [hreserved, hmem, h.reserved]
    constructor
    · rintro ⟨⟨k, hk⟩, hne⟩
      refine ⟨k, (hholds k b).mpr ⟨?_, hk⟩⟩
      rintro rfl
      exact hne (hk.unique hheld)
    · rintro ⟨k, hk⟩
      obtain ⟨hne, hk⟩ := (hholds k b).mp hk
      refine ⟨⟨k, hk⟩, ?_⟩
      rintro rfl
      exact hne (h.unique place k b hheld hk)
  unique i j b hi hj := h.unique i j b ((hholds i b).mp hi).2 ((hholds j b).mp hj).2

/-- Every event keeps the reserved ids to those that triggers hold. -/
theorem step (h : m.Reserves) (hchange : m.Change m' event) : m'.Reserves := by
  cases hchange with
  | upkeep hr hgiven hstays hfresh =>
    exact h.of_same hr.reserved fun k id => shows_of_stays hstays hfresh fun _ hf => hf.1
  | @moves place op args phase phase' got hat hat' hmoves hgiven hothers =>
    generalize hr : m'.registry = r' at hmoves
    cases hmoves with
    | names | refused | started | failed | timed =>
      exact h.of_same (by rw [hr]) fun k id => shows_of_same hat hat' hothers rfl
    | reserves hid hfree =>
      refine h.reserve hfree (fun k hk => ?_) (by rw [hr]) fun k b => shows_of_moves hat' hothers
      cases hat.shows_iff.mp hk
    | @stores task r' answer hcreate =>
      have hreserved : m'.registry.reserved = (m.registry.release task.id).reserved := by
        rcases m.registry.create_cases task with ⟨e, heq⟩ | ⟨-, -, heq⟩
        all_goals
          rw [hcreate] at heq
          cases heq
          rw [hr]
      refine h.release (hat.shows_iff.mpr rfl) hreserved fun k b => shows_of_none hat' hothers ?_
      cases answer <;> rfl
    | leaves =>
      exact h.release (hat.shows_iff.mpr rfl) (by rw [hr]) fun k b => shows_of_none hat' hothers rfl

end Machine.Reserves

/-! ### Executions -/

/-- The execution that an event gives to a trigger. -/
def Event.execution? (event : Event) : Option ExecutionId := event.given?.map Prod.snd

/-- The executions that some events give to triggers, one after the other. -/
def executions (events : List Event) : List ExecutionId := events.filterMap Event.execution?

/-- What has become of the executions given so far: tasks run them, each one of its own, and triggers
have others in hand, each one of its own too. -/
structure Machine.Spends (m : Machine) (past : List ExecutionId) : Prop where
  stored : ∀ e, e ∉ past → m.registry.Unused e
  own : m.registry.Separate
  inHand : ∀ place e, m.InHand place e → e ∈ past ∧ m.registry.Unused e
  unique : ∀ i j e, m.InHand i e → m.InHand j e → i = j

namespace Machine.Spends

variable {past : List ExecutionId} {place : Nat}

theorem of_same (h : m.Spends past) (hr : m.registry.NoneNew m'.registry)
    (hinHand : ∀ k e, m'.InHand k e → m.InHand k e) : m'.Spends past where
  stored e he := (h.stored e he).of_noneNew hr
  own := h.own.of_noneNew hr
  inHand k e hk := by
    obtain ⟨hpast, hunused⟩ := h.inHand k e (hinHand k e hk)
    exact ⟨hpast, hunused.of_noneNew hr⟩
  unique i j e hi hj := h.unique i j e (hinHand i e hi) (hinHand j e hj)

/-- The engine may give a new execution to a trigger. -/
theorem give (h : m.Spends past) {execution : ExecutionId} (hnew : execution ∉ past)
    (hr : m'.registry = m.registry)
    (hinHand : ∀ k e, m'.InHand k e ↔ if place = k then some execution = some e else m.InHand k e) :
    m'.Spends (past ++ [execution]) where
  stored e he := by
    rw [hr]
    exact h.stored e fun hpast => he (List.mem_append_left _ hpast)
  own := by
    rw [hr]
    exact h.own
  inHand k e hk := by
    rw [hr]
    rw [hinHand] at hk
    split at hk
    · cases hk
      exact ⟨by simp, h.stored execution hnew⟩
    · obtain ⟨hpast, hunused⟩ := h.inHand k e hk
      exact ⟨List.mem_append_left _ hpast, hunused⟩
  unique i j e hi hj := by
    refine unique_of_moves (g := fun e => e) (fun i j e e' hi hj heq => ?_) (fun k e hk => ?_)
      hinHand hi hj rfl
    · subst heq
      exact h.unique i j e hi hj
    · rintro rfl
      exact hnew (h.inHand k e hk).1

/-- A trigger may store the execution that it has in hand. -/
theorem store (h : m.Spends past) {task : Task} (hhand : m.InHand place task.execution)
    (hr : m'.registry = (m.registry.create task).1)
    (hinHand : ∀ k e, m'.InHand k e ↔ place ≠ k ∧ m.InHand k e) : m'.Spends past := by
  obtain ⟨hpast, hunused⟩ := h.inHand place task.execution hhand
  constructor
  case stored =>
    intro e he
    rw [hr]
    refine (h.stored e he).create ?_
    rintro rfl
    exact he hpast
  case own =>
    rw [hr]
    exact h.own.create hunused
  case inHand =>
    intro k e hk
    obtain ⟨hne, hk⟩ := (hinHand k e).mp hk
    obtain ⟨hpast, hunused⟩ := h.inHand k e hk
    rw [hr]
    refine ⟨hpast, hunused.create ?_⟩
    rintro rfl
    exact hne (h.unique place k _ hhand hk)
  case unique =>
    exact fun i j e hi hj => h.unique i j e ((hinHand i e).mp hi).2 ((hinHand j e).mp hj).2

/-- Every event that gives no execution twice keeps executions apart. -/
theorem step (h : m.Spends past) (hchange : m.Change m' event)
    (hnew : ∀ e, event.execution? = some e → e ∉ past) :
    m'.Spends (past ++ event.execution?.toList) := by
  cases hchange with
  | upkeep hr hgiven hstays hfresh =>
    rw [Event.execution?, hgiven, Option.map_none, Option.toList_none, List.append_nil]
    exact h.of_same hr.noneNew fun k e => (shows_of_stays hstays hfresh fun _ hf => hf.2.1).mp
  | @moves place op args phase phase' got hat hat' hmoves hgiven hothers =>
    have hexecution : event.execution? = got := by
      rw [Event.execution?, hgiven, Option.map_map]
      exact Option.map_id'
    rw [hexecution] at hnew ⊢
    generalize hr : m'.registry = r' at hmoves
    -- A move that gives no execution to the trigger and stores no task.
    have hquiet (hcells : r'.cells = m.registry.cells)
        (hinHand : ∀ k e, m'.InHand k e → m.InHand k e) :
        m'.Spends (past ++ (none : Option ExecutionId).toList) := by
      rw [Option.toList_none, List.append_nil]
      exact h.of_same (.of_cells (by rw [hr, hcells])) hinHand
    cases hmoves with
    | names | reserves | refused | failed | timed | leaves =>
      exact hquiet rfl fun k e => (shows_of_same hat hat' hothers rfl).mp
    | started execution =>
      exact h.give (hnew execution rfl) hr fun k e => shows_of_moves hat' hothers
    | @stores task r' answer hcreate =>
      rw [Option.toList_none, List.append_nil]
      have hr' : m'.registry = (m.registry.create task).1 := by rw [hr, hcreate]
      refine h.store (hat.shows_iff.mpr rfl) hr' fun k e => shows_of_none hat' hothers ?_
      cases answer <;> rfl

end Machine.Spends

end Tracker

end SchemaQuery
