import SchemaQuery.Proofs.Tracker.Machine

/-!
What is true of a machine whatever has happened to it. The parts of its registry agree, a locked task is
stored as it was when it was locked and still runs, no task is locked twice, and each call ensures what
its job is to end with. One event keeps all of this, so every run does.
-/

namespace SchemaQuery

namespace Tracker

/-! ### Locks -/

/-- The task that the call at a place has locked. -/
def Machine.lockedAt (m : Machine) (place : Nat) : Option TaskId :=
  m.threads[place]?.bind Thread.locked?

theorem Machine.isLocked_iff {m : Machine} {id : TaskId} :
    m.isLocked id = true ↔ ∃ place, m.lockedAt place = some id := by
  simp only [isLocked, List.any_eq_true, decide_eq_true_eq, lockedAt, Option.bind_eq_some_iff]
  constructor
  · rintro ⟨th, hth, hlocked⟩
    obtain ⟨place, hplace⟩ := List.mem_iff_getElem?.mp hth
    exact ⟨place, th, hplace, hlocked⟩
  · rintro ⟨place, th, hplace, hlocked⟩
    exact ⟨th, List.mem_of_getElem? hplace, hlocked⟩

@[simp] theorem Thread.locked?_start (t : Tracker) (job : Job) : (Thread.start t job).locked? = none :=
  rfl

/-- What calls that begin have locked: nothing. -/
theorem lockedAt_append (t : Tracker) (m : Machine) (jobs : List Job) (place : Nat) :
    Machine.lockedAt { m with threads := m.threads ++ jobs.map (Thread.start t) } place =
      m.lockedAt place := by
  unfold Machine.lockedAt
  by_cases h : place < m.threads.length
  · rw [List.getElem?_append_left h]
  · rw [List.getElem?_append_right (by omega), List.getElem?_eq_none (l := m.threads) (by omega),
      List.getElem?_map]
    cases jobs[place - m.threads.length]? <;> rfl

theorem lockedAt_set {m : Machine} {place : Nat} {job : Job} {p p' : Progress job.Result}
    (h : m.threads[place]? = some ⟨job, p⟩) (r : Registry) (k : Nat) :
    Machine.lockedAt ⟨r, m.threads.set place ⟨job, p'⟩⟩ k =
      if place = k then Thread.locked? ⟨job, p'⟩ else m.lockedAt k := by
  unfold Machine.lockedAt
  rw [List.getElem?_set]
  split
  · next hk =>
    obtain ⟨hlt, -⟩ := List.getElem?_eq_some_iff.mp h
    rw [if_pos (by omega)]
    rfl
  · rfl

/-! ### The invariant -/

/-- However others change the registry, a call goes on to end with a value of which `Q` holds. -/
def Progress.Ensures {α : Type} (Q : Registry → α → Prop) : Progress α → Registry → Prop
  | .at c, r => c.Ensures Q r
  | .fetching _ id next, r => ∀ r', r.Evolves r' → r'.Consistent → (next (r'.known id)).Ensures Q r'

/-- What is true of a machine whatever has happened to it. -/
structure Machine.Sound (m : Machine) : Prop where
  /-- The parts of the registry agree. -/
  consistent : m.registry.Consistent
  /-- A locked task is what it was when it was locked, and still runs. -/
  locked : ∀ (place : Nat) (job : Job) task id next,
    m.threads[place]? = some ⟨job, .fetching task id next⟩ →
      m.registry.task? id = some task ∧ task.isFinished = false
  /-- No two calls have locked one task. -/
  unique : ∀ i j id, m.lockedAt i = some id → m.lockedAt j = some id → i = j
  /-- Every call ends with what is stored of a task that has ended. -/
  ensures : ∀ (place : Nat) (job : Job) (p : Progress job.Result), m.threads[place]? = some ⟨job, p⟩ →
    p.Ensures (fun r result => job.Holds r result) m.registry

theorem mem_of_append {t : Tracker} {threads : List Thread} {jobs : List Job} {place : Nat}
    {th : Thread} (h : (threads ++ jobs.map (Thread.start t))[place]? = some th) :
    threads[place]? = some th ∨ ∃ job, th = Thread.start t job := by
  rw [List.getElem?_append] at h
  split at h
  · exact .inl h
  · rw [List.getElem?_map, Option.map_eq_some_iff] at h
    obtain ⟨job, -, rfl⟩ := h
    exact .inr ⟨job, rfl⟩

theorem eq_of_set {threads : List Thread} {place k : Nat} {th th' : Thread}
    (h : (threads.set place th')[k]? = some th) :
    (place = k ∧ th = th') ∨ place ≠ k ∧ threads[k]? = some th := by
  rw [List.getElem?_set] at h
  split at h
  · next hk =>
    split at h
    · cases h; exact .inl ⟨hk, rfl⟩
    · cases h
  · next hk => exact .inr ⟨hk, h⟩

theorem Progress.Ensures.of_evolves {α : Type} {Q : Registry → α → Prop} (hQ : Registry.Lasting Q)
    {p : Progress α} {r r' : Registry} (h : p.Ensures Q r) (hevolves : r.Evolves r') :
    p.Ensures Q r' := by
  cases p with
  | «at» c => exact Call.Ensures.of_evolves hQ h hevolves
  | fetching task id next =>
    exact fun r'' hevolves' hconsistent => h r'' (hevolves.trans hevolves') hconsistent

theorem Moves.ensures {α : Type} {Q : Registry → α → Prop} {t : Tracker} {isLocked : TaskId → Bool}
    {r r' : Registry} {p p' : Progress α} (h : Moves t isLocked r p r' p') (hr : r.Consistent)
    (hp : p.Ensures Q r) : p'.Ensures Q r' := by
  have hevolves := h.evolves
  have hconsistent := h.consistent hr
  cases h with
  | answered hserves hlocked => exact hp r' _ hevolves hconsistent hserves.allows
  | locks hfree htask hrunning => exact fun r' hevolves' hconsistent' => hp r' _ hevolves' hconsistent' rfl
  | unlocks now answer => exact hp _ hevolves hconsistent

theorem Moves.free {job : Job} {t : Tracker} {isLocked : TaskId → Bool} {r r' : Registry}
    {p p' : Progress job.Result} (h : Moves t isLocked r p r' p') {id : TaskId}
    (hp' : Thread.locked? ⟨job, p'⟩ = some id) : isLocked id = false := by
  cases h with
  | answered hserves hlocked => cases hp'
  | locks hfree htask hrunning => cases hp'; exact hfree
  | unlocks now answer => cases hp'

/-- A move of one call leaves a task as it is that another call has locked. -/
theorem Machine.Sound.task?_of_moves {m : Machine} (h : m.Sound) {t : Tracker} {place k : Nat}
    {job : Job} {p p' : Progress job.Result} {r' : Registry}
    (hplace : m.threads[place]? = some ⟨job, p⟩) (hmoves : Moves t m.isLocked m.registry p r' p')
    (hne : place ≠ k) {id : TaskId} (hlocked : m.lockedAt k = some id) {task : Task}
    (htask : m.registry.task? id = some task) : r'.task? id = some task := by
  cases hmoves with
  | answered hserves hkeeps => exact hkeeps id task (isLocked_iff.mpr ⟨k, hlocked⟩) htask
  | locks hfree htask' hrunning => exact htask
  | @unlocks task' id' next now answer =>
    have hlocked' : m.lockedAt place = some id' := by rw [lockedAt, hplace]; rfl
    have hid : id' ≠ id := by
      rintro rfl
      exact hne (h.unique place k id' hlocked' hlocked)
    rw [Registry.task?_settle, if_neg hid, htask]

theorem sound_of_consistent {r : Registry} (h : r.Consistent) : Machine.Sound ⟨r, []⟩ where
  consistent := h
  locked _ _ _ _ _ h := nomatch h
  unique _ _ _ h := nomatch h
  ensures _ _ _ h := nomatch h

theorem Machine.Sound.append {m : Machine} (h : m.Sound) (t : Tracker) (jobs : List Job) :
    Machine.Sound { m with threads := m.threads ++ jobs.map (Thread.start t) } where
  consistent := h.consistent
  locked place job task id next hplace := by
    rcases mem_of_append hplace with hplace | ⟨job', hjob⟩
    · exact h.locked place job task id next hplace
    · cases hjob
  unique i j id hi hj := by
    rw [lockedAt_append] at hi hj
    exact h.unique i j id hi hj
  ensures place job p hplace := by
    rcases mem_of_append hplace with hplace | ⟨job', hjob⟩
    · exact h.ensures place job p hplace
    · cases hjob
      exact job.ensures_holds t m.registry

theorem Machine.Sound.set {m : Machine} (h : m.Sound) {t : Tracker} {place : Nat} {job : Job}
    {p p' : Progress job.Result} {r' : Registry} (hplace : m.threads[place]? = some ⟨job, p⟩)
    (hmoves : Moves t m.isLocked m.registry p r' p') :
    Machine.Sound ⟨r', m.threads.set place ⟨job, p'⟩⟩ where
  consistent := hmoves.consistent h.consistent
  locked k job' task id next hk := by
    rcases eq_of_set hk with ⟨rfl, heq⟩ | ⟨hne, hk⟩
    · cases heq
      cases hmoves with
      | locks hfree htask hrunning => exact ⟨htask, hrunning⟩
    · obtain ⟨htask, hrunning⟩ := h.locked k job' task id next hk
      have hlocked : m.lockedAt k = some id := by rw [lockedAt, hk]; rfl
      exact ⟨h.task?_of_moves hplace hmoves hne hlocked htask, hrunning⟩
  unique i j id hi hj := by
    rw [lockedAt_set hplace] at hi hj
    split at hi
    · next hplacei =>
      split at hj
      · next hplacej => omega
      · -- What was just locked was free, so nobody else has locked it.
        have hlocked := isLocked_iff.mpr ⟨j, hj⟩
        rw [hmoves.free hi] at hlocked
        cases hlocked
    · split at hj
      · have hlocked := isLocked_iff.mpr ⟨i, hi⟩
        rw [hmoves.free hj] at hlocked
        cases hlocked
      · exact h.unique i j id hi hj
  ensures k job' q hk := by
    rcases eq_of_set hk with ⟨rfl, heq⟩ | ⟨-, hk⟩
    · cases heq
      exact hmoves.ensures h.consistent (h.ensures place job p hplace)
    · exact (h.ensures k job' q hk).of_evolves job'.lasting_holds hmoves.evolves

/-- Every event keeps a machine sound. -/
theorem Machine.Sound.step {m m' : Machine} (h : m.Sound) {t : Tracker} {event : Event}
    (hstep : m.step? t event = some m') : m'.Sound := by
  rcases step?_cases hstep with ⟨jobs, rfl⟩ | ⟨place, job, p, p', r', hplace, hmoves, rfl⟩
  · exact h.append t jobs
  · exact h.set hplace hmoves

/-- Every event leads to a later registry. -/
theorem step?_evolves {t : Tracker} {m m' : Machine} {event : Event}
    (h : m.step? t event = some m') : m.registry.Evolves m'.registry := by
  rcases step?_cases h with ⟨jobs, rfl⟩ | ⟨place, job, p, p', r', hplace, hmoves, rfl⟩
  · exact .refl _
  · exact hmoves.evolves

/-! ### Runs -/

@[simp] theorem run?_nil (t : Tracker) (m : Machine) : m.run? t [] = some m := rfl

@[simp] theorem run?_cons (t : Tracker) (m : Machine) (event : Event) (events : List Event) :
    m.run? t (event :: events) = (m.step? t event).bind fun m' => m'.run? t events := rfl

/-- What every event keeps every run keeps. -/
theorem run?_induction {t : Tracker} {P : Machine → Prop}
    (hstep : ∀ m m' event, P m → m.step? t event = some m' → P m') {m m' : Machine}
    {events : List Event} (hm : P m) (h : m.run? t events = some m') : P m' := by
  induction events generalizing m with
  | nil => cases h; exact hm
  | cons event events ih =>
    obtain ⟨m₁, h₁, h⟩ := Option.bind_eq_some_iff.mp h
    exact ih (hstep m m₁ event hm h₁) h

/-- Every run keeps a machine sound. -/
theorem Machine.Sound.run {m m' : Machine} (h : m.Sound) {t : Tracker} {events : List Event}
    (hrun : m.run? t events = some m') : m'.Sound :=
  run?_induction (fun _ _ _ hm hstep => hm.step hstep) h hrun

theorem run?_evolves {t : Tracker} {m m' : Machine} {events : List Event}
    (h : m.run? t events = some m') : m.registry.Evolves m'.registry :=
  run?_induction (P := fun m₁ => m.registry.Evolves m₁.registry)
    (fun _ _ _ hm hstep => hm.trans (step?_evolves hstep)) (.refl m.registry) h

end Tracker

end SchemaQuery
