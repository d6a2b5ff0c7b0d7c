import SchemaQuery.Tracker.Reaper
import SchemaQuery.Tracker.Simulation

/-!
A reaper as its history, and what is left to it after its shutdown. Ticks are not lost, so every tick is
either taken up by a sweep or still waiting. Since a waiting tick may be taken up before a shutdown that
has come as well, sweeps can begin after the shutdown: as many as there are ticks left, and no more. The
reapers on virtual time are such reapers, whatever is done to them.
-/

namespace SchemaQuery.Tracker

namespace Reaper

variable {s s' : State} {event : Event} {events h : List Event}

/-! ### Runs -/

@[simp] theorem State.run?_nil (s : State) : s.run? [] = some s := rfl

@[simp] theorem State.run?_cons (s : State) (event : Event) (events : List Event) :
    s.run? (event :: events) = (s.step? event).bind (·.run? events) := rfl

theorem State.run?_append (s : State) (events more : List Event) :
    s.run? (events ++ more) = (s.run? events).bind (·.run? more) := List.foldlM_append ..

theorem State.run?_ticks (s : State) (n : Nat) :
    s.run? (List.replicate n .tick) = some { s with pending := s.pending + n } := by
  induction n generalizing s with
  | zero => rfl
  | succ n ih =>
    rw [List.replicate_succ, State.run?_cons, State.step?, Option.bind_some, ih]
    simp only [Nat.add_assoc, Nat.add_comm 1 n]

theorem count_beginSweep_ticks (n : Nat) :
    (List.replicate n Event.tick).count .beginSweep = 0 := by
  simp [List.count_replicate]

/-! ### A reaper as its history -/

/-- A reaper stands where a history leaves it. -/
structure Follows (s : State) (h : List Event) : Prop where
  /-- Every tick was taken up or is waiting. -/
  ticks : h.count .tick = h.count .beginSweep + s.pending
  /-- There is at most one sweep at a time. -/
  sweeps : h.count .beginSweep = h.count .endSweep + if s.phase = .sweeping then 1 else 0
  stopped : s.phase = .stopped ↔ .stop ∈ h

theorem Follows.fresh : Follows State.fresh [] := ⟨rfl, rfl, by decide⟩

/-- What an event needs, and what it does. -/
theorem step_eq_some_iff : s.step? event = some s' ↔
    match event with
    | .tick => { s with pending := s.pending + 1 } = s'
    | .shutdown => { s with cancelled := true } = s'
    | .beginSweep =>
      (s.phase = .waiting ∧ 0 < s.pending) ∧ { s with phase := .sweeping, pending := s.pending - 1 } = s'
    | .endSweep => s.phase = .sweeping ∧ { s with phase := .waiting } = s'
    | .stop => (s.phase = .waiting ∧ s.cancelled) ∧ { s with phase := .stopped } = s' := by
  cases event <;> simp [State.step?]

/-- Every event keeps a reaper where its history leaves it. -/
theorem Follows.step (hs : Follows s h) (hstep : s.step? event = some s') :
    Follows s' (h ++ [event]) := by
  obtain ⟨hticks, hsweeps, hstopped⟩ := hs
  have hstep := step_eq_some_iff.mp hstep
  cases event with
  | tick =>
    subst hstep
    exact ⟨by simp [hticks, Nat.add_assoc], by simpa using hsweeps, by simpa using hstopped⟩
  | shutdown =>
    subst hstep
    exact ⟨by simpa using hticks, by simpa using hsweeps, by simpa using hstopped⟩
  | beginSweep =>
    obtain ⟨⟨hphase, hpending⟩, rfl⟩ := hstep
    rw [hphase] at hsweeps hstopped
    have htaken : h.count .tick = h.count .beginSweep + 1 + (s.pending - 1) := by omega
    exact ⟨by simpa using htaken, by simpa using hsweeps, by simpa using hstopped⟩
  | endSweep =>
    obtain ⟨hphase, rfl⟩ := hstep
    rw [hphase] at hsweeps hstopped
    exact ⟨by simpa using hticks, by simpa using hsweeps, by simpa using hstopped⟩
  | stop =>
    obtain ⟨⟨hphase, -⟩, rfl⟩ := hstep
    rw [hphase] at hsweeps
    exact ⟨by simpa using hticks, by simpa using hsweeps, by simp⟩

theorem Follows.run (hs : Follows s h) (hrun : s.run? events = some s') : Follows s' (h ++ events) := by
  induction events generalizing s h with
  | nil =>
    obtain rfl : s = s' := Option.some.inj hrun
    rwa [List.append_nil]
  | cons event events ih =>
    obtain ⟨mid, hstep, hrun⟩ := Option.bind_eq_some_iff.mp hrun
    rw [List.append_cons]
    exact ih (hs.step hstep) hrun

theorem Follows.of_run (hrun : State.fresh.run? h = some s) : Follows s h :=
  Follows.fresh.run hrun

/-! ### Sweeps after a shutdown -/

/-- After it has stopped, a reaper begins no sweep. -/
theorem count_beginSweep_of_stopped (hphase : s.phase = .stopped) (hrun : s.run? events = some s') :
    events.count .beginSweep = 0 := by
  induction events generalizing s with
  | nil => rfl
  | cons event events ih =>
    obtain ⟨mid, hstep, hrun⟩ := Option.bind_eq_some_iff.mp hrun
    obtain ⟨hmid, hne⟩ : mid.phase = .stopped ∧ event ≠ .beginSweep := by
      have hstep := step_eq_some_iff.mp hstep
      cases event with
      | tick | shutdown => exact ⟨hstep ▸ hphase, nofun⟩
      | beginSweep | endSweep | stop => simp [hphase] at hstep
    rw [List.count_cons_of_ne hne]
    exact ih hmid hrun

/-- A reaper that waits can take up every tick that is waiting, one sweep after the other. -/
theorem exists_sweeps {n : Nat} (hphase : s.phase = .waiting) (hn : n ≤ s.pending) :
    ∃ after s', s.run? after = some s' ∧ after.count .tick = 0 ∧ after.count .beginSweep = n := by
  obtain ⟨phase, pending, cancelled⟩ := s
  obtain rfl : phase = .waiting := hphase
  induction n generalizing pending with
  | zero => exact ⟨[], _, rfl, rfl, rfl⟩
  | succ n ih =>
    obtain ⟨after, s', hrun, hticks, hcount⟩ := ih (pending - 1) (Nat.le_sub_one_of_lt hn)
    refine ⟨.beginSweep :: .endSweep :: after, s', ?_, by simpa using hticks, by simpa using hcount⟩
    have hbegin : State.step? ⟨.waiting, pending, cancelled⟩ .beginSweep =
        some ⟨.sweeping, pending - 1, cancelled⟩ :=
      step_eq_some_iff.mpr ⟨⟨rfl, Nat.zero_lt_of_lt hn⟩, rfl⟩
    rw [State.run?_cons, hbegin]
    exact hrun

/-- A reaper that has not stopped can take up every tick, after the sweep that it is at. -/
theorem exists_sweeps_of_not_stopped {n : Nat} (hphase : s.phase ≠ .stopped) (hn : n ≤ s.pending) :
    ∃ after s', s.run? after = some s' ∧ after.count .tick = 0 ∧ after.count .beginSweep = n := by
  cases hs : s.phase with
  | waiting => exact exists_sweeps hs hn
  | sweeping =>
    obtain ⟨after, s', hrun, hticks, hcount⟩ := exists_sweeps (s := { s with phase := .waiting }) rfl hn
    have hend : s.step? .endSweep = some { s with phase := .waiting } := step_eq_some_iff.mpr ⟨hs, rfl⟩
    refine ⟨.endSweep :: after, s', ?_, by simpa using hticks, by simpa using hcount⟩
    rw [State.run?_cons, hend]
    exact hrun
  | stopped => exact absurd hs hphase

/-- What is left to a reaper after its shutdown. No sweeps end then but the one in progress and those that
begin then. Sweeps can begin then as long as the reaper has not stopped and there are ticks
for them: those that were waiting at the shutdown and those that still come. So none begins, whichever
of a tick and the shutdown is taken up, exactly if there are no such ticks. -/
theorem sweeps_after_shutdown {before : List Event}
    (hs : State.fresh.run? (before ++ [.shutdown]) = some s) :
    (∀ after s', s.run? after = some s' →
      after.count .endSweep ≤ after.count .beginSweep + if s.phase = .sweeping then 1 else 0) ∧
    ∀ ticks sweeps, (∃ after s', s.run? after = some s' ∧ after.count .tick = ticks ∧
        after.count .beginSweep = sweeps) ↔
      sweeps = 0 ∨ .stop ∉ before ∧
        before.count .beginSweep + sweeps ≤ before.count .tick + ticks := by
  have hfollows := Follows.of_run hs
  have hstopped : s.phase = .stopped ↔ .stop ∈ before := by simpa using hfollows.stopped
  have hpending : before.count .tick = before.count .beginSweep + s.pending := by
    simpa using hfollows.ticks
  refine ⟨fun after s' hrun => ?_, fun ticks sweeps => ⟨?_, ?_⟩⟩
  · have hbefore : before.count .beginSweep =
        before.count .endSweep + if s.phase = .sweeping then 1 else 0 := by
      simpa using hfollows.sweeps
    have hall : before.count .beginSweep + after.count .beginSweep =
        before.count .endSweep + after.count .endSweep + if s'.phase = .sweeping then 1 else 0 := by
      simpa using (hfollows.run hrun).sweeps
    omega
  · rintro ⟨after, s', hrun, rfl, rfl⟩
    by_cases hstop : .stop ∈ before
    · exact .inl (count_beginSweep_of_stopped (hstopped.mpr hstop) hrun)
    · have hall : before.count .tick + after.count .tick =
          before.count .beginSweep + after.count .beginSweep + s'.pending := by
        simpa using (hfollows.run hrun).ticks
      exact .inr ⟨hstop, by omega⟩
  · rintro (rfl | ⟨hstop, hle⟩)
    · exact ⟨_, _, s.run?_ticks ticks, List.count_replicate_self .., count_beginSweep_ticks ticks⟩
    · obtain ⟨after, s', hrun, hticks, hcount⟩ :=
        exists_sweeps_of_not_stopped (s := { s with pending := s.pending + ticks }) (n := sweeps)
          (mt hstopped.mp hstop) (show sweeps ≤ s.pending + ticks by omega)
      refine ⟨List.replicate ticks .tick ++ after, s', ?_, by simp [hticks], ?_⟩
      · rw [State.run?_append, State.run?_ticks]
        exact hrun
      · rw [List.count_append, hcount, count_beginSweep_ticks, Nat.zero_add]

/-- A reaper that is shut down during a sweep that outlasts its interval may sweep once more. -/
theorem sweeps_after_shutdown_outlasting :
    State.fresh.run? ([.tick, .beginSweep, .tick] ++ [.shutdown]) = some ⟨.sweeping, 1, true⟩ ∧
      ∃ after s', State.run? ⟨.sweeping, 1, true⟩ after = some s' ∧ after.count .tick = 0 ∧
        after.count .beginSweep = 1 := by
  have hs : State.fresh.run? ([.tick, .beginSweep, .tick] ++ [.shutdown]) =
      some ⟨.sweeping, 1, true⟩ := by decide
  exact ⟨hs, ((sweeps_after_shutdown hs).2 0 1).mpr (.inr (by decide))⟩

/-- It is not true that no sweep begins after a shutdown. -/
theorem begins_sweep_after_shutdown :
    ¬ ∀ before after s, State.fresh.run? (before ++ .shutdown :: after) = some s →
      .beginSweep ∉ after := by
  intro hnone
  have hrun : State.fresh.run? ([.tick, .beginSweep, .tick] ++ .shutdown :: [.endSweep, .beginSweep]) =
      some ⟨.sweeping, 0, true⟩ := by decide
  exact hnone _ _ _ hrun (by decide)

end Reaper

/-! ### Reapers on virtual time -/

namespace TimedReaper

variable {r r' : TimedReaper}

/-- A reaper on virtual time stands where some run leaves it. -/
def Genuine (r : TimedReaper) : Prop := ∃ events, Reaper.State.fresh.run? events = some r.loop

theorem Genuine.spawn (interval : Nat) : (TimedReaper.spawn interval).Genuine := ⟨[], rfl⟩

/-- A genuine reaper stays so as events happen. -/
theorem Genuine.run (hr : r.Genuine) (events : List Reaper.Event)
    (hrun : r.loop.run? events = some r'.loop) : r'.Genuine := by
  obtain ⟨before, hbefore⟩ := hr
  exact ⟨before ++ events, by rw [Reaper.State.run?_append, hbefore, Option.bind_some, hrun]⟩

theorem Genuine.ticked (hr : r.Genuine) (now : Nat) : (r.ticked now).Genuine := by
  rw [TimedReaper.ticked]
  split
  · exact hr
  · exact hr.run _ (Reaper.State.run?_ticks ..)

theorem Genuine.shutDown (hr : r.Genuine) (now : Nat) : (r.shutDown now).Genuine :=
  (hr.ticked now).run [.shutdown] rfl

theorem Genuine.on? {event : Reaper.Event} (hr : r.Genuine) (hon : r.on? event = some r') :
    r'.Genuine := by
  obtain ⟨loop, hstep, rfl⟩ := Option.map_eq_some_iff.mp hon
  exact hr.run [event] (by rw [Reaper.State.run?_cons, hstep]; rfl)

theorem Genuine.atWork? {work : Stage Unit} (hr : r.Genuine) (hwork : r.atWork? work = some r') :
    r'.Genuine := by
  cases work with
  | ended _ => exact Genuine.on? (r := { r with work := .ended () }) hr hwork
  | blocked _ _ | asking _ _ _ | fetching _ _ _ _ => exact Option.some.inj hwork ▸ hr

/-- However a reaper goes on, its loop does what a run does. -/
theorem Genuine.reap? {s s' : Simulation} {place : Nat} (hr : r.Genuine)
    (hreap : s.reap? place r = some (s', r')) : r'.Genuine := by
  rw [Simulation.reap?] at hreap
  split at hreap
  case h_1 => cases hreap
  case h_2 =>
    obtain ⟨⟨t, work⟩, -, hreap⟩ := Option.bind_eq_some_iff.mp hreap
    obtain ⟨r'', hwork, hreap⟩ := Option.bind_eq_some_iff.mp hreap
    cases hreap
    exact hr.atWork? hwork
  case h_3 =>
    split at hreap
    · cases hreap
    · cases hreap
      exact hr
  case h_4 =>
    obtain ⟨event, -, hreap⟩ := Option.bind_eq_some_iff.mp hreap
    obtain ⟨next, hon, hreap⟩ := Option.bind_eq_some_iff.mp hreap
    have hnext := (hr.ticked s.time).on? hon
    split at hreap
    · obtain ⟨r'', hwork, hreap⟩ := Option.bind_eq_some_iff.mp hreap
      cases hreap
      exact Genuine.atWork? (r := { next with tickFirst := !next.tickFirst }) hnext hwork
    · cases hreap
      exact hnext

end TimedReaper

namespace Simulation

variable {s : Simulation}

/-- Every reaper of a simulation is genuine. -/
def Genuine (s : Simulation) : Prop := ∀ r ∈ s.reapers, r.Genuine

theorem reapFrom_genuine {place : Nat} {rs : List TimedReaper} (hrs : ∀ r ∈ rs, r.Genuine) :
    ∀ r ∈ (s.reapFrom place rs).2.1, r.Genuine := by
  induction rs generalizing s place with
  | nil => exact hrs
  | cons r rs ih =>
    obtain ⟨hr, hrs⟩ := List.forall_mem_cons.mp hrs
    rw [reapFrom]
    cases hreap : s.reap? place r with
    | none => exact List.forall_mem_cons.mpr ⟨hr, ih hrs⟩
    | some next => exact List.forall_mem_cons.mpr ⟨hr.reap? hreap, ih hrs⟩

theorem Genuine.reap (hs : s.Genuine) : s.reap.1.Genuine := reapFrom_genuine hs

theorem Genuine.cancelReaper (hs : s.Genuine) : s.cancelReaper.Genuine := by
  have hreverse : ∀ r ∈ s.reapers.reverse, r.Genuine := fun r hr => hs r (List.mem_reverse.mp hr)
  intro r hr
  rw [Simulation.cancelReaper] at hr
  cases hlist : s.reapers.reverse with
  | nil => simp [hlist] at hr
  | cons last rs =>
    obtain ⟨hlast, hrs⟩ := List.forall_mem_cons.mp (hlist ▸ hreverse)
    simp only [hlist, List.mem_reverse] at hr
    rcases List.mem_cons.mp hr with rfl | hr
    · exact hlast.shutDown s.time
    · exact hrs r hr

theorem Genuine.dropReaper (hs : s.Genuine) : s.dropReaper.Genuine := hs.cancelReaper

theorem Genuine.startReaper (hs : s.Genuine) (interval : Nat) : (s.startReaper interval).Genuine := by
  have hlet : (if s.held then s.cancelReaper else s).Genuine := by
    split
    · exact hs.cancelReaper
    · exact hs
  exact List.forall_mem_append.mpr ⟨hlet, List.forall_mem_singleton.mpr (.spawn interval)⟩

end Simulation

end SchemaQuery.Tracker
