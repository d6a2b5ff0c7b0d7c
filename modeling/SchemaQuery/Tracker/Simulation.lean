import SchemaQuery.Execution.Memory
import SchemaQuery.Tracker.Machine
import SchemaQuery.Tracker.Reaper

/-!
A tracker on virtual time, over an engine in memory whose calls take as long as a script says. Calls
that run together move in their order, each as far as it can. When every one has to wait, for the engine
or for a locked task, time jumps to the next moment at which something happens. Tasks are locked first
come, first served. A call of the engine that takes longer than its limit fails at the limit, and never
reaches the engine; one that is ready in time counts, also at the very limit.

Ages of tasks are read off a clock of their own, which stands still.
-/

namespace SchemaQuery.Tracker

/-- The engine in memory as a script bends it. -/
structure ScriptedEngine where
  memory : MemoryEngine
  /-- Whether the states of executions cannot be asked for. -/
  outage : Bool
  /-- The execution that every start gives, in place of a new one. -/
  forced : Option ExecutionId
  /-- How many milliseconds a start takes. -/
  startDelay : Nat
  /-- How many milliseconds it takes to ask for a state. -/
  stateDelay : Nat
  /-- How many milliseconds it takes to fetch a result. -/
  fetchDelay : Nat

namespace ScriptedEngine

/-- The engine before its first start, without delays. -/
def empty : ScriptedEngine := ⟨.empty, false, none, 0, 0, 0⟩

/-- Starts a query. -/
def start (e : ScriptedEngine) (q : CompiledQuery) : ScriptedEngine × Except Error ExecutionId :=
  match e.forced with
  | some id => (e, .ok id)
  | none =>
    let (memory, answer) := e.memory.start q
    ({ e with memory := memory }, answer)

/-- The state of an execution. -/
def state (e : ScriptedEngine) (id : ExecutionId) : Except Error ExecutionState :=
  if e.outage then .error (.engine (.other "status endpoint unavailable")) else e.memory.state id

/-- Fetches a result. -/
def fetch (e : ScriptedEngine) (id : ExecutionId) :
    ScriptedEngine × Except Error (List Record) :=
  let (memory, answer) := e.memory.fetch id
  ({ e with memory := memory }, answer)

end ScriptedEngine

/-! ### Waiting -/

/-- When a call of the engine ends, and whether by its limit. -/
structure Due where
  time : Nat
  timesOut : Bool

/-- A call of the engine that begins at a time: how it ends that takes `delay` under a limit. -/
def Due.of (now delay limit : Nat) : Due :=
  if limit < delay then ⟨now + limit, true⟩ else ⟨now + delay, false⟩

/-- The answer of a call that took `delay` milliseconds under a limit. -/
def withinLimit {α : Type} (limit : Span) (delay : Nat) (answer : Except Error α) : Except Error α :=
  if (Due.of 0 delay (limit.toNanos / 1000000)).timesOut then .error (.timeout limit) else answer

/-- Where a call in progress stands. -/
inductive Stage (α : Type) where
  | ended (value : α)
  /-- The next request has to wait for a locked task. -/
  | blocked (request : Request) (next : request.Answer → Call α)
  /-- The next request is being answered by the engine. -/
  | asking (request : Request) (next : request.Answer → Call α) (due : Due)
  /-- The result of a task is being fetched. -/
  | fetching (task : Task) (id : TaskId) (next : Except Error Task → Call α) (due : Due)

/-- When a call goes on that waits for the engine. -/
def Stage.due? {α : Type} : Stage α → Option Nat
  | .asking _ _ due => some due.time
  | .fetching _ _ _ due => some due.time
  | _ => none

/-- A reaper on virtual time. -/
structure TimedReaper where
  /-- The time between two ticks in milliseconds. -/
  interval : Nat
  /-- Where the reaper stands. -/
  loop : Reaper.State
  /-- When the next tick comes. The timer is set when the reaper runs for the first time. -/
  timer : Option Nat
  /-- Whether a tick is taken up before a shutdown when both have come. -/
  tickFirst : Bool
  /-- Where the work of the last tick stands. -/
  work : Stage Unit

namespace TimedReaper

/-- A reaper that has not run yet. -/
def spawn (interval : Nat) : TimedReaper := ⟨interval, .fresh, none, false, .ended ()⟩

/-- When a reaper goes on. -/
def due? (r : TimedReaper) : Option Nat :=
  match r.loop.phase with
  | .waiting => if r.loop.cancelled then none else r.timer
  | .sweeping => r.work.due?
  | .stopped => none

/-- A reaper at a time, with the ticks that have come until then. -/
def ticked (r : TimedReaper) (now : Nat) : TimedReaper :=
  match r.timer with
  | none => r
  | some timer =>
    let count := if timer ≤ now then (now - timer) / r.interval + 1 else 0
    { r with
      timer := some (timer + count * r.interval)
      loop := { r.loop with pending := r.loop.pending + count } }

/-- A reaper that is shut down at a time. -/
def shutDown (r : TimedReaper) (now : Nat) : TimedReaper :=
  let r := r.ticked now
  { r with loop := { r.loop with cancelled := true } }

/-- A reaper to which something happens, if it can. -/
def on? (r : TimedReaper) (event : Reaper.Event) : Option TimedReaper :=
  (r.loop.step? event).map fun loop => { r with loop := loop }

/-- What a waiting reaper takes up. When both a tick and a shutdown have come, they take turns at going
first: the shutdown does before the first sweep, the tick after it, and so on. -/
def choice? (r : TimedReaper) : Option Reaper.Event :=
  if r.loop.cancelled ∧ (r.loop.pending = 0 ∨ !r.tickFirst) then some .stop
  else if 0 < r.loop.pending then some .beginSweep
  else none

/-- A reaper whose work stands at a stage; the sweep ends with it. -/
def atWork? (r : TimedReaper) (work : Stage Unit) : Option TimedReaper :=
  let r := { r with work := work }
  match work with
  | .ended _ => r.on? .endSweep
  | _ => some r

end TimedReaper

/-- Who waits for a task. -/
inductive Party where
  | child (place : Nat)
  | reaper (place : Nat)
deriving DecidableEq, Repr

/-- A tracker on virtual time. -/
structure Simulation where
  tracker : Tracker
  registry : Registry
  engine : ScriptedEngine
  /-- Virtual time in milliseconds. -/
  time : Nat
  /-- What the clock shows. -/
  wall : Instant
  /-- How many ids were made. -/
  made : Nat
  /-- The tasks that are locked. -/
  locked : List TaskId
  /-- Who waits for locked tasks, in the order in which they came. -/
  queue : List (TaskId × Party)
  reapers : List TimedReaper
  /-- Whether somebody holds the last of the reapers. -/
  held : Bool

namespace Simulation

/-- A tracker before its first call. -/
def begin (tracker : Tracker) : Simulation :=
  ⟨tracker, ∅, .empty, 0, default, 0, [], [], [], false⟩

/-- The `n`th id that is made. No text that a person writes begins like it. -/
def madeId (n : Nat) : TaskId := ⟨"\x00gen-" ++ String.ofList (Decimal.digits n)⟩

/-- The limit of calls of the engine in milliseconds. -/
def limit (s : Simulation) : Nat := 1000 * s.tracker.config.engineTimeoutSecs.toNat

/-- How a call of the engine ends that begins now and takes `delay`. -/
def dueAfter (s : Simulation) (delay : Nat) : Due := .of s.time delay s.limit

/-- The error of a call of the engine that reaches its limit. -/
def timeoutError (s : Simulation) : Error := .timeout s.tracker.config.engineTimeout

/-- Whether a party may use a task now: it is not locked, and nobody came before. -/
def mayEnter (s : Simulation) (party : Party) (id : TaskId) : Bool :=
  !s.locked.contains id && (s.queue.find? (·.1 = id)).all (·.2 = party)

/-- Puts a party into the queue for a task. -/
def enqueue (s : Simulation) (party : Party) (id : TaskId) : Simulation :=
  if s.queue.contains (id, party) then s else { s with queue := s.queue ++ [(id, party)] }

/-- Takes a party out of the queue for a task. -/
def dequeue (s : Simulation) (party : Party) (id : TaskId) : Simulation :=
  { s with queue := s.queue.filter (· ≠ (id, party)) }

/-- What a request finds outside the registry now. -/
def around (s : Simulation) : Surroundings where
  now := s.wall
  newId := madeId (s.made + 1)
  order := id
  start := fun q => (s.engine.start q).2
  state := s.engine.state
  fetch := fun x => (s.engine.fetch x).2

/-- Answers a request at once. -/
def answer (s : Simulation) (request : Request) : Simulation × request.Answer :=
  let (registry, answer) := s.tracker.serve s.around s.registry request
  let engine := match request with
    | .start q => (s.engine.start q).1
    | .converge id report =>
      match s.registry.judge id report with
      | .fetches task => (s.engine.fetch task.execution).1
      | _ => s.engine
    | _ => s.engine
  let made := match request with
    | .newId => s.made + 1
    | _ => s.made
  ({ s with registry := registry, engine := engine, made := made }, answer)

/-- The task that a request has to find unlocked. -/
def needs? : Request → Option TaskId
  | .cell id => some id
  | .observe id => some id
  | .converge id _ => some id
  | _ => none

/-- Lets a call go on as far as it can. -/
def proceed {α : Type} (s : Simulation) (party : Party) : Call α → Simulation × Stage α
  | .done a => (s, .ended a)
  | .ask request next =>
    if (needs? request).any fun id => !s.mayEnter party id then
      (match needs? request with
        | some id => s.enqueue party id
        | none => s, .blocked request next)
    else
      let s := match needs? request with
        | some id => s.dequeue party id
        | none => s
      let goOn := fun (_ : Unit) =>
        let (s, answer) := s.answer request
        s.proceed party (next answer)
      match request, next, goOn with
      | .start q, next, goOn =>
        let due := s.dueAfter s.engine.startDelay
        if due.time ≤ s.time ∧ !due.timesOut then goOn () else (s, .asking (.start q) next due)
      | .state x, next, goOn =>
        let due := s.dueAfter s.engine.stateDelay
        if due.time ≤ s.time ∧ !due.timesOut then goOn () else (s, .asking (.state x) next due)
      | .converge id report, next, goOn =>
        match s.registry.judge id report with
        | .fetches task =>
          let due := s.dueAfter s.engine.fetchDelay
          if due.time ≤ s.time ∧ !due.timesOut then goOn ()
          else ({ s with locked := id :: s.locked }, .fetching task id next due)
        | _ => goOn ()
      | _, _, goOn => goOn ()

/-- Lets a call go on that had to wait, if it need not wait any more. -/
def resume? {α : Type} (s : Simulation) (party : Party) : Stage α → Option (Simulation × Stage α)
  | .ended _ => none
  | .blocked request next =>
    if (needs? request).all fun id => s.mayEnter party id then
      some (s.proceed party (.ask request next))
    else none
  | .asking (.start q) next due =>
    if due.time ≤ s.time then
      if due.timesOut then some (s.proceed party (next (.error s.timeoutError)))
      else
        let (s, answer) := s.answer (.start q)
        some (s.proceed party (next answer))
    else none
  | .asking (.state x) next due =>
    if due.time ≤ s.time then
      if due.timesOut then some (s.proceed party (next (.error s.timeoutError)))
      else some (s.proceed party (next (s.engine.state x)))
    else none
  | .asking _ _ _ => none
  | .fetching task id next due =>
    if due.time ≤ s.time then
      let (engine, answer) :=
        if due.timesOut then (s.engine, .error s.timeoutError) else s.engine.fetch task.execution
      let (registry, answer) :=
        s.registry.settleAnswer id s.wall (s.tracker.outcomeOfFetch task.field answer)
      let s := { s with
        engine := engine, registry := registry, locked := s.locked.filter (· ≠ id) }
      some (s.proceed party (next answer))
    else none

/-! ### Reapers -/

/-- The work of a reaper at one tick. -/
def work (t : Tracker) : Call Unit := do
  let _ ← t.sweepExpired
  let _ ← Tracker.collectGarbage

/-- Lets a reaper go on, if it need not wait. One without an interval never runs. -/
def reap? (s : Simulation) (place : Nat) (r : TimedReaper) : Option (Simulation × TimedReaper) :=
  match r.loop.phase, r.timer with
  | .stopped, _ => none
  | .sweeping, _ => do
    let (s, work) ← s.resume? (.reaper place) r.work
    return (s, ← r.atWork? work)
  | .waiting, none => if r.interval = 0 then none else some (s, { r with timer := some s.time })
  | .waiting, some _ => do
    let r := r.ticked s.time
    let event ← r.choice?
    let r ← r.on? event
    if event = .beginSweep then
      let (s, stage) := s.proceed (.reaper place) (work s.tracker)
      return (s, ← { r with tickFirst := !r.tickFirst }.atWork? stage)
    else return (s, r)

/-- Lets every reaper from a place on go on, if it need not wait, and tells whether any did. -/
def reapFrom (s : Simulation) (place : Nat) : List TimedReaper → Simulation × List TimedReaper × Bool
  | [] => (s, [], false)
  | r :: rs =>
    match s.reap? place r with
    | some (s, r) =>
      let (s, rs, _) := s.reapFrom (place + 1) rs
      (s, r :: rs, true)
    | none =>
      let (s, rs, moved) := s.reapFrom (place + 1) rs
      (s, r :: rs, moved)

/-- Lets every reaper go on, if it need not wait, and tells whether any did. -/
def reap (s : Simulation) : Simulation × Bool :=
  let (s, reapers, moved) := s.reapFrom 0 s.reapers
  ({ s with reapers := reapers }, moved)

/-- Shuts down the last of the reapers. -/
def cancelReaper (s : Simulation) : Simulation :=
  { s with reapers := match s.reapers.reverse with
      | [] => []
      | r :: rs => (r.shutDown s.time :: rs).reverse }

/-- Starts a reaper; the one that was held before is let go. -/
def startReaper (s : Simulation) (interval : Nat) : Simulation :=
  let s := if s.held then s.cancelReaper else s
  { s with reapers := s.reapers ++ [.spawn interval], held := true }

/-- Whether the reaper that is held was shut down; nothing if none is held. -/
def reaperCancelled? (s : Simulation) : Option Bool :=
  if s.held then s.reapers.getLast?.map (·.loop.cancelled) else none

/-- Lets go of the reaper that is held, which shuts it down. -/
def dropReaper (s : Simulation) : Simulation := { s.cancelReaper with held := false }

/-! ### Steps -/

/-- A step of a script. -/
inductive Step (α : Type) where
  /-- A call of the tracker. -/
  | job (job : Job) (finish : job.Result → α)
  /-- Something that is done at once. -/
  | act (run : Simulation → Simulation × α)
  /-- Time passes. -/
  | sleep (millis : Nat) (value : α)

/-- A step that is under way. -/
inductive Child (α : Type) where
  | fresh (step : Step α)
  | running (job : Job) (stage : Stage job.Result) (finish : job.Result → α)
  | sleeping (wake : Nat) (value : α)
  | ended (value : α)

namespace Child

variable {α : Type}

/-- What a step ended with. -/
def value? : Child α → Option α
  | .ended a => some a
  | _ => none

/-- When a step goes on. -/
def due? : Child α → Option Nat
  | .running _ stage _ => stage.due?
  | .sleeping wake _ => some wake
  | _ => none

/-- A call that stands at a stage. -/
def ofStage (job : Job) (stage : Stage job.Result) (finish : job.Result → α) : Child α :=
  match stage with
  | .ended a => .ended (finish a)
  | stage => .running job stage finish

/-- Lets a step go on, if it need not wait. -/
def move? (s : Simulation) (place : Nat) : Child α → Option (Simulation × Child α)
  | .fresh (.job job finish) =>
    let (s, stage) := s.proceed (.child place) (job.call s.tracker)
    some (s, ofStage job stage finish)
  | .fresh (.act run) =>
    let (s, a) := run s
    some (s, .ended a)
  | .fresh (.sleep millis a) =>
    some (s, if millis = 0 then .ended a else .sleeping (s.time + millis) a)
  | .running job stage finish =>
    (s.resume? (.child place) stage).map fun (s, stage) => (s, ofStage job stage finish)
  | .sleeping wake a => if wake ≤ s.time then some (s, .ended a) else none
  | .ended _ => none

end Child

/-- Lets every step from a place on go on, if it need not wait, and tells whether any did. -/
def moveFrom {α : Type} (s : Simulation) (place : Nat) :
    List (Child α) → Simulation × List (Child α) × Bool
  | [] => (s, [], false)
  | c :: cs =>
    match c.move? s place with
    | some (s, c) =>
      let (s, cs, _) := s.moveFrom (place + 1) cs
      (s, c :: cs, true)
    | none =>
      let (s, cs, moved) := s.moveFrom (place + 1) cs
      (s, c :: cs, moved)

/-- The next moment at which something happens. -/
def nextDue? {α : Type} (s : Simulation) (children : List (Child α)) : Option Nat :=
  (children.filterMap Child.due? ++ s.reapers.filterMap TimedReaper.due?).min?

/-- Runs steps together for at most `fuel` turns: the steps in their order, then the reapers, and when
nothing can go on, time jumps. -/
def runChildren {α : Type} : Nat → Simulation → List (Child α) → Simulation × List (Child α)
  | 0, s, children => (s, children)
  | fuel + 1, s, children =>
    let (s, children, moved) := s.moveFrom 0 children
    if children.all fun c => c.value?.isSome then (s, children)
    else
      let (s, reaped) := s.reap
      if moved || reaped then runChildren fuel s children
      else match s.nextDue? children with
        | some time => runChildren fuel { s with time := time } children
        | none => (s, children)

/-- How many turns a script may take; far more than any that somebody writes. -/
def turns : Nat := 1000000000000

/-- Runs steps together to their ends. -/
def perform {α : Type} (s : Simulation) (steps : List (Step α)) : Simulation × List (Option α) :=
  let (s, children) := runChildren turns s (steps.map .fresh)
  (s, children.map Child.value?)

end Simulation

end SchemaQuery.Tracker
