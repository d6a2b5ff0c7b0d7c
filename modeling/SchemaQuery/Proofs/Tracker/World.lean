import SchemaQuery.Tracker.Machine

/-!
Calls that follow one another in a world that goes on. What lies outside a registry is a world: the
clock, new ids, the order in which tasks are listed, and the engine. Each request that reaches it can
change it, so the clock may go on and the engine may answer differently from one request to the next.
Clients make their calls one after the other, but the notifications of a batch are applied together, in
turns that are given from outside as well.
-/

namespace SchemaQuery

/-! ### Worlds -/

/-- A world with states in `σ`: what a request finds there, and what it leaves. -/
structure World (σ : Type) where
  around : σ → Surroundings
  next : σ → Request → σ

namespace World

variable {σ : Type}

/-- The world that never changes. -/
def constant (around : Surroundings) : World Unit := ⟨fun _ => around, fun s _ => s⟩

/-- The execution that a request is given. -/
def given? (w : World σ) (s : σ) : Request → Option ExecutionId
  | .start query =>
    match (w.around s).start query with
    | .ok execution => some execution
    | .error _ => none
  | _ => none

/-- The executions that some requests are given, one after the other. -/
def executions (w : World σ) (s : σ) : List Request → List ExecutionId
  | [] => []
  | request :: requests => (w.given? s request).toList ++ w.executions (w.next s request) requests

/-- Whatever it is asked, the engine gives no execution twice. -/
def NeverRepeats (w : World σ) (s : σ) : Prop := ∀ requests, (w.executions s requests).Nodup

end World

/-- Whether a request reaches the world: it reads the clock, makes an id, or asks the engine. -/
def Registry.reachesWorld (r : Registry) : Request → Bool
  | .clock | .newId | .start _ | .state _ => true
  | .converge id report =>
    match r.judge id report with
    | .ends _ | .fetches _ => true
    | .missing | .unchanged _ => false
  | _ => false

/-- The world after a request is made on a registry. -/
def World.after {σ : Type} (w : World σ) (s : σ) (r : Registry) (request : Request) : σ :=
  if r.reachesWorld request then w.next s request else s

/-! ### Running in a world -/

namespace Tracker

variable {σ α β : Type} (t : Tracker) (w : World σ)

/-- Runs a call on a registry in a world. -/
def runIn (s : σ) (r : Registry) : Call α → σ × Registry × α
  | .done a => (s, r, a)
  | .ask request next =>
    let (r', answer) := t.serve (w.around s) r request
    runIn (w.after s r request) r' (next answer)

theorem runIn_ask (s : σ) (r : Registry) (request : Request) (next : request.Answer → Call α) :
    t.runIn w s r (.ask request next) =
      t.runIn w (w.after s r request) (t.serve (w.around s) r request).1
        (next (t.serve (w.around s) r request).2) :=
  rfl

/-- One call after another runs on from where the first one ended. -/
theorem runIn_bind (s : σ) (r : Registry) (c : Call α) (f : α → Call β) :
    t.runIn w s r (c >>= f) =
      t.runIn w (t.runIn w s r c).1 (t.runIn w s r c).2.1 (f (t.runIn w s r c).2.2) := by
  induction c generalizing s r with
  | done a => rfl
  | ask request next ih =>
    rw [Call.bind_ask, runIn_ask, runIn_ask]
    exact ih ..

/-- In a world that never changes, a call runs as it does in constant surroundings. -/
theorem runIn_constant (around : Surroundings) (r : Registry) (c : Call α) :
    (t.runIn (.constant around) () r c).2 = t.run around r c := by
  induction c generalizing r with
  | done a => rfl
  | ask request next ih =>
    rw [runIn_ask]
    exact ih ..

end Tracker

/-! ### Calls that take turns -/

namespace Call

variable {α : Type}

/-- Calls one after the other. -/
def inTurn : List (Call α) → Call (List α)
  | [] => .done []
  | c :: cs => do
    let a ← c
    let rest ← inTurn cs
    return a :: rest

/-- Calls together. Each turn names a call, which makes its next request; a call that has ended lets its
turn pass. After the given turns the calls go on one after the other. A request is served as a whole:
while a task is locked for the fetch of its rows, the others can do nothing with it. -/
def together : List Nat → List (Call α) → Call (List α)
  | [], cs => inTurn cs
  | k :: turns, cs =>
    match cs[k]? with
    | some (.ask request next) => .ask request fun answer => together turns (cs.set k (next answer))
    | _ => together turns cs

end Call

/-! ### Clients -/

namespace Tracker

/-- What a client does: one call, or the notifications of a batch, which take turns. -/
inductive Activity where
  | call (job : Job)
  | batch (notifications : List Notification) (turns : List Nat)

namespace Activity

/-- What an activity ends with; a batch with one result for each notification, in their order. -/
abbrev Result : Activity → Type
  | .call job => job.Result
  | .batch _ _ => List (Except Error (Option Task))

/-- The call that an activity makes. -/
def run (t : Tracker) : (a : Activity) → Call a.Result
  | .call job => job.call t
  | .batch notifications turns => Call.together turns (notifications.map push)

/-- The activity collects garbage. -/
def collects : Activity → Bool
  | .call .collect => true
  | _ => false

end Activity

/-- An activity that has ended: the registry on which it began, and its result. -/
structure Ended where
  before : Registry
  activity : Activity
  result : activity.Result

/-- Carries activities out one after the other. -/
def perform {σ : Type} (t : Tracker) (w : World σ) (s : σ) (r : Registry) :
    List Activity → σ × Registry × List Ended
  | [] => (s, r, [])
  | a :: activities =>
    let (s', r', result) := t.runIn w s r (a.run t)
    let (s'', r'', log) := perform t w s' r' activities
    (s'', r'', ⟨r, a, result⟩ :: log)

/-- The activities after the first one go on from where it ended. -/
theorem perform_cons {σ : Type} (t : Tracker) (w : World σ) {s s' : σ} {r r' : Registry} {a : Activity}
    {result : a.Result} (h : t.runIn w s r (a.run t) = (s', r', result)) (activities : List Activity) :
    t.perform w s r (a :: activities) = ((t.perform w s' r' activities).1,
      (t.perform w s' r' activities).2.1, ⟨r, a, result⟩ :: (t.perform w s' r' activities).2.2) := by
  rw [perform, h]

end Tracker

end SchemaQuery
