import SchemaQuery.Execution.Memory
import SchemaQuery.Proofs.Collection.Keyed
import SchemaQuery.Proofs.Number.Digits
import Mathlib.Data.List.Induction
import Mathlib.Data.List.Nodup

/-!
The engine in memory as its history. A history is the calls that were made and how they were answered,
and what is known of an execution is read off it: whether it was started, the last state that it was
brought to, the rows that it was completed with last, and whether its result was broken. As long as the
starts can be counted, no id is given twice, and the engine answers every call as its history says. There
may be more fetches than that: their counter is right up to multiples of its range.
-/

namespace SchemaQuery

/-! ### Ids -/

theorem Decimal.ofDigits_zeros_append (k : Nat) (ds : List Char) :
    ofDigits (zeros k ++ ds) = ofDigits ds := by
  induction k with
  | zero => rfl
  | succ k ih => exact ih

theorem Instant.ofDigits_padded (width n : Nat) : Decimal.ofDigits (padded width n) = n := by
  rw [padded, Decimal.ofDigits_zeros_append, Decimal.ofDigits_digits]

namespace MemoryEngine

theorem idOf_injective : Function.Injective idOf := by
  intro m n h
  have htext : "exec-" ++ String.ofList (Instant.padded 4 m) =
      "exec-" ++ String.ofList (Instant.padded 4 n) := congrArg ExecutionId.text h
  have hdigits := String.ofList_injective ((String.append_right_inj _).mp htext)
  rw [← Instant.ofDigits_padded 4 m, hdigits, Instant.ofDigits_padded]

/-! ### Calls and histories -/

/-- What is done by hand to an execution. -/
inductive Change where
  | complete (rows : List Record)
  | fail (reason : String)
  | cancel
  | breakResult (reason : String)

namespace Change

/-- An execution after a change. -/
def apply : Change → MemoryExecution → MemoryExecution
  | .complete rows, x => { x with state := .succeeded, rows := rows }
  | .fail reason, x => { x with state := .failed (some reason) }
  | .cancel, x => { x with state := .cancelled }
  | .breakResult reason, x => { x with broken := some reason }

/-- The state that a change brings an execution to. -/
def state? : Change → Option ExecutionState
  | .complete _ => some .succeeded
  | .fail reason => some (.failed (some reason))
  | .cancel => some .cancelled
  | .breakResult _ => none

/-- The rows that a change gives to an execution. -/
def rows? : Change → Option (List Record)
  | .complete rows => some rows
  | _ => none

/-- Why the result cannot be fetched from now on. -/
def broken? : Change → Option String
  | .breakResult reason => some reason
  | _ => none

end Change

/-- Changes an execution by hand, and tells whether there is one. -/
def change (e : MemoryEngine) (id : ExecutionId) : Change → MemoryEngine × Bool
  | .complete rows => e.complete id rows
  | .fail reason => e.fail id reason
  | .cancel => e.cancel id
  | .breakResult reason => e.breakResult id reason

/-- A call of the engine. -/
inductive Call where
  | start (q : CompiledQuery)
  | state (id : ExecutionId)
  | fetch (id : ExecutionId)
  | change (id : ExecutionId) (what : Change)
  | refuseStarts (reason : Option String)

/-- Whether a call asks for a start. -/
def Call.isStart : Call → Bool
  | .start _ => true
  | _ => false

/-- Whether a call asks for a result. -/
def Call.isFetch : Call → Bool
  | .fetch _ => true
  | _ => false

/-- What a call is answered with. -/
def Call.Answer : Call → Type
  | .start _ => Except Error ExecutionId
  | .state _ => Except Error ExecutionState
  | .fetch _ => Except Error (List Record)
  | .change _ _ => Bool
  | .refuseStarts _ => Unit

/-- Answers a call. -/
def perform (e : MemoryEngine) : (c : Call) → MemoryEngine × c.Answer
  | .start q => e.start q
  | .state id => (e, e.state id)
  | .fetch id => e.fetch id
  | .change id what => e.change id what
  | .refuseStarts reason => (e.refuseStarts reason, ())

/-- A call that was answered. -/
structure Event where
  call : Call
  answer : call.Answer

/-- One more call, with the history so far. -/
def record (s : MemoryEngine × List Event) (c : Call) : MemoryEngine × List Event :=
  ((s.1.perform c).1, s.2 ++ [⟨c, (s.1.perform c).2⟩])

/-- The engine after some calls, and its history, the oldest event first. -/
def after (calls : List Call) : MemoryEngine × List Event := calls.foldl record (empty, [])

namespace Event

/-- The id of the execution that an event started. -/
def started? : Event → Option ExecutionId
  | ⟨.start _, .ok id⟩ => some id
  | _ => none

/-- What an event did by hand to an execution, if it found it. -/
def change? (id : ExecutionId) : Event → Option Change
  | ⟨.change i what, true⟩ => if i = id then some what else none
  | _ => none

/-- The state that an event brought an execution to: running, if it started it. -/
def state? (id : ExecutionId) (event : Event) : Option ExecutionState :=
  if event.started? = some id then some .running else (event.change? id).bind Change.state?

/-- The rows that an event completed an execution with. -/
def rows? (id : ExecutionId) (event : Event) : Option (List Record) :=
  (event.change? id).bind Change.rows?

/-- Why the result of an execution cannot be fetched since an event. -/
def broken? (id : ExecutionId) (event : Event) : Option String :=
  (event.change? id).bind Change.broken?

/-- Why starts are refused since an event, or that they are accepted. -/
def refusal? : Event → Option (Option String)
  | ⟨.refuseStarts reason, _⟩ => some reason
  | _ => none

end Event

/-- The executions that were started in a history, the oldest first. -/
def startedIn (h : List Event) : List ExecutionId := h.filterMap Event.started?

/-- What the last event of a history says that says anything. -/
def last? {α : Type} (view : Event → Option α) (h : List Event) : Option α := h.reverse.findSome? view

section Views

variable {α : Type} {view : Event → Option α} {h : List Event} {event : Event}

@[simp] theorem last?_nil : last? view [] = none := rfl

@[simp] theorem last?_concat : last? view (h ++ [event]) = (view event).or (last? view h) := by
  rw [last?, last?, List.reverse_concat, List.findSome?_cons]
  cases view event <;> rfl

@[simp] theorem startedIn_concat :
    startedIn (h ++ [event]) = startedIn h ++ event.started?.toList := by
  rw [startedIn, startedIn, List.filterMap_append]
  cases hs : event.started? <;> simp [hs]

end Views

/-! ### What each call does to the executions -/

variable {e : MemoryEngine} {h : List Event}

@[simp] theorem get?_empty (id : ExecutionId) : empty.executions.get? id = none := rfl

theorem change_eq (e : MemoryEngine) (id : ExecutionId) (what : Change) :
    e.change id what = e.update id what.apply := by
  cases what <;> rfl

theorem change_snd (e : MemoryEngine) (id : ExecutionId) (what : Change) :
    (e.change id what).2 = (e.executions.get? id).isSome := by
  rw [change_eq]
  rfl

theorem get?_change (e : MemoryEngine) (id k : ExecutionId) (what : Change) :
    (e.change id what).1.executions.get? k =
      if id = k then (e.executions.get? k).map what.apply else e.executions.get? k := by
  rw [change_eq]
  exact Keyed.get?_modify ..

/-- The event of a change tells of it where it found an execution. -/
theorem change?_change (e : MemoryEngine) (id k : ExecutionId) (what : Change) :
    Event.change? k ⟨.change id what, (e.change id what).2⟩ =
      if id = k then (e.executions.get? k).map fun _ => what else none := by
  rw [change_snd]
  by_cases hk : id = k
  · subst hk
    cases e.executions.get? id <;> simp [Event.change?]
  · cases e.executions.get? id <;> simp [Event.change?, hk]

/-- An accepted start makes a running execution under the next id, and leaves all others. -/
theorem get?_start (hr : e.refusal = none) (q : CompiledQuery) (k : ExecutionId) :
    (e.start q).1.executions.get? k =
      if idOf (e.accepted + 1).toNat = k then some ⟨q.query, .running, [], none⟩
      else e.executions.get? k := by
  simp only [start, hr, Keyed.get?_add, Keyed.get?_erase]
  split <;> simp

theorem start_of_refusal {reason : String} (hr : e.refusal = some reason) (q : CompiledQuery) :
    e.start q = (e, .error (.engine (.other reason))) := by
  rw [start, hr]

namespace Change

variable (what : Change) (x : MemoryExecution)

theorem apply_state : some (what.apply x).state = what.state?.or (some x.state) := by
  cases what <;> rfl

theorem apply_rows : (what.apply x).rows = what.rows?.getD x.rows := by
  cases what <;> rfl

theorem apply_broken : (what.apply x).broken = what.broken?.or x.broken := by
  cases what <;> rfl

end Change

/-! ### The engine as its history -/

/-- An engine holds what a history tells. -/
structure Recorded (e : MemoryEngine) (h : List Event) : Prop where
  numbered : startedIn h = (List.range e.accepted.toNat).map fun n => idOf (n + 1)
  known : ∀ id, (e.executions.get? id).isSome ↔ id ∈ startedIn h
  state : ∀ id, (e.executions.get? id).map (·.state) = last? (Event.state? id) h
  rows : ∀ id, ((e.executions.get? id).map (·.rows)).getD [] = (last? (Event.rows? id) h).getD []
  broken : ∀ id, (e.executions.get? id).bind (·.broken) = last? (Event.broken? id) h
  asked : e.asked = .ofNat ((h.map Event.call).countP Call.isFetch)
  refusal : e.refusal = (last? Event.refusal? h).getD none

namespace Recorded

theorem empty : Recorded MemoryEngine.empty [] where
  numbered := rfl
  known := by simp [startedIn]
  state := by simp
  rows := by simp
  broken := by simp
  asked := rfl
  refusal := rfl

/-- An event that says nothing about executions and starts leaves what was known of them. -/
theorem of_silent {event : Event} {e' : MemoryEngine} (hrec : Recorded e h)
    (hstarted : event.started? = none) (hchange : ∀ id, event.change? id = none)
    (hsame : e'.executions = e.executions ∧ e'.accepted = e.accepted)
    (hasked : e'.asked = if event.call.isFetch then e.asked + 1 else e.asked)
    (hrefusal : e'.refusal = event.refusal?.getD e.refusal) : Recorded e' (h ++ [event]) := by
  obtain ⟨hexecutions, haccepted⟩ := hsame
  constructor
  case numbered =>
    simp [hstarted, haccepted, hrec.numbered]
  case known =>
    intro id
    simp [hstarted, hexecutions, hrec.known]
  case state =>
    intro id
    simp [Event.state?, hstarted, hchange, hexecutions, hrec.state]
  case rows =>
    intro id
    simp [Event.rows?, hchange, hexecutions, hrec.rows]
  case broken =>
    intro id
    simp [Event.broken?, hchange, hexecutions, hrec.broken]
  case asked =>
    rw [hasked, hrec.asked, List.map_append, List.countP_append, List.map_singleton,
      List.countP_singleton]
    split
    · exact (UInt64.ofNat_add ..).symm
    · rfl
  case refusal =>
    rw [hrefusal, hrec.refusal, last?_concat]
    cases event.refusal? <;> rfl

/-- An accepted start has the next id, which is that of no execution before, as long as the counter
does not wrap. -/
theorem fresh (hrec : Recorded e h) (hfew : (startedIn h).length + 1 < UInt64.size) :
    (e.accepted + 1).toNat = e.accepted.toNat + 1 ∧
      e.executions.get? (idOf (e.accepted + 1).toNat) = none := by
  have hlength : (startedIn h).length = e.accepted.toNat := by
    rw [hrec.numbered, List.length_map, List.length_range]
  have hnext : (e.accepted + 1).toNat = e.accepted.toNat + 1 := by
    rw [UInt64.toNat_add, UInt64.toNat_one]
    exact Nat.mod_eq_of_lt (hlength ▸ hfew)
  refine ⟨hnext, ?_⟩
  rw [← Option.not_isSome_iff_eq_none, hrec.known, hrec.numbered, hnext]
  intro hm
  obtain ⟨n, hn, heq⟩ := List.mem_map.mp hm
  have hn := List.mem_range.mp hn
  have heq := idOf_injective heq
  omega

theorem start (hrec : Recorded e h) (hfew : (startedIn h).length + 1 < UInt64.size) (q : CompiledQuery) :
    Recorded (e.start q).1 (h ++ [⟨.start q, (e.start q).2⟩]) := by
  cases hr : e.refusal with
  | some reason =>
    rw [start_of_refusal hr]
    exact hrec.of_silent rfl (fun _ => rfl) ⟨rfl, rfl⟩ rfl rfl
  | none =>
    obtain ⟨hnext, hfresh⟩ := hrec.fresh hfew
    have hget := get?_start hr q
    have hengine : (e.start q).1.accepted = e.accepted + 1 ∧ (e.start q).1.asked = e.asked ∧
        (e.start q).1.refusal = e.refusal := by
      simp [MemoryEngine.start, hr]
    obtain ⟨haccepted, hasked, hrefusal⟩ := hengine
    have hstarted : Event.started? ⟨.start q, (e.start q).2⟩ = some (idOf (e.accepted + 1).toNat) := by
      simp [MemoryEngine.start, hr, Event.started?]
    have hchange : ∀ k, Event.change? k ⟨.start q, (e.start q).2⟩ = none := fun _ => rfl
    generalize he : (⟨.start q, (e.start q).2⟩ : Event) = event at hstarted hchange
    generalize hid : idOf (e.accepted + 1).toNat = id at hget hfresh hstarted
    constructor
    case numbered =>
      rw [startedIn_concat, hstarted, hrec.numbered, haccepted, hnext, List.range_succ, List.map_append,
        ← hid, hnext]
      rfl
    case known =>
      intro k
      rw [startedIn_concat, hstarted, hget]
      by_cases hk : id = k
      · simp [hk]
      · simp [hk, Ne.symm hk, hrec.known]
    case state =>
      intro k
      rw [last?_concat, ← hrec.state, hget, Event.state?, hstarted, hchange]
      by_cases hk : id = k <;> simp [hk]
    case rows =>
      intro k
      rw [last?_concat, Event.rows?, hchange, Option.bind_none, Option.none_or, ← hrec.rows, hget]
      by_cases hk : id = k
      · simp [← hk, hfresh]
      · simp [hk]
    case broken =>
      intro k
      rw [last?_concat, Event.broken?, hchange, Option.bind_none, Option.none_or, ← hrec.broken, hget]
      by_cases hk : id = k
      · simp [← hk, hfresh]
      · simp [hk]
    case asked =>
      rw [hasked, hrec.asked, List.map_append, List.countP_append, ← he]
      rfl
    case refusal =>
      rw [hrefusal, hrec.refusal, last?_concat, ← he]
      rfl

theorem change (hrec : Recorded e h) (id : ExecutionId) (what : Change) :
    Recorded (e.change id what).1 (h ++ [⟨.change id what, (e.change id what).2⟩]) := by
  have hget := fun k => get?_change e id k what
  have hstarted : Event.started? ⟨.change id what, (e.change id what).2⟩ = none := rfl
  have hchange := fun k => change?_change e id k what
  generalize he : (⟨.change id what, (e.change id what).2⟩ : Event) = event at hstarted hchange
  constructor
  case numbered =>
    rw [startedIn_concat, hstarted, hrec.numbered, change_eq]
    simp [update]
  case known =>
    intro k
    rw [startedIn_concat, hstarted, hget]
    by_cases hk : id = k <;> simp [hk, hrec.known]
  case state =>
    intro k
    rw [last?_concat, ← hrec.state, hget, Event.state?, hstarted, hchange]
    by_cases hk : id = k
    · cases e.executions.get? k <;> simp [hk, Change.apply_state]
    · simp [hk]
  case rows =>
    intro k
    rw [last?_concat, Event.rows?, hchange, hget]
    by_cases hk : id = k
    · have hrows := hrec.rows k
      cases hx : e.executions.get? k with
      | none => simpa [hk, hx] using hrows
      | some x =>
        have hrows : x.rows = (last? (Event.rows? k) h).getD [] := by simpa [hx] using hrows
        cases hw : what.rows? <;> simp [hk, Change.apply_rows, hw, hrows]
    · simpa [hk] using hrec.rows k
  case broken =>
    intro k
    rw [last?_concat, ← hrec.broken, hget, Event.broken?, hchange]
    by_cases hk : id = k
    · cases e.executions.get? k <;> simp [hk, Change.apply_broken]
    · simp [hk]
  case asked =>
    rw [change_eq, List.map_append, List.countP_append, ← he]
    exact hrec.asked
  case refusal =>
    rw [change_eq, last?_concat, ← he]
    exact hrec.refusal

/-- Every call keeps the engine as its history tells, as long as the starts can be counted. -/
theorem perform (hrec : Recorded e h) (c : Call)
    (hfew : c.isStart → (startedIn h).length + 1 < UInt64.size) :
    Recorded (e.perform c).1 (h ++ [⟨c, (e.perform c).2⟩]) := by
  cases c with
  | start q => exact hrec.start (hfew rfl) q
  | state id => exact hrec.of_silent rfl (fun _ => rfl) ⟨rfl, rfl⟩ rfl rfl
  | fetch id => exact hrec.of_silent rfl (fun _ => rfl) ⟨rfl, rfl⟩ rfl rfl
  | change id what => exact hrec.change id what
  | refuseStarts reason => exact hrec.of_silent rfl (fun _ => rfl) ⟨rfl, rfl⟩ rfl rfl

end Recorded

namespace Recorded

end Recorded

end MemoryEngine

end SchemaQuery
