/-!
Entries of a key and a value, and the first value under a key.
-/

namespace SchemaQuery

variable {κ α : Type} [DecidableEq κ]

/-- The value of the first entry of a key. -/
def valueOf? (key : κ) : List (κ × α) → Option α
  | [] => none
  | (k, v) :: rest => if k = key then some v else valueOf? key rest

@[simp] theorem valueOf?_nil (key : κ) : valueOf? key ([] : List (κ × α)) = none := rfl

@[simp] theorem valueOf?_cons (key k : κ) (v : α) (rest : List (κ × α)) :
    valueOf? key ((k, v) :: rest) = if k = key then some v else valueOf? key rest := rfl

theorem valueOf?_isSome_iff {key : κ} {es : List (κ × α)} :
    (valueOf? key es).isSome = true ↔ key ∈ es.map Prod.fst := by
  induction es with
  | nil => simp
  | cons e es ih =>
    obtain ⟨k, v⟩ := e
    by_cases h : k = key
    · simp [h]
    · simp [h, ih, Ne.symm h]

theorem mem_of_valueOf? {key : κ} {v : α} {es : List (κ × α)} (h : valueOf? key es = some v) :
    (key, v) ∈ es := by
  induction es with
  | nil => simp at h
  | cons e es ih =>
    obtain ⟨k, w⟩ := e
    by_cases hk : k = key
    · simp_all
    · exact List.mem_cons_of_mem _ (ih (by simpa [hk] using h))

theorem valueOf?_append (key : κ) (es fs : List (κ × α)) :
    valueOf? key (es ++ fs) = (valueOf? key es).or (valueOf? key fs) := by
  induction es with
  | nil => simp
  | cons e es ih =>
    obtain ⟨k, v⟩ := e
    by_cases h : k = key <;> simp [h, ih]

end SchemaQuery
