import Mathlib.Data.List.Forall2

/-!
Answers that may be errors: when a step, a change of the answer or a walk over a list gives one that is
none, and what each part of it gave then.
-/

namespace SchemaQuery

variable {ε α β : Type}

theorem map_eq_ok_iff {e : Except ε α} {f : α → β} {b : β} :
    e.map f = .ok b ↔ ∃ a, e = .ok a ∧ f a = b := by
  cases e <;> simp [Except.map]

theorem map_eq_error_iff {e : Except ε α} {f : α → β} {x : ε} : e.map f = .error x ↔ e = .error x := by
  cases e <;> simp [Except.map]

theorem bind_eq_ok_iff {e : Except ε α} {f : α → Except ε β} {b : β} :
    (e >>= f) = .ok b ↔ ∃ a, e = .ok a ∧ f a = .ok b := by
  cases e <;> simp [bind, Except.bind]

theorem mapError_eq_ok_iff {ε' : Type} {e : Except ε α} {f : ε → ε'} {a : α} :
    e.mapError f = .ok a ↔ e = .ok a := by
  cases e <;> simp [Except.mapError]

theorem mapError_eq_error_iff {ε' : Type} {e : Except ε α} {f : ε → ε'} {x : ε'} :
    e.mapError f = .error x ↔ ∃ y, e = .error y ∧ f y = x := by
  cases e <;> simp [Except.mapError]

/-- Two steps give an error exactly if the first one does, or else the second. -/
theorem bind_eq_error_iff {e : Except ε α} {f : α → Except ε β} {x : ε} :
    (e >>= f) = .error x ↔ e = .error x ∨ ∃ a, e = .ok a ∧ f a = .error x := by
  cases e <;> simp [bind, Except.bind]

theorem forM_eq_ok_iff {f : α → Except ε Unit} {as : List α} :
    as.forM f = .ok () ↔ ∀ a ∈ as, f a = .ok () := by
  induction as with
  | nil => simp [List.forM, pure, Except.pure]
  | cons a as ih =>
    change (f a >>= fun _ => as.forM f) = .ok () ↔ _
    rw [bind_eq_ok_iff, List.forall_mem_cons, ih]
    constructor
    · rintro ⟨⟨⟩, ha, has⟩; exact ⟨ha, has⟩
    · rintro ⟨ha, has⟩; exact ⟨(), ha, has⟩

/-- A walk over a list gives no error exactly if no element does, and then the answers of the elements
in their order. -/
theorem mapM_eq_ok_iff {f : α → Except ε β} {as : List α} {bs : List β} :
    as.mapM f = .ok bs ↔ List.Forall₂ (fun a b => f a = .ok b) as bs := by
  induction as generalizing bs with
  | nil => cases bs <;> simp [pure, Except.pure]
  | cons a as ih =>
    rw [List.mapM_cons, bind_eq_ok_iff]
    constructor
    · rintro ⟨b, hb, h⟩
      obtain ⟨bs', hbs, h⟩ := bind_eq_ok_iff.mp h
      cases h
      exact .cons hb (ih.mp hbs)
    · rintro (_ | ⟨hb, hbs⟩)
      exact ⟨_, hb, bind_eq_ok_iff.mpr ⟨_, ih.mpr hbs, rfl⟩⟩

theorem mapM_congr {f g : α → Except ε β} {as : List α} (h : ∀ a ∈ as, f a = g a) :
    as.mapM f = as.mapM g := by
  induction as with
  | nil => rfl
  | cons a as ih =>
    obtain ⟨ha, has⟩ := List.forall_mem_cons.mp h
    rw [List.mapM_cons, List.mapM_cons, ha, ih has]

/-- Where a change of the elements changes the answer of each alike, it changes that of a walk over a list. -/
theorem mapM_map {α' β' : Type} {f : α → Except ε β} {f' : α' → Except ε β'} {g : α → α'} {k : β → β'}
    {as : List α} (h : ∀ a ∈ as, f' (g a) = (f a).map k) :
    (as.map g).mapM f' = (as.mapM f).map (List.map k) := by
  induction as with
  | nil => rfl
  | cons a as ih =>
    obtain ⟨ha, has⟩ := List.forall_mem_cons.mp h
    rw [List.map_cons, List.mapM_cons, List.mapM_cons, ha, ih has]
    cases f a with
    | error e => rfl
    | ok b => cases as.mapM f <;> rfl

/-- Where an element gives no error exactly under a condition, and then one answer, a walk gives no error
exactly if all elements meet it, and then their answers. -/
theorem mapM_eq_ok_iff_forall {f : α → Except ε β} {P : α → Prop} {g : α → β}
    (h : ∀ a b, f a = .ok b ↔ P a ∧ b = g a) {as : List α} {bs : List β} :
    as.mapM f = .ok bs ↔ (∀ a ∈ as, P a) ∧ bs = as.map g := by
  rw [mapM_eq_ok_iff]
  induction as generalizing bs with
  | nil => cases bs <;> simp
  | cons a as ih =>
    cases bs with
    | nil => simp
    | cons b bs =>
      rw [List.forall₂_cons, ih, h, List.forall_mem_cons, List.map_cons, List.cons.injEq]
      tauto

theorem exists_of_mapM_eq_ok {f : α → Except ε β} {as : List α} {bs : List β}
    (h : as.mapM f = .ok bs) {a : α} (ha : a ∈ as) : ∃ b, f a = .ok b := by
  have hall := mapM_eq_ok_iff.mp h
  clear h
  induction hall with
  | nil => cases ha
  | cons hb _ ih =>
    rcases List.mem_cons.mp ha with rfl | ha
    · exact ⟨_, hb⟩
    · exact ih ha

theorem exists_of_mem_mapM_eq_ok {f : α → Except ε β} {as : List α} {bs : List β}
    (h : as.mapM f = .ok bs) {b : β} (hb : b ∈ bs) : ∃ a ∈ as, f a = .ok b := by
  have hall := mapM_eq_ok_iff.mp h
  clear h
  induction hall with
  | nil => cases hb
  | cons ha _ ih =>
    rcases List.mem_cons.mp hb with rfl | hb
    · exact ⟨_, List.mem_cons_self, ha⟩
    · obtain ⟨a, hmem, ha⟩ := ih hb
      exact ⟨a, List.mem_cons_of_mem _ hmem, ha⟩

theorem exists_of_mapM_eq_error {f : α → Except ε β} {as : List α} {e : ε}
    (h : as.mapM f = .error e) : ∃ a ∈ as, f a = .error e := by
  induction as with
  | nil => cases h
  | cons a as ih =>
    rw [List.mapM_cons] at h
    cases ha : f a with
    | error e' =>
      rw [ha] at h
      cases h
      exact ⟨a, by simp, ha⟩
    | ok b =>
      rw [ha] at h
      change (as.mapM f >>= fun bs => pure (b :: bs)) = .error e at h
      cases has : as.mapM f with
      | error e' =>
        rw [has] at h
        cases h
        obtain ⟨a', hm, ha'⟩ := ih has
        exact ⟨a', by simp [hm], ha'⟩
      | ok bs => rw [has] at h; cases h

/-- A walk over a list gives no error exactly if no element of it does. -/
theorem exists_mapM_eq_ok_iff {f : α → Except ε β} {as : List α} :
    (∃ bs, as.mapM f = .ok bs) ↔ ∀ a ∈ as, ∃ b, f a = .ok b := by
  constructor
  · rintro ⟨bs, h⟩ a ha
    exact exists_of_mapM_eq_ok h ha
  · intro h
    cases hwalk : as.mapM f with
    | ok bs => exact ⟨bs, rfl⟩
    | error e =>
      obtain ⟨a, ha, he⟩ := exists_of_mapM_eq_error hwalk
      obtain ⟨b, hb⟩ := h a ha
      rw [hb] at he
      cases he

/-- The error of a walk over a list is that of the first element that gives one. -/
theorem mapM_eq_error_iff {f : α → Except ε β} {as : List α} {e : ε} :
    as.mapM f = .error e ↔ ∃ before a after, as = before ++ a :: after ∧
      (∀ x ∈ before, ∃ b, f x = .ok b) ∧ f a = .error e := by
  constructor
  · intro h
    induction as with
    | nil => cases h
    | cons a as ih =>
      rw [List.mapM_cons, bind_eq_error_iff] at h
      rcases h with ha | ⟨b, hb, h⟩
      · exact ⟨[], a, as, rfl, by simp, ha⟩
      · rcases bind_eq_error_iff.mp h with h | ⟨bs, -, h⟩
        · obtain ⟨before, a', after, rfl, hbefore, ha'⟩ := ih h
          exact ⟨a :: before, a', after, rfl, List.forall_mem_cons.mpr ⟨⟨b, hb⟩, hbefore⟩, ha'⟩
        · cases h
  · rintro ⟨before, a, after, rfl, hbefore, ha⟩
    induction before with
    | nil => exact bind_eq_error_iff.mpr (.inl ha)
    | cons x before ih =>
      obtain ⟨⟨b, hb⟩, hbefore⟩ := List.forall_mem_cons.mp hbefore
      rw [List.cons_append, List.mapM_cons]
      exact bind_eq_error_iff.mpr (.inr ⟨b, hb, bind_eq_error_iff.mpr (.inl (ih hbefore))⟩)

/-- Where an element gives an error exactly as `fault` says, the error of a walk over a list is the first
one of its elements. -/
theorem mapM_eq_error_iff_findSome? {f : α → Except ε β} {fault : α → Option ε}
    (h : ∀ a e, f a = .error e ↔ fault a = some e) {as : List α} {e : ε} :
    as.mapM f = .error e ↔ as.findSome? fault = some e := by
  have hnone (a : α) : (∃ b, f a = .ok b) ↔ fault a = none := by
    rw [Option.eq_none_iff_forall_ne_some]
    cases hf : f a with
    | ok b => exact iff_of_true ⟨b, rfl⟩ fun e he => by rw [← h, hf] at he; cases he
    | error e => exact iff_of_false (fun ⟨b, hb⟩ => nomatch hb) fun hne => hne e ((h a e).mp hf)
  rw [mapM_eq_error_iff, List.findSome?_eq_some_iff]
  simp only [hnone, h]
  exact exists_congr fun before => exists_congr fun a => exists_congr fun after =>
    and_congr_right fun _ => and_comm

/-- The same of steps over a list. -/
theorem forM_eq_error_iff_findSome? {f : α → Except ε Unit} {fault : α → Option ε}
    (h : ∀ a e, f a = .error e ↔ fault a = some e) {as : List α} {e : ε} :
    as.forM f = .error e ↔ as.findSome? fault = some e := by
  have hwalk : as.forM f = (as.mapM f).map fun _ => () := by
    induction as with
    | nil => rfl
    | cons a as ih =>
      change (f a >>= fun _ => as.forM f) = _
      rw [List.mapM_cons, ih]
      cases f a with
      | error e => rfl
      | ok u => cases as.mapM f <;> rfl
  rw [hwalk, map_eq_error_iff, mapM_eq_error_iff_findSome? h]

theorem exists_forall₂ {R : α → β → Prop} (h : ∀ a, ∃ b, R a b) (as : List α) :
    ∃ bs, List.Forall₂ R as bs := by
  induction as with
  | nil => exact ⟨[], .nil⟩
  | cons a as ih =>
    obtain ⟨b, hb⟩ := h a
    obtain ⟨bs, hbs⟩ := ih
    exact ⟨b :: bs, .cons hb hbs⟩

end SchemaQuery
