import Mathlib
import SchemaQuery.Proofs.Query.Classification

/-!
The grammar of the texts that have a kind: white space, the keyword in any letter case, and then the end
or a character that goes on with no word. Every other text has a fault, and only a text of white space
has the fault of an empty one. So white space in front, the letter case of the keyword, and whatever comes
behind the character that ends it make no difference.
-/

namespace SchemaQuery

open Text

/-! ### Keywords in any letter case -/

theorem Text.toUpper_eq_iff {c k : Char} (hk : k.isUpper = true) :
    c.toUpper = k ↔ c = k ∨ c = k.toLower := by
  have hcapital : k.toUpper = k := Char.toUpper_eq_of_not_isLower (Char.not_isLower_of_isUpper hk)
  constructor
  · rintro rfl
    by_cases hc : c.isLower = true
    · have hsmall : c.toLower = c := Char.toLower_eq_of_not_isUpper (Char.not_isUpper_of_isLower hc)
      rw [Char.toLower_toUpper_eq_toLower, hsmall]
      exact .inr rfl
    · exact .inl (Char.toUpper_eq_of_not_isLower hc).symm
  · rintro (rfl | rfl)
    · exact hcapital
    · rw [Char.toUpper_toLower_eq_toUpper, hcapital]

theorem Text.map_toUpper_eq_iff {letters ks : List Char} (hks : ∀ k ∈ ks, k.isUpper = true) :
    letters.map Char.toUpper = ks ↔ List.Forall₂ (fun c k => c = k ∨ c = k.toLower) letters ks := by
  induction ks generalizing letters with
  | nil => cases letters <;> simp
  | cons k ks ih =>
    obtain ⟨hk, hks⟩ := List.forall_mem_cons.mp hks
    cases letters with
    | nil => simp
    | cons c letters =>
      rw [List.map_cons, List.cons.injEq, List.forall₂_cons, toUpper_eq_iff hk, ih hks]

namespace QueryKind

/-- The keyword of a kind in some letter case: each of its letters as a capital or a small one. -/
def IsSpelling (kind : QueryKind) (letters : List Char) : Prop :=
  List.Forall₂ (fun c k => c = k ∨ c = k.toLower) letters kind.keyword

/-- White space, the keyword of a kind in some letter case, and then the end or a character that is no
letter, no digit and no underscore. -/
def Opens (kind : QueryKind) (s : List Char) : Prop :=
  ∃ gap letters rest, s = gap ++ letters ++ rest ∧ (∀ c ∈ gap, isBlank c = true) ∧
    kind.IsSpelling letters ∧ ∀ c ∈ rest.head?, isWordPart c = false

theorem isUpper_of_mem_keyword (kind : QueryKind) : ∀ k ∈ kind.keyword, k.isUpper = true := by
  have hall : kind.keyword.all Char.isUpper = true := by cases kind <;> rfl
  exact List.all_eq_true.mp hall

/-- Letters are a keyword in some letter case exactly if their capitals are the keyword. -/
theorem isSpelling_iff {kind : QueryKind} {letters : List Char} :
    kind.IsSpelling letters ↔ letters.map Char.toUpper = kind.keyword :=
  (map_toUpper_eq_iff kind.isUpper_of_mem_keyword).symm

/-- A run of letters is recognized as the kind whose keyword it spells. -/
theorem ofKeyword?_eq_some_iff {letters : List Char} {kind : QueryKind} :
    ofKeyword? letters = some kind ↔ kind.IsSpelling letters := by
  rw [isSpelling_iff]
  constructor
  · intro h
    have hkeyword : kind.keyword = letters.map Char.toUpper := by simpa using List.find?_some h
    exact hkeyword.symm
  · intro h
    rw [ofKeyword?, h]
    cases kind <;> rfl

theorem IsSpelling.isAlpha {kind : QueryKind} {letters : List Char} (h : kind.IsSpelling letters) :
    ∀ c ∈ letters, c.isAlpha = true := by
  intro c hc
  have hmem : c.toUpper ∈ kind.keyword := by
    rw [← isSpelling_iff.mp h]
    exact List.mem_map_of_mem hc
  rw [← Char.isUpper_toUpper_eq_isAlpha]
  exact kind.isUpper_of_mem_keyword _ hmem

theorem IsSpelling.isHead {kind : QueryKind} {gap letters : List Char} (h : kind.IsSpelling letters)
    (hgap : ∀ c ∈ gap, isBlank c = true) : kind.IsHead (gap ++ letters) :=
  ⟨gap, letters, rfl, hgap, h.isAlpha, ofKeyword?_eq_some_iff.mpr h⟩

end QueryKind

/-- A text has a kind exactly if it opens with its keyword. -/
theorem classify_eq_ok_iff_opens {template : String} {kind : QueryKind} :
    classify template = .ok kind ↔ kind.Opens template.toList := by
  constructor
  · intro h
    obtain ⟨u, rest, ⟨gap, letters, rfl, hgap, -, hkeyword⟩, htemplate, hend⟩ := exists_isHead h
    exact ⟨gap, letters, rest, htemplate, hgap, QueryKind.ofKeyword?_eq_some_iff.mp hkeyword, hend⟩
  · rintro ⟨gap, letters, rest, htemplate, hgap, hletters, hend⟩
    have h := (hletters.isHead hgap).classify_append rest
    rw [← htemplate, String.ofList_toList] at h
    exact h.mpr hend

/-! ### Faults -/

theorem Text.trimEnd_eq_nil_iff {s : List Char} : trimEnd s = [] ↔ ∀ c ∈ s, isBlank c = true := by
  rw [trimEnd, List.reverse_eq_nil_iff]
  change trimStart s.reverse = [] ↔ _
  rw [trimStart_eq_nil_iff]
  simp only [List.mem_reverse]

theorem Text.trim_eq_nil_iff {s : List Char} : trim s = [] ↔ ∀ c ∈ s, isBlank c = true := by
  rw [trim, trimEnd_eq_nil_iff, ← trimStart_eq_nil_iff (s := s)]
  cases hs : trimStart s with
  | nil => simp
  | cons c r =>
    have hc := trimStart_head? s c (by rw [hs]; rfl)
    refine iff_of_false (fun h => ?_) (List.cons_ne_nil c r)
    rw [h c (List.mem_cons_self ..)] at hc
    cases hc

theorem Text.trimStart_blank_append {gap : List Char} (hgap : ∀ c ∈ gap, isBlank c = true)
    (s : List Char) : trimStart (gap ++ s) = trimStart s :=
  List.dropWhile_append_of_pos hgap

theorem TemplateFault.text_unknownKeyword_ne (head : String) :
    (unknownKeyword head).text ≠ "empty query template" := by
  change "unrecognized query keyword in template '" ++ head ++ "'" ≠ _
  intro h
  have hletters := congrArg String.toList h
  rw [String.toList_append, String.toList_append] at hletters
  have hfirst : 'u' = 'e' := (List.cons.inj hletters).1
  exact absurd hfirst (by decide)

/-- The fault of a text without a kind says that it is empty exactly if it is white space alone. -/
theorem TemplateFault.ofHead_text_eq_iff {s : List Char} :
    (ofHead s).text = "empty query template" ↔ ∀ c ∈ s, isBlank c = true := by
  rw [← trim_eq_nil_iff, ofHead]
  cases htrim : trim s with
  | nil => exact iff_of_true rfl rfl
  | cons c r =>
    exact iff_of_false (text_unknownKeyword_ne _) (List.cons_ne_nil c r)

/-- White space in front makes no difference to the kind of a text, nor to its fault. -/
theorem classify_blank_append {gap : List Char} (hgap : ∀ c ∈ gap, isBlank c = true)
    (template : String) :
    classify (String.ofList (gap ++ template.toList)) = classify template := by
  have htrim := trimStart_blank_append hgap template.toList
  have hfault : TemplateFault.ofHead (gap ++ template.toList) = .ofHead template.toList := by
    rw [TemplateFault.ofHead, TemplateFault.ofHead, trim, trim, htrim]
  rw [classify, classify, String.toList_ofList, htrim, hfault]

/-! ### The grammar -/

/-- A template has a kind exactly if it opens with its keyword, and otherwise a fault that calls it empty
exactly if it is white space alone. What is in front of the keyword, its letter case and what is behind
the character that ends it make no difference. -/
theorem classify_grammar (template : String) :
    (∀ kind, classify template = .ok kind ↔ kind.Opens template.toList) ∧
    ((∀ kind : QueryKind, ¬ kind.Opens template.toList) →
      ∃ fault, classify template = .error fault ∧ (Error.compile fault).family = "Compile" ∧
        ((Error.compile fault).message = "Compile error: empty query template" ↔
          ∀ c ∈ template.toList, isBlank c = true)) ∧
    (∀ gap, (∀ c ∈ gap, isBlank c = true) →
      classify (String.ofList (gap ++ template.toList)) = classify template) ∧
    ∀ kind gap letters rest, template.toList = gap ++ letters ++ rest →
      (∀ c ∈ gap, isBlank c = true) → QueryKind.IsSpelling kind letters →
      (∀ letters', kind.IsSpelling letters' →
        (classify (String.ofList (gap ++ letters' ++ rest)) = .ok kind ↔
          classify template = .ok kind)) ∧
      ∀ c behind behind', rest = c :: behind → isWordPart c = false →
        classify (String.ofList (gap ++ letters ++ c :: behind')) = classify template := by
  refine ⟨fun kind => classify_eq_ok_iff_opens, fun hnone => ?_,
    fun gap hgap => classify_blank_append hgap template,
    fun kind gap letters rest htemplate hgap hletters => ?_⟩
  · cases hc : classify template with
    | ok kind => exact absurd (classify_eq_ok_iff_opens.mp hc) (hnone kind)
    | error fault =>
      refine ⟨fault, rfl, rfl, ?_⟩
      rw [fault_of_classify hc, ← TemplateFault.ofHead_text_eq_iff]
      show "Compile error: " ++ _ = "Compile error: " ++ "empty query template" ↔ _
      exact String.append_right_inj _
  · have hkind := (hletters.isHead hgap).classify_append
    have hown := hkind rest
    rw [← htemplate, String.ofList_toList] at hown
    refine ⟨fun letters' hletters' => ?_, fun c behind behind' hrest hc => ?_⟩
    · rw [(hletters'.isHead hgap).classify_append rest, hown]
    · subst hrest
      rw [(hkind (c :: behind')).mpr (by simpa using hc), hown.mpr (by simpa using hc)]

end SchemaQuery
