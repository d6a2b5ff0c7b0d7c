import SchemaQuery.Proofs.Query.Outline

/-!
Zones of a scan, one step at a time. A step reads one character, or two where the second belongs to the
first, and says in which zone the scan goes on; the next character matters only if it is a quote, a minus
sign, a slash or a star. The comments and quoted identifiers of a text are gathered along the steps, each
of which either adds to the one that is being read, or begins or ends one, or passes.
-/

namespace SchemaQuery

namespace Segment

namespace Zone

/-- Whether text in the zone belongs to a comment or a quoted identifier. -/
def isVerbatim : Zone → Bool
  | .bare | .literal => false
  | .identifier | .lineComment | .blockComment => true

/-- The zone in which a scan goes on behind a character, and whether it takes the next one as well. -/
def step (zone : Zone) (c : Char) (next : Option Char) : Zone × Bool :=
  match zone with
  | .bare =>
    if c = '\'' then (.literal, false)
    else if c = '"' then (.identifier, false)
    else if c = '-' ∧ next = some '-' then (.lineComment, true)
    else if c = '/' ∧ next = some '*' then (.blockComment, true)
    else (.bare, false)
  | .literal =>
    if c = '\'' then if next = some '\'' then (.literal, true) else (.bare, false)
    else (.literal, false)
  | .identifier =>
    if c = '"' then if next = some '"' then (.identifier, true) else (.bare, false)
    else (.identifier, false)
  | .lineComment => if c = '\n' then (.bare, false) else (.lineComment, false)
  | .blockComment =>
    if c = '*' ∧ next = some '/' then (.bare, true) else (.blockComment, false)

/-- The zone in which a scan is once it has read a text. -/
def after : Zone → List Char → Zone
  | zone, [] => zone
  | zone, [c] => (zone.step c none).1
  | zone, c :: d :: r =>
    match zone.step c (some d) with
    | (next, true) => next.after r
    | (next, false) => next.after (d :: r)

example : after .bare "a 'b' -- c".toList = .lineComment := by decide
example : after .bare "\"a\"\" ".toList = .identifier := by decide

/-- The characters that a scan looks for. -/
def signs : List Char := ['\'', '"', '-', '/', '*']

/-- A next character that is no sign might as well be missing. -/
theorem step_of_notMem {next : Option Char} (h : ∀ d ∈ next, d ∉ signs) (zone : Zone) (c : Char) :
    zone.step c next = zone.step c none := by
  have hne : ∀ d ∈ signs, next ≠ some d := fun d hd hn => h d hn hd
  simp only [signs, List.forall_mem_cons] at hne
  obtain ⟨hquote, hdouble, hminus, hslash, hstar, -⟩ := hne
  cases zone <;> simp [step, hquote, hdouble, hminus, hslash, hstar]

theorem step_dollar (zone : Zone) (c : Char) : zone.step c (some '$') = zone.step c none := by
  refine step_of_notMem ?_ zone c
  rintro d ⟨⟩
  decide

theorem mem_signs_of_step {zone next : Zone} {c : Char} {d : Option Char}
    (h : zone.step c d = (next, true)) : ∃ s ∈ signs, d = some s := by
  by_contra hnone
  have hd : ∀ s ∈ d, s ∉ signs := fun s hs hm => hnone ⟨s, hm, hs⟩
  rw [step_of_notMem hd] at h
  cases zone <;> simp only [step] at h <;> split_ifs at h <;> simp_all

theorem after_cons {zone next : Zone} {c : Char} {r : List Char}
    (h : zone.step c r.head? = (next, false)) : zone.after (c :: r) = next.after r := by
  cases r with
  | nil =>
    rw [List.head?_nil] at h
    rw [after, after, h]
  | cons d r =>
    rw [List.head?_cons] at h
    rw [after, h]

theorem after_cons_cons {zone next : Zone} {c d : Char} {r : List Char}
    (h : zone.step c (some d) = (next, true)) : zone.after (c :: d :: r) = next.after r := by
  rw [after, h]

/-- A character that changes nothing in a zone, whatever comes behind it. -/
def Passes (zone : Zone) (c : Char) : Prop := ∀ next : Option Char, zone.step c next = (zone, false)

theorem passes_of_notMem {c : Char} (h : c ∉ '\n' :: signs) (zone : Zone) : zone.Passes c := by
  simp only [signs, List.mem_cons, List.not_mem_nil, or_false, not_or] at h
  obtain ⟨hnewline, hquote, hdouble, hminus, hslash, hstar⟩ := h
  intro next
  cases zone <;> simp [step, hnewline, hquote, hdouble, hminus, hslash, hstar]

/-- Outside comments and quoted identifiers a newline is like any other character. -/
theorem passes_of_isVerbatim {zone : Zone} (hz : zone.isVerbatim = false) {c : Char}
    (h : c ∉ signs) : zone.Passes c := by
  simp only [signs, List.mem_cons, List.not_mem_nil, or_false, not_or] at h
  obtain ⟨hquote, hdouble, hminus, hslash, -⟩ := h
  intro next
  cases zone with
  | bare => simp [step, hquote, hdouble, hminus, hslash]
  | literal => simp [step, hquote]
  | identifier | lineComment | blockComment => cases hz

/-- Characters that change nothing leave a scan in its zone. -/
theorem after_append {zone : Zone} {u : List Char} (hu : ∀ c ∈ u, zone.Passes c) (s : List Char) :
    zone.after (u ++ s) = zone.after s := by
  induction u with
  | nil => rfl
  | cons c u ih =>
    obtain ⟨hc, hu⟩ := List.forall_mem_cons.mp hu
    rw [List.cons_append, after_cons (hc _), ih hu]

/-- The region that a text leaves open if it ends in the zone. -/
def unclosed? : Zone → Option Region
  | .bare | .lineComment => none
  | .literal => some .literal
  | .identifier => some .identifier
  | .blockComment => some .comment

end Zone

/-- The comments and quoted identifiers that a scan finds, the rest of the one it began in first. -/
def verbatimsOf (zone : Zone) (scanned : List Char × List Segment) : List (List Char) :=
  if zone.isVerbatim then scanned.1 :: verbatims scanned.2 else verbatims scanned.2

/-- The comments and quoted identifiers of a text that begins inside a zone. -/
def verbatimsFrom (zone : Zone) (s : List Char) : Except Region (List (List Char)) :=
  (scan zone s).map (verbatimsOf zone)

/-- What a step that leads from one zone to another and reads some characters does to the comments and
quoted identifiers that come behind it. -/
def gather (zone next : Zone) (read : List Char) (found : List (List Char)) : List (List Char) :=
  if next.isVerbatim then (read ++ found.headD []) :: found.tail
  else match zone with
    | .bare | .literal => found
    | .lineComment => [] :: found
    | .identifier | .blockComment => read :: found

theorem verbatims_afterBare (t : List Char) (segments : List Segment) :
    verbatims (afterBare t segments) = verbatims segments := by
  unfold afterBare
  split <;> rfl

theorem verbatimsFrom_bare (s : List Char) : verbatimsFrom .bare s = (split s).map verbatims := by
  rw [verbatimsFrom, split]
  cases scan .bare s with
  | error region => rfl
  | ok scanned => exact congrArg Except.ok (verbatims_afterBare _ _).symm

/-- It is enough to know what a step of the scan does with the answer for the rest. -/
theorem verbatimsFrom_of_scan {zone next : Zone} {s r read : List Char}
    (f : List Char × List Segment → List Char × List Segment)
    (hscan : scan zone s = (scan next r).map f)
    (hf : ∀ scanned,
      verbatimsOf zone (f scanned) = gather zone next read (verbatimsOf next scanned)) :
    verbatimsFrom zone s = (verbatimsFrom next r).map (gather zone next read) := by
  rw [verbatimsFrom, verbatimsFrom, hscan]
  cases scan next r with
  | error region => rfl
  | ok scanned => exact congrArg Except.ok (hf scanned)

/-- The comments and quoted identifiers behind a step that reads one character. -/
theorem verbatimsFrom_cons {zone next : Zone} {c : Char} {r : List Char}
    (h : zone.step c r.head? = (next, false)) :
    verbatimsFrom zone (c :: r) = (verbatimsFrom next r).map (gather zone next [c]) := by
  have hne {d : Char} (hd : r.head? ≠ some d) (r' : List Char) : r ≠ d :: r' := by
    rintro rfl
    exact hd rfl
  cases zone with
  | bare =>
    simp only [Zone.step] at h
    split_ifs at h with hquote hdouble hminus hslash
    · cases h; subst hquote
      exact verbatimsFrom_of_scan _ (scan.eq_2 r) fun _ => rfl
    · cases h; subst hdouble
      exact verbatimsFrom_of_scan _ (scan.eq_3 r) fun _ => rfl
    · cases h
    · cases h
    · cases h
      have hplain : IsPlain c r.head? :=
        ⟨hquote, hdouble, fun hc hn => hminus ⟨hc, hn⟩, fun hc hn => hslash ⟨hc, hn⟩⟩
      exact verbatimsFrom_of_scan _ (scan_bare_cons hplain) fun _ => rfl
  | literal =>
    simp only [Zone.step] at h
    split_ifs at h with hquote hnext
    · cases h
    · cases h; subst hquote
      exact verbatimsFrom_of_scan _ (scan.eq_9 r (hne hnext)) fun _ => verbatims_afterBare _ _
    · cases h
      exact verbatimsFrom_of_scan _ (scan.eq_10 c r (fun _ hc _ => hquote hc) hquote) fun _ => rfl
  | identifier =>
    simp only [Zone.step] at h
    split_ifs at h with hdouble hnext
    · cases h
    · cases h; subst hdouble
      exact verbatimsFrom_of_scan _ (scan.eq_13 r (hne hnext)) fun _ =>
        congrArg (['"'] :: ·) (verbatims_afterBare _ _)
    · cases h
      exact verbatimsFrom_of_scan _ (scan.eq_14 c r (fun _ hc _ => hdouble hc) hdouble) fun _ => rfl
  | lineComment =>
    simp only [Zone.step] at h
    split_ifs at h with hnewline
    · cases h; subst hnewline
      exact verbatimsFrom_of_scan _ (scan.eq_16 r) fun scanned =>
        congrArg ([] :: ·) (verbatims_afterBare ('\n' :: scanned.1) scanned.2)
    · cases h
      exact verbatimsFrom_of_scan _ (scan.eq_17 c r hnewline) fun _ => rfl
  | blockComment =>
    simp only [Zone.step] at h
    split_ifs at h with hclose
    · cases h
    · cases h
      have hopen (r' : List Char) (hc : c = '*') (hr : r = '/' :: r') : False :=
        hclose ⟨hc, by rw [hr, List.head?_cons]⟩
      exact verbatimsFrom_of_scan _ (scan.eq_20 c r hopen) fun _ => rfl

/-- The comments and quoted identifiers behind a step that reads two characters. -/
theorem verbatimsFrom_cons_cons {zone next : Zone} {c d : Char} {r : List Char}
    (h : zone.step c (some d) = (next, true)) :
    verbatimsFrom zone (c :: d :: r) = (verbatimsFrom next r).map (gather zone next [c, d]) := by
  cases zone with
  | bare =>
    simp only [Zone.step] at h
    split_ifs at h with hquote hdouble hminus hslash
    · cases h
    · cases h
    · obtain ⟨rfl, hd⟩ := hminus
      cases h; cases hd
      exact verbatimsFrom_of_scan _ (scan.eq_4 r) fun _ => rfl
    · obtain ⟨rfl, hd⟩ := hslash
      cases h; cases hd
      exact verbatimsFrom_of_scan _ (scan.eq_5 r) fun _ => rfl
    · cases h
  | literal =>
    simp only [Zone.step] at h
    split_ifs at h with hquote hnext
    · cases h; cases hnext; subst hquote
      exact verbatimsFrom_of_scan _ (scan.eq_8 r) fun _ => rfl
    · cases h
    · cases h
  | identifier =>
    simp only [Zone.step] at h
    split_ifs at h with hdouble hnext
    · cases h; cases hnext; subst hdouble
      exact verbatimsFrom_of_scan _ (scan.eq_12 r) fun _ => rfl
    · cases h
    · cases h
  | lineComment =>
    simp only [Zone.step] at h
    split_ifs at h
    · cases h
    · cases h
  | blockComment =>
    simp only [Zone.step] at h
    split_ifs at h with hclose
    · obtain ⟨rfl, hd⟩ := hclose
      cases h; cases hd
      exact verbatimsFrom_of_scan _ (scan.eq_19 r) fun _ =>
        congrArg (['*', '/'] :: ·) (verbatims_afterBare _ _)
    · cases h

/-- Outside comments and quoted identifiers, characters that change nothing add none. -/
theorem verbatimsFrom_append {zone : Zone} (hz : zone.isVerbatim = false) {u : List Char}
    (hu : ∀ c ∈ u, zone.Passes c) (s : List Char) :
    verbatimsFrom zone (u ++ s) = verbatimsFrom zone s := by
  induction u with
  | nil => rfl
  | cons c u ih =>
    obtain ⟨hc, hu⟩ := List.forall_mem_cons.mp hu
    have hgather : gather zone zone [c] = id := by
      funext found
      cases zone <;> first | rfl | cases hz
    rw [List.cons_append, verbatimsFrom_cons (hc _), hgather, ih hu]
    cases verbatimsFrom zone s <;> rfl

/-- A text that begins inside a comment or a quoted identifier has at least the rest of that one. -/
theorem ne_nil_of_verbatimsFrom {zone : Zone} (hz : zone.isVerbatim = true) {s : List Char}
    {found : List (List Char)} (h : verbatimsFrom zone s = .ok found) : found ≠ [] := by
  obtain ⟨scanned, -, rfl⟩ := map_eq_ok_iff.mp h
  rw [verbatimsOf, if_pos hz]
  exact List.cons_ne_nil _ _

theorem gather_inj {zone next : Zone} {read : List Char} {found found' : List (List Char)}
    (hne : next.isVerbatim = true → found ≠ []) (hne' : next.isVerbatim = true → found' ≠ [])
    (h : gather zone next read found = gather zone next read found') : found = found' := by
  cases hz : next.isVerbatim with
  | true =>
    obtain ⟨body, found, rfl⟩ := List.exists_cons_of_ne_nil (hne hz)
    obtain ⟨body', found', rfl⟩ := List.exists_cons_of_ne_nil (hne' hz)
    simpa [gather, hz] using h
  | false => cases zone <;> simpa [gather, hz] using h

/-- Inside a comment or a quoted identifier, texts that go on with different characters have different
ones. -/
theorem verbatimsFrom_ne {zone : Zone} (hz : zone.isVerbatim = true) {c d : Char}
    (hc : zone.Passes c) (hd : zone.Passes d) (hne : c ≠ d) {r r' : List Char}
    {found : List (List Char)} (h : verbatimsFrom zone (c :: r) = .ok found) :
    verbatimsFrom zone (d :: r') ≠ .ok found := by
  intro h'
  rw [verbatimsFrom_cons (hc _)] at h
  rw [verbatimsFrom_cons (hd _)] at h'
  obtain ⟨rest, -, rfl⟩ := map_eq_ok_iff.mp h
  obtain ⟨rest', -, heq⟩ := map_eq_ok_iff.mp h'
  simp only [gather, if_pos hz] at heq
  exact hne (List.cons.inj (List.cons.inj heq).1).1.symm

/-- A text has no segments exactly if it ends in a zone that has to be closed. -/
theorem verbatimsFrom_eq_error_iff {zone : Zone} {s : List Char} {region : Region} :
    verbatimsFrom zone s = .error region ↔ (zone.after s).unclosed? = some region := by
  induction hlen : s.length using Nat.strongRecOn generalizing zone s with
  | ind k ih =>
    subst hlen
    have map_iff (e : Except Region (List (List Char))) (f : List (List Char) → List (List Char)) :
        e.map f = .error region ↔ e = .error region := by
      cases e <;> simp [Except.map]
    cases s with
    | nil => cases zone <;> simp [verbatimsFrom, scan, Zone.after, Zone.unclosed?, Except.map]
    | cons c r =>
      obtain ⟨⟨next, taken⟩, hstep⟩ : ∃ step, zone.step c r.head? = step := ⟨_, rfl⟩
      cases taken with
      | false =>
        rw [verbatimsFrom_cons hstep, map_iff, ih r.length (by simp) rfl, Zone.after_cons hstep]
      | true =>
        obtain ⟨d, -, hd⟩ := Zone.mem_signs_of_step hstep
        obtain ⟨r, rfl⟩ := List.head?_eq_some_iff.mp hd
        rw [List.head?_cons] at hstep
        have hlt : r.length < (c :: d :: r).length := by
          rw [List.length_cons, List.length_cons]
          omega
        rw [verbatimsFrom_cons_cons hstep, map_iff, ih r.length hlt rfl, Zone.after_cons_cons hstep]

/-- A text has no segments exactly if it ends inside a literal, a quoted identifier or a block comment. -/
theorem split_eq_error_iff {s : List Char} {region : Region} :
    split s = .error region ↔ (Zone.after .bare s).unclosed? = some region := by
  rw [← verbatimsFrom_eq_error_iff, verbatimsFrom_bare]
  cases split s <;> simp [Except.map]

end Segment

end SchemaQuery
