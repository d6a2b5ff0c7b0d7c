import SchemaQuery.Query.ByteScan
import SchemaQuery.Proofs.Query.Segmentation
import SchemaQuery.Proofs.Text.Utf8

/-!
The scan over the bytes of a text finds its segments. A byte that opens or ends a region is never part of a
longer character, so every slice that is taken is one of whole characters, also where the cursor has stood
inside a character before. The cursor advances with every step, so the scan ends.
-/

namespace SchemaQuery

open Text

namespace ByteScan

/-! ### Slices and searches -/

theorem slice_of_eq {text : String} {start stop : Nat} (u v w : List Char)
    (htext : text = String.ofList (u ++ v ++ w)) (hstart : start = size u)
    (hstop : stop = size u + size v) : slice text start stop = .ok (String.ofList v) := by
  rw [htext, hstart, hstop, ← size_append, slice, slice?_append]

theorem slice_rest {text : String} {start : Nat} (u v : List Char)
    (htext : text = String.ofList (u ++ v)) (hstart : start = size u) :
    slice text start text.utf8ByteSize = .ok (String.ofList v) := by
  refine slice_of_eq u v [] (by rw [htext, List.append_nil]) hstart ?_
  rw [htext, ← size_append]
  rfl

theorem map_add_map (n m : Nat) (o : Option Nat) :
    (o.map (m + ·)).map (n + ·) = o.map (n + m + ·) := by
  cases o <;> simp [Nat.add_assoc]

theorem quotedEnd?_cons {quote b : UInt8} (hb : b ≠ quote) (r : List UInt8) :
    quotedEnd? quote (b :: r) = (quotedEnd? quote r).map (1 + ·) := by
  cases r with
  | nil => exact if_neg hb
  | cons d r => exact if_neg hb

theorem quotedEnd?_append {quote : UInt8} {bs : List UInt8} (h : quote ∉ bs) (r : List UInt8) :
    quotedEnd? quote (bs ++ r) = (quotedEnd? quote r).map (bs.length + ·) := by
  induction bs with
  | nil => simp
  | cons b bs ih =>
    obtain ⟨hb, hbs⟩ := not_or.mp (mt List.mem_cons.mpr h)
    rw [List.cons_append, quotedEnd?_cons (Ne.symm hb), ih hbs, map_add_map, List.length_cons,
      Nat.add_comm]

theorem quotedEnd?_double (quote : UInt8) (r : List UInt8) :
    quotedEnd? quote (quote :: quote :: r) = (quotedEnd? quote r).map (2 + ·) := by
  rw [quotedEnd?, if_pos rfl, if_pos rfl]

theorem quotedEnd?_quote {quote : UInt8} {r : List UInt8} (h : r[0]? ≠ some quote) :
    quotedEnd? quote (quote :: r) = some 0 := by
  cases r with
  | nil => exact if_pos rfl
  | cons d r =>
    rw [quotedEnd?, if_pos rfl, if_neg]
    rintro rfl
    exact h rfl

theorem quotedEnd?_paired {quote : Char} (hq : quote.toNat < 128) {t : List Char}
    (h : Segment.Paired quote t) (behind : List Char) :
    quotedEnd? quote.toUInt8 (bytes (String.ofList (t ++ behind))) =
      (quotedEnd? quote.toUInt8 (bytes (String.ofList behind))).map (size t + ·) := by
  induction h with
  | nil => simp
  | pair _ ih =>
    rw [List.cons_append, List.cons_append, bytes_cons, bytes_cons, utf8EncodeChar_ascii hq,
      List.singleton_append, List.singleton_append, quotedEnd?_double, ih, map_add_map, size_cons,
      size_cons, utf8Size_ascii hq, ← Nat.add_assoc]
  | @char c s hc _ ih =>
    have hnotMem : quote.toUInt8 ∉ String.utf8EncodeChar c := fun hm =>
      hc (eq_of_mem_utf8EncodeChar hq hm)
    rw [List.cons_append, bytes_cons, quotedEnd?_append hnotMem, ih, map_add_map, size_cons,
      String.length_utf8EncodeChar]

theorem offset?_newline {line : List Char} (h : '\n' ∉ line) (behind : List Char) :
    offset? ['\n'] (line ++ '\n' :: behind) = some (size line) := by
  refine offset?_append (by simp) behind fun v hv hne hpre => ?_
  obtain ⟨c, r, rfl⟩ := List.exists_cons_of_ne_nil hne
  rw [List.cons_append, List.cons_prefix_cons] at hpre
  exact h (hv.subset (by rw [hpre.1]; exact List.mem_cons_self))

theorem offset?_commentEnd {body : List Char} (h : ¬ ['*', '/'] <:+: body) (behind : List Char) :
    offset? ['*', '/'] (body ++ '*' :: '/' :: behind) = some (size body) := by
  refine offset?_append (by simp) behind fun v hv hne hpre => ?_
  obtain ⟨c, r, rfl⟩ := List.exists_cons_of_ne_nil hne
  rw [List.cons_append, List.cons_prefix_cons] at hpre
  obtain ⟨rfl, hr⟩ := hpre
  cases r with
  | nil => simp at hr
  | cons d r =>
    rw [List.cons_append, List.cons_prefix_cons] at hr
    obtain ⟨rfl, -⟩ := hr
    exact h (List.IsInfix.trans ⟨[], r, rfl⟩ hv.isInfix)

/-! ### The region that begins at an offset -/

theorem closing_of_paired {quote : Char} (hq : quote.toNat < 128) {body behind : List Char}
    (hbody : Segment.Paired quote body) (hbehind : behind.head? ≠ some quote) (u : List Char)
    (region : Region) :
    closing (String.ofList (u ++ quote :: (body ++ quote :: behind))) (size u) quote region =
      .ok (size u + 1 + size body) := by
  have hrest := slice_rest (u ++ [quote]) (body ++ quote :: behind) (by rw [← List.append_cons])
    (size_concat hq u).symm
  have hend : quotedEnd? quote.toUInt8 (bytes (String.ofList (body ++ quote :: behind))) =
      some (size body) := by
    rw [quotedEnd?_paired hq hbody, bytes_cons, utf8EncodeChar_ascii hq, List.singleton_append,
      quotedEnd?_quote (mt (getElem?_bytes_zero_iff hq).mp hbehind)]
    rfl
  refine bind_eq_ok_iff.mpr ⟨_, hrest, ?_⟩
  rw [hend]

theorem closing_of_unclosed {quote : Char} (hq : quote.toNat < 128) {body : List Char}
    (hbody : Segment.Paired quote body) (u : List Char) (region : Region) :
    closing (String.ofList (u ++ quote :: body)) (size u) quote region = .error (.unclosed region) := by
  have hrest := slice_rest (u ++ [quote]) body (by rw [← List.append_cons]) (size_concat hq u).symm
  have hend := quotedEnd?_paired hq hbody []
  rw [List.append_nil] at hend
  refine bind_eq_error_iff.mpr (.inr ⟨_, hrest, ?_⟩)
  rw [hend]
  rfl

theorem size_quoted {quote : Char} (hq : quote.toNat < 128) (body : List Char) :
    size (quote :: body ++ [quote]) = 1 + size body + 1 := by
  rw [size_concat hq, size_cons, utf8Size_ascii hq]

theorem literalAt_of_paired {body behind : List Char} (hbody : Segment.Paired '\'' body)
    (hbehind : behind.head? ≠ some '\'') (u : List Char) :
    literalAt (String.ofList (u ++ '\'' :: (body ++ '\'' :: behind))) (size u) =
      .ok (size u + 1 + size body + 1, .literal body) := by
  have hquote : '\''.toNat < 128 := by decide
  have hclose := closing_of_paired hquote hbody hbehind u .literal
  refine bind_eq_ok_iff.mpr ⟨_, hclose, bind_eq_ok_iff.mpr ⟨String.ofList body, ?_, ?_⟩⟩
  · refine slice_of_eq (u ++ ['\'']) body ('\'' :: behind) (by simp) (size_concat hquote u).symm ?_
    rw [size_concat hquote]
  · rw [String.toList_ofList]
    rfl

theorem identifierAt_of_paired {name behind : List Char} (hname : Segment.Paired '"' name)
    (hbehind : behind.head? ≠ some '"') (u : List Char) :
    identifierAt (String.ofList (u ++ '"' :: (name ++ '"' :: behind))) (size u) =
      .ok (size u + 1 + size name + 1, .verbatim ('"' :: name ++ ['"'])) := by
  have hquote : '"'.toNat < 128 := by decide
  have hclose := closing_of_paired hquote hname hbehind u .identifier
  refine bind_eq_ok_iff.mpr ⟨_, hclose,
    bind_eq_ok_iff.mpr ⟨String.ofList ('"' :: name ++ ['"']), ?_, ?_⟩⟩
  · refine slice_of_eq u ('"' :: name ++ ['"']) behind (by simp) rfl ?_
    rw [size_quoted hquote]
    omega
  · rw [String.toList_ofList]
    rfl

theorem lineCommentAt_of_line {v behind : List Char} (hv : '\n' ∉ v)
    (hbehind : behind = [] ∨ behind.head? = some '\n') (u : List Char) :
    lineCommentAt (String.ofList (u ++ (v ++ behind))) (size u) = .ok (size u + size v, .verbatim v) := by
  have hrest := slice_rest u (v ++ behind) rfl rfl
  have hslice := slice_of_eq u v behind (by rw [List.append_assoc]) rfl rfl
  have hstop : ((offset? ['\n'] (v ++ behind)).map (size u + ·)).getD
      (String.ofList (u ++ (v ++ behind))).utf8ByteSize = size u + size v := by
    rcases hbehind with rfl | hbehind
    · have hnone : ¬ ['\n'] <:+: v := fun h => hv (h.subset List.mem_cons_self)
      rw [List.append_nil, offset?_eq_none hnone, ← size_append]
      rfl
    · obtain ⟨behind, rfl⟩ := List.head?_eq_some_iff.mp hbehind
      rw [offset?_newline hv]
      rfl
  refine bind_eq_ok_iff.mpr ⟨_, hrest, ?_⟩
  rw [String.toList_ofList, hstop]
  refine bind_eq_ok_iff.mpr ⟨_, hslice, ?_⟩
  rw [String.toList_ofList]
  rfl

theorem slice_commentBody (u r : List Char) :
    slice (String.ofList (u ++ '/' :: '*' :: r)) (size u + 2)
      (String.ofList (u ++ '/' :: '*' :: r)).utf8ByteSize = .ok (String.ofList r) :=
  slice_rest (u ++ ['/', '*']) r (by simp) (size_append u ['/', '*']).symm

theorem size_blockComment (body : List Char) :
    size ('/' :: '*' :: body ++ ['*', '/']) = 2 + size body + 2 := by
  rw [size_append, size_cons, size_cons]
  change 1 + (1 + size body) + 2 = _
  omega

theorem blockCommentAt_of_closed {body : List Char} (hbody : ¬ ['*', '/'] <:+: body)
    (u behind : List Char) :
    blockCommentAt (String.ofList (u ++ '/' :: '*' :: (body ++ '*' :: '/' :: behind))) (size u) =
      .ok (size u + 2 + size body + 2, .verbatim ('/' :: '*' :: body ++ ['*', '/'])) := by
  have hslice : slice (String.ofList (u ++ '/' :: '*' :: (body ++ '*' :: '/' :: behind))) (size u)
      (size u + 2 + size body + 2) = .ok (String.ofList ('/' :: '*' :: body ++ ['*', '/'])) :=
    slice_of_eq u _ behind (by simp) rfl (by rw [size_blockComment]; omega)
  refine bind_eq_ok_iff.mpr ⟨_, slice_commentBody u _, ?_⟩
  rw [String.toList_ofList, offset?_commentEnd hbody]
  refine bind_eq_ok_iff.mpr ⟨_, hslice, ?_⟩
  rw [String.toList_ofList]
  rfl

theorem blockCommentAt_of_unclosed {body : List Char} (hbody : ¬ ['*', '/'] <:+: body) (u : List Char) :
    blockCommentAt (String.ofList (u ++ '/' :: '*' :: body)) (size u) = .error (.unclosed .comment) := by
  refine bind_eq_error_iff.mpr (.inr ⟨_, slice_commentBody u _, ?_⟩)
  rw [String.toList_ofList, offset?_eq_none hbody]

theorem byte_here {q : Char} (hq : q.toNat < 128) (u s : List Char) :
    (bytes (String.ofList (u ++ s)))[size u]? = some q.toUInt8 ↔ s.head? = some q := by
  have h := getElem?_bytes_append u s 0
  rw [Nat.add_zero] at h
  rw [h, getElem?_bytes_zero_iff hq]

theorem byte_next {c q : Char} (hc : c.toNat < 128) (hq : q.toNat < 128) (u r : List Char) :
    (bytes (String.ofList (u ++ c :: r)))[size u + 1]? = some q.toUInt8 ↔ r.head? = some q := by
  have h := byte_here hq (u ++ [c]) r
  rw [← List.append_cons, size_concat hc] at h
  exact h

theorem regionAt_quote (u r : List Char) : regionAt (String.ofList (u ++ '\'' :: r)) (size u) =
    some <$> literalAt (String.ofList (u ++ '\'' :: r)) (size u) :=
  if_pos ((byte_here (by decide) u _).mpr rfl)

theorem regionAt_doubleQuote (u r : List Char) : regionAt (String.ofList (u ++ '"' :: r)) (size u) =
    some <$> identifierAt (String.ofList (u ++ '"' :: r)) (size u) := by
  rw [regionAt, if_neg (by rw [byte_here (by decide)]; simp), if_pos ((byte_here (by decide) u _).mpr rfl)]

theorem regionAt_minus (u r : List Char) : regionAt (String.ofList (u ++ '-' :: '-' :: r)) (size u) =
    some <$> lineCommentAt (String.ofList (u ++ '-' :: '-' :: r)) (size u) := by
  rw [regionAt, if_neg (by rw [byte_here (by decide)]; simp),
    if_neg (by rw [byte_here (by decide)]; simp),
    if_pos ⟨(byte_here (by decide) u _).mpr rfl, (byte_next (by decide) (by decide) u _).mpr rfl⟩]

theorem regionAt_slash (u r : List Char) : regionAt (String.ofList (u ++ '/' :: '*' :: r)) (size u) =
    some <$> blockCommentAt (String.ofList (u ++ '/' :: '*' :: r)) (size u) := by
  rw [regionAt, if_neg (by rw [byte_here (by decide)]; simp),
    if_neg (by rw [byte_here (by decide)]; simp), if_neg (by rw [byte_here (by decide)]; simp),
    if_pos ⟨(byte_here (by decide) u _).mpr rfl, (byte_next (by decide) (by decide) u _).mpr rfl⟩]

/-- A region that is whole is found where it begins. -/
theorem regionAt_of_isWhole {seg : Segment} {behind : List Char} (hbare : ∀ t, seg ≠ .bare t)
    (h : seg.IsWhole behind) (u : List Char) :
    regionAt (String.ofList (u ++ (seg.source ++ behind))) (size u) =
      .ok (some (size (u ++ seg.source), seg)) := by
  cases seg with
  | bare t => exact absurd rfl (hbare t)
  | literal body =>
    have hsize : size (u ++ (Segment.literal body).source) = size u + 1 + size body + 1 := by
      rw [Segment.source, size_append, size_quoted (by decide)]
      omega
    rw [Segment.source_literal_append, regionAt_quote, literalAt_of_paired h.1 h.2, hsize]
    rfl
  | verbatim v =>
    rcases h with ⟨name, rfl, hname, hbehind⟩ | ⟨body, rfl, hbody, hbehind⟩ | ⟨body, rfl, hbody⟩
    · have hsize : size (u ++ ('"' :: name ++ ['"'])) = size u + 1 + size name + 1 := by
        rw [size_append, size_quoted (by decide)]
        omega
      rw [Segment.source_identifier_append, regionAt_doubleQuote, identifierAt_of_paired hname hbehind,
        Segment.source, hsize]
      rfl
    · have hline : '\n' ∉ '-' :: '-' :: body := by simpa using hbody
      have hregion := regionAt_minus u (body ++ behind)
      have hcomment := lineCommentAt_of_line hline hbehind u
      rw [List.cons_append, List.cons_append] at hcomment
      rw [Segment.source, List.cons_append, List.cons_append, hregion, hcomment, size_append]
      rfl
    · have hsize : size (u ++ ('/' :: '*' :: body ++ ['*', '/'])) = size u + 2 + size body + 2 := by
        rw [size_append, size_blockComment]
        omega
      rw [Segment.source_blockComment_append, regionAt_slash, blockCommentAt_of_closed hbody,
        Segment.source, hsize]
      rfl

/-- A region that is never closed is found out where it begins. -/
theorem regionAt_of_neverCloses {region : Region} {s : List Char} (h : Segment.NeverCloses region s)
    (u : List Char) : regionAt (String.ofList (u ++ s)) (size u) = .error (.unclosed region) := by
  cases region with
  | literal =>
    obtain ⟨body, rfl, hbody⟩ := h
    rw [regionAt_quote, literalAt, closing_of_unclosed (by decide) hbody]
    rfl
  | identifier =>
    obtain ⟨body, rfl, hbody⟩ := h
    rw [regionAt_doubleQuote, identifierAt, closing_of_unclosed (by decide) hbody]
    rfl
  | comment =>
    obtain ⟨body, rfl, hbody⟩ := h
    rw [regionAt_slash, blockCommentAt_of_unclosed hbody]
    rfl

/-- No region begins at a byte of a character that begins nothing. -/
theorem regionAt_of_isPlain {c : Char} {r : List Char} (h : Segment.IsPlain c r.head?) (u : List Char)
    {k : Nat} (hk : k < c.utf8Size) :
    regionAt (String.ofList (u ++ c :: r)) (size u + k) = .ok none := by
  have hhere {q : Char} (hq : q.toNat < 128)
      (hbyte : (bytes (String.ofList (u ++ c :: r)))[size u + k]? = some q.toUInt8) : c = q := by
    rw [getElem?_bytes_append, getElem?_bytes_cons hk] at hbyte
    exact eq_of_mem_utf8EncodeChar hq (List.mem_of_getElem? hbyte)
  have hnext {q : Char} (hc : c.toNat < 128) (hq : q.toNat < 128)
      (hbyte : (bytes (String.ofList (u ++ c :: r)))[size u + k + 1]? = some q.toUInt8) :
      r.head? = some q := by
    rw [utf8Size_ascii hc, Nat.lt_one_iff] at hk
    subst hk
    exact (byte_next hc hq u r).mp hbyte
  rw [regionAt, if_neg fun hq => h.ne_quote (hhere (by decide) hq),
    if_neg fun hq => h.ne_doubleQuote (hhere (by decide) hq), if_neg, if_neg]
  · rintro ⟨hslash, hstar⟩
    have hc := hhere (by decide) hslash
    exact h.no_blockComment hc (hnext (by rw [hc]; decide) (by decide) hstar)
  · rintro ⟨hminus, hminus'⟩
    have hc := hhere (by decide) hminus
    exact h.no_lineComment hc (hnext (by rw [hc]; decide) (by decide) hminus')

/-! ### Steps and runs -/

theorem run_of_ok {text : String} {cursor next : Cursor} (hlt : cursor.index < text.utf8ByteSize)
    (h : step text cursor = .ok next) (steps : Nat) :
    run text (steps + 1) cursor = run text steps next := by
  rw [run, if_pos hlt, h]

theorem run_of_error {text : String} {cursor : Cursor} {fault : Fault}
    (hlt : cursor.index < text.utf8ByteSize) (h : step text cursor = .error fault) (steps : Nat) :
    run text (steps + 1) cursor = some (.error fault) := by
  rw [run, if_pos hlt, h]

theorem index_lt (u : List Char) {s : List Char} (hs : s ≠ []) :
    size u < (String.ofList (u ++ s)).utf8ByteSize := by
  have hpos := size_pos hs
  rw [← size, size_append]
  omega

/-- Over a character that begins nothing the cursor advances byte by byte. -/
theorem run_of_isPlain {c : Char} {r : List Char} (h : Segment.IsPlain c r.head?) (u : List Char)
    (steps bareStart : Nat) (found : List Segment) :
    run (String.ofList (u ++ c :: r)) (steps + c.utf8Size) ⟨size u, bareStart, found⟩ =
      run (String.ofList (u ++ c :: r)) steps ⟨size (u ++ [c]), bareStart, found⟩ := by
  -- Behind `k` steps the cursor stands inside the character; nothing is sliced there.
  have hbytes (k : Nat) (hk : k ≤ c.utf8Size) (steps : Nat) :
      run (String.ofList (u ++ c :: r)) (steps + k) ⟨size u, bareStart, found⟩ =
        run (String.ofList (u ++ c :: r)) steps ⟨size u + k, bareStart, found⟩ := by
    induction k generalizing steps with
    | zero => rfl
    | succ k ih =>
      have hlt : size u + k < (String.ofList (u ++ c :: r)).utf8ByteSize := by
        have hsize := size_append u (c :: r)
        rw [size_cons] at hsize
        rw [← size, hsize]
        omega
      have hnone := regionAt_of_isPlain h u (Nat.lt_of_succ_le hk)
      have hstep : step (String.ofList (u ++ c :: r)) ⟨size u + k, bareStart, found⟩ =
          .ok ⟨size u + k + 1, bareStart, found⟩ := bind_eq_ok_iff.mpr ⟨_, hnone, rfl⟩
      rw [show steps + (k + 1) = steps + 1 + k by omega, ih (by omega), run_of_ok hlt hstep,
        Nat.add_assoc]
  rw [hbytes c.utf8Size (Nat.le_refl _), size_append, size_cons, size_nil, Nat.add_zero]

/-- The bare text between two characters comes behind the segments, if there is any. -/
theorem withBare_append (u t w : List Char) (found : List Segment) :
    withBare (String.ofList (u ++ t ++ w)) (size u) (size (u ++ t)) found =
      .ok (found ++ Segment.afterBare t []) := by
  rw [withBare, Segment.afterBare]
  by_cases ht : t = []
  · subst ht
    rw [if_neg (by rw [List.append_nil]; exact Nat.lt_irrefl _), if_pos rfl, List.append_nil]
    rfl
  · have hlt : size u < size (u ++ t) := by
      have hpos := size_pos ht
      rw [size_append]
      omega
    rw [if_pos hlt, if_neg ht]
    refine bind_eq_ok_iff.mpr ⟨_, slice_of_eq u t w rfl rfl (size_append u t), ?_⟩
    rw [String.toList_ofList]
    rfl

/-- Where a region that is whole begins, the cursor goes on behind it. -/
theorem step_of_isWhole {seg : Segment} {behind : List Char} (hbare : ∀ t, seg ≠ .bare t)
    (h : seg.IsWhole behind) (u t : List Char) (found : List Segment) :
    step (String.ofList (u ++ t ++ (seg.source ++ behind))) ⟨size (u ++ t), size u, found⟩ =
      .ok ⟨size (u ++ t ++ seg.source), size (u ++ t ++ seg.source),
        found ++ Segment.afterBare t [] ++ [seg]⟩ :=
  bind_eq_ok_iff.mpr ⟨_, regionAt_of_isWhole hbare h (u ++ t),
    bind_eq_ok_iff.mpr ⟨_, withBare_append u t _ found, rfl⟩⟩

theorem run_at_end (u t : List Char) (steps : Nat) (found : List Segment) :
    run (String.ofList (u ++ t)) steps ⟨size (u ++ t), size u, found⟩ =
      some (.ok (found ++ Segment.afterBare t [])) := by
  have hbare := withBare_append u t [] found
  rw [List.append_nil] at hbare
  cases steps with
  | zero => exact (if_neg (Nat.lt_irrefl _)).trans (congrArg some hbare)
  | succ steps => exact (if_neg (Nat.lt_irrefl _)).trans (congrArg some hbare)

theorem afterBare_append (t : List Char) (segments segments' : List Segment) :
    Segment.afterBare t segments ++ segments' = Segment.afterBare t (segments ++ segments') := by
  rw [Segment.afterBare, Segment.afterBare]
  split
  · rfl
  · rfl

/-- The segments found before come in front of those of the rest, and its bare text behind the bare text that
the cursor has passed. -/
def joined (found : List Segment) (t : List Char) (scanned : List Char × List Segment) : List Segment :=
  found ++ Segment.afterBare (t ++ scanned.1) scanned.2

/-- From any cursor between two characters a run finds the segments of the rest. -/
theorem run_eq_scan (u t s : List Char) {steps : Nat} (hsteps : size s ≤ steps) (found : List Segment) :
    run (String.ofList (u ++ t ++ s)) steps ⟨size (u ++ t), size u, found⟩ =
      some (((Segment.scan .bare s).map (joined found t)).mapError .unclosed) := by
  -- A region is read in one step, a character in one step for each of its bytes, so the induction is on what
  -- is left; the steps that are left cover its bytes.
  induction hlen : s.length using Nat.strongRecOn generalizing s u t steps found with
  | ind k ih =>
    subst hlen
    cases Segment.front s with
    | nil =>
      have hjoined : joined found t ([], []) = found ++ Segment.afterBare t [] := by
        rw [joined, List.append_nil]
      rw [List.append_nil, run_at_end, ← hjoined]
      rfl
    | @plain c r hc =>
      rw [size_cons] at hsteps
      obtain ⟨n, rfl⟩ := Nat.exists_eq_add_of_le' (Nat.le_of_add_right_le hsteps)
      rw [run_of_isPlain hc, List.append_cons, List.append_assoc u,
        ih r.length (by simp) u (t ++ [c]) r (by omega) found rfl, Segment.scan_bare_cons hc]
      cases Segment.scan .bare r with
      | error region => rfl
      | ok scanned => simp [Except.map, joined, Segment.extend]
    | @whole seg behind hbare h =>
      have hne := h.source_ne_nil hbare
      have hpos := size_pos hne
      have hlt : behind.length < (seg.source ++ behind).length := by
        have hlength := List.length_pos_iff.mpr hne
        rw [List.length_append]
        omega
      rw [size_append] at hsteps
      obtain ⟨n, rfl⟩ := Nat.exists_eq_add_of_le' (show 1 ≤ steps by omega)
      have hrest := ih behind.length hlt (u ++ t ++ seg.source) [] behind (show size behind ≤ n by omega)
        (found ++ Segment.afterBare t [] ++ [seg]) rfl
      rw [List.append_nil, List.append_assoc _ seg.source] at hrest
      rw [run_of_ok (index_lt _ (by simp [hne])) (step_of_isWhole hbare h u t found), hrest,
        Segment.scan_of_isWhole hbare h, Segment.split]
      cases Segment.scan .bare behind with
      | error region => rfl
      | ok scanned => simp [Except.map, joined, afterBare_append]
    | unclosed region h =>
      have hpos := size_pos h.ne_nil
      obtain ⟨n, rfl⟩ := Nat.exists_eq_add_of_le' (show 1 ≤ steps by omega)
      have hstep : step (String.ofList (u ++ t ++ s)) ⟨size (u ++ t), size u, found⟩ =
          .error (.unclosed region) :=
        bind_eq_error_iff.mpr (.inl (regionAt_of_neverCloses h (u ++ t)))
      rw [run_of_error (index_lt _ h.ne_nil) hstep, Segment.scan_of_neverCloses h]
      rfl

/-- A run takes at most one step for each byte, takes no slice that is out of range or cuts a character, and
finds the segments of the text or the region that it never closes. -/
theorem run_start (text : String) :
    run text text.utf8ByteSize .start = some ((Segment.split text.toList).mapError .unclosed) := by
  have hsize : size text.toList ≤ text.utf8ByteSize := Nat.le_of_eq (by rw [size, String.ofList_toList])
  have hrun := run_eq_scan [] [] text.toList hsize []
  rw [List.append_nil, List.nil_append, String.ofList_toList] at hrun
  exact hrun

example : run "é''''--/*" 10 .start =
    some (.ok [.bare ['é'], .literal ['\'', '\''], .verbatim ['-', '-', '/', '*']]) := by cbv

end ByteScan

/-- The segments of a text are a lossless reading of it. They are found on the bytes in at most one step for
each byte, where every slice that is taken lies in the text and between two characters. There are none exactly
if, behind segments that are whole, the text opens a literal, a quoted identifier or a block comment and never
closes it; otherwise they are the one way to cut the text into segments that are whole. -/
theorem Segment.split_lossless (text : String) :
    ByteScan.run text text.utf8ByteSize .start = some ((split text.toList).mapError .unclosed) ∧
    (∀ region, split text.toList = .error region ↔
      ∃ segments rest, IsSegmentation text.toList segments rest ∧ NeverCloses region rest) ∧
    (∀ segments, split text.toList = .ok segments ↔ IsSegmentation text.toList segments []) :=
  ⟨ByteScan.run_start text, fun _ => split_eq_error_iff_neverCloses, fun _ => split_eq_ok_iff⟩

end SchemaQuery
