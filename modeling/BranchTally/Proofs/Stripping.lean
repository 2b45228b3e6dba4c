-- SUMMARY: To strip a line of its comments is to cut the reported spans out of it, where every comment sign is live and every block is closed.
import Mathlib
import BranchTally.Proofs.Redaction.Blank

/-!
# Stripped lines and spans

The reader that strips a line knows nothing of strings, and the one that reports spans reads an open block
to the end of the line. Where no sign of a comment is string content and every block is closed, both take a
line apart into the same pieces: code, closed blocks, and a line comment at the end.
-/

namespace BranchTally

/-! ## Signs and closed blocks -/

/-- A comment sign begins at the position, in a string or not. -/
def SignAt (line : Line) (i : Nat) : Prop :=
  (line)[i]? = some '/' ∧ ((line)[i + 1]? = some '/' ∨ (line)[i + 1]? = some '*')

instance (line : Line) (i : Nat) : Decidable (SignAt line i) :=
  inferInstanceAs (Decidable (_ ∧ _))

/-- The span begins with the sign of a block. -/
def Span.IsBlock (s : Span) (line : Line) : Prop := (line)[s.start + 1]? = some '*'

/-- The span ends with a `*/` that stands behind the sign. -/
def Span.IsClosed (s : Span) (line : Line) : Prop :=
  s.start + 4 ≤ s.stop ∧ (line)[s.stop - 2]? = some '*' ∧ (line)[s.stop - 1]? = some '/'

instance (s : Span) (line : Line) : Decidable (s.IsBlock line) :=
  inferInstanceAs (Decidable (_ = _))

instance (s : Span) (line : Line) : Decidable (s.IsClosed line) :=
  inferInstanceAs (Decidable (_ ∧ _))

/-! ## Cutting spans out -/

/-- The characters of a text that lie in none of the spans; the first one stands at position `pos`. -/
def outside (spans : List Span) (pos : Nat) (text : Line) : Line :=
  ((text.zipIdx pos).filter fun x => !spans.any (·.contains x.2)).map Prod.fst

section

variable {spans : List Span} {span : Span} {pos : Nat}

theorem outside_cons (h : ∀ s ∈ spans, pos < s.start) (c : Char) (rest : Line) :
    outside spans pos (c :: rest) = c :: outside spans (pos + 1) rest := by
  have hnone : spans.any (·.contains pos) = false := by
    rw [List.any_eq_false]
    intro s hs hcontains
    have := h s hs
    simp only [Span.contains, Bool.and_eq_true, decide_eq_true_eq] at hcontains
    omega
  rw [outside, List.zipIdx_cons, List.filter_cons_of_pos (by simp [hnone]), List.map_cons, outside]

theorem outside_covered (hstart : span.start ≤ pos) {text : Line} (hstop : pos + text.length ≤ span.stop)
    (rest : Line) :
    outside (span :: spans) pos (text ++ rest) = outside (span :: spans) (pos + text.length) rest := by
  induction text generalizing pos with
  | nil => rfl
  | cons c text ih =>
    rw [List.length_cons] at hstop
    have hcontains : span.contains pos = true := by
      simp only [Span.contains, Bool.and_eq_true, decide_eq_true_eq]
      omega
    have hrest := ih (show span.start ≤ pos + 1 by omega) (show pos + 1 + text.length ≤ span.stop by omega)
    rw [List.length_cons, ← Nat.add_assoc, Nat.add_right_comm, ← hrest]
    rw [outside, List.cons_append, List.zipIdx_cons, List.filter_cons_of_neg (by simp [hcontains]), outside]

theorem outside_behind (h : span.stop ≤ pos) (text : Line) :
    outside (span :: spans) pos text = outside spans pos text := by
  rw [outside, outside]
  congr 1
  refine List.filter_congr fun x hx => ?_
  have hpos : pos ≤ x.2 := (List.mem_zipIdx hx).1
  have hnot : span.contains x.2 = false := by
    simp only [Span.contains, Bool.and_eq_false_iff, decide_eq_false_iff_not]
    omega
  rw [List.any_cons, hnot, Bool.false_or]

end

/-! ## Pieces of a line -/

/-- A masked text that is taken apart into code, closed blocks, and a line comment at the end. -/
inductive HasPieces : List (Char × Bool) → Prop where
  | nil : HasPieces []
  | code {x : Char × Bool} {rest : List (Char × Bool)}
      (hsign : x.1 = '/' → ∀ y ∈ rest.head?, y.1 ≠ '/' ∧ y.1 ≠ '*') (hrest : HasPieces rest) :
      HasPieces (x :: rest)
  | block {content behind : List (Char × Bool)} {star close slash : Bool}
      (hcontent : (content.map Prod.fst).IsChain fun a b => ¬ (a = '*' ∧ b = '/'))
      (hbehind : HasPieces behind) :
      HasPieces (('/', false) :: ('*', star) :: (content ++ ('*', close) :: ('/', slash) :: behind))
  | line {slash : Bool} {rest : List (Char × Bool)} : HasPieces (('/', false) :: ('/', slash) :: rest)

/-- Stripping a text of which the pieces are known leaves what no span covers. -/
theorem HasPieces.stripCommentsFrom {cells : List (Char × Bool)} (h : HasPieces cells)
    (hline : '\n' ∉ cells.map Prod.fst) (pos : Nat) :
    stripCommentsFrom false (cells.map Prod.fst) =
      outside (commentSpansFrom 0 none pos cells) pos (cells.map Prod.fst) := by
  induction h generalizing pos with
  | nil => rfl
  | @code x rest hsign hrest ih =>
    have hmark : x.1 = '/' →
        (rest.map Prod.fst).head? ≠ some '/' ∧ (rest.map Prod.fst).head? ≠ some '*' := by
      intro hslash
      have hnext := hsign hslash
      cases rest with
      | nil => simp
      | cons y rest => simpa using hnext y rfl
    rw [List.map_cons, List.mem_cons, not_or] at hline
    rw [List.map_cons, stripCommentsFrom_code hmark, commentSpansFrom_code hsign, ih hline.2 (pos + 1),
      outside_cons]
    -- the spans behind the character begin behind it
    intro s hs
    rcases start_of_mem_commentSpansFrom hs with hopen | hle
    · exact absurd hopen (by simp)
    · simp only [Option.isSome_none, Bool.false_eq_true, if_false] at hle
      omega
  | @block content behind star close slash hcontent hbehind ih =>
    have htext : (('/', false) :: ('*', star) :: (content ++ ('*', close) :: ('/', slash) :: behind)).map
        Prod.fst = '/' :: '*' :: (content.map Prod.fst ++ '*' :: '/' :: behind.map Prod.fst) := by
      simp
    have hspans : commentSpansFrom 0 none pos
        (('/', false) :: ('*', star) :: (content ++ ('*', close) :: ('/', slash) :: behind)) =
          ⟨pos, pos + 2 + content.length + 2⟩ ::
            commentSpansFrom 0 none (pos + 2 + content.length + 2) behind := by
      rw [← @commentSpansFrom_block content behind pos (pos + 2) close slash hcontent]
      simp [commentSpansFrom]
    rw [htext] at hline ⊢
    simp only [List.mem_cons, List.mem_append, not_or] at hline
    obtain ⟨hcloses, hstrip⟩ :=
      @stripCommentsFrom_blockContent _ (behind.map Prod.fst) hcontent hline.2.2.1
    have hcover : '/' :: '*' :: (content.map Prod.fst ++ '*' :: '/' :: behind.map Prod.fst) =
        ('/' :: '*' :: (content.map Prod.fst ++ ['*', '/'])) ++ behind.map Prod.fst := by simp
    have hlength : pos + ('/' :: '*' :: (content.map Prod.fst ++ ['*', '/'])).length =
        pos + 2 + content.length + 2 := by
      simp only [List.length_cons, List.length_append, List.length_map, List.length_nil]
      omega
    rw [stripCommentsFrom_block hcloses, hstrip, ih hline.2.2.2.2.2, hspans, hcover,
      outside_covered (Nat.le_refl pos) hlength.le, hlength, outside_behind (Nat.le_refl _)]
  | @line slash rest =>
    have hall : pos + ('/' :: '/' :: rest.map Prod.fst).length ≤ pos + 1 + (('/', slash) :: rest).length := by
      simp only [List.length_cons, List.length_map]
      omega
    have hspans : commentSpansFrom 0 none pos (('/', false) :: ('/', slash) :: rest) =
        [⟨pos, pos + 1 + (('/', slash) :: rest).length⟩] := by
      simp [commentSpansFrom]
    have hcut := @outside_covered [] ⟨pos, pos + 1 + (('/', slash) :: rest).length⟩ pos (Nat.le_refl pos)
      _ hall []
    rw [List.append_nil] at hcut
    rw [List.map_cons, List.mem_cons, not_or] at hline
    rw [hspans, List.map_cons, stripCommentsFrom_line rfl hline.2, List.map_cons, hcut]
    rfl

/-- A text with a `*/` is cut in front of the first one. -/
theorem exists_content_of_close {cells : List (Char × Bool)} {i : Nat}
    (hstar : (cells[i]?).map Prod.fst = some '*') (hslash : (cells[i + 1]?).map Prod.fst = some '/') :
    ∃ content close slash behind, cells = content ++ ('*', close) :: ('/', slash) :: behind ∧
      (content.map Prod.fst).IsChain fun a b => ¬ (a = '*' ∧ b = '/') := by
  induction cells generalizing i with
  | nil => simp at hstar
  | cons x cells ih =>
    by_cases hfirst : x.1 = '*' ∧ (cells[0]?).map Prod.fst = some '/'
    · obtain ⟨hx, hnext⟩ := hfirst
      cases cells with
      | nil => simp at hnext
      | cons y cells =>
        obtain ⟨c, close⟩ := x
        obtain ⟨d, slash⟩ := y
        obtain rfl : c = '*' := hx
        obtain rfl : d = '/' := Option.some.inj hnext
        exact ⟨[], close, slash, cells, rfl, List.IsChain.nil⟩
    · cases i with
      | zero => exact absurd ⟨Option.some.inj hstar, hslash⟩ hfirst
      | succ i =>
        obtain ⟨content, close, slash, behind, rfl, hcontent⟩ := ih hstar hslash
        refine ⟨x :: content, close, slash, behind, rfl, ?_⟩
        cases content with
        | nil => exact List.IsChain.singleton _
        | cons y content =>
          exact List.isChain_cons_cons.2 ⟨fun h => hfirst ⟨h.1, congrArg some h.2⟩, hcontent⟩

/-- A block that is open is reported. -/
theorem exists_mem_commentSpansFrom_opened (skip start pos : Nat) (cells : List (Char × Bool)) :
    ∃ span ∈ commentSpansFrom skip (some start) pos cells, span.start = start := by
  induction cells generalizing skip pos with
  | nil => exact ⟨⟨start, pos⟩, by simp [commentSpansFrom], rfl⟩
  | cons x cells ih =>
    cases skip with
    | succ skip => exact ih skip (pos + 1)
    | zero =>
      rw [commentSpansFrom]
      split
      · exact ⟨⟨start, pos + 2⟩, List.mem_cons_self, rfl⟩
      · exact ih 0 (pos + 1)

section

variable {line : Line}

theorem getElem?_drop_maskedCells (line : Line) (pos i : Nat) :
    (((maskedCells line).drop pos)[i]?).map Prod.fst = (line)[pos + i]? := by
  rw [List.getElem?_drop, getElem?_maskedCells]

/-- A live sign begins with a live character. -/
theorem eq_false_of_sign (hlive : ∀ i < line.length, SignAt line i → (literalMask line)[i]? = some false)
    {pos : Nat} {masked : Bool} {y : Char × Bool} {more : List (Char × Bool)}
    (hcells : (maskedCells line).drop pos = ('/', masked) :: y :: more) (hy : y.1 = '/' ∨ y.1 = '*') :
    masked = false := by
  have hchar (i : Nat) := getElem?_drop_maskedCells line pos i
  rw [hcells] at hchar
  have hslash : (line)[pos]? = some '/' := (hchar 0).symm
  have hnext : (line)[pos + 1]? = some y.1 := (hchar 1).symm
  have hlt : pos < line.length := (List.getElem?_eq_some_iff.1 hslash).1
  have hmark := hlive pos hlt ⟨hslash, by simpa [hnext] using hy⟩
  have hcell : (maskedCells line)[pos]? = some ('/', masked) := by
    rw [← Nat.add_zero pos, ← List.getElem?_drop, hcells, List.getElem?_cons_zero]
  exact Option.some.inj ((List.getElem?_zip_eq_some.1 hcell).2.symm.trans hmark)

/-- Behind the sign of a block that is closed wherever it is reported, its content ends at a `*/`. -/
theorem exists_content_of_isClosed {pos : Nat} {star : Bool} {more : List (Char × Bool)}
    (hcells : (maskedCells line).drop pos = ('/', false) :: ('*', star) :: more)
    (hclosed : ∀ span ∈ commentSpansFrom 0 (some pos) (pos + 2) more,
      span.IsBlock line → span.IsClosed line) :
    ∃ content close slash behind, more = content ++ ('*', close) :: ('/', slash) :: behind ∧
      (content.map Prod.fst).IsChain fun a b => ¬ (a = '*' ∧ b = '/') := by
  have hchar (i : Nat) := getElem?_drop_maskedCells line pos i
  rw [hcells] at hchar
  -- the block that opens here is reported, so it is closed
  obtain ⟨span, hspan, hstart⟩ := exists_mem_commentSpansFrom_opened 0 pos (pos + 2) more
  obtain ⟨hlong, hstar, hslash⟩ := hclosed span hspan (by rw [Span.IsBlock, hstart]; exact (hchar 1).symm)
  obtain ⟨i, hi⟩ := Nat.exists_eq_add_of_le (show pos + 4 ≤ span.stop by omega)
  have hmore (j : Nat) : ((more)[j]?).map Prod.fst = (line)[pos + (j + 2)]? := hchar (j + 2)
  refine @exists_content_of_close more i ?_ ?_
  · rw [hmore, ← hstar]
    congr 1
    omega
  · rw [hmore, ← hslash]
    congr 1
    omega

/-- Behind each place between its pieces, a line in which every sign is live and every block that is
reported from there on is closed has pieces. -/
theorem hasPieces_drop (hlive : ∀ i < line.length, SignAt line i → (literalMask line)[i]? = some false)
    {pos : Nat} (hclosed : ∀ span ∈ commentSpansFrom 0 none pos ((maskedCells line).drop pos),
      span.IsBlock line → span.IsClosed line) :
    HasPieces ((maskedCells line).drop pos) := by
  induction hn : line.length - pos using Nat.strong_induction_on generalizing pos with
  | _ n ih =>
  have htail (k : Nat) : ((maskedCells line).drop pos).drop k = (maskedCells line).drop (pos + k) :=
    List.drop_drop
  cases hcells : (maskedCells line).drop pos with
  | nil => exact .nil
  | cons x rest =>
    rw [hcells] at htail hclosed
    obtain ⟨c, masked⟩ := x
    have hlt : pos < line.length := by
      by_contra hge
      rw [List.drop_eq_nil_of_le (by rw [length_maskedCells]; omega)] at hcells
      cases hcells
    by_cases hsign : c = '/' → ∀ y ∈ rest.head?, y.1 ≠ '/' ∧ y.1 ≠ '*'
    · have hrest := htail 1
      rw [List.drop_one, List.tail_cons] at hrest
      rw [commentSpansFrom_code hsign, hrest] at hclosed
      rw [hrest]
      refine .code (hrest ▸ hsign) (ih _ ?_ hclosed rfl)
      omega
    · simp only [not_forall, not_and_or, not_not] at hsign
      obtain ⟨rfl, ⟨d, masked'⟩, hhead, hd⟩ := hsign
      obtain ⟨more, rfl⟩ := List.head?_eq_some_iff.1 hhead
      obtain rfl := eq_false_of_sign hlive hcells hd
      rcases hd with rfl | rfl
      · exact .line
      · have hspans : commentSpansFrom 0 none pos (('/', false) :: ('*', masked') :: more) =
            commentSpansFrom 0 (some pos) (pos + 2) more := by
          simp [commentSpansFrom]
        rw [hspans] at hclosed
        obtain ⟨content, close, slash, behind, rfl, hcontent⟩ := exists_content_of_isClosed hcells hclosed
        have hbehind : behind = (maskedCells line).drop (pos + (content.length + 4)) := by
          rw [← htail, List.drop_succ_cons, List.drop_succ_cons, List.drop_length_add_append]
          rfl
        rw [commentSpansFrom_block hcontent, List.forall_mem_cons,
          show pos + 2 + content.length + 2 = pos + (content.length + 4) by omega, hbehind] at hclosed
        rw [hbehind]
        refine .block hcontent (ih _ ?_ hclosed.2 rfl)
        omega

/-- A line without line breaks is stripped by cutting out the spans that are reported, if no comment sign in
it is string content and every block that is reported is closed. -/
theorem stripComments_eq_outside (hline : '\n' ∉ line)
    (hlive : ∀ i < line.length, SignAt line i → (literalMask line)[i]? = some false)
    (hclosed : ∀ span ∈ commentSpans line, span.IsBlock line → span.IsClosed line) :
    stripComments line = outside (commentSpans line) 0 line := by
  have hpieces : HasPieces (maskedCells line) := @hasPieces_drop line hlive 0 hclosed
  have hstrip := hpieces.stripCommentsFrom (by rwa [map_fst_maskedCells]) 0
  rwa [map_fst_maskedCells] at hstrip

end

/-- Two blocks that touch, a string with a slash, a closing sign of its own and a line comment. -/
theorem stripComments_eq_outside_adjacent_blocks :
    let line := "/**//*/*/ a */ 'b/' //* c".toList
    '\n' ∉ line ∧ (∀ i < line.length, SignAt line i → (literalMask line)[i]? = some false) ∧
      (∀ span ∈ commentSpans line, span.IsBlock line → span.IsClosed line) ∧
      commentSpans line = [⟨0, 4⟩, ⟨4, 9⟩, ⟨20, 25⟩] ∧ stripComments line = " a */ 'b/' ".toList ∧
      outside (commentSpans line) 0 line = " a */ 'b/' ".toList := by
  intro line
  have hline : '\n' ∉ line := by decide
  have hlive : ∀ i < line.length, SignAt line i → (literalMask line)[i]? = some false := by decide
  have hspans : commentSpans line = [⟨0, 4⟩, ⟨4, 9⟩, ⟨20, 25⟩] := by decide
  have hclosed : ∀ span ∈ commentSpans line, span.IsBlock line → span.IsClosed line := by
    rw [hspans]
    decide
  have hstrip : stripComments line = " a */ 'b/' ".toList := by decide
  exact ⟨hline, hlive, hclosed, hspans, hstrip,
    (stripComments_eq_outside hline hlive hclosed).symm.trans hstrip⟩

end BranchTally
