-- SUMMARY: The colon search over a printed line does with each token what it should, whatever the layout.
import BranchTally.Proofs.Literal
import BranchTally.Proofs.Ternary.Colon

/-!
# The cells of printed lines

No token begins or ends inside quotes, so the mask of a line is put together from its tokens. Blanks,
names and quoted texts are passed over by the search. A question mark that is a token has no other
meaning, since an operand comes next.
-/

namespace BranchTally

open Text

/-! ## The mask of a printed line -/

theorem maskedCells_plain_append {text : Line} (h : ∀ c ∈ text, isQuoting c = false) (rest : Line) :
    maskedCells (text ++ rest) = (text.map fun c => (c, false)) ++ maskedCells rest := by
  rw [maskedCells, literalMask, QuoteState.mask_plain_append h, List.zip_append (by simp),
    zip_replicate_length]
  rfl

theorem maskedCells_quoted (q : QuotedText) (rest : Line) :
    maskedCells (q.quote :: (q.content ++ q.quote :: rest)) =
      (q.quote, false) :: (((q.content ++ [q.quote]).map fun c => (c, true)) ++ maskedCells rest) := by
  have hlength : q.content.length + 1 = (q.content ++ [q.quote]).length := by simp
  rw [maskedCells, literalMask, QuoteState.mask_quoted q.isQuote q.unquoted q.unescaped,
    List.zip_cons_cons, List.append_cons q.content, hlength, List.zip_append (by simp),
    zip_replicate_length]
  rfl

/-- The characters of the token with their mask. -/
def TernaryToken.cells : TernaryToken → List (Char × Bool)
  | .quoted q => (q.quote, false) :: ((q.content ++ [q.quote]).map fun c => (c, true))
  | t => t.text.map fun c => (c, false)

/-- The characters of the line with their mask. -/
def PrintedLine.cells (line : PrintedLine TernaryToken) : List (Char × Bool) :=
  (line.pieces.flatMap fun piece => (piece.gap.text.map fun c => (c, false)) ++ piece.token.cells) ++
    line.tail.text.map fun c => (c, false)

theorem PrintedLine.cells_cons (piece : Piece TernaryToken) (pieces : List (Piece TernaryToken))
    (tail : Gap) :
    (⟨piece :: pieces, tail⟩ : PrintedLine TernaryToken).cells =
      (piece.gap.text.map fun c => (c, false)) ++
        (piece.token.cells ++ (⟨pieces, tail⟩ : PrintedLine TernaryToken).cells) := by
  simp [cells]

/-- A class of characters without quotes and backslashes. -/
theorem not_isQuoting_of_class {p : Char → Bool} {c : Char}
    (h : ∀ d ∈ ['\\', '\'', '"', '\x60'], p d = false) (hc : p c = true) : isQuoting c = false := by
  rw [Bool.eq_false_iff]
  intro hquoting
  simp only [isQuoting, Bool.or_eq_true, decide_eq_true_eq, or_assoc] at hquoting
  exact Bool.false_ne_true ((h c (by simpa using hquoting)).symm.trans hc)

theorem Gap.isQuoting_eq_false (gap : Gap) : ∀ c ∈ gap.text, isQuoting c = false :=
  fun c hc => not_isQuoting_of_class (forall_mem_of_all (by decide)) (gap.blank c hc)

theorem Identifier.isQuoting_eq_false (n : Identifier) : ∀ c ∈ n.text, isQuoting c = false :=
  fun c hc => not_isQuoting_of_class (forall_mem_of_all (by decide)) (n.nameChars c hc)

theorem maskedCells_token (t : TernaryToken) (rest : Line) :
    maskedCells (t.text ++ rest) = t.cells ++ maskedCells rest := by
  cases t with
  | name n => exact maskedCells_plain_append n.isQuoting_eq_false rest
  | quoted q =>
    have hquoted := maskedCells_quoted q rest
    simpa [TernaryToken.text, TernaryToken.cells] using hquoted
  | opening b => exact maskedCells_plain_append (forall_mem_of_all (by cases b <;> decide)) rest
  | closing b => exact maskedCells_plain_append (forall_mem_of_all (by cases b <;> decide)) rest
  | comma => exact maskedCells_plain_append (forall_mem_of_all (by decide)) rest
  | question => exact maskedCells_plain_append (forall_mem_of_all (by decide)) rest
  | colon => exact maskedCells_plain_append (forall_mem_of_all (by decide)) rest

theorem maskedCells_text (line : PrintedLine TernaryToken) : maskedCells line.text = line.cells := by
  obtain ⟨pieces, tail⟩ := line
  induction pieces with
  | nil =>
    have htail := maskedCells_plain_append tail.isQuoting_eq_false []
    rwa [List.append_nil, show maskedCells [] = [] from rfl, List.append_nil] at htail
  | cons piece pieces ih =>
    rw [PrintedLine.text_cons, maskedCells_plain_append piece.gap.isQuoting_eq_false,
      PrintedLine.cells_cons, ← ih]
    exact congrArg _ (maskedCells_token piece.token _)

theorem TernaryToken.map_fst_cells (t : TernaryToken) : t.cells.map Prod.fst = t.text := by
  cases t <;> simp [cells, text, Function.comp_def]

theorem PrintedLine.map_fst_cells (line : PrintedLine TernaryToken) :
    line.cells.map Prod.fst = line.text := by
  obtain ⟨pieces, tail⟩ := line
  induction pieces with
  | nil => simp [cells, text, Function.comp_def]
  | cons piece pieces ih =>
    rw [cells_cons, text_cons, List.map_append, List.map_append, ih, piece.token.map_fst_cells,
      List.map_map]
    simp [Function.comp_def, Printable.text]

/-! ## Question marks before operands -/

/-- What follows a question mark leaves it plain. -/
def LeavesPlain (s : Line) : Prop :=
  ∀ c, (skipBlanks s).head? = some c → c ≠ '.' ∧ c ≠ '?' ∧ c ≠ ':'

theorem Question.of_eq_plain {s : Line} (h : LeavesPlain s) (before : Option Char) :
    Question.of before s = .plain := by
  unfold Question.of
  split
  · next rest => exact absurd rfl (h '.' (by rw [skipBlanks_cons_of_not_isBlank (by decide)]; rfl)).1
  · next rest =>
    exact absurd rfl (h '?' (by rw [skipBlanks_cons_of_not_isBlank (by decide)]; rfl)).2.1
  · next rest =>
    exact absurd rfl (h '?' (by rw [skipBlanks_cons_of_not_isBlank (by decide)]; rfl)).2.1
  · have hcolon : spacedChar? ':' s = none := by
      rw [Option.eq_none_iff_forall_ne_some]
      intro rest hrest
      exact (h ':' (by rw [char?_eq_some_iff.1 hrest]; rfl)).2.2 rfl
    simp [isOptionalMarker, hcolon]

theorem TernaryToken.exists_cons_of_startsOperand {t : TernaryToken} (h : t.startsOperand = true) :
    ∃ c rest, t.text = c :: rest ∧ isBlank c = false ∧ c ≠ '.' ∧ c ≠ '?' ∧ c ≠ ':' := by
  cases t with
  | name n =>
    obtain ⟨c, rest, hname⟩ := List.exists_cons_of_ne_nil n.ne_nil
    have hc : isNameChar c = true := n.nameChars c (by simp [hname])
    exact ⟨c, rest, hname, isBlank_of_isNameChar hc, ne_of_isNameChar hc (by decide),
      ne_of_isNameChar hc (by decide), ne_of_isNameChar hc (by decide)⟩
  | quoted q =>
    refine ⟨q.quote, q.content ++ [q.quote], rfl, ?_⟩
    rcases q.isQuote with hq | hq <;> rw [hq] <;> decide
  | opening b => cases b <;> exact ⟨_, _, rfl, by decide⟩
  | _ => simp [startsOperand] at h

theorem leavesPlain_text {pieces : List (Piece TernaryToken)} {tail : Gap}
    (h : (TernaryToken.question :: pieces.map Piece.token).IsChain TernaryToken.Meets) :
    LeavesPlain (⟨pieces, tail⟩ : PrintedLine TernaryToken).text := by
  intro c hc
  obtain ⟨⟨gap, t⟩, rest, rfl, hfirst⟩ := PrintedLine.exists_piece_of_head? hc
  have hstart : t.startsOperand = true := (List.isChain_cons_cons.1 h).1 rfl
  obtain ⟨d, text, htext, hblank, hd⟩ := TernaryToken.exists_cons_of_startsOperand hstart
  change (skipBlanks (t.text ++ _)).head? = some c at hfirst
  rw [htext, List.cons_append, skipBlanks_cons_of_not_isBlank hblank] at hfirst
  obtain rfl : d = c := by simpa using hfirst
  exact hd

/-! ## The search over a printed line -/

/-- The characters that the search reacts to. -/
def searchedChars : List Char := ['?', ':', '(', ')', '{', '}', '[', ']', ',', ';']

/-- The search reacts to the character. -/
def isSearched (c : Char) : Bool := searchedChars.contains c

theorem search_of_not_isSearched {rule : ColonRule} {state : ColonState}
    (hstate : state.depth.below rule.target = false) {cell : Cell}
    (hcell : cell.masked = true ∨ isSearched cell.char = false) (rest : List Cell) :
    rule.search 0 state (cell :: rest) = rule.search 0 state rest := by
  cases hmasked : cell.masked with
  | true => simp [ColonRule.search, hmasked]
  | false =>
    have hchar : isSearched cell.char = false := by simpa [hmasked] using hcell
    simp only [isSearched, searchedChars, List.contains_eq_mem, List.mem_cons, List.not_mem_nil, or_false,
      decide_eq_false_iff_not, not_or] at hchar
    have hstep : state.depth.step cell.char = state.depth := by
      unfold Depth.step
      split <;> simp_all
    have hstop : rule.stopsAt state cell.char = false := by
      simp [ColonRule.stopsAt, hchar]
    simp [ColonRule.search, hmasked, hchar, hstep, hstate, hstop]

theorem search_append_of_not_isSearched {rule : ColonRule} {state : ColonState}
    (hstate : state.depth.below rule.target = false) {skipped : List (Char × Bool)}
    (h : ∀ x ∈ skipped, x.2 = true ∨ isSearched x.1 = false) (before : Option Char)
    (rest : List (Char × Bool)) :
    ∃ before', rule.search 0 state (cellsFrom before (skipped ++ rest)) =
      rule.search 0 state (cellsFrom before' rest) := by
  induction skipped generalizing before with
  | nil => exact ⟨before, rfl⟩
  | cons x skipped ih =>
    obtain ⟨before', hrest⟩ := ih (fun y hy => h y (List.mem_cons_of_mem _ hy)) (some x.1)
    refine ⟨before', ?_⟩
    rw [List.cons_append, cellsFrom, search_of_not_isSearched hstate (h x List.mem_cons_self), hrest]

theorem Gap.not_isSearched (gap : Gap) :
    ∀ x ∈ gap.text.map (fun c => (c, false)), x.2 = true ∨ isSearched x.1 = false := by
  intro x hx
  obtain ⟨c, hc, rfl⟩ := List.mem_map.1 hx
  refine Or.inr (Bool.eq_false_iff.2 fun hsearched => ?_)
  have hnone : ∀ d ∈ searchedChars, isBlank d = false := forall_mem_of_all (by decide)
  exact gap.not_mem (hnone c (List.contains_iff_mem.1 hsearched)) hc

theorem Identifier.not_isSearched (n : Identifier) :
    ∀ x ∈ (TernaryToken.name n).cells, x.2 = true ∨ isSearched x.1 = false := by
  intro x hx
  obtain ⟨c, hc, rfl⟩ := List.mem_map.1 hx
  refine Or.inr (Bool.eq_false_iff.2 fun hsearched => ?_)
  have hnone : ∀ d ∈ searchedChars, isNameChar d = false := forall_mem_of_all (by decide)
  exact n.not_mem (hnone c (List.contains_iff_mem.1 hsearched)) hc

theorem QuotedText.not_isSearched (q : QuotedText) :
    ∀ x ∈ (TernaryToken.quoted q).cells, x.2 = true ∨ isSearched x.1 = false := by
  intro x hx
  rcases List.mem_cons.1 hx with rfl | hx
  · refine Or.inr ?_
    rcases q.isQuote with hq | hq <;> rw [hq] <;> decide
  · obtain ⟨c, -, rfl⟩ := List.mem_map.1 hx
    exact Or.inl rfl

theorem search_bracket {rule : ColonRule} (state : ColonState) {c : Char}
    (hc : c ∈ ['(', ')', '{', '}', '[', ']']) (before : Option Char) (rest : List (Char × Bool)) :
    rule.search 0 state (cellsFrom before ((c, false) :: rest)) =
      match rule.move state (state.depth.step c) with
      | .decided found => .decided found
      | .undecided state => rule.search 0 state (cellsFrom (some c) rest) := by
  have hquestion : c ≠ '?' := by rintro rfl; revert hc; decide
  have hcolon : c ≠ ':' := by rintro rfl; revert hc; decide
  have hcomma : c ≠ ',' := by rintro rfl; revert hc; decide
  have hsemicolon : c ≠ ';' := by rintro rfl; revert hc; decide
  have hstop (s : ColonState) : rule.stopsAt s c = false := by
    simp [ColonRule.stopsAt, hcomma, hsemicolon]
  cases hbelow : (state.depth.step c).below rule.target <;>
    simp [cellsFrom, ColonRule.search, ColonRule.move, hquestion, hcolon, hstop, hbelow]

/-- The search goes over a token as it reads it, and then on from what follows. -/
theorem search_token {rule : ColonRule} {state : ColonState}
    (hstate : state.depth.below rule.target = false) {t : TernaryToken} {rest : List (Char × Bool)}
    (hplain : t = .question → LeavesPlain (rest.map Prod.fst)) (before : Option Char) :
    ∃ before', rule.search 0 state (cellsFrom before (t.cells ++ rest)) =
      match rule.read state t with
      | .decided found => .decided found
      | .undecided state => rule.search 0 state (cellsFrom before' rest) := by
  cases t with
  | name n => exact search_append_of_not_isSearched hstate n.not_isSearched before rest
  | quoted q => exact search_append_of_not_isSearched hstate q.not_isSearched before rest
  | opening b =>
    exact ⟨some b.opening, search_bracket state (by cases b <;> decide) before rest⟩
  | closing b =>
    exact ⟨some b.closing, search_bracket state (by cases b <;> decide) before rest⟩
  | comma =>
    refine ⟨some ',', ?_⟩
    have hstep : state.depth.step ',' = state.depth := rfl
    have hcells : TernaryToken.comma.cells = [(',', false)] := rfl
    cases hstop : rule.stopsAt state ',' <;>
      simp [hcells, cellsFrom, ColonRule.search, ColonRule.read, hstep, hstate, hstop]
  | question =>
    refine ⟨some '?', ?_⟩
    have hcells : TernaryToken.question.cells = [('?', false)] := rfl
    simp [hcells, cellsFrom, ColonRule.search, ColonRule.read, Question.of_eq_plain (hplain rfl)]
  | colon =>
    refine ⟨some ':', ?_⟩
    have hcells : TernaryToken.colon.cells = [(':', false)] := rfl
    simp only [hcells, List.cons_append, List.nil_append, cellsFrom, ColonRule.search, ColonRule.read,
      Bool.false_eq_true, if_false, if_true, Char.reduceEq]
    split
    · rfl
    · split <;> rfl

/-- The search over a printed line reads its tokens. -/
theorem search_cells (rule : ColonRule) (line : PrintedLine TernaryToken)
    (h : line.tokens.IsChain TernaryToken.Meets) {state : ColonState}
    (hstate : state.depth.below rule.target = false) (before : Option Char) :
    rule.search 0 state (cellsFrom before line.cells) =
      readAll state (line.tokens.map fun t => (rule, t)) := by
  obtain ⟨pieces, tail⟩ := line
  induction pieces generalizing state before with
  | nil =>
    obtain ⟨before', htail⟩ :=
      search_append_of_not_isSearched hstate tail.not_isSearched before []
    rw [List.append_nil] at htail
    exact htail
  | cons piece pieces ih =>
    obtain ⟨gap, t⟩ := piece
    have hchain := (List.isChain_cons.1 h).2
    have hplain : t = .question → LeavesPlain
        ((⟨pieces, tail⟩ : PrintedLine TernaryToken).cells.map Prod.fst) := by
      rintro rfl
      rw [PrintedLine.map_fst_cells]
      exact leavesPlain_text h
    obtain ⟨before', hgap⟩ := search_append_of_not_isSearched hstate gap.not_isSearched before
      (t.cells ++ (⟨pieces, tail⟩ : PrintedLine TernaryToken).cells)
    obtain ⟨before'', htoken⟩ := search_token hstate hplain before'
    rw [PrintedLine.cells_cons, hgap, htoken, PrintedLine.tokens, List.map_cons, List.map_cons,
      readAll]
    cases hread : rule.read state t with
    | decided found => rfl
    | undecided state' => exact ih (ColonRule.below_of_read hstate hread) before'' hchain

/-- The search over the lines below reads their tokens one line after the other. -/
theorem searchLines_text (rule : ColonRule) {layout : Layout TernaryToken}
    (h : ∀ line ∈ layout, line.tokens.IsChain TernaryToken.Meets) {state : ColonState}
    (hstate : state.depth.below rule.target = false) :
    rule.searchLines state (layout.map PrintedLine.text) =
      (readAll state (layout.tokens.map fun t => (rule, t))).succeeds := by
  induction layout generalizing state with
  | nil => rfl
  | cons line layout ih =>
    have hline := search_cells rule line (h line List.mem_cons_self) hstate none
    have hlater := fun l hl => h l (List.mem_cons_of_mem _ hl)
    rw [List.map_cons, ColonRule.searchLines, BranchTally.cells, maskedCells_text, hline,
      Layout.tokens, List.flatMap_cons, List.map_append, readAll_append]
    cases hread : readAll state (line.tokens.map fun t => (rule, t)) with
    | decided found => rfl
    | undecided state' =>
      exact ih hlater (below_of_readAll hstate hread)

end BranchTally
