-- SUMMARY: Whatever the layout of an expression, the ternaries of a line are its question marks, as long as each colon is at most twenty lines below.
import BranchTally.Proofs.Ternary.Cells

/-!
# Every ternary is found

The question marks of a printed expression are the ternaries of its lines. Between a question mark and
its colon stands a whole operand, over which the search comes back to where it began; so it cannot end
before it reaches that colon, unless another one satisfies it first.
-/

namespace BranchTally

open Text

/-! ## Question marks of a line -/

/-- The positions of the question marks among pieces that begin at position `pos`. -/
def questionsFrom (pos : Nat) : List (Piece TernaryToken) → List Nat
  | [] => []
  | piece :: rest =>
    let place := pos + piece.gap.text.length
    (if piece.token.isQuestion then [place] else []) ++
      questionsFrom (place + piece.token.text.length) rest

/-- The positions of the question marks that are tokens of the line. -/
def PrintedLine.questions (line : PrintedLine TernaryToken) : List Nat := questionsFrom 0 line.pieces

theorem TernaryToken.eq_question_of_isQuestion {t : TernaryToken} (h : t.isQuestion = true) :
    t = .question := by
  cases t with
  | question => rfl
  | _ => simp [isQuestion] at h

/-- The line is cut at a question mark: the pieces before it with the blanks in front of it, and the
pieces behind it. -/
theorem exists_cut_of_mem_questionsFrom {pos i : Nat} {pieces : List (Piece TernaryToken)}
    (h : i ∈ questionsFrom pos pieces) :
    ∃ before gap after, pieces = before ++ ⟨gap, .question⟩ :: after ∧
      i = pos + (⟨before, gap⟩ : PrintedLine TernaryToken).text.length := by
  induction pieces generalizing pos with
  | nil => simp [questionsFrom] at h
  | cons piece rest ih =>
    rcases List.mem_append.1 h with h | h
    · split at h
      · next hquestion =>
        obtain rfl := List.mem_singleton.1 h
        obtain ⟨gap, t⟩ := piece
        obtain rfl := TernaryToken.eq_question_of_isQuestion hquestion
        exact ⟨[], gap, rest, rfl, rfl⟩
      · simp at h
    · obtain ⟨before, gap, after, rfl, rfl⟩ := ih h
      refine ⟨piece :: before, gap, after, rfl, ?_⟩
      rw [PrintedLine.text_cons, List.length_append, List.length_append]
      change _ = pos + (piece.gap.text.length + (piece.token.text.length + _))
      omega

theorem pairwise_questionsFrom (pos : Nat) (pieces : List (Piece TernaryToken)) :
    (questionsFrom pos pieces).Pairwise (· < ·) := by
  induction pieces generalizing pos with
  | nil => exact List.Pairwise.nil
  | cons piece rest ih =>
    simp only [questionsFrom]
    split
    · next hquestion =>
      refine List.pairwise_cons.2 ⟨fun i hi => ?_, ih _⟩
      have hlength : piece.token.text.length = 1 := by
        rw [TernaryToken.eq_question_of_isQuestion hquestion]
        rfl
      obtain ⟨_, _, _, -, rfl⟩ := exists_cut_of_mem_questionsFrom hi
      omega
    · exact ih _

/-- A live question mark in the text of a token is the whole token. -/
theorem TernaryToken.eq_question_of_mem_cells {t : TernaryToken} (h : ('?', false) ∈ t.cells) :
    t = .question := by
  cases t with
  | question => rfl
  | name n =>
    obtain ⟨c, hc, heq⟩ := List.mem_map.1 h
    exact absurd ((Prod.mk.inj heq).1 ▸ hc) (n.not_mem (by decide))
  | quoted q =>
    rcases List.mem_cons.1 h with heq | h
    · have hquote : '?' = q.quote := (Prod.mk.inj heq).1
      rcases q.isQuote with hq | hq <;> exact absurd (hquote.trans hq) (by decide)
    · obtain ⟨c, -, heq⟩ := List.mem_map.1 h
      exact absurd (Prod.mk.inj heq).2 (by decide)
  | opening b => cases b <;> exact absurd h (by decide)
  | closing b => cases b <;> exact absurd h (by decide)
  | comma => exact absurd h (by decide)
  | colon => exact absurd h (by decide)

theorem TernaryToken.length_cells (t : TernaryToken) : t.cells.length = t.text.length := by
  rw [← t.map_fst_cells, List.length_map]

/-- Every live question mark of a line is a token. -/
theorem mem_questionsFrom_of_getElem? {pos i : Nat} {pieces : List (Piece TernaryToken)} {tail : Gap}
    (h : (⟨pieces, tail⟩ : PrintedLine TernaryToken).cells[i]? = some ('?', false)) :
    pos + i ∈ questionsFrom pos pieces := by
  have hgap (gap : Gap) : ('?', false) ∉ gap.text.map fun c => (c, false) := by
    intro hmem
    obtain ⟨c, hc, heq⟩ := List.mem_map.1 hmem
    exact gap.not_mem (by decide) ((Prod.mk.inj heq).1 ▸ hc)
  induction pieces generalizing pos i with
  | nil => exact absurd (List.mem_of_getElem? h) (hgap tail)
  | cons piece rest ih =>
    obtain ⟨gap, t⟩ := piece
    rw [PrintedLine.cells_cons, List.getElem?_append, List.length_map] at h
    split at h
    · exact absurd (List.mem_of_getElem? h) (hgap gap)
    · next hbehind =>
      rw [List.getElem?_append, TernaryToken.length_cells] at h
      simp only [questionsFrom, List.mem_append]
      split at h
      · next hinside =>
        obtain rfl := TernaryToken.eq_question_of_mem_cells (List.mem_of_getElem? h)
        have hlength : TernaryToken.question.text.length = 1 := rfl
        rw [hlength] at hinside
        left
        simp only [TernaryToken.isQuestion, if_true, List.mem_singleton]
        dsimp only at hbehind hinside
        omega
      · next houtside =>
        right
        have hrest := @ih (pos + gap.text.length + t.text.length) _ h
        convert hrest using 1
        dsimp only at hbehind houtside ⊢
        omega

/-- A token that ends with a question mark is one. -/
theorem TernaryToken.exists_concat_text (t : TernaryToken) :
    ∃ init c, t.text = init ++ [c] ∧ (c = '?' → t = .question) := by
  cases t with
  | name n =>
    obtain ⟨init, c, hname⟩ := (List.eq_nil_or_concat n.text).resolve_left n.ne_nil
    rw [List.concat_eq_append] at hname
    have hc : isNameChar c = true := n.nameChars c (by simp [hname])
    exact ⟨init, c, hname, fun hq => absurd hq (ne_of_isNameChar hc (by decide))⟩
  | quoted q =>
    refine ⟨q.quote :: q.content, q.quote, by simp [text], fun hq => ?_⟩
    rcases q.isQuote with hquote | hquote <;> exact absurd (hq.symm.trans hquote) (by decide)
  | opening b => exact ⟨[], b.opening, rfl, fun hq => absurd hq (by cases b <;> decide)⟩
  | closing b => exact ⟨[], b.closing, rfl, fun hq => absurd hq (by cases b <;> decide)⟩
  | comma => exact ⟨[], ',', rfl, fun hq => absurd hq (by decide)⟩
  | question => exact ⟨[], '?', rfl, fun _ => rfl⟩
  | colon => exact ⟨[], ':', rfl, fun hq => absurd hq (by decide)⟩

/-! ## Cells behind a place -/

theorem getElem?_cellsFrom {before : Option Char} {cs : List (Char × Bool)} {i : Nat} {cell : Cell}
    (h : (cellsFrom before cs)[i]? = some cell) : cs[i]? = some (cell.char, cell.masked) := by
  induction cs generalizing before i with
  | nil => simp [cellsFrom] at h
  | cons x cs ih =>
    cases i with
    | zero =>
      simp only [cellsFrom, List.getElem?_cons_zero, Option.some.injEq] at h ⊢
      subst h
      rfl
    | succ i =>
      simp only [cellsFrom, List.getElem?_cons_succ] at h ⊢
      exact ih h

theorem drop_cellsFrom (before : Option Char) (xs ys : List (Char × Bool)) :
    ∃ before', (cellsFrom before (xs ++ ys)).drop xs.length = cellsFrom before' ys := by
  induction xs generalizing before with
  | nil => exact ⟨before, rfl⟩
  | cons x xs ih => exact ih (some x.1)

section

variable {before after : List (Piece TernaryToken)} {gap tail : Gap}

theorem text_cut : (⟨before ++ ⟨gap, .question⟩ :: after, tail⟩ : PrintedLine TernaryToken).text =
    (⟨before, gap⟩ : PrintedLine TernaryToken).text ++
      '?' :: (⟨after, tail⟩ : PrintedLine TernaryToken).text := by
  simp [PrintedLine.text, Piece.text, Printable.text, TernaryToken.text]

theorem cells_cut : (⟨before ++ ⟨gap, .question⟩ :: after, tail⟩ : PrintedLine TernaryToken).cells =
    (⟨before, gap⟩ : PrintedLine TernaryToken).cells ++
      ('?', false) :: (⟨after, tail⟩ : PrintedLine TernaryToken).cells := by
  simp [PrintedLine.cells, TernaryToken.cells, TernaryToken.text]

theorem length_cells (line : PrintedLine TernaryToken) : line.cells.length = line.text.length := by
  rw [← line.map_fst_cells, List.length_map]

theorem drop_cells_cut :
    ∃ before', (BranchTally.cells
      (⟨before ++ ⟨gap, .question⟩ :: after, tail⟩ : PrintedLine TernaryToken).text).drop
        (⟨before, gap⟩ : PrintedLine TernaryToken).text.length =
      cellsFrom before' (('?', false) :: (⟨after, tail⟩ : PrintedLine TernaryToken).cells) := by
  rw [BranchTally.cells, maskedCells_text, cells_cut, ← length_cells]
  exact drop_cellsFrom none _ _

/-- The text in front of a question mark does not end with another one. -/
theorem getLast?_ne_question
    (h : ((before ++ ⟨gap, .question⟩ :: after).map Piece.token).IsChain TernaryToken.Meets) :
    (⟨before, gap⟩ : PrintedLine TernaryToken).text.getLast? ≠ some '?' := by
  intro hlast
  rcases List.eq_nil_or_concat gap.text with hgap | ⟨init, c, hgap⟩
  · rcases List.eq_nil_or_concat before with rfl | ⟨init, ⟨gap', t⟩, rfl⟩
    · simp [hgap] at hlast
    · obtain ⟨front, c, htext, hc⟩ := t.exists_concat_text
      have hline : (⟨init ++ [⟨gap', t⟩], gap⟩ : PrintedLine TernaryToken).text =
          (init.flatMap Piece.text ++ gap'.text ++ front) ++ [c] := by
        simp [PrintedLine.text, Piece.text, hgap, Printable.text, htext]
      rw [List.concat_eq_append] at h hlast
      rw [hline, List.getLast?_concat, Option.some.injEq] at hlast
      have hmeets : t.Meets .question := by
        have hpair : [t, TernaryToken.question].IsChain TernaryToken.Meets :=
          h.infix ⟨init.map Piece.token, after.map Piece.token, by simp⟩
        exact (List.isChain_cons_cons.1 hpair).1
      exact Bool.false_ne_true (hmeets (hc hlast))
  · rw [PrintedLine.text, hgap, List.concat_eq_append, ← List.append_assoc, List.getLast?_concat,
      Option.some.injEq] at hlast
    exact gap.not_mem (by decide : isBlank '?' = false) (by simp [hgap, hlast])

theorem mayOpenTernary_cut
    (h : ((before ++ ⟨gap, .question⟩ :: after).map Piece.token).IsChain TernaryToken.Meets) :
    mayOpenTernary (⟨before ++ ⟨gap, .question⟩ :: after, tail⟩ : PrintedLine TernaryToken).text
      (⟨before, gap⟩ : PrintedLine TernaryToken).text.length = true := by
  obtain ⟨before', hdrop⟩ := @drop_cells_cut before after gap tail
  have hbehind : (TernaryToken.question :: after.map Piece.token).IsChain TernaryToken.Meets :=
    h.suffix ⟨before.map Piece.token, by simp⟩
  have hcell := congrArg (fun cells : List Cell => cells[0]?) hdrop
  simp only [List.getElem?_drop, Nat.add_zero, cellsFrom, if_true, List.getElem?_cons_zero,
    PrintedLine.map_fst_cells, Question.of_eq_plain (leavesPlain_text hbehind)] at hcell
  have hprevious (hpos : 0 < (⟨before, gap⟩ : PrintedLine TernaryToken).text.length) :
      (⟨before ++ ⟨gap, .question⟩ :: after, tail⟩ : PrintedLine TernaryToken).text[
        (⟨before, gap⟩ : PrintedLine TernaryToken).text.length - 1]? ≠ some '?' := by
    rw [text_cut, List.getElem?_append_left (by omega), ← List.getLast?_eq_getElem?]
    exact getLast?_ne_question h
  simp only [mayOpenTernary, hcell]
  simpa [← List.length_pos_iff, Classical.or_iff_not_imp_left] using hprevious

end

theorem mem_questions_of_mayOpenTernary {line : PrintedLine TernaryToken} {i : Nat}
    (h : mayOpenTernary line.text i = true) : i ∈ line.questions := by
  obtain ⟨pieces, tail⟩ := line
  unfold mayOpenTernary at h
  split at h
  · next cell hcell =>
    simp only [Bool.and_eq_true, decide_eq_true_eq, Bool.not_eq_true'] at h
    obtain ⟨⟨⟨hchar, hmasked⟩, -⟩, -⟩ := h
    have hmarked := getElem?_cellsFrom hcell
    rw [maskedCells_text, hchar, hmasked] at hmarked
    have hquestion := @mem_questionsFrom_of_getElem? 0 _ _ _ hmarked
    rwa [Nat.zero_add] at hquestion
  · exact absurd h (by decide)

/-! ## Colons below a question mark -/

/-- The search finds the colon behind a whole operand. -/
theorem colonFollows_of_tokens_eq {line : PrintedLine TernaryToken} {below : Layout TernaryToken}
    (hline : line.tokens.IsChain TernaryToken.Meets)
    (hbelow : ∀ l ∈ below, l.tokens.IsChain TernaryToken.Meets) {middle : TernaryExpr}
    {rest : List TernaryToken}
    (htokens : line.tokens ++ Layout.tokens (below.take continuationLimit) =
      middle.tokens ++ .colon :: rest)
    (before after : Line) (previous : Option Char) :
    colonFollows before after (cellsFrom previous line.cells) (below.map PrintedLine.text) = true := by
  unfold colonFollows
  dsimp only
  generalize Depth.of before = target
  generalize looksLikeMarkup before after = inMarkup
  rw [search_cells _ line hline target.below_self]
  generalize hfirst : ColonRule.mk target inMarkup 0 = first
  generalize hsecond : ColonRule.mk target inMarkup (if inMarkup then 1 else 0) = second
  have hreads : (line.tokens.map (fun t => (first, t)) ++
      (Layout.tokens (below.take continuationLimit)).map fun t => (second, t)).map Prod.snd =
        middle.tokens ++ .colon :: rest := by
    simpa [Function.comp_def] using htokens
  have hfirstTarget : first.target = target := by rw [← hfirst]
  have hsecondTarget : second.target = target := by rw [← hsecond]
  have hfound := @readAll_succeeds middle target _ rest hreads fun r hr => by
    rcases List.mem_append.1 hr with hr | hr <;> obtain ⟨t, -, rfl⟩ := List.mem_map.1 hr
    · exact hfirstTarget
    · exact hsecondTarget
  rw [readAll_append] at hfound
  split
  · next found hread =>
    rw [hread] at hfound
    exact hfound
  · next state hread =>
    rw [hread] at hfound
    have hstate : state.depth.below first.target = false :=
      below_of_readAll (by rw [hfirstTarget]; exact target.below_self) hread
    rw [hfirstTarget, ← hsecondTarget] at hstate
    rw [← List.map_take, searchLines_text _ (fun l hl => hbelow l (List.mem_of_mem_take hl)) hstate]
    exact hfound

theorem hasMatchingColon_cut {before after : List (Piece TernaryToken)} {gap tail : Gap}
    {below : Layout TernaryToken} {f : Focus}
    (hf : f.line = (⟨before ++ ⟨gap, .question⟩ :: after, tail⟩ : PrintedLine TernaryToken).text)
    (hafter : f.after = below.map PrintedLine.text)
    (hline : (after.map Piece.token).IsChain TernaryToken.Meets)
    (hbelow : ∀ l ∈ below, l.tokens.IsChain TernaryToken.Meets) {middle : TernaryExpr}
    {rest : List TernaryToken}
    (htokens : after.map Piece.token ++ Layout.tokens (below.take continuationLimit) =
      middle.tokens ++ .colon :: rest) :
    hasMatchingColon f (⟨before, gap⟩ : PrintedLine TernaryToken).text.length = true := by
  obtain ⟨before', hdrop⟩ := @drop_cells_cut before after gap tail
  have hbehind := congrArg (List.drop 1) hdrop
  rw [List.drop_drop, cellsFrom, List.drop_succ_cons, List.drop_zero] at hbehind
  rw [hasMatchingColon, hf, hafter, hbehind]
  exact @colonFollows_of_tokens_eq ⟨after, tail⟩ below hline hbelow middle rest htokens _ _ _

/-- The ternaries of a line are its question marks, if each has a whole operand and a colon on the line
or on one of the next twenty. -/
theorem ternaryPositions_eq_questions {line : PrintedLine TernaryToken} {below : Layout TernaryToken}
    {f : Focus} (hf : f.line = line.text) (hafter : f.after = below.map PrintedLine.text)
    (hline : line.tokens.IsChain TernaryToken.Meets)
    (hbelow : ∀ l ∈ below, l.tokens.IsChain TernaryToken.Meets)
    (hcolon : ∀ before rest, line.tokens = before ++ .question :: rest →
      ∃ (middle : TernaryExpr) (after : List TernaryToken),
        rest ++ Layout.tokens (below.take continuationLimit) = middle.tokens ++ .colon :: after) :
    ternaryPositions f = line.questions := by
  refine List.Pairwise.eq_of_mem_iff (List.pairwise_lt_range.filter _) (pairwise_questionsFrom 0 _)
    fun i => ⟨fun hi => ?_, fun hi => ?_⟩
  · have hopens := (List.mem_filter.1 hi).2
    rw [Bool.and_eq_true, hf] at hopens
    exact mem_questions_of_mayOpenTernary hopens.1
  · obtain ⟨pieces, tail⟩ := line
    obtain ⟨before, gap, after, rfl, rfl⟩ := exists_cut_of_mem_questionsFrom hi
    obtain ⟨middle, rest, htokens⟩ :=
      hcolon (before.map Piece.token) (after.map Piece.token) (by simp [PrintedLine.tokens])
    have hbehind : (after.map Piece.token).IsChain TernaryToken.Meets :=
      hline.suffix ⟨before.map Piece.token ++ [.question], by simp [PrintedLine.tokens]⟩
    have hopens := @mayOpenTernary_cut before after gap tail hline
    have hmatch := hasMatchingColon_cut hf hafter hbehind hbelow htokens
    rw [Nat.zero_add]
    refine List.mem_filter.2 ⟨List.mem_range.2 ?_, by rw [hf, hopens, hmatch]; rfl⟩
    rw [hf, text_cut, List.length_append, List.length_cons]
    omega

/-! ## Printed expressions -/

/-- An expression and a way to print it in which no colon is more than twenty lines below its question
mark. -/
structure PrintedTernary where
  expr : TernaryExpr
  layout : Layout TernaryToken
  tokens_eq : layout.tokens = expr.tokens
  near : ∀ pair ∈ expr.colons 0, layout.lineOf pair.2 ≤ layout.lineOf pair.1 + 20

namespace PrintedTernary

theorem isChain_tokens (p : PrintedTernary) :
    ∀ line ∈ p.layout, line.tokens.IsChain TernaryToken.Meets := by
  intro line hline
  have hall : p.layout.tokens.IsChain TernaryToken.Meets := by
    have hexpr := p.expr.isChain_tokens List.isChain_nil
    rwa [List.append_nil, ← p.tokens_eq] at hexpr
  obtain ⟨above, below, hlayout⟩ := List.append_of_mem hline
  refine hall.infix ⟨Layout.tokens above, Layout.tokens below, ?_⟩
  rw [hlayout, Layout.tokens_append, List.append_assoc]
  rfl

/-- The operand and the colon behind a question mark are printed on its line and the next twenty. -/
theorem exists_colon (p : PrintedTernary) {above below : Layout TernaryToken}
    {line : PrintedLine TernaryToken} (hlayout : p.layout = above ++ line :: below)
    {before rest : List TernaryToken} (hline : line.tokens = before ++ .question :: rest) :
    ∃ (middle : TernaryExpr) (after : List TernaryToken),
      rest ++ Layout.tokens (below.take continuationLimit) = middle.tokens ++ .colon :: after := by
  have htokens : p.expr.tokens =
      (above.tokens ++ before) ++ .question :: (rest ++ below.tokens) := by
    rw [← p.tokens_eq, hlayout, Layout.tokens_append, Layout.tokens, Layout.tokens, Layout.tokens,
      List.flatMap_cons, hline]
    simp
  obtain ⟨middle, after, hrest, hpair⟩ := p.expr.encloses 0 _ _ htokens
  have hlength := congrArg List.length hrest
  have hline' := congrArg List.length hline
  simp only [List.length_append, List.length_cons] at hlength hline'
  have hnear := p.near _ hpair
  rw [hlayout, Nat.zero_add, List.length_append, Nat.add_assoc, Nat.add_assoc] at hnear
  have hprinted := Layout.lt_length_of_lineOf_le (by omega) (by omega) hnear
  rw [← List.take_append_drop continuationLimit below, Layout.tokens_append, ← List.append_assoc]
    at hrest
  rcases Phrase.cut_of_append_eq hrest with ⟨more, hfirst, -⟩ | ⟨more, hmiddle, -⟩
  · exact ⟨middle, more, hfirst⟩
  · have hshort := congrArg List.length hmiddle
    rw [List.length_append, List.length_append] at hshort
    rw [← continuationLimit] at hprinted
    omega

/-- Every ternary is found, and nothing else is. -/
theorem map_ternaryPositions (p : PrintedTernary) :
    (foci (p.layout.map PrintedLine.text)).map ternaryPositions =
      p.layout.map PrintedLine.questions := by
  have hsuffix (number : Int) (before : List Line) (above below : Layout TernaryToken)
      (hlayout : p.layout = above ++ below) :
      (fociFrom number before (below.map PrintedLine.text)).map ternaryPositions =
        below.map PrintedLine.questions := by
    induction below generalizing number before above with
    | nil => rfl
    | cons line below ih =>
      have hchain := p.isChain_tokens
      simp only [hlayout, List.mem_append, List.mem_cons] at hchain
      have hline : ternaryPositions ⟨number, before, line.text, below.map PrintedLine.text⟩ =
          line.questions :=
        ternaryPositions_eq_questions rfl rfl (hchain line (by simp))
          (fun l hl => hchain l (by simp [hl])) fun _ _ => p.exists_colon hlayout
      rw [List.map_cons, fociFrom, List.map_cons, List.map_cons, hline,
        ih _ _ (above ++ [line]) (by simp [hlayout])]
  exact hsuffix 1 [] [] p.layout rfl

/-- The colon may stand on another line than its question mark. -/
example :
    let a : Identifier := ⟨['a'], by decide, forall_mem_of_all (by decide)⟩
    let p : PrintedTernary :=
      { expr := .choice (.name a) (.name a) (.name a)
        layout := [⟨[⟨.empty, .name a⟩, ⟨.space, .question⟩, ⟨.space, .name a⟩], .empty⟩,
          ⟨[⟨.space, .colon⟩, ⟨.empty, .name a⟩], .space⟩]
        tokens_eq := rfl
        near := by simp [Phrase.colons, Phrase.tokens, Layout.lineOf, PrintedLine.tokens] }
    p.layout.map PrintedLine.text = ["a ? a".toList, " :a ".toList] ∧
      p.layout.map PrintedLine.questions = [[2], []] := by
  decide

end PrintedTernary

end BranchTally
