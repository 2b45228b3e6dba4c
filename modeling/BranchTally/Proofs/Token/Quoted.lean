-- SUMMARY: The live tokens and question marks of a line with a quoted text are those in front of it and those behind it, whatever it says.
import Mathlib
import BranchTally.Proofs.CommentSpans
import BranchTally.Proofs.Token

/-!
# Live code around a quoted text

A quoted text that opens in code cuts its line in three. Nothing in it is live, comments and tokens go
by it, and the walk leaves it as it came. So the live tokens of the line are those of the two parts
around it, each read on its own.
-/

namespace BranchTally

/-! ## Tokens -/

theorem occurrencesFrom_add (token : List Char) (n skip pos : Nat) (text : Line) :
    occurrencesFrom token skip (pos + n) text = (occurrencesFrom token skip pos text).map (· + n) := by
  induction text generalizing skip pos with
  | nil => cases skip <;> rfl
  | cons c rest ih =>
    have hrest (skip : Nat) := ih skip (pos + 1)
    simp only [Nat.add_right_comm pos 1 n] at hrest
    cases skip with
    | succ skip => exact hrest skip
    | zero =>
      simp only [occurrencesFrom, hrest]
      split <;> rfl

/-- The live positions of a token on a whole line. -/
theorem findTokens_eq (line : Line) (token : List Char) :
    findTokens line token = (occurrencesFrom token 0 0 line).filter (LiveMap.of line).isLive := by
  simp [findTokens]

/-! ## Quoted texts -/

/-- A text in quotes that open in code: the line in front of it has no comment and leaves no quote open,
and the text has neither its own quote nor a backslash. -/
structure QuotedInCode (front : Line) (quote : Char) (body : Line) : Prop where
  isQuote : quote = '\'' ∨ quote = '"'
  uncommented : Uncommented front
  code : QuoteState.behind {} front = {}
  noQuote : quote ∉ body
  noEscape : '\\' ∉ body

namespace QuotedInCode

variable {front body : Line} {quote : Char}

theorem quote_ne (h : QuotedInCode front quote body) {c : Char} (hsingle : '\'' ≠ c)
    (hdouble : '"' ≠ c) : quote ≠ c := by
  rcases h.isQuote with rfl | rfl
  · exact hsingle
  · exact hdouble

theorem empty (h : QuotedInCode front quote body) : QuotedInCode front quote [] :=
  ⟨h.isQuote, h.uncommented, h.code, List.not_mem_nil, List.not_mem_nil⟩

variable (h : QuotedInCode front quote body) (back : Line)

include h

/-! ## Mask and comments -/

theorem literalMask_eq : literalMask (front ++ quote :: (body ++ quote :: back)) =
    literalMask front ++ false :: (List.replicate (body.length + 1) true ++ literalMask back) := by
  have hbrace : (quote :: (body ++ quote :: back)).head? ≠ some '{' := by
    simpa using h.quote_ne (by decide) (by decide)
  rw [literalMask, QuoteState.mask_append hbrace, h.code,
    QuoteState.mask_quoted h.isQuote h.noQuote h.noEscape]
  rfl

theorem maskedCells_eq : maskedCells (front ++ quote :: (body ++ quote :: back)) =
    maskedCells front ++ (quote, false) ::
      ((body ++ [quote]).map (fun c => (c, true)) ++ maskedCells back) := by
  have hfront : front.length = (literalMask front).length := (QuoteState.length_mask _ _).symm
  have hbody : (body ++ quote :: back).zip
      (List.replicate (body.length + 1) true ++ literalMask back) =
      (body ++ [quote]).map (fun c => (c, true)) ++ maskedCells back := by
    rw [List.append_cons, List.zip_append (by simp), ← zip_replicate_length, List.length_append,
      List.length_singleton]
    rfl
  rw [maskedCells, h.literalMask_eq, List.zip_append hfront, List.zip_cons_cons, hbody]
  rfl

theorem commentSpans_eq : commentSpans (front ++ quote :: (body ++ quote :: back)) =
    (commentSpans back).map (·.shift (front.length + body.length + 2)) := by
  have hfront : Uncommented ((maskedCells front).map Prod.fst) := by
    rw [map_fst_maskedCells]
    exact h.uncommented
  have hslash : quote ≠ '/' := h.quote_ne (by decide) (by decide)
  have hstar : quote ≠ '*' := h.quote_ne (by decide) (by decide)
  have hstart : 0 + front.length + 1 + (body.length + 1) = 0 + (front.length + body.length + 2) := by
    omega
  rw [commentSpans, h.maskedCells_eq,
    commentSpansFrom_uncommented_append hfront (by simp [hslash, hstar]), length_maskedCells,
    commentSpansFrom, if_neg (by simp [hslash]), commentSpansFrom_content_append (by simp),
    List.length_map, List.length_append, List.length_singleton, hstart]
  exact commentSpansFrom_add _ 0 none 0 _

/-! ## Live positions -/

theorem isLive_front {i : Nat} (hi : i < front.length) :
    (LiveMap.of (front ++ quote :: (body ++ quote :: back))).isLive i = (LiveMap.of front).isLive i := by
  have hmask : i < (literalMask front).length := by rwa [literalMask, QuoteState.length_mask]
  have hspans : (commentSpans (front ++ quote :: (body ++ quote :: back))).any (·.contains i) = false := by
    rw [h.commentSpans_eq, List.any_map, List.any_eq_false]
    intro span _
    simp [Span.contains_shift_of_lt (show i < front.length + body.length + 2 by omega)]
  simp only [LiveMap.isLive, LiveMap.of, hspans, commentSpans_of_uncommented h.uncommented,
    h.literalMask_eq, List.getElem?_append_left hmask, List.any_nil]

theorem isLive_body {i : Nat} (hi : i ≤ body.length) :
    (LiveMap.of (front ++ quote :: (body ++ quote :: back))).isLive (front.length + 1 + i) = false := by
  have hfront : (literalMask front).length = front.length := QuoteState.length_mask _ _
  have hmask : (literalMask (front ++ quote :: (body ++ quote :: back)))[front.length + 1 + i]? =
      some true := by
    rw [h.literalMask_eq, List.getElem?_append_right (by omega), hfront,
      show front.length + 1 + i - front.length = i + 1 by omega, List.getElem?_cons_succ,
      List.getElem?_append_left (by rw [List.length_replicate]; omega),
      List.getElem?_replicate_of_lt (by omega)]
  simp [LiveMap.isLive, LiveMap.of, hmask]

theorem isLive_back (i : Nat) :
    (LiveMap.of (front ++ quote :: (body ++ quote :: back))).isLive
      (i + (front.length + body.length + 2)) = (LiveMap.of back).isLive i := by
  have hfront : (literalMask front).length = front.length := QuoteState.length_mask _ _
  have hmask : (LiveMap.of (front ++ quote :: (body ++ quote :: back))).mask[
      i + (front.length + body.length + 2)]? = (LiveMap.of back).mask[i]? := by
    rw [LiveMap.of, LiveMap.of, h.literalMask_eq, List.getElem?_append_right (by omega), hfront,
      show i + (front.length + body.length + 2) - front.length = (i + (body.length + 1)) + 1 by omega,
      List.getElem?_cons_succ, List.getElem?_append_right (by rw [List.length_replicate]; omega),
      List.length_replicate, Nat.add_sub_cancel]
  have hspans : (LiveMap.of (front ++ quote :: (body ++ quote :: back))).comments.any
      (·.contains (i + (front.length + body.length + 2))) =
      (LiveMap.of back).comments.any (·.contains i) := by
    rw [LiveMap.of, LiveMap.of, h.commentSpans_eq, List.any_map]
    simp only [Function.comp_def, Span.contains_shift]
  rw [LiveMap.isLive, LiveMap.isLive, hmask, hspans]

/-! ## Live tokens and question marks -/

/-- The live tokens of the line are those in front of the quoted text and those behind it. -/
theorem findTokens_append {token : List Char} (hne : token ≠ []) (htoken : quote ∉ token) :
    findTokens (front ++ quote :: (body ++ quote :: back)) token =
      findTokens front token ++
        (findTokens back token).map (· + (front.length + body.length + 2)) := by
  have hfound : occurrencesFrom token 0 0 (front ++ quote :: (body ++ quote :: back)) =
      occurrencesFrom token 0 0 front ++ (occurrencesFrom token 0 (front.length + 1) body ++
        (occurrencesFrom token 0 0 back).map (· + (front.length + body.length + 2))) := by
    rw [occurrencesFrom_append_cons htoken hne (Nat.zero_le _),
      occurrencesFrom_append_cons htoken hne (Nat.zero_le _), ← occurrencesFrom_add,
      show 0 + front.length + 1 + body.length + 1 = 0 + (front.length + body.length + 2) by omega,
      Nat.zero_add front.length]
  have hfront : (occurrencesFrom token 0 0 front).filter
      (LiveMap.of (front ++ quote :: (body ++ quote :: back))).isLive = findTokens front token := by
    rw [findTokens_eq]
    apply List.filter_congr
    intro i hi
    exact h.isLive_front back (by simpa using (bounds_of_mem_occurrencesFrom hi).2)
  have hbody : (occurrencesFrom token 0 (front.length + 1) body).filter
      (LiveMap.of (front ++ quote :: (body ++ quote :: back))).isLive = [] := by
    rw [List.filter_eq_nil_iff]
    intro i hi
    obtain ⟨hstart, hstop⟩ := bounds_of_mem_occurrencesFrom hi
    obtain ⟨j, rfl⟩ := Nat.exists_eq_add_of_le hstart
    rw [h.isLive_body back (by omega)]
    exact Bool.false_ne_true
  have hback : ((occurrencesFrom token 0 0 back).map (· + (front.length + body.length + 2))).filter
      (LiveMap.of (front ++ quote :: (body ++ quote :: back))).isLive =
      (findTokens back token).map (· + (front.length + body.length + 2)) := by
    rw [findTokens_eq, List.filter_map]
    simp only [Function.comp_def, h.isLive_back]
  rw [findTokens_eq, hfound, List.filter_append, List.filter_append, hfront, hbody, hback,
    List.nil_append]

theorem hasLiveQuestion_append :
    hasLiveQuestion (front ++ quote :: (body ++ quote :: back)) =
      (hasLiveQuestion front || hasLiveQuestion back) := by
  have hquote : quote ≠ '?' := h.quote_ne (by decide) (by decide)
  have hbody : ((body ++ [quote]).map fun c => (c, true)).any
      (fun cell => decide (cell.1 = '?') && !cell.2) = false := by
    rw [List.any_map, List.any_eq_false]
    simp
  rw [hasLiveQuestion, h.maskedCells_eq, List.any_append, List.any_cons, List.any_append, hbody]
  simp [hasLiveQuestion, hquote]

end QuotedInCode

/-- A text in quotes that open in code has no live token in it. Without the text the tokens are the same,
those behind it as many characters further to the front as it was long, and so is the answer whether some
question mark is live. -/
theorem findTokens_of_quoted {front body : Line} {quote : Char} (h : QuotedInCode front quote body)
    (back : Line) {token : List Char} (hne : token ≠ []) (htoken : quote ∉ token) :
    findTokens (front ++ quote :: (body ++ quote :: back)) token =
        (findTokens (front ++ quote :: quote :: back) token).map
          (fun i => if i < front.length then i else i + body.length) ∧
      (∀ i ∈ findTokens (front ++ quote :: (body ++ quote :: back)) token,
        i < front.length ∨ front.length + body.length + 2 ≤ i) ∧
      hasLiveQuestion (front ++ quote :: (body ++ quote :: back)) =
        hasLiveQuestion (front ++ quote :: quote :: back) := by
  have hin {i : Nat} (hi : i ∈ findTokens front token) : i < front.length := by
    rw [findTokens_eq] at hi
    simpa using (bounds_of_mem_occurrencesFrom (List.mem_of_mem_filter hi)).2
  have hempty := h.empty.findTokens_append back hne htoken
  rw [List.nil_append, List.length_nil, Nat.add_zero] at hempty
  refine ⟨?_, ?_, ?_⟩
  · rw [h.findTokens_append back hne htoken, hempty, List.map_append, List.map_map]
    congr 1
    · refine (List.map_id' _).symm.trans (List.map_congr_left fun i hi => ?_)
      rw [if_pos (hin hi)]
    · refine List.map_congr_left fun i _ => ?_
      rw [Function.comp_apply, if_neg (by omega)]
      omega
  · intro i hi
    rw [h.findTokens_append back hne htoken] at hi
    rcases List.mem_append.1 hi with hi | hi
    · exact Or.inl (hin hi)
    · obtain ⟨j, -, rfl⟩ := List.mem_map.1 hi
      exact Or.inr (Nat.le_add_left _ _)
  · rw [h.hasLiveQuestion_append, ← h.empty.hasLiveQuestion_append, List.nil_append]

/-- A string that opens a template expression and a comment, between two conjunctions. -/
theorem findTokens_of_quoted_marks :
    let front := "x = a && ".toList
    let body := "$\x7b\x60 // && ' ".toList
    let back := " || b && c".toList
    QuotedInCode front '"' body ∧
      findTokens (front ++ '"' :: (body ++ '"' :: back)) ['&', '&'] = [6, 29] ∧
      findTokens (front ++ '"' :: (body ++ '"' :: back)) ['&', '&'] =
        (findTokens (front ++ '"' :: '"' :: back) ['&', '&']).map
          fun i => if i < front.length then i else i + body.length := by
  intro front body back
  have hquoted : QuotedInCode front '"' body :=
    ⟨Or.inr rfl, by decide, by decide, by decide, by decide⟩
  exact ⟨hquoted, by decide, (findTokens_of_quoted hquoted back (by decide) (by decide)).1⟩

end BranchTally
