-- SUMMARY: A line without quotes, slashes, question marks and equals signs is live throughout, and only its headers and operators make points.
import BranchTally.Proofs.CommentSpans
import BranchTally.Proofs.Text
import BranchTally.Proofs.Token
import BranchTally.Proofs.Scan

/-!
# Plain lines

Most collectors look for a character of their own: comments for a slash, ternaries and chains for a
question mark, defaults for an equals sign. On a line without these characters they all stay silent.
-/

namespace BranchTally

open Text

/-- A character that starts no literal, comment, ternary, chain or default. -/
def isPlainChar (c : Char) : Bool := !(isQuoting c || c = '/' || c = '?' || c = '=')

/-- A line of such characters only. -/
def IsPlain (line : Line) : Prop := ∀ c ∈ line, isPlainChar c = true

theorem IsPlain.not_mem {line : Line} (h : IsPlain line) {c : Char} (hc : isPlainChar c = false) :
    c ∉ line := fun hmem => Bool.false_ne_true (hc.symm.trans (h c hmem))

theorem IsPlain.append {line more : Line} (h : IsPlain line) (hmore : IsPlain more) :
    IsPlain (line ++ more) :=
  fun c hc => (List.mem_append.1 hc).elim (h c) (hmore c)

/-! ## Comments and live positions -/

theorem stripComments_append {u : Line} (h : '/' ∉ u) (v : Line) :
    stripComments (u ++ v) = u ++ stripComments v := by
  unfold stripComments
  induction u with
  | nil => rfl
  | cons c u ih =>
    have hc : c ≠ '/' := fun e => h (e ▸ List.mem_cons_self)
    have hu := ih fun m => h (List.mem_cons_of_mem _ m)
    rw [List.cons_append, stripCommentsFrom, hu]
    · rfl
    all_goals simp [hc]

theorem stripComments_of_not_mem {line : Line} (h : '/' ∉ line) : stripComments line = line := by
  have happend := stripComments_append h []
  rwa [List.append_nil, show stripComments [] = [] from rfl, List.append_nil] at happend

theorem stripComments_sublist (line : Line) : (stripComments line).Sublist line := by
  have hfrom (inBlock : Bool) : (stripCommentsFrom inBlock line).Sublist line := by
    fun_induction stripCommentsFrom inBlock line with
    | case1 => exact List.Sublist.refl _
    | case2 rest ih => exact (ih.cons _).cons _
    | case3 d rest _ ih => exact ih.cons _
    | case4 rest _ => exact ((List.filter_sublist).cons _).cons _
    | case5 rest _ ih => exact ih.cons_cons _
    | case6 rest _ ih => exact (ih.cons _).cons _
    | case7 rest _ ih => exact ih.cons_cons _
    | case8 d rest _ _ ih => exact ih.cons_cons _
  exact hfrom false

theorem commentSpans_of_not_mem {line : Line} (h : '/' ∉ line) : commentSpans line = [] :=
  commentSpans_of_uncommented (uncommented_of_not_mem h)

section

variable {line : Line}

theorem IsPlain.literalMask (h : IsPlain line) :
    literalMask line = List.replicate line.length false :=
  literalMask_plain fun c hc => by
    have := h c hc
    simp only [isPlainChar, Bool.not_eq_true', Bool.or_eq_false_iff] at this
    exact this.1.1.1

theorem IsPlain.maskedCells (h : IsPlain line) : maskedCells line = line.map fun c => (c, false) := by
  rw [BranchTally.maskedCells, h.literalMask, zip_replicate_length]

theorem IsPlain.isLive (h : IsPlain line) {i : Nat} (hi : i < line.length) :
    (LiveMap.of line).isLive i = true := by
  have hcomments := commentSpans_of_not_mem (h.not_mem (by decide : isPlainChar '/' = false))
  simp [LiveMap.of, LiveMap.isLive, h.literalMask, hcomments, hi]

/-- Every occurrence of a token is live. -/
theorem IsPlain.findTokens (h : IsPlain line) (token : List Char) :
    findTokens line token = occurrencesFrom token 0 0 line := by
  have hwhole : occurrencesFrom token 0 0 (line.drop 0) = occurrencesFrom token 0 0 line := rfl
  simp only [BranchTally.findTokens, hwhole, Option.all_none, Bool.true_and]
  rw [List.filter_eq_self]
  intro i hi
  have hbounds := (bounds_of_mem_occurrencesFrom hi).2
  rw [Nat.zero_add] at hbounds
  exact h.isLive hbounds

end

/-- Trimming keeps the first character that is no blank. -/
theorem exists_trim_eq_cons {line rest : Line} {c : Char} (h : skipBlanks line = c :: rest) :
    ∃ more, trim line = c :: more := by
  have hlast : [c].dropWhile isBlank = [c] := by simp [isBlank_of_skipBlanks h]
  rw [trim, h, trimEnd, List.reverse_cons, List.dropWhile_append, hlast]
  split
  · exact ⟨[], rfl⟩
  · exact ⟨(rest.reverse.dropWhile isBlank).reverse, by simp⟩

/-- A line that begins with none of the signs of comments is code. -/
theorem isQuiet_of_head {line rest : Line} {c : Char} (h : skipBlanks line = c :: rest)
    (hslash : c ≠ '/') (hstar : c ≠ '*') : isQuiet line = false := by
  obtain ⟨more, htrim⟩ := exists_trim_eq_cons h
  have hcomment : isCommentLine line = false := by
    unfold isCommentLine
    rw [htrim]
    split
    · next heq => exact absurd (List.cons.inj heq).1 hslash
    · next heq => exact absurd (List.cons.inj heq).1 hslash
    · next heq => exact absurd (List.cons.inj heq).1 hstar
    · rfl
  simp [isQuiet, htrim, hcomment]

/-- A line with something on it is code, unless it begins with a comment or with a star. -/
theorem isQuiet_of_uncommented {line rest : Line} {c : Char} (h : skipBlanks line = c :: rest)
    (hcomments : Uncommented line) (hstar : c ≠ '*') : isQuiet line = false := by
  obtain ⟨more, htrim⟩ := exists_trim_eq_cons h
  have hpart : trim line <:+: line :=
    (trim_prefix_skipBlanks line).isInfix.trans (skipBlanks_suffix line).isInfix
  have hchain : Uncommented (trim line) := List.IsChain.infix hcomments hpart
  have hcomment : isCommentLine line = false := by
    unfold isCommentLine
    split
    · next heq => simp [heq, Uncommented] at hchain
    · next heq => simp [heq, Uncommented] at hchain
    · next heq => exact absurd (List.cons.inj (htrim.symm.trans heq)).1 hstar
    · rfl
  simp [isQuiet, htrim, hcomment]

/-- A line with something on it and without the signs of comments is code. -/
theorem isQuiet_of_not_mem {line : Line} {c : Char} (hc : c ∈ line) (hblank : isBlank c = false)
    (hslash : '/' ∉ line) (hstar : '*' ∉ line) : isQuiet line = false := by
  cases hskip : skipBlanks line with
  | nil =>
    have hall := blank_of_skipBlanks_eq_nil hskip c hc
    exact absurd (hblank.symm.trans hall) Bool.false_ne_true
  | cons d rest =>
    have hmem : d ∈ line := (skipBlanks_suffix line).subset (hskip ▸ List.mem_cons_self)
    exact isQuiet_of_head hskip (fun e => hslash (e ▸ hmem)) fun e => hstar (e ▸ hmem)

/-! ## Question marks -/

theorem occurrencesFrom_eq_nil_of_not_mem {token text : List Char} {c : Char} (hc : c ∈ token)
    (h : c ∉ text) (skip pos : Nat) : occurrencesFrom token skip pos text = [] := by
  induction text generalizing skip pos with
  | nil => cases skip <;> rfl
  | cons d text ih =>
    have htext := ih fun m => h (List.mem_cons_of_mem _ m)
    have hprefix : token.isPrefixOf (d :: text) = false := by
      rw [Bool.eq_false_iff]
      exact fun hp => h ((List.isPrefixOf_iff_prefix.1 hp).subset hc)
    cases skip with
    | zero => simp [occurrencesFrom, hprefix, htext]
    | succ skip => simp [occurrencesFrom, htext]

theorem findTokens_eq_nil_of_not_mem {token line : List Char} {c : Char} (hc : c ∈ token)
    (h : c ∉ line) (start : Nat) (stop : Option Nat) : findTokens line token start stop = [] := by
  have hdrop : c ∉ line.drop start := fun m => h (List.mem_of_mem_drop m)
  have hnone := occurrencesFrom_eq_nil_of_not_mem hc hdrop 0 start
  rw [findTokens, hnone]
  rfl

theorem hasLiveQuestion_of_not_mem {line : Line} (h : '?' ∉ line) :
    hasLiveQuestion line = false := by
  rw [hasLiveQuestion, List.any_eq_false]
  intro cell hcell
  have hne : cell.1 ≠ '?' := fun e => h (e ▸ (List.of_mem_zip hcell).1)
  simp [hne]

theorem char_of_mem_cellsFrom {before : Option Char} {cells : List (Char × Bool)} {cell : Cell}
    (h : cell ∈ cellsFrom before cells) : ∃ masked, (cell.char, masked) ∈ cells := by
  induction cells generalizing before with
  | nil => simp [cellsFrom] at h
  | cons c cells ih =>
    simp only [cellsFrom] at h
    rcases List.mem_cons.1 h with rfl | h
    · exact ⟨c.2, List.mem_cons_self⟩
    · obtain ⟨masked, hmem⟩ := ih h
      exact ⟨masked, List.mem_cons_of_mem _ hmem⟩

theorem ternaryPositions_of_not_mem {f : Focus} (h : '?' ∉ f.line) : ternaryPositions f = [] := by
  rw [ternaryPositions, List.filter_eq_nil_iff]
  intro i _ hi
  rw [Bool.and_eq_true] at hi
  have hopen := hi.1
  unfold mayOpenTernary at hopen
  split at hopen
  · next cell hcell =>
    simp only [Bool.and_eq_true, decide_eq_true_eq] at hopen
    obtain ⟨masked, hmem⟩ := char_of_mem_cellsFrom (List.mem_of_getElem? hcell)
    exact h (hopen.1.1.1 ▸ (List.of_mem_zip hmem).1)
  · exact Bool.false_ne_true hopen

theorem isTernaryCondition_of_not_mem {f : Focus} (h : ∀ line ∈ f.after, '?' ∉ line) :
    isTernaryCondition f = false := by
  unfold isTernaryCondition
  split
  · next next second rest hafter =>
    have hnext : hasLiveQuestion next = false :=
      hasLiveQuestion_of_not_mem (h next (hafter ▸ List.mem_cons_self))
    simp [hnext]
  · rfl

/-! ## Equals signs -/

/-- A name with an equals sign behind it is read off no text without equals signs. -/
theorem bind_identifier?_of_not_mem {s : List Char} (h : '=' ∉ s) :
    (identifier? s).bind (spacedChar? '=') = none := by
  rw [Option.bind_eq_none_iff]
  intro tail htail
  rw [Option.eq_none_iff_forall_ne_some]
  intro value hvalue
  have htail' : tail <:+ s := by
    cases s with
    | nil => simp [identifier?] at htail
    | cons c rest =>
      simp only [identifier?] at htail
      split at htail
      · obtain rfl := Option.some.inj htail
        exact (List.dropWhile_suffix _).trans (List.suffix_cons _ _)
      · simp at htail
  exact h (htail'.subset ((suffix_of_spacedChar? hvalue).subset List.mem_cons_self))

namespace DefaultForm

variable {form : DefaultForm} {s : List Char} (h : '=' ∉ s)

include h

theorem take?_of_not_mem (before : Option Char) : form.take? before s = none := by
  cases s with
  | nil => rfl
  | cons c rest =>
    simp only [take?, bind_identifier?_of_not_mem h]
    split <;> rfl

theorem countFrom_of_not_mem {skip : Nat} (before : Option Char) : form.countFrom skip before s = 0 := by
  induction s generalizing skip before with
  | nil => cases skip <;> rfl
  | cons c s ih =>
    have hrest {skip : Nat} := @ih (fun m => h (List.mem_cons_of_mem _ m)) skip (some c)
    cases skip with
    | zero => simp [countFrom, take?_of_not_mem h, hrest]
    | succ skip => exact hrest

theorem count_of_not_mem : form.count s = 0 := countFrom_of_not_mem h none

end DefaultForm

theorem hasArrow_of_not_mem {line : Line} (h : '=' ∉ line) : hasArrow line = false :=
  anyTail_eq_false fun _ ht => Bool.eq_false_iff.2 fun hprefix =>
    h (ht.subset ((List.isPrefixOf_iff_prefix.1 hprefix).subset List.mem_cons_self))

theorem arrowPosition?_eq_none {line : Line} (h : hasArrow line = false) :
    arrowPosition? line = none := by
  rw [hasArrow, ← isSome_find?, Option.isSome_eq_false_iff, Option.isNone_iff_eq_none] at h
  rw [arrowPosition?, h]
  rfl

theorem arrowPosition?_of_not_mem {line : Line} (h : '=' ∉ line) : arrowPosition? line = none :=
  arrowPosition?_eq_none (hasArrow_of_not_mem h)

theorem parameterPoints_of_not_mem (ctx : Ownership) (lines : List Line) {f : Focus} (owner : Int)
    (h : '=' ∉ stripComments f.line) : parameterPoints ctx lines f owner = [] := by
  have hsignature (b : Boundary) :
      signaturePoints lines (stripComments f.line) f owner b = [] := by
    have hdefaults : signatureDefaults (stripComments f.line) = 0 := by
      rw [signatureDefaults, arrowPosition?_of_not_mem h]
      exact DefaultForm.count_of_not_mem h
    simp only [signaturePoints, hdefaults, defaultPoints, List.replicate_zero, ite_self]
  simp only [parameterPoints, arrowPosition?_of_not_mem h, Option.isSome_none,
    Bool.false_eq_true, if_false]
  split
  · exact hsignature _
  · rfl

theorem destructuringPoints_of_not_mem {f : Focus} (owner : Int) (boundary : Option Boundary)
    (h : '=' ∉ stripComments f.line) : destructuringPoints f owner boundary = [] := by
  unfold destructuringPoints
  split
  · rfl
  · simp only [DefaultForm.count_of_not_mem h, defaultPoints, List.replicate_zero, ite_self]

/-! ## Points of a plain line -/

theorem occurrencesFrom_of_not_hasLogicalPair {text : Line} (h : hasLogicalPair text = false)
    (op : Logical) (pos : Nat) : occurrencesFrom op.token 0 pos text = [] := by
  induction text generalizing pos with
  | nil => rfl
  | cons c text ih =>
    cases text with
    | nil =>
      cases op <;> simp [occurrencesFrom, Logical.token, List.isPrefixOf]
    | cons d text =>
      simp only [hasLogicalPair, anyPair, Bool.or_eq_false_iff] at h
      have hprefix : op.token.isPrefixOf (c :: d :: text) = false := by
        rw [Bool.eq_false_iff]
        intro hp
        cases op <;>
          simp only [Logical.token, List.isPrefixOf, Bool.and_true, Bool.and_eq_true,
            beq_iff_eq] at hp <;>
          simp [← hp.1, ← hp.2, isLogicalChar] at h
      rw [occurrencesFrom, if_neg (Bool.eq_false_iff.1 hprefix)]
      exact ih h.2 (pos + 1)

theorem hasKey_single {key owner : Int} {boundary : Boundary} :
    (Ownership.of (BoundaryMap.single key boundary)).HasKey owner ↔ owner = key := by
  constructor
  · rintro ⟨f, hf, rfl⟩
    obtain rfl := List.mem_singleton.1 hf
    rfl
  · rintro rfl
    exact ⟨⟨owner, boundary⟩, List.mem_cons_self, rfl⟩

section

variable {key : Int} {boundary : Boundary} {f : Focus}

theorem expressionPoints_single (hplain : IsPlain f.line) (hbelow : ∀ line ∈ f.after, '?' ∉ line) :
    expressionPoints (Ownership.of (.single key boundary)) f (Headers.of f.line)
      (Markup.of f (Headers.of f.line)) key =
      if (Headers.of f.line).isControl then [] else logicalPoints f.line f.number key := by
  have hstrip := stripComments_of_not_mem (hplain.not_mem (by decide : isPlainChar '/' = false))
  simp only [expressionPoints, isTernaryCondition_of_not_mem hbelow, Bool.or_false, hstrip]
  cases hcontrol : (Headers.of f.line).isControl with
  | true => simp [isBooleanExpression, hcontrol]
  | false =>
    cases hexpression : isBooleanExpression f.line (Headers.of f.line)
        (Markup.of f (Headers.of f.line)) with
    | true =>
      have hkey (i : Nat) : expressionOwner (Ownership.of (.single key boundary)) f.line f.number
          i key = key := hasKey_single.1 (hasKey_expressionOwner (hasKey_single.2 rfl))
      simp [hkey, logicalPoints, pointsAt]
    | false =>
      have hpair : hasLogicalPair f.line = false := by
        simp only [isBooleanExpression, hcontrol, Bool.not_false, Bool.true_and,
          Bool.or_eq_false_iff] at hexpression
        exact hexpression.2
      have htokens (op : Logical) : findTokens f.line op.token = [] := by
        rw [hplain.findTokens, occurrencesFrom_of_not_hasLogicalPair hpair]
      simp [logicalPoints, pointsAt, htokens]

/-- A plain line of the only function makes the points of its headers and those of its operators,
which no header claims where there is none. -/
theorem codePoints_single (lines : List Line) (hplain : IsPlain f.line)
    (hbelow : ∀ line ∈ f.after, '?' ∉ line) :
    codePoints (Ownership.of (.single key boundary)) lines f key =
      controlPoints (Ownership.of (.single key boundary)) f.line f.number (Headers.of f.line) key ++
        if (Headers.of f.line).isControl then [] else logicalPoints f.line f.number key := by
  have hquestion : '?' ∉ f.line := hplain.not_mem (by decide)
  have hequals : '=' ∉ stripComments f.line := by
    rw [stripComments_of_not_mem (hplain.not_mem (by decide : isPlainChar '/' = false))]
    exact hplain.not_mem (by decide)
  have hternary : ternaryPoints f key (Ownership.of (.single key boundary)).innermost? = [] := by
    simp only [ternaryPoints, ternaryPositions_of_not_mem hquestion, nullishPoints,
      nullishPositions]
    rw [findTokens_eq_nil_of_not_mem (by simp : '?' ∈ ['?', '?']) hquestion]
    rfl
  have hchain : chainPoints f.line f.number key = [] := by
    rw [chainPoints, findTokens_eq_nil_of_not_mem (by simp : '?' ∈ ['?', '.']) hquestion]
    rfl
  have hexpressions :
      (if (continuationPoints (Ownership.of (.single key boundary)) f (Headers.of f.line)
          (Markup.of f (Headers.of f.line)) key).isEmpty then
        expressionPoints (Ownership.of (.single key boundary)) f (Headers.of f.line)
          (Markup.of f (Headers.of f.line)) key
      else continuationPoints (Ownership.of (.single key boundary)) f (Headers.of f.line)
        (Markup.of f (Headers.of f.line)) key) =
      if (Headers.of f.line).isControl then [] else logicalPoints f.line f.number key := by
    split
    · exact expressionPoints_single hplain hbelow
    · next hcontinued =>
      rcases continuationPoints_eq (.single key boundary) f (Headers.of f.line)
        (Markup.of f (Headers.of f.line)) (hasKey_single.2 rfl) with
        hnone | ⟨hmay, other, hother, hsome⟩
      · rw [hnone] at hcontinued
        exact absurd rfl hcontinued
      · obtain rfl := hasKey_single.1 hother
        have hcontrol : (Headers.of f.line).isControl = false := by
          simp only [mayContinue, Bool.and_eq_true, Bool.not_eq_true'] at hmay
          exact hmay.1.1.1.1.1.1
        rw [hsome, hcontrol]
        rfl
  simp only [codePoints, hternary, hchain, hexpressions, parameterPoints_of_not_mem _ _ _ hequals,
    destructuringPoints_of_not_mem _ _ hequals, List.isEmpty_nil, if_true, List.append_nil]

/-- The line belongs to the only function where this one reaches so far. -/
theorem innermost?_single {line : Int} (hinside : boundary.contains line = true) :
    (Ownership.of (.single key boundary)).innermost? line = some key := by
  have hsome : ((Ownership.of (.single key boundary)).innermost? line).isSome = true :=
    (Ownership.innermost?_isSome_iff _ _).2 ⟨⟨key, boundary⟩, List.mem_cons_self, hinside⟩
  obtain ⟨owner, hinnermost⟩ := Option.isSome_iff_exists.1 hsome
  obtain rfl := hasKey_single.1 (Ownership.hasKey_of_innermost? hinnermost)
  exact hinnermost

theorem scanLine_single (lines : List Line) (hcode : isQuiet f.line = false)
    (hinside : boundary.contains f.number = true) :
    scanLine (Ownership.of (.single key boundary)) lines f =
      codePoints (Ownership.of (.single key boundary)) lines f key := by
  simp [scanLine, hcode, innermost?_single hinside]

/-- The points of a source of one line that belongs to a function. -/
theorem decisionPoints_single_line {source : List Char} {line : Line}
    (hlines : splitLines source = [line]) (hcode : isQuiet line = false)
    (hinside : boundary.contains 1 = true) :
    (decisionPoints source (.single key boundary)).Perm (distinctPoints
      (codePoints (Ownership.of (.single key boundary)) [line] ⟨1, [], line, []⟩ key)) := by
  have hscan := @scanLine_single key boundary ⟨1, [], line, []⟩ [line] hcode hinside
  have hraw : rawPoints (Ownership.of (.single key boundary)) [line] =
      codePoints (Ownership.of (.single key boundary)) [line] ⟨1, [], line, []⟩ key := by
    rw [← hscan]
    exact List.append_nil _
  rw [← hraw, ← hlines]
  exact decisionPoints_perm source _

theorem decisionPoints_eq_nil_of_plain {source : List Char} {line : Line}
    (hlines : splitLines source = [line]) (hcode : isQuiet line = false)
    (hinside : boundary.contains 1 = true) (hplain : IsPlain line)
    (hcontrol : ∀ ctx, controlPoints ctx line 1 (Headers.of line) key = [])
    (hlogical : logicalPoints line 1 key = []) : decisionPoints source (.single key boundary) = [] := by
  have hperm := @decisionPoints_single_line key boundary source line hlines hcode hinside
  rw [@codePoints_single key boundary ⟨1, [], line, []⟩ [line] hplain (by simp), hcontrol, hlogical,
    ite_self] at hperm
  exact hperm.eq_nil

end

end BranchTally
