-- SUMMARY: Empty lines above and below a text are passed over by every search that leaves its line, and only the numbers move.
import BranchTally.Proofs.Layout
import BranchTally.Proofs.Relabeling.Owners

/-!
# Padding

No search of a collector ends at an empty line: a look-back or look-ahead goes on past it as it would at
the edge of the text. So a line that is seen with empty lines around its text reads as before, and what
is said about it in numbers of lines moves with its own number.
-/

namespace BranchTally

open Text

/-- Some lines with empty ones around them. -/
def padLines (above below : Nat) (lines : List Line) : List Line :=
  List.replicate above [] ++ lines ++ List.replicate below []

/-- A line in view in a text with empty lines around it. -/
def Focus.pad (f : Focus) (above below : Nat) : Focus where
  number := f.number + above
  before := f.before ++ List.replicate above []
  line := f.line
  after := f.after ++ List.replicate below []

/-- The first lines of a text with empty ones behind it are first lines of the text, then empty ones. -/
theorem take_append_empty (lines : List Line) (count limit : Nat) :
    ∃ count', (lines ++ List.replicate count []).take limit =
      lines.take limit ++ List.replicate count' [] :=
  ⟨min (limit - lines.length) count, by rw [List.take_append, List.take_replicate]⟩

theorem getD_append_empty (lines : List Line) (count i : Nat) :
    ((lines ++ List.replicate count [])[i]?).getD [] = (lines[i]?).getD [] := by
  rw [List.getElem?_append]
  split
  · rfl
  · next h =>
    rw [List.getElem?_eq_none (Nat.le_of_not_lt h), List.getElem?_replicate]
    split <;> rfl

section

variable (f : Focus) (above below : Nat)

@[simp] theorem number_pad : (f.pad above below).number = f.number + above := rfl

@[simp] theorem line_pad : (f.pad above below).line = f.line := rfl

@[simp] theorem before_pad : (f.pad above below).before = f.before ++ List.replicate above [] := rfl

@[simp] theorem after_pad : (f.pad above below).after = f.after ++ List.replicate below [] := rfl

theorem up?_pad {f g : Focus} (h : f.up? = some g) :
    (f.pad above below).up? = some (g.pad above below) := by
  obtain ⟨number, before, line, after⟩ := f
  rcases before with _ | ⟨first, before⟩
  · simp [Focus.up?] at h
  · cases h
    simp only [Focus.up?, Focus.pad, List.cons_append, Option.some.injEq, Focus.mk.injEq, and_self,
      and_true]
    omega

/-! ## Ternaries -/

theorem searchLines_append_empty (rule : ColonRule) (state : ColonState) (lines : List Line)
    (count : Nat) : rule.searchLines state (lines ++ List.replicate count []) =
      rule.searchLines state lines := by
  induction lines generalizing state with
  | nil =>
    induction count with
    | zero => rfl
    | succ count ih => exact ih
  | cons line rest ih =>
    simp only [List.cons_append, ColonRule.searchLines, ih]

@[simp] theorem hasMatchingColon_pad (position : Nat) :
    hasMatchingColon (f.pad above below) position = hasMatchingColon f position := by
  obtain ⟨count, htake⟩ := take_append_empty f.after below continuationLimit
  simp only [hasMatchingColon, colonFollows, line_pad, after_pad, htake, searchLines_append_empty]
  rfl

@[simp] theorem ternaryPositions_pad : ternaryPositions (f.pad above below) = ternaryPositions f := by
  simp only [ternaryPositions, line_pad, hasMatchingColon_pad]

/-- An empty line is neither that of a question mark nor that of a colon. -/
@[simp] theorem isTernaryCondition_pad :
    isTernaryCondition (f.pad above below) = isTernaryCondition f := by
  obtain ⟨number, before, line, after⟩ := f
  have hquestion : hasLiveQuestion [] = false := rfl
  have hcolon : (trim []).head? ≠ some ':' := by decide
  rcases after with _ | ⟨next, _ | ⟨second, rest⟩⟩
  · rcases below with _ | _ | below <;> simp [isTernaryCondition, Focus.pad, List.replicate_succ, hquestion]
  · rcases below with _ | below <;> simp [isTernaryCondition, Focus.pad, List.replicate_succ, hcolon]
  · rfl

/-- Above the text there is no condition of a ternary. -/
theorem isTernaryCondition_of_up?_pad {f g : Focus} (hup : f.up? = none)
    (h : (f.pad above below).up? = some g) : isTernaryCondition g = false := by
  obtain ⟨number, before, line, after⟩ := f
  rcases before with _ | ⟨first, before⟩
  · rcases above with _ | above
    · simp [Focus.up?] at h
    · have hempty (after : List Line) :
          isTernaryCondition ⟨number + (above + 1 : Nat) - 1, List.replicate above [], [], after⟩ =
            false := by
        rcases after with _ | ⟨next, _ | ⟨second, rest⟩⟩ <;> rfl
      simp only [Focus.up?, before_pad, List.nil_append, List.replicate_succ, Option.some.injEq] at h
      exact h ▸ hempty _
  · simp [Focus.up?] at hup

/-! ## Operators -/

@[simp] theorem markup_pad (headers : Headers) :
    Markup.of (f.pad above below) headers = Markup.of f headers := by
  obtain ⟨number, before, line, after⟩ := f
  rcases before with _ | ⟨first, before⟩
  · rcases above with _ | above
    · rfl
    · have hbrace : (stripComments []).contains '{' = false := by decide
      simp only [Markup.of, before_pad, line_pad, List.nil_append, List.replicate_succ, hbrace]
  · rfl

@[simp] theorem mayContinue_pad (headers : Headers) (markup : Markup) :
    mayContinue (f.pad above below) headers markup = mayContinue f headers markup := by
  simp only [mayContinue, line_pad, isTernaryCondition_pad]

theorem conditionStartFrom_append_empty (distance : Nat) (found : Option Nat) (lines : List Line)
    (count : Nat) : conditionStartFrom distance found (lines ++ List.replicate count []) =
      conditionStartFrom distance found lines := by
  have hstops : stopsLookback (trim (stripComments [])) = false := by decide
  have hstart : isConditionStart (trim (stripComments [])) = false := by decide
  have hpair : hasLogicalPair (trim (stripComments [])) = false := by decide
  induction lines generalizing distance found with
  | nil =>
    induction count generalizing distance with
    | zero => rfl
    | succ count ih =>
      have hskip := ih (distance + 1)
      simp only [List.nil_append, conditionStartFrom] at hskip ⊢
      simpa only [List.replicate_succ, conditionStartFrom, hstops, hstart, hpair, Bool.false_eq_true,
        if_false] using hskip
  | cons line rest ih => simp only [List.cons_append, conditionStartFrom, ih]

theorem conditionStart?_append_empty (lines : List Line) (count : Nat) :
    conditionStart? (lines ++ List.replicate count []) = conditionStart? lines := by
  obtain ⟨count', htake⟩ := take_append_empty lines count lookbackLimit
  rw [conditionStart?, htake, conditionStartFrom_append_empty, conditionStart?]

/-! ## Defaults -/

@[simp] theorem isDependencyArray_pad (line : Line) :
    isDependencyArray line (f.pad above below) = isDependencyArray line f := by
  obtain ⟨number, before, text, after⟩ := f
  have hbrace : endsWithBraceComma (stripComments []) = false := by decide
  rcases before with _ | ⟨first, before⟩
  · rcases above with _ | above <;>
      simp [isDependencyArray, Focus.pad, List.replicate_succ, hbrace]
  · rfl

theorem isInsideTag_append_empty (lines : List Line) (count : Nat) :
    isInsideTag (lines ++ List.replicate count []) = isInsideTag lines := by
  have hempty : isInsideTag (List.replicate count []) = false := by
    have hcloses : anyTail closesTag (stripComments []) = false := by decide
    have hopens : anyTail opensStartTag (stripComments []) = false := by decide
    have hstatement : opensStatement (stripComments []) = false := by decide
    induction count with
    | zero => rfl
    | succ count ih =>
      simpa only [List.replicate_succ, isInsideTag, hcloses, hopens, hstatement, Bool.false_eq_true,
        if_false] using ih
  induction lines with
  | nil => exact hempty
  | cons line rest ih => simp only [List.cons_append, isInsideTag, ih]

@[simp] theorem isMarkupAttribute_pad (line : Line) :
    isMarkupAttribute line (f.pad above below) = isMarkupAttribute line f := by
  obtain ⟨count, htake⟩ := take_append_empty f.before above tagLookback
  rw [isMarkupAttribute, before_pad, htake, isInsideTag_append_empty, isMarkupAttribute]

@[simp] theorem isNoArrowContext_pad (line : Line) :
    isNoArrowContext line (f.pad above below) = isNoArrowContext line f := by
  simp only [isNoArrowContext, isMarkupAttribute_pad]

@[simp] theorem isExcluded_pad (line : Line) :
    isExcluded line (f.pad above below) = isExcluded line f := by
  simp only [isExcluded, isNoArrowContext_pad]

@[simp] theorem opensSplitArrow_pad (line : Line) :
    opensSplitArrow line (f.pad above below) = opensSplitArrow line f := by
  obtain ⟨number, before, text, after⟩ := f
  have harrow : hasArrow (stripComments []) = false := by decide
  rcases after with _ | ⟨next, rest⟩
  · rcases below with _ | below <;>
      simp [opensSplitArrow, Focus.pad, List.replicate_succ, harrow]
  · rfl

theorem arrowBelowFrom_pad (number : Int) (lines : List Line) (count : Nat) :
    arrowBelowFrom (number + above) (lines ++ List.replicate count []) =
      (arrowBelowFrom number lines).map (· + (above : Int)) := by
  have harrow : hasArrow (stripComments []) = false := by decide
  induction lines generalizing number with
  | nil =>
    induction count generalizing number with
    | zero => rfl
    | succ count ih =>
      have hskip := ih (number + 1)
      rw [Int.add_right_comm] at hskip
      simpa only [List.nil_append, List.replicate_succ, arrowBelowFrom, harrow, Bool.false_eq_true,
        if_false] using hskip
  | cons line rest ih =>
    simp only [List.cons_append, arrowBelowFrom]
    split
    · rw [Option.map_some, Int.add_right_comm]
    · rw [Int.add_right_comm, ih]

@[simp] theorem arrowBelow?_pad :
    arrowBelow? (f.pad above below) = (arrowBelow? f).map (· + (above : Int)) := by
  obtain ⟨count, htake⟩ := take_append_empty f.after below arrowLookahead
  rw [arrowBelow?, number_pad, after_pad, htake, Int.add_right_comm, arrowBelowFrom_pad, arrowBelow?]

theorem widenedListEnd_pad (stop first : Int) (line : Line) (signature : Bool) :
    widenedListEnd (stop + above) (first + above) (f.pad above below) line signature =
      widenedListEnd stop first f line signature + above := by
  simp only [widenedListEnd, number_pad, arrowBelow?_pad, ne_eq, Int.add_left_inj,
    Int.add_lt_add_iff_right, Option.getD_map]
  split
  · rfl
  · split
    · rw [Int.add_right_comm]
    · rfl

/-! ## Signatures -/

section

variable (lines : Int)

theorem arrowEnd?_shift (walked : Line) (number asked : Int) (line : Line) :
    arrowEnd? walked (number + lines) (asked + lines) line =
      (arrowEnd? walked number asked line).map (· + lines) := by
  simp only [arrowEnd?, Int.add_left_inj, Int.add_lt_add_iff_right]
  split
  · rfl
  · split
    · split
      · split
        · rw [Option.map_some, Int.add_right_comm]
        · rfl
      · rw [Option.map_some, Int.add_right_comm]
    · split
      · rw [Option.map_some, Int.add_right_comm]
      · rfl

/-- The result of a walk when all numbers are larger by `lines`. -/
def ListResult.shift : ListResult → ListResult
  | .ends line => .ends (line + lines)
  | .goesOn state => .goesOn state

theorem ListState.walk_shift (isFunction : Bool) (number first : Int) (s : ListState) (line : Line) :
    s.walk isFunction (number + lines) (first + lines) line =
      (s.walk isFunction number first line).shift lines := by
  induction line generalizing s with
  | nil => rfl
  | cons c rest ih =>
    simp only [ListState.walk, Int.add_left_inj]
    split
    · split
      · rw [ListResult.shift, Int.add_right_comm]
      · rfl
    · split
      · rfl
      · exact ih _

theorem signatureEnd?_shift (asked first : Int) (line : Line) (number : Int) (s : ListState)
    (walked : List Line) :
    signatureEnd? (asked + lines) (first + lines) line (number + lines) s walked =
      (signatureEnd? asked first line number s walked).map (· + lines) := by
  induction walked generalizing number s with
  | nil => rfl
  | cons next rest ih =>
    simp only [signatureEnd?, arrowEnd?_shift]
    cases arrowEnd? (stripComments next) number asked line with
    | some stop => rfl
    | none =>
      simp only [Option.map_none, ListState.walkLine, ListState.walk_shift]
      cases s.walk (occurs functionWord (stripComments next)) number first (stripComments next) with
      | ends stop => rfl
      | goesOn s =>
        simp only [ListResult.shift]
        rw [Int.add_right_comm]
        exact ih _ _

end

/-- The walk goes past an empty line. -/
theorem signatureEnd?_cons_empty (asked first : Int) (line : Line) (number : Int) (s : ListState)
    (walked : List Line) : signatureEnd? asked first line number s ([] :: walked) =
      signatureEnd? asked first line (number + 1) s walked := by
  have harrow : arrowEnd? (stripComments []) number asked line = none := by
    have hnone : hasArrow (stripComments []) = false := by decide
    rw [arrowEnd?, hnone]
    rfl
  rw [signatureEnd?]
  simp only [harrow]
  rfl

theorem signatureEnd?_empty_append (asked first : Int) (line : Line) (number : Int) (s : ListState)
    (count : Nat) (walked : List Line) :
    signatureEnd? asked first line number s (List.replicate count [] ++ walked) =
      signatureEnd? asked first line (number + count) s walked := by
  induction count generalizing number with
  | zero => simp
  | succ count ih =>
    rw [List.replicate_succ, List.cons_append, signatureEnd?_cons_empty, ih]
    congr 1
    omega

theorem signatureEnd?_append_empty (asked first : Int) (line : Line) (number : Int) (s : ListState)
    (walked : List Line) (count : Nat) :
    signatureEnd? asked first line number s (walked ++ List.replicate count []) =
      signatureEnd? asked first line number s walked := by
  induction walked generalizing number s with
  | nil =>
    rw [List.nil_append, ← List.append_nil (List.replicate count []), signatureEnd?_empty_append]
    rfl
  | cons next rest ih => simp only [List.cons_append, signatureEnd?, ih]

/-- In a padded text the lines of a signature stand between empty ones. -/
theorem signatureLines_pad (first : Int) (above below : Nat) (lines : List Line) :
    ∃ front back, signatureLines (first + above) (padLines above below lines) =
        List.replicate front [] ++ signatureLines first lines ++ List.replicate back [] ∧
      (signatureLines first lines = [] ∨
        max (first + above - 1) 0 + front = max (first - 1) 0 + above) := by
  obtain ⟨back, htake⟩ := take_append_empty lines below (first + signatureLimit).toNat
  have hlimit : (first + above + signatureLimit).toNat - above = (first + signatureLimit).toNat := by
    omega
  have hcut : signatureLines (first + above) (padLines above below lines) =
      (List.replicate (min (first + above + signatureLimit).toNat above) [] ++
        (lines.take (first + signatureLimit).toNat ++ List.replicate back [])).drop
          (first + above - 1).toNat := by
    rw [signatureLines, padLines, List.append_assoc, List.take_append, List.take_replicate,
      List.length_replicate, hlimit, htake]
  have hdrop : (first + above - 1).toNat - above = (first - 1).toNat := by omega
  obtain hnone | hsome := Int.lt_or_le (first + signatureLimit) 0
  · have hempty : (first + signatureLimit).toNat = 0 := Int.toNat_eq_zero.2 (Int.le_of_lt hnone)
    have hlines : signatureLines first lines = [] := by
      rw [signatureLines, hempty, List.take_zero, List.drop_nil]
    rw [hcut, hlines, hempty, List.take_zero, List.nil_append, ← List.replicate_add,
      List.drop_replicate]
    exact ⟨0, _, rfl, .inl rfl⟩
  · have hall : min (first + above + signatureLimit).toNat above = above := by omega
    rw [hcut, hall, List.drop_append, List.drop_replicate, List.length_replicate, hdrop,
      List.drop_append, List.drop_replicate, ← List.append_assoc]
    exact ⟨_, _, rfl, .inr (by omega)⟩

theorem parameterListEnd_pad (asked first : Int) (above below : Nat) (lines : List Line) (line : Line) :
    parameterListEnd (asked + above) (first + above) (padLines above below lines) line =
      parameterListEnd asked first lines line + above := by
  obtain ⟨front, back, hlines, hnumber⟩ := signatureLines_pad first above below lines
  have hend : signatureEnd? (asked + above) (first + above) line (max (first + above - 1) 0 + 1) {}
      (signatureLines (first + above) (padLines above below lines)) =
      (signatureEnd? asked first line (max (first - 1) 0 + 1) {} (signatureLines first lines)).map
        (· + (above : Int)) := by
    rw [hlines, signatureEnd?_append_empty, signatureEnd?_empty_append, ← signatureEnd?_shift]
    rcases hnumber with hempty | hnumber
    · rw [hempty]
      rfl
    · congr 1
      omega
  simp only [parameterListEnd, hend, Int.add_left_inj]
  cases signatureEnd? asked first line (max (first - 1) 0 + 1) {} (signatureLines first lines) with
  | some stop => rfl
  | none =>
    simp only [Option.map_none]
    split
    · rw [Int.add_right_comm]
    · rfl

/-! ## Destructuring -/

theorem isInDestructuringFrom_pad (boundary : Boundary) (distance : Int) (lines : List Line)
    (count : Nat) :
    isInDestructuringFrom (f.pad above below) (boundary.shift above) distance
      (lines ++ List.replicate count []) = isInDestructuringFrom f boundary distance lines := by
  have hempty : trim (stripComments []) = [] := by decide
  have hopens : opensDestructuring [] = false := by decide
  have hnumber (distance : Int) : f.number + above - distance = f.number - distance + above := by
    omega
  induction lines generalizing distance with
  | nil =>
    induction count generalizing distance with
    | zero => rfl
    | succ count ih =>
      have hskip := ih (distance + 1)
      simp only [List.nil_append, isInDestructuringFrom] at hskip ⊢
      simp [List.replicate_succ, isInDestructuringFrom, hempty, hopens, hskip]
  | cons line rest ih =>
    simp only [List.cons_append, isInDestructuringFrom, number_pad, Boundary.start_shift, hnumber,
      Int.add_lt_add_iff_right, ih]

@[simp] theorem isInDestructuring_pad (line : Line) (boundary : Boundary) :
    isInDestructuring line (f.pad above below) (boundary.shift above) =
      isInDestructuring line f boundary := by
  obtain ⟨count, htake⟩ := take_append_empty f.before above destructuringLookback
  rw [isInDestructuring, before_pad, htake, isInDestructuringFrom_pad, isInDestructuring]

end

/-! ## All lines -/

section

variable {β : Type} {g : Focus → List β} (hg : ∀ f : Focus, f.line = [] → g f = [])

include hg

theorem flatMap_fociFrom_empty (number : Int) (before : List Line) (count : Nat) (lines : List Line) :
    (fociFrom number before (List.replicate count [] ++ lines)).flatMap g =
      (fociFrom (number + count) (List.replicate count [] ++ before) lines).flatMap g := by
  induction count generalizing number before with
  | zero => simp
  | succ count ih =>
    have hbefore : List.replicate count [] ++ [] :: before = List.replicate (count + 1) [] ++ before := by
      rw [List.replicate_succ', List.append_assoc, List.singleton_append]
    rw [List.replicate_succ, List.cons_append, fociFrom, List.flatMap_cons, hg _ rfl, List.nil_append,
      ih, hbefore]
    congr 2
    omega

theorem flatMap_fociFrom_pad (number : Int) (before : List Line) (above below : Nat)
    (lines : List Line) :
    (fociFrom (number + above) (before ++ List.replicate above [])
      (lines ++ List.replicate below [])).flatMap g =
      (fociFrom number before lines).flatMap fun f => g (f.pad above below) := by
  induction lines generalizing number before with
  | nil =>
    rw [List.nil_append, ← List.append_nil (List.replicate below []), flatMap_fociFrom_empty hg]
    rfl
  | cons line rest ih =>
    rw [List.cons_append, fociFrom, fociFrom, List.flatMap_cons, List.flatMap_cons,
      Int.add_right_comm, ← List.cons_append, ih]
    rfl

/-- What comes of the lines of a padded text comes of the lines of the text. -/
theorem flatMap_foci_padLines (above below : Nat) (lines : List Line) :
    (foci (padLines above below lines)).flatMap g =
      (foci lines).flatMap fun f => g (f.pad above below) := by
  rw [foci, padLines, List.append_assoc, flatMap_fociFrom_empty hg, List.append_nil,
    ← List.nil_append (List.replicate above []), flatMap_fociFrom_pad hg, foci]

end

theorem rawLines_feeds_append (count : Nat) (source : List Char) :
    rawLines (List.replicate count '\n' ++ source) = List.replicate count [] ++ rawLines source := by
  induction count with
  | zero => rfl
  | succ count ih =>
    rw [List.replicate_succ, List.cons_append, rawLines, if_pos rfl, ih, List.replicate_succ,
      List.cons_append]

theorem rawLines_append_feeds (source : List Char) (count : Nat) :
    rawLines (source ++ List.replicate count '\n') = rawLines source ++ List.replicate count [] := by
  induction source with
  | nil =>
    have hfeeds := rawLines_feeds_append count []
    rw [List.append_nil] at hfeeds
    rw [List.nil_append, hfeeds, rawLines, ← List.replicate_succ', List.replicate_succ,
      List.singleton_append]
  | cons c source ih =>
    obtain ⟨first, more, hsource⟩ := List.exists_cons_of_ne_nil (rawLines_ne_nil source)
    simp only [List.cons_append, rawLines, ih, hsource]
    split <;> rfl

/-- Line feeds around a source text are empty lines around its lines. -/
theorem splitLines_pad (above below : Nat) (source : List Char) :
    splitLines (List.replicate above '\n' ++ source ++ List.replicate below '\n') =
      padLines above below (splitLines source) := by
  rw [splitLines, rawLines_append_feeds, rawLines_feeds_append, List.map_append, List.map_append,
    List.map_replicate, List.map_replicate]
  rfl

end BranchTally
