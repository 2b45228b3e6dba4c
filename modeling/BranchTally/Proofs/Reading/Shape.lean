-- SUMMARY: All that the collectors read of lines without comments, and that lines which read alike have the same parameters, continuations and markup.
import Mathlib
import BranchTally.Scan

/-!
# Lines that read alike

The collectors look at a line without its comments through some dozens of tests and counts. Two lines
for which all of these agree can stand for each other: every collector that reads lines without
comments gives the same points for either.
-/

namespace BranchTally

open Text

/-! ## Readings -/

/-- The lines agree in what operators outside conditions are judged by. -/
structure SameOperators (s s' : Line) : Prop where
  pair : hasLogicalPair s = hasLogicalPair s'
  braced : hasBracedPair s = hasBracedPair s'
  parenthesised : hasParenthesisedPair s = hasParenthesisedPair s'
  brace : s.contains '{' = s'.contains '{'
  endBrace : s.contains '}' = s'.contains '}'
  semicolon : s.contains ';' = s'.contains ';'
  returns : isReturn s = isReturn s'
  booleanAssignment : isBooleanAssignment s = isBooleanAssignment s'
  conditionStart : isConditionStart s = isConditionStart s'

/-- The lines agree in what arrows and the tests against them tell. -/
structure SameArrows (s s' : Line) : Prop where
  arrow : hasArrow s = hasArrow s'
  position : (arrowPosition? s).isSome = (arrowPosition? s').isSome
  parameters : arrowDefaults s = arrowDefaults s'
  listEnd : ∀ walked number asked, arrowEnd? walked number asked s = arrowEnd? walked number asked s'
  callback : callbackStart? s = callbackStart? s'
  typeDefinition : isTypeDefinition s = isTypeDefinition s'
  methodCall : isMethodCall s = isMethodCall s'
  regular : isRegularAssignment s = isRegularAssignment s'
  property : isPropertyAssignment s = isPropertyAssignment s'
  hook : hasDependencyArray s = hasDependencyArray s'
  hookEnd : endsWithBraceComma s = endsWithBraceComma s'
  bracket : (skipBlanks s).head? = some '[' ↔ (skipBlanks s').head? = some '['

/-- The lines agree in their tags. -/
structure SameTags (s s' : Line) : Prop where
  attributes : hasAttribute s = hasAttribute s'
  braces : hasBraces s = hasBraces s'
  tag : hasTag s = hasTag s'
  closing : anyTail closesTag s = anyTail closesTag s'
  opening : anyTail opensStartTag s = anyTail opensStartTag s'
  statement : opensStatement s = opensStatement s'

/-- The lines agree in what signatures are judged by. -/
structure SameSignature (s s' : Line) : Prop where
  signature : ∀ isArrow, hasSignature s isArrow = hasSignature s' isArrow
  walk : ∀ (state : ListState) number first,
    state.walkLine s number first = state.walkLine s' number first
  defaults : countDefaults s = countDefaults s'
  read : signatureDefaults s = signatureDefaults s'
  paren : s.contains '(' = s'.contains '('
  function : occurs functionWord s = occurs functionWord s'
  declared : isDeclaredAssignment s = isDeclaredAssignment s'
  arrowAssignment : isArrowAssignment s = isArrowAssignment s'

/-- The lines agree in what destructuring declarations are judged by. -/
structure SameDestructuring (s s' : Line) : Prop where
  opens : opensDestructuring s = opensDestructuring s'
  endBrace : s.contains '}' = s'.contains '}'
  equals : s.contains '=' = s'.contains '='
  ends : s.getLast? = some ';' ↔ s'.getLast? = some ';'

/-- Lines without comments that read alike. -/
structure SameShape (s s' : Line) : Prop where
  operators : SameOperators s s'
  trimmed : SameOperators (trim s) (trim s')
  arrows : SameArrows s s'
  tags : SameTags s s'
  signature : SameSignature s s'
  destructuring : SameDestructuring (trim s) (trim s')
  opens : opensDestructuring s = opensDestructuring s'
  plain : opensPlainDeclaration s = opensPlainDeclaration s'
  destructured : DefaultForm.destructured.count s = DefaultForm.destructured.count s'

theorem SameOperators.refl (s : Line) : SameOperators s s := by
  constructor <;> rfl

theorem SameShape.refl (s : Line) : SameShape s s where
  operators := .refl s
  trimmed := .refl (trim s)
  arrows := by constructor <;> intros <;> rfl
  tags := by constructor <;> rfl
  signature := by constructor <;> intros <;> rfl
  destructuring := by constructor <;> rfl
  opens := rfl
  plain := rfl
  destructured := rfl

/-- The lines read alike without their comments. -/
def ReadAlike (l l' : Line) : Prop := SameShape (stripComments l) (stripComments l')

/-- Two lines in view at the same place whose lines are related one by one. -/
structure Focus.Related (R : Line → Line → Prop) (f f' : Focus) : Prop where
  number : f.number = f'.number
  before : List.Forall₂ R f.before f'.before
  line : R f.line f'.line
  after : List.Forall₂ R f.after f'.after

/-- The lines in view and around it read alike. -/
abbrev SameView : Focus → Focus → Prop := Focus.Related ReadAlike

/-! ## Operators outside conditions -/

section

variable {s s' : Line} {f f' : Focus}

theorem SameOperators.isExpressionLine (h : SameOperators s s') :
    isExpressionLine s = BranchTally.isExpressionLine s' := by
  simp only [BranchTally.isExpressionLine, h.returns, h.booleanAssignment, h.parenthesised, h.brace,
    h.pair]

theorem SameOperators.stopsLookback (h : SameOperators s s') :
    stopsLookback s = BranchTally.stopsLookback s' := by
  simp only [BranchTally.stopsLookback, h.brace, h.pair, h.booleanAssignment, h.semicolon,
    h.endBrace]

theorem Markup.of_congr (h : SameView f f') (headers : Headers) :
    Markup.of f headers = Markup.of f' headers := by
  obtain ⟨number, before, line, after⟩ := f
  obtain ⟨number', before', line', after'⟩ := f'
  have hline : SameOperators (stripComments line) (stripComments line') := h.line.operators
  have habove : List.Forall₂ ReadAlike before before' := h.before
  simp only [Markup.of, hline.pair, hline.braced, hline.brace]
  cases habove with
  | nil => rfl
  | cons hfirst _ => simp only [hfirst.operators.brace]

theorem isBooleanExpression_congr (h : SameOperators s s') (headers : Headers) (markup : Markup) :
    isBooleanExpression s headers markup = isBooleanExpression s' headers markup := by
  simp only [isBooleanExpression, h.returns, h.booleanAssignment, h.parenthesised, h.pair]

theorem expressionOwner_congr (h : callbackStart? s = callbackStart? s') (ctx : Ownership)
    (number position default : Int) :
    expressionOwner ctx s number position default =
      expressionOwner ctx s' number position default := by
  simp only [expressionOwner, h]

/-! ## Continued conditions -/

theorem conditionStartFrom_congr {above above' : List Line}
    (h : List.Forall₂ ReadAlike above above') (distance : Nat) (found : Option Nat) :
    conditionStartFrom distance found above = conditionStartFrom distance found above' := by
  induction h generalizing distance found with
  | nil => rfl
  | cons hfirst _ ih =>
    simp only [conditionStartFrom, hfirst.trimmed.stopsLookback, hfirst.trimmed.conditionStart,
      hfirst.trimmed.pair, ih]

theorem conditionOwner_congr {l l' : Line} (h : ReadAlike l l') (ctx : Ownership)
    (number default : Int) :
    conditionOwner ctx number l default = conditionOwner ctx number l' default := by
  simp only [conditionOwner, h.operators.conditionStart]

theorem conditionOwner_getElem?_congr {above above' : List Line}
    (h : List.Forall₂ ReadAlike above above') (ctx : Ownership) (number default : Int) (i : Nat) :
    conditionOwner ctx number ((above[i]?).getD []) default =
      conditionOwner ctx number ((above'[i]?).getD []) default := by
  induction h generalizing i with
  | nil => rfl
  | cons hfirst _ ih =>
    cases i with
    | zero => simpa using conditionOwner_congr hfirst ctx number default
    | succ i => simpa using ih i

/-! ## Defaults -/

theorem isInsideTag_congr {above above' : List Line} (h : List.Forall₂ ReadAlike above above') :
    isInsideTag above = isInsideTag above' := by
  induction h with
  | nil => rfl
  | cons hfirst _ ih =>
    simp only [isInsideTag, hfirst.tags.closing, hfirst.tags.opening, hfirst.tags.statement, ih]

theorem isMarkupAttribute_congr (h : SameShape s s') (hview : SameView f f') :
    isMarkupAttribute s f = isMarkupAttribute s' f' := by
  simp only [isMarkupAttribute, h.tags.attributes, h.tags.braces, h.tags.tag,
    isInsideTag_congr (List.forall₂_take tagLookback hview.before)]

theorem isNoArrowContext_congr (h : SameShape s s') (hview : SameView f f') :
    isNoArrowContext s f = isNoArrowContext s' f' := by
  simp only [isNoArrowContext, h.arrows.typeDefinition, h.operators.returns, h.arrows.methodCall,
    h.arrows.regular, h.arrows.property, h.arrows.hook, isMarkupAttribute_congr h hview]

theorem isExcluded_congr (h : SameShape s s') (hview : SameView f f') :
    isExcluded s f = isExcluded s' f' := by
  simp only [isExcluded, h.signature.declared, h.signature.arrowAssignment,
    isNoArrowContext_congr h hview]

theorem isDependencyArray_congr (h : SameShape s s') (hview : SameView f f') :
    isDependencyArray s f = isDependencyArray s' f' := by
  obtain ⟨number, before, line, after⟩ := f
  obtain ⟨number', before', line', after'⟩ := f'
  have habove : List.Forall₂ ReadAlike before before' := hview.before
  simp only [isDependencyArray, h.arrows.hook]
  cases habove with
  | nil => rfl
  | cons hfirst _ => simp only [hfirst.arrows.hookEnd, h.arrows.bracket]

theorem arrowPoints_congr (h : SameShape s s') (hview : SameView f f') (owner : Int) :
    arrowPoints s f owner = arrowPoints s' f' owner := by
  simp only [arrowPoints, isNoArrowContext_congr h hview, h.arrows.parameters, hview.number]

theorem opensSplitArrow_congr (h : SameShape s s') (hview : SameView f f') :
    opensSplitArrow s f = opensSplitArrow s' f' := by
  obtain ⟨number, before, line, after⟩ := f
  obtain ⟨number', before', line', after'⟩ := f'
  have hbelow : List.Forall₂ ReadAlike after after' := hview.after
  simp only [opensSplitArrow, h.signature.defaults, h.signature.paren, h.arrows.arrow]
  cases hbelow with
  | nil => rfl
  | cons hfirst _ => simp only [hfirst.arrows.arrow]

theorem isPlainDeclaration_congr (h : SameShape s s') :
    isPlainDeclaration s = isPlainDeclaration s' := by
  simp only [isPlainDeclaration, h.signature.declared, h.arrows.arrow, h.signature.function]

theorem signatureEnd?_congr {lines lines' : List Line} (h : List.Forall₂ ReadAlike lines lines')
    (hs : SameShape s s') (asked first number : Int) (state : ListState) :
    signatureEnd? asked first s number state lines =
      signatureEnd? asked first s' number state lines' := by
  induction h generalizing number state with
  | nil => rfl
  | @cons next next' _ _ hfirst _ ih =>
    have harrow : arrowEnd? (stripComments next) number asked s =
        arrowEnd? (stripComments next') number asked s' := by
      rw [hs.arrows.listEnd]
      simp only [arrowEnd?, hfirst.arrows.arrow]
    simp only [signatureEnd?, harrow, hfirst.signature.walk, ih]

theorem parameterListEnd_congr {lines lines' : List Line} (h : List.Forall₂ ReadAlike lines lines')
    (hs : SameShape s s') (asked first : Int) :
    parameterListEnd asked first lines s = parameterListEnd asked first lines' s' := by
  have hlines : List.Forall₂ ReadAlike (signatureLines first lines) (signatureLines first lines') :=
    List.forall₂_drop _ (List.forall₂_take _ h)
  simp only [parameterListEnd, signatureEnd?_congr hlines hs]

theorem arrowBelow?_congr (hview : SameView f f') : arrowBelow? f = arrowBelow? f' := by
  have hbelow {below below' : List Line} (h : List.Forall₂ ReadAlike below below') (number : Int) :
      arrowBelowFrom number below = arrowBelowFrom number below' := by
    induction h generalizing number with
    | nil => rfl
    | cons hfirst _ ih => simp only [arrowBelowFrom, hfirst.arrows.arrow, ih]
  simp only [arrowBelow?, hview.number, hbelow (List.forall₂_take arrowLookahead hview.after)]

theorem widenedListEnd_congr (h : SameShape s s') (hview : SameView f f') (stop first : Int)
    (signature : Bool) :
    widenedListEnd stop first f s signature = widenedListEnd stop first f' s' signature := by
  simp only [widenedListEnd, hview.number, h.signature.defaults, arrowBelow?_congr hview]

theorem signaturePoints_congr {lines lines' : List Line} (hlines : List.Forall₂ ReadAlike lines lines')
    (h : SameShape s s') (hview : SameView f f') (owner : Int) (b : Boundary) :
    signaturePoints lines s f owner b = signaturePoints lines' s' f' owner b := by
  simp only [signaturePoints, h.arrows.position, h.signature.signature, hview.number,
    parameterListEnd_congr hlines h, widenedListEnd_congr h hview, isPlainDeclaration_congr h,
    isDependencyArray_congr h hview, opensSplitArrow_congr h hview, isMarkupAttribute_congr h hview,
    isExcluded_congr h hview, h.signature.read]

theorem parameterPoints_congr {lines lines' : List Line} (hlines : List.Forall₂ ReadAlike lines lines')
    (hview : SameView f f') (ctx : Ownership) (owner : Int) :
    parameterPoints ctx lines f owner = parameterPoints ctx lines' f' owner := by
  simp only [parameterPoints, hview.line.arrows.position, arrowPoints_congr hview.line hview,
    signaturePoints_congr hlines hview.line hview, hview.number]

theorem isInDestructuringFrom_congr {above above' : List Line}
    (h : List.Forall₂ ReadAlike above above') (hnumber : f.number = f'.number) (b : Boundary)
    (distance : Int) :
    isInDestructuringFrom f b distance above = isInDestructuringFrom f' b distance above' := by
  induction h generalizing distance with
  | nil => rfl
  | cons hfirst _ ih =>
    simp only [isInDestructuringFrom, hfirst.destructuring.opens, hfirst.destructuring.endBrace,
      hfirst.destructuring.equals, hfirst.destructuring.ends, hnumber, ih]

theorem destructuringPoints_congr (hview : SameView f f') (owner : Int) (boundary : Option Boundary) :
    destructuringPoints f owner boundary = destructuringPoints f' owner boundary := by
  have hinside (b : Boundary) : isInDestructuring (stripComments f.line) f b =
      isInDestructuring (stripComments f'.line) f' b := by
    simp only [isInDestructuring, hview.line.opens,
      isInDestructuringFrom_congr (List.forall₂_take destructuringLookback hview.before) hview.number]
  simp only [destructuringPoints, hview.number, hview.line.plain, hinside, hview.line.destructured]

end

end BranchTally
