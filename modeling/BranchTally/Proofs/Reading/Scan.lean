-- SUMMARY: Two sources have the same decision points where their lines agree in code, ternaries and what is read of them without comments.
import Mathlib
import BranchTally.Proofs.Operators
import BranchTally.Proofs.Reading.Shape

/-!
# Sources that scan alike

What a line gives is made of what the line without its comments reads as, of the headers and tokens
that are live on it, and of its ternaries. Where two sources agree in all three, line by line, they
have the same decision points.
-/

namespace BranchTally

open Text

/-! ## Live code -/

/-- The lines agree in their headers and in the live tokens that are counted one by one. -/
structure SameCode (l l' : Line) : Prop where
  quiet : isQuiet l = isQuiet l'
  headers : Headers.of l = Headers.of l'
  operators : ∀ op : Logical, findTokens l op.token = findTokens l' op.token
  arrows : findTokens l arrow = findTokens l' arrow
  nullish : nullishPositions l = nullishPositions l'
  chains : ∀ number owner, chainPoints l number owner = chainPoints l' number owner

section

variable {l l' : Line} {f f' : Focus}

theorem SameCode.refl (l : Line) : SameCode l l := by
  constructor <;> intros <;> rfl

/-- A window that begins at a parenthesis of both lines holds the same of any token. -/
theorem findTokens_window_congr {token : List Char} (h : findTokens l token = findTokens l' token)
    (hparen : '(' ∉ token) (htoken : token ≠ []) {p : Parens} (hp : (l)[p.opening]? = some '(')
    (hp' : (l')[p.opening]? = some '(') :
    findTokens l token p.opening p.closing = findTokens l' token p.opening p.closing := by
  rw [findTokens_window hp hparen htoken, findTokens_window hp' hparen htoken, h]

theorem Headers.mem_conditions {headers : Headers} {x : Header} : x ∈ headers.conditions ↔
    headers.ifHeader = some x ∨ headers.elseIf = some x ∨
      (headers.forKind = .forLoop ∧ headers.forHeader = some x) ∨ headers.whileHeader = some x ∨
        headers.doTail = some x ∨ headers.switchHeader = some x ∨ headers.catchHeader = some x := by
  by_cases hkind : headers.forKind = .forLoop <;> simp [conditions, hkind]

variable (h : SameCode l l')

include h

theorem SameCode.paren {x : Header} {p : Parens} (hx : x ∈ (Headers.of l).conditions)
    (hp : x.parens = some p) : (l)[p.opening]? = some '(' ∧ (l')[p.opening]? = some '(' :=
  ⟨paren_of_mem_conditions hx hp, paren_of_mem_conditions (h.headers ▸ hx) hp⟩

theorem SameCode.conditionOperators {x : Header} (hx : x ∈ (Headers.of l).conditions) :
    conditionOperators l x = BranchTally.conditionOperators l' x := by
  unfold BranchTally.conditionOperators
  cases hp : x.parens with
  | none => rfl
  | some p =>
    obtain ⟨hparen, hparen'⟩ := h.paren hx hp
    have hfound (op : Logical) :
        findTokens l op.token p.opening p.closing = findTokens l' op.token p.opening p.closing :=
      findTokens_window_congr (h.operators op) (op.not_mem_token (by decide)) op.token_ne_nil hparen
        hparen'
    simp only [hfound]

theorem SameCode.operatorPoints {x : Header} (hx : x ∈ (Headers.of l).conditions)
    (number owner : Int) :
    operatorPoints l x number owner = BranchTally.operatorPoints l' x number owner := by
  simp only [BranchTally.operatorPoints, h.conditionOperators hx]

theorem SameCode.headerPoints {x : Header} (hx : x ∈ (Headers.of l).conditions) (kind : Kind)
    (number owner : Int) :
    headerPoints kind l number owner x = BranchTally.headerPoints kind l' number owner x := by
  simp only [BranchTally.headerPoints, h.operatorPoints hx]

theorem SameCode.ifPoints {x : Header} (hx : x ∈ (Headers.of l).conditions) (ctx : Ownership)
    (number default : Int) :
    ifPoints ctx l number x default = BranchTally.ifPoints ctx l' number x default := by
  unfold BranchTally.ifPoints
  rw [h.conditionOperators hx]
  cases hp : x.parens with
  | none =>
    have harrows : findTokens l ['=', '>'] 0 none = findTokens l' ['=', '>'] 0 none := h.arrows
    simp only [harrows]
  | some p =>
    obtain ⟨hparen, hparen'⟩ := h.paren hx hp
    have harrows : findTokens l ['=', '>'] p.opening p.closing =
        findTokens l' ['=', '>'] p.opening p.closing :=
      findTokens_window_congr h.arrows (by decide) (List.cons_ne_nil _ _) hparen hparen'
    simp only [harrows]

theorem SameCode.controlPoints (ctx : Ownership) (number default : Int) :
    controlPoints ctx l number (Headers.of l) default =
      BranchTally.controlPoints ctx l' number (Headers.of l) default := by
  have heach (o : Option Header) {points points' : Header → List Point}
      (ho : ∀ x, o = some x → points x = points' x) :
      (o.map points).getD [] = (o.map points').getD [] := by
    cases o with
    | none => rfl
    | some x => exact ho x rfl
  have hmem (x : Header) := @Headers.mem_conditions (Headers.of l) x
  have hif := heach (Headers.of l).ifHeader fun x hx =>
    h.ifPoints ((hmem x).2 (by simp [hx])) ctx number default
  have helse := heach (Headers.of l).elseIf fun x hx =>
    h.headerPoints ((hmem x).2 (by simp [hx])) .elseIf number default
  have hloop (x : Header) (hx : (Headers.of l).forHeader = some x) :
      (if (Headers.of l).forKind = .forLoop then
        BranchTally.operatorPoints l x number (controlOwner ctx number default) else []) =
      if (Headers.of l).forKind = .forLoop then
        BranchTally.operatorPoints l' x number (controlOwner ctx number default) else [] := by
    split
    · next hkind => exact h.operatorPoints ((hmem x).2 (by simp [hx, hkind])) _ _
    · rfl
  have hfor := heach (Headers.of l).forHeader fun x hx =>
    congrArg (Point.mk number (Headers.of l).forKind (controlOwner ctx number default) :: ·) (hloop x hx)
  have hwhile := heach (Headers.of l).whileHeader fun x hx =>
    h.headerPoints ((hmem x).2 (by simp [hx])) .whileLoop number (controlOwner ctx number default)
  have htail := heach (Headers.of l).doTail fun x hx =>
    h.operatorPoints ((hmem x).2 (by simp [hx])) number default
  have hswitch := heach (Headers.of l).switchHeader fun x hx =>
    h.headerPoints ((hmem x).2 (by simp [hx])) .switchBranch number (controlOwner ctx number default)
  have hcatch := heach (Headers.of l).catchHeader fun x hx =>
    h.headerPoints ((hmem x).2 (by simp [hx])) .catchClause number default
  simp only [BranchTally.controlPoints, hif, helse, hfor, hwhile, htail, hswitch, hcatch]

theorem SameCode.logicalPoints (number owner : Int) :
    logicalPoints l number owner = BranchTally.logicalPoints l' number owner := by
  simp only [BranchTally.logicalPoints, h.operators]

end

/-! ## Lines in view -/

section

variable {R : Line → Line → Prop} {f f' : Focus}

theorem Focus.Related.imp {S : Line → Line → Prop} (h : f.Related R f')
    (hRS : ∀ l l', R l l' → S l l') : f.Related S f' where
  number := h.number
  before := h.before.imp fun _ _ => hRS _ _
  line := hRS _ _ h.line
  after := h.after.imp fun _ _ => hRS _ _

theorem Focus.Related.up? (h : f.Related R f') :
    f.up? = none ∧ f'.up? = none ∨
      ∃ g g', f.up? = some g ∧ f'.up? = some g' ∧ g.Related R g' := by
  obtain ⟨number, before, line, after⟩ := f
  obtain ⟨number', before', line', after'⟩ := f'
  have hbefore : List.Forall₂ R before before' := h.before
  cases hbefore with
  | nil => exact Or.inl ⟨rfl, rfl⟩
  | cons hfirst hrest =>
    exact Or.inr ⟨_, _, rfl, rfl, congrArg (· - 1) h.number, hrest, hfirst, .cons h.line h.after⟩

theorem forall₂_foci {lines lines' : List Line} (h : List.Forall₂ R lines lines') :
    List.Forall₂ (Focus.Related R) (foci lines) (foci lines') := by
  have hfrom (number : Int) {before before' : List Line} (hbefore : List.Forall₂ R before before') :
      List.Forall₂ (Focus.Related R) (fociFrom number before lines)
        (fociFrom number before' lines') := by
    induction h generalizing number before before' with
    | nil => exact .nil
    | cons hfirst hrest ih =>
      exact .cons ⟨rfl, hbefore, hfirst, hrest⟩ (ih (number + 1) (.cons hfirst hbefore))
  exact hfrom 1 .nil

/-- No collector tells lines apart that are related, in whatever lines they stand. -/
structure Unnoticed (R : Line → Line → Prop) : Prop where
  reading : ∀ l l', R l l' → ReadAlike l l'
  code : ∀ l l', R l l' → SameCode l l'
  ternaries : ∀ f f' : Focus, f.Related R f' → ternaryPositions f = ternaryPositions f'
  conditions : ∀ f f' : Focus, f.Related R f' → isTernaryCondition f = isTernaryCondition f'

/-! ## Points of one line -/

variable (hR : Unnoticed R) (h : f.Related R f') (ctx : Ownership) (owner : Int)

include hR h

theorem Unnoticed.view : SameView f f' := h.imp hR.reading

theorem Unnoticed.conditionAbovePoints (resolve : Int → Option Int) :
    conditionAbovePoints f owner resolve = BranchTally.conditionAbovePoints f' owner resolve := by
  unfold BranchTally.conditionAbovePoints
  rcases h.up? with ⟨hnone, hnone'⟩ | ⟨g, g', hg, hg', hup⟩
  · rw [hnone, hnone']
  · rw [hg, hg']
    simp only [hR.conditions g g' hup, (hR.code _ _ hup.line).logicalPoints, hup.number]

theorem Unnoticed.ternaryPoints (resolve : Int → Option Int) :
    ternaryPoints f owner resolve = BranchTally.ternaryPoints f' owner resolve := by
  simp only [BranchTally.ternaryPoints, nullishPoints, hR.ternaries f f' h,
    hR.conditionAbovePoints h, h.number, (hR.code _ _ h.line).nullish]

theorem Unnoticed.mayContinue (headers : Headers) (markup : Markup) :
    mayContinue f headers markup = BranchTally.mayContinue f' headers markup := by
  have hline : SameOperators (stripComments f.line) (stripComments f'.line) :=
    (hR.reading _ _ h.line).operators
  simp only [BranchTally.mayContinue, hline.pair, hline.returns, hline.booleanAssignment,
    hline.parenthesised, hR.conditions f f' h]

theorem Unnoticed.continuationPointsBelow {above above' : Line} (habove : R above above')
    (headers : Headers) (markup : Markup) :
    continuationPointsBelow ctx above f headers markup owner =
      BranchTally.continuationPointsBelow ctx above' f' headers markup owner := by
  have hread := hR.reading _ _ habove
  have hbefore := (hR.view h).before
  have hstart : conditionStart? f.before = conditionStart? f'.before :=
    conditionStartFrom_congr (List.forall₂_take _ hbefore) 1 none
  unfold BranchTally.continuationPointsBelow
  simp only [hR.mayContinue h, hread.trimmed.isExpressionLine, hread.trimmed.conditionStart,
    (hR.code _ _ h.line).logicalPoints, h.number, conditionOwner_congr hread, hstart,
    conditionOwner_getElem?_congr hbefore]

theorem Unnoticed.continuationPoints (headers : Headers) (markup : Markup) :
    continuationPoints ctx f headers markup owner =
      BranchTally.continuationPoints ctx f' headers markup owner := by
  have hbefore := h.before
  unfold BranchTally.continuationPoints
  revert hbefore
  generalize hb : f.before = before
  generalize hb' : f'.before = before'
  intro hbefore
  cases hbefore with
  | nil => rfl
  | cons hfirst _ => exact hR.continuationPointsBelow h ctx owner hfirst headers markup

theorem Unnoticed.expressionPoints (headers : Headers) (markup : Markup) :
    expressionPoints ctx f headers markup owner =
      BranchTally.expressionPoints ctx f' headers markup owner := by
  have hread : SameShape (stripComments f.line) (stripComments f'.line) := hR.reading _ _ h.line
  simp only [BranchTally.expressionPoints, isBooleanExpression_congr hread.operators,
    hR.conditions f f' h, (hR.code _ _ h.line).operators, h.number,
    expressionOwner_congr hread.arrows.callback]

theorem Unnoticed.codePoints {lines lines' : List Line} (hlines : List.Forall₂ R lines lines') :
    codePoints ctx lines f owner = BranchTally.codePoints ctx lines' f' owner := by
  have hcode := hR.code _ _ h.line
  have hread : List.Forall₂ ReadAlike lines lines' := hlines.imp fun _ _ => hR.reading _ _
  simp only [BranchTally.codePoints, ← hcode.headers, ← Markup.of_congr (hR.view h),
    hcode.controlPoints, hR.ternaryPoints h, hcode.chains, hR.continuationPoints h,
    hR.expressionPoints h, h.number, parameterPoints_congr hread (hR.view h),
    destructuringPoints_congr (hR.view h)]

theorem Unnoticed.scanLine {lines lines' : List Line} (hlines : List.Forall₂ R lines lines') :
    scanLine ctx lines f = BranchTally.scanLine ctx lines' f' := by
  unfold BranchTally.scanLine
  simp only [(hR.code _ _ h.line).quiet, h.number, hR.codePoints h ctx _ hlines]

end

/-! ## All lines -/

/-- Sources whose lines no collector tells apart have the same decision points. -/
theorem decisionPoints_congr {R : Line → Line → Prop} (hR : Unnoticed R) {source source' : List Char}
    (h : List.Forall₂ R (splitLines source) (splitLines source')) (boundaries : BoundaryMap) :
    decisionPoints source boundaries = decisionPoints source' boundaries := by
  have hraw (ctx : Ownership) : rawPoints ctx (splitLines source) = rawPoints ctx (splitLines source') := by
    have hscan {views views' : List Focus} (hviews : List.Forall₂ (Focus.Related R) views views') :
        views.flatMap (scanLine ctx (splitLines source)) =
          views'.flatMap (scanLine ctx (splitLines source')) := by
      induction hviews with
      | nil => rfl
      | cons hfirst _ ih => rw [List.flatMap_cons, List.flatMap_cons, hR.scanLine hfirst ctx h, ih]
    exact hscan (forall₂_foci h)
  simp only [decisionPoints, hraw]

end BranchTally
