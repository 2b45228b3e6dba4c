-- SUMMARY: The exact count of the `&&` and `||` of a line, when it does not exceed what the line holds, and that every line outside control structures is counted once.
import BranchTally.Proofs.Operators
import BranchTally.Proofs.Scan

/-!
# The count of a line

The points of an operator on a line come from the collectors that look at the line, and from the line
below where this is a ternary whose condition stands above. Off control lines the two never meet. On
a control line they can, since the test for a ternary condition does not ask for headers.
-/

namespace BranchTally

/-! ## Lines that are looked at -/

theorem scans_iff (m : BoundaryMap) (f : Focus) :
    (Ownership.of m).scans f = true ↔
      isQuiet f.line = false ∧ ∃ g ∈ m.owners, g.boundary.contains f.number = true := by
  simp only [Ownership.scans, Bool.and_eq_true, Bool.not_eq_true', Ownership.innermost?_isSome_iff]

/-- The operators of the line are reported by the line below: they are the condition of a ternary
that is found there. -/
def isHandedDown (ctx : Ownership) (f : Focus) : Bool :=
  isTernaryCondition f && f.down?.any fun g => ctx.scans g && !(ternaryPositions g).isEmpty

/-- How often the collectors that look at the line count the operator at a position. -/
def timesCountedHere (f : Focus) (i : Nat) : Nat :=
  let headers := Headers.of f.line
  if headers.isControl then conditionsAround f.line i
  else if isBooleanExpression (stripComments f.line) headers (Markup.of f headers) &&
    !isTernaryCondition f then 1
  else 0

/-- How often the operator at a position of the line is counted. -/
def timesCounted (ctx : Ownership) (f : Focus) (i : Nat) : Nat :=
  (if ctx.scans f then timesCountedHere f i else 0) + if isHandedDown ctx f then 1 else 0

/-! ## Counts of one line -/

theorem sum_map_countP_comm {α β : Type} (r : α → β → Bool) (xs : List α) (ys : List β) :
    (xs.map fun x => ys.countP (r x)).sum = (ys.map fun y => xs.countP fun x => r x y).sum := by
  have hsum (x : α) (count : β → Nat) (ys : List β) :
      (ys.map fun y => count y + if r x y then 1 else 0).sum =
        (ys.map count).sum + ys.countP (r x) := by
    induction ys with
    | nil => rfl
    | cons y ys ih =>
      simp only [List.map_cons, List.sum_cons, List.countP_cons, ih]
      omega
  induction xs with
  | nil => simp
  | cons x xs ih =>
    simp only [List.map_cons, List.sum_cons, List.countP_cons, hsum, ih]
    omega

theorem conditions_of_not_isControl {headers : Headers} (h : headers.isControl = false) :
    headers.conditions = [] := by
  simp only [Headers.isControl, Headers.hasWhile, Bool.or_eq_false_iff, Option.isSome_eq_false_iff,
    Option.isNone_iff_eq_none] at h
  simp [Headers.conditions, h]

/-- The conditions of a line hold each operator as often as it stands in one of them. -/
theorem operatorCount_controlPoints_of (ctx : Ownership) (line : Line) (op : Logical)
    (number default : Int) :
    operatorCount op number (controlPoints ctx line number (Headers.of line) default) =
      ((findTokens line op.token).map (conditionsAround line)).sum := by
  have hconditions : (Headers.of line).conditions.map (fun h =>
      (conditionOperators line h).countP fun o => o.2 = op) =
      (Headers.of line).conditions.map fun h => (findTokens line op.token).countP h.encloses :=
    List.map_congr_left fun h hh => countP_conditionOperators_of_mem hh op
  have hloop : (Headers.of line).forKind ≠ op.kind :=
    Kind.ne_of_family_ne (by simp [family_forKind, op.family_kind])
  rw [operatorCount_controlPoints ctx line hloop, hconditions, sum_map_countP_comm]
  rfl

section

variable {m : BoundaryMap} {op : Logical} {f : Focus} {owner : Int}

/-- Expressions and continued conditions share the operators of a line between them. -/
theorem operatorCount_expressions (howner : (Ownership.of m).HasKey owner) (headers : Headers) :
    operatorCount op f.number
      (if (continuationPoints (Ownership.of m) f headers (Markup.of f headers) owner).isEmpty then
        expressionPoints (Ownership.of m) f headers (Markup.of f headers) owner
      else continuationPoints (Ownership.of m) f headers (Markup.of f headers) owner) =
      if isBooleanExpression (stripComments f.line) headers (Markup.of f headers) &&
        !isTernaryCondition f
      then (findTokens f.line op.token).length else 0 := by
  split
  · exact operatorCount_expressionPoints _ _ _ _ _
  · next hcontinued =>
    rcases continuationPoints_eq m f headers (Markup.of f headers) howner with
      hnone | ⟨hmay, key, -, hsome⟩
    · simp [hnone] at hcontinued
    · rw [hsome, operatorCount_logicalPoints, if_pos rfl, if_pos]
      simp only [mayContinue, Bool.and_eq_true, Bool.not_eq_true'] at hmay
      simp [isBooleanExpression, hmay]

theorem operatorCount_of_madeOn {points : List Point} {family : Family} {number other : Int}
    (hpoints : ∀ p ∈ points, p.MadeOn (Ownership.of m) family other) (hne : other ≠ number) :
    operatorCount op number points = 0 :=
  operatorCount_eq_zero fun p hp => Or.inl ((hpoints p hp).liesOn.1 ▸ hne)

theorem operatorCount_ternaryPoints_here (howner : (Ownership.of m).HasKey owner) :
    operatorCount op f.number (ternaryPoints f owner (Ownership.of m).innermost?) = 0 := by
  have habove : operatorCount op f.number (if (ternaryPositions f).isEmpty then []
      else conditionAbovePoints f owner (Ownership.of m).innermost?) = 0 := by
    split
    · rfl
    · refine operatorCount_eq_zero fun p hp => Or.inl ?_
      have := (liesOn_of_mem_conditionAbovePoints howner hp).1
      omega
  simp only [ternaryPoints, nullishPoints, operatorCount_append, habove]
  rw [operatorCount_pointsAt (Logical.ne_kind (by simp) (by simp) op),
    operatorCount_pointsAt (Logical.ne_kind (by simp) (by simp) op)]

theorem operatorCount_defaults (lines : List Line) (number : Int)
    (howner : (Ownership.of m).Holds f.number owner) :
    operatorCount op number
      (if (parameterPoints (Ownership.of m) lines f owner).isEmpty then
        destructuringPoints f owner ((Ownership.of m).boundaries.get? owner)
      else parameterPoints (Ownership.of m) lines f owner) = 0 := by
  obtain ⟨count, key, -, h⟩ := defaults_eq lines howner
  rw [h, operatorCount_defaultPoints]

/-- The collectors that look at a line count its operators as `timesCountedHere` says. -/
theorem operatorCount_scanLine_here (lines : List Line) :
    operatorCount op f.number (scanLine (Ownership.of m) lines f) =
      ((findTokens f.line op.token).map fun i =>
        if (Ownership.of m).scans f then timesCountedHere f i else 0).sum := by
  cases hscans : (Ownership.of m).scans f with
  | false => simp [scanLine_of_not_scans lines hscans, List.map_const']
  | true =>
    obtain ⟨owner, hinnermost, heq⟩ := scanLine_of_scans lines hscans
    have howner := Ownership.holds_of_innermost? hinnermost
    have hchain : operatorCount op f.number (chainPoints f.line f.number owner) = 0 :=
      operatorCount_pointsAt (Logical.ne_kind (by simp) (by simp) op) _ _ _
    simp only [heq, codePoints, operatorCount_append, operatorCount_controlPoints_of,
      operatorCount_ternaryPoints_here howner.hasKey, hchain,
      operatorCount_expressions howner.hasKey,
      operatorCount_defaults lines f.number howner, if_true, timesCountedHere]
    -- a control line is left to its conditions, and any other line has none
    cases hcontrol : (Headers.of f.line).isControl with
    | true => simp [isBooleanExpression, hcontrol]
    | false =>
      have hnone : conditionsAround f.line = fun _ => 0 := by
        funext i
        simp [conditionsAround, conditions_of_not_isControl hcontrol]
      simp only [hnone, Bool.false_eq_true, if_false]
      split <;> simp [List.map_const']

/-- A ternary reports the operators of the line above it where these are its condition. -/
theorem operatorCount_scanLine_below (lines : List Line) {g : Focus} (hg : f.down? = some g) :
    operatorCount op f.number (scanLine (Ownership.of m) lines g) =
      if isTernaryCondition f && ((Ownership.of m).scans g && !(ternaryPositions g).isEmpty)
      then (findTokens f.line op.token).length else 0 := by
  have hnumber := Focus.number_of_down? hg
  have hne : g.number ≠ f.number := by omega
  cases hscans : (Ownership.of m).scans g with
  | false => simp [scanLine_of_not_scans lines hscans]
  | true =>
    obtain ⟨owner, hinnermost, heq⟩ := scanLine_of_scans lines hscans
    have howner := Ownership.holds_of_innermost? hinnermost
    have hexpressions : operatorCount op f.number
        (if (continuationPoints (Ownership.of m) g (Headers.of g.line)
          (Markup.of g (Headers.of g.line)) owner).isEmpty then
          expressionPoints (Ownership.of m) g (Headers.of g.line)
            (Markup.of g (Headers.of g.line)) owner
        else continuationPoints (Ownership.of m) g (Headers.of g.line)
          (Markup.of g (Headers.of g.line)) owner) = 0 :=
      operatorCount_of_madeOn (fun _ => madeOn_of_mem_expressions howner.hasKey) hne
    have hcontrol : operatorCount op f.number
        (controlPoints (Ownership.of m) g.line g.number (Headers.of g.line) owner) = 0 :=
      operatorCount_of_madeOn (fun _ => madeOn_of_mem_controlPoints howner) hne
    have hchain : operatorCount op f.number (chainPoints g.line g.number owner) = 0 :=
      operatorCount_pointsAt (Logical.ne_kind (by simp) (by simp) op) _ _ _
    have hcondition : operatorCount op f.number
        (conditionAbovePoints g owner (Ownership.of m).innermost?) =
        if isTernaryCondition f then (findTokens f.line op.token).length else 0 := by
      simp only [conditionAbovePoints, Focus.up?_of_down? hg]
      split
      · rw [operatorCount_logicalPoints, if_pos rfl]
      · rfl
    simp only [heq, codePoints, ternaryPoints, nullishPoints, operatorCount_append, hcontrol, hchain,
      hexpressions, operatorCount_defaults lines f.number howner,
      operatorCount_pointsAt (Logical.ne_kind (by simp) (by simp) op :
        Kind.ternary ≠ op.kind),
      operatorCount_pointsAt (Logical.ne_kind (by simp) (by simp) op :
        Kind.nullish ≠ op.kind)]
    cases hnone : (ternaryPositions g).isEmpty <;> simp [hcondition]

end

/-! ## Counts of a source -/

/-- An operator of a line is counted once for every collector that takes it. -/
theorem operatorCount_eq_sum (source : List Char) (m : BoundaryMap) {f : Focus}
    (hf : f ∈ foci (splitLines source)) (op : Logical) :
    operatorCount op f.number (decisionPoints source m) =
      ((findTokens f.line op.token).map (timesCounted (Ownership.of m) f)).sum := by
  have hrepeatable : ∀ p : Point, (p.line = f.number && p.kind = op.kind) = true →
      p.kind.repeatable = true := by
    intro p hp
    simp only [Bool.and_eq_true, decide_eq_true_eq] at hp
    exact hp.2 ▸ op.repeatable_kind
  have hline : ∀ p : Point, (p.line = f.number && p.kind = op.kind) = true → p.line = f.number := by
    intro p hp
    simp only [Bool.and_eq_true, decide_eq_true_eq] at hp
    exact hp.1
  have hbelow : operatorCount op f.number
      (f.down?.toList.flatMap (scanLine (Ownership.of m) (splitLines source))) =
      ((findTokens f.line op.token).map fun _ =>
        if isHandedDown (Ownership.of m) f then 1 else 0).sum := by
    rw [List.map_const', List.sum_replicate_nat]
    cases hg : f.down? with
    | none => simp [isHandedDown, hg]
    | some g =>
      simp only [Option.toList_some, List.flatMap_cons, List.flatMap_nil, List.append_nil,
        operatorCount_scanLine_below _ hg, isHandedDown, hg, Option.any_some]
      split <;> simp
  calc operatorCount op f.number (decisionPoints source m)
      = operatorCount op f.number (rawPoints (Ownership.of m) (splitLines source)) :=
        countP_decisionPoints hrepeatable source m
    _ = operatorCount op f.number (scanLine (Ownership.of m) (splitLines source) f) +
          operatorCount op f.number
            (f.down?.toList.flatMap (scanLine (Ownership.of m) (splitLines source))) :=
        countP_rawPoints hf hline
    _ = ((findTokens f.line op.token).map (timesCounted (Ownership.of m) f)).sum := by
        rw [operatorCount_scanLine_here, hbelow]
        generalize findTokens f.line op.token = positions
        induction positions with
        | nil => rfl
        | cons i rest ih =>
          simp only [List.map_cons, List.sum_cons, timesCounted] at ih ⊢
          omega

theorem sum_map_le_length {α : Type} {count : α → Nat} {xs : List α}
    (h : ∀ x ∈ xs, count x ≤ 1) : (xs.map count).sum ≤ xs.length := by
  induction xs with
  | nil => exact Nat.le_refl _
  | cons x xs ih =>
    have hx := h x List.mem_cons_self
    have hrest := ih fun y hy => h y (List.mem_cons_of_mem _ hy)
    simp only [List.map_cons, List.sum_cons, List.length_cons]
    omega

theorem sum_map_add_one {α : Type} (count : α → Nat) (xs : List α) :
    (xs.map fun x => count x + 1).sum = (xs.map count).sum + xs.length := by
  induction xs with
  | nil => rfl
  | cons x xs ih =>
    simp only [List.map_cons, List.sum_cons, List.length_cons, ih]
    omega

theorem timesCounted_le_one {ctx : Ownership} {f : Focus}
    (h : ctx.scans f = false ∨ (Headers.of f.line).isControl = false) (i : Nat) :
    timesCounted ctx f i ≤ 1 := by
  unfold timesCounted timesCountedHere isHandedDown
  rcases h with h | h
  · simp only [h, Bool.false_eq_true, if_false]
    split <;> omega
  · simp only [h, Bool.false_eq_true, if_false]
    cases isTernaryCondition f <;> simp only [Bool.not_true, Bool.not_false, Bool.and_false,
      Bool.and_true, Bool.true_and, Bool.false_and, Bool.false_eq_true, if_false, ite_self]
    · split
      · split <;> omega
      · omega
    · split <;> omega

/-- A control line counts an operator once for every condition around it, and once more where it is
handed down. -/
theorem timesCounted_of_isControl {ctx : Ownership} {f : Focus} (hscans : ctx.scans f = true)
    (hcontrol : (Headers.of f.line).isControl = true) :
    timesCounted ctx f = fun i =>
      conditionsAround f.line i + if isHandedDown ctx f then 1 else 0 := by
  funext i
  simp [timesCounted, timesCountedHere, hscans, hcontrol]

/-- The points of an operator on a line are at most as many as the line has live occurrences, save on
control lines: there the occurrences between the parentheses of headers, each taken once for every
header around it, must be no more than all of them, and none at all where a ternary on the line below
takes the line for its condition. -/
theorem operatorCount_le_iff (source : List Char) (m : BoundaryMap) {f : Focus}
    (hf : f ∈ foci (splitLines source)) (op : Logical) :
    operatorCount op f.number (decisionPoints source m) ≤ (findTokens f.line op.token).length ↔
      ((Ownership.of m).scans f = true → (Headers.of f.line).isControl = true →
        if isHandedDown (Ownership.of m) f then
          ∀ i ∈ findTokens f.line op.token, conditionsAround f.line i = 0
        else ((findTokens f.line op.token).map (conditionsAround f.line)).sum ≤
          (findTokens f.line op.token).length) := by
  rw [operatorCount_eq_sum source m hf op]
  cases hscans : (Ownership.of m).scans f with
  | false =>
    have hle := sum_map_le_length fun i (_ : i ∈ findTokens f.line op.token) =>
      timesCounted_le_one (Or.inl hscans) i
    simp [hle]
  | true =>
    cases hcontrol : (Headers.of f.line).isControl with
    | false =>
      have hle := sum_map_le_length fun i (_ : i ∈ findTokens f.line op.token) =>
        timesCounted_le_one (Or.inr hcontrol : (Ownership.of m).scans f = false ∨ _) i
      simp [hle]
    | true =>
      simp only [timesCounted_of_isControl hscans hcontrol, forall_const]
      cases isHandedDown (Ownership.of m) f with
      | false => simp
      | true =>
        simp only [if_true, sum_map_add_one]
        rw [← List.forall_mem_map (P := fun n => n = 0), ← List.sum_eq_zero_iff_forall_eq_nat]
        omega

/-- An operator between the parentheses of two headers is counted twice, and one behind them not at all. -/
theorem operatorCount_le_iff_nested_conditions :
    let source := "while (f(x => \x7b if (x && y) return 1 \x7d)) go(a && b);".toList
    let m := BoundaryMap.single 1 ⟨1, 1, by decide⟩
    let f : Focus := ⟨1, [], source, []⟩
    f ∈ foci (splitLines source) ∧
      (Ownership.of m).scans f = true ∧ (Headers.of f.line).isControl = true ∧
      (findTokens f.line Logical.conj.token).map (conditionsAround f.line) = [2, 0] ∧
      operatorCount .conj f.number (decisionPoints source m) = 2 ∧
      operatorCount .conj f.number (decisionPoints source m) ≤
        (findTokens f.line Logical.conj.token).length ∧
      (operatorCount .conj f.number (decisionPoints source m) ≤
          (findTokens f.line Logical.conj.token).length ↔
        ((Ownership.of m).scans f = true → (Headers.of f.line).isControl = true →
          if isHandedDown (Ownership.of m) f then
            ∀ i ∈ findTokens f.line Logical.conj.token, conditionsAround f.line i = 0
          else ((findTokens f.line Logical.conj.token).map (conditionsAround f.line)).sum ≤
            (findTokens f.line Logical.conj.token).length)) := by
  intro source m f
  have hlines : splitLines source = [source] := by decide
  have hf : f ∈ foci (splitLines source) := hlines ▸ List.mem_cons_self
  have hscans : (Ownership.of m).scans f = true := (scans_iff m f).2 (by decide)
  have hcontrol : (Headers.of f.line).isControl = true := by decide
  have hdown : isHandedDown (Ownership.of m) f = false := rfl
  have haround : (findTokens f.line Logical.conj.token).map (conditionsAround f.line) = [2, 0] := by
    decide
  have htokens : (findTokens f.line Logical.conj.token).length = 2 := by decide
  have hiff := operatorCount_le_iff source m hf .conj
  have hcount := operatorCount_eq_sum source m hf .conj
  rw [timesCounted_of_isControl hscans hcontrol] at hcount
  simp only [hdown, Bool.false_eq_true, if_false, Nat.add_zero, haround] at hcount
  refine ⟨hf, hscans, hcontrol, haround, hcount, hiff.2 fun _ _ => ?_, hiff⟩
  rw [hdown, haround, htokens]
  decide

/-- The condition of an `if` is counted a second time by a ternary that opens its branch. -/
theorem operatorCount_gt_of_ternary_below_if :
    let source := "if (a && b)\n  x ? f()\n  : g();".toList
    let m := BoundaryMap.single 1 ⟨1, 3, by decide⟩
    (splitLines source).head? = some "if (a && b)".toList ∧
      (findTokens "if (a && b)".toList ['&', '&']).length = 1 ∧
      operatorCount .conj 1 (decisionPoints source m) = 2 := by
  intro source m
  let here : Focus := ⟨1, [], "if (a && b)".toList, ["  x ? f()".toList, "  : g();".toList]⟩
  let below : Focus := ⟨2, ["if (a && b)".toList], "  x ? f()".toList, ["  : g();".toList]⟩
  have hlines : splitLines source =
      ["if (a && b)".toList, "  x ? f()".toList, "  : g();".toList] := by decide
  refine ⟨by rw [hlines]; rfl, by decide, ?_⟩
  have hhere : (Ownership.of m).scans here = true := (scans_iff m here).2 (by decide)
  have hbelow : (Ownership.of m).scans below = true := (scans_iff m below).2 (by decide)
  have hdown : here.down? = some below := rfl
  have htwice : timesCounted (Ownership.of m) here 6 = 2 := by
    have hpos : (ternaryPositions below).isEmpty = false := by decide
    have hcond : isTernaryCondition here = true := by decide
    have honce : timesCountedHere here 6 = 1 := by decide
    simp only [timesCounted, isHandedDown, hdown, Option.any_some, hhere, hbelow, hpos, hcond, honce]
    rfl
  have htokens : findTokens here.line Logical.conj.token = [6] := by decide
  have hf : here ∈ foci (splitLines source) := hlines ▸ List.mem_cons_self
  have hcount := operatorCount_eq_sum source m hf .conj
  rw [htokens, List.map_cons, htwice] at hcount
  exact hcount

/-- Off control lines every live operator is counted exactly once, by the collector of continued
conditions or by that of expressions, unless the line below takes it for the condition of a
ternary. -/
theorem operatorCount_of_expression_line (source : List Char) (m : BoundaryMap) {f : Focus}
    (hf : f ∈ foci (splitLines source))
    (hinside : ∃ g ∈ m.owners, g.boundary.contains f.number = true)
    (hcode : isQuiet f.line = false) (hcontrol : (Headers.of f.line).isControl = false)
    (hlogical : hasLogicalPair (stripComments f.line) = true)
    (hcondition : isTernaryCondition f = false) (op : Logical) :
    operatorCount op f.number (decisionPoints source m) = (findTokens f.line op.token).length := by
  have hscans : (Ownership.of m).scans f = true := (scans_iff m f).2 ⟨hcode, hinside⟩
  have hexpression : isBooleanExpression (stripComments f.line) (Headers.of f.line)
      (Markup.of f (Headers.of f.line)) = true := by
    simp [isBooleanExpression, hcontrol, hlogical]
  have honce : timesCounted (Ownership.of m) f = fun _ => 1 := by
    funext i
    simp [timesCounted, timesCountedHere, isHandedDown, hscans, hcontrol, hcondition, hexpression]
  rw [operatorCount_eq_sum source m hf op, honce, List.map_const', List.sum_replicate_nat,
    Nat.mul_one]

theorem operatorCount_of_expression_line_continued :
    let source := "if (a &&\n    b || c)\n  go();".toList
    let m := BoundaryMap.single 7 ⟨1, 3, by decide⟩
    let f : Focus := ⟨2, ["if (a &&".toList], "    b || c)".toList, ["  go();".toList]⟩
    f ∈ foci (splitLines source) ∧ (∃ g ∈ m.owners, g.boundary.contains f.number = true) ∧
      isQuiet f.line = false ∧ (Headers.of f.line).isControl = false ∧
      hasLogicalPair (stripComments f.line) = true ∧ isTernaryCondition f = false ∧
      operatorCount .disj f.number (decisionPoints source m) =
        (findTokens f.line Logical.disj.token).length := by
  intro source m f
  have hlines : splitLines source =
      ["if (a &&".toList, "    b || c)".toList, "  go();".toList] := by decide
  have hf : f ∈ foci (splitLines source) := hlines ▸ List.mem_cons_of_mem _ List.mem_cons_self
  have hinside : ∃ g ∈ m.owners, g.boundary.contains f.number = true := by decide
  have hcode : isQuiet f.line = false := by decide
  have hcontrol : (Headers.of f.line).isControl = false := by decide
  have hlogical : hasLogicalPair (stripComments f.line) = true := by decide
  have hcondition : isTernaryCondition f = false := by decide
  exact ⟨hf, hinside, hcode, hcontrol, hlogical, hcondition,
    operatorCount_of_expression_line source m hf hinside hcode hcontrol hlogical hcondition .disj⟩

end BranchTally
