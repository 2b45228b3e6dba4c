-- SUMMARY: When a control line counts all of its `&&` and `||`: the ones outside every condition are lost.
import BranchTally.Proofs.OperatorCount

/-!
# Operators of control lines

A header on a line leaves all operators of the line to the conditions of its headers. An operator
behind a condition, as in the statement of an `if`, stands in none of them and is lost, unless a
ternary on the line below takes the line for its condition.
-/

namespace BranchTally

/-- The operators of a line that stand in none of its conditions. -/
def strayOperators (line : Line) (op : Logical) : Nat :=
  (findTokens line op.token).countP fun i => conditionsAround line i = 0

/-- How often operators of a line are counted again, since they stand in the conditions of several
headers. -/
def repeatedOperators (line : Line) (op : Logical) : Nat :=
  ((findTokens line op.token).map fun i => conditionsAround line i - 1).sum

theorem sum_add_countP_eq_zero {α : Type} (count : α → Nat) (xs : List α) :
    (xs.map count).sum + xs.countP (fun x => count x = 0) =
      xs.length + (xs.map fun x => count x - 1).sum := by
  induction xs with
  | nil => rfl
  | cons x xs ih =>
    simp only [List.map_cons, List.sum_cons, List.countP_cons, List.length_cons, decide_eq_true_eq]
    split <;> omega

/-- A control line counts its operators, without the stray ones and with the repeated ones, and once
more where the line below takes them for the condition of a ternary. -/
theorem operatorCount_of_control_line (source : List Char) (m : BoundaryMap) {f : Focus}
    (hf : f ∈ foci (splitLines source)) (hscans : (Ownership.of m).scans f = true)
    (hcontrol : (Headers.of f.line).isControl = true) (op : Logical) :
    operatorCount op f.number (decisionPoints source m) + strayOperators f.line op =
      (findTokens f.line op.token).length + repeatedOperators f.line op +
        if isHandedDown (Ownership.of m) f then (findTokens f.line op.token).length else 0 := by
  have hconditions := sum_add_countP_eq_zero (conditionsAround f.line) (findTokens f.line op.token)
  rw [operatorCount_eq_sum source m hf op, timesCounted_of_isControl hscans hcontrol, strayOperators,
    repeatedOperators]
  cases isHandedDown (Ownership.of m) f with
  | false => simpa using hconditions
  | true =>
    simp only [if_true, sum_map_add_one]
    omega

/-- The points of an operator on a control line are at least as many as its live occurrences exactly
where the line below takes these for the condition of a ternary, or where no more of them are stray
than others are repeated. -/
theorem length_le_operatorCount_iff (source : List Char) (m : BoundaryMap) {f : Focus}
    (hf : f ∈ foci (splitLines source))
    (hinside : ∃ g ∈ m.owners, g.boundary.contains f.number = true)
    (hcode : isQuiet f.line = false) (hcontrol : (Headers.of f.line).isControl = true)
    (op : Logical) :
    (findTokens f.line op.token).length ≤ operatorCount op f.number (decisionPoints source m) ↔
      isHandedDown (Ownership.of m) f = true ∨
        strayOperators f.line op ≤ repeatedOperators f.line op := by
  have hscans : (Ownership.of m).scans f = true := (scans_iff m f).2 ⟨hcode, hinside⟩
  have hcount := operatorCount_of_control_line source m hf hscans hcontrol op
  have hstray : strayOperators f.line op ≤ (findTokens f.line op.token).length :=
    List.countP_le_length
  cases hdown : isHandedDown (Ownership.of m) f with
  | false =>
    simp only [hdown, Bool.false_eq_true, if_false, false_or] at hcount ⊢
    omega
  | true =>
    simp only [hdown, if_true, true_or, iff_true] at hcount ⊢
    omega

/-- The operator behind the headers is stray, and the one in both of their conditions makes up for it. -/
theorem length_le_operatorCount_iff_nested_header :
    let source := "while (f(x => \x7b if (x && y) return 1 \x7d)) go(a && b);".toList
    let m := BoundaryMap.single 1 ⟨1, 1, by decide⟩
    let f : Focus := ⟨1, [], source, []⟩
    f ∈ foci (splitLines source) ∧ (∃ g ∈ m.owners, g.boundary.contains f.number = true) ∧
      isQuiet f.line = false ∧ (Headers.of f.line).isControl = true ∧
      strayOperators f.line .conj = 1 ∧ repeatedOperators f.line .conj = 1 ∧
      operatorCount .conj f.number (decisionPoints source m) = 2 ∧
      (findTokens f.line Logical.conj.token).length ≤
        operatorCount .conj f.number (decisionPoints source m) ∧
      ((findTokens f.line Logical.conj.token).length ≤
          operatorCount .conj f.number (decisionPoints source m) ↔
        isHandedDown (Ownership.of m) f = true ∨
          strayOperators f.line .conj ≤ repeatedOperators f.line .conj) := by
  intro source m f
  have hlines : splitLines source = [source] := by decide
  have hf : f ∈ foci (splitLines source) := hlines ▸ List.mem_cons_self
  have hinside : ∃ g ∈ m.owners, g.boundary.contains f.number = true := by decide
  have hcode : isQuiet f.line = false := by decide
  have hcontrol : (Headers.of f.line).isControl = true := by decide
  have hstray : strayOperators f.line .conj = 1 := by decide
  have hrepeated : repeatedOperators f.line .conj = 1 := by decide
  have hlength : (findTokens f.line Logical.conj.token).length = 2 := by decide
  have hdown : isHandedDown (Ownership.of m) f = false := rfl
  have hiff := length_le_operatorCount_iff source m hf hinside hcode hcontrol .conj
  have hcount := operatorCount_of_control_line source m hf ((scans_iff m f).2 ⟨hcode, hinside⟩)
    hcontrol .conj
  rw [hstray, hrepeated, hlength, hdown] at hcount
  exact ⟨hf, hinside, hcode, hcontrol, hstray, hrepeated, Nat.add_right_cancel hcount,
    hiff.2 (.inr (hstray.trans_le hrepeated.ge)), hiff⟩

/-- The operator of the statement behind an `if` is not counted. -/
theorem operatorCount_lt_of_statement_behind_condition :
    let source := "if (x) return a && b;".toList
    let m := BoundaryMap.single 1 ⟨1, 1, by decide⟩
    (splitLines source).head? = some source ∧ (Headers.of source).isControl = true ∧
      (Headers.of source).forHeader = none ∧ (findTokens source ['&', '&']).length = 1 ∧
      operatorCount .conj 1 (decisionPoints source m) = 0 := by
  intro source m
  let f : Focus := ⟨1, [], source, []⟩
  have hlines : splitLines source = [source] := by decide
  have hf : f ∈ foci (splitLines source) := hlines ▸ List.mem_cons_self
  have hscans : (Ownership.of m).scans f = true := (scans_iff m f).2 (by decide)
  have hcontrol : (Headers.of f.line).isControl = true := by decide
  have hcount := operatorCount_of_control_line source m hf hscans hcontrol .conj
  have hlength : (findTokens f.line Logical.conj.token).length = 1 := by decide
  have hstray : strayOperators f.line .conj = 1 := by decide
  have hrepeated : repeatedOperators f.line .conj = 0 := by decide
  have hdown : isHandedDown (Ownership.of m) f = false := rfl
  rw [hlength, hstray, hrepeated, hdown] at hcount
  refine ⟨by rw [hlines]; rfl, hcontrol, by decide, hlength, ?_⟩
  simpa using hcount

end BranchTally
