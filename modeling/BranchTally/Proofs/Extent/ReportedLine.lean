-- SUMMARY: The boundary of a declared function contains its reported line exactly where the declaration that carries its name does not end above that line.
import BranchTally.Proofs.Extent.Closing

/-!
# The reported line of a declared function

A declaration is looked for by name, upwards from the reported line, and the boundary runs from there to
the end of what is declared. Nothing asks whether that end reaches the reported line: a method below a
function has the name of that function and so its boundary. A line also counts by the first match of each
pattern alone, so that a second declaration on it is passed over.
-/

namespace BranchTally

/-! ## The nearest declaration -/

/-- Of the reported line and the forty-nine lines above it, `place` is the lowest that declares the name. -/
structure NearestDeclaration (lines : List Line) (name : List Char) (number place : Int) : Prop where
  near : number - declarationLookback < place
  above : place ≤ number
  declares : declaresName name (lineOrEmpty lines place) = true
  nearest : ∀ k, place < k → k ≤ number → declaresName name (lineOrEmpty lines k) = false

theorem NearestDeclaration.unique {lines : List Line} {name : List Char} {number place place' : Int}
    (h : NearestDeclaration lines name number place) (h' : NearestDeclaration lines name number place') :
    place = place' := by
  by_contra hne
  rcases lt_or_gt_of_ne hne with hlt | hlt
  · have hnot := h.nearest place' hlt h'.above
    rw [h'.declares] at hnot
    cases hnot
  · have hnot := h'.nearest place hlt h.above
    rw [h.declares] at hnot
    cases hnot

/-- An empty line, which stands for every line beyond the text, declares nothing. -/
theorem declaresName_nil (name : List Char) : declaresName name [] = false := by
  have hnone : ∀ p ∈ declarationPatterns, firstName? p [] = none :=
    List.forall_mem_cons.2 ⟨rfl, List.forall_mem_cons.2 ⟨rfl, List.forall_mem_cons.2 ⟨rfl,
      List.forall_mem_cons.2 ⟨rfl, List.forall_mem_cons.2 ⟨rfl, nofun⟩⟩⟩⟩⟩
  rw [declaresName, List.any_eq_false]
  intro p hp
  simp [hnone p hp]

theorem NearestDeclaration.pos {lines : List Line} {name : List Char} {number place : Int}
    (h : NearestDeclaration lines name number place) : 1 ≤ place := by
  by_contra hlt
  have hdeclares := h.declares
  rw [lineOrEmpty, if_neg hlt, declaresName_nil] at hdeclares
  cases hdeclares

theorem declarationFrom?_eq (name : List Char) (number : Int) (above : List Line) :
    declarationFrom? name number above =
      (above.findIdx? (declaresName name)).map fun distance : Nat => number - distance := by
  induction above generalizing number with
  | nil => rfl
  | cons line above ih =>
    rw [declarationFrom?, List.findIdx?_cons, ih]
    cases declaresName name line with
    | true => simp
    | false =>
      cases above.findIdx? (declaresName name) with
      | none => rfl
      | some distance =>
        have hplace : number - 1 - (distance : Int) = number - (distance + 1 : Nat) := by omega
        simp only [Bool.false_eq_true, if_false, Option.map_some, hplace]

section

variable {lines : List Line} {number : Int} (hline : 1 ≤ number) (hin : number ≤ lines.length)

include hline hin

/-- The lines from a line of the text upwards. -/
theorem linesAbove_eq {limit : Nat} (hlimit : limit ≤ number) :
    (lines.take number.toNat).reverse.take limit =
      (List.range limit).map fun distance : Nat => lineOrEmpty lines (number - distance) := by
  have hlength : (lines.take number.toNat).length = number.toNat := by
    rw [List.length_take]
    omega
  apply List.ext_getElem
  · rw [List.length_take, List.length_reverse, hlength, List.length_map, List.length_range]
    omega
  · intro distance _ hdistance
    rw [List.length_map, List.length_range] at hdistance
    have hplace : number.toNat - 1 - distance = (number - distance - 1).toNat := by omega
    have hlt : (number - distance - 1).toNat < lines.length := by omega
    simp only [List.getElem_take, List.getElem_reverse, List.getElem_map, List.getElem_range, hlength,
      hplace]
    rw [lineOrEmpty, if_pos (by omega), List.getElem?_eq_getElem hlt, Option.getD_some]

/-- The start of a declared function is the nearest line that declares its name, or the reported line
where none does. -/
theorem declarationStart_cases (name : List Char) :
    NearestDeclaration lines name number (declarationStart lines number name) ∨
      (∀ place, ¬NearestDeclaration lines name number place) ∧
        declarationStart lines number name = number := by
  have hlast : min number (lines.length : Int) = number := min_eq_left hin
  simp only [declarationStart, hlast, declarationFrom?_eq]
  generalize hlimit : (number - max 0 (number - declarationLookback)).toNat = limit
  rw [declarationLookback] at hlimit
  rw [linesAbove_eq hline hin (by omega), List.findIdx?_map]
  cases hfound : (List.range limit).findIdx? (declaresName name ∘ fun distance : Nat =>
      lineOrEmpty lines (number - distance)) with
  | none =>
    refine .inr ⟨fun place h => ?_, rfl⟩
    have hpos := h.pos
    have habove := h.above
    have hnear := h.near
    rw [declarationLookback] at hnear
    have hdistance : (number - place).toNat ∈ List.range limit := List.mem_range.2 (by omega)
    have hplace : number - ((number - place).toNat : Int) = place := by omega
    have hnot := List.findIdx?_eq_none_iff.1 hfound _ hdistance
    rw [Function.comp_apply, hplace, h.declares] at hnot
    cases hnot
  | some distance =>
    obtain ⟨hlt, hdeclares, hbefore⟩ := List.findIdx?_eq_some_iff_getElem.1 hfound
    rw [List.length_range] at hlt
    simp only [List.getElem_range, Function.comp_apply, Bool.not_eq_true] at hdeclares hbefore
    rw [Option.map_some, Option.getD_some]
    refine .inl ⟨by rw [declarationLookback]; omega, by omega, hdeclares, fun k hbelow hk => ?_⟩
    have hplace : number - ((number - k).toNat : Int) = k := by omega
    have hnot := hbefore (number - k).toNat (by omega)
    rwa [hplace] at hnot

end

/-! ## The reported line -/

/-- A line at or below the start lies in a boundary if it is not below the end. -/
theorem contains_boundaryTo {start line count : Int} {stop : Option Int} (h : start ≤ line) :
    (boundaryTo start stop count).contains line = true ↔
      line ≤ stop.getD (min (start + fallbackSpan) count) ∨ line ≤ start := by
  rw [boundaryTo, Boundary.contains, Bool.and_eq_true, decide_eq_true_eq, decide_eq_true_eq, le_max_iff,
    and_iff_right h]

/-- A declared function that is reported on a line of the text has a boundary that starts there or above.
It contains the reported line exactly where the nearest declaration of its name, if there is one, does not
end above that line. -/
theorem contains_line_iff_not_ended_above (source : List Char) (r : FunctionRecord)
    (hline : 1 ≤ r.line) (hin : r.line ≤ (rawLines source).length) (hdeclared : r.isArrow = false) :
    ∃ b, functionBoundary? (rawLines source) r = some b ∧ b.start ≤ r.line ∧
      (b.contains r.line = true ↔
        ∀ place, NearestDeclaration (rawLines source) r.name.toList r.line place →
          ∀ n, DeclarationEnds place ((rawLines source).drop (place - 1).toNat) n → r.line ≤ n) := by
  generalize rawLines source = lines at hin ⊢
  have hboundary := functionBoundary?_of_declared lines hline hdeclared
  obtain ⟨hpos, habove, hbelow⟩ := bounds_declarationStart lines hline r.name.toList
  have hcases := declarationStart_cases hline hin r.name.toList
  generalize declarationStart lines r.line r.name.toList = start at hboundary hpos habove hbelow hcases
  refine ⟨_, hboundary, hbelow, ?_⟩
  rw [contains_boundaryTo hbelow]
  rcases hcases with hnearest | ⟨hnone, rfl⟩
  · simp only [← declarationEnd?_eq_some_iff]
    cases hend : declarationEnd? start (lines.drop (start - 1).toNat) with
    | none =>
      -- The fall-back reaches further down than a declaration is looked for above.
      have hreach : r.line ≤ min (start + fallbackSpan) lines.length := by
        rw [fallbackSpan]
        omega
      rw [Option.getD_none]
      refine ⟨fun _ place hplace n hn => ?_, fun _ => .inl hreach⟩
      rw [hplace.unique hnearest, hend] at hn
      cases hn
    | some stop =>
      have hstop := (numberIn_of_declarationEnd? hend).1
      rw [Option.getD_some]
      constructor
      · intro hcontains place hplace n hn
        rw [hplace.unique hnearest, hend, Option.some.injEq] at hn
        omega
      · intro h
        exact .inl (h start hnearest stop hend)
  · exact ⟨fun _ place hplace => absurd hplace (hnone place), fun _ => .inr le_rfl⟩

/-- A method inside a function has the name of the function and lies in its boundary. -/
theorem contains_line_iff_not_ended_above_method :
    let source := "function outer() \x7b\n  return \x7b\n    run(x) \x7b\n    \x7d\n  \x7d;\n\x7d".toList
    let r : FunctionRecord := { file := "outer.js", line := 3, complexity := 1, name := "outer" }
    let b : Boundary := ⟨1, 6, by decide⟩
    1 ≤ r.line ∧ r.line ≤ (rawLines source).length ∧ r.isArrow = false ∧
      functionName (rawLines source) r.line r.nodeType = r.name.toList ∧
      functionBoundary? (rawLines source) r = some b ∧ b.contains r.line = true ∧
      (b.contains r.line = true ↔
        ∀ place, NearestDeclaration (rawLines source) r.name.toList r.line place →
          ∀ n, DeclarationEnds place ((rawLines source).drop (place - 1).toNat) n → r.line ≤ n) := by
  intro source r b
  have hline : 1 ≤ r.line := by decide
  have hin : r.line ≤ (rawLines source).length := by decide
  have hdeclared : r.isArrow = false := by decide
  have hb : functionBoundary? (rawLines source) r = some b := by decide
  obtain ⟨b', hb', -, hcontains⟩ := contains_line_iff_not_ended_above source r hline hin hdeclared
  obtain rfl : b = b' := Option.some.inj (hb.symm.trans hb')
  exact ⟨hline, hin, hdeclared, by decide, hb, by decide, hcontains⟩

/-- The second declaration on its line has the reported line to itself, but the search by name sees only
the first one there, and goes on to a function of the same name above. -/
theorem not_contains_line_of_second_declaration :
    let source := "\x7b function b() \x7b\x7d \x7d\nfunction a() \x7b\x7d function b() \x7b\n\x7d".toList
    let r : FunctionRecord := { file := "b.js", line := 2, complexity := 1, name := "b" }
    1 ≤ r.line ∧ r.line ≤ (rawLines source).length ∧ r.isArrow = false ∧
      functionName (rawLines source) r.line r.nodeType = r.name.toList ∧
      ∃ b, functionBoundary? (rawLines source) r = some b ∧ b.contains r.line = false := by
  intro source r
  have hstart : functionBoundary? (rawLines source) r = some ⟨1, 1, by decide⟩ := by decide
  exact ⟨by decide, by decide, by decide, by decide, _, hstart, by decide⟩

end BranchTally
