-- SUMMARY: The estimated boundary of a function is a range of lines of the text, near the line where the function is reported.
import Mathlib
import BranchTally.Function.Extent
import BranchTally.Source

/-!
# Estimated boundaries as ranges

Each search for an end walks down the lines from one that it is given, so what it finds is the number of
one of them. The start is found above the reported line for a declaration, and on it or right below it
for an arrow function.
-/

namespace BranchTally

/-! ## Numbers of lines -/

/-- `n` is the number of one of the lines, the first of which has number `number`. -/
def NumberIn (number : Int) (lines : List Line) (n : Int) : Prop :=
  number ≤ n ∧ n < number + lines.length

namespace NumberIn

variable {number n : Int} {line : Line} {rest lines : List Line}

theorem first : NumberIn number (line :: rest) number := by
  rw [NumberIn, List.length_cons]
  omega

theorem below (h : NumberIn (number + 1) rest n) : NumberIn number (line :: rest) n := by
  rw [NumberIn] at h ⊢
  rw [List.length_cons]
  omega

theorem of_take {count : Nat} (h : NumberIn number (lines.take count) n) :
    NumberIn number lines n := by
  rw [NumberIn, List.length_take] at h
  rw [NumberIn]
  omega

end NumberIn

/-! ## Ends -/

theorem numberIn_expressionEndFrom (number : Int) (line : Line) (rest : List Line) :
    NumberIn number (line :: rest) (expressionEndFrom (number + 1) rest) := by
  induction rest generalizing number line with
  | nil =>
    rw [expressionEndFrom, add_sub_cancel_right]
    exact .first
  | cons next rest ih =>
    rw [expressionEndFrom]
    split
    · exact NumberIn.first.below
    · exact (ih (number + 1) next).below

theorem numberIn_expressionEnd (number : Int) (line : Line) (rest : List Line) :
    NumberIn number (line :: rest) (expressionEnd number line rest) := by
  rw [expressionEnd]
  split
  · exact .first
  · exact numberIn_expressionEndFrom number line rest

theorem numberIn_of_firstLineFrom {test : Nat → Line → Bool} {distance : Nat} {number n : Int}
    {lines : List Line} (h : firstLineFrom test distance number lines = some n) :
    NumberIn number lines n := by
  induction lines generalizing distance number with
  | nil => simp [firstLineFrom] at h
  | cons line rest ih =>
    rw [firstLineFrom] at h
    split at h
    · cases h
      exact .first
    · exact (ih h).below

theorem numberIn_of_callbackTail? {number n : Int} {line : Line} {rest : List Line}
    (h : callbackTail? number line rest = some n) : NumberIn number (line :: rest) n := by
  simp only [callbackTail?] at h
  split at h
  · cases h
  · split at h
    · exact (numberIn_of_firstLineFrom h).of_take
    · split at h
      · exact (numberIn_of_firstLineFrom h).of_take
      · cases h

theorem numberIn_bodyEndAt (number : Int) (line : Line) (rest : List Line) :
    NumberIn number (line :: rest) (bodyEndAt number line rest) := by
  rw [bodyEndAt]
  cases h : callbackTail? number line rest with
  | none => exact .first
  | some stop =>
    dsimp only
    split
    · exact .first
    · exact numberIn_of_callbackTail? h

theorem numberIn_of_bodyEnd? {depth number n : Int} {lines : List Line}
    (h : bodyEnd? depth number lines = some n) : NumberIn number lines n := by
  induction lines generalizing depth number with
  | nil => simp [bodyEnd?] at h
  | cons line rest ih =>
    simp only [bodyEnd?] at h
    split at h
    · cases h
      exact numberIn_bodyEndAt number line rest
    · exact (ih h).below

theorem numberIn_of_declarationEnd? {number n : Int} {lines : List Line}
    (h : declarationEnd? number lines = some n) : NumberIn number lines n := by
  induction lines generalizing number with
  | nil => simp [declarationEnd?] at h
  | cons line rest ih =>
    simp only [declarationEnd?] at h
    split at h
    · split at h
      · cases h
        exact numberIn_bodyEndAt number line rest
      · exact (numberIn_of_bodyEnd? h).below
    · split at h
      · cases h
        exact numberIn_expressionEnd number line rest
      · exact (ih h).below

/-- An arrow function that is found among the lines starts and ends on them. -/
theorem numberIn_of_arrowExtent {start number first : Int} {stop : Option Int} {lines : List Line}
    (h : arrowExtent start number lines = (first, stop)) :
    (first = start ∨ NumberIn number lines first) ∧ ∀ n, stop = some n → NumberIn number lines n := by
  induction lines generalizing number with
  | nil =>
    cases h
    exact ⟨.inl rfl, nofun⟩
  | cons line rest ih =>
    have hexpression : ∀ n, some (expressionEnd number line rest) = some n →
        NumberIn number (line :: rest) n :=
      fun n hn => Option.some.inj hn ▸ numberIn_expressionEnd number line rest
    simp only [arrowExtent] at h
    split at h
    · obtain ⟨hfirst, hstop⟩ := ih h
      exact ⟨hfirst.imp_right .below, fun n hn => (hstop n hn).below⟩
    · split at h
      · split at h
        · obtain ⟨rfl, rfl⟩ := Prod.mk.inj h
          exact ⟨.inr .first, fun n hn => Option.some.inj hn ▸ numberIn_bodyEndAt number line rest⟩
        · obtain ⟨rfl, rfl⟩ := Prod.mk.inj h
          exact ⟨.inr .first, fun n hn => (numberIn_of_bodyEnd? hn).below⟩
      · split at h
        · next next below =>
          split at h
          · obtain ⟨rfl, rfl⟩ := Prod.mk.inj h
            have hnext : number + 2 = number + 1 + 1 := by omega
            rw [hnext]
            exact ⟨.inr NumberIn.first.below, fun n hn => (numberIn_of_bodyEnd? hn).below.below⟩
          · obtain ⟨rfl, rfl⟩ := Prod.mk.inj h
            exact ⟨.inr .first, hexpression⟩
        · obtain ⟨rfl, rfl⟩ := Prod.mk.inj h
          exact ⟨.inr .first, hexpression⟩

/-! ## Starts -/

theorem bounds_of_declarationFrom? {name : List Char} {number found : Int} {above : List Line}
    (h : declarationFrom? name number above = some found) :
    number - above.length < found ∧ found ≤ number := by
  induction above generalizing number with
  | nil => simp [declarationFrom?] at h
  | cons line above ih =>
    rw [declarationFrom?] at h
    rw [List.length_cons]
    split at h
    · cases h
      omega
    · have := ih h
      omega

/-- A declaration is looked for on the reported line and the forty-nine above it. -/
theorem bounds_declarationStart (lines : List Line) {number : Int} (h : 1 ≤ number)
    (name : List Char) :
    let start := declarationStart lines number name
    1 ≤ start ∧ number - 49 ≤ start ∧ start ≤ number := by
  simp only [declarationStart, declarationLookback]
  generalize hlast : min number (lines.length : Int) = last
  generalize hlimit : (last - max 0 (number - (50 : Nat))).toNat = limit
  cases hfound : declarationFrom? name last ((lines.take last.toNat).reverse.take limit) with
  | none =>
    rw [Option.getD_none]
    omega
  | some found =>
    have hbounds := bounds_of_declarationFrom? hfound
    rw [List.length_take, List.length_reverse, List.length_take] at hbounds
    rw [Option.getD_some]
    omega

theorem le_length_of_containsArrow {lines : List Line} {number : Int}
    (h : containsArrow (lineOrEmpty lines number) = true) : number ≤ lines.length := by
  by_contra hlt
  have hnone : lines[(number - 1).toNat]? = none := List.getElem?_eq_none (by omega)
  have hempty : containsArrow [] = false := by decide
  rw [lineOrEmpty, hnone, Option.getD_none, ite_self, hempty] at h
  cases h

/-- An arrow function starts on the reported line or, if that is a line of the text, on the next. -/
theorem bounds_arrowStart (lines : List Line) (number : Int) :
    let start := arrowStart lines number
    number ≤ start ∧ (number ≤ lines.length → start ≤ lines.length) := by
  simp only [arrowStart]
  split
  · exact ⟨le_rfl, id⟩
  · split
    · next harrow =>
      rw [Bool.and_eq_true] at harrow
      exact ⟨by omega, fun _ => le_length_of_containsArrow harrow.2⟩
    · exact ⟨le_rfl, id⟩

/-! ## Boundaries -/

theorem linesFrom?_of_pos {lines : List Line} {number : Int} (h : 1 ≤ number) :
    linesFrom? lines number = some (lines.drop (number - 1).toNat) := by
  rw [linesFrom?, if_pos h]

theorem NumberIn.le_length {lines : List Line} {number n : Int} (h : 1 ≤ number)
    (hn : NumberIn number (lines.drop (number - 1).toNat) n) : n ≤ lines.length := by
  rw [NumberIn, List.length_drop] at hn
  omega

theorem boundaryTo_stop_le {start count : Int} {stop : Option Int} (hstart : start ≤ count)
    (hstop : ∀ n, stop = some n → n ≤ count) : (boundaryTo start stop count).stop ≤ count := by
  rw [boundaryTo]
  cases stop with
  | none => simp only [Option.getD_none]; omega
  | some n =>
    have := hstop n rfl
    simp only [Option.getD_some]
    omega

/-- The boundary of a declared function that is reported on a line. -/
theorem functionBoundary?_of_declared (lines : List Line) {r : FunctionRecord} (hline : 1 ≤ r.line)
    (harrow : r.isArrow = false) :
    let start := declarationStart lines r.line r.name.toList
    functionBoundary? lines r = some (boundaryTo start
      (declarationEnd? start (lines.drop (start - 1).toNat)) lines.length) := by
  have hstart := (bounds_declarationStart lines hline r.name.toList).1
  simp only [functionBoundary?, harrow, Bool.false_eq_true, if_false, linesFrom?_of_pos hstart,
    Option.map_some]

/-- The boundary of an arrow function that is reported on a line. -/
theorem functionBoundary?_of_arrow (lines : List Line) {r : FunctionRecord} (hline : 1 ≤ r.line)
    (harrow : r.isArrow = true) :
    let first := arrowStart lines r.line
    let extent := arrowExtent first first (lines.drop (first - 1).toNat)
    functionBoundary? lines r = some (boundaryTo extent.1 extent.2 lines.length) := by
  have hfirst := hline.trans (bounds_arrowStart lines r.line).1
  simp only [functionBoundary?, harrow, if_true, linesFrom?_of_pos hfirst, Option.map_some]

/-- A function that is reported on a line, be it beyond the text, has a boundary. -/
theorem functionBoundary?_isSome (lines : List Line) {r : FunctionRecord} (hline : 1 ≤ r.line) :
    (functionBoundary? lines r).isSome := by
  cases harrow : r.isArrow with
  | true => rw [functionBoundary?_of_arrow lines hline harrow, Option.isSome_some]
  | false => rw [functionBoundary?_of_declared lines hline harrow, Option.isSome_some]

theorem exists_functionBoundaries? (lines : List Line) {records : List FunctionRecord}
    (h : ∀ r ∈ records, 1 ≤ r.line) : ∃ m, functionBoundaries? lines records = some m := by
  rw [functionBoundaries?]
  generalize OrderedMap.empty = m
  induction records generalizing m with
  | nil => exact ⟨m, rfl⟩
  | cons r records ih =>
    obtain ⟨hr, hrecords⟩ := List.forall_mem_cons.1 h
    obtain ⟨b, hb⟩ := Option.isSome_iff_exists.1 (functionBoundary?_isSome lines hr)
    rw [List.foldlM_cons, hb]
    exact ih hrecords (m.insert r.line b)

/-- Every function that is reported on a line, be it beyond the text, has a boundary, which begins on a
line. It lies in the text if the reported line does. An arrow function begins on the reported line or
below it, and a declared one on the reported line or at most forty-nine lines above. -/
theorem functionBoundary?_in_text (source : List Char) (r : FunctionRecord) (hline : 1 ≤ r.line) :
    ∃ b, functionBoundary? (rawLines source) r = some b ∧ 1 ≤ b.start ∧ b.start ≤ b.stop ∧
      (r.line ≤ (rawLines source).length → b.stop ≤ (rawLines source).length) ∧
      (r.isArrow = true → r.line ≤ b.start) ∧
      (r.isArrow = false → r.line - 49 ≤ b.start ∧ b.start ≤ r.line) := by
  generalize rawLines source = lines
  cases harrow : r.isArrow with
  | true =>
    have hboundary := functionBoundary?_of_arrow lines hline harrow
    obtain ⟨hbelow, hlength⟩ := bounds_arrowStart lines r.line
    generalize arrowStart lines r.line = first at hboundary hbelow hlength
    have hpos := hline.trans hbelow
    cases hextent : arrowExtent first first (lines.drop (first - 1).toNat) with
    | mk start stop =>
      obtain ⟨hstart, hstop⟩ := numberIn_of_arrowExtent hextent
      have hfrom : first ≤ start := by
        rcases hstart with rfl | hstart
        · exact le_rfl
        · exact hstart.1
      simp only [hextent] at hboundary
      refine ⟨_, hboundary, hpos.trans hfrom, Boundary.start_le_stop _, fun hin => ?_,
        fun _ => hbelow.trans hfrom, nofun⟩
      apply boundaryTo_stop_le
      · rcases hstart with rfl | hstart
        · exact hlength hin
        · exact hstart.le_length hpos
      · exact fun n hn => (hstop n hn).le_length hpos
  | false =>
    obtain ⟨hpos, habove, hbelow⟩ := bounds_declarationStart lines hline r.name.toList
    refine ⟨_, functionBoundary?_of_declared lines hline harrow, hpos, Boundary.start_le_stop _,
      fun hin => ?_, nofun, fun _ => ⟨habove, hbelow⟩⟩
    exact boundaryTo_stop_le (hbelow.trans hin) fun n hn =>
      (numberIn_of_declarationEnd? hn).le_length hpos

/-- A declaration that begins on the line above the reported one and ends above the last line. -/
theorem functionBoundary?_in_text_declaration_above :
    let source := "export function load(\n  a,\n) \x7b\n  go();\n\x7d\nload(1);\nload(2);".toList
    let r : FunctionRecord := { file := "load.js", line := 2, complexity := 1, name := "load" }
    let b : Boundary := ⟨1, 5, by decide⟩
    1 ≤ r.line ∧ functionBoundary? (rawLines source) r = some b ∧ (rawLines source).length = 7 ∧
      (r.line ≤ (rawLines source).length → b.stop ≤ (rawLines source).length) ∧
      (r.isArrow = false → r.line - 49 ≤ b.start ∧ b.start ≤ r.line) := by
  intro source r b
  have hline : 1 ≤ r.line := by decide
  have hb : functionBoundary? (rawLines source) r = some b := by decide
  obtain ⟨b', hb', -, -, hstop, -, hstart⟩ := functionBoundary?_in_text source r hline
  obtain rfl : b = b' := Option.some.inj (hb.symm.trans hb')
  exact ⟨hline, hb, by decide, hstop, hstart⟩

end BranchTally
