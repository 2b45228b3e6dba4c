-- SUMMARY: Whatever the text, a parameter list ends between its first line and twenty-one lines below, and widening moves the end only down: to the line behind the first, or behind an arrow that is near.
import BranchTally.Parameter.Extent
import BranchTally.Proofs.Extent.Range

/-!
# The end of a parameter list

Ends are exclusive, but each of the tests for an end counts on its own: one names the line it looks at, another
the line below it. So the end is bounded through the line that sets it, which is among the lines walked.
-/

namespace BranchTally

variable {number asked first stop : Int} {line walked : Line} {lines : List Line} {f : Focus}

/-! ## The line that sets the end -/

/-- The line with a number sets an end: the list goes up to this line, without or with it. -/
def SetsEnd (number stop : Int) : Prop := stop = number ∨ stop = number + 1

/-- Brackets close the list on their line, and only on the first line with it. -/
theorem ListState.setsEnd_of_walk {s : ListState} {isFunction : Bool}
    (h : s.walk isFunction number first line = .ends stop) :
    stop = number ∨ stop = number + 1 ∧ number = first := by
  induction line generalizing s with
  | nil => cases h
  | cons c line ih =>
    simp only [walk] at h
    split at h
    · obtain rfl := ListResult.ends.inj h
      split
      · next hfirst => exact Or.inr ⟨rfl, hfirst⟩
      · exact Or.inl rfl
    · split at h
      · exact Or.inl (ListResult.ends.inj h).symm
      · exact ih h

theorem ListState.setsEnd_of_walkLine {s : ListState} (h : s.walkLine walked number first = .ends stop) :
    SetsEnd number stop :=
  (setsEnd_of_walk h).imp_right And.left

theorem setsEnd_of_arrowEnd? (h : arrowEnd? walked number asked line = some stop) :
    SetsEnd number stop := by
  simp only [arrowEnd?] at h
  split at h
  · cases h
  · split at h
    · split at h
      · obtain rfl := Option.some.inj h
        split
        · exact Or.inr rfl
        · exact Or.inl rfl
      · exact Or.inr (Option.some.inj h).symm
    · split at h
      · exact Or.inr (Option.some.inj h).symm
      · cases h

/-- The walk ends with one of its lines. -/
theorem exists_setsEnd_of_signatureEnd? {s : ListState}
    (h : signatureEnd? asked first line number s lines = some stop) :
    ∃ n, NumberIn number lines n ∧ SetsEnd n stop := by
  induction lines generalizing number s with
  | nil => cases h
  | cons next lines ih =>
    simp only [signatureEnd?] at h
    split at h
    · next harrow =>
      obtain rfl := Option.some.inj h
      exact ⟨number, .first, setsEnd_of_arrowEnd? harrow⟩
    · split at h
      · next hwalk =>
        obtain rfl := Option.some.inj h
        exact ⟨number, .first, ListState.setsEnd_of_walkLine hwalk⟩
      · obtain ⟨n, hn, hsets⟩ := ih h
        exact ⟨n, hn.below, hsets⟩

/-- The lines walked begin with the first line of the function, or that of the text, and go twenty below. -/
theorem bounds_of_numberIn_signatureLines {n : Int}
    (h : NumberIn (max (first - 1) 0 + 1) (signatureLines first lines) n) :
    first ≤ n ∧ n ≤ first + signatureLimit := by
  rw [NumberIn, signatureLines, List.length_drop, List.length_take] at h
  rw [signatureLimit] at h ⊢
  omega

theorem bounds_parameterListEnd (asked first : Int) (lines : List Line) (line : Line) :
    first ≤ parameterListEnd asked first lines line ∧
      parameterListEnd asked first lines line ≤ first + signatureLimit + 1 := by
  rw [parameterListEnd]
  split
  · next stop hend =>
    obtain ⟨n, hn, hsets⟩ := exists_setsEnd_of_signatureEnd? hend
    obtain ⟨hfirst, hlast⟩ := bounds_of_numberIn_signatureLines hn
    rcases hsets with rfl | rfl <;> omega
  · rw [signatureLimit]
    split <;> omega

/-! ## Widening -/

/-- An arrow below ends the list with its own line. -/
theorem numberIn_of_arrowBelowFrom (h : arrowBelowFrom number lines = some stop) :
    NumberIn number lines (stop - 1) := by
  induction lines generalizing number with
  | nil => cases h
  | cons line lines ih =>
    rw [arrowBelowFrom] at h
    split at h
    · obtain rfl := Option.some.inj h
      rw [add_sub_cancel_right]
      exact .first
    · exact (ih h).below

theorem bounds_arrowBelow? (h : arrowBelow? f = some stop) :
    f.number + 2 ≤ stop ∧ stop ≤ f.number + arrowLookahead + 1 := by
  have hnumber := numberIn_of_arrowBelowFrom h
  rw [NumberIn, List.length_take] at hnumber
  omega

/-- Widening leaves an end where it is or moves it down, at most behind the arrow that is looked for. -/
theorem bounds_widenedListEnd (stop first : Int) (f : Focus) (line : Line) (signature : Bool) :
    stop ≤ widenedListEnd stop first f line signature ∧
      widenedListEnd stop first f line signature ≤
        max stop (max (first + 1) (f.number + arrowLookahead + 1)) := by
  rw [widenedListEnd]
  split
  · exact ⟨le_rfl, le_max_left _ _⟩
  · next hkept =>
    simp only [ne_eq, Bool.or_eq_true, decide_eq_true_eq, not_or, not_not, not_lt] at hkept
    obtain ⟨⟨hstop, hbelow⟩, -⟩ := hkept
    split
    · omega
    · cases harrow : arrowBelow? f with
      | none => exact ⟨le_rfl, le_max_left _ _⟩
      | some stop' =>
        obtain ⟨hlow, hhigh⟩ := bounds_arrowBelow? harrow
        rw [Option.getD_some]
        omega

/-- Seen from any line, the parameter list of a function ends on its first line or at most twenty-one lines
below. Widening never moves the end up, and not further down than to the line behind the first or to the sixth
line below the one in view. -/
theorem parameterListEnd_near_signature (lines : List Line) (line : Line) (first : Int) (f : Focus)
    (signature : Bool) :
    let stop := parameterListEnd f.number first lines line
    let widened := widenedListEnd stop first f line signature
    (first ≤ stop ∧ stop ≤ first + 21) ∧
      stop ≤ widened ∧ widened ≤ max stop (max (first + 1) (f.number + 6)) := by
  intro stop widened
  obtain ⟨hfirst, hlast⟩ := bounds_parameterListEnd f.number first lines line
  obtain ⟨hkept, hbehind⟩ := bounds_widenedListEnd stop first f line signature
  rw [signatureLimit] at hlast
  rw [arrowLookahead] at hbehind
  exact ⟨⟨hfirst, by omega⟩, hkept, by omega⟩

/-- Both distances are reached: by an arrow twenty lines below the first, and by one five lines below a default. -/
example : parameterListEnd 1 1 (List.replicate 20 [] ++ [arrow]) [] = 22 ∧
    widenedListEnd 1 1 ⟨1, [], "a = 1".toList, List.replicate 4 [] ++ [arrow]⟩ "a = 1".toList false = 7 := by
  decide

end BranchTally
