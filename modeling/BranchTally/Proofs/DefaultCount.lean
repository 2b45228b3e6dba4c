-- SUMMARY: The points of defaults on a line are those that its parameter list or its destructuring declaration has.
import BranchTally.Proofs.OperatorCount

/-!
# Counting defaults

Of all collectors only those of parameters and of destructuring declarations report defaults, and they
report them on the line they look at. Two defaults are never taken for duplicates of each other.
-/

namespace BranchTally

/-- The points of defaults on a line. -/
def defaultCount (number : Int) (points : List Point) : Nat :=
  points.countP fun p => p.line = number && p.kind = .defaultParameter

/-- The points of defaults that are read on the line in view, which belongs to the function
`owner`. -/
def readDefaults (ctx : Ownership) (lines : List Line) (f : Focus) (owner : Int) : List Point :=
  if (parameterPoints ctx lines f owner).isEmpty then
    destructuringPoints f owner (ctx.boundaries.get? owner)
  else parameterPoints ctx lines f owner

/-! ## Counts -/

section

variable {m : BoundaryMap} {lines : List Line} {f : Focus} {owner : Int}

/-- What stands before the defaults of a line are points of other families. -/
theorem codePoints_eq_append_readDefaults (howner : (Ownership.of m).Holds f.number owner) :
    ∃ front, codePoints (Ownership.of m) lines f owner =
        front ++ readDefaults (Ownership.of m) lines f owner ∧
      ∀ p ∈ front, p.kind.family ≠ .default := by
  refine ⟨_, rfl, fun p hp => ?_⟩
  simp only [List.mem_append] at hp
  rcases hp with ((hp | hp) | hp) | hp
  · exact (madeOn_of_mem_controlPoints howner hp).family_ne (by decide) (by decide)
  · exact family_ne_of_mem_ternaryPoints howner hp (by decide) (by decide)
  · exact (madeOn_of_mem_pointsAt rfl howner hp).family_ne (by decide) (by decide)
  · exact (madeOn_of_mem_expressions howner.hasKey hp).family_ne (by decide) (by decide)

/-- A line reports the defaults that are read on it, all on itself. -/
theorem defaultCount_codePoints (howner : (Ownership.of m).Holds f.number owner) (number : Int) :
    defaultCount number (codePoints (Ownership.of m) lines f owner) =
      if f.number = number then (readDefaults (Ownership.of m) lines f owner).length else 0 := by
  obtain ⟨front, heq, hother⟩ := @codePoints_eq_append_readDefaults m lines f owner howner
  have hfront : front.countP (fun p => p.line = number && p.kind = .defaultParameter) = 0 := by
    rw [List.countP_eq_zero]
    intro p hp
    have hkind : p.kind ≠ .defaultParameter := Kind.ne_of_family_ne (hother p hp)
    simp [hkind]
  obtain ⟨count, key, -, hread⟩ := defaults_eq lines howner
  rw [defaultCount, heq, List.countP_append, hfront, Nat.zero_add, readDefaults, hread, defaultPoints,
    List.countP_replicate]
  simp

theorem defaultCount_scanLine (number : Int) :
    defaultCount number (scanLine (Ownership.of m) lines f) =
      if f.number = number then defaultCount f.number (scanLine (Ownership.of m) lines f) else 0 := by
  cases hscans : (Ownership.of m).scans f with
  | false => simp [scanLine_of_not_scans lines hscans, defaultCount]
  | true =>
    obtain ⟨owner, hinnermost, heq⟩ := scanLine_of_scans lines hscans
    have howner := Ownership.holds_of_innermost? hinnermost
    rw [heq, defaultCount_codePoints howner, defaultCount_codePoints howner]
    simp

/-- The defaults on a line of a source are those that the line itself reports. -/
theorem defaultCount_decisionPoints (source : List Char) (m : BoundaryMap) (number : Int) :
    defaultCount number (decisionPoints source m) =
      (((foci (splitLines source)).filter fun f => f.number = number).map fun f =>
        defaultCount number (scanLine (Ownership.of m) (splitLines source) f)).sum := by
  have hrepeatable : ∀ p : Point, (p.line = number && p.kind = .defaultParameter) = true →
      p.kind.repeatable = true := by
    intro p hp
    simp only [Bool.and_eq_true, decide_eq_true_eq] at hp
    rw [hp.2]
    rfl
  have hraw (fs : List Focus) :
      defaultCount number (fs.flatMap (scanLine (Ownership.of m) (splitLines source))) =
        ((fs.filter fun f => f.number = number).map fun f =>
          defaultCount number (scanLine (Ownership.of m) (splitLines source) f)).sum := by
    induction fs with
    | nil => rfl
    | cons f fs ih =>
      rw [List.flatMap_cons, defaultCount, List.countP_append]
      rw [defaultCount] at ih
      rw [ih]
      by_cases hf : f.number = number
      · simp [hf, defaultCount]
      · have hzero := @defaultCount_scanLine m (splitLines source) f number
        rw [if_neg hf, defaultCount] at hzero
        simp [hf, hzero]
  exact (countP_decisionPoints hrepeatable source m).trans (hraw _)

end

end BranchTally
