-- SUMMARY: A scan of a padded text with relabelled functions reports the points of the text, relabelled, in their order.
import BranchTally.Proofs.Relabeling.Owners
import BranchTally.Proofs.Relabeling.Padding

/-!
# Relabelled points

A map that answers like another one, relabelled, is scanned over the same text with empty lines around
it. Each collector then reports the points of before, moved down and under the new names of their
owners, in the same order; the removal of duplicates and the sorting keep this.
-/

namespace BranchTally

open Text

namespace Relabeling

/-- The point moved down, with its owner under the new name. -/
def point (r : Relabeling) (p : Point) : Point := ⟨p.line + r.shift, p.kind, r.rename p.owner⟩

/-! ## Points with one owner -/

section

variable (r : Relabeling) (text : Line) (line owner : Int)

@[simp] theorem pointsAt_point (kind : Kind) (positions : List Nat) :
    pointsAt (line + r.shift) kind (r.rename owner) positions =
      (pointsAt line kind owner positions).map r.point := by
  simp [pointsAt, point]

@[simp] theorem logicalPoints_point : logicalPoints text (line + r.shift) (r.rename owner) =
    (logicalPoints text line owner).map r.point := by
  simp only [logicalPoints, List.map_flatMap, pointsAt_point]

@[simp] theorem nullishPoints_point : nullishPoints text (line + r.shift) (r.rename owner) =
    (nullishPoints text line owner).map r.point :=
  r.pointsAt_point line owner _ _

@[simp] theorem chainPoints_point : chainPoints text (line + r.shift) (r.rename owner) =
    (chainPoints text line owner).map r.point :=
  r.pointsAt_point line owner _ _

@[simp] theorem operatorPoints_point (h : Header) :
    operatorPoints text h (line + r.shift) (r.rename owner) =
      (operatorPoints text h line owner).map r.point := by
  simp [operatorPoints, point]

@[simp] theorem headerPoints_point (kind : Kind) (h : Header) :
    headerPoints kind text (line + r.shift) (r.rename owner) h =
      (headerPoints kind text line owner h).map r.point := by
  simp [headerPoints, point]

@[simp] theorem defaultPoints_point (count : Nat) :
    defaultPoints count (line + r.shift) (r.rename owner) =
      (defaultPoints count line owner).map r.point := by
  simp [defaultPoints, point]

end

/-! ## Points of defaults -/

section

variable (r : Relabeling) (f : Focus) (below : Nat)

@[simp] theorem arrowPoints_point (line : Line) (owner : Int) :
    arrowPoints line (f.pad r.shift below) (r.rename owner) =
      (arrowPoints line f owner).map r.point := by
  simp only [arrowPoints, isNoArrowContext_pad, number_pad, defaultPoints_point]
  split <;> rfl

@[simp] theorem signaturePoints_point (lines : List Line) (line : Line) (owner : Int)
    (boundary : Boundary) :
    signaturePoints (padLines r.shift below lines) line (f.pad r.shift below) (r.rename owner)
      (boundary.shift r.shift) = (signaturePoints lines line f owner boundary).map r.point := by
  simp only [signaturePoints, number_pad, Boundary.start_shift, parameterListEnd_pad,
    widenedListEnd_pad, Int.add_le_add_iff_right, Int.add_lt_add_iff_right, Int.add_left_inj,
    isDependencyArray_pad, opensSplitArrow_pad, isMarkupAttribute_pad, isExcluded_pad,
    defaultPoints_point]
  split
  · rfl
  · split
    · rfl
    · split
      · rfl
      · split <;> rfl

@[simp] theorem destructuringPoints_point (owner : Int) (boundary : Option Boundary) :
    destructuringPoints (f.pad r.shift below) (r.rename owner) (boundary.map (·.shift r.shift)) =
      (destructuringPoints f owner boundary).map r.point := by
  cases boundary with
  | none => rfl
  | some b =>
    have hnear : f.number + r.shift ≤ b.start + r.shift + destructuringWindow ↔
        f.number ≤ b.start + destructuringWindow := by omega
    simp only [Option.map_some, destructuringPoints, line_pad, number_pad, Boundary.start_shift,
      Int.add_le_add_iff_right, hnear, isInDestructuring_pad, defaultPoints_point]
    split <;> rfl

end

namespace Answers

variable {r : Relabeling} {m m' : BoundaryMap} (h : r.Answers m m')

include h

/-! ## Control structures -/

theorem keyOr {key : Option Int} (hkey : ∀ k, key = some k → (Ownership.of m).HasKey k)
    (default : Int) :
    keyOr (key.map r.rename) (r.rename default) = r.rename (BranchTally.keyOr key default) := by
  cases key with
  | none => rfl
  | some k =>
    simp only [Option.map_some, BranchTally.keyOr, h.zero k (hkey k rfl)]
    split <;> rfl

theorem controlOwner (line owner : Int) :
    controlOwner (Ownership.of m') (line + r.shift) (r.rename owner) =
      r.rename (BranchTally.controlOwner (Ownership.of m) line owner) := by
  rw [BranchTally.controlOwner, h.control, h.keyOr fun _ => Ownership.hasKey_of_controlOwner?,
    BranchTally.controlOwner]

theorem ifPoints (text : Line) (header : Header) (line : Int) {owner : Int}
    (howner : (Ownership.of m).HasKey owner) :
    ifPoints (Ownership.of m') text (line + r.shift) header (r.rename owner) =
      (BranchTally.ifPoints (Ownership.of m) text line header owner).map r.point := by
  have hcallback := h.callback line _ (hasKey_controlOwner line howner)
  simp only [BranchTally.ifPoints, h.controlOwner, List.map_cons, List.map_map, Function.comp_def]
  congr 1
  apply List.map_congr_left
  intro o _
  simp only [point]
  congr 1
  -- the callback behind the arrow is the relabelled one, if there is one at all
  generalize (Ownership.of m').callbackOn? _ _ = callback' at hcallback ⊢
  generalize (Ownership.of m).callbackOn? _ _ = callback at hcallback ⊢
  rcases callback with _ | f <;> rcases callback' with _ | g
  · split <;> rfl
  · simp at hcallback
  · simp at hcallback
  · simp only [Option.map_some, Option.some.injEq] at hcallback
    simp only [hcallback]
    split
    · rfl
    · split <;> rfl

theorem controlPoints (text : Line) (line : Int) (headers : Headers) {owner : Int}
    (howner : (Ownership.of m).HasKey owner) :
    controlPoints (Ownership.of m') text (line + r.shift) headers (r.rename owner) =
      (BranchTally.controlPoints (Ownership.of m) text line headers owner).map r.point := by
  have heach (header : Option Header) {points points' : Header → List Point}
      (hpoints : ∀ x, points' x = (points x).map r.point) :
      (header.map points').getD [] = ((header.map points).getD []).map r.point := by
    cases header with
    | none => rfl
    | some x => exact hpoints x
  simp only [BranchTally.controlPoints, h.controlOwner, List.map_append]
  iterate 8 refine congrArg₂ HAppend.hAppend ?_ ?_
  · exact heach _ fun x => h.ifPoints text x line howner
  · exact heach _ (r.headerPoints_point _ _ _ _)
  · refine heach _ fun x => ?_
    simp only [operatorPoints_point]
    split <;> rfl
  · exact heach _ (r.headerPoints_point _ _ _ _)
  · exact heach _ fun _ => rfl
  · exact heach _ (r.operatorPoints_point _ _ _)
  · exact heach _ (r.headerPoints_point _ _ _ _)
  · split <;> rfl
  · exact heach _ (r.headerPoints_point _ _ _ _)

/-! ## Ternaries and operators -/

theorem conditionOwner (line : Int) (text : Line) (owner : Int) :
    conditionOwner (Ownership.of m') (line + r.shift) text (r.rename owner) =
      r.rename (BranchTally.conditionOwner (Ownership.of m) line text owner) := by
  simp only [BranchTally.conditionOwner, h.control, h.innermost]
  split
  · exact h.keyOr (fun _ => Ownership.hasKey_of_controlOwner?) owner
  · exact h.keyOr (fun _ => Ownership.hasKey_of_innermost?) owner

variable (f : Focus) (below : Nat)

theorem conditionAbovePoints (owner : Int) :
    conditionAbovePoints (f.pad r.shift below) (r.rename owner) (Ownership.of m').innermost? =
      (BranchTally.conditionAbovePoints f owner (Ownership.of m).innermost?).map r.point := by
  cases hup : f.up? with
  | none =>
    cases hempty : (f.pad r.shift below).up? with
    | none => simp only [BranchTally.conditionAbovePoints, hup, hempty, List.map_nil]
    | some g =>
      have hcondition := isTernaryCondition_of_up?_pad _ _ hup hempty
      simp [BranchTally.conditionAbovePoints, hup, hempty, hcondition]
  | some g =>
    simp only [BranchTally.conditionAbovePoints, hup, up?_pad _ _ hup, isTernaryCondition_pad]
    split
    · simp only [number_pad, line_pad, h.innermost,
        h.keyOr fun _ => Ownership.hasKey_of_innermost?, logicalPoints_point]
    · rfl

theorem ternaryPoints (owner : Int) :
    ternaryPoints (f.pad r.shift below) (r.rename owner) (Ownership.of m').innermost? =
      (BranchTally.ternaryPoints f owner (Ownership.of m).innermost?).map r.point := by
  simp only [BranchTally.ternaryPoints, ternaryPositions_pad, number_pad, line_pad, pointsAt_point,
    nullishPoints_point, h.conditionAbovePoints, List.map_append]
  split <;> rfl

theorem expressionPoints (headers : Headers) (markup : Markup) (owner : Int) :
    expressionPoints (Ownership.of m') (f.pad r.shift below) headers markup (r.rename owner) =
      (BranchTally.expressionPoints (Ownership.of m) f headers markup owner).map r.point := by
  simp only [BranchTally.expressionPoints, line_pad, number_pad, isTernaryCondition_pad, h.expression]
  split
  · rfl
  · simp only [List.map_flatMap, List.map_map]
    rfl

theorem continuationPointsBelow (above : Line) (headers : Headers) (markup : Markup) (owner : Int) :
    continuationPointsBelow (Ownership.of m') above (f.pad r.shift below) headers markup
      (r.rename owner) =
      (BranchTally.continuationPointsBelow (Ownership.of m) above f headers markup owner).map
        r.point := by
  have hup (distance : Int) : f.number + r.shift - distance = f.number - distance + r.shift := by
    omega
  simp only [BranchTally.continuationPointsBelow, mayContinue_pad, line_pad, number_pad, before_pad,
    conditionStart?_append_empty, getD_append_empty, hup, h.conditionOwner, logicalPoints_point]
  split
  · rfl
  · split
    · rfl
    · cases conditionStart? f.before <;> rfl

theorem continuationPoints (headers : Headers) (markup : Markup) (owner : Int) :
    continuationPoints (Ownership.of m') (f.pad r.shift below) headers markup (r.rename owner) =
      (BranchTally.continuationPoints (Ownership.of m) f headers markup owner).map r.point := by
  obtain ⟨number, before, line, after⟩ := f
  rcases before with _ | ⟨above, before⟩
  · -- no condition begins on the empty lines above the text
    cases hshift : r.shift with
    | zero => rfl
    | succ lines =>
      have hstart : isConditionStart (trim (stripComments [])) = false := by decide
      have hnone : conditionStart? (List.replicate (lines + 1) []) = none :=
        conditionStart?_append_empty [] (lines + 1)
      simp only [BranchTally.continuationPoints, BranchTally.continuationPointsBelow, before_pad,
        List.nil_append, List.replicate_succ, hstart]
      rw [← List.replicate_succ, hnone]
      split <;> rfl
  · exact h.continuationPointsBelow _ below above headers markup owner

/-! ## One line -/

theorem parameterPoints (lines : List Line) {owner : Int} (howner : (Ownership.of m).HasKey owner) :
    parameterPoints (Ownership.of m') (padLines r.shift below lines) (f.pad r.shift below)
      (r.rename owner) =
      (BranchTally.parameterPoints (Ownership.of m) lines f owner).map r.point := by
  have hrange : (Ownership.of m').boundaries.get? (r.rename owner) =
      ((Ownership.of m).boundaries.get? owner).map (·.shift r.shift) := h.range _ howner
  simp only [BranchTally.parameterPoints, line_pad, number_pad, h.arrow _ _ howner, hrange,
    arrowPoints_point, List.isEmpty_map]
  split
  · split
    · cases ((Ownership.of m).arrowOwner f.number owner).2 with
      | none => rfl
      | some b => exact r.signaturePoints_point f below lines _ owner b
    · rfl
  · cases (Ownership.of m).boundaries.get? owner with
    | none => rfl
    | some b => exact r.signaturePoints_point f below lines _ owner b

theorem codePoints (lines : List Line) {owner : Int} (howner : (Ownership.of m).HasKey owner) :
    codePoints (Ownership.of m') (padLines r.shift below lines) (f.pad r.shift below)
      (r.rename owner) =
      (BranchTally.codePoints (Ownership.of m) lines f owner).map r.point := by
  have hrange : (Ownership.of m').boundaries.get? (r.rename owner) =
      ((Ownership.of m).boundaries.get? owner).map (·.shift r.shift) := h.range _ howner
  simp only [BranchTally.codePoints, line_pad, number_pad, markup_pad, h.controlPoints _ _ _ howner,
    h.ternaryPoints, chainPoints_point, h.continuationPoints, h.expressionPoints,
    h.parameterPoints f below lines howner, hrange, destructuringPoints_point, List.isEmpty_map,
    List.map_append]
  refine congrArg₂ HAppend.hAppend (congrArg _ ?_) ?_
  · split <;> rfl
  · split <;> rfl

theorem scanLine (lines : List Line) :
    scanLine (Ownership.of m') (padLines r.shift below lines) (f.pad r.shift below) =
      (BranchTally.scanLine (Ownership.of m) lines f).map r.point := by
  simp only [BranchTally.scanLine, line_pad, number_pad, h.innermost]
  split
  · rfl
  · cases howner : (Ownership.of m).innermost? f.number with
    | none => rfl
    | some owner => exact h.codePoints f below lines (Ownership.hasKey_of_innermost? howner)

omit f in
theorem rawPoints (lines : List Line) :
    rawPoints (Ownership.of m') (padLines r.shift below lines) =
      (BranchTally.rawPoints (Ownership.of m) lines).map r.point := by
  have hquiet : ∀ f : Focus, f.line = [] →
      BranchTally.scanLine (Ownership.of m') (padLines r.shift below lines) f = [] := by
    intro f hf
    rw [BranchTally.scanLine, hf, if_pos (by decide)]
  rw [BranchTally.rawPoints, flatMap_foci_padLines hquiet, BranchTally.rawPoints, List.map_flatMap]
  exact List.flatMap_congr fun f _ => h.scanLine f below lines

/-! ## All points -/

omit f below in
/-- Different points stay different. -/
theorem point_injective {p q : Point} (hp : (Ownership.of m).HasKey p.owner)
    (hq : (Ownership.of m).HasKey q.owner) (heq : r.point p = r.point q) : p = q := by
  obtain ⟨line, kind, owner⟩ := p
  obtain ⟨line', kind', owner'⟩ := q
  simp only [point, Point.mk.injEq, Int.add_left_inj] at heq ⊢
  exact ⟨heq.1, heq.2.1, h.injective _ _ hp hq heq.2.2⟩

omit f below in
theorem distinctFrom {seen points : List Point} (hseen : ∀ p ∈ seen, (Ownership.of m).HasKey p.owner)
    (hpoints : ∀ p ∈ points, (Ownership.of m).HasKey p.owner) :
    distinctFrom (seen.map r.point) (points.map r.point) =
      (BranchTally.distinctFrom seen points).map r.point := by
  induction points generalizing seen with
  | nil => rfl
  | cons p rest ih =>
    obtain ⟨hp, hrest⟩ := List.forall_mem_cons.1 hpoints
    have hcontains : (seen.map r.point).contains (r.point p) = seen.contains p := by
      rw [Bool.eq_iff_iff, List.contains_iff_mem, List.contains_iff_mem, List.mem_map]
      refine ⟨?_, fun hmem => ⟨p, hmem, rfl⟩⟩
      rintro ⟨q, hq, heq⟩
      exact h.point_injective (hseen q hq) hp heq ▸ hq
    have hkind : (r.point p).kind = p.kind := rfl
    simp only [List.map_cons, BranchTally.distinctFrom, hcontains, hkind]
    split
    · rw [ih hseen hrest, List.map_cons]
    · split
      · exact ih hseen hrest
      · rw [← List.map_cons, ih (List.forall_mem_cons.2 ⟨hp, hseen⟩) hrest, List.map_cons]

omit f in
/-- The scan of the padded text reports the points of the text, relabelled. -/
theorem decisionPoints (source : List Char) :
    decisionPoints (List.replicate r.shift '\n' ++ source ++ List.replicate below '\n') m' =
      (BranchTally.decisionPoints source m).map r.point := by
  have hkeys : ∀ p ∈ BranchTally.rawPoints (Ownership.of m) (splitLines source),
      (Ownership.of m).HasKey p.owner := fun _ => hasKey_of_mem_rawPoints
  have hdistinct := h.distinctFrom (List.forall_mem_nil _) hkeys
  rw [decisionPoints_eq, decisionPoints_eq, splitLines_pad, h.rawPoints, distinctPoints]
  rw [List.map_nil] at hdistinct
  rw [hdistinct, sortByLine, sortByLine, distinctPoints, List.map_mergeSort]
  intro p _ q _
  simp [point]

end Answers

end Relabeling

end BranchTally
