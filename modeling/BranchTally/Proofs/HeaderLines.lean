-- SUMMARY: A source reports each kind of control structure once for every line of code in a function that opens one, and on no other lines.
import Mathlib
import BranchTally.Proofs.Influence.Line

/-!
# Lines of control structures

Of each kind a line opens at most one control structure, so the points of one kind lie on different lines:
none of them is a duplicate, and the order of the lines is theirs.
-/

namespace BranchTally

/-- The line opens a control structure of the kind. -/
def Headers.opens (h : Headers) : Kind → Bool
  | .ifBranch => h.ifHeader.isSome
  | .elseIf => h.elseIf.isSome
  | .whileLoop => h.whileHeader.isSome
  | .doWhile => h.doHeader.isSome
  | .switchBranch => h.switchHeader.isSome
  | .caseClause => h.isCase
  | .catchClause => h.catchHeader.isSome
  | kind => h.forHeader.isSome && h.forKind = kind

/-- The lines of the points of a kind, in the order of the points. -/
def linesOf (kind : Kind) (points : List Point) : List Int :=
  (points.filter fun p => p.kind = kind).map Point.line

/-! ## Points of one line -/

section

variable {kind : Kind} {line : Line} {number owner : Int}

@[simp]
theorem linesOf_nil : linesOf kind [] = [] := rfl

theorem linesOf_append (a b : List Point) : linesOf kind (a ++ b) = linesOf kind a ++ linesOf kind b := by
  simp [linesOf]

theorem linesOf_cons (p : Point) (points : List Point) :
    linesOf kind (p :: points) = (if p.kind = kind then [p.line] else []) ++ linesOf kind points := by
  by_cases h : p.kind = kind <;> simp [linesOf, h]

theorem linesOf_eq_nil {points : List Point} (h : ∀ p ∈ points, p.kind.family ≠ kind.family) :
    linesOf kind points = [] := by
  rw [linesOf, filter_kind_eq_nil h, List.map_nil]

theorem linesOf_operatorPoints (hkind : kind.family = .control) (h : Header) :
    linesOf kind (operatorPoints line h number owner) = [] := by
  refine linesOf_eq_nil fun p hp => ?_
  obtain ⟨o, -, rfl⟩ := List.mem_map.1 hp
  simp [o.2.family_kind, hkind]

theorem linesOf_headerPoints (hkind : kind.family = .control) (other : Kind) (h : Header) :
    linesOf kind (headerPoints other line number owner h) = if other = kind then [number] else [] := by
  rw [headerPoints, linesOf_cons, linesOf_operatorPoints hkind, List.append_nil]

theorem linesOf_ifPoints {ctx : Ownership} (hkind : kind.family = .control) (h : Header) :
    linesOf kind (ifPoints ctx line number h owner) = if .ifBranch = kind then [number] else [] := by
  rw [ifPoints, linesOf_cons, linesOf_eq_nil, List.append_nil]
  intro p hp
  obtain ⟨o, -, rfl⟩ := List.mem_map.1 hp
  simp [o.2.family_kind, hkind]

theorem linesOf_getD_map {o : Option Header} {points : Header → List Point} {reports : Bool}
    (h : ∀ header, linesOf kind (points header) = if reports then [number] else []) :
    linesOf kind ((o.map points).getD []) = if o.isSome && reports then [number] else [] := by
  cases o with
  | none => rfl
  | some header => exact h header

/-- A line makes one point for a kind of control structures that it opens. -/
theorem linesOf_controlPoints (ctx : Ownership) (hkind : kind.family = .control) :
    linesOf kind (controlPoints ctx line number (Headers.of line) owner) =
      if (Headers.of line).opens kind then [number] else [] := by
  have hheader (other : Kind) (owner : Int) (o : Option Header) :
      linesOf kind ((o.map (headerPoints other line number owner)).getD []) =
        if o.isSome && other = kind then [number] else [] :=
    linesOf_getD_map fun h => by simp [linesOf_headerPoints hkind]
  have hif := @linesOf_getD_map kind number (Headers.of line).ifHeader
    (fun h => ifPoints ctx line number h owner) (.ifBranch = kind) fun h => by
      simp [linesOf_ifPoints hkind]
  have hfor := @linesOf_getD_map kind number (Headers.of line).forHeader
    (fun h => ⟨number, (Headers.of line).forKind, controlOwner ctx number owner⟩ ::
      if (Headers.of line).forKind = .forLoop then
        operatorPoints line h number (controlOwner ctx number owner)
      else []) ((Headers.of line).forKind = kind) fun h => by
        have hoperators : linesOf kind (if (Headers.of line).forKind = .forLoop then
            operatorPoints line h number (controlOwner ctx number owner) else []) = [] := by
          split <;> simp [linesOf_operatorPoints hkind]
        simp [linesOf_cons, hoperators]
  have hdo := @linesOf_getD_map kind number (Headers.of line).doHeader
    (fun _ => [⟨number, .doWhile, owner⟩]) (.doWhile = kind) fun _ => by simp [linesOf_cons]
  have htail := @linesOf_getD_map kind number (Headers.of line).doTail
    (fun h => operatorPoints line h number owner) false fun h => by
      simp [linesOf_operatorPoints hkind]
  have hcase : linesOf kind (if (Headers.of line).isCase then [⟨number, .caseClause, owner⟩] else []) =
      if (Headers.of line).isCase && .caseClause = kind then [number] else [] := by
    cases (Headers.of line).isCase <;> simp [linesOf_cons]
  simp only [controlPoints, linesOf_append, hif, hheader, hfor, hdo, htail, hcase, Bool.and_false,
    Bool.false_eq_true, if_false, List.append_nil]
  cases kind with
  | ternary | nullish | optionalChain | conj | disj | defaultParameter => simp [Kind.family] at hkind
  | _ => rcases forKind_cases line with h | h | h <;> simp [Headers.opens, h] <;> rfl

/-! ## Lines of a source -/

/-- What stands behind the control structures of a line are points of other families. -/
theorem codePoints_eq_controlPoints_append {m : BoundaryMap} (lines : List Line) {f : Focus}
    (howner : (Ownership.of m).Holds f.number owner) :
    ∃ back, codePoints (Ownership.of m) lines f owner =
        controlPoints (Ownership.of m) f.line f.number (Headers.of f.line) owner ++ back ∧
      ∀ p ∈ back, p.kind.family ≠ .control := by
  simp only [codePoints, List.append_assoc]
  refine ⟨_, rfl, fun p hp => ?_⟩
  simp only [List.mem_append] at hp
  rcases hp with hp | hp | hp | hp
  · exact family_ne_of_mem_ternaryPoints howner hp (by decide) (by decide)
  · exact (madeOn_of_mem_pointsAt rfl howner hp).family_ne (by decide) (by decide)
  · exact (madeOn_of_mem_expressions howner.hasKey hp).family_ne (by decide) (by decide)
  · obtain ⟨count, key, hkey, h⟩ := defaults_eq lines howner
    exact (madeOn_of_mem_defaultPoints hkey (h ▸ hp)).family_ne (by decide) (by decide)

/-- The line in view is code in a function and opens a control structure of the kind. -/
def Ownership.reports (ctx : Ownership) (kind : Kind) (f : Focus) : Bool :=
  ctx.scans f && (Headers.of f.line).opens kind

theorem linesOf_scanLine {m : BoundaryMap} (lines : List Line) (f : Focus)
    (hkind : kind.family = .control) :
    linesOf kind (scanLine (Ownership.of m) lines f) =
      if (Ownership.of m).reports kind f then [f.number] else [] := by
  unfold Ownership.reports
  cases hscans : (Ownership.of m).scans f with
  | false =>
    rw [scanLine_of_not_scans lines hscans]
    rfl
  | true =>
    obtain ⟨owner, hinnermost, heq⟩ := scanLine_of_scans lines hscans
    obtain ⟨back, hsplit, hother⟩ :=
      codePoints_eq_controlPoints_append lines (Ownership.holds_of_innermost? hinnermost)
    rw [heq, hsplit, linesOf_append, linesOf_controlPoints (Ownership.of m) hkind,
      linesOf_eq_nil fun p hp => hkind ▸ hother p hp, List.append_nil, Bool.true_and]

theorem linesOf_rawPoints {m : BoundaryMap} (lines : List Line) (hkind : kind.family = .control) :
    linesOf kind (rawPoints (Ownership.of m) lines) =
      ((foci lines).filter ((Ownership.of m).reports kind)).map Focus.number := by
  rw [rawPoints]
  induction foci lines with
  | nil => rfl
  | cons f fs ih =>
    rw [List.flatMap_cons, linesOf_append, linesOf_scanLine lines f hkind, ih, List.filter_cons]
    split <;> rfl

theorem pairwise_number_fociFrom (number : Int) (before lines : List Line) :
    ((fociFrom number before lines).map Focus.number).Pairwise (· < ·) := by
  induction lines generalizing number before with
  | nil => exact List.Pairwise.nil
  | cons line after ih =>
    refine List.pairwise_cons.2 ⟨fun n hn => ?_, ih (number + 1) (line :: before)⟩
    obtain ⟨f, hf, rfl⟩ := List.mem_map.1 hn
    exact Int.lt_of_lt_of_le (Int.lt_succ number) (le_number_of_mem_fociFrom hf)

/-- Each kind of control structure is reported once for every line of code in a function that opens
one, from the first line to the last, and for no other lines. -/
theorem linesOf_decisionPoints (source : List Char) (m : BoundaryMap)
    (hkind : kind.family = .control) :
    linesOf kind (decisionPoints source m) =
      ((foci (splitLines source)).filter ((Ownership.of m).reports kind)).map Focus.number := by
  have hraw := @linesOf_rawPoints kind m (splitLines source) hkind
  have hnumbers := (pairwise_number_fociFrom 1 [] (splitLines source)).sublist
    ((List.filter_sublist (p := (Ownership.of m).reports kind)).map Focus.number)
  rw [← foci, ← hraw, linesOf, List.pairwise_map] at hnumbers
  -- on different lines no point is a duplicate, and the sort finds them in order
  have hdistinct : ((rawPoints (Ownership.of m) (splitLines source)).filter
      fun p => p.kind = kind).Nodup :=
    hnumbers.imp fun hlt heq => absurd (congrArg Point.line heq) (Int.ne_of_lt hlt)
  have hsorted := hnumbers.imp fun hlt => decide_eq_true (Int.le_of_lt hlt)
  rw [decisionPoints_eq, ← hraw, linesOf, sortByLine, filter_mergeSort line_le_trans line_le_total,
    distinctPoints, filter_distinctFrom _ fun _ _ => Iff.rfl,
    distinctFrom_eq_self (fun _ _ _ => List.not_mem_nil) (hdistinct.filter _),
    List.mergeSort_of_pairwise hsorted, linesOf]

/-! ## One line among others -/

/-- The numbers of the lines that pass a test, where only one of them can. -/
theorem map_number_filter_fociFrom {p : Focus → Bool} {q : Int → Line → Bool}
    (hp : ∀ f, p f = q f.number f.line) {above below : List Line}
    (habove : ∀ line ∈ above, ∀ k, q k line = false) (hbelow : ∀ line ∈ below, ∀ k, q k line = false)
    (line : Line) (number : Int) (before : List Line) :
    ((fociFrom number before (above ++ line :: below)).filter p).map Focus.number =
      if q (number + above.length) line then [number + above.length] else [] := by
  have hnone (lines : List Line) (h : ∀ line ∈ lines, ∀ k, q k line = false) (number : Int)
      (before : List Line) : (fociFrom number before lines).filter p = [] := by
    induction lines generalizing number before with
    | nil => rfl
    | cons line lines ih =>
      rw [fociFrom, List.filter_cons, hp, h line List.mem_cons_self, if_neg Bool.false_ne_true]
      exact ih (fun other hother => h other (List.mem_cons_of_mem line hother)) _ _
  induction above generalizing number before with
  | nil =>
    rw [List.nil_append, fociFrom, List.filter_cons, hp, hnone below hbelow, List.length_nil,
      Int.natCast_zero, Int.add_zero]
    split <;> rfl
  | cons other above ih =>
    rw [List.cons_append, fociFrom, List.filter_cons, hp, habove other List.mem_cons_self,
      if_neg Bool.false_ne_true, ih fun l hl => habove l (List.mem_cons_of_mem other hl),
      List.length_cons, show number + 1 + (above.length : Int) = number + (above.length + 1 : Nat) by
        omega]

/-- Where only one line opens a control structure of the kind, at most that one is reported. -/
theorem linesOf_decisionPoints_of_line {source : List Char} (m : BoundaryMap)
    (hkind : kind.family = .control) {above below : List Line}
    (hlines : splitLines source = above ++ line :: below)
    (habove : ∀ other ∈ above, (Headers.of other).opens kind = false)
    (hbelow : ∀ other ∈ below, (Headers.of other).opens kind = false) :
    linesOf kind (decisionPoints source m) =
      if (!isQuiet line && ((Ownership.of m).innermost? (1 + above.length)).isSome) &&
        (Headers.of line).opens kind then [1 + (above.length : Int)] else [] := by
  let opensAt (number : Int) (other : Line) : Bool :=
    (!isQuiet other && ((Ownership.of m).innermost? number).isSome) && (Headers.of other).opens kind
  have hsilent (other : Line) (h : (Headers.of other).opens kind = false) (number : Int) :
      opensAt number other = false := by
    simp [opensAt, h]
  rw [linesOf_decisionPoints source m hkind, hlines]
  exact @map_number_filter_fociFrom _ opensAt (fun _ => rfl) above below
    (fun other hother => hsilent other (habove other hother))
    (fun other hother => hsilent other (hbelow other hother)) line 1 []

end

end BranchTally
