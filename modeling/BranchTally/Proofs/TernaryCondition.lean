-- SUMMARY: The operators of a ternary's condition are reported from the line below exactly where this line is scanned and has a ternary, and they alone can lie outside all functions.
import BranchTally.Proofs.OperatorCount

/-!
# Conditions above their ternary

A line that looks like the condition of a ternary on the next line is left to that line. The next line
takes the operators along only if it is code inside a function and one of its question marks has a
colon; otherwise they are lost. It takes them along wherever the condition stands, so these are the
points that may lie outside all functions.
-/

namespace BranchTally

/-! ## Neighbouring lines -/

theorem Focus.down?_of_up? {f g : Focus} (h : g.up? = some f) : f.down? = some g := by
  unfold up? at h
  split at h
  · simp at h
  · next line before hbefore =>
    cases h
    simp [down?, ← hbefore]

theorem mem_fociFrom_of_up? {number : Int} {before lines : List Line} {f g : Focus}
    (hg : g ∈ fociFrom number before lines) (hup : g.up? = some f) :
    f ∈ fociFrom number before lines ∨
      ∃ line after, lines = line :: after ∧ g = ⟨number, before, line, after⟩ := by
  induction lines generalizing number before with
  | nil => simp [fociFrom] at hg
  | cons line after ih =>
    rcases List.mem_cons.1 hg with rfl | hg
    · exact Or.inr ⟨line, after, rfl, rfl⟩
    · rcases ih hg with hf | ⟨next, rest, rfl, rfl⟩
      · exact Or.inl (List.mem_cons_of_mem _ hf)
      · -- the line above the first of the rest is the one in front
        have hfirst : f = ⟨number, before, line, next :: rest⟩ := by
          simpa [Focus.up?] using hup.symm
        exact Or.inl (hfirst ▸ List.mem_cons_self)

/-- Above a line of a text stands a line of the text. -/
theorem mem_foci_of_up? {lines : List Line} {f g : Focus} (hg : g ∈ foci lines)
    (hup : g.up? = some f) : f ∈ foci lines := by
  rcases mem_fociFrom_of_up? hg hup with hf | ⟨line, after, -, rfl⟩
  · exact hf
  · simp [Focus.up?] at hup

/-- A condition has its ternary on the line below. -/
theorem exists_down?_of_isTernaryCondition {f : Focus} (h : isTernaryCondition f = true) :
    ∃ g, f.down? = some g := by
  unfold isTernaryCondition at h
  split at h
  · next next second rest hafter => exact Option.isSome_iff_exists.1 (by simp [Focus.down?, hafter])
  · simp at h

theorem exists_findTokens_of_isTernaryCondition {f : Focus} (h : isTernaryCondition f = true) :
    ∃ op : Logical, findTokens f.line op.token ≠ [] := by
  unfold isTernaryCondition at h
  split at h
  · simp only [hasLiveLogical, Bool.and_eq_true, List.any_eq_true, Bool.not_eq_true',
      List.isEmpty_eq_false_iff] at h
    obtain ⟨⟨⟨op, -, hop⟩, -⟩, -⟩ := h.1
    exact ⟨op, hop⟩
  · simp at h

theorem isHandedDown_iff {ctx : Ownership} {f g : Focus} (hg : f.down? = some g) :
    isHandedDown ctx f = true ↔
      isTernaryCondition f = true ∧ ctx.scans g = true ∧ ternaryPositions g ≠ [] := by
  simp [isHandedDown, hg]

/-! ## Points outside all functions -/

/-- A condition that is handed down has a point for some operator. -/
theorem exists_mem_decisionPoints_of_isHandedDown {source : List Char} {m : BoundaryMap} {f : Focus}
    (hf : f ∈ foci (splitLines source)) (h : isHandedDown (Ownership.of m) f = true) :
    ∃ p ∈ decisionPoints source m, p.line = f.number := by
  have hcondition : isTernaryCondition f = true := by
    rw [isHandedDown, Bool.and_eq_true] at h
    exact h.1
  obtain ⟨op, hop⟩ := exists_findTokens_of_isTernaryCondition hcondition
  have hpos : 0 < operatorCount op f.number (decisionPoints source m) := by
    obtain ⟨i, hi⟩ := List.exists_mem_of_ne_nil _ hop
    rw [operatorCount_eq_sum source m hf op, Nat.pos_iff_ne_zero, Ne,
      List.sum_eq_zero_iff_forall_eq_nat]
    intro hzero
    have htimes := hzero _ (List.mem_map_of_mem hi)
    simp [timesCounted, h] at htimes
  obtain ⟨p, hp, hline⟩ := List.countP_pos_iff.1 hpos
  simp only [Bool.and_eq_true, decide_eq_true_eq] at hline
  exact ⟨p, hp, hline.1⟩

/-- A point lies on a line inside a function, or on a condition that is handed down. -/
theorem inside_or_isHandedDown_of_mem_decisionPoints {source : List Char} {m : BoundaryMap}
    {p : Point} (hp : p ∈ decisionPoints source m) :
    (∃ g ∈ m.owners, g.boundary.contains p.line = true) ∨
      ∃ f ∈ foci (splitLines source), isHandedDown (Ownership.of m) f = true ∧ p.line = f.number := by
  have hraw := mem_of_mem_distinctFrom ((decisionPoints_perm source m).mem_iff.1 hp)
  obtain ⟨g, hg, hp⟩ := List.mem_flatMap.1 hraw
  obtain ⟨hscans, ⟨family, hhere⟩ | ⟨hternary, above, habove, hcondition, hline⟩⟩ := mem_scanLine hp
  · obtain ⟨-, owner, howner, hholds⟩ := (scans_iff m g).1 hscans
    exact Or.inl ⟨owner, howner, hhere.liesOn.1 ▸ hholds⟩
  · refine Or.inr ⟨above, mem_foci_of_up? hg habove, ?_, hline.liesOn.1⟩
    exact (isHandedDown_iff (Focus.down?_of_up? habove)).2 ⟨hcondition, hscans, hternary⟩

/-- All points of a source lie inside its functions exactly if every condition that is handed down
does. -/
theorem forall_mem_decisionPoints_inside_iff (source : List Char) (m : BoundaryMap) :
    (∀ p ∈ decisionPoints source m, ∃ g ∈ m.owners, g.boundary.contains p.line = true) ↔
      ∀ f ∈ foci (splitLines source), isHandedDown (Ownership.of m) f = true →
        ∃ g ∈ m.owners, g.boundary.contains f.number = true := by
  constructor
  · intro h f hf hdown
    obtain ⟨p, hp, hline⟩ := exists_mem_decisionPoints_of_isHandedDown hf hdown
    exact hline ▸ h p hp
  · intro h p hp
    rcases inside_or_isHandedDown_of_mem_decisionPoints hp with hinside | ⟨f, hf, hdown, hline⟩
    · exact hinside
    · exact hline ▸ h f hf hdown

/-- A condition above the first line of a function has points there, where no function is. -/
theorem exists_mem_decisionPoints_outside_condition_above :
    let source := "a &&\n  b ? x\n  : y;".toList
    let m := BoundaryMap.single 2 ⟨2, 3, by decide⟩
    ∃ p ∈ decisionPoints source m, ∀ g ∈ m.owners, g.boundary.contains p.line = false := by
  intro source m
  let here : Focus := ⟨1, [], "a &&".toList, ["  b ? x".toList, "  : y;".toList]⟩
  let below : Focus := ⟨2, ["a &&".toList], "  b ? x".toList, ["  : y;".toList]⟩
  have hlines : splitLines source = ["a &&".toList, "  b ? x".toList, "  : y;".toList] := by decide
  have hf : here ∈ foci (splitLines source) := hlines ▸ List.mem_cons_self
  have hscans : (Ownership.of m).scans below = true := (scans_iff m below).2 (by decide)
  have hdown : here.down? = some below := rfl
  obtain ⟨p, hp, hline⟩ := exists_mem_decisionPoints_of_isHandedDown hf
    ((isHandedDown_iff hdown).2 ⟨by decide, hscans, by decide⟩)
  exact ⟨p, hp, hline ▸ by decide⟩

/-! ## Conditions that are lost -/

/-- A line that looks like a condition reports none of its operators itself; the line below reports
all of them, if it is code inside a function and has a ternary, and none otherwise. -/
theorem operatorCount_of_isTernaryCondition {source : List Char} {m : BoundaryMap} {f g : Focus}
    (hf : f ∈ foci (splitLines source)) (hcontrol : (Headers.of f.line).isControl = false)
    (hcondition : isTernaryCondition f = true) (hg : f.down? = some g) (op : Logical) :
    operatorCount op f.number (scanLine (Ownership.of m) (splitLines source) g) =
        operatorCount op f.number (decisionPoints source m) ∧
      operatorCount op f.number (decisionPoints source m) =
        if isHandedDown (Ownership.of m) f then (findTokens f.line op.token).length else 0 := by
  have htimes : timesCounted (Ownership.of m) f =
      fun _ => if isHandedDown (Ownership.of m) f then 1 else 0 := by
    funext i
    simp [timesCounted, timesCountedHere, hcontrol, hcondition]
  have htotal : operatorCount op f.number (decisionPoints source m) =
      if isHandedDown (Ownership.of m) f then (findTokens f.line op.token).length else 0 := by
    rw [operatorCount_eq_sum source m hf op, htimes, List.map_const', List.sum_replicate_nat]
    split <;> simp
  refine ⟨?_, htotal⟩
  rw [htotal, operatorCount_scanLine_below _ hg]
  simp [isHandedDown, hg]

/-- The operators of a line that looks like the condition of a ternary are all reported, by the line
below, exactly if that line is code inside a function and has a ternary. -/
theorem operatorCount_of_ternary_condition_iff {source : List Char} {m : BoundaryMap} {f : Focus}
    (hf : f ∈ foci (splitLines source)) (hcontrol : (Headers.of f.line).isControl = false)
    (hcondition : isTernaryCondition f = true) :
    ∃ g, f.down? = some g ∧
      ((∀ op : Logical,
          operatorCount op f.number (decisionPoints source m) =
              (findTokens f.line op.token).length ∧
            operatorCount op f.number (scanLine (Ownership.of m) (splitLines source) g) =
              (findTokens f.line op.token).length) ↔
        isQuiet g.line = false ∧ (∃ owner ∈ m.owners, owner.boundary.contains g.number = true) ∧
          ternaryPositions g ≠ []) := by
  obtain ⟨g, hg⟩ := exists_down?_of_isTernaryCondition hcondition
  refine ⟨g, hg, ?_⟩
  have hcounts := operatorCount_of_isTernaryCondition (m := m) hf hcontrol hcondition hg
  rw [← and_assoc, ← scans_iff]
  constructor
  · intro hall
    obtain ⟨op, hop⟩ := exists_findTokens_of_isTernaryCondition hcondition
    have hsome : isHandedDown (Ownership.of m) f = true := by
      by_contra hnot
      have hzero := (hcounts op).2
      rw [if_neg hnot, (hall op).1, List.length_eq_zero_iff] at hzero
      exact hop hzero
    exact ((isHandedDown_iff hg).1 hsome).2
  · intro hscanned op
    have hsome := (isHandedDown_iff hg).2 ⟨hcondition, hscanned⟩
    obtain ⟨hbelow, htotal⟩ := hcounts op
    rw [if_pos hsome] at htotal
    exact ⟨htotal, hbelow.trans htotal⟩

theorem operatorCount_of_ternary_condition_iff_chained :
    let source := "const v = (a || b) &&\n  c?.d ? x\n  : y;".toList
    let m := BoundaryMap.single 1 ⟨1, 3, by decide⟩
    let f : Focus := ⟨1, [], "const v = (a || b) &&".toList,
      ["  c?.d ? x".toList, "  : y;".toList]⟩
    f ∈ foci (splitLines source) ∧ (Headers.of f.line).isControl = false ∧
      isTernaryCondition f = true ∧
      ∀ op : Logical, operatorCount op f.number (decisionPoints source m) =
        (findTokens f.line op.token).length := by
  intro source m f
  have hlines : splitLines source =
      ["const v = (a || b) &&".toList, "  c?.d ? x".toList, "  : y;".toList] := by decide
  have hf : f ∈ foci (splitLines source) := hlines ▸ List.mem_cons_self
  have hcontrol : (Headers.of f.line).isControl = false := by decide
  have hcondition : isTernaryCondition f = true := by decide
  obtain ⟨g, hg, hiff⟩ := operatorCount_of_ternary_condition_iff (m := m) hf hcontrol hcondition
  obtain rfl : ⟨2, ["const v = (a || b) &&".toList], "  c?.d ? x".toList, ["  : y;".toList]⟩ = g :=
    Option.some.inj hg
  have hall := hiff.2 ⟨by decide, by decide, by decide⟩
  exact ⟨hf, hcontrol, hcondition, fun op => (hall op).1⟩

/-- The `&&` in the first branch of a ternary is lost when the branch goes on with an optional chain
and the colon opens the line below. -/
theorem operatorCount_eq_zero_of_chain_below :
    let source := "v = x ?\n  a &&\n  b?.c\n  : y;".toList
    let m := BoundaryMap.single 1 ⟨1, 4, by decide⟩
    let f : Focus := ⟨2, ["v = x ?".toList], "  a &&".toList, ["  b?.c".toList, "  : y;".toList]⟩
    f ∈ foci (splitLines source) ∧ (∃ g ∈ m.owners, g.boundary.contains f.number = true) ∧
      isQuiet f.line = false ∧ (Headers.of f.line).isControl = false ∧
      isTernaryCondition f = true ∧ (findTokens f.line Logical.conj.token).length = 1 ∧
      operatorCount .conj f.number (decisionPoints source m) = 0 := by
  intro source m f
  have hlines : splitLines source =
      ["v = x ?".toList, "  a &&".toList, "  b?.c".toList, "  : y;".toList] := by decide
  have hf : f ∈ foci (splitLines source) := hlines ▸ List.mem_cons_of_mem _ List.mem_cons_self
  have hcontrol : (Headers.of f.line).isControl = false := by decide
  have hcondition : isTernaryCondition f = true := by decide
  have hdown : f.down? = some ⟨3, ["  a &&".toList, "v = x ?".toList], "  b?.c".toList,
      ["  : y;".toList]⟩ := rfl
  have hnone : ¬isHandedDown (Ownership.of m) f = true := by
    rw [isHandedDown_iff hdown]
    exact fun h => h.2.2 (by decide)
  refine ⟨hf, by decide, by decide, hcontrol, hcondition, by decide, ?_⟩
  rw [(operatorCount_of_isTernaryCondition hf hcontrol hcondition hdown .conj).2, if_neg hnone]

end BranchTally
