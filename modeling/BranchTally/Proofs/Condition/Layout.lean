-- SUMMARY: A condition makes the same points however it is printed, save that a name at the start of a line may pass for a `case`.
import BranchTally.Proofs.Condition.Points

/-!
# Layout independence

The points of a printed condition are those of its keyword and of its operators, on the lines where
these are printed. The one thing that depends on the layout is a name such as `case$`: where a line
below the first begins with it, the name is counted as a `case` clause.
-/

namespace BranchTally

open Text

namespace PrintedCondition

/-- The `case` clauses that lines pass for, the first line having number `number`. -/
def casePointsFrom (number : Int) : Layout ConditionToken → List Point
  | [] => []
  | line :: rest =>
    (if opensLikeCase line then [⟨number, .caseClause, 1⟩] else []) ++ casePointsFrom (number + 1) rest

theorem bounds_of_mem_casePointsFrom {number : Int} {layout : Layout ConditionToken} {p : Point}
    (h : p ∈ casePointsFrom number layout) : number ≤ p.line := by
  induction layout generalizing number with
  | nil => simp [casePointsFrom] at h
  | cons line rest ih =>
    rcases List.mem_append.1 h with h | h
    · split at h
      · obtain rfl := List.mem_singleton.1 h
        exact Int.le_refl _
      · simp at h
    · have := ih h
      omega

theorem nodup_casePointsFrom (number : Int) (layout : Layout ConditionToken) :
    (casePointsFrom number layout).Nodup := by
  induction layout generalizing number with
  | nil => exact List.nodup_nil
  | cons line rest ih =>
    rw [casePointsFrom]
    split
    · refine List.nodup_cons.2 ⟨fun h => ?_, ih (number + 1)⟩
      have := bounds_of_mem_casePointsFrom h
      dsimp only at this
      omega
    · exact ih (number + 1)

theorem casePointsFrom_eq_nil_iff {number : Int} {layout : Layout ConditionToken} :
    casePointsFrom number layout = [] ↔ ∀ line ∈ layout, opensLikeCase line = false := by
  induction layout generalizing number with
  | nil => simp [casePointsFrom]
  | cons line rest ih =>
    rw [casePointsFrom, List.append_eq_nil_iff, ih, List.forall_mem_cons]
    cases opensLikeCase line <;> simp

theorem repeatable_of_mem_operatorPointsFrom {number : Int} {layout : Layout ConditionToken}
    {p : Point} (h : p ∈ operatorPointsFrom number layout) : p.kind.repeatable = true := by
  induction layout generalizing number with
  | nil => simp [operatorPointsFrom] at h
  | cons line rest ih =>
    rcases List.mem_append.1 h with h | h
    · obtain ⟨op, -, hp⟩ := List.mem_flatMap.1 h
      obtain rfl := List.eq_of_mem_replicate hp
      cases op <;> rfl
    · exact ih h

/-! ## Points of all lines -/

theorem flatMap_scanLine {boundary : Boundary} {lines before : List Line} {number : Int}
    {layout : Layout ConditionToken} (hmeet : ∀ line ∈ layout, Meeting line.tokens)
    (hne : ∀ line ∈ layout, line.pieces ≠ []) (hfrom : boundary.start ≤ number)
    (hto : number + layout.length ≤ boundary.stop + 1) :
    ((fociFrom number before (layout.map PrintedLine.text)).flatMap
      (scanLine (Ownership.of (.single 1 boundary)) lines)).Perm
      (operatorPointsFrom number layout ++ casePointsFrom number layout) := by
  induction layout generalizing number before with
  | nil => exact List.Perm.refl _
  | cons line rest ih =>
    rw [List.length_cons] at hto
    have hinside : boundary.contains number = true := by
      simp only [Boundary.contains, Bool.and_eq_true, decide_eq_true_eq]
      omega
    have hbelow : ∀ l ∈ rest.map PrintedLine.text, '?' ∉ l := by
      intro l hl
      obtain ⟨other, -, rfl⟩ := List.mem_map.1 hl
      exact (isPlain_conditionText other).not_mem (by decide)
    have hhere := @scanLine_text boundary lines
      ⟨number, before, line.text, rest.map PrintedLine.text⟩ line rfl (hmeet line List.mem_cons_self)
      (hne line List.mem_cons_self) hbelow hinside
    have hrest := @ih (line.text :: before) (number + 1)
      (fun l hl => hmeet l (List.mem_cons_of_mem _ hl))
      (fun l hl => hne l (List.mem_cons_of_mem _ hl)) (by omega) (by omega)
    rw [List.map_cons, fociFrom, List.flatMap_cons, hhere, operatorPointsFrom, casePointsFrom]
    refine (hrest.append_left _).trans ?_
    rw [List.perm_iff_count]
    intro p
    simp only [List.count_append]
    omega

theorem rawPoints_perm (c : PrintedCondition) :
    (rawPoints (Ownership.of (.single 1 c.boundary)) c.lines).Perm
      (c.points ++ casePointsFrom 2 c.rest) := by
  have hbelow : ∀ l ∈ c.rest.map PrintedLine.text, '?' ∉ l := by
    intro l hl
    obtain ⟨line, -, rfl⟩ := List.mem_map.1 hl
    exact (isPlain_conditionText line).not_mem (by decide)
  have hinside : c.boundary.contains 1 = true := by
    have hle : (1 : Int) ≤ 1 + c.rest.length := by omega
    simp only [Boundary.contains, Bool.and_eq_true, decide_eq_true_eq]
    exact ⟨Int.le_refl 1, hle⟩
  have hfirst := @scanLine_header c.boundary c.lines
    ⟨1, [], c.firstLine, c.rest.map PrintedLine.text⟩ c.first c.header rfl
    (c.meeting_tokens List.mem_cons_self) c.staysOpen_first hbelow hinside
  have hrest := @flatMap_scanLine c.boundary c.lines [c.firstLine] 2 c.rest
    (fun line hline => c.meeting_tokens (List.mem_cons_of_mem _ hline)) c.not_blank
    (by simp [boundary]) (by simp only [boundary]; omega)
  have hall := hfirst.append hrest
  rwa [List.cons_append, ← List.append_assoc] at hall

/-- The points of a printed condition, and what a name at the start of a line adds to them. -/
theorem decisionPoints_perm_append (c : PrintedCondition) :
    (decisionPoints c.source (.single 1 c.boundary)).Perm
      (c.points ++ casePointsFrom 2 c.rest) := by
  have hlines : splitLines c.source = c.lines := by
    refine splitLines_joinLines (List.cons_ne_nil _ _) fun line hline d hd => ?_
    rcases List.mem_cons.1 hline with rfl | hline
    · rcases List.mem_append.1 hd with hd | hd
      · exact c.header.sameLine d hd
      · exact c.first.sameLine d hd
    · obtain ⟨printed, -, rfl⟩ := List.mem_map.1 hline
      exact printed.sameLine d hd
  have hraw := c.rawPoints_perm
  -- only the keyword and the `case` clauses could be taken for duplicates
  have hnodup : ((rawPoints (Ownership.of (.single 1 c.boundary)) c.lines).filter
      fun p => !p.kind.repeatable).Nodup := by
    have hoperators : (operatorPointsFrom 1 (c.first :: c.rest)).filter
        (fun p => !p.kind.repeatable) = [] := by
      rw [List.filter_eq_nil_iff]
      intro p hp
      simp [repeatable_of_mem_operatorPointsFrom hp]
    have hsublist : ((c.points ++ casePointsFrom 2 c.rest).filter
        fun p => !p.kind.repeatable).Sublist (⟨1, c.header.kind, 1⟩ :: casePointsFrom 2 c.rest) := by
      rw [List.filter_append, points, ← List.singleton_append, List.filter_append, hoperators,
        List.append_nil]
      exact List.filter_sublist.append List.filter_sublist
    refine ((hraw.filter _).nodup_iff).2 (List.Nodup.sublist hsublist ?_)
    refine List.nodup_cons.2 ⟨fun h => ?_, nodup_casePointsFrom 2 c.rest⟩
    have := bounds_of_mem_casePointsFrom h
    dsimp only at this
    omega
  have hdistinct : distinctPoints (rawPoints (Ownership.of (.single 1 c.boundary)) c.lines) =
      rawPoints (Ownership.of (.single 1 c.boundary)) c.lines :=
    distinctFrom_eq_self (fun _ _ _ => List.not_mem_nil) hnodup
  have hpoints := decisionPoints_perm c.source (.single 1 c.boundary)
  rw [hlines, hdistinct] at hpoints
  exact hpoints.trans hraw

/-- A condition makes the point of its keyword and those of its operators however it is printed, and
no others, exactly where no line below the first begins with a name that reads as a `case`. -/
theorem decisionPoints_perm_points_iff (c : PrintedCondition) :
    (decisionPoints c.source (.single 1 c.boundary)).Perm c.points ↔
      ∀ line ∈ c.rest, opensLikeCase line = false := by
  have hall := c.decisionPoints_perm_append
  rw [← @casePointsFrom_eq_nil_iff 2]
  constructor
  · intro h
    have hlength := (h.symm.trans hall).length_eq
    rw [List.length_append] at hlength
    exact List.eq_nil_of_length_eq_zero (by omega)
  · intro h
    rwa [h, List.append_nil] at hall

/-! ## A name that reads as a keyword -/

/-- The condition `case$ && b`, on the line below its `if`. -/
def dollarCase : PrintedCondition :=
  let name : FreeIdentifier :=
    ⟨⟨['c', 'a', 's', 'e', '$'], by decide, forall_mem_of_all (by decide)⟩, by decide⟩
  let other : FreeIdentifier := ⟨⟨['b'], by decide, forall_mem_of_all (by decide)⟩, by decide⟩
  { header := .ifHead
    condition := .binary .conj (.word name) (.word other)
    first := ⟨[], .empty⟩
    rest := [⟨[⟨.empty, .word name⟩, ⟨.space, .logical .conj⟩, ⟨.space, .word other⟩,
      ⟨.empty, .final⟩], .empty⟩]
    tokens_eq := rfl
    not_blank := by simp }

/-- The name `case$` at the start of a line is counted as a `case` clause. -/
theorem decisionPoints_not_perm_points_dollarCase :
    dollarCase.source = "if (\ncase$ && b) \x7b".toList ∧
      ¬(decisionPoints dollarCase.source (.single 1 dollarCase.boundary)).Perm dollarCase.points := by
  refine ⟨by decide, fun h => ?_⟩
  have hlength := (h.symm.trans dollarCase.decisionPoints_perm_append).length_eq
  revert hlength
  decide

end PrintedCondition

end BranchTally
