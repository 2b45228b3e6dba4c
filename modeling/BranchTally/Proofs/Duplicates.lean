-- SUMMARY: Of equal points the first is kept and of repeatable kinds every one; removing duplicates twice is removing them once, and it commutes with the sort by line.
import BranchTally.Proofs.Influence.Line

/-!
# Duplicates

A walk over the points carries those of unrepeatable kinds that it has kept. What it does with a point is
decided by the points like it, so the walk does not mix kinds or lines.
-/

namespace BranchTally

/-! ## The walk -/

theorem distinctFrom_sublist (seen points : List Point) : (distinctFrom seen points).Sublist points := by
  induction points generalizing seen with
  | nil => exact List.Sublist.slnil
  | cons p rest ih =>
    rw [distinctFrom]
    split
    · exact (ih seen).cons_cons p
    · split
      · exact (ih seen).cons p
      · exact (ih (p :: seen)).cons_cons p

/-- What is kept is kept again. -/
theorem distinctFrom_distinctFrom (seen points : List Point) :
    distinctFrom seen (distinctFrom seen points) = distinctFrom seen points := by
  induction points generalizing seen with
  | nil => rfl
  | cons p rest ih =>
    cases hkind : p.kind.repeatable with
    | true => simp only [distinctFrom, hkind, if_true, ih]
    | false =>
      cases hseen : seen.contains p with
      | true => simp only [distinctFrom, hkind, hseen, if_true, Bool.false_eq_true, if_false, ih]
      | false => simp only [distinctFrom, hkind, hseen, Bool.false_eq_true, if_false, ih]

theorem not_mem_distinctFrom {seen : List Point} {p : Point} (hkind : p.kind.repeatable = false)
    (hp : p ∈ seen) (points : List Point) : p ∉ distinctFrom seen points := by
  induction points generalizing seen with
  | nil => exact List.not_mem_nil
  | cons x rest ih =>
    rw [distinctFrom]
    split
    · next hrepeatable =>
      rw [List.mem_cons, not_or]
      exact ⟨fun heq => by simp [← heq, hkind] at hrepeatable, ih hp⟩
    · split
      · exact ih hp
      · next hnew =>
        rw [List.mem_cons, not_or]
        exact ⟨fun heq => hnew (List.contains_iff_mem.2 (heq ▸ hp)), ih (List.mem_cons_of_mem x hp)⟩

/-- Behind some points the walk carries nothing but what it carried before and some of them. -/
theorem exists_distinctFrom_append (seen front : List Point) :
    ∃ seen', (∀ p ∈ seen', p ∈ seen ∨ p ∈ front) ∧
      ∀ back, distinctFrom seen (front ++ back) = distinctFrom seen front ++ distinctFrom seen' back := by
  induction front generalizing seen with
  | nil => exact ⟨seen, fun _ hp => Or.inl hp, fun _ => rfl⟩
  | cons x front ih =>
    have hlater {p : Point} (hp : p ∈ seen ∨ p ∈ front) : p ∈ seen ∨ p ∈ x :: front :=
      hp.imp_right (List.mem_cons_of_mem x)
    cases hkind : x.kind.repeatable with
    | true =>
      obtain ⟨seen', hseen', happend⟩ := ih seen
      refine ⟨seen', fun p hp => hlater (hseen' p hp), fun back => ?_⟩
      simp only [List.cons_append, distinctFrom, hkind, if_true, happend]
    | false =>
      cases hseen : seen.contains x with
      | true =>
        obtain ⟨seen', hseen', happend⟩ := ih seen
        refine ⟨seen', fun p hp => hlater (hseen' p hp), fun back => ?_⟩
        simp only [List.cons_append, distinctFrom, hkind, hseen, Bool.false_eq_true, if_true, if_false,
          happend]
      | false =>
        obtain ⟨seen', hseen', happend⟩ := ih (x :: seen)
        refine ⟨seen', fun p hp => ?_, fun back => ?_⟩
        · rcases hseen' p hp with hmem | hmem
          · rcases List.mem_cons.1 hmem with rfl | hmem
            · exact Or.inr List.mem_cons_self
            · exact Or.inl hmem
          · exact Or.inr (List.mem_cons_of_mem x hmem)
        · simp only [List.cons_append, distinctFrom, hkind, hseen, Bool.false_eq_true, if_false, happend]

/-! ## Points without duplicates -/

section

variable (points : List Point)

theorem filter_distinctPoints (q : Point → Bool) :
    (distinctPoints points).filter q = distinctPoints (points.filter q) :=
  filter_distinctFrom q (fun _ _ => Iff.rfl) points

/-- Points of repeatable kinds are all kept, in their order. -/
theorem filter_distinctPoints_of_repeatable {q : Point → Bool}
    (hq : ∀ p, q p = true → p.kind.repeatable = true) :
    (distinctPoints points).filter q = points.filter q := by
  have hnone : ((points.filter q).filter fun p => !p.kind.repeatable) = [] := by
    rw [List.filter_eq_nil_iff]
    intro p hp
    simp [hq p (List.mem_filter.1 hp).2]
  rw [filter_distinctPoints, distinctPoints, distinctFrom_eq_self (fun _ _ _ => List.not_mem_nil)]
  rw [hnone]
  exact List.nodup_nil

variable {points}

/-- Of the points equal to one of an unrepeatable kind the first is kept and no other. -/
theorem exists_first_of_mem {p : Point} (hp : p ∈ points) (hkind : p.kind.repeatable = false) :
    ∃ front back kept, points = front ++ p :: back ∧ p ∉ front ∧
      distinctPoints points = distinctPoints front ++ p :: kept ∧ kept.Sublist back ∧ p ∉ kept := by
  obtain ⟨front, back, rfl, hfront⟩ := List.eq_append_cons_of_mem hp
  obtain ⟨seen, hseen, happend⟩ := exists_distinctFrom_append [] front
  have hnew : seen.contains p = false := by
    rw [Bool.eq_false_iff]
    intro hcontains
    rcases hseen p (List.contains_iff_mem.1 hcontains) with hmem | hmem
    · exact List.not_mem_nil hmem
    · exact hfront hmem
  refine ⟨front, back, distinctFrom (p :: seen) back, rfl, hfront, ?_, distinctFrom_sublist _ _,
    not_mem_distinctFrom hkind List.mem_cons_self back⟩
  rw [distinctPoints, happend, distinctFrom, hkind, hnew]
  rfl

variable (points)

theorem pairwise_sortByLine : (sortByLine points).Pairwise fun p q => p.line ≤ q.line :=
  (List.pairwise_mergeSort line_le_trans line_le_total points).imp fun h => of_decide_eq_true h

/-- Duplicates may be removed before the sort or after it: neither mixes lines. -/
theorem distinctPoints_sortByLine :
    distinctPoints (sortByLine points) = sortByLine (distinctPoints points) := by
  refine eq_of_pairwise_of_filter_eq ((pairwise_sortByLine points).sublist (distinctFrom_sublist _ _))
    (pairwise_sortByLine _) fun number => ?_
  rw [filter_distinctPoints, filter_sortByLine, filter_sortByLine, filter_distinctPoints]

end

/-- Removing duplicates leaves some of the points in their order: all of the repeatable kinds, and of
equal points of another kind the first. To do it again changes nothing, and to sort by line may come before it
or after it, so the points of a source have no duplicates left. -/
theorem distinctPoints_keeps_first (points : List Point) :
    let repeatable := [Kind.conj, .disj, .ternary, .defaultParameter]
    (distinctPoints points).Sublist points ∧
      (∀ kind ∈ repeatable, ((distinctPoints points).filter fun p => p.kind = kind) =
        points.filter fun p => p.kind = kind) ∧
      (∀ p ∈ points, p.kind ∉ repeatable → ∃ front back kept, points = front ++ p :: back ∧ p ∉ front ∧
        distinctPoints points = distinctPoints front ++ p :: kept ∧ kept.Sublist back ∧ p ∉ kept) ∧
      distinctPoints (distinctPoints points) = distinctPoints points ∧
      distinctPoints (sortByLine points) = sortByLine (distinctPoints points) ∧
      ∀ source m, distinctPoints (decisionPoints source m) = decisionPoints source m := by
  intro repeatable
  have hrepeatable (kind : Kind) : kind ∈ repeatable ↔ kind.repeatable = true := by
    cases kind <;> decide
  refine ⟨distinctFrom_sublist _ _, fun kind hkind => ?_, fun p hp hkind => ?_,
    distinctFrom_distinctFrom _ _, distinctPoints_sortByLine points, fun source m => ?_⟩
  · refine filter_distinctPoints_of_repeatable points fun p hp => ?_
    rw [of_decide_eq_true hp]
    exact (hrepeatable kind).1 hkind
  · refine exists_first_of_mem hp ?_
    rwa [hrepeatable, Bool.not_eq_true] at hkind
  · rw [decisionPoints_eq, distinctPoints_sortByLine, distinctPoints, distinctPoints,
      distinctFrom_distinctFrom]

/-- A loop that is reported on two lines, on one of them twice, with two operators. -/
theorem distinctPoints_keeps_first_loop :
    let p : Point := ⟨3, .whileLoop, 1⟩
    let q : Point := ⟨3, .conj, 1⟩
    let points := [q, ⟨5, .whileLoop, 1⟩, p, q, p]
    p ∈ points ∧ p.kind ∉ [Kind.conj, .disj, .ternary, .defaultParameter] ∧
      distinctPoints points = [q, ⟨5, .whileLoop, 1⟩, p, q] ∧
      ∃ front back kept, points = front ++ p :: back ∧ p ∉ front ∧
        distinctPoints points = distinctPoints front ++ p :: kept ∧ kept.Sublist back ∧ p ∉ kept := by
  intro p q points
  have hp : p ∈ points := by decide
  have hkind : p.kind ∉ [Kind.conj, .disj, .ternary, .defaultParameter] := by decide
  obtain ⟨-, -, hfirst, -⟩ := distinctPoints_keeps_first points
  exact ⟨hp, hkind, by decide, hfirst p hp hkind⟩

end BranchTally
