-- SUMMARY: The decision points of a source are the distinct points of its lines, none of them dropped for its owner, and the points on one line come from that line and the one below.
import BranchTally.Proofs.Points

/-!
# Scanning a source

The points of a source come from its lines one after the other. No point is lost for want of an
owner, repeatable points are all kept, and what lies on a line was reported from this line or from
the one below it.
-/

namespace BranchTally

/-! ## Lines in view -/

/-- The line below as the line in view. -/
def Focus.down? (f : Focus) : Option Focus :=
  match f.after with
  | [] => none
  | line :: after => some ⟨f.number + 1, f.line :: f.before, line, after⟩

theorem Focus.number_of_down? {f g : Focus} (h : f.down? = some g) : g.number = f.number + 1 := by
  unfold down? at h
  split at h
  · simp at h
  · cases h
    rfl

theorem Focus.up?_of_down? {f g : Focus} (h : f.down? = some g) : g.up? = some f := by
  unfold down? at h
  split at h
  · simp at h
  · next line after hafter =>
    cases h
    simp [up?, ← hafter]

theorem le_number_of_mem_fociFrom {number : Int} {before lines : List Line} {f : Focus}
    (hf : f ∈ fociFrom number before lines) : number ≤ f.number := by
  induction lines generalizing number before with
  | nil => simp [fociFrom] at hf
  | cons line after ih =>
    rcases List.mem_cons.1 hf with rfl | hf
    · exact Int.le_refl _
    · have := ih hf
      omega

/-- Around a line in view lie the ones with smaller numbers, the line below, and the ones with
larger numbers still. -/
theorem fociFrom_split {number : Int} {before lines : List Line} {f : Focus}
    (hf : f ∈ fociFrom number before lines) :
    ∃ above below, fociFrom number before lines = above ++ f :: (f.down?.toList ++ below) ∧
      (∀ g ∈ above, g.number < f.number) ∧ ∀ g ∈ below, f.number + 1 < g.number := by
  induction lines generalizing number before with
  | nil => simp [fociFrom] at hf
  | cons line after ih =>
    rcases List.mem_cons.1 hf with rfl | hf
    · cases after with
      | nil => exact ⟨[], [], by simp [fociFrom, Focus.down?], by simp, by simp⟩
      | cons next rest =>
        refine ⟨[], fociFrom (number + 1 + 1) (next :: line :: before) rest, ?_, by simp, ?_⟩
        · simp [fociFrom, Focus.down?]
        · intro g hg
          have := le_number_of_mem_fociFrom hg
          dsimp only
          omega
    · obtain ⟨above, below, heq, habove, hbelow⟩ := ih hf
      refine ⟨⟨number, before, line, after⟩ :: above, below, ?_, ?_, hbelow⟩
      · rw [fociFrom, heq, List.cons_append]
      · intro g hg
        rcases List.mem_cons.1 hg with rfl | hg
        · have := le_number_of_mem_fociFrom hf
          dsimp only
          omega
        · exact habove g hg

/-! ## Points of one line -/

/-- A line reports what its collectors make of it and, in the midst of that, the condition above its
ternaries. -/
theorem codePoints_split {m : BoundaryMap} (lines : List Line) {f : Focus} {owner : Int}
    (howner : (Ownership.of m).Holds f.number owner) :
    ∃ front back, codePoints (Ownership.of m) lines f owner =
        front ++ ((if (ternaryPositions f).isEmpty then []
          else conditionAbovePoints f owner (Ownership.of m).innermost?) ++ back) ∧
      ∀ p ∈ front ++ back, ∃ family, p.MadeOn (Ownership.of m) family f.number := by
  simp only [codePoints, ternaryPoints, List.append_assoc]
  refine ⟨_, _, rfl, fun p hp => ?_⟩
  simp only [List.mem_append] at hp
  rcases hp with hp | hp | hp | hp | hp | hp
  · exact ⟨_, madeOn_of_mem_controlPoints howner hp⟩
  · exact ⟨_, madeOn_of_mem_pointsAt rfl howner hp⟩
  · exact ⟨_, madeOn_of_mem_pointsAt rfl howner hp⟩
  · exact ⟨_, madeOn_of_mem_pointsAt rfl howner hp⟩
  · exact ⟨_, madeOn_of_mem_expressions howner.hasKey hp⟩
  · obtain ⟨count, key, hkey, h⟩ := defaults_eq lines howner
    rw [h] at hp
    exact ⟨_, madeOn_of_mem_defaultPoints hkey hp⟩

theorem mem_codePoints {m : BoundaryMap} {lines : List Line} {f : Focus} {owner : Int} {p : Point}
    (howner : (Ownership.of m).Holds f.number owner)
    (hp : p ∈ codePoints (Ownership.of m) lines f owner) :
    (∃ family, p.MadeOn (Ownership.of m) family f.number) ∨
      ternaryPositions f ≠ [] ∧ p ∈ conditionAbovePoints f owner (Ownership.of m).innermost? := by
  obtain ⟨front, back, heq, hmade⟩ := codePoints_split lines howner
  rw [heq, List.mem_append, List.mem_append] at hp
  rcases hp with hp | hp | hp
  · exact Or.inl (hmade p (List.mem_append_left _ hp))
  · split at hp
    · simp at hp
    · next hternary => exact Or.inr ⟨mt List.isEmpty_iff.2 hternary, hp⟩
  · exact Or.inl (hmade p (List.mem_append_right _ hp))

/-- The line is one whose points are looked for: code inside some function. -/
def Ownership.scans (ctx : Ownership) (f : Focus) : Bool :=
  !isQuiet f.line && (ctx.innermost? f.number).isSome

theorem scanLine_of_scans {ctx : Ownership} (lines : List Line) {f : Focus}
    (h : ctx.scans f = true) :
    ∃ owner, ctx.innermost? f.number = some owner ∧
      scanLine ctx lines f = codePoints ctx lines f owner := by
  simp only [Ownership.scans, Bool.and_eq_true, Bool.not_eq_true'] at h
  obtain ⟨owner, howner⟩ := Option.isSome_iff_exists.1 h.2
  exact ⟨owner, howner, by simp [scanLine, h.1, howner]⟩

theorem scanLine_of_not_scans {ctx : Ownership} (lines : List Line) {f : Focus}
    (h : ctx.scans f = false) : scanLine ctx lines f = [] := by
  unfold scanLine
  split
  · rfl
  · next hquiet =>
    split
    · rfl
    · next owner howner => simp [Ownership.scans, hquiet, howner] at h

/-- A point that a line reports was made on the line, or on the line above it as the condition of a
ternary. -/
theorem mem_scanLine {m : BoundaryMap} {lines : List Line} {f : Focus} {p : Point}
    (hp : p ∈ scanLine (Ownership.of m) lines f) :
    (Ownership.of m).scans f = true ∧ ((∃ family, p.MadeOn (Ownership.of m) family f.number) ∨
      ternaryPositions f ≠ [] ∧ ∃ above, f.up? = some above ∧ isTernaryCondition above = true ∧
        p.MadeOn (Ownership.of m) .shortCircuit above.number) := by
  cases hscans : (Ownership.of m).scans f with
  | false => simp [scanLine_of_not_scans lines hscans] at hp
  | true =>
    obtain ⟨owner, hinnermost, heq⟩ := scanLine_of_scans lines hscans
    have howner := Ownership.holds_of_innermost? hinnermost
    rw [heq] at hp
    refine ⟨rfl, (mem_codePoints howner hp).imp_right fun h => ⟨h.1, ?_⟩⟩
    exact madeOn_above_of_mem_conditionAbovePoints howner.hasKey h.2

theorem liesOn_of_mem_scanLine {m : BoundaryMap} {lines : List Line} {f : Focus} {p : Point}
    (hp : p ∈ scanLine (Ownership.of m) lines f) :
    p.LiesOn (Ownership.of m) f.number ∨ p.LiesOn (Ownership.of m) (f.number - 1) := by
  obtain ⟨-, ⟨family, h⟩ | ⟨-, above, habove, -, h⟩⟩ := mem_scanLine hp
  · exact Or.inl h.liesOn
  · exact Or.inr (number_of_up? habove ▸ h.liesOn)

/-- Every point that some line reports is owned by a function of the map. -/
theorem hasKey_of_mem_rawPoints {m : BoundaryMap} {lines : List Line} {p : Point}
    (hp : p ∈ rawPoints (Ownership.of m) lines) : (Ownership.of m).HasKey p.owner := by
  obtain ⟨f, -, hp⟩ := List.mem_flatMap.1 hp
  rcases liesOn_of_mem_scanLine hp with h | h
  · exact h.2
  · exact h.2

/-- What lies on a line was reported from the line itself or from the one below. -/
theorem filter_rawPoints {m : BoundaryMap} {lines : List Line} {f : Focus} (hf : f ∈ foci lines) :
    (rawPoints (Ownership.of m) lines).filter (fun p => p.line = f.number) =
      (scanLine (Ownership.of m) lines f).filter (fun p => p.line = f.number) ++
        (f.down?.toList.flatMap (scanLine (Ownership.of m) lines)).filter fun p =>
          p.line = f.number := by
  have hfar (gs : List Focus) (hgs : ∀ g ∈ gs, g.number < f.number ∨ f.number + 1 < g.number) :
      (gs.flatMap (scanLine (Ownership.of m) lines)).filter (fun p => p.line = f.number) = [] := by
    rw [List.filter_eq_nil_iff]
    intro p hp hline
    obtain ⟨g, hg, hp⟩ := List.mem_flatMap.1 hp
    have hnumber := hgs g hg
    rw [decide_eq_true_eq] at hline
    rcases liesOn_of_mem_scanLine hp with ⟨h, -⟩ | ⟨h, -⟩ <;> omega
  obtain ⟨above, below, heq, habove, hbelow⟩ := fociFrom_split hf
  rw [rawPoints, foci, heq, List.flatMap_append, List.flatMap_cons, List.flatMap_append,
    List.filter_append, List.filter_append, List.filter_append,
    hfar above fun g hg => Or.inl (habove g hg), hfar below fun g hg => Or.inr (hbelow g hg),
    List.nil_append, List.append_nil]

theorem countP_rawPoints {m : BoundaryMap} {lines : List Line} {f : Focus} (hf : f ∈ foci lines)
    {q : Point → Bool} (hq : ∀ p, q p = true → p.line = f.number) :
    (rawPoints (Ownership.of m) lines).countP q =
      (scanLine (Ownership.of m) lines f).countP q +
        (f.down?.toList.flatMap (scanLine (Ownership.of m) lines)).countP q := by
  have honline (points : List Point) :
      (points.filter fun p => p.line = f.number).countP q = points.countP q := by
    rw [List.countP_filter]
    apply List.countP_congr
    intro p _
    simp only [Bool.and_eq_true, decide_eq_true_eq]
    exact and_iff_left_of_imp (hq p)
  rw [← honline (rawPoints _ _), filter_rawPoints hf, List.countP_append, honline, honline]

/-! ## All points -/

theorem mem_of_mem_distinctFrom {seen points : List Point} {p : Point}
    (hp : p ∈ distinctFrom seen points) : p ∈ points := by
  induction points generalizing seen with
  | nil => simp [distinctFrom] at hp
  | cons x rest ih =>
    simp only [distinctFrom] at hp
    split at hp
    · rcases List.mem_cons.1 hp with rfl | hp
      · exact List.mem_cons_self
      · exact List.mem_cons_of_mem _ (ih hp)
    · split at hp
      · exact List.mem_cons_of_mem _ (ih hp)
      · rcases List.mem_cons.1 hp with rfl | hp
        · exact List.mem_cons_self
        · exact List.mem_cons_of_mem _ (ih hp)

/-- Points of repeatable kinds are all kept. -/
theorem countP_distinctFrom {q : Point → Bool}
    (hq : ∀ p, q p = true → p.kind.repeatable = true) (seen points : List Point) :
    (distinctFrom seen points).countP q = points.countP q := by
  induction points generalizing seen with
  | nil => rfl
  | cons p rest ih =>
    simp only [distinctFrom]
    split
    · rw [List.countP_cons, List.countP_cons, ih]
    · next hrepeatable =>
      have hp : q p = false := by
        cases h : q p
        · rfl
        · exact absurd (hq p h) hrepeatable
      split
      · rw [List.countP_cons, ih, hp]
        simp
      · rw [List.countP_cons, List.countP_cons, ih]

/-- Points of which no two that cannot be repeated are equal are all kept. -/
theorem distinctFrom_eq_self {seen points : List Point}
    (hseen : ∀ p ∈ points, p.kind.repeatable = false → p ∉ seen)
    (hnodup : (points.filter fun p => !p.kind.repeatable).Nodup) :
    distinctFrom seen points = points := by
  induction points generalizing seen with
  | nil => rfl
  | cons p rest ih =>
    rw [distinctFrom]
    cases hrepeatable : p.kind.repeatable with
    | true =>
      rw [List.filter_cons_of_neg (by simp [hrepeatable])] at hnodup
      rw [if_pos rfl, ih (fun q hq => hseen q (List.mem_cons_of_mem _ hq)) hnodup]
    | false =>
      rw [List.filter_cons_of_pos (by simp [hrepeatable]), List.nodup_cons] at hnodup
      have hnew : seen.contains p = false := by
        simpa using hseen p List.mem_cons_self hrepeatable
      have hlater : ∀ q ∈ rest, q.kind.repeatable = false → q ∉ p :: seen := by
        intro q hq hkind hmem
        rcases List.mem_cons.1 hmem with rfl | hmem
        · exact hnodup.1 (List.mem_filter.2 ⟨hq, by simp [hkind]⟩)
        · exact hseen q (List.mem_cons_of_mem _ hq) hkind hmem
      rw [if_neg Bool.false_ne_true, hnew, if_neg Bool.false_ne_true, ih hlater hnodup.2]

/-- No point is dropped for its owner. -/
theorem filter_owner_distinctPoints (m : BoundaryMap) (lines : List Line) :
    (distinctPoints (rawPoints (Ownership.of m) lines)).filter (fun p => m.contains p.owner) =
      distinctPoints (rawPoints (Ownership.of m) lines) := by
  rw [List.filter_eq_self]
  intro p hp
  exact ((Ownership.of m).hasKey_iff_contains p.owner).1
    (hasKey_of_mem_rawPoints (mem_of_mem_distinctFrom hp))

theorem decisionPoints_eq (source : List Char) (m : BoundaryMap) :
    decisionPoints source m =
      sortByLine (distinctPoints (rawPoints (Ownership.of m) (splitLines source))) := by
  simp only [decisionPoints, filter_owner_distinctPoints]

theorem decisionPoints_perm (source : List Char) (m : BoundaryMap) :
    (decisionPoints source m).Perm
      (distinctPoints (rawPoints (Ownership.of m) (splitLines source))) := by
  rw [decisionPoints_eq]
  exact List.mergeSort_perm _ _

theorem countP_decisionPoints {q : Point → Bool}
    (hq : ∀ p, q p = true → p.kind.repeatable = true) (source : List Char) (m : BoundaryMap) :
    (decisionPoints source m).countP q =
      (rawPoints (Ownership.of m) (splitLines source)).countP q :=
  ((decisionPoints_perm source m).countP_eq q).trans (countP_distinctFrom hq _ _)

end BranchTally
