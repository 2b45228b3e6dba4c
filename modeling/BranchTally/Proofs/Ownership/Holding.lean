-- SUMMARY: Every point but those of operators is owned by a function around its line, so no point is dropped for its owner.
import BranchTally.Proofs.OrderedMap
import BranchTally.Proofs.Scan

/-!
# Owners around their lines

The operators of a condition go to the function of the line where the condition began, and that may
have ended since. All other points stay with a function around their own line, however the ranges of
the map overlap, since each way to choose an owner chooses among the functions around a line.
-/

namespace BranchTally

/-! ## Functions around a line -/

namespace Ownership

theorem get?_of_mem_owners {m : BoundaryMap} {f : Owner} (hf : f ∈ m.owners) :
    m.get? f.key = some f.boundary := by
  obtain ⟨entry, hentry, rfl⟩ := List.mem_map.1 hf
  exact (m.get?_eq_some_iff _ _).2 hentry

/-- The functions around a line are those that the map gives a range with this line. -/
theorem holds_iff_get? (m : BoundaryMap) (line key : Int) :
    (Ownership.of m).Holds line key ↔ ∃ b, m.get? key = some b ∧ b.contains line = true := by
  simp only [Holds, containing_of, List.mem_filter]
  constructor
  · rintro ⟨f, ⟨hf, hline⟩, rfl⟩
    exact ⟨f.boundary, get?_of_mem_owners hf, hline⟩
  · rintro ⟨b, hget, hline⟩
    have hentry := (m.get?_eq_some_iff key b).1 hget
    exact ⟨⟨key, b⟩, ⟨List.mem_map.2 ⟨(key, b), hentry, rfl⟩, hline⟩, rfl⟩

/-- The boundary that comes with the owner of an arrow is the one in the map. -/
theorem arrowOwner_get? (m : BoundaryMap) (line function : Int) :
    ((Ownership.of m).arrowOwner line function).2 =
      m.get? ((Ownership.of m).arrowOwner line function).1 := by
  unfold arrowOwner
  split
  · next f hf => exact (get?_of_mem_owners (List.mem_filter.1 (mem_of_tightest? hf)).1).symm
  · rfl

end Ownership

/-! ## Points -/

/-- The point is owned by a function around its line, unless it is an operator. -/
def Point.Anchored (ctx : Ownership) (p : Point) : Prop :=
  p.kind = .conj ∨ p.kind = .disj ∨ ctx.Holds p.line p.owner

theorem Point.MadeOn.anchored {ctx : Ownership} {family : Family} {number : Int} {p : Point}
    (h : p.MadeOn ctx family number) : p.Anchored ctx := by
  cases h with
  | construct _ howner => exact Or.inr (Or.inr howner)
  | operator _ => exact (Logical.kind_eq _).imp_right Or.inl

section

variable {m : BoundaryMap} {f : Focus} {p : Point}

theorem anchored_of_mem_scanLine {lines : List Line}
    (hp : p ∈ scanLine (Ownership.of m) lines f) : p.Anchored (Ownership.of m) := by
  obtain ⟨-, ⟨family, hmade⟩ | ⟨-, above, -, -, hmade⟩⟩ := mem_scanLine hp
  · exact hmade.anchored
  · exact hmade.anchored

/-- A line reports points of functions of the map only, and all but the operators belong to a function
whose range has the line of the point. -/
theorem owner_of_mem_scanLine {lines : List Line} (hp : p ∈ scanLine (Ownership.of m) lines f) :
    m.contains p.owner = true ∧ (p.kind ≠ .conj → p.kind ≠ .disj →
      ∃ b, m.get? p.owner = some b ∧ b.contains p.line = true) := by
  have hkey : (Ownership.of m).HasKey p.owner := by
    rcases liesOn_of_mem_scanLine hp with h | h
    · exact h.2
    · exact h.2
  refine ⟨((Ownership.of m).hasKey_iff_contains p.owner).1 hkey, fun hconj hdisj => ?_⟩
  rcases anchored_of_mem_scanLine hp with h | h | h
  · exact absurd h hconj
  · exact absurd h hdisj
  · exact (Ownership.holds_iff_get? m p.line p.owner).1 h

end

/-! ## Soundness of owners -/

theorem mem_scanLine_of_ternary {ctx : Ownership} {lines : List Line} {f : Focus} {owner : Int}
    (hcode : isQuiet f.line = false) (howner : ctx.innermost? f.number = some owner)
    (h : ternaryPositions f ≠ []) : ⟨f.number, .ternary, owner⟩ ∈ scanLine ctx lines f := by
  obtain ⟨i, hi⟩ := List.exists_mem_of_ne_nil _ h
  have hternary : ⟨f.number, .ternary, owner⟩ ∈ ternaryPoints f owner ctx.innermost? :=
    List.mem_append_left _ (List.mem_append_right _ (List.mem_map.2 ⟨i, hi, rfl⟩))
  simp only [scanLine, hcode, howner, Bool.false_eq_true, if_false, codePoints, List.mem_append]
  exact Or.inl (Or.inl (Or.inl (Or.inr hternary)))

/-- What the lines of a source report belongs to functions of the map, and but for operators to
functions around the lines; so the points of the source are the distinct ones of these reports, and
none is dropped for its owner. -/
theorem owners_sound (source : List Char) (m : BoundaryMap) :
    (∀ f ∈ foci (splitLines source), ∀ p ∈ scanLine (Ownership.of m) (splitLines source) f,
      m.contains p.owner = true ∧ (p.kind ≠ .conj → p.kind ≠ .disj →
        ∃ b, m.get? p.owner = some b ∧ b.contains p.line = true)) ∧
      (distinctPoints (rawPoints (Ownership.of m) (splitLines source))).filter
          (fun p => m.contains p.owner) =
        distinctPoints (rawPoints (Ownership.of m) (splitLines source)) :=
  ⟨fun _ _ _ hp => owner_of_mem_scanLine hp, filter_owner_distinctPoints m (splitLines source)⟩

/-- The ternary of a callback belongs to the callback, which lies around its line. -/
theorem owners_sound_ternary_of_callback :
    let source := "sort((a, b)\n  => a ? b : 0);".toList
    let m : BoundaryMap := ⟨[(4, ⟨1, 2, by decide⟩), (7, ⟨2, 2, by decide⟩)], by decide⟩
    let f : Focus := ⟨2, ["sort((a, b)".toList], "  => a ? b : 0);".toList, []⟩
    let p : Point := ⟨f.number, .ternary, 7⟩
    f ∈ foci (splitLines source) ∧ p ∈ scanLine (Ownership.of m) (splitLines source) f ∧
      m.contains p.owner = true ∧ ∃ b, m.get? p.owner = some b ∧ b.contains p.line = true := by
  intro source m f p
  have hlines : splitLines source = ["sort((a, b)".toList, "  => a ? b : 0);".toList] := by decide
  have hf : f ∈ foci (splitLines source) := hlines ▸ List.mem_cons_of_mem _ List.mem_cons_self
  have hinnermost : (Ownership.of m).innermost? f.number = some 7 := by
    simp only [Ownership.innermost?, Ownership.containing_of]
    decide
  have hp : p ∈ scanLine (Ownership.of m) (splitLines source) f :=
    mem_scanLine_of_ternary (by decide) hinnermost (by decide)
  obtain ⟨hkey, hholds⟩ := (owners_sound source m).1 f hf p hp
  exact ⟨hf, hp, hkey, hholds (by decide) (by decide)⟩

end BranchTally
