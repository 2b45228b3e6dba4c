-- SUMMARY: The line index gives the functions around a line just as a filter of the map does, so the search for a callback in the index and the one in the map find the same function.
import BranchTally.Proofs.Ownership.Innermost

/-!
# The index and the map

The owners of lines are looked up in the line index, but the owner of an arrow in the map itself. Whatever the
ranges of a map are, the bucket of a line holds the functions around it in the order of the map. A function
holds the line it starts on, so both searches for a function that opens on a line choose from one list.
-/

namespace BranchTally

/-- The smallest function that starts on a line, and of several such the one that stands first in the map. -/
structure BoundaryMap.IsSmallestOpening (m : BoundaryMap) (line : Int) (f : Owner) : Prop where
  start : f.boundary.start = line
  first : ∃ front back, m.owners = front ++ f :: back ∧
    (∀ g ∈ front, g.boundary.start = line → f.boundary.size < g.boundary.size) ∧
    ∀ g ∈ back, g.boundary.start = line → f.boundary.size ≤ g.boundary.size

namespace Ownership

/-- The functions that start on a line are among those around it. -/
theorem startingOn_of (m : BoundaryMap) (line : Int) :
    (Ownership.of m).startingOn line = (m.around line).filter fun f => f.boundary.start = line := by
  rw [startingOn, BoundaryMap.around, List.filter_filter]
  refine List.filter_congr fun f _ => ?_
  have hle := f.boundary.start_le_stop
  rw [Bool.eq_iff_iff, Bool.and_eq_true, Boundary.contains_iff, decide_eq_true_eq]
  constructor
  · rintro rfl
    exact ⟨rfl, le_rfl, hle⟩
  · exact And.left

/-- Without an owner to leave out, the search in the index looks at all functions that start on the line. -/
theorem callbackOn?_none (m : BoundaryMap) (line : Int) :
    (Ownership.of m).callbackOn? line none = tightest? ((Ownership.of m).startingOn line) := by
  simp [callbackOn?, startingOn_of]

theorem arrowOwner_of_tightest? {ctx : Ownership} {line : Int} {f : Owner}
    (h : tightest? (ctx.startingOn line) = some f) (function : Int) :
    ctx.arrowOwner line function = (f.key, some f.boundary) := by
  rw [arrowOwner, h]

/-- The choice among the functions that start on a line is their first smallest. -/
theorem isSmallestOpening_of_tightest? {m : BoundaryMap} {line : Int} {f : Owner}
    (h : tightest? ((Ownership.of m).startingOn line) = some f) : m.IsSmallestOpening line f := by
  rw [tightest?, bestBy_eq_find? Owner.tighter_iff, startingOn, List.find?_filter,
    List.find?_eq_some_iff_append] at h
  simp only [decide_eq_true_eq, List.all_eq_true, List.mem_filter, and_imp, Bool.not_eq_true',
    decide_eq_false_iff_not, not_and, not_forall, not_le] at h
  obtain ⟨⟨hstart, hleast⟩, front, back, howners, hfront⟩ := h
  refine ⟨hstart, front, back, howners, fun g hg hgstart => ?_, fun g hg hgstart => ?_⟩
  · obtain ⟨x, hx, hxstart, hlt⟩ := hfront g hg hgstart
    exact Owner.size_lt_of_rank_lt (hstart.trans hgstart.symm) ((hleast x hx hxstart).trans_lt hlt)
  · have hmem : g ∈ m.owners := by
      rw [show m.owners = front ++ f :: back from howners]
      exact List.mem_append_right front (List.mem_cons_of_mem f hg)
    exact Owner.size_le_of_rank_le (hleast g hmem hgstart)

/-- For each line the index gives the entries of the map whose range holds it, in the order of the map, and none
of them is dropped afterwards. On a line where some range starts, the search in the index without an owner and
the search in the map find the same function: the first smallest that starts there. -/
theorem index_agrees_with_map (m : BoundaryMap) (line : Int) :
    let ctx := Ownership.of m
    ctx.containing line =
        (m.entries.filter fun entry => entry.2.start ≤ line ∧ line ≤ entry.2.stop).map
          (fun entry => ⟨entry.1, entry.2⟩) ∧
      validAt (ctx.containing line) line = ctx.containing line ∧
      ((∃ entry ∈ m.entries, entry.2.start = line) → ∃ f, m.IsSmallestOpening line f ∧
        ctx.callbackOn? line none = some f ∧
        ∀ function, ctx.arrowOwner line function = (f.key, some f.boundary)) := by
  intro ctx
  refine ⟨?_, ?_, ?_⟩
  · rw [containing_of, BoundaryMap.owners, List.filter_map]
    congr 2
    funext entry
    simp [Boundary.contains]
  · rw [containing_of, validAt_filter]
  · rintro ⟨entry, hentry, hstart⟩
    have hmem : (⟨entry.1, entry.2⟩ : Owner) ∈ ctx.startingOn line :=
      List.mem_filter.2 ⟨List.mem_map.2 ⟨entry, hentry, rfl⟩, decide_eq_true hstart⟩
    obtain ⟨f, hf⟩ := exists_bestBy Owner.tighter (List.ne_nil_of_mem hmem)
    exact ⟨f, isSmallestOpening_of_tightest? hf, (callbackOn?_none m line).trans hf,
      arrowOwner_of_tightest? hf⟩

/-- Three functions start on one line, above the file: a long one and two short ones. -/
theorem index_agrees_with_map_above_file :
    let m : BoundaryMap := ⟨[(1, ⟨-9, 4, by decide⟩), (7, ⟨-2, 9, by decide⟩), (5, ⟨-2, 0, by decide⟩),
      (6, ⟨-2, 0, by decide⟩)], by decide⟩
    let ctx := Ownership.of m
    (∃ entry ∈ m.entries, entry.2.start = -2) ∧
      (ctx.containing (-2)).map (·.key) = [1, 7, 5, 6] ∧ (ctx.containing 2).map (·.key) = [1, 7] ∧
      (ctx.callbackOn? (-2) none).map (·.key) = some 5 ∧ (ctx.arrowOwner (-2) 1).1 = 5 := by
  intro m ctx
  have hstart : ∃ entry ∈ m.entries, entry.2.start = -2 := by decide
  obtain ⟨hcontaining, -, hopening⟩ := index_agrees_with_map m (-2)
  obtain ⟨f, hf, hcallback, harrow⟩ := hopening hstart
  have htightest : (tightest? (ctx.startingOn (-2))).map (·.key) = some 5 := by decide
  have hkey : f.key = 5 := by
    rw [← callbackOn?_none, hcallback] at htightest
    exact Option.some.inj htightest
  refine ⟨hstart, ?_, ?_, ?_, ?_⟩
  · rw [hcontaining]
    rfl
  · rw [(index_agrees_with_map m 2).1]
    rfl
  · rw [hcallback, Option.map_some, hkey]
  · rw [harrow, hkey]

end Ownership

end BranchTally
