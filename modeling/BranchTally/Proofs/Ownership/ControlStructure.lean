-- SUMMARY: Where ranges nest, a control structure belongs to the smallest function that starts above its line, save that on a line that opens a callback a function with the same start wins if it stands in front in the map.
import BranchTally.Proofs.Ownership.Innermost

/-!
# Owners of control structures

A control structure belongs to the nearest function that starts above its line. On a line that opens
no callback this is the innermost function. On a line that opens one, the function that started last
is taken, and of several that started together the one that stands first in the map, which need not be
the nearest.
-/

namespace BranchTally

/-- The function starts above a line. -/
def Owner.startsAbove (f : Owner) (line : Int) : Bool := f.boundary.start < line

/-- The functions that stand in front of another one in a map. -/
def BoundaryMap.inFrontOf (m : BoundaryMap) (f : Owner) : List Owner :=
  m.owners.takeWhile fun g => g ≠ f

/-- A search comes to an element that passes exactly if none in front of it passes. -/
theorem find?_eq_some_iff_takeWhile {α : Type} [DecidableEq α] {p : α → Bool} {x : α} {l : List α}
    (hx : x ∈ l) (hp : p x = true) :
    l.find? p = some x ↔ ∀ y ∈ l.takeWhile (· ≠ x), p y = false := by
  induction l with
  | nil => simp at hx
  | cons y l ih =>
    by_cases hyx : y = x
    · subst hyx
      simp [List.find?_cons_of_pos hp]
    · have hx : x ∈ l := (List.mem_cons.1 hx).resolve_left (Ne.symm hyx)
      rw [List.takeWhile_cons_of_pos (by simpa using hyx), List.forall_mem_cons, ← ih hx]
      cases hy : p y with
      | true => simp [hy, hyx]
      | false => simp [hy]

namespace IsStack

variable {line : Int} {l : List Owner}

theorem startsAbove_eq_encloses (hl : IsStack line l) {f : Owner} (hf : f ∈ l) :
    f.startsAbove line = f.encloses line := by
  have hholds := hl.holds f hf
  rw [Boundary.contains_iff] at hholds
  rw [Bool.eq_iff_iff, Owner.encloses_iff, Owner.startsAbove, decide_eq_true_eq]
  exact (and_iff_left hholds.2).symm

theorem preferred_startsAbove (hl : IsStack line l) (h : ∃ f ∈ l, f.encloses line = true) :
    preferred (fun f => f.startsAbove line) l = l.filter (·.encloses line) := by
  obtain ⟨f, hf, hencloses⟩ := h
  rw [preferred_of_mem hf ((hl.startsAbove_eq_encloses hf).trans hencloses)]
  exact List.filter_congr fun g hg => hl.startsAbove_eq_encloses hg

/-- Among the functions around a line the one that starts first is on the line only if all are. -/
theorem start_eq_of_earliest (hl : IsStack line l) {first : Owner}
    (hfirst : bestBy Owner.earlier l = some first) (hstart : first.boundary.start = line) :
    ∀ f ∈ l, f.boundary.start = line := by
  intro f hf
  have hle := le_of_bestBy Owner.earlier_iff hfirst f hf
  have hholds := hl.holds f hf
  rw [Boundary.contains_iff] at hholds
  omega

/-- Without a callback below other functions, preferring functions that start above the line comes to
the same as avoiding those that open a body there. -/
theorem tightest?_preferred_startsAbove (hl : IsStack line l)
    (huniform : (∀ f ∈ l, f.boundary.start = line) ∨ ∀ f ∈ l, f.encloses line = true) :
    tightest? (preferred (fun f => !f.opensBody line) l) =
      tightest? (preferred (fun f => f.startsAbove line) l) := by
  rcases huniform with hhere | habove
  · rw [hl.tightest?_preferred_of_start hhere, preferred_of_forall_not]
    intro f hf
    rw [Owner.startsAbove, hhere f hf, decide_eq_false_iff_not]
    exact lt_irrefl line
  · rw [preferred_of_forall, preferred_of_forall]
    · intro f hf
      rw [hl.startsAbove_eq_encloses hf]
      exact habove f hf
    · intro f hf
      exact (Owner.not_opensBody_iff (hl.holds f hf)).2 (Or.inl (habove f hf))

end IsStack

namespace Ownership

variable {m : BoundaryMap} {line : Int}

theorem mem_around_of_encloses {f : Owner} (hf : f ∈ m.owners) (h : f.encloses line = true) :
    f ∈ m.around line := by
  have hline := Owner.encloses_iff.1 h
  exact BoundaryMap.mem_around.2 ⟨hf, Boundary.contains_iff.2 ⟨hline.1.le, hline.2⟩⟩

theorem mem_around_of_start {f : Owner} (hf : f ∈ m.owners) (h : f.boundary.start = line) :
    f ∈ m.around line :=
  BoundaryMap.mem_around.2 ⟨hf, Boundary.contains_iff.2 ⟨h.le, h ▸ f.boundary.start_le_stop⟩⟩

/-- Without a callback below other functions a control structure goes to the innermost function. -/
theorem controlOwner?_of_no_callback (hm : m.Nests)
    (huniform : (∀ f ∈ m.around line, f.boundary.start = line) ∨
      ∀ f ∈ m.around line, f.encloses line = true) :
    (Ownership.of m).controlOwner? line =
      (tightest? (preferred (fun f => f.startsAbove line) (m.around line))).map (·.key) := by
  rw [← (hm.isStack_around line).tightest?_preferred_startsAbove huniform, ← innermost?_eq hm]
  rw [controlOwner?, validAt_containing]
  cases hfirst : bestBy Owner.earlier (m.around line) with
  | none => rfl
  | some first =>
    have hnone : (m.around line).any (fun f =>
        f.boundary.start = line && f.startsInside first) = false := by
      rw [List.any_eq_false]
      intro f hf
      rw [Bool.and_eq_true, decide_eq_true_eq, Owner.startsInside_iff]
      rintro ⟨hstart, hinside⟩
      rcases huniform with hhere | habove
      · have := hhere first (mem_of_bestBy hfirst)
        omega
      · have := (Owner.encloses_iff.1 (habove f hf)).1
        omega
    simp only [hnone, Bool.not_false, if_true]

/-- On a line that opens a callback a control structure goes to the first of the functions that
started last above it. -/
theorem controlOwner?_of_callback (hm : m.Nests)
    (hhere : ∃ f ∈ m.around line, f.boundary.start = line)
    (habove : ∃ f ∈ m.around line, f.encloses line = true) :
    (Ownership.of m).controlOwner? line =
      (bestBy Owner.later ((m.around line).filter (·.encloses line))).map (·.key) := by
  have hl := hm.isStack_around line
  obtain ⟨callback, hcallback, hopens⟩ := hhere
  obtain ⟨host, hhost, hencloses⟩ := habove
  obtain ⟨first, hfirst⟩ := exists_bestBy Owner.earlier (List.ne_nil_of_mem hhost)
  have hfirstAbove : first.boundary.start < line := by
    rcases hl.start_eq_or_encloses (mem_of_bestBy hfirst) with hstart | hstart
    · have := hl.start_eq_of_earliest hfirst hstart host hhost
      have := (Owner.encloses_iff.1 hencloses).1
      omega
    · exact (Owner.encloses_iff.1 hstart).1
  have hcallbacks : ∀ f : Owner,
      (f.boundary.start = line && f.startsInside first) = decide (f.boundary.start = line) := by
    intro f
    rw [Bool.eq_iff_iff, Bool.and_eq_true, decide_eq_true_eq, Owner.startsInside_iff]
    omega
  have hany : (m.around line).any (fun f => f.boundary.start = line) = true :=
    List.any_eq_true.2 ⟨callback, hcallback, by simpa using hopens⟩
  have hhosts : (m.around line).filter (fun f => !decide (f.boundary.start = line)) =
      (m.around line).filter (·.encloses line) := by
    apply List.filter_congr
    intro f hf
    rcases hl.start_eq_or_encloses hf with hstart | hstart
    · have hnot : f.encloses line = false := by
        rw [Bool.eq_false_iff, Ne, Owner.encloses_iff]
        omega
      simp [hstart, hnot]
    · have := (Owner.encloses_iff.1 hstart).1
      rw [hstart, Bool.not_eq_true', decide_eq_false_iff_not]
      omega
  have hmem : host ∈ (m.around line).filter (·.encloses line) :=
    List.mem_filter.2 ⟨hhost, hencloses⟩
  obtain ⟨last, hlast⟩ := exists_bestBy Owner.later (List.ne_nil_of_mem hmem)
  simp only [controlOwner?, validAt_containing, hfirst, hcallbacks, hany, hhosts, List.filter_filter,
    Bool.and_self, hlast, Option.some_or, Option.map_some, Bool.not_true, Bool.false_eq_true, if_false]

/-- The first of the functions that started last is the smallest of them exactly if no longer one with
the same start stands in front of it. -/
theorem bestBy_later_eq_some_iff (hm : m.Nests) {host : Owner}
    (hhost : host.IsSmallestIn ((m.around line).filter (·.encloses line))) :
    bestBy Owner.later ((m.around line).filter (·.encloses line)) = some host ↔
      ∀ f ∈ m.inFrontOf host, f.encloses line = true → f.boundary.start ≠ host.boundary.start := by
  have hl := (hm.isStack_around line).filter (·.encloses line)
  have hlatest : ∀ f ∈ (m.around line).filter (·.encloses line),
      f.boundary.start ≤ host.boundary.start := fun f hf => (hl.within_of_isSmallestIn hhost hf).1
  obtain ⟨hmem, hencloses⟩ := List.mem_filter.1 hhost.1
  have htest : ∀ f : Owner, (f.boundary.contains line && (f.encloses line &&
      ((m.around line).filter (·.encloses line)).all fun g =>
        -f.boundary.start ≤ -g.boundary.start)) = true ↔
      f.encloses line = true ∧ host.boundary.start ≤ f.boundary.start := by
    intro f
    rw [Bool.and_eq_true, Bool.and_eq_true, Boundary.contains_iff, List.all_eq_true]
    simp only [decide_eq_true_eq, neg_le_neg_iff]
    constructor
    · rintro ⟨-, hf, hall⟩
      exact ⟨hf, hall host hhost.1⟩
    · rintro ⟨hf, hle⟩
      have hline := Owner.encloses_iff.1 hf
      exact ⟨⟨hline.1.le, hline.2⟩, hf, fun g hg => (hlatest g hg).trans hle⟩
  have hpasses := (htest host).2 ⟨hencloses, le_refl _⟩
  have hfind : bestBy Owner.later ((m.around line).filter (·.encloses line)) =
      m.owners.find? fun f => f.boundary.contains line && (f.encloses line &&
        ((m.around line).filter (·.encloses line)).all fun g =>
          -f.boundary.start ≤ -g.boundary.start) := by
    simp only [bestBy_eq_find? Owner.later_iff, List.find?_filter, BoundaryMap.find?_around, Bool.decide_and,
      Bool.decide_eq_true]
  rw [hfind, find?_eq_some_iff_takeWhile (List.mem_filter.1 hmem).1 hpasses]
  apply forall₂_congr
  intro f hf
  rw [← Bool.not_eq_true, htest, not_and]
  apply forall_congr'
  intro hfencloses
  have hmem : f ∈ (m.around line).filter (·.encloses line) :=
    List.mem_filter.2 ⟨mem_around_of_encloses ((List.takeWhile_sublist _).subset hf) hfencloses,
      hfencloses⟩
  rw [not_le, (hlatest f hmem).lt_iff_ne]

theorem controlOwner?_eq_some_iff_of_callback (hm : m.Nests)
    (hhere : ∃ f ∈ m.owners, f.boundary.start = line)
    (habove : ∃ f ∈ m.around line, f.encloses line = true) {host : Owner}
    (hhost : host.IsSmallestIn ((m.around line).filter (·.encloses line))) :
    (Ownership.of m).controlOwner? line = some host.key ↔
      ∀ f ∈ m.inFrontOf host, f.encloses line = true → f.boundary.start ≠ host.boundary.start := by
  obtain ⟨callback, hcallback, hstart⟩ := hhere
  rw [← bestBy_later_eq_some_iff hm hhost,
    controlOwner?_of_callback hm ⟨callback, mem_around_of_start hcallback hstart, hstart⟩ habove,
    Option.map_eq_some_iff]
  constructor
  · rintro ⟨f, hf, hkey⟩
    have hfOwner := (BoundaryMap.mem_around.1 (List.mem_filter.1 (mem_of_bestBy hf)).1).1
    have hhostOwner := (BoundaryMap.mem_around.1 (List.mem_filter.1 hhost.1).1).1
    rw [hf, m.key_injOn hfOwner hhostOwner hkey]
  · intro hf
    exact ⟨host, hf, rfl⟩

/-- A control structure belongs to the smallest function around its line that starts above it, and
where none does, to the smallest of all, with one exception: on a line where a function starts, it goes
to another function that has the start of this one and stands in front of it in the map. -/
theorem controlOwner?_eq_some_iff_inFrontOf (hm : m.Nests)
    (hline : ∃ f ∈ m.owners, f.boundary.contains line = true) :
    ∃ host : Owner, host.IsSmallestIn (preferred (fun f => f.startsAbove line) (m.around line)) ∧
      ((Ownership.of m).controlOwner? line = some host.key ↔
        ((∃ f ∈ m.owners, f.boundary.start = line) →
          ∀ f ∈ m.inFrontOf host, f.encloses line = true →
            f.boundary.start ≠ host.boundary.start)) := by
  have hl := hm.isStack_around line
  have hne : m.around line ≠ [] := by
    obtain ⟨f, hf, hholds⟩ := hline
    exact List.ne_nil_of_mem (BoundaryMap.mem_around.2 ⟨hf, hholds⟩)
  have hpreferred : preferred (fun f => f.startsAbove line) (m.around line) ≠ [] :=
    mt preferred_eq_nil_iff.1 hne
  obtain ⟨host, hhost⟩ : ∃ f,
      tightest? (preferred (fun f => f.startsAbove line) (m.around line)) = some f :=
    exists_bestBy Owner.tighter hpreferred
  have hsmallest := (hl.isStack_preferred _).isSmallestIn_of_tightest? hhost
  refine ⟨host, hsmallest, ?_⟩
  by_cases habove : ∃ f ∈ m.around line, f.encloses line = true
  · by_cases hhere : ∃ f ∈ m.owners, f.boundary.start = line
    · rw [hl.preferred_startsAbove habove] at hsmallest
      rw [forall_prop_of_true hhere]
      exact controlOwner?_eq_some_iff_of_callback hm hhere habove hsmallest
    · have huniform : ∀ f ∈ m.around line, f.encloses line = true := by
        intro f hf
        refine (hl.start_eq_or_encloses hf).resolve_left fun hstart => hhere ?_
        exact ⟨f, (BoundaryMap.mem_around.1 hf).1, hstart⟩
      rw [controlOwner?_of_no_callback hm (Or.inr huniform), hhost]
      exact iff_of_true rfl fun h => absurd h hhere
  · have huniform : ∀ f ∈ m.around line, f.boundary.start = line := fun f hf =>
      (hl.start_eq_or_encloses hf).resolve_right fun h => habove ⟨f, hf, h⟩
    rw [controlOwner?_of_no_callback hm (Or.inl huniform), hhost]
    refine iff_of_true rfl fun _ f hf hencloses => absurd ?_ habove
    exact ⟨f, mem_around_of_encloses ((List.takeWhile_sublist _).subset hf) hencloses, hencloses⟩

theorem controlOwner?_eq_some_iff_inFrontOf_shorter_first :
    let m : BoundaryMap := ⟨[(2, ⟨1, 5, by decide⟩), (1, ⟨1, 10, by decide⟩),
      (3, ⟨3, 4, by decide⟩)], by decide⟩
    m.Nests ∧ (∃ f ∈ m.owners, f.boundary.contains 3 = true) ∧
      (Ownership.of m).controlOwner? 3 = some 2 := by
  intro m
  have hm : m.Nests := ⟨by decide, by decide⟩
  have hline : ∃ f ∈ m.owners, f.boundary.contains 3 = true := by decide
  obtain ⟨host, hhost, hiff⟩ := controlOwner?_eq_some_iff_inFrontOf hm hline
  obtain rfl : host = ⟨2, ⟨1, 5, by decide⟩⟩ := hhost.unique (by decide)
  exact ⟨hm, hline, hiff.2 (by decide)⟩

/-- Of two functions that start together the longer one owns the `if` of a line that opens a callback,
when it comes first in the map. -/
theorem controlOwner?_ne_smallest_longer_first :
    let m : BoundaryMap := ⟨[(1, ⟨1, 10, by decide⟩), (2, ⟨1, 5, by decide⟩),
      (3, ⟨3, 4, by decide⟩)], by decide⟩
    let nearest : Owner := ⟨2, ⟨1, 5, by decide⟩⟩
    m.Nests ∧ nearest.IsSmallestIn (preferred (fun f => f.startsAbove 3) (m.around 3)) ∧
      (Ownership.of m).controlOwner? 3 = some 1 := by
  intro m nearest
  have hm : m.Nests := ⟨by decide, by decide⟩
  refine ⟨hm, by decide, ?_⟩
  rw [controlOwner?_of_callback hm (by decide) (by decide)]
  decide

end Ownership

end BranchTally
