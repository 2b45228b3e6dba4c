-- SUMMARY: Where ranges nest, a line belongs to the smallest function around it that does not open a body of several lines there, and to the smallest of all where each of them does.
import BranchTally.Proofs.Ownership.Nesting

/-!
# The innermost function

The search for the owner of a line looks for a parent that started above the line, then for one-liners
on the line, for functions that open there, and for nested functions that still run or have ended. On
a stack these cases come to one rule. A line on which a function opens its body belongs to a function
further out, unless all functions around the line open there.
-/

namespace BranchTally

namespace Owner

/-- The function starts on a line and goes on below it. -/
def opensBody (f : Owner) (line : Int) : Bool := f.boundary.start = line && line < f.boundary.stop

@[simp] theorem encloses_iff {f : Owner} {line : Int} :
    f.encloses line = true ↔ f.boundary.start < line ∧ line ≤ f.boundary.stop := by
  simp [encloses]

@[simp] theorem isOneLiner_iff {f : Owner} {line : Int} :
    f.isOneLiner line = true ↔ f.boundary.start = line ∧ f.boundary.stop = line := by
  simp [isOneLiner]

@[simp] theorem startsInside_iff {f parent : Owner} :
    f.startsInside parent = true ↔ parent.boundary.start < f.boundary.start := by
  simp [startsInside]

theorem not_opensBody_iff {f : Owner} {line : Int} (h : f.boundary.contains line = true) :
    (!f.opensBody line) = true ↔ f.encloses line = true ∨ f.isOneLiner line = true := by
  simp only [Boundary.contains_iff] at h
  simp only [opensBody, Bool.not_eq_true', Bool.and_eq_false_imp, decide_eq_true_eq,
    decide_eq_false_iff_not, encloses_iff, isOneLiner_iff]
  omega

end Owner

theorem nestedOwner?_of_none_inside {functions : List Owner} {parent : Owner}
    (h : functions.filter (·.startsInside parent) = []) (line : Int) :
    nestedOwner? functions parent line = none := by
  simp [nestedOwner?, h]

namespace IsStack

variable {line : Int} {l : List Owner}

/-- The functions of a stack start on the line or above it. -/
theorem start_eq_or_encloses (hl : IsStack line l) {f : Owner} (hf : f ∈ l) :
    f.boundary.start = line ∨ f.encloses line = true := by
  have hholds := hl.holds f hf
  rw [Boundary.contains_iff] at hholds
  rw [Owner.encloses_iff]
  omega

/-- A function that takes the line alone is the smallest of all. -/
theorem isSmallestIn_of_isOneLiner (hl : IsStack line l) {f : Owner} (hf : f ∈ l)
    (hone : f.isOneLiner line = true) : f.IsSmallestIn l := by
  refine ⟨hf, fun g hg hne => ?_⟩
  have hwithin : f.boundary.Within g.boundary := by
    have := hl.holds g hg
    simp only [Boundary.contains_iff] at this
    simp only [Owner.isOneLiner_iff] at hone
    simp only [Boundary.Within]
    omega
  exact hl.size_lt_of_within hf hg hne hwithin

/-- A function that takes the line alone is found among those that open no body there. -/
theorem tightest?_preferred_of_isOneLiner (hl : IsStack line l) {f : Owner} (hf : f ∈ l)
    (hone : f.isOneLiner line = true) :
    tightest? (preferred (fun g => !g.opensBody line) l) = some f := by
  have hkeeps : (!f.opensBody line) = true :=
    (Owner.not_opensBody_iff (hl.holds f hf)).2 (Or.inr hone)
  rw [(hl.isStack_preferred _).tightest?_eq_some_iff]
  exact (hl.isSmallestIn_of_isOneLiner hf hone).in_preferred hkeeps

/-- Behind the immediate parent only the functions that start on the line are left. -/
theorem startsInside_iff_of_immediateParent? (hl : IsStack line l) {parent : Owner}
    (hparent : immediateParent? l line = some parent) {f : Owner} (hf : f ∈ l) :
    f.startsInside parent = true ↔ f.boundary.start = line := by
  have hsmallest := (hl.filter (·.encloses line)).isSmallestIn_of_tightest? hparent
  have hstart : parent.boundary.start < line :=
    (Owner.encloses_iff.1 (List.mem_filter.1 hsmallest.1).2).1
  rw [Owner.startsInside_iff]
  constructor
  · intro hlt
    refine (hl.start_eq_or_encloses hf).resolve_right fun hencloses => ?_
    have hwithin := (hl.filter _).within_of_isSmallestIn hsmallest
      (List.mem_filter.2 ⟨hf, hencloses⟩)
    exact absurd hwithin.1 (not_le.2 hlt)
  · intro heq
    rwa [heq]

/-- Without one-liners on the line the functions that open no body there are those that enclose it. -/
theorem preferred_not_opensBody (hl : IsStack line l) {parent : Owner} (hparent : parent ∈ l)
    (hencloses : parent.encloses line = true) (hnone : ∀ f ∈ l, ¬f.isOneLiner line = true) :
    preferred (fun f => !f.opensBody line) l = l.filter (·.encloses line) := by
  rw [preferred_of_mem hparent
    ((Owner.not_opensBody_iff (hl.holds parent hparent)).2 (Or.inl hencloses))]
  apply List.filter_congr
  intro f hf
  rw [Bool.eq_iff_iff, Owner.not_opensBody_iff (hl.holds f hf), or_iff_left (hnone f hf)]

/-- Below a parent the line belongs to a one-liner on it, and else to the parent. -/
theorem crowdedOwner?_of_parent (hl : IsStack line l) {parent : Owner}
    (hparent : immediateParent? l line = some parent) :
    crowdedOwner? l line = tightest? (preferred (fun f => !f.opensBody line) l) := by
  have hmem := mem_of_immediateParent? hparent
  have hencloses : parent.encloses line = true :=
    (List.mem_filter.1 (mem_of_tightest? hparent)).2
  have hinside : ∀ f ∈ l, f.startsInside parent = decide (f.boundary.start = line) := by
    intro f hf
    rw [Bool.eq_iff_iff, hl.startsInside_iff_of_immediateParent? hparent hf, decide_eq_true_eq]
  have hopening : (l.filter fun f => f.startsInside parent && f.boundary.start = line) =
      l.filter fun f => f.boundary.start = line :=
    List.filter_congr fun f hf => by rw [hinside f hf, Bool.and_self]
  simp only [crowdedOwner?, hparent, Option.some_or, hopening]
  cases hone : tightest? ((l.filter fun f => f.boundary.start = line).filter (·.isOneLiner line)) with
  | some f =>
    obtain ⟨hf, hfline⟩ := List.mem_filter.1 (mem_of_tightest? hone)
    exact (hl.tightest?_preferred_of_isOneLiner (List.mem_filter.1 hf).1 hfline).symm
  | none =>
    have hnone : ∀ f ∈ l, ¬f.isOneLiner line = true := by
      intro f hf hfline
      rw [tightest?_eq_none_iff, List.filter_filter, List.filter_eq_nil_iff] at hone
      apply hone f hf
      rw [Bool.and_eq_true, decide_eq_true_eq]
      exact ⟨hfline, (Owner.isOneLiner_iff.1 hfline).1⟩
    rw [hl.preferred_not_opensBody hmem hencloses hnone]
    by_cases hopens : (l.filter fun f => f.boundary.start = line) = []
    · have hnested : l.filter (·.startsInside parent) = [] := by
        rw [List.filter_congr hinside, hopens]
      have hall : l.filter (·.encloses line) = l := by
        rw [List.filter_eq_nil_iff] at hopens
        rw [List.filter_eq_self]
        intro f hf
        exact (hl.start_eq_or_encloses hf).resolve_left (by simpa using hopens f hf)
      rw [hopens, nestedOwner?_of_none_inside hnested, hall]
      rfl
    · rw [if_neg (by rwa [List.isEmpty_iff])]
      exact hparent.symm

/-- Where all functions start on the line, one that opens no body there takes the line alone, and is
the smallest anyway. -/
theorem tightest?_preferred_of_start (hl : IsStack line l)
    (hstart : ∀ f ∈ l, f.boundary.start = line) :
    tightest? (preferred (fun f => !f.opensBody line) l) = tightest? l := by
  by_cases hkeeps : ∃ g ∈ l, (!g.opensBody line) = true
  · obtain ⟨g, hg, hgkeeps⟩ := hkeeps
    have hone : g.isOneLiner line = true := by
      rcases (Owner.not_opensBody_iff (hl.holds g hg)).1 hgkeeps with habove | hone
      · have hlt := (Owner.encloses_iff.1 habove).1
        have heq := hstart g hg
        omega
      · exact hone
    rw [hl.tightest?_preferred_of_isOneLiner hg hone, eq_comm, hl.tightest?_eq_some_iff]
    exact hl.isSmallestIn_of_isOneLiner hg hone
  · rw [preferred_of_forall_not]
    intro g hg
    exact Bool.eq_false_iff.2 fun h => hkeeps ⟨g, hg, h⟩

/-- Where all functions start on the line it belongs to the smallest of them. -/
theorem crowdedOwner?_of_no_parent (hl : IsStack line l) (hne : l ≠ [])
    (hparent : immediateParent? l line = none) :
    crowdedOwner? l line = tightest? (preferred (fun f => !f.opensBody line) l) := by
  have hstart : ∀ f ∈ l, f.boundary.start = line := by
    intro f hf
    rw [immediateParent?, tightest?_eq_none_iff, List.filter_eq_nil_iff] at hparent
    exact (hl.start_eq_or_encloses hf).resolve_right (hparent f hf)
  obtain ⟨first, hfirst⟩ := exists_bestBy Owner.earlier hne
  have hinside : ∀ f ∈ l, f.startsInside first = false := by
    intro f hf
    rw [Bool.eq_false_iff, Ne, Owner.startsInside_iff, hstart f hf,
      hstart first (mem_of_bestBy hfirst)]
    exact lt_irrefl line
  have hnested : l.filter (·.startsInside first) = [] :=
    List.filter_eq_nil_iff.2 fun f hf => by simp [hinside f hf]
  have hopening : (l.filter fun f => f.startsInside first && f.boundary.start = line) = [] :=
    List.filter_eq_nil_iff.2 fun f hf => by simp [hinside f hf]
  have hhere : (l.filter fun f => f.boundary.start = line) = l :=
    List.filter_eq_self.2 fun f hf => by simpa using hstart f hf
  simp only [crowdedOwner?, hparent, hfirst, Option.none_or, hopening,
    nestedOwner?_of_none_inside hnested, hhere, hl.tightest?_preferred_of_start hstart, Option.or_self]
  rfl

theorem crowdedOwner?_eq (hl : IsStack line l) (hne : l ≠ []) :
    crowdedOwner? l line = tightest? (preferred (fun f => !f.opensBody line) l) := by
  cases hparent : immediateParent? l line with
  | none => exact hl.crowdedOwner?_of_no_parent hne hparent
  | some parent => exact hl.crowdedOwner?_of_parent hparent

end IsStack

theorem simpleOwner?_self {l : List Owner} {f : Owner} (h : simpleOwner? l l = some f) : l = [f] := by
  unfold simpleOwner? at h
  split at h <;> simp_all

namespace Ownership

@[simp] theorem validAt_containing (m : BoundaryMap) (line : Int) :
    validAt ((Ownership.of m).containing line) line = m.around line := by
  rw [containing_of, validAt_filter]
  rfl

theorem innermost?_eq {m : BoundaryMap} (hm : m.Nests) (line : Int) :
    (Ownership.of m).innermost? line =
      (tightest? (preferred (fun f => !f.opensBody line) (m.around line))).map (·.key) := by
  have hl := hm.isStack_around line
  have hcontaining : (Ownership.of m).containing line = m.around line := containing_of m line
  rw [innermost?, validAt_containing, hcontaining]
  congr 1
  cases hsimple : simpleOwner? (m.around line) (m.around line) with
  | none =>
    rw [Option.none_or]
    by_cases hne : m.around line = []
    · rw [hne]
      rfl
    · exact hl.crowdedOwner?_eq hne
  | some f =>
    have honly := simpleOwner?_self hsimple
    rw [honly] at hl ⊢
    have hf : f.IsSmallestIn (preferred (fun f => !f.opensBody line) [f]) := by
      cases hopens : f.opensBody line <;> simp [preferred, hopens, Owner.IsSmallestIn]
    exact (((hl.isStack_preferred _).tightest?_eq_some_iff f).2 hf).symm

/-- A line outside all ranges has no owner. Any other line belongs to the smallest function around it
that does not open a body of several lines there, and where all of them do, to the smallest of all. -/
theorem innermost?_eq_some_iff_isSmallestIn {m : BoundaryMap} (hm : m.Nests) (line : Int) :
    ((Ownership.of m).innermost? line = none ↔
        ∀ f ∈ m.owners, f.boundary.contains line = false) ∧
      ∀ key, (Ownership.of m).innermost? line = some key ↔
        ∃ f : Owner, f.key = key ∧
          f.IsSmallestIn (preferred (fun g => !g.opensBody line) (m.around line)) := by
  have hl := (hm.isStack_around line).isStack_preferred fun f => !f.opensBody line
  rw [innermost?_eq hm]
  constructor
  · rw [Option.map_eq_none_iff, tightest?_eq_none_iff, preferred_eq_nil_iff, BoundaryMap.around,
      List.filter_eq_nil_iff]
    simp only [Bool.not_eq_true]
  · intro key
    simp only [Option.map_eq_some_iff, hl.tightest?_eq_some_iff, and_comm]

/-- Where a line opens two bodies inside a longer function, the longer function owns it. -/
theorem innermost?_eq_some_iff_isSmallestIn_two_bodies :
    let m : BoundaryMap := ⟨[(8, ⟨4, 6, by decide⟩), (4, ⟨4, 7, by decide⟩), (2, ⟨2, 2, by decide⟩),
      (1, ⟨1, 10, by decide⟩)], by decide⟩
    m.Nests ∧ (Ownership.of m).innermost? 4 = some 1 := by
  intro m
  have hm : m.Nests := ⟨by decide, by decide⟩
  exact ⟨hm, ((innermost?_eq_some_iff_isSmallestIn hm 4).2 1).2 ⟨⟨1, ⟨1, 10, by decide⟩⟩, by decide⟩⟩

end Ownership

end BranchTally
