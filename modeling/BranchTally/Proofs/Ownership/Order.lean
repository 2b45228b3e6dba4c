-- SUMMARY: Where functions start on different lines and nest, no choice of an owner is a matter of the order in the map, so the points of a file are the same for each order.
import BranchTally.Proofs.Ownership.Innermost
import BranchTally.Proofs.Relabeling.Points

/-!
# The order of a map

Where two functions are equally good, the one that stands first in the map is chosen. But all
comparisons except the one by size alone tell functions with different starts apart, and of nested
functions around one line no two have the same size. Then there are no ties, and the order of a map
decides nothing.
-/

namespace BranchTally

/-! ## Choices without ties -/

/-- Where no two elements have the same score, the choice does not depend on their order. -/
theorem bestBy_perm {α β : Type} [LinearOrder β] {beats : α → α → Bool} {score : α → β}
    (hscore : ∀ x y, beats x y = true ↔ score x < score y) {l l' : List α} (hperm : l.Perm l')
    (hdistinct : ∀ x ∈ l, ∀ y ∈ l, score x = score y → x = y) : bestBy beats l = bestBy beats l' := by
  by_cases hne : l = []
  · subst hne
    rw [List.nil_perm.1 hperm]
  · have hne' : l' ≠ [] := fun h => hne (List.perm_nil.1 (h ▸ hperm))
    obtain ⟨x, hx⟩ := exists_bestBy beats hne
    obtain ⟨y, hy⟩ := exists_bestBy beats hne'
    have hxl := mem_of_bestBy hx
    have hyl := hperm.mem_iff.2 (mem_of_bestBy hy)
    have hxy := le_of_bestBy hscore hx y hyl
    have hyx := le_of_bestBy hscore hy x (hperm.mem_iff.1 hxl)
    rw [hx, hy, hdistinct x hxl y hyl (le_antisymm hxy hyx)]

/-- The same functions in another order, no two with one start. -/
structure Reordered (l l' : List Owner) : Prop where
  perm : l.Perm l'
  starts : ∀ f ∈ l, ∀ g ∈ l, f.boundary.start = g.boundary.start → f = g

namespace Reordered

variable {l l' : List Owner} (h : Reordered l l')

include h

theorem filter (p : Owner → Bool) : Reordered (l.filter p) (l'.filter p) where
  perm := h.perm.filter p
  starts f hf g hg := h.starts f (List.mem_filter.1 hf).1 g (List.mem_filter.1 hg).1

theorem isEmpty : l.isEmpty = l'.isEmpty := h.perm.isEmpty_eq

theorem any (p : Owner → Bool) : l.any p = l'.any p := by
  rw [Bool.eq_iff_iff, List.any_eq_true, List.any_eq_true]
  simp only [h.perm.mem_iff]

theorem earliest : bestBy Owner.earlier l = bestBy Owner.earlier l' :=
  bestBy_perm Owner.earlier_iff h.perm h.starts

theorem latest : bestBy Owner.later l = bestBy Owner.later l' :=
  bestBy_perm Owner.later_iff h.perm fun f hf g hg heq => h.starts f hf g hg (neg_inj.1 heq)

theorem tightest? : tightest? l = BranchTally.tightest? l' := by
  refine bestBy_perm Owner.tighter_iff h.perm fun f hf g hg heq => h.starts f hf g hg ?_
  exact neg_inj.1 (Prod.ext_iff.1 (toLex.injective heq)).2

/-! ## Owners -/

theorem immediateParent? (line : Int) :
    immediateParent? l line = BranchTally.immediateParent? l' line :=
  (h.filter _).tightest?

theorem nestedOwner? (parent : Owner) (line : Int) :
    nestedOwner? l parent line = BranchTally.nestedOwner? l' parent line := by
  have hnested := h.filter (·.startsInside parent)
  have hended := hnested.filter fun f => f.boundary.stop ≤ line && f.boundary.start ≤ line
  have hactive := hnested.filter fun f => f.boundary.start < line && line < f.boundary.stop
  simp only [BranchTally.nestedOwner?, hactive.isEmpty, hended.isEmpty, hactive.tightest?,
    (hended.filter (·.isOneLiner line)).tightest?]

theorem crowdedOwner? (line : Int) : crowdedOwner? l line = BranchTally.crowdedOwner? l' line := by
  have hopening (parent : Owner) :=
    h.filter fun f => f.startsInside parent && f.boundary.start = line
  have hstarting := h.filter fun f => f.boundary.start = line
  simp only [BranchTally.crowdedOwner?, h.immediateParent?, h.earliest, (hopening _).isEmpty,
    ((hopening _).filter (·.isOneLiner line)).tightest?, h.nestedOwner?, hstarting.tightest?,
    h.tightest?]

/-- Where all functions hold the line, little to choose from means one function at most. -/
theorem simpleOwner? : simpleOwner? l l = BranchTally.simpleOwner? l' l' := by
  have hperm := h.perm
  rcases l with _ | ⟨f, _ | ⟨g, l⟩⟩
  · rw [List.nil_perm.1 hperm]
  · rw [List.singleton_perm.1 hperm]
  · have hlength := hperm.length_eq
    rcases l' with _ | ⟨f', _ | ⟨g', l'⟩⟩
    · simp at hlength
    · simp at hlength
    · rfl

end Reordered

/-! ## Maps -/

/-- The entries of a map in another order; no two functions start on one line, and any two are
disjoint or nested. -/
structure BoundaryMap.Reorders (m m' : BoundaryMap) : Prop where
  perm : m.entries.Perm m'.entries
  starts : (m.owners.map (·.boundary.start)).Nodup
  apart_or_within : ∀ f ∈ m.owners, ∀ g ∈ m.owners,
    f.boundary.Apart g.boundary ∨ f.boundary.Within g.boundary ∨ g.boundary.Within f.boundary

namespace BoundaryMap.Reorders

variable {m m' : BoundaryMap} (h : m.Reorders m') (line : Int)

include h

theorem reordered : Reordered m.owners m'.owners where
  perm := h.perm.map _
  starts _ hf _ hg := List.inj_on_of_nodup_map h.starts hf hg

theorem around : Reordered (m.around line) (m'.around line) := h.reordered.filter _

theorem startingOn :
    Reordered ((Ownership.of m).startingOn line) ((Ownership.of m').startingOn line) :=
  h.reordered.filter _

theorem get? (key : Int) : m.get? key = m'.get? key := by
  apply Option.ext
  intro b
  rw [m.get?_eq_some_iff, m'.get?_eq_some_iff, h.perm.mem_iff]

theorem innermost? : (Ownership.of m).innermost? line = (Ownership.of m').innermost? line := by
  have hcontaining (m : BoundaryMap) : (Ownership.of m).containing line = m.around line :=
    Ownership.containing_of m line
  have haround := h.around line
  rw [Ownership.innermost?, Ownership.innermost?, Ownership.validAt_containing,
    Ownership.validAt_containing, hcontaining, hcontaining, haround.simpleOwner?,
    haround.crowdedOwner?]

theorem controlOwner? : (Ownership.of m).controlOwner? line = (Ownership.of m').controlOwner? line := by
  have haround := h.around line
  simp only [Ownership.controlOwner?, Ownership.validAt_containing, haround.earliest, haround.any,
    h.innermost?, (haround.filter _).earliest, ((haround.filter _).filter _).latest]

theorem callbackOn? (owner : Option Int) :
    (Ownership.of m).callbackOn? line owner = (Ownership.of m').callbackOn? line owner := by
  simp only [Ownership.callbackOn?, Ownership.validAt_containing]
  exact ((h.around line).filter _).tightest?

theorem arrowOwner (key : Int) :
    (Ownership.of m).arrowOwner line key = (Ownership.of m').arrowOwner line key := by
  have hget : (Ownership.of m).boundaries.get? key = (Ownership.of m').boundaries.get? key := h.get? key
  simp only [Ownership.arrowOwner, (h.startingOn line).tightest?, hget]

/-- Of the functions around a line no two have one size, so that comparing sizes is enough. -/
theorem smallest (p : Owner → Bool) :
    bestBy Owner.smaller (m.owners.filter fun f => f.boundary.contains line && p f) =
      bestBy Owner.smaller (m'.owners.filter fun f => f.boundary.contains line && p f) := by
  refine bestBy_perm Owner.smaller_iff (h.reordered.perm.filter _) fun f hf g hg hsize => ?_
  simp only [List.mem_filter, Bool.and_eq_true, Boundary.contains_iff] at hf hg
  refine h.reordered.starts f hf.1 g hg.1 ?_
  simp only [Boundary.size] at hsize
  rcases h.apart_or_within f hf.1 g hg.1 with happart | hwithin | hwithin
  · simp only [Boundary.Apart] at happart
    omega
  · simp only [Boundary.Within] at hwithin
    omega
  · simp only [Boundary.Within] at hwithin
    omega

theorem expressionOwner (text : Line) (position default : Int) :
    expressionOwner (Ownership.of m) text line position default =
      BranchTally.expressionOwner (Ownership.of m') text line position default := by
  have hsmallest := h.smallest line fun f => f.boundary.start ≠ line
  simp only [BranchTally.expressionOwner, (h.startingOn line).isEmpty]
  rw [show (Ownership.of m).boundaries = m from rfl, show (Ownership.of m').boundaries = m' from rfl,
    hsmallest]

/-- Nothing that is asked about owners depends on the order. -/
theorem answers : Relabeling.Answers ⟨id, 0⟩ m m' where
  injective _ _ _ _ heq := heq
  zero _ _ := Iff.rfl
  innermost line := by simp [h.innermost?]
  control line := by simp [h.controlOwner?]
  callback line key _ := by simp [h.callbackOn?]
  expression text line position default := by simp [h.expressionOwner]
  arrow line key _ := by simp [h.arrowOwner]
  range key _ := by simp [h.get?]

end BoundaryMap.Reorders

/-- The order of the functions in a map has no part in the points of a file, if the functions start on
different lines and any two are disjoint or nested. -/
theorem decisionPoints_reorder (source : List Char) {m m' : BoundaryMap}
    (hperm : m.entries.Perm m'.entries) (hstarts : (m.owners.map (·.boundary.start)).Nodup)
    (hnested : ∀ f ∈ m.owners, ∀ g ∈ m.owners,
      f.boundary.Apart g.boundary ∨ f.boundary.Within g.boundary ∨ g.boundary.Within f.boundary) :
    decisionPoints source m = decisionPoints source m' := by
  have h : m.Reorders m' := ⟨hperm, hstarts, hnested⟩
  have hpoints := h.answers.decisionPoints 0 source
  have hpoint : Relabeling.point ⟨id, 0⟩ = id := by
    funext p
    simp [Relabeling.point]
  rw [hpoint, List.map_id, List.replicate_zero, List.nil_append, List.append_nil] at hpoints
  exact hpoints.symm

/-- A callback may stand in front of the function that it is in. -/
theorem decisionPoints_reorder_callback_first :
    let source := "const f = (rows) =>\n  rows.map((x) =>\n    x ? x.y : 0);".toList
    let m : BoundaryMap := ⟨[(1, ⟨1, 3, by decide⟩), (2, ⟨2, 3, by decide⟩)], by decide⟩
    let m' : BoundaryMap := ⟨[(2, ⟨2, 3, by decide⟩), (1, ⟨1, 3, by decide⟩)], by decide⟩
    m.entries.Perm m'.entries ∧ (m.owners.map (·.boundary.start)).Nodup ∧
      (∀ f ∈ m.owners, ∀ g ∈ m.owners,
        f.boundary.Apart g.boundary ∨ f.boundary.Within g.boundary ∨ g.boundary.Within f.boundary) ∧
      decisionPoints source m = decisionPoints source m' := by
  intro source m m'
  have hperm : m.entries.Perm m'.entries := by decide
  have hstarts : (m.owners.map (·.boundary.start)).Nodup := by decide
  have hnested : ∀ f ∈ m.owners, ∀ g ∈ m.owners,
      f.boundary.Apart g.boundary ∨ f.boundary.Within g.boundary ∨
        g.boundary.Within f.boundary := by decide
  exact ⟨hperm, hstarts, hnested, decisionPoints_reorder source hperm hstarts hnested⟩

end BranchTally
