-- SUMMARY: The line index is the filter it stands for, every owner that is found is a function of the map, and a line has an owner exactly where some function holds it.
import Mathlib
import BranchTally.Ownership

/-!
# Ownership

Facts about the functions that are found for a line, whatever the shape of the boundary map: the
maps here may overlap in any way. Which function wins among several is not looked at.
-/

namespace BranchTally

/-- The map of a file with one function. -/
def BoundaryMap.single (key : Int) (boundary : Boundary) : BoundaryMap :=
  ⟨[(key, boundary)], by simp⟩

/-! ## The line index -/

namespace LineIndex

theorem lookup_push (idx : LineIndex) (first line : Int) (owner : Owner) :
    (idx.push first owner).lookup line =
      if first = line then idx.lookup line ++ [owner] else idx.lookup line := by
  simp only [push, lookup, Std.HashMap.getD_insert, beq_iff_eq]
  split
  · next h => rw [h]
  · rfl

theorem lookup_pushLines (owner : Owner) (line : Int) (count : Nat) (idx : LineIndex)
    (first : Int) :
    (idx.pushLines owner first count).lookup line =
      if first ≤ line ∧ line < first + count then idx.lookup line ++ [owner]
      else idx.lookup line := by
  induction count generalizing idx first with
  | zero =>
    have hempty : ¬(first ≤ line ∧ line < first + (0 : Nat)) := by omega
    rw [pushLines, if_neg hempty]
  | succ count ih =>
    rw [pushLines, ih, lookup_push]
    by_cases hfirst : first = line
    · have hbelow : ¬(first + 1 ≤ line ∧ line < first + 1 + count) := by omega
      have hhere : first ≤ line ∧ line < first + (count + 1 : Nat) := by omega
      rw [if_neg hbelow, if_pos hfirst, if_pos hhere]
    · have hsame : (first + 1 ≤ line ∧ line < first + 1 + count) ↔
          (first ≤ line ∧ line < first + (count + 1 : Nat)) := by omega
      simp only [hfirst, if_false, hsame]

theorem lookup_pushOwner (idx : LineIndex) (owner : Owner) (line : Int) :
    (idx.pushOwner owner).lookup line =
      idx.lookup line ++ [owner].filter fun f => f.boundary.contains line := by
  have hsize : (owner.boundary.size.toNat : Int) = owner.boundary.stop - owner.boundary.start := by
    have := owner.boundary.start_le_stop
    simp only [Boundary.size]
    omega
  have hrange : (owner.boundary.start ≤ line ∧
      line < owner.boundary.start + (owner.boundary.size.toNat + 1 : Nat)) ↔
      owner.boundary.contains line = true := by
    simp only [Boundary.contains, Bool.and_eq_true, decide_eq_true_eq]
    omega
  rw [pushOwner, lookup_pushLines]
  simp only [hrange, List.filter_cons, List.filter_nil]
  split <;> simp

/-- A bucket of the index holds the functions around its line, in their order. -/
theorem lookup_ofOwners (owners : List Owner) (line : Int) :
    (ofOwners owners).lookup line = owners.filter fun f => f.boundary.contains line := by
  have hfold : ∀ (owners : List Owner) (idx : LineIndex),
      (owners.foldl pushOwner idx).lookup line =
        idx.lookup line ++ owners.filter fun f => f.boundary.contains line := by
    intro owners
    induction owners with
    | nil => intro idx; simp
    | cons owner rest ih =>
      intro idx
      rw [List.foldl_cons, ih, lookup_pushOwner, List.append_assoc, ← List.filter_append]
      rfl
  have hempty : (⟨∅⟩ : LineIndex).lookup line = [] := by simp [lookup]
  rw [ofOwners, hfold, hempty, List.nil_append]

end LineIndex

theorem validAt_filter (owners : List Owner) (line : Int) :
    validAt (owners.filter fun f => f.boundary.contains line) line =
      owners.filter fun f => f.boundary.contains line := by
  simp [validAt, List.filter_filter]

/-! ## Choices -/

theorem mem_of_bestBy {α : Type} {beats : α → α → Bool} {l : List α} {x : α}
    (h : bestBy beats l = some x) : x ∈ l := by
  have hfold : ∀ (rest : List α) (first : α),
      rest.foldl (fun best x => if beats x best then x else best) first ∈ first :: rest := by
    intro rest
    induction rest with
    | nil => intro first; simp
    | cons y rest ih =>
      intro first
      rw [List.foldl_cons]
      have := ih (if beats y first then y else first)
      split at this <;> grind
  cases l with
  | nil => simp [bestBy] at h
  | cons first rest =>
    simp only [bestBy, Option.some.injEq] at h
    exact h ▸ hfold rest first

@[simp] theorem bestBy_eq_none_iff {α : Type} (beats : α → α → Bool) (l : List α) :
    bestBy beats l = none ↔ l = [] := by
  cases l <;> simp [bestBy]

@[simp] theorem tightest?_eq_none_iff (functions : List Owner) :
    tightest? functions = none ↔ functions = [] :=
  bestBy_eq_none_iff _ _

theorem mem_of_tightest? {functions : List Owner} {f : Owner} (h : tightest? functions = some f) :
    f ∈ functions :=
  mem_of_bestBy h

theorem mem_of_immediateParent? {functions : List Owner} {line : Int} {f : Owner}
    (h : immediateParent? functions line = some f) : f ∈ functions :=
  (List.mem_filter.1 (mem_of_tightest? h)).1

/-! ## The innermost function -/

theorem mem_of_simpleOwner? {containing valid : List Owner} {f : Owner}
    (hvalid : ∀ g ∈ valid, g ∈ containing) (h : simpleOwner? containing valid = some f) :
    f ∈ containing := by
  unfold simpleOwner? at h
  split at h <;> simp_all

theorem mem_of_nestedOwner? {functions : List Owner} {parent f : Owner} {line : Int}
    (hparent : parent ∈ functions) (h : nestedOwner? functions parent line = some f) :
    f ∈ functions := by
  simp only [nestedOwner?] at h
  split at h
  · split at h
    · simp at h
    · next hended =>
      cases hone : tightest? _ with
      | none =>
        rw [hone] at h
        simp only [Option.getD_none, Option.some.injEq] at h
        exact h ▸ hparent
      | some g =>
        rw [hone] at h
        simp only [Option.getD_some, Option.some.injEq] at h
        have := mem_of_tightest? hone
        grind
  · have := mem_of_tightest? h
    grind

theorem mem_of_crowdedOwner? {valid : List Owner} {line : Int} {f : Owner}
    (h : crowdedOwner? valid line = some f) : f ∈ valid := by
  unfold crowdedOwner? at h
  split at h
  · simp at h
  · next parent hparent =>
    have hparent : parent ∈ valid := by
      rcases Option.or_eq_some_iff.1 hparent with hp | ⟨-, hp⟩
      · exact mem_of_immediateParent? hp
      · exact mem_of_bestBy hp
    simp only at h
    split at h
    · next g hg =>
      have := mem_of_tightest? hg
      grind
    · split at h
      · rcases Option.or_eq_some_iff.1 h with hn | ⟨-, hn⟩
        · exact mem_of_nestedOwner? hparent hn
        · rcases Option.or_eq_some_iff.1 hn with ht | ⟨-, ht⟩
          · exact (List.mem_filter.1 (mem_of_tightest? ht)).1
          · exact mem_of_tightest? ht
      · simp only [Option.some.injEq] at h
        exact h ▸ hparent

theorem crowdedOwner?_isSome {valid : List Owner} (h : valid ≠ []) (line : Int) :
    (crowdedOwner? valid line).isSome := by
  unfold crowdedOwner?
  split
  · next hnone => simp_all [Option.or_eq_none_iff]
  · simp only
    split
    · rfl
    · split
      · rw [Option.isSome_iff_ne_none]
        simp [Option.or_eq_none_iff, h]
      · rfl

namespace Ownership

/-- The functions that the index gives for a line are those of the map that hold it. -/
theorem containing_of (m : BoundaryMap) (line : Int) :
    (Ownership.of m).containing line = m.owners.filter fun f => f.boundary.contains line :=
  LineIndex.lookup_ofOwners m.owners line

/-- The key belongs to a function of the map. -/
def HasKey (ctx : Ownership) (key : Int) : Prop := ∃ f ∈ ctx.boundaries.owners, f.key = key

theorem hasKey_iff_contains (ctx : Ownership) (key : Int) :
    ctx.HasKey key ↔ ctx.boundaries.contains key = true := by
  simp only [HasKey, BoundaryMap.owners, OrderedMap.contains, List.mem_map, List.any_eq_true,
    decide_eq_true_eq]
  constructor
  · rintro ⟨f, ⟨entry, hentry, rfl⟩, hkey⟩
    exact ⟨entry, hentry, hkey⟩
  · rintro ⟨entry, hentry, hkey⟩
    exact ⟨⟨entry.1, entry.2⟩, ⟨entry, hentry, rfl⟩, hkey⟩

theorem mem_owners_of_mem_containing {m : BoundaryMap} (line : Int) {f : Owner}
    (h : f ∈ (Ownership.of m).containing line) : f ∈ m.owners := by
  rw [containing_of] at h
  exact (List.mem_filter.1 h).1

theorem mem_containing_of_mem_validAt {ctx : Ownership} {line : Int} {f : Owner}
    (h : f ∈ validAt (ctx.containing line) line) : f ∈ ctx.containing line :=
  (List.mem_filter.1 h).1

/-- The key belongs to a function around the line. -/
def Holds (ctx : Ownership) (line key : Int) : Prop := ∃ f ∈ ctx.containing line, f.key = key

theorem Holds.hasKey {m : BoundaryMap} {line key : Int} (h : (Ownership.of m).Holds line key) :
    (Ownership.of m).HasKey key := by
  obtain ⟨f, hf, hkey⟩ := h
  exact ⟨f, mem_owners_of_mem_containing line hf, hkey⟩

theorem holds_of_innermost? {ctx : Ownership} {line key : Int} (h : ctx.innermost? line = some key) :
    ctx.Holds line key := by
  simp only [innermost?, Option.map_eq_some_iff] at h
  obtain ⟨f, hf, hkey⟩ := h
  refine ⟨f, ?_, hkey⟩
  rcases Option.or_eq_some_iff.1 hf with hs | ⟨-, hc⟩
  · exact mem_of_simpleOwner? (fun g hg => mem_containing_of_mem_validAt hg) hs
  · exact mem_containing_of_mem_validAt (mem_of_crowdedOwner? hc)

theorem hasKey_of_innermost? {m : BoundaryMap} {line key : Int}
    (h : (Ownership.of m).innermost? line = some key) : (Ownership.of m).HasKey key :=
  (holds_of_innermost? h).hasKey

/-- A line has an owner exactly where some function of the map holds it. -/
theorem innermost?_isSome_iff (m : BoundaryMap) (line : Int) :
    ((Ownership.of m).innermost? line).isSome ↔
      ∃ f ∈ m.owners, f.boundary.contains line = true := by
  have hvalid : validAt ((Ownership.of m).containing line) line =
      (Ownership.of m).containing line := by rw [containing_of, validAt_filter]
  have hnonempty : (Ownership.of m).containing line ≠ [] ↔
      ∃ f ∈ m.owners, f.boundary.contains line = true := by
    rw [containing_of, Ne, List.filter_eq_nil_iff]
    simp
  rw [← hnonempty]
  simp only [innermost?, hvalid, Option.isSome_map, Option.isSome_or, Bool.or_eq_true]
  constructor
  · rintro (h | h) hempty
    · simp [hempty, simpleOwner?] at h
    · simp [hempty, crowdedOwner?, immediateParent?, tightest?, bestBy] at h
  · intro h
    exact Or.inr (crowdedOwner?_isSome h line)

/-! ## Owners of control structures, callbacks and arrows -/

theorem holds_of_controlOwner? {ctx : Ownership} {line key : Int}
    (h : ctx.controlOwner? line = some key) : ctx.Holds line key := by
  simp only [controlOwner?] at h
  split at h
  · exact holds_of_innermost? h
  · split at h
    · exact holds_of_innermost? h
    · split at h
      · next f hf =>
        refine ⟨f, ?_, by simpa using h⟩
        apply mem_containing_of_mem_validAt
        rcases Option.or_eq_some_iff.1 hf with hl | ⟨-, he⟩
        · exact (List.mem_filter.1 (List.mem_filter.1 (mem_of_bestBy hl)).1).1
        · exact (List.mem_filter.1 (mem_of_bestBy he)).1
      · exact holds_of_innermost? h

theorem hasKey_of_controlOwner? {m : BoundaryMap} {line key : Int}
    (h : (Ownership.of m).controlOwner? line = some key) : (Ownership.of m).HasKey key :=
  (holds_of_controlOwner? h).hasKey

theorem hasKey_of_callbackOn? {m : BoundaryMap} {line : Int} {owner : Option Int} {f : Owner}
    (h : (Ownership.of m).callbackOn? line owner = some f) : (Ownership.of m).HasKey f.key :=
  ⟨f, mem_owners_of_mem_containing line
    (mem_containing_of_mem_validAt (List.mem_filter.1 (mem_of_tightest? h)).1), rfl⟩

theorem holds_of_mem_startingOn {m : BoundaryMap} {line : Int} {f : Owner}
    (hf : f ∈ (Ownership.of m).startingOn line) : (Ownership.of m).Holds line f.key := by
  obtain ⟨howner, hstart⟩ := List.mem_filter.1 hf
  rw [decide_eq_true_eq] at hstart
  refine ⟨f, ?_, rfl⟩
  rw [containing_of, List.mem_filter]
  have := f.boundary.start_le_stop
  simp only [Boundary.contains, Bool.and_eq_true, decide_eq_true_eq]
  exact ⟨howner, by omega, by omega⟩

theorem holds_arrowOwner {m : BoundaryMap} {line function : Int}
    (h : (Ownership.of m).Holds line function) :
    (Ownership.of m).Holds line ((Ownership.of m).arrowOwner line function).1 := by
  unfold arrowOwner
  split
  · next f hf => exact holds_of_mem_startingOn (mem_of_tightest? hf)
  · exact h

end Ownership

end BranchTally
