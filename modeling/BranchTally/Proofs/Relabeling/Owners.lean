-- SUMMARY: The choice of an owner looks at the order of ranges only, so it commutes with new names for the keys and a shift of all lines.
import BranchTally.Proofs.Ownership.Holding

/-!
# Relabelled functions

A key is a name, and the number of a line matters only beside other numbers. If every function gets
another key and all ranges move by as many lines, then each way to choose among functions chooses the
same one as before, and each question about owners has the relabelled answer.
-/

namespace BranchTally

/-! ## Relabelled functions -/

/-- The range some lines further down. -/
def Boundary.shift (b : Boundary) (lines : Int) : Boundary :=
  ⟨b.start + lines, b.stop + lines, Int.add_le_add_right b.start_le_stop lines⟩

/-- New names for keys, and how many lines everything moves down. -/
structure Relabeling where
  rename : Int → Int
  shift : Nat

/-- The function under its new key, with its range moved. -/
def Relabeling.owner (r : Relabeling) (f : Owner) : Owner := ⟨r.rename f.key, f.boundary.shift r.shift⟩

namespace Boundary

variable (b c : Boundary) (lines line : Int)

@[simp] theorem start_shift : (b.shift lines).start = b.start + lines := rfl

@[simp] theorem stop_shift : (b.shift lines).stop = b.stop + lines := rfl

@[simp] theorem size_shift : (b.shift lines).size = b.size := by
  simp only [size, start_shift, stop_shift]
  omega

@[simp] theorem contains_shift : (b.shift lines).contains (line + lines) = b.contains line := by
  simp [contains]

@[simp] theorem shift_zero : b.shift 0 = b := by
  simp [shift]

end Boundary

namespace Relabeling

variable (r : Relabeling)

@[simp] theorem key_owner (f : Owner) : (r.owner f).key = r.rename f.key := rfl

@[simp] theorem boundary_owner (f : Owner) : (r.owner f).boundary = f.boundary.shift r.shift := rfl

/-! ## Comparisons -/

section

variable (f g : Owner) (line : Int)

@[simp] theorem tighter_owner : (r.owner f).tighter (r.owner g) = f.tighter g := by
  simp [Owner.tighter]

@[simp] theorem earlier_owner : (r.owner f).earlier (r.owner g) = f.earlier g := by
  simp [Owner.earlier]

@[simp] theorem later_owner : (r.owner f).later (r.owner g) = f.later g := by
  simp [Owner.later]

@[simp] theorem smaller_owner : (r.owner f).smaller (r.owner g) = f.smaller g := by
  simp [Owner.smaller]

@[simp] theorem isOneLiner_owner : (r.owner f).isOneLiner (line + r.shift) = f.isOneLiner line := by
  simp [Owner.isOneLiner]

@[simp] theorem encloses_owner : (r.owner f).encloses (line + r.shift) = f.encloses line := by
  simp [Owner.encloses]

@[simp] theorem startsInside_owner : (r.owner f).startsInside (r.owner g) = f.startsInside g := by
  simp [Owner.startsInside]

end

/-! ## Choices -/

theorem bestBy_map {α β : Type} {beats : α → α → Bool} {beats' : β → β → Bool} {g : α → β}
    (h : ∀ x y, beats' (g x) (g y) = beats x y) (l : List α) :
    bestBy beats' (l.map g) = (bestBy beats l).map g := by
  cases l with
  | nil => rfl
  | cons first rest =>
    simp only [List.map_cons, bestBy, Option.map_some, List.foldl_map]
    congr 1
    induction rest generalizing first with
    | nil => rfl
    | cons x rest ih =>
      rw [List.foldl_cons, List.foldl_cons, h, ← ih]
      split <;> rfl

section

variable (l : List Owner) (line : Int)

@[simp] theorem tightest?_map : tightest? (l.map r.owner) = (tightest? l).map r.owner :=
  bestBy_map r.tighter_owner l

@[simp] theorem validAt_map : validAt (l.map r.owner) (line + r.shift) = (validAt l line).map r.owner := by
  simp [validAt, List.filter_map, Function.comp_def]

@[simp] theorem immediateParent?_map :
    immediateParent? (l.map r.owner) (line + r.shift) = (immediateParent? l line).map r.owner := by
  simp [immediateParent?, List.filter_map, Function.comp_def]

@[simp] theorem simpleOwner?_map (valid : List Owner) :
    simpleOwner? (l.map r.owner) (valid.map r.owner) = (simpleOwner? l valid).map r.owner := by
  rcases l with _ | ⟨f, _ | ⟨g, l⟩⟩ <;> rcases valid with _ | ⟨v, _ | ⟨w, valid⟩⟩ <;> rfl

@[simp] theorem nestedOwner?_map (parent : Owner) :
    nestedOwner? (l.map r.owner) (r.owner parent) (line + r.shift) =
      (nestedOwner? l parent line).map r.owner := by
  simp only [nestedOwner?, List.filter_map, Function.comp_def, startsInside_owner, boundary_owner,
    Boundary.start_shift, Boundary.stop_shift, Int.add_lt_add_iff_right, Int.add_le_add_iff_right,
    isOneLiner_owner, List.isEmpty_map, tightest?_map, Option.getD_map]
  split
  · split <;> rfl
  · rfl

@[simp] theorem crowdedOwner?_map : crowdedOwner? (l.map r.owner) (line + r.shift) =
    (crowdedOwner? l line).map r.owner := by
  rw [crowdedOwner?, immediateParent?_map, bestBy_map r.earlier_owner, ← Option.map_or, crowdedOwner?]
  cases (immediateParent? l line).or (bestBy Owner.earlier l) with
  | none => rfl
  | some parent =>
    simp only [Option.map_some, List.filter_map, Function.comp_def, startsInside_owner, boundary_owner,
      Boundary.start_shift, Int.add_left_inj, isOneLiner_owner, tightest?_map, List.isEmpty_map,
      nestedOwner?_map, ← Option.map_or]
    cases tightest? ((l.filter fun f => f.startsInside parent && f.boundary.start = line).filter
        (·.isOneLiner line)) with
    | some f => rfl
    | none =>
      simp only [Option.map_none]
      split <;> rfl

end

end Relabeling

/-! ## What is asked about owners -/

/-- All that a scan asks a map about owners, another map answers alike, relabelled. -/
structure Relabeling.Answers (r : Relabeling) (m m' : BoundaryMap) : Prop where
  injective : ∀ k l, (Ownership.of m).HasKey k → (Ownership.of m).HasKey l →
    r.rename k = r.rename l → k = l
  zero : ∀ k, (Ownership.of m).HasKey k → (r.rename k = 0 ↔ k = 0)
  innermost : ∀ line, (Ownership.of m').innermost? (line + r.shift) =
    ((Ownership.of m).innermost? line).map r.rename
  control : ∀ line, (Ownership.of m').controlOwner? (line + r.shift) =
    ((Ownership.of m).controlOwner? line).map r.rename
  callback : ∀ line key, (Ownership.of m).HasKey key →
    ((Ownership.of m').callbackOn? (line + r.shift) (some (r.rename key))).map (·.key) =
      ((Ownership.of m).callbackOn? line (some key)).map fun f => r.rename f.key
  expression : ∀ text line position default,
    expressionOwner (Ownership.of m') text (line + r.shift) position (r.rename default) =
      r.rename (expressionOwner (Ownership.of m) text line position default)
  arrow : ∀ line key, (Ownership.of m).HasKey key →
    (Ownership.of m').arrowOwner (line + r.shift) (r.rename key) =
      (r.rename ((Ownership.of m).arrowOwner line key).1,
        ((Ownership.of m).arrowOwner line key).2.map (·.shift r.shift))
  range : ∀ key, (Ownership.of m).HasKey key →
    m'.get? (r.rename key) = (m.get? key).map (·.shift r.shift)

/-! ## Relabelled maps -/

/-- The functions of a map stand in another one in the same order, relabelled; the new names tell them
apart, and zero, which stands for no function, is the new name of zero only. -/
structure Relabeling.Relabels (r : Relabeling) (m m' : BoundaryMap) : Prop where
  owners : m'.owners = m.owners.map r.owner
  injective : ∀ f ∈ m.owners, ∀ g ∈ m.owners, r.rename f.key = r.rename g.key → f.key = g.key
  zero : ∀ f ∈ m.owners, r.rename f.key = 0 ↔ f.key = 0

namespace Relabeling.Relabels

variable {r : Relabeling} {m m' : BoundaryMap} (h : r.Relabels m m') (line : Int)

include h

theorem containing : (Ownership.of m').containing (line + r.shift) =
    ((Ownership.of m).containing line).map r.owner := by
  simp [Ownership.containing_of, h.owners, List.filter_map, Function.comp_def]

theorem startingOn : (Ownership.of m').startingOn (line + r.shift) =
    ((Ownership.of m).startingOn line).map r.owner := by
  have howners : (Ownership.of m').boundaries.owners = (Ownership.of m).boundaries.owners.map r.owner :=
    h.owners
  simp [Ownership.startingOn, howners, List.filter_map, Function.comp_def]

theorem innermost? : (Ownership.of m').innermost? (line + r.shift) =
    ((Ownership.of m).innermost? line).map r.rename := by
  simp only [Ownership.innermost?, h.containing, validAt_map, simpleOwner?_map, crowdedOwner?_map,
    ← Option.map_or, Option.map_map]
  rfl

theorem controlOwner? : (Ownership.of m').controlOwner? (line + r.shift) =
    ((Ownership.of m).controlOwner? line).map r.rename := by
  simp only [Ownership.controlOwner?, h.containing, validAt_map, bestBy_map r.earlier_owner, h.innermost?]
  cases bestBy Owner.earlier (validAt ((Ownership.of m).containing line) line) with
  | none => rfl
  | some outermost =>
    simp only [Option.map_some, List.any_map, List.filter_map, Function.comp_def, boundary_owner,
      Boundary.start_shift, Int.add_left_inj, startsInside_owner, encloses_owner,
      bestBy_map r.later_owner, bestBy_map r.earlier_owner, ← Option.map_or]
    split
    · rfl
    · generalize (bestBy Owner.later _).or (bestBy Owner.earlier _) = host
      cases host <;> rfl

theorem callbackOn? {key : Int} (hkey : (Ownership.of m).HasKey key) :
    (Ownership.of m').callbackOn? (line + r.shift) (some (r.rename key)) =
      ((Ownership.of m).callbackOn? line (some key)).map r.owner := by
  obtain ⟨g, hg, rfl⟩ := hkey
  have hsame : ∀ f ∈ validAt ((Ownership.of m).containing line) line,
      (r.rename f.key = r.rename g.key ↔ f.key = g.key) := by
    intro f hf
    have hmem := Ownership.mem_owners_of_mem_containing line
      (Ownership.mem_containing_of_mem_validAt hf)
    exact ⟨h.injective f hmem g hg, congrArg _⟩
  simp only [Ownership.callbackOn?, h.containing, validAt_map, List.filter_map, Function.comp_def,
    boundary_owner, Boundary.start_shift, Int.add_left_inj, key_owner, tightest?_map, ne_eq,
    Option.some.injEq]
  congr 2
  apply List.filter_congr
  intro f hf
  exact congrArg _ (decide_eq_decide.2 (not_congr (hsame f hf)))

theorem get? {key : Int} (hkey : (Ownership.of m).HasKey key) :
    m'.get? (r.rename key) = (m.get? key).map (·.shift r.shift) := by
  obtain ⟨f, hf, rfl⟩ := hkey
  have hf' : r.owner f ∈ m'.owners := h.owners ▸ List.mem_map_of_mem hf
  have hget : m.get? f.key = some f.boundary := Ownership.get?_of_mem_owners hf
  rw [hget, ← r.key_owner, Ownership.get?_of_mem_owners hf']
  rfl

theorem arrowOwner {key : Int} (hkey : (Ownership.of m).HasKey key) :
    (Ownership.of m').arrowOwner (line + r.shift) (r.rename key) =
      (r.rename ((Ownership.of m).arrowOwner line key).1,
        ((Ownership.of m).arrowOwner line key).2.map (·.shift r.shift)) := by
  simp only [Ownership.arrowOwner, h.startingOn, tightest?_map]
  cases tightest? ((Ownership.of m).startingOn line) with
  | none => exact congrArg _ (h.get? hkey)
  | some f => rfl

theorem expressionOwner (text : Line) (position default : Int) :
    expressionOwner (Ownership.of m') text (line + r.shift) position (r.rename default) =
      r.rename (BranchTally.expressionOwner (Ownership.of m) text line position default) := by
  have howners : (Ownership.of m').boundaries.owners = (Ownership.of m).boundaries.owners.map r.owner :=
    h.owners
  simp only [BranchTally.expressionOwner, h.startingOn, List.isEmpty_map, howners, List.filter_map,
    Function.comp_def, boundary_owner, Boundary.contains_shift, Boundary.start_shift, ne_eq,
    Int.add_left_inj, bestBy_map r.smaller_owner]
  generalize bestBy Owner.smaller _ = host
  split
  · rfl
  · cases callbackStart? text with
    | none => rfl
    | some start =>
      dsimp only
      split
      · rfl
      · cases host <;> rfl

/-- A relabelled map answers alike. -/
theorem answers : r.Answers m m' where
  injective := by
    rintro _ _ ⟨f, hf, rfl⟩ ⟨g, hg, rfl⟩
    exact h.injective f hf g hg
  zero := by
    rintro _ ⟨f, hf, rfl⟩
    exact h.zero f hf
  innermost := h.innermost?
  control := h.controlOwner?
  callback line key hkey := by
    rw [h.callbackOn? line hkey, Option.map_map]
    rfl
  expression := fun text line => h.expressionOwner line text
  arrow line _ hkey := h.arrowOwner line hkey
  range _ hkey := h.get? hkey

end Relabeling.Relabels

end BranchTally
