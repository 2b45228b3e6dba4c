-- SUMMARY: The constructs that are counted fall into families, and what a line with `for` is counted as is always a control structure.
import Mathlib
import BranchTally.Scan

/-!
# Families of constructs

Every construct that is counted belongs to a family. The two operators of short circuits are one of them,
and the three loops with `for` are in that of the control structures.
-/

namespace BranchTally

/-- The families of the constructs that are counted. -/
inductive Family where
  | control
  | conditional
  | chaining
  | shortCircuit
  | default
  deriving DecidableEq

/-- The family of a kind. -/
def Kind.family : Kind → Family
  | .ifBranch | .elseIf | .forLoop | .forOf | .forIn | .whileLoop | .doWhile | .switchBranch
  | .caseClause | .catchClause => .control
  | .ternary | .nullish => .conditional
  | .optionalChain => .chaining
  | .conj | .disj => .shortCircuit
  | .defaultParameter => .default

theorem Logical.family_kind (op : Logical) : op.kind.family = .shortCircuit := by
  cases op <;> rfl

theorem Logical.kind_eq (op : Logical) : op.kind = .conj ∨ op.kind = .disj := by
  cases op <;> simp [kind]

theorem Kind.ne_of_family_ne {kind other : Kind} (h : kind.family ≠ other.family) : kind ≠ other :=
  fun heq => h (congrArg family heq)

theorem filter_kind_eq_nil {points : List Point} {kind : Kind}
    (h : ∀ p ∈ points, p.kind.family ≠ kind.family) :
    points.filter (fun p => p.kind = kind) = [] := by
  rw [List.filter_eq_nil_iff]
  intro p hp
  rw [decide_eq_true_eq]
  exact Kind.ne_of_family_ne (h p hp)

/-! ## Loops with `for` -/

theorem eachWord?_cases {s : List Char} {kind : Kind} (h : eachWord? s = some kind) :
    kind = .forOf ∨ kind = .forIn := by
  have hat (s : List Char) (h : eachWordAt? s = some kind) : kind = .forOf ∨ kind = .forIn := by
    unfold eachWordAt? at h
    split at h
    · simp at h
    · split at h
      · exact Or.inl (Option.some.inj h).symm
      · split at h
        · exact Or.inr (Option.some.inj h).symm
        · simp at h
  induction s with
  | nil => simp [eachWord?] at h
  | cons c rest ih =>
    simp only [eachWord?] at h
    split at h
    · simp at h
    · rcases Option.or_eq_some_iff.1 h with h | ⟨-, h⟩
      · exact hat rest h
      · exact ih h

theorem forKind_cases (line : Line) :
    (Headers.of line).forKind = .forLoop ∨ (Headers.of line).forKind = .forOf ∨
      (Headers.of line).forKind = .forIn := by
  have hof (header : List Char) : forKindOf header = .forLoop ∨ forKindOf header = .forOf ∨
      forKindOf header = .forIn := by
    unfold forKindOf
    split
    · exact Or.inl rfl
    · dsimp only
      cases hfound : List.findSome? eachWord? _ with
      | none => exact Or.inl rfl
      | some kind =>
        obtain ⟨s, -, hs⟩ := List.exists_of_findSome?_eq_some hfound
        exact Or.inr (eachWord?_cases hs)
  simp only [Headers.of]
  cases header? forForm (fun _ => false) (LiveMap.of line) line with
  | none => exact Or.inl rfl
  | some h =>
    simp only [Option.map_some, Option.getD_some, forKind]
    split
    · exact hof _
    · exact Or.inl rfl

theorem family_forKind (line : Line) : (Headers.of line).forKind.family = .control := by
  rcases forKind_cases line with h | h | h <;> rw [h] <;> rfl

end BranchTally
