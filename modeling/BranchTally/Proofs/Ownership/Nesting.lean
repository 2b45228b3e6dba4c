-- SUMMARY: Maps whose ranges nest: the functions around a line form a stack, and the tightest of any part of it is its one smallest.
import BranchTally.Proofs.Ownership

/-!
# Nested ranges

Functions nest in their source text, so the ranges of a map should too: any two of them are disjoint,
or one lies in the other. Then the functions around a line form a stack in which each is smaller than
all that it lies in, and a part of the stack has exactly one smallest function.
-/

namespace BranchTally

/-! ## The first of the best -/

section

variable {α β : Type} [LinearOrder β] {beats : α → α → Bool} {score : α → β}

/-- Where an order of scores decides, the choice is the first one with the least score. -/
theorem bestBy_eq_find? (hscore : ∀ x y, beats x y = true ↔ score x < score y) (l : List α) :
    bestBy beats l = l.find? fun x => l.all fun y => score x ≤ score y := by
  -- what is chosen from `first` on: `first` itself, or something better behind worse elements
  have hfold : ∀ (rest : List α) (first : α) (x : α),
      rest.foldl (fun best x => if beats x best then x else best) first = x →
        (x = first ∧ ∀ y ∈ rest, score x ≤ score y) ∨
        ∃ front back, rest = front ++ x :: back ∧ score x < score first ∧
          (∀ y ∈ front, score x < score y) ∧ ∀ y ∈ back, score x ≤ score y := by
    intro rest
    induction rest with
    | nil =>
      intro first x hx
      exact Or.inl ⟨hx.symm, by simp⟩
    | cons z rest ih =>
      intro first x hx
      rw [List.foldl_cons] at hx
      by_cases hz : beats z first = true
      · rw [if_pos hz] at hx
        have hlt := (hscore z first).1 hz
        rcases ih z x hx with ⟨rfl, hrest⟩ | ⟨front, back, rfl, hxz, hfront, hback⟩
        · exact Or.inr ⟨[], rest, rfl, hlt, by simp, hrest⟩
        · exact Or.inr ⟨z :: front, back, rfl, hxz.trans hlt,
            List.forall_mem_cons.2 ⟨hxz, hfront⟩, hback⟩
      · rw [if_neg hz] at hx
        have hle : score first ≤ score z := not_lt.1 fun h => hz ((hscore z first).2 h)
        rcases ih first x hx with ⟨rfl, hrest⟩ | ⟨front, back, rfl, hxf, hfront, hback⟩
        · exact Or.inl ⟨rfl, List.forall_mem_cons.2 ⟨hle, hrest⟩⟩
        · exact Or.inr ⟨z :: front, back, rfl, hxf,
            List.forall_mem_cons.2 ⟨hxf.trans_le hle, hfront⟩, hback⟩
  cases l with
  | nil => rfl
  | cons first rest =>
    rw [bestBy, eq_comm, List.find?_eq_some_iff_append]
    rcases hfold rest first _ rfl with ⟨heq, hrest⟩ | ⟨front, back, heq, hlt, hfront, hback⟩
    · rw [heq] at hrest ⊢
      exact ⟨by simpa using hrest, [], rest, rfl, by simp⟩
    · generalize rest.foldl _ first = x at heq hlt hfront hback ⊢
      subst heq
      refine ⟨?_, first :: front, back, rfl, ?_⟩
      · simp only [List.all_cons, List.all_append, Bool.and_eq_true, decide_eq_true_eq, List.all_eq_true]
        exact ⟨hlt.le, fun y hy => (hfront y hy).le, le_refl _, hback⟩
      · intro y hy
        have hxy : score x < score y := by
          rcases List.mem_cons.1 hy with rfl | hy
          · exact hlt
          · exact hfront y hy
        simp only [Bool.not_eq_true', List.all_eq_false]
        exact ⟨x, by simp, by simpa using hxy⟩

theorem exists_bestBy (beats : α → α → Bool) {l : List α} (h : l ≠ []) : ∃ x, bestBy beats l = some x :=
  Option.ne_none_iff_exists'.1 (mt (bestBy_eq_none_iff beats l).1 h)

theorem le_of_bestBy (hscore : ∀ x y, beats x y = true ↔ score x < score y) {l : List α} {x : α}
    (h : bestBy beats l = some x) : ∀ y ∈ l, score x ≤ score y := by
  rw [bestBy_eq_find? hscore] at h
  simpa using List.find?_some h

end

/-! ## Ranges -/

namespace Boundary

/-- The range lies in another one. -/
def Within (a b : Boundary) : Prop := b.start ≤ a.start ∧ a.stop ≤ b.stop

/-- The two ranges have no line in common. -/
def Apart (a b : Boundary) : Prop := a.stop < b.start ∨ b.stop < a.start

instance (a b : Boundary) : Decidable (a.Within b) := inferInstanceAs (Decidable (_ ∧ _))

instance (a b : Boundary) : Decidable (a.Apart b) := inferInstanceAs (Decidable (_ ∨ _))

@[simp] theorem contains_iff {b : Boundary} {line : Int} :
    b.contains line = true ↔ b.start ≤ line ∧ line ≤ b.stop := by
  simp [contains]

theorem Within.size_lt {a b : Boundary} (h : a.Within b) (hne : a ≠ b) : a.size < b.size := by
  obtain ⟨start, stop, _⟩ := a
  obtain ⟨start', stop', _⟩ := b
  simp only [Within, ne_eq, Boundary.mk.injEq, size] at h hne ⊢
  omega

end Boundary

/-- The ranges of the functions are distinct, and any two are disjoint or one lies in the other. -/
structure BoundaryMap.Nests (m : BoundaryMap) : Prop where
  distinct : ∀ f ∈ m.owners, ∀ g ∈ m.owners, f.boundary = g.boundary → f = g
  apart_or_within : ∀ f ∈ m.owners, ∀ g ∈ m.owners,
    f.boundary.Apart g.boundary ∨ f.boundary.Within g.boundary ∨ g.boundary.Within f.boundary

/-- The functions of the map that hold a line. -/
def BoundaryMap.around (m : BoundaryMap) (line : Int) : List Owner :=
  m.owners.filter fun f => f.boundary.contains line

theorem BoundaryMap.mem_around {m : BoundaryMap} {line : Int} {f : Owner} :
    f ∈ m.around line ↔ f ∈ m.owners ∧ f.boundary.contains line = true :=
  List.mem_filter

theorem BoundaryMap.find?_around (m : BoundaryMap) (line : Int) (p : Owner → Bool) :
    (m.around line).find? p = m.owners.find? fun f => f.boundary.contains line && p f := by
  simp only [around, List.find?_filter, Bool.decide_and, Bool.decide_eq_true]

theorem BoundaryMap.key_injOn (m : BoundaryMap) {f g : Owner} (hf : f ∈ m.owners)
    (hg : g ∈ m.owners) (h : f.key = g.key) : f = g := by
  obtain ⟨x, hx, rfl⟩ := List.mem_map.1 hf
  obtain ⟨y, hy, rfl⟩ := List.mem_map.1 hg
  obtain rfl : x = y := List.inj_on_of_nodup_map m.nodup_keys hx hy h
  rfl

/-! ## Stacks -/

namespace Owner

/-- The function is the one smallest of a list. -/
def IsSmallestIn (f : Owner) (l : List Owner) : Prop :=
  f ∈ l ∧ ∀ g ∈ l, g ≠ f → f.boundary.size < g.boundary.size

instance (f : Owner) (l : List Owner) : Decidable (f.IsSmallestIn l) :=
  inferInstanceAs (Decidable (_ ∧ _))

theorem IsSmallestIn.unique {f g : Owner} {l : List Owner} (hf : f.IsSmallestIn l)
    (hg : g.IsSmallestIn l) : f = g := by
  by_contra hne
  have hfg := hf.2 g hg.1 (Ne.symm hne)
  have hgf := hg.2 f hf.1 hne
  omega

theorem IsSmallestIn.of_filter {f : Owner} {l : List Owner} {p : Owner → Bool}
    (h : f.IsSmallestIn l) (hp : p f = true) : f.IsSmallestIn (l.filter p) :=
  ⟨List.mem_filter.2 ⟨h.1, hp⟩, fun g hg => h.2 g (List.mem_filter.1 hg).1⟩

theorem earlier_iff (f g : Owner) : f.earlier g = true ↔ f.boundary.start < g.boundary.start :=
  decide_eq_true_iff

theorem later_iff (f g : Owner) : f.later g = true ↔ -f.boundary.start < -g.boundary.start := by
  rw [later, decide_eq_true_iff, neg_lt_neg_iff]

theorem smaller_iff (f g : Owner) : f.smaller g = true ↔ f.boundary.size < g.boundary.size :=
  decide_eq_true_iff

/-- The size decides between functions, and of equal sizes the later start. -/
def rank (f : Owner) : Lex (Int × Int) := toLex (f.boundary.size, -f.boundary.start)

theorem tighter_iff (f g : Owner) : f.tighter g = true ↔ f.rank < g.rank := by
  simp [tighter, rank, Prod.Lex.toLex_lt_toLex]

theorem size_lt_of_rank_lt {f g : Owner} (hstart : f.boundary.start = g.boundary.start)
    (h : f.rank < g.rank) : f.boundary.size < g.boundary.size := by
  rw [rank, rank, Prod.Lex.toLex_lt_toLex] at h
  omega

theorem size_le_of_rank_le {f g : Owner} (h : f.rank ≤ g.rank) : f.boundary.size ≤ g.boundary.size := by
  rw [rank, rank, Prod.Lex.toLex_le_toLex] at h
  omega

end Owner

/-- The functions hold a line and lie in each other. -/
structure IsStack (line : Int) (l : List Owner) : Prop where
  holds : ∀ f ∈ l, f.boundary.contains line = true
  nested : ∀ f ∈ l, ∀ g ∈ l, f.boundary.Within g.boundary ∨ g.boundary.Within f.boundary
  distinct : ∀ f ∈ l, ∀ g ∈ l, f.boundary = g.boundary → f = g

theorem BoundaryMap.Nests.isStack_around {m : BoundaryMap} (hm : m.Nests) (line : Int) :
    IsStack line (m.around line) := by
  refine ⟨fun f hf => (BoundaryMap.mem_around.1 hf).2, ?_, ?_⟩
  · intro f hf g hg
    obtain ⟨hf, hfline⟩ := BoundaryMap.mem_around.1 hf
    obtain ⟨hg, hgline⟩ := BoundaryMap.mem_around.1 hg
    rcases hm.apart_or_within f hf g hg with h | h
    · simp only [Boundary.contains_iff] at hfline hgline
      simp only [Boundary.Apart] at h
      omega
    · exact h
  · intro f hf g hg
    exact hm.distinct f (BoundaryMap.mem_around.1 hf).1 g (BoundaryMap.mem_around.1 hg).1

namespace IsStack

variable {line : Int} {l : List Owner}

theorem filter (hl : IsStack line l) (p : Owner → Bool) : IsStack line (l.filter p) where
  holds f hf := hl.holds f (List.mem_filter.1 hf).1
  nested f hf g hg := hl.nested f (List.mem_filter.1 hf).1 g (List.mem_filter.1 hg).1
  distinct f hf g hg := hl.distinct f (List.mem_filter.1 hf).1 g (List.mem_filter.1 hg).1

theorem size_lt_of_within (hl : IsStack line l) {f g : Owner} (hf : f ∈ l) (hg : g ∈ l)
    (hne : g ≠ f) (h : f.boundary.Within g.boundary) : f.boundary.size < g.boundary.size :=
  h.size_lt fun heq => hne (hl.distinct f hf g hg heq).symm

/-- Of two functions of a stack the smaller one lies in the other. -/
theorem within_of_size_le (hl : IsStack line l) {f g : Owner} (hf : f ∈ l) (hg : g ∈ l)
    (h : f.boundary.size ≤ g.boundary.size) : f.boundary.Within g.boundary := by
  rcases hl.nested f hf g hg with hfg | hgf
  · exact hfg
  · by_cases heq : g = f
    · exact heq ▸ hgf
    · exact absurd (hl.size_lt_of_within hg hf (Ne.symm heq) hgf) (not_lt.2 h)

theorem within_of_isSmallestIn (hl : IsStack line l) {f g : Owner} (hf : f.IsSmallestIn l)
    (hg : g ∈ l) : f.boundary.Within g.boundary := by
  apply hl.within_of_size_le hf.1 hg
  by_cases heq : g = f
  · rw [heq]
  · exact (hf.2 g hg heq).le

/-- The tightest function of a stack is its smallest: no two have one size. -/
theorem isSmallestIn_of_tightest? (hl : IsStack line l) {f : Owner} (h : tightest? l = some f) :
    f.IsSmallestIn l := by
  have hmem := mem_of_tightest? h
  refine ⟨hmem, fun g hg hne => ?_⟩
  have hle := Owner.size_le_of_rank_le (le_of_bestBy Owner.tighter_iff h g hg)
  exact hl.size_lt_of_within hmem hg hne (hl.within_of_size_le hmem hg hle)

theorem tightest?_eq_some_iff (hl : IsStack line l) (f : Owner) :
    tightest? l = some f ↔ f.IsSmallestIn l := by
  refine ⟨hl.isSmallestIn_of_tightest?, fun hf => ?_⟩
  cases h : tightest? l with
  | none =>
    rw [tightest?_eq_none_iff] at h
    simp [h, Owner.IsSmallestIn] at hf
  | some g => rw [(hl.isSmallestIn_of_tightest? h).unique hf]

end IsStack

/-! ## Preferences -/

/-- Those of the functions that pass a test, or all of them where none does. -/
def preferred (p : Owner → Bool) (l : List Owner) : List Owner :=
  if (l.filter p).isEmpty then l else l.filter p

theorem preferred_eq_nil_iff {p : Owner → Bool} {l : List Owner} : preferred p l = [] ↔ l = [] := by
  unfold preferred
  split
  · exact Iff.rfl
  · next h =>
    constructor
    · intro hnone
      simp [hnone] at h
    · rintro rfl
      rfl

theorem preferred_of_forall {p : Owner → Bool} {l : List Owner} (h : ∀ f ∈ l, p f = true) :
    preferred p l = l := by
  rw [preferred, List.filter_eq_self.2 h, ite_self]

theorem preferred_of_forall_not {p : Owner → Bool} {l : List Owner} (h : ∀ f ∈ l, p f = false) :
    preferred p l = l := by
  have hnone : l.filter p = [] := List.filter_eq_nil_iff.2 fun f hf => by simp [h f hf]
  rw [preferred, hnone, if_pos List.isEmpty_nil]

theorem preferred_of_mem {p : Owner → Bool} {l : List Owner} {f : Owner} (hf : f ∈ l)
    (hp : p f = true) : preferred p l = l.filter p := by
  have hmem : f ∈ l.filter p := List.mem_filter.2 ⟨hf, hp⟩
  rw [preferred, if_neg]
  exact fun h => by simp [List.isEmpty_iff.1 h] at hmem

theorem IsStack.isStack_preferred {line : Int} {l : List Owner} (hl : IsStack line l) (p : Owner → Bool) :
    IsStack line (preferred p l) := by
  unfold preferred
  split
  · exact hl
  · exact hl.filter p

/-- The smallest function of all is the smallest of those that are preferred, if it is one of them. -/
theorem Owner.IsSmallestIn.in_preferred {f : Owner} {l : List Owner} {p : Owner → Bool}
    (h : f.IsSmallestIn l) (hp : p f = true) : f.IsSmallestIn (preferred p l) := by
  rw [preferred_of_mem h.1 hp]
  exact h.of_filter hp

end BranchTally
