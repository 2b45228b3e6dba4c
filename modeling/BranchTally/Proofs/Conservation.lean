-- SUMMARY: The breakdowns of all functions share the points of a file between them, and every scored point adds one to exactly one of them.
import BranchTally.Breakdown
import BranchTally.Proofs.OperatorCount

/-!
# Conservation of points

Each point has one owner and each key of a map stands in it once, so the breakdowns of the functions
split the points of a file: what is summed over the functions, or over the kinds within one, is what is
counted over all points.
-/

namespace BranchTally

/-! ## Counting by parts -/

/-- Distinct keys split a count into the parts that `g` sends to each of them. -/
theorem sum_map_countP_of_nodup {α κ : Type} [DecidableEq κ] {ks : List κ} (h : ks.Nodup) (g : α → κ)
    (q : α → Bool) (l : List α) :
    (ks.map fun k => l.countP fun x => q x && g x = k).sum =
      l.countP fun x => q x && g x ∈ ks := by
  have hpart (x : α) : ks.countP (fun k => q x && g x = k) = if q x && g x ∈ ks then 1 else 0 := by
    cases hq : q x with
    | false => simp
    | true =>
      have hcount : ks.count (g x) = if g x ∈ ks then 1 else 0 := h.count
      have hsame : ks.countP (fun k => g x = k) = ks.count (g x) :=
        List.countP_congr fun k _ => by
          rw [decide_eq_true_eq, beq_iff_eq, eq_comm]
      simp only [Bool.true_and, hsame, hcount, decide_eq_true_eq]
  rw [sum_map_countP_comm]
  induction l with
  | nil => rfl
  | cons x l ih => rw [List.map_cons, List.sum_cons, ih, hpart, List.countP_cons, Nat.add_comm]

/-! ## One function -/

/-- The complexity of a function is one more than the number of its scored points. -/
theorem total_of_one (function : Int) (points : List Point) :
    (Breakdown.of function points 1).total = 1 + (points.countP fun p =>
      (p.kind ≠ .nullish && p.kind ≠ .optionalChain) && p.owner = function : Nat) := by
  have hcount (k : Kind) : (Breakdown.of function points 1).count k =
      points.countP fun p => decide (p.owner = function) && p.kind = k := by
    simp only [Breakdown.count, Breakdown.of, List.countP_filter, Bool.and_comm]
  have hnodup : scoredKinds.Nodup := by decide
  have hsum := sum_map_countP_of_nodup hnodup Point.kind (fun p => decide (p.owner = function)) points
  simp only [Breakdown.total, funext hcount]
  rw [← List.sum, hsum]
  simp [Breakdown.of, mem_scoredKinds, Bool.and_comm]

/-! ## All functions -/

/-- Every point of a file goes to the breakdown of exactly one function, and adds one to the sum of the
complexities unless it is a nullish coalescing or an optional chaining. -/
theorem breakdowns_conserve_points (source : List Char) (m : BoundaryMap) :
    let points := decisionPoints source m
    (m.keys.flatMap fun k => (Breakdown.of k points 1).points).Perm points ∧
      (m.keys.map fun k => (Breakdown.of k points 1).total - 1).sum =
        (points.countP fun p => p.kind ≠ .nullish && p.kind ≠ .optionalChain : Nat) := by
  intro points
  have howner : ∀ p ∈ points, p.owner ∈ m.keys := by
    intro p hp
    have hraw := mem_of_mem_distinctFrom ((decisionPoints_perm source m).subset hp)
    have hcontains := ((Ownership.of m).hasKey_iff_contains p.owner).1 (hasKey_of_mem_rawPoints hraw)
    obtain ⟨entry, hentry, hkey⟩ := List.any_eq_true.1 hcontains
    exact List.mem_map.2 ⟨entry, hentry, by simpa using hkey⟩
  have hparts (q : Point → Bool) :
      (m.keys.map fun k => points.countP fun p => q p && p.owner = k).sum = points.countP q := by
    have hnodup : m.keys.Nodup := m.nodup_keys
    rw [sum_map_countP_of_nodup hnodup Point.owner q points]
    exact List.countP_congr fun p hp => by simp [howner p hp]
  constructor
  · rw [List.perm_iff_count]
    intro p
    have hfilter : (List.count p ∘ fun k => (Breakdown.of k points 1).points) =
        fun k => points.countP fun x => (x == p) && x.owner = k := by
      funext k
      simp only [Function.comp_apply, Breakdown.of, List.count, List.countP_filter]
    rw [List.count_flatMap, hfilter]
    exact hparts fun x => x == p
  · have hone (k : Int) : (Breakdown.of k points 1).total - 1 = (points.countP fun p =>
        (p.kind ≠ .nullish && p.kind ≠ .optionalChain) && p.owner = k : Nat) := by
      rw [total_of_one]
      omega
    rw [List.map_congr_left fun k _ => hone k, ← hparts, Nat.cast_list_sum, List.map_map]
    rfl

end BranchTally
