-- SUMMARY: The search for a closing parenthesis finds the first `)` with which the balance of the cells comes down to zero, and up to there it stays above.
import Mathlib
import BranchTally.Line.Header

/-!
# The balance of parentheses

The search carries the number of parentheses that are open. Here it is said without the search: a `)` closes
the last open one where the balance of all cells up to it is zero. The balance changes by one at a time, so the
first such `)` is also the first place where nothing is open.
-/

namespace BranchTally

variable {cells : List (Char × Bool)} {cell : Char × Bool} {depth : Int} {n : Nat}

/-! ## The balance -/

/-- How many more parentheses open than close in some cells; string content does not count. -/
def parenBalance (cells : List (Char × Bool)) : Int :=
  cells.count ('(', false) - cells.count (')', false)

theorem parenBalance_append (front back : List (Char × Bool)) :
    parenBalance (front ++ back) = parenBalance front + parenBalance back := by
  simp only [parenBalance, List.count_append]
  omega

theorem parenBalance_singleton (cell : Char × Bool) :
    parenBalance [cell] = if cell = ('(', false) then 1 else if cell = (')', false) then -1 else 0 := by
  simp only [parenBalance, List.count_singleton, beq_iff_eq]
  split_ifs <;> simp_all

/-! ## The search -/

/-- The search ends with the `)` of the only open parenthesis, and else goes on with the new balance. -/
theorem closingParenFrom_cons (depth : Int) (pos : Nat) (cell : Char × Bool) (cells : List (Char × Bool)) :
    closingParenFrom depth pos (cell :: cells) =
      if cell = (')', false) ∧ depth = 1 then some pos
      else closingParenFrom (depth + parenBalance [cell]) (pos + 1) cells := by
  obtain ⟨c, masked⟩ := cell
  cases masked with
  | true => simp [closingParenFrom, parenBalance]
  | false =>
    rw [parenBalance_singleton]
    simp only [closingParenFrom, Prod.mk.injEq, and_true]
    split_ifs <;> simp_all [sub_eq_add_neg]

theorem closingParenFrom_add (depth : Int) (pos shift : Nat) (cells : List (Char × Bool)) :
    closingParenFrom depth (pos + shift) cells =
      (closingParenFrom depth pos cells).map fun closing => closing + shift := by
  induction cells generalizing depth pos with
  | nil => rfl
  | cons cell cells ih =>
    rw [closingParenFrom_cons, closingParenFrom_cons]
    split
    · rfl
    · rw [Nat.add_right_comm, ih]

/-- Where `depth` parentheses are open in front of the cells, the `)` at `n` closes the last of them. -/
def ClosesLast (depth : Int) (cells : List (Char × Bool)) (n : Nat) : Prop :=
  cells[n]? = some (')', false) ∧ depth + parenBalance (cells.take (n + 1)) = 0

theorem closesLast_cons_zero : ClosesLast depth (cell :: cells) 0 ↔ cell = (')', false) ∧ depth = 1 := by
  rw [ClosesLast, List.getElem?_cons_zero, Option.some.injEq]
  refine and_congr_right ?_
  rintro rfl
  rw [List.take_succ_cons, List.take_zero, show parenBalance [(')', false)] = -1 from rfl]
  omega

theorem closesLast_cons_succ :
    ClosesLast depth (cell :: cells) (n + 1) ↔ ClosesLast (depth + parenBalance [cell]) cells n := by
  rw [ClosesLast, ClosesLast, List.getElem?_cons_succ, List.take_succ_cons, ← List.singleton_append,
    parenBalance_append, add_assoc]

/-- The search finds the first `)` that closes the last open parenthesis. -/
theorem closingParenFrom_eq_some_iff {pos closing : Nat} :
    closingParenFrom depth pos cells = some closing ↔
      ∃ n, closing = pos + n ∧ ClosesLast depth cells n ∧ ∀ k < n, ¬ ClosesLast depth cells k := by
  induction cells generalizing depth pos with
  | nil => simp [closingParenFrom, ClosesLast]
  | cons cell cells ih =>
    have hzero : ClosesLast depth (cell :: cells) 0 ↔ cell = (')', false) ∧ depth = 1 :=
      closesLast_cons_zero
    rw [closingParenFrom_cons]
    by_cases hhere : cell = (')', false) ∧ depth = 1
    · rw [if_pos hhere, Option.some.injEq]
      constructor
      · rintro rfl
        exact ⟨0, rfl, hzero.2 hhere, fun k hk => absurd hk (Nat.not_lt_zero k)⟩
      · rintro ⟨n, rfl, -, hfirst⟩
        obtain rfl : n = 0 := Nat.eq_zero_of_not_pos fun hpos => hfirst 0 hpos (hzero.2 hhere)
        rfl
    · rw [if_neg hhere, ih]
      constructor
      · rintro ⟨n, rfl, hcloses, hfirst⟩
        refine ⟨n + 1, by omega, closesLast_cons_succ.2 hcloses, fun k hk => ?_⟩
        cases k with
        | zero => exact mt hzero.1 hhere
        | succ k => exact mt closesLast_cons_succ.1 (hfirst k (Nat.lt_of_succ_lt_succ hk))
      · rintro ⟨n, rfl, hcloses, hfirst⟩
        cases n with
        | zero => exact absurd (hzero.1 hcloses) hhere
        | succ n =>
          exact ⟨n, by omega, closesLast_cons_succ.1 hcloses, fun k hk =>
            mt closesLast_cons_succ.2 (hfirst (k + 1) (Nat.succ_lt_succ hk))⟩

/-- The balance falls by one at a time, so something stays open as long as nothing closes the last. -/
theorem balance_take_pos (hdepth : 0 < depth) (h : ∀ k < n, ¬ ClosesLast depth cells k) :
    0 < depth + parenBalance (cells.take n) := by
  induction n with
  | zero => simpa [parenBalance] using hdepth
  | succ n ih =>
    have hopen := ih fun k hk => h k (Nat.lt_succ_of_lt hk)
    have hlast := h n (Nat.lt_succ_self n)
    rw [ClosesLast, List.take_add_one] at hlast
    rw [List.take_add_one]
    cases hcell : cells[n]? with
    | none => simpa using hopen
    | some cell =>
      rw [hcell, Option.toList_some, parenBalance_append, Option.some.injEq] at hlast
      rw [Option.toList_some, parenBalance_append]
      by_cases hclose : cell = (')', false)
      · subst hclose
        rw [show parenBalance [(')', false)] = -1 from rfl] at hlast ⊢
        have := not_and.1 hlast rfl
        omega
      · have hstep : 0 ≤ parenBalance [cell] := by
          rw [parenBalance_singleton, if_neg hclose]
          split_ifs <;> decide
        omega

end BranchTally
