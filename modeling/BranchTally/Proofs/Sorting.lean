-- SUMMARY: A stable sort commutes with leaving items out, and keeps items that compare equal in their order.
import Mathlib

/-!
# Stable sorting

Lists are sorted by a test that is transitive and total but may hold both ways for different items.
Sorting puts the head of a list in front of the first item that it may precede; where items are left out,
that place stays the same among the others.
-/

namespace BranchTally

variable {α : Type}

/-- A list is cut in one way only into items that pass a test and items behind them that fail it. -/
theorem cut_unique {p : α → Bool} {front back front' back' : List α}
    (hcut : front ++ back = front' ++ back') (hfront : ∀ b ∈ front, p b = true)
    (hback : ∀ b ∈ back, p b = false) (hfront' : ∀ b ∈ front', p b = true)
    (hback' : ∀ b ∈ back', p b = false) : front = front' ∧ back = back' := by
  have htake {front back : List α} (hfront : ∀ b ∈ front, p b = true)
      (hback : ∀ b ∈ back, p b = false) : (front ++ back).takeWhile p = front := by
    have hnil : back.takeWhile p = [] := by
      cases back with
      | nil => rfl
      | cons b back => rw [List.takeWhile_cons, hback b List.mem_cons_self, if_neg Bool.false_ne_true]
    rw [List.takeWhile_append_of_pos hfront, hnil, List.append_nil]
  have hsame := htake hfront hback
  rw [hcut, htake hfront' hback'] at hsame
  subst hsame
  exact ⟨rfl, List.append_cancel_left hcut⟩

section

variable {le : α → α → Bool} (trans : ∀ a b c, le a b = true → le b c = true → le a c = true)
  (total : ∀ a b, (le a b || le b a) = true)

include trans total

/-- Sorting puts the head of a list between the items that it may not precede and those that it may. -/
theorem exists_cut_mergeSort_cons (a : α) (l : List α) :
    ∃ front back, (a :: l).mergeSort le = front ++ a :: back ∧ l.mergeSort le = front ++ back ∧
      (∀ b ∈ front, (!le a b) = true) ∧ ∀ b ∈ back, (!le a b) = false := by
  obtain ⟨front, back, hcons, hsort, hfront⟩ := List.mergeSort_cons trans total a l
  have hsorted := List.pairwise_mergeSort trans total (a :: l)
  rw [hcons] at hsorted
  obtain ⟨-, hback, -⟩ := List.pairwise_append.1 hsorted
  refine ⟨front, back, hcons, hsort, hfront, fun b hb => ?_⟩
  rw [(List.pairwise_cons.1 hback).1 b hb, Bool.not_true]

/-- To leave items out of a sorted list is to sort the list without them. -/
theorem filter_mergeSort (q : α → Bool) (l : List α) :
    (l.mergeSort le).filter q = (l.filter q).mergeSort le := by
  induction l with
  | nil => simp
  | cons a l ih =>
    obtain ⟨front, back, hcons, hsort, hfront, hback⟩ := exists_cut_mergeSort_cons trans total a l
    rw [hsort, List.filter_append] at ih
    rw [hcons, List.filter_append]
    cases hq : q a with
    | false => rw [List.filter_cons_of_neg (by simp [hq]), List.filter_cons_of_neg (by simp [hq]), ih]
    | true =>
      rw [List.filter_cons_of_pos hq, List.filter_cons_of_pos hq]
      obtain ⟨front', back', hcons', hsort', hfront', hback'⟩ :=
        exists_cut_mergeSort_cons trans total a (l.filter q)
      obtain ⟨hfronts, hbacks⟩ := cut_unique (ih.trans hsort')
        (fun b hb => hfront b (List.mem_filter.1 hb).1) (fun b hb => hback b (List.mem_filter.1 hb).1)
        hfront' hback'
      rw [hcons', hfronts, hbacks]

/-- Items that may precede each other both ways keep their order. -/
theorem filter_mergeSort_of_ties {q : α → Bool} (h : ∀ a b, q a = true → q b = true → le a b = true)
    (l : List α) : (l.mergeSort le).filter q = l.filter q := by
  rw [filter_mergeSort trans total]
  apply List.mergeSort_of_pairwise
  apply List.pairwise_of_forall_mem_list
  exact fun a ha b hb => h a b (List.mem_filter.1 ha).2 (List.mem_filter.1 hb).2

end

/-! ## Sorted lists -/

/-- Lists that are sorted by a key and agree in the items of each key are equal. -/
theorem eq_of_pairwise_of_filter_eq {β : Type} [LinearOrder β] {key : α → β} {l l' : List α}
    (hl : l.Pairwise fun a b => key a ≤ key b) (hl' : l'.Pairwise fun a b => key a ≤ key b)
    (h : ∀ k, (l.filter fun a => key a = k) = l'.filter fun a => key a = k) : l = l' := by
  induction l generalizing l' with
  | nil =>
    refine (List.eq_nil_iff_forall_not_mem.2 fun b hb => ?_).symm
    simpa using (congrArg (b ∈ ·) (h (key b))).mpr (by simpa using hb)
  | cons a l ih =>
    have hmem (x : α) : x ∈ a :: l ↔ x ∈ l' := by
      simpa using congrArg (x ∈ ·) (h (key x))
    cases l' with
    | nil => exact absurd ((hmem a).1 List.mem_cons_self) List.not_mem_nil
    | cons b l' =>
      obtain ⟨ha, htail⟩ := List.pairwise_cons.1 hl
      obtain ⟨hb, htail'⟩ := List.pairwise_cons.1 hl'
      -- each head is an item of the other list, whose head has its least key
      have hle : key a ≤ key b := by
        rcases List.mem_cons.1 ((hmem b).2 List.mem_cons_self) with heq | hmem
        · rw [heq]
        · exact ha b hmem
      have hge : key b ≤ key a := by
        rcases List.mem_cons.1 ((hmem a).1 List.mem_cons_self) with heq | hmem
        · rw [heq]
        · exact hb a hmem
      have hheads := h (key a)
      rw [List.filter_cons_of_pos (by simp), List.filter_cons_of_pos (by simp [hge.antisymm hle])] at hheads
      obtain rfl := (List.cons.inj hheads).1
      refine congrArg (List.cons a) (ih htail htail' fun k => ?_)
      have hk := h k
      simp only [List.filter_cons] at hk
      split at hk
      · exact (List.cons.inj hk).2
      · exact hk

/-! ## Largest first -/

section

variable {β : Type} [LinearOrder β] (size : α → β)

theorem largestFirst_trans (a b c : α) (hab : decide (size b ≤ size a) = true)
    (hbc : decide (size c ≤ size b) = true) : decide (size c ≤ size a) = true := by
  rw [decide_eq_true_eq] at hab hbc ⊢
  exact hbc.trans hab

theorem largestFirst_total (a b : α) :
    (decide (size b ≤ size a) || decide (size a ≤ size b)) = true := by
  rw [Bool.or_eq_true, decide_eq_true_eq, decide_eq_true_eq]
  exact le_total _ _

/-- A list that has its items in an order keeps that order among items of one size. -/
theorem pairwise_mergeSort_largestFirst {R : α → α → Prop} {l : List α} (h : l.Pairwise R) :
    (l.mergeSort fun a b => decide (size b ≤ size a)).Pairwise fun a b =>
      size b < size a ∨ size b = size a ∧ R a b := by
  have hsorted := List.pairwise_mergeSort (largestFirst_trans size) (largestFirst_total size) l
  rw [List.pairwise_iff_forall_sublist] at h hsorted ⊢
  intro a b hab
  rcases (of_decide_eq_true (hsorted hab)).lt_or_eq with hlt | heq
  · exact .inl hlt
  -- Both items have the size of the first, and those of one size have not been moved past each other.
  have hties : ∀ x y, decide (size x = size a) = true → decide (size y = size a) = true →
      decide (size y ≤ size x) = true := by
    intro x y hx hy
    rw [decide_eq_true_eq] at hx hy ⊢
    exact (hy.trans hx.symm).le
  have hfilter := hab.filter fun x => decide (size x = size a)
  rw [filter_mergeSort_of_ties (largestFirst_trans size) (largestFirst_total size) hties,
    List.filter_eq_self.2 (by simp [heq])] at hfilter
  exact .inr ⟨heq, h (hfilter.trans List.filter_sublist)⟩

end

end BranchTally
