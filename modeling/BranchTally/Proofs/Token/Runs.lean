-- SUMMARY: The live positions of a doubled character are the even places of its live runs, and a run is live as a whole or not at all.
import Mathlib
import BranchTally.Proofs.CommentSpans
import BranchTally.Proofs.Token

/-!
# Runs of a character

The tokens `&&`, `||` and `??` are one character twice. The search for such a token begins anew at every
run of the character, so it takes the places at even distance from the start of the run, up to the last
that has a second character. Neither a literal nor a comment begins or ends inside a run.
-/

namespace BranchTally

/-! ## Runs -/

/-- A run of `c` on the line, from `start` on: neither neighbour of it is `c`. -/
def IsRun (line : Line) (c : Char) (start length : Nat) : Prop :=
  0 < length ∧ ∃ front back, line = front ++ (List.replicate length c ++ back) ∧
    front.length = start ∧ front.getLast? ≠ some c ∧ back.head? ≠ some c

/-- The characters from `start` on are live, or dead, throughout. -/
def IsThroughout (line : Line) (start length : Nat) (live : Bool) : Prop :=
  ∀ i, start ≤ i → i < start + length → (LiveMap.of line).isLive i = live

theorem IsRun.getElem? {line : Line} {c : Char} {start length i : Nat}
    (h : IsRun line c start length) (hstart : start ≤ i) (hstop : i < start + length) :
    (line)[i]? = some c := by
  obtain ⟨-, front, back, rfl, rfl, -, -⟩ := h
  rw [List.getElem?_append_right hstart, List.getElem?_append_left (by rw [List.length_replicate]; omega),
    List.getElem?_replicate_of_lt (by omega)]

theorem exists_replicate_append (c : Char) (text : Line) :
    ∃ n back, text = List.replicate n c ++ back ∧ back.head? ≠ some c := by
  induction text with
  | nil => exact ⟨0, [], rfl, by simp⟩
  | cons d text ih =>
    by_cases hd : d = c
    · obtain ⟨n, back, rfl, hback⟩ := ih
      exact ⟨n + 1, back, by rw [hd, List.replicate_succ, List.cons_append], hback⟩
    · exact ⟨0, d :: text, rfl, by simpa using hd⟩

theorem exists_append_replicate (c : Char) (text : Line) :
    ∃ front n, text = front ++ List.replicate n c ∧ front.getLast? ≠ some c := by
  induction text using List.reverseRecOn with
  | nil => exact ⟨[], 0, rfl, by simp⟩
  | append_singleton text d ih =>
    by_cases hd : d = c
    · obtain ⟨front, n, rfl, hfront⟩ := ih
      exact ⟨front, n + 1, by rw [hd, List.append_assoc, ← List.replicate_succ'], hfront⟩
    · exact ⟨text ++ [d], 0, by simp, by simpa using hd⟩

/-- Every character of a line lies in a run. -/
theorem exists_isRun {line : Line} {c : Char} {i : Nat} (hi : (line)[i]? = some c) :
    ∃ start length, IsRun line c start length ∧ start ≤ i ∧ i < start + length := by
  obtain ⟨hlt, rfl⟩ := List.getElem?_eq_some_iff.1 hi
  obtain ⟨front, before, hbefore, hfront⟩ := exists_append_replicate (line)[i] (line.take i)
  obtain ⟨behind, back, hbehind, hback⟩ := exists_replicate_append (line)[i] (line.drop (i + 1))
  have hlength := congrArg List.length hbefore
  rw [List.length_take_of_le (Nat.le_of_lt hlt), List.length_append, List.length_replicate] at hlength
  have hline : line = front ++ (List.replicate (before + (behind + 1)) (line)[i] ++ back) := by
    conv => lhs; rw [← List.take_append_drop i line, List.drop_eq_getElem_cons hlt, hbefore, hbehind]
    simp [List.replicate_add, List.replicate_succ]
  exact ⟨front.length, before + (behind + 1), ⟨by omega, front, back, hline, rfl, hfront, hback⟩,
    by omega, by omega⟩

/-! ## Occurrences -/

theorem pairwise_occurrencesFrom (token : List Char) (skip pos : Nat) (text : Line) :
    (occurrencesFrom token skip pos text).Pairwise (· < ·) := by
  induction text generalizing skip pos with
  | nil => cases skip <;> exact List.Pairwise.nil
  | cons c rest ih =>
    cases skip with
    | succ skip => exact ih skip (pos + 1)
    | zero =>
      simp only [occurrencesFrom]
      split
      · exact List.pairwise_cons.2 ⟨fun i hi => (bounds_of_mem_occurrencesFrom hi).1, ih _ _⟩
      · exact ih 0 (pos + 1)

/-- The search for a doubled character is cut in two wherever the character does not stand on both
sides. -/
theorem occurrencesFrom_pair_append {c : Char} {front back : Line}
    (h : front.getLast? = some c → back.head? ≠ some c) {skip : Nat} (hskip : skip ≤ front.length)
    (pos : Nat) :
    occurrencesFrom [c, c] skip pos (front ++ back) =
      occurrencesFrom [c, c] skip pos front ++
        occurrencesFrom [c, c] 0 (pos + front.length) back := by
  induction front generalizing skip pos with
  | nil =>
    obtain rfl := Nat.eq_zero_of_le_zero hskip
    rfl
  | cons d front ih =>
    have hrest : front.getLast? = some c → back.head? ≠ some c := by
      intro hlast
      cases front with
      | nil => simp at hlast
      | cons e front => exact h (by rwa [List.getLast?_cons_cons])
    rw [List.length_cons] at hskip ⊢
    have hpos : pos + (front.length + 1) = pos + 1 + front.length := by omega
    rw [hpos, List.cons_append]
    cases skip with
    | succ skip => exact ih hrest (Nat.le_of_succ_le_succ hskip) (pos + 1)
    | zero =>
      have hprefix : [c, c].isPrefixOf (d :: (front ++ back)) = [c, c].isPrefixOf (d :: front) := by
        cases front with
        | cons e front => simp [List.isPrefixOf]
        | nil =>
          cases back with
          | nil => rfl
          | cons e back =>
            have hpair : d = c → e ≠ c := by simpa using h
            by_cases hd : d = c
            · simp [List.isPrefixOf, Ne.symm (hpair hd)]
            · simp [List.isPrefixOf, Ne.symm hd]
      simp only [occurrencesFrom, hprefix]
      split
      · next htoken =>
        have hlength := length_le_of_isPrefixOf htoken
        simp only [List.length_cons, List.length_nil] at hlength
        rw [ih hrest (by simpa using hlength) (pos + 1)]
        rfl
      · exact ih hrest (Nat.zero_le _) (pos + 1)

/-- In a run the tokens are the places at even distance from its start. -/
theorem mem_occurrencesFrom_replicate {c : Char} {length pos i : Nat} :
    i ∈ occurrencesFrom [c, c] 0 pos (List.replicate length c) ↔
      ∃ j, i = pos + 2 * j ∧ i + 2 ≤ pos + length := by
  induction length using Nat.twoStepInduction generalizing pos with
  | zero =>
    simp only [List.replicate_zero, occurrencesFrom, List.not_mem_nil, false_iff]
    rintro ⟨j, rfl, hstop⟩
    omega
  | one =>
    simp only [List.replicate_one, occurrencesFrom, List.isPrefixOf, Bool.and_false,
      Bool.false_eq_true, if_false, List.not_mem_nil, false_iff]
    rintro ⟨j, rfl, hstop⟩
    omega
  | more length ih _ =>
    have hstep : occurrencesFrom [c, c] 0 pos (List.replicate (length + 2) c) =
        pos :: occurrencesFrom [c, c] 0 (pos + 2) (List.replicate length c) := by
      simp [List.replicate_succ, occurrencesFrom, List.isPrefixOf]
    rw [hstep, List.mem_cons, ih]
    constructor
    · rintro (rfl | ⟨j, rfl, hstop⟩)
      · exact ⟨0, rfl, by omega⟩
      · exact ⟨j + 1, by omega, by omega⟩
    · rintro ⟨j, rfl, hstop⟩
      cases j with
      | zero => exact Or.inl rfl
      | succ j => exact Or.inr ⟨j, by omega, by omega⟩

theorem mem_occurrencesFrom_iff_of_isRun {line : Line} {c : Char} {start length : Nat}
    (h : IsRun line c start length) {i : Nat} (hstart : start ≤ i) (hstop : i < start + length) :
    i ∈ occurrencesFrom [c, c] 0 0 line ↔ ∃ j, i = start + 2 * j ∧ i + 2 ≤ start + length := by
  obtain ⟨hpos, front, back, rfl, rfl, hfront, hback⟩ := h
  have hrun : (List.replicate length c ++ back).head? = some c := by
    obtain ⟨n, rfl⟩ := Nat.exists_eq_succ_of_ne_zero (Nat.ne_of_gt hpos)
    rfl
  rw [occurrencesFrom_pair_append (fun hlast => absurd hlast hfront) (Nat.zero_le _),
    occurrencesFrom_pair_append (fun _ => hback) (Nat.zero_le _), List.mem_append, List.mem_append,
    Nat.zero_add, List.length_replicate, mem_occurrencesFrom_replicate]
  constructor
  · rintro (hi | hi | hi)
    · have := bounds_of_mem_occurrencesFrom hi
      omega
    · exact hi
    · have := bounds_of_mem_occurrencesFrom hi
      omega
  · exact fun hi => Or.inr (Or.inl hi)

/-- A window that does not begin inside a run has the tokens of the line from its start on. -/
theorem mem_occurrencesFrom_drop {line : Line} {c : Char} {start : Nat}
    (hstart : ∀ i, i + 1 = start → (line)[i]? = some c → (line)[start]? ≠ some c) {i : Nat} :
    i ∈ occurrencesFrom [c, c] 0 start (line.drop start) ↔
      i ∈ occurrencesFrom [c, c] 0 0 line ∧ start ≤ i := by
  rcases Nat.lt_or_ge line.length start with hlarge | hle
  · rw [List.drop_eq_nil_of_le (Nat.le_of_lt hlarge)]
    refine iff_of_false List.not_mem_nil ?_
    rintro ⟨hi, hstart⟩
    have := (bounds_of_mem_occurrencesFrom hi).2
    omega
  · have hcut : (line.take start).getLast? = some c → (line.drop start).head? ≠ some c := by
      intro hlast
      rw [List.head?_drop]
      cases start with
      | zero => simp at hlast
      | succ n =>
        refine hstart n rfl ?_
        rwa [List.getLast?_eq_getElem?, List.length_take_of_le hle, Nat.add_sub_cancel,
          List.getElem?_take_of_lt (Nat.lt_succ_self n)] at hlast
    have hsplit := occurrencesFrom_pair_append hcut (Nat.zero_le _) 0
    rw [List.take_append_drop, List.length_take_of_le hle, Nat.zero_add] at hsplit
    rw [hsplit, List.mem_append]
    constructor
    · exact fun hi => ⟨Or.inr hi, (bounds_of_mem_occurrencesFrom hi).1⟩
    · rintro ⟨hi | hi, hle'⟩
      · have := (bounds_of_mem_occurrencesFrom hi).2
        rw [List.length_take_of_le hle] at this
        omega
      · exact hi

/-! ## Live runs -/

/-- Between two like characters that are no marks nothing opens or closes. -/
theorem isLive_succ {line : Line} {c : Char} {i : Nat} (hc : isUnquoting c = true) (hslash : c ≠ '/')
    (hhere : (line)[i]? = some c) (hnext : (line)[i + 1]? = some c) :
    (LiveMap.of line).isLive (i + 1) = (LiveMap.of line).isLive i := by
  have hlt : i + 1 < line.length := (List.getElem?_eq_some_iff.1 hnext).1
  have hbrace : c ≠ '{' := by
    rintro rfl
    revert hc
    decide
  have hmask : (literalMask line)[i + 1]? = (literalMask line)[i]? :=
    QuoteState.getElem?_mask_succ hc hbrace hhere hnext
  have hcomment : isInsideComment line (i + 1) = isInsideComment line i :=
    isInsideComment_succ hlt (by simpa [hhere] using hslash) (by simpa [hnext] using hslash)
  change (decide ((literalMask line)[i + 1]? = some false) && !isInsideComment line (i + 1)) =
    (decide ((literalMask line)[i]? = some false) && !isInsideComment line i)
  rw [hmask, hcomment]

theorem IsRun.isThroughout {line : Line} {c : Char} {start length : Nat} (h : IsRun line c start length)
    (hc : isUnquoting c = true) (hslash : c ≠ '/') :
    IsThroughout line start length ((LiveMap.of line).isLive start) := by
  intro i hstart hstop
  obtain ⟨j, rfl⟩ := Nat.exists_eq_add_of_le hstart
  induction j with
  | zero => rfl
  | succ j ih =>
    have hhere := h.getElem? (Nat.le_add_right start j) (by omega)
    rw [← ih (Nat.le_add_right start j) (by omega)]
    exact isLive_succ hc hslash hhere (h.getElem? hstart hstop)

/-- In a window that does not begin inside a run, the live positions of a doubled `&`, `|` or `?` are the
places at even distance from the start of a live run, as far as the token fits into the run and the
window. Each run is live throughout or dead throughout. -/
theorem findTokens_pair {c : Char} (hc : c ∈ ['&', '|', '?']) (line : Line) {start : Nat}
    (hstart : ∀ i, i + 1 = start → (line)[i]? = some c → (line)[start]? ≠ some c)
    (stop : Option Nat) :
    (findTokens line [c, c] start stop).Pairwise (· < ·) ∧
      (∀ i, i ∈ findTokens line [c, c] start stop ↔
        ∃ first length j, IsRun line c first length ∧ IsThroughout line first length true ∧
          start ≤ first ∧ i = first + 2 * j ∧ i + 2 ≤ first + length ∧
            ∀ limit ∈ stop, i + 2 ≤ limit) ∧
      ∀ first length, IsRun line c first length →
        IsThroughout line first length true ∨ IsThroughout line first length false := by
  obtain ⟨hplain, hslash⟩ : isUnquoting c = true ∧ c ≠ '/' := by
    simp only [List.mem_cons, List.not_mem_nil, or_false] at hc
    rcases hc with rfl | rfl | rfl <;> decide
  have hthroughout {first length : Nat} (hrun : IsRun line c first length) :=
    hrun.isThroughout hplain hslash
  refine ⟨(pairwise_occurrencesFrom _ 0 start _).filter _, fun i => ?_, fun first length hrun => ?_⟩
  · simp only [findTokens, List.mem_filter, mem_occurrencesFrom_drop hstart, Bool.and_eq_true,
      Option.all_eq_true, decide_eq_true_eq, List.length_cons, List.length_nil]
    constructor
    · rintro ⟨⟨hi, hfrom⟩, hstop, hlive⟩
      obtain ⟨first, length, hrun, hfirst, hlast⟩ := exists_isRun (getElem?_of_mem_occurrencesFrom hi)
      obtain ⟨j, hj, hend⟩ := (mem_occurrencesFrom_iff_of_isRun hrun hfirst hlast).1 hi
      refine ⟨first, length, j, hrun, ?_, ?_, hj, hend, hstop⟩
      · have hsame := hthroughout hrun
        rwa [← hsame i hfirst hlast, hlive] at hsame
      · -- the window would begin inside the run
        by_contra hlt
        exact hstart (start - 1) (by omega) (hrun.getElem? (by omega) (by omega))
          (hrun.getElem? (by omega) (by omega))
    · rintro ⟨first, length, j, hrun, hlive, hfrom, rfl, hend, hstop⟩
      have hmem := mem_occurrencesFrom_iff_of_isRun hrun (Nat.le_add_right first (2 * j)) (by omega)
      exact ⟨⟨hmem.2 ⟨j, rfl, hend⟩, by omega⟩, hstop, hlive _ (by omega) (by omega)⟩
  · cases hlive : (LiveMap.of line).isLive first with
    | true => exact Or.inl (hlive ▸ hthroughout hrun)
    | false => exact Or.inr (hlive ▸ hthroughout hrun)

/-- A window that begins at the second of two runs and ends inside it; a third run is in a string. -/
theorem findTokens_pair_window :
    let line := "a&&b&&&&&c'&&'".toList
    ('&' ∈ ['&', '|', '?'] ∧
      ∀ i, i + 1 = 4 → (line)[i]? = some '&' → (line)[4]? ≠ some '&') ∧
      IsRun line '&' 4 5 ∧ findTokens line ['&', '&'] 4 (some 8) = [4, 6] ∧
      ∀ i, i ∈ findTokens line ['&', '&'] 4 (some 8) ↔
        ∃ first length j, IsRun line '&' first length ∧ IsThroughout line first length true ∧
          4 ≤ first ∧ i = first + 2 * j ∧ i + 2 ≤ first + length ∧ ∀ limit ∈ some 8, i + 2 ≤ limit := by
  intro line
  have hstart : ∀ i, i + 1 = 4 → (line)[i]? = some '&' → (line)[4]? ≠ some '&' := by
    intro i hi
    obtain rfl : i = 3 := by omega
    decide
  have hrun : IsRun line '&' 4 5 :=
    ⟨by decide, "a&&b".toList, "c'&&'".toList, by decide, by decide, by decide, by decide⟩
  exact ⟨⟨by decide, hstart⟩, hrun, by decide,
    (findTokens_pair (by decide) line hstart (some 8)).2.1⟩

end BranchTally
