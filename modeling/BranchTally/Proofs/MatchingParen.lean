-- SUMMARY: What is found for an opening parenthesis is the first unmasked `)` through which the parentheses balance, with more opened than closed at every position in front of it.
import BranchTally.Signed
import BranchTally.Proofs.Literal.Walk
import BranchTally.Proofs.ParenBalance

/-!
# The matching parenthesis

The search counts the parentheses that are open behind each character, string content aside. Said of whole
segments: it finds the first `)` such that as many parentheses close as open from the given one up to it, and
it finds none exactly where no segment balances. A segment that begins at a position counted from the end of
the line goes on at its front.
-/

namespace BranchTally

/-! ## Segments of a line -/

/-- The character stands at a position, not in string content. -/
def HasUnmasked (line : Line) (c : Char) (i : Int) : Prop :=
  Signed.item? (maskedCells line) i = some (c, false)

instance (line : Line) (c : Char) (i : Int) : Decidable (HasUnmasked line c i) :=
  inferInstanceAs (Decidable (_ = _))

/-- At how many of the positions `first`, `first + 1`, …, `last` it does. -/
def countUnmasked (line : Line) (c : Char) (first last : Int) : Nat :=
  Nat.count (fun k => HasUnmasked line c (first + (k : Int))) (last + 1 - first).toNat

/-- As many parentheses close as open from the first position to the `)` at the last. -/
structure ParensBalance (line : Line) (first last : Int) : Prop where
  after : first < last
  closes : HasUnmasked line ')' last
  balanced : countUnmasked line '(' first last = countUnmasked line ')' first last

variable {line : Line} {opening : Int}

theorem HasUnmasked.inLine {c : Char} {i : Int} (h : HasUnmasked line c i) :
    0 ≤ i + line.length ∧ i < line.length := by
  rw [HasUnmasked, Signed.item?] at h
  split_ifs at h with hfront hback
  · have := (List.getElem?_eq_some_iff.1 h).1
    rw [length_maskedCells] at this
    omega
  · rw [length_maskedCells] at hback
    omega

/-- The cells from a position on are the items there and behind. -/
theorem Signed.getElem?_masked (h : 0 ≤ opening + line.length) (n : Nat) :
    (masked line opening)[n]? = item? (maskedCells line) (opening + n) := by
  have hlength := length_maskedCells line
  rw [masked]
  split
  · next hfront =>
    rw [item?, if_pos (by omega), List.getElem?_drop]
    congr 1
    omega
  · next hback =>
    have hclamp : clamp line opening = (opening + line.length).toNat := if_neg hback
    by_cases hn : opening + n < 0
    · rw [item?, if_neg (by omega), if_pos (by omega),
        List.getElem?_append_left (by rw [List.length_drop]; omega), List.getElem?_drop]
      congr 1
      omega
    · rw [item?, if_pos (by omega), List.getElem?_append_right (by rw [List.length_drop]; omega)]
      congr 1
      rw [List.length_drop]
      omega

theorem count_take (cells : List (Char × Bool)) (cell : Char × Bool) (n : Nat) :
    (cells.take n).count cell = Nat.count (fun k => cells[k]? = some cell) n := by
  induction n with
  | zero => simp
  | succ n ih =>
    rw [List.take_add_one, List.count_append, ih, Nat.count_succ]
    congr 1
    cases cells[n]? with
    | none => rfl
    | some other => simp only [Option.toList_some, List.count_singleton, beq_iff_eq, Option.some.injEq]

/-- Counting over positions is counting in the cells that the search reads. -/
theorem countUnmasked_eq (h : 0 ≤ opening + line.length) (c : Char) (n : Nat) :
    countUnmasked line c opening (opening + n) =
      ((Signed.masked line opening).take (n + 1)).count (c, false) := by
  rw [countUnmasked, show (opening + n + 1 - opening).toNat = n + 1 by omega, count_take]
  congr 1
  funext k
  rw [Signed.getElem?_masked h]
  rfl

/-- A segment that begins with an opening parenthesis balances where the search closes the last one. -/
theorem parensBalance_iff (hopen : HasUnmasked line '(' opening) (n : Nat) :
    ParensBalance line opening (opening + n) ↔ ClosesLast 0 (Signed.masked line opening) n := by
  have hline := hopen.inLine.1
  have hbalance : 0 + parenBalance ((Signed.masked line opening).take (n + 1)) = 0 ↔
      countUnmasked line '(' opening (opening + n) = countUnmasked line ')' opening (opening + n) := by
    rw [countUnmasked_eq hline, countUnmasked_eq hline, parenBalance]
    omega
  rw [ClosesLast, Signed.getElem?_masked hline, hbalance]
  constructor
  · rintro ⟨-, hcloses, hbalanced⟩
    exact ⟨hcloses, hbalanced⟩
  · rintro ⟨hcloses, hbalanced⟩
    refine ⟨?_, hcloses, hbalanced⟩
    cases n with
    | zero =>
      rw [Nat.cast_zero, add_zero] at hcloses
      cases hopen.symm.trans hcloses
    | succ n => omega

/-- In front of the `)` that closes the last one more parentheses have opened than closed. -/
theorem countUnmasked_lt (hopen : HasUnmasked line '(' opening) {n : Nat}
    (h : ∀ k < n, ¬ ClosesLast 0 (Signed.masked line opening) k) {k : Nat} (hk : k < n) :
    countUnmasked line ')' opening (opening + k) < countUnmasked line '(' opening (opening + k) := by
  have hline := hopen.inLine.1
  have hfirst : (Signed.masked line opening)[0]? = some ('(', false) := by
    rw [Signed.getElem?_masked hline, Nat.cast_zero, add_zero]
    exact hopen
  obtain ⟨rest, hmasked⟩ : ∃ rest, Signed.masked line opening = ('(', false) :: rest := by
    cases hcells : Signed.masked line opening with
    | nil => simp [hcells] at hfirst
    | cons cell rest =>
      rw [hcells, List.getElem?_cons_zero, Option.some.injEq] at hfirst
      exact ⟨rest, by rw [hfirst]⟩
  have hopened : 0 < 1 + parenBalance (rest.take k) := by
    refine balance_take_pos Int.one_pos fun j hj hcloses => h (j + 1) (by omega) ?_
    rw [hmasked]
    exact closesLast_cons_succ.2 hcloses
  have hbalance : 0 < parenBalance ((Signed.masked line opening).take (k + 1)) := by
    rw [hmasked, List.take_succ_cons, ← List.singleton_append, parenBalance_append]
    exact hopened
  rw [countUnmasked_eq hline, countUnmasked_eq hline]
  rw [parenBalance] at hbalance
  omega

theorem ParensBalance.exists_closesLast (hopen : HasUnmasked line '(' opening) {i : Int}
    (h : ParensBalance line opening i) :
    ∃ n : Nat, i = opening + n ∧ ClosesLast 0 (Signed.masked line opening) n := by
  obtain ⟨n, rfl⟩ := Int.le.dest h.after.le
  exact ⟨n, rfl, (parensBalance_iff hopen n).1 h⟩

/-- The first balanced segment ends where the last parenthesis is closed for the first time. -/
theorem isLeast_parensBalance_iff (hopen : HasUnmasked line '(' opening) {closing : Int} :
    IsLeast {i | ParensBalance line opening i} closing ↔
      ∃ n : Nat, closing = opening + n ∧ ClosesLast 0 (Signed.masked line opening) n ∧
        ∀ k < n, ¬ ClosesLast 0 (Signed.masked line opening) k := by
  constructor
  · rintro ⟨hbalance, hleast⟩
    obtain ⟨n, rfl, hcloses⟩ := hbalance.exists_closesLast hopen
    refine ⟨n, rfl, hcloses, fun k hk hearlier => ?_⟩
    have hle := hleast ((parensBalance_iff hopen k).2 hearlier)
    omega
  · rintro ⟨n, rfl, hcloses, hfirst⟩
    refine ⟨(parensBalance_iff hopen n).2 hcloses, fun i hi => ?_⟩
    obtain ⟨k, rfl, hk⟩ := ParensBalance.exists_closesLast hopen hi
    have hle : n ≤ k := not_lt.1 fun hlt => hfirst k hlt hk
    omega

theorem exists_isLeast_parensBalance (hopen : HasUnmasked line '(' opening) {i : Int}
    (h : ParensBalance line opening i) : ∃ closing, IsLeast {i | ParensBalance line opening i} closing := by
  classical
  obtain ⟨n, -, hcloses⟩ := h.exists_closesLast hopen
  have hexists : ∃ n, ClosesLast 0 (Signed.masked line opening) n := ⟨n, hcloses⟩
  exact ⟨_, (isLeast_parensBalance_iff hopen).2
    ⟨Nat.find hexists, rfl, Nat.find_spec hexists, fun k hk => Nat.find_min hexists hk⟩⟩

/-- A balanced segment with more opened than closed at every position before its end is the first one. -/
theorem isLeast_parensBalance_iff_open (hopen : HasUnmasked line '(' opening) {closing : Int} :
    IsLeast {i | ParensBalance line opening i} closing ↔ ParensBalance line opening closing ∧
      ∀ i, opening ≤ i → i < closing → countUnmasked line ')' opening i < countUnmasked line '(' opening i := by
  constructor
  · intro hleast
    obtain ⟨n, rfl, -, hfirst⟩ := (isLeast_parensBalance_iff hopen).1 hleast
    refine ⟨hleast.1, fun i hle hlt => ?_⟩
    obtain ⟨k, rfl⟩ := Int.le.dest hle
    exact countUnmasked_lt hopen hfirst (by omega)
  · rintro ⟨hbalance, hbefore⟩
    refine ⟨hbalance, fun i hi => not_lt.1 fun hlt => ?_⟩
    exact absurd (hbefore i hi.after.le hlt) (by rw [hi.balanced]; exact lt_irrefl _)

/-! ## The search -/

theorem Signed.closingParen?_eq (h : 0 ≤ opening + line.length) :
    closingParen? line opening =
      .ok ((closingParenFrom 0 0 (masked line opening)).map fun n : Nat => opening + n) := by
  rw [closingParen?, if_neg (by omega)]
  cases closingParenFrom 0 0 (masked line opening) <;> rfl

/-- What the search finds for an opening parenthesis ends the first balanced segment. -/
theorem Signed.closingParen?_of_hasUnmasked (hopen : HasUnmasked line '(' opening) :
    ∃ found, closingParen? line opening = .ok found ∧
      ∀ closing, found = some closing ↔ IsLeast {i | ParensBalance line opening i} closing := by
  refine ⟨_, closingParen?_eq hopen.inLine.1, fun closing => ?_⟩
  rw [isLeast_parensBalance_iff hopen, Option.map_eq_some_iff]
  simp only [closingParenFrom_eq_some_iff, Nat.zero_add]
  constructor
  · rintro ⟨n, ⟨_, rfl, hcloses⟩, rfl⟩
    exact ⟨n, rfl, hcloses⟩
  · rintro ⟨n, rfl, hcloses⟩
    exact ⟨n, ⟨n, rfl, hcloses⟩, rfl⟩

/-- A position from the front is one as headers give it. -/
theorem Signed.closingParen?_natCast (line : Line) (n : Nat) :
    closingParen? line n =
      .ok ((BranchTally.closingParen? line n).map fun closing : Nat => (closing : Int)) := by
  have hshift := closingParenFrom_add 0 0 n ((maskedCells line).drop n)
  rw [Nat.zero_add] at hshift
  rw [closingParen?_eq (by omega), BranchTally.closingParen?, hshift, masked, if_pos (by omega),
    Int.toNat_natCast, Option.map_map]
  simp only [Function.comp_def, Nat.cast_add, add_comm]

/-- For an opening parenthesis the search finds the first `)` up to which as many parentheses close as open. It
is the only one of these with more opened than closed at every position in front of it, and it is missing
exactly where no segment balances. Positions may be counted from the end of the line; for one from the front
the answer is that of the headers. -/
theorem closingParen?_first_balanced (hopen : HasUnmasked line '(' opening) :
    ∃ found, Signed.closingParen? line opening = .ok found ∧
      (∀ closing, found = some closing ↔ IsLeast {i | ParensBalance line opening i} closing) ∧
      (∀ closing, found = some closing ↔ ParensBalance line opening closing ∧
        ∀ i, opening ≤ i → i < closing →
          countUnmasked line ')' opening i < countUnmasked line '(' opening i) ∧
      (found = none ↔ ∀ i, ¬ ParensBalance line opening i) ∧
      ∀ n : Nat, opening = n → found = (closingParen? line n).map fun closing : Nat => (closing : Int) := by
  obtain ⟨found, hsearch, hleast⟩ := Signed.closingParen?_of_hasUnmasked hopen
  refine ⟨found, hsearch, hleast, fun closing => ?_, ⟨fun hnone i hi => ?_, fun hnone => ?_⟩, ?_⟩
  · rw [hleast, isLeast_parensBalance_iff_open hopen]
  · obtain ⟨closing, hclosing⟩ := exists_isLeast_parensBalance hopen hi
    cases hnone.symm.trans ((hleast closing).2 hclosing)
  · rw [Option.eq_none_iff_forall_ne_some]
    intro closing hclosing
    exact hnone closing ((hleast closing).1 hclosing).1
  · rintro n rfl
    rw [Signed.closingParen?_natCast] at hsearch
    exact (Except.ok.inj hsearch).symm

/-- A call with a quoted parenthesis in a condition, seen from the front and from the end; and a parenthesis
that stays open. -/
theorem closingParen?_first_balanced_call :
    let line := "if (f(')') && x) (".toList
    HasUnmasked line '(' 3 ∧ HasUnmasked line '(' (-15) ∧ HasUnmasked line '(' 17 ∧
      IsLeast {i | ParensBalance line 3 i} 15 ∧ IsLeast {i | ParensBalance line (-15) i} (-3) ∧
      closingParen? line 17 = none ∧ ∀ i, ¬ ParensBalance line 17 i := by
  intro line
  have hfront : HasUnmasked line '(' 3 := by decide
  have hback : HasUnmasked line '(' (-15) := by decide
  have hlast : HasUnmasked line '(' 17 := by decide
  obtain ⟨found, hsearch, hleast, -⟩ := closingParen?_first_balanced hfront
  obtain ⟨found', hsearch', hleast', -⟩ := closingParen?_first_balanced hback
  obtain ⟨found'', hsearch'', -, -, hnone, hplain⟩ := closingParen?_first_balanced hlast
  have hfound : found = some 15 := Except.ok.inj (hsearch.symm.trans (by rfl))
  have hfound' : found' = some (-3) := Except.ok.inj (hsearch'.symm.trans (by rfl))
  have hfound'' : found'' = none := Except.ok.inj (hsearch''.symm.trans (by rfl))
  exact ⟨hfront, hback, hlast, (hleast 15).1 hfound, (hleast' (-3)).1 hfound', by decide,
    hnone.1 hfound''⟩

end BranchTally
