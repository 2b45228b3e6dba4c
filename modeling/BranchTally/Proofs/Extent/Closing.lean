-- SUMMARY: A braced body ends with the first line on which its braces balance, and a declared function ends where the first body below its header does.
import BranchTally.Proofs.Extent.Range

/-!
# Where functions close

Braces are counted line by line: what opens and closes within a line is not seen. A body is closed by the
first line with which no brace stays open, and the function ends there or on a tail right below. A
declared function whose first body is the expression of an arrow ends where the expression does.
-/

namespace BranchTally

theorem number_add_succ (number : Int) (place : Nat) :
    number + (place + 1 : Nat) = number + 1 + place := by
  omega

/-! ## Balance of lines -/

/-- How many more `{` than `}` some lines have. -/
def balance (lines : List Line) : Int := (lines.map braceBalance).sum

@[simp] theorem balance_nil : balance [] = 0 := rfl

@[simp] theorem balance_cons (line : Line) (rest : List Line) :
    balance (line :: rest) = braceBalance line + balance rest := by
  rw [balance, List.map_cons, List.sum_cons, balance]

/-- Where the lines follow `depth` open braces, the one at `place` is the first with which none of all
the braces stays open. -/
structure ClosesAt (depth : Int) (lines : List Line) (place : Nat) : Prop where
  open_before : ∀ k < place, 0 < depth + balance (lines.take (k + 1))
  closed : depth + balance (lines.take (place + 1)) ≤ 0

theorem closesAt_cons_zero {depth : Int} {line : Line} {rest : List Line} :
    ClosesAt depth (line :: rest) 0 ↔ depth + braceBalance line ≤ 0 := by
  constructor
  · intro h
    simpa using h.closed
  · intro h
    exact ⟨nofun, by simpa using h⟩

theorem closesAt_cons_succ {depth : Int} {line : Line} {rest : List Line} {place : Nat} :
    ClosesAt depth (line :: rest) (place + 1) ↔
      0 < depth + braceBalance line ∧ ClosesAt (depth + braceBalance line) rest place := by
  have htake (k : Nat) : depth + balance ((line :: rest).take (k + 1)) =
      depth + braceBalance line + balance (rest.take k) := by
    rw [List.take_succ_cons, balance_cons, add_assoc]
  constructor
  · intro h
    refine ⟨by simpa using h.open_before 0 (Nat.succ_pos place), fun k hk => ?_, ?_⟩
    · rw [← htake]
      exact h.open_before (k + 1) (by omega)
    · rw [← htake]
      exact h.closed
  · rintro ⟨hfirst, h⟩
    refine ⟨fun k hk => ?_, ?_⟩
    · rw [htake]
      cases k with
      | zero => simpa using hfirst
      | succ k => exact h.open_before k (by omega)
    · rw [htake]
      exact h.closed

/-! ## Braced bodies -/

/-- A line that closes more braces than it opens has one that closes. -/
theorem contains_close_of_braceBalance_neg {line : Line} (h : braceBalance line < 0) :
    line.contains '}' = true := by
  have hcount : 0 < line.count '}' := by
    rw [braceBalance] at h
    omega
  exact List.contains_iff_mem.2 (List.count_pos_iff.1 hcount)

/-- A body with open braces ends at the first line with which they balance. -/
theorem bodyEnd?_eq_some_iff {depth number n : Int} {lines : List Line} (hdepth : 0 < depth) :
    bodyEnd? depth number lines = some n ↔
      ∃ place line below, lines.drop place = line :: below ∧ ClosesAt depth lines place ∧
        n = bodyEndAt (number + place) line below := by
  induction lines generalizing depth number with
  | nil => simp [bodyEnd?]
  | cons line rest ih =>
    simp only [bodyEnd?]
    by_cases hclosed : depth + braceBalance line ≤ 0
    · have hnegative : braceBalance line < 0 := by omega
      rw [contains_close_of_braceBalance_neg hnegative, decide_eq_true hclosed, Bool.and_true, if_pos rfl]
      constructor
      · intro h
        refine ⟨0, line, rest, rfl, closesAt_cons_zero.2 hclosed, ?_⟩
        rw [Nat.cast_zero, add_zero, Option.some.inj h]
      · rintro ⟨place, line', below, hdrop, hcloses, rfl⟩
        cases place with
        | zero =>
          obtain ⟨rfl, rfl⟩ := List.cons.inj hdrop
          rw [Nat.cast_zero, add_zero]
        | succ place => exact absurd (closesAt_cons_succ.1 hcloses).1 (by omega)
    · rw [decide_eq_false hclosed, Bool.false_and, if_neg Bool.false_ne_true, ih (by omega)]
      constructor
      · rintro ⟨place, line', below, hdrop, hcloses, rfl⟩
        refine ⟨place + 1, line', below, hdrop, closesAt_cons_succ.2 ⟨by omega, hcloses⟩, ?_⟩
        rw [number_add_succ]
      · rintro ⟨place, line', below, hdrop, hcloses, rfl⟩
        cases place with
        | zero => exact absurd (closesAt_cons_zero.1 hcloses) hclosed
        | succ place =>
          refine ⟨place, line', below, hdrop, (closesAt_cons_succ.1 hcloses).2, ?_⟩
          rw [number_add_succ]

/-! ## Declared functions -/

/-- A body begins on the line: one in braces behind a parameter list, or the expression of an arrow. -/
def beginsBody (line : Line) : Bool :=
  (bodyOpener? line).isSome || (containsArrow line && !line.contains '{')

/-- The body that begins on `line` ends on line `n`. -/
inductive BodyEnds (number : Int) (line : Line) (below : List Line) : Int → Prop where
  | braces {opener closing : Line} {rest : List Line} {place : Nat}
      (hopener : bodyOpener? line = some opener) (hcloses : ClosesAt 0 (opener :: below) place)
      (hdrop : (line :: below).drop place = closing :: rest) :
      BodyEnds number line below (bodyEndAt (number + place) closing rest)
  | expression (hopener : bodyOpener? line = none) (harrow : containsArrow line = true)
      (hbrace : line.contains '{' = false) :
      BodyEnds number line below (expressionEnd number line below)

theorem BodyEnds.beginsBody {number n : Int} {line : Line} {below : List Line}
    (h : BodyEnds number line below n) : beginsBody line = true := by
  cases h with
  | braces hopener => rw [BranchTally.beginsBody, hopener, Option.isSome_some, Bool.true_or]
  | expression _ harrow hbrace =>
    rw [BranchTally.beginsBody, harrow, hbrace, Bool.not_false, Bool.and_true, Bool.or_true]

/-- The function whose header begins on the first of the lines ends on line `n`. -/
def DeclarationEnds (number : Int) (lines : List Line) (n : Int) : Prop :=
  ∃ place line below, lines.drop place = line :: below ∧
    (∀ header ∈ lines.take place, beginsBody header = false) ∧ BodyEnds (number + place) line below n

theorem declarationEnds_cons {number n : Int} {line : Line} {rest : List Line} :
    DeclarationEnds number (line :: rest) n ↔
      BodyEnds number line rest n ∨
        beginsBody line = false ∧ DeclarationEnds (number + 1) rest n := by
  constructor
  · rintro ⟨place, line', below, hdrop, hheader, hends⟩
    cases place with
    | zero =>
      obtain ⟨rfl, rfl⟩ := List.cons.inj hdrop
      exact Or.inl (by simpa using hends)
    | succ place =>
      rw [number_add_succ] at hends
      rw [List.take_succ_cons, List.forall_mem_cons] at hheader
      exact Or.inr ⟨hheader.1, place, line', below, hdrop, hheader.2, hends⟩
  · rintro (hends | ⟨hbegins, place, line', below, hdrop, hheader, hends⟩)
    · exact ⟨0, line, rest, rfl, nofun, by simpa using hends⟩
    · rw [← number_add_succ] at hends
      refine ⟨place + 1, line', below, hdrop, ?_, hends⟩
      rw [List.take_succ_cons, List.forall_mem_cons]
      exact ⟨hbegins, hheader⟩

theorem declarationEnds_cons_of_beginsBody {number n : Int} {line : Line} {rest : List Line}
    (h : beginsBody line = true) :
    DeclarationEnds number (line :: rest) n ↔ BodyEnds number line rest n := by
  simp [declarationEnds_cons, h]

theorem declarationEnds_cons_of_not_beginsBody {number n : Int} {line : Line} {rest : List Line}
    (h : beginsBody line = false) :
    DeclarationEnds number (line :: rest) n ↔ DeclarationEnds (number + 1) rest n := by
  have hnone : ¬ BodyEnds number line rest n := fun hends =>
    Bool.false_ne_true (h.symm.trans hends.beginsBody)
  simp [declarationEnds_cons, h, hnone]

/-- The end of a body in braces, by the balance from its `{` on. -/
theorem bodyEnds_of_opener {number n : Int} {line opener : Line} {below : List Line}
    (hopener : bodyOpener? line = some opener) :
    BodyEnds number line below n ↔
      (if braceBalance opener ≤ 0 then some (bodyEndAt number line below)
        else bodyEnd? (braceBalance opener) (number + 1) below) = some n := by
  constructor
  · intro h
    cases h with
    | expression hnone => rw [hopener] at hnone; cases hnone
    | @braces opener' closing rest place hopener' hcloses hdrop =>
      obtain rfl := Option.some.inj (hopener.symm.trans hopener')
      cases place with
      | zero =>
        obtain ⟨rfl, rfl⟩ := List.cons.inj hdrop
        have hbalance := closesAt_cons_zero.1 hcloses
        rw [zero_add] at hbalance
        rw [if_pos hbalance, Nat.cast_zero, add_zero]
      | succ place =>
        obtain ⟨hopen, hcloses⟩ := closesAt_cons_succ.1 hcloses
        rw [zero_add] at hopen hcloses
        rw [if_neg (by omega), bodyEnd?_eq_some_iff hopen, number_add_succ]
        exact ⟨place, closing, rest, hdrop, hcloses, rfl⟩
  · intro h
    split at h
    · next hbalance =>
      have hcloses : ClosesAt 0 (opener :: below) 0 := closesAt_cons_zero.2 (by omega)
      have hends : BodyEnds number line below (bodyEndAt (number + (0 : Nat)) line below) :=
        .braces hopener hcloses rfl
      rwa [Nat.cast_zero, add_zero, Option.some.inj h] at hends
    · next hbalance =>
      obtain ⟨place, closing, rest, hdrop, hcloses, rfl⟩ := (bodyEnd?_eq_some_iff (by omega)).1 h
      rw [← number_add_succ]
      refine .braces hopener (closesAt_cons_succ.2 ?_) hdrop
      rw [zero_add]
      exact ⟨by omega, hcloses⟩

/-- The end that is found for a declared function is that of the first body below its header. -/
theorem declarationEnd?_eq_some_iff {number n : Int} {lines : List Line} :
    declarationEnd? number lines = some n ↔ DeclarationEnds number lines n := by
  induction lines generalizing number with
  | nil => simp [declarationEnd?, DeclarationEnds]
  | cons line rest ih =>
    simp only [declarationEnd?]
    cases hopener : bodyOpener? line with
    | some opener =>
      have hbegins : beginsBody line = true := by
        rw [beginsBody, hopener, Option.isSome_some, Bool.true_or]
      rw [declarationEnds_cons_of_beginsBody hbegins, bodyEnds_of_opener hopener]
    | none =>
      have hbegins : beginsBody line = (containsArrow line && !line.contains '{') := by
        rw [beginsBody, hopener, Option.isSome_none, Bool.false_or]
      dsimp only
      rw [← hbegins]
      cases harrow : beginsBody line with
      | false =>
        rw [if_neg Bool.false_ne_true, ih, declarationEnds_cons_of_not_beginsBody harrow]
      | true =>
        rw [if_pos rfl, declarationEnds_cons_of_beginsBody harrow]
        rw [hbegins, Bool.and_eq_true, Bool.not_eq_true'] at harrow
        constructor
        · intro h
          rw [← Option.some.inj h]
          exact .expression hopener harrow.1 harrow.2
        · intro h
          cases h with
          | braces hsome => rw [hopener] at hsome; cases hsome
          | expression => rfl

end BranchTally
