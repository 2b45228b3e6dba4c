-- SUMMARY: The end of a declared function against the brace that matches its first one: never above it, and no more than two lines below unless the braces open again behind it.
import BranchTally.Proofs.Extent.Closing
import BranchTally.Proofs.Text

/-!
# Matching braces

The search for the end of a body sees the balance of whole lines only. Read character by character, the
balance first returns to zero with the `}` that matches the first `{` of the body. A line that opens a brace
behind this one hides it; otherwise the body ends with that line, save for the tail of a callback.
-/

namespace BranchTally

variable {depth : Int} {lines rest : List Line} {line : Line} {place column : Nat}

/-! ## The balance within a line -/

theorem braceBalance_append (front back : Line) :
    braceBalance (front ++ back) = braceBalance front + braceBalance back := by
  simp only [braceBalance, List.count_append]
  omega

theorem braceBalance_cons_of_ne {c : Char} (hopen : c ≠ '{') (hclose : c ≠ '}') (rest : Line) :
    braceBalance (c :: rest) = braceBalance rest := by
  rw [braceBalance, List.count_cons_of_ne hopen, List.count_cons_of_ne hclose, braceBalance]

theorem braceBalance_open (rest : Line) : braceBalance ('{' :: rest) = 1 + braceBalance rest :=
  braceBalance_append ['{'] rest

/-- The balance changes by one at a time, so it does not fall below zero without a `}` that brings it
there. -/
theorem exists_column_of_nonpos (hdepth : 0 < depth) (h : depth + braceBalance line ≤ 0) :
    ∃ column : Nat, (line)[column]? = some '}' ∧ depth + braceBalance (line.take (column + 1)) = 0 := by
  induction line generalizing depth with
  | nil =>
    rw [show braceBalance [] = 0 from rfl] at h
    omega
  | cons c line ih =>
    by_cases hlast : c = '}' ∧ depth = 1
    · obtain ⟨rfl, rfl⟩ := hlast
      exact ⟨0, rfl, rfl⟩
    · have hstep : 0 < depth + braceBalance [c] := by
        by_cases hopen : c = '{'
        · rw [hopen, show braceBalance ['{'] = 1 from rfl]
          omega
        · by_cases hclose : c = '}'
          · rw [hclose, show braceBalance ['}'] = -1 from rfl]
            have := not_and.1 hlast hclose
            omega
          · rw [braceBalance_cons_of_ne hopen hclose, show braceBalance [] = 0 from rfl]
            omega
      have hcons (text : Line) :
          depth + braceBalance (c :: text) = depth + braceBalance [c] + braceBalance text := by
        rw [add_assoc, ← braceBalance_append, List.singleton_append]
      obtain ⟨column, hclose, hzero⟩ := ih hstep (hcons line ▸ h)
      refine ⟨column + 1, hclose, ?_⟩
      rw [List.take_succ_cons, hcons, hzero]

/-! ## The balance through a character -/

/-- The balance of the lines up to the character in `column` of the line at `place`, this one included. -/
def balanceThrough (lines : List Line) (place column : Nat) : Int :=
  balance (lines.take place) + braceBalance (((lines)[place]?.getD []).take (column + 1))

/-- Where the lines follow `depth` open braces, the `}` in `column` of the line at `place` brings the balance
of them all to zero. -/
def ReturnsAt (depth : Int) (lines : List Line) (place column : Nat) : Prop :=
  ((lines)[place]?.getD [])[column]? = some '}' ∧ depth + balanceThrough lines place column = 0

instance : Decidable (ReturnsAt depth lines place column) := inferInstanceAs (Decidable (_ ∧ _))

/-- It is the first one that does. -/
structure FirstReturnsAt (depth : Int) (lines : List Line) (place column : Nat) : Prop where
  returns : ReturnsAt depth lines place column
  first : ∀ place' column', ReturnsAt depth lines place' column' →
    place < place' ∨ place = place' ∧ column ≤ column'

theorem returnsAt_cons_zero : ReturnsAt depth (line :: rest) 0 column ↔
    (line)[column]? = some '}' ∧ depth + braceBalance (line.take (column + 1)) = 0 := by
  simp [ReturnsAt, balanceThrough]

theorem returnsAt_cons_succ : ReturnsAt depth (line :: rest) (place + 1) column ↔
    ReturnsAt (depth + braceBalance line) rest place column := by
  simp [ReturnsAt, balanceThrough, add_assoc]

/-- Where no brace stays open behind a line, the balance returns to zero on it or above. -/
theorem exists_returnsAt (hdepth : 0 < depth) {k : Nat} (h : depth + balance (lines.take (k + 1)) ≤ 0) :
    ∃ place ≤ k, ∃ column, ReturnsAt depth lines place column := by
  induction lines generalizing depth k with
  | nil =>
    rw [List.take_nil, balance_nil] at h
    omega
  | cons line rest ih =>
    by_cases hline : depth + braceBalance line ≤ 0
    · obtain ⟨column, hreturns⟩ := exists_column_of_nonpos hdepth hline
      exact ⟨0, Nat.zero_le k, column, returnsAt_cons_zero.2 hreturns⟩
    · rw [List.take_succ_cons, balance_cons, ← add_assoc] at h
      cases k with
      | zero =>
        rw [List.take_zero, balance_nil] at h
        omega
      | succ k =>
        obtain ⟨place, hplace, column, hreturns⟩ := ih (by omega) h
        exact ⟨place + 1, Nat.succ_le_succ hplace, column, returnsAt_cons_succ.2 hreturns⟩

/-- The same for lines that begin with the first open brace. -/
theorem exists_returnsAt_of_open {tail : Line} {k : Nat}
    (h : balance ((('{' :: tail) :: rest).take (k + 1)) ≤ 0) :
    ∃ place ≤ k, ∃ column, ReturnsAt 0 (('{' :: tail) :: rest) place column := by
  have hbehind : 1 + balance ((tail :: rest).take (k + 1)) ≤ 0 := by
    rw [List.take_succ_cons, balance_cons, braceBalance_open] at h
    rw [List.take_succ_cons, balance_cons]
    omega
  obtain ⟨place, hplace, column, hreturns⟩ := exists_returnsAt one_pos hbehind
  cases place with
  | zero =>
    rw [returnsAt_cons_zero] at hreturns
    refine ⟨0, hplace, column + 1, returnsAt_cons_zero.2 ⟨hreturns.1, ?_⟩⟩
    rw [List.take_succ_cons, braceBalance_open, zero_add, hreturns.2]
  | succ place =>
    rw [returnsAt_cons_succ] at hreturns
    refine ⟨place + 1, hplace, column, returnsAt_cons_succ.2 ?_⟩
    rwa [braceBalance_open, zero_add]

theorem exists_firstReturnsAt (h : ReturnsAt depth lines place column) :
    ∃ place column, FirstReturnsAt depth lines place column := by
  classical
  have hplaces : ∃ place column, ReturnsAt depth lines place column := ⟨place, column, h⟩
  have hcolumns := Nat.find_spec hplaces
  refine ⟨Nat.find hplaces, Nat.find hcolumns, Nat.find_spec hcolumns, fun place' column' h' => ?_⟩
  rcases (Nat.find_min' hplaces ⟨column', h'⟩).lt_or_eq with hlt | heq
  · exact Or.inl hlt
  · exact Or.inr ⟨heq, Nat.find_min' hcolumns (heq ▸ h')⟩

/-! ## Bodies in braces -/

theorem exists_closesAt {k : Nat} (h : depth + balance (lines.take (k + 1)) ≤ 0) :
    ∃ place ≤ k, ClosesAt depth lines place := by
  classical
  have hclosed : ∃ place, depth + balance (lines.take (place + 1)) ≤ 0 := ⟨k, h⟩
  exact ⟨Nat.find hclosed, Nat.find_min' hclosed h, fun j hj => not_le.1 (Nat.find_min hclosed hj),
    Nat.find_spec hclosed⟩

theorem ClosesAt.le_of_closed {k : Nat} (h : ClosesAt depth lines place)
    (hclosed : depth + balance (lines.take (k + 1)) ≤ 0) : place ≤ k := by
  by_contra hlt
  exact absurd hclosed (not_le.2 (h.open_before k (not_le.1 hlt)))

/-- The brace that matches the first one stands on the line that closes the body, or above it. -/
theorem ClosesAt.exists_firstReturnsAt {tail : Line} {closing : Nat}
    (h : ClosesAt 0 (('{' :: tail) :: rest) closing) :
    (∃ place column, FirstReturnsAt 0 (('{' :: tail) :: rest) place column) ∧
      ∀ place column, FirstReturnsAt 0 (('{' :: tail) :: rest) place column → place ≤ closing := by
  have hclosed := h.closed
  rw [zero_add] at hclosed
  obtain ⟨place, hplace, column, hreturns⟩ := exists_returnsAt_of_open hclosed
  refine ⟨BranchTally.exists_firstReturnsAt hreturns, fun place' column' hfirst => ?_⟩
  rcases hfirst.first place column hreturns with hlt | ⟨heq, -⟩ <;> omega

/-- A body opens with its brace. -/
theorem exists_of_bodyOpener? {opener : Line} (h : bodyOpener? line = some opener) :
    ∃ tail, opener = '{' :: tail := by
  induction line with
  | nil => simp [bodyOpener?] at h
  | cons c line ih =>
    rw [bodyOpener?] at h
    split at h
    · split at h
      · next tail _ => exact ⟨tail, (Option.some.inj h).symm⟩
      · exact ih h
    · exact ih h

/-- The first of the lines on which a body begins decides where the declaration ends. -/
theorem declarationEnds_append {number n : Int} {header : List Line}
    (h : ∀ l ∈ header, beginsBody l = false) :
    DeclarationEnds number (header ++ lines) n ↔ DeclarationEnds (number + header.length) lines n := by
  induction header generalizing number with
  | nil => rw [List.nil_append, List.length_nil, Nat.cast_zero, add_zero]
  | cons l header ih =>
    obtain ⟨hl, hheader⟩ := List.forall_mem_cons.1 h
    rw [List.cons_append, declarationEnds_cons_of_not_beginsBody hl, ih hheader, List.length_cons,
      number_add_succ]

/-- A declaration whose first body is in braces ends with the first line behind which none is open. -/
theorem declarationEnd?_append_eq_some_iff {number n : Int} {header : List Line} {opener : Line}
    (hheader : ∀ l ∈ header, beginsBody l = false) (hopener : bodyOpener? line = some opener) :
    declarationEnd? number (header ++ line :: rest) = some n ↔
      ∃ place closing below, ClosesAt 0 (opener :: rest) place ∧
        (line :: rest).drop place = closing :: below ∧
          n = bodyEndAt (number + header.length + place) closing below := by
  have hbegins : beginsBody line = true := by
    rw [beginsBody, hopener, Option.isSome_some, Bool.true_or]
  rw [declarationEnd?_eq_some_iff, declarationEnds_append hheader,
    declarationEnds_cons_of_beginsBody hbegins]
  constructor
  · intro h
    cases h with
    | expression hnone => rw [hopener] at hnone; cases hnone
    | braces hopener' hcloses hdrop =>
      obtain rfl := Option.some.inj (hopener.symm.trans hopener')
      exact ⟨_, _, _, hcloses, hdrop, rfl⟩
  · rintro ⟨place, closing, below, hcloses, hdrop, rfl⟩
    exact .braces hopener hcloses hdrop

/-- Such a declaration has no end iff a brace stays open behind every line of the body. -/
theorem declarationEnd?_append_eq_none_iff (number : Int) {header : List Line} {opener : Line}
    (hheader : ∀ l ∈ header, beginsBody l = false) (hopener : bodyOpener? line = some opener) :
    declarationEnd? number (header ++ line :: rest) = none ↔
      ∀ k < (opener :: rest).length, 0 < balance ((opener :: rest).take (k + 1)) := by
  constructor
  · intro hnone k hk
    by_contra hclosed
    rw [not_lt, ← zero_add (balance _)] at hclosed
    obtain ⟨place, hplace, hcloses⟩ := exists_closesAt hclosed
    have hlt : place < (line :: rest).length := lt_of_le_of_lt hplace hk
    exact Option.eq_none_iff_forall_ne_some.1 hnone _
      ((declarationEnd?_append_eq_some_iff hheader hopener).2
        ⟨place, _, _, hcloses, List.drop_eq_getElem_cons hlt, rfl⟩)
  · intro hopen
    rw [Option.eq_none_iff_forall_ne_some]
    intro n hn
    obtain ⟨place, closing, below, hcloses, hdrop, -⟩ :=
      (declarationEnd?_append_eq_some_iff hheader hopener).1 hn
    have hlt : place < (line :: rest).length := by
      by_contra hge
      rw [List.drop_eq_nil_of_le (not_lt.1 hge)] at hdrop
      cases hdrop
    have hclosed := hcloses.closed
    rw [zero_add] at hclosed
    exact absurd (hopen place hlt) (not_lt.2 hclosed)

/-! ## Tails of callbacks -/

/-- The arguments of a callback follow its body on the line at `place` or the next: a dependency array or a
delay. -/
def hasCallbackTail (lines : List Line) (place : Nat) : Bool :=
  let joined := (lines)[place]?.getD [] ++ ' ' :: (lines)[place + 1]?.getD []
  hasArrayTail joined || hasDelayTail joined

theorem hasCallbackTail_drop (lines : List Line) (place : Nat) :
    hasCallbackTail (lines.drop place) 0 = hasCallbackTail lines place := by
  simp only [hasCallbackTail, List.getElem?_drop, Nat.add_zero, Nat.zero_add]

/-- A tail takes three lines at most, and there is none without its signs. -/
theorem bounds_of_callbackTail? {number n : Int} (h : callbackTail? number line rest = some n) :
    n ≤ number + 2 ∧ hasCallbackTail (line :: rest) 0 = true := by
  have hwindow {test : Nat → Line → Bool}
      (hfound : firstLineFrom test 0 number ((line :: rest).take tailLimit) = some n) : n ≤ number + 2 := by
    have hlast := (numberIn_of_firstLineFrom hfound).2
    have hlength := List.length_take_le tailLimit (line :: rest)
    rw [tailLimit] at hlast hlength
    omega
  have hjoined {closing : Line} (hclosing : closing <:+ line) :
      closing ++ ' ' :: rest.head?.getD [] <:+ line ++ ' ' :: rest.head?.getD [] := by
    obtain ⟨front, rfl⟩ := hclosing
    rw [List.append_assoc]
    exact List.suffix_append front _
  have htail : hasCallbackTail (line :: rest) 0 =
      (hasArrayTail (line ++ ' ' :: rest.head?.getD []) ||
        hasDelayTail (line ++ ' ' :: rest.head?.getD [])) := by
    cases rest <;> rfl
  simp only [callbackTail?] at h
  split at h
  · cases h
  · next =>
    have hsuffix := hjoined (List.dropWhile_suffix (fun c => decide (c ≠ '}')) (l := line))
    rw [htail]
    split at h
    · next harray =>
      exact ⟨hwindow h, by rw [hasArrayTail, Text.anyTail_of_suffix hsuffix harray, Bool.true_or]⟩
    · split at h
      · next hdelay =>
        refine ⟨hwindow h, ?_⟩
        rw [hasDelayTail, Text.anyTail_of_suffix hsuffix hdelay, Bool.or_true]
      · cases h

/-- A body ends with its closing line or at most two lines below, and below only with a tail. -/
theorem bounds_bodyEndAt (number : Int) (line : Line) (rest : List Line) :
    number ≤ bodyEndAt number line rest ∧ bodyEndAt number line rest ≤ number + 2 ∧
      (bodyEndAt number line rest ≠ number → hasCallbackTail (line :: rest) 0 = true) := by
  refine ⟨(numberIn_bodyEndAt number line rest).1, ?_⟩
  rw [bodyEndAt]
  cases htail : callbackTail? number line rest with
  | none => exact ⟨by simp, fun h => absurd rfl h⟩
  | some stop =>
    obtain ⟨hstop, hsigns⟩ := bounds_of_callbackTail? htail
    dsimp only
    split
    · exact ⟨by omega, fun h => absurd rfl h⟩
    · exact ⟨hstop, fun _ => hsigns⟩

/-! ## The end and the matching brace -/

/-- Where the body of a declared function opens behind its header, the end is not found iff a brace stays
open behind every line. An end that is found is not above the brace that matches the first of the body. If no
brace stays open behind the line of that brace, the end is this line, or one of the two below it if a tail
follows. -/
theorem declarationEnd?_from_matching_brace (number : Int) {header below : List Line}
    {line opener : Line} (hheader : ∀ l ∈ header, beginsBody l = false)
    (hopener : bodyOpener? line = some opener) :
    let text := opener :: below
    let found := declarationEnd? number (header ++ line :: below)
    (found = none ↔ ∀ k < text.length, 0 < balance (text.take (k + 1))) ∧
      ∀ n, found = some n → (∃ place column, FirstReturnsAt 0 text place column) ∧
        ∀ place column, FirstReturnsAt 0 text place column →
          let matching := number + header.length + place
          matching ≤ n ∧
            (balance (text.take (place + 1)) ≤ 0 →
              n ≤ matching + 2 ∧ (n ≠ matching → hasCallbackTail (line :: below) place = true)) := by
  intro text found
  refine ⟨declarationEnd?_append_eq_none_iff number hheader hopener, fun n hn => ?_⟩
  obtain ⟨closing, last, rest, hcloses, hdrop, rfl⟩ :=
    (declarationEnd?_append_eq_some_iff hheader hopener).1 hn
  obtain ⟨tail, rfl⟩ := exists_of_bodyOpener? hopener
  obtain ⟨hexists, habove⟩ := hcloses.exists_firstReturnsAt
  obtain ⟨hle, hbound, htail⟩ := bounds_bodyEndAt (number + header.length + closing) last rest
  refine ⟨hexists, fun place column hfirst => ?_⟩
  have hplace := habove place column hfirst
  refine ⟨by omega, fun hnone => ?_⟩
  -- the line of the matching brace is the one that closes the body
  rw [← zero_add (balance _)] at hnone
  obtain rfl : place = closing := le_antisymm hplace (hcloses.le_of_closed hnone)
  refine ⟨hbound, fun hne => ?_⟩
  rw [← hasCallbackTail_drop, hdrop]
  exact htail hne

/-- An effect whose parameters stand on a line of their own, with its dependencies below the body. -/
theorem declarationEnd?_from_matching_brace_dependencies :
    let header := ["effect(function f(".toList]
    let line := "  a: \x7b b: c \x7d) \x7b if (a) \x7b g(); \x7d".toList
    let opener := "\x7b if (a) \x7b g(); \x7d".toList
    let below := ["\x7d, [".toList, "  c]);".toList]
    (∀ l ∈ header, beginsBody l = false) ∧ bodyOpener? line = some opener ∧
      FirstReturnsAt 0 (opener :: below) 1 0 ∧ balance ((opener :: below).take 2) ≤ 0 ∧
        declarationEnd? 1 (header ++ line :: below) = some 4 ∧ hasCallbackTail (line :: below) 1 = true := by
  intro header line opener below
  have hheader : ∀ l ∈ header, beginsBody l = false := by decide
  have hopener : bodyOpener? line = some opener := by decide
  have hend : declarationEnd? 1 (header ++ line :: below) = some 4 := by decide
  have hnone : balance ((opener :: below).take 2) ≤ 0 := by decide
  have hopen : ∀ column < opener.length, ¬ ReturnsAt 0 (opener :: below) 0 column := by decide
  have hfirst : FirstReturnsAt 0 (opener :: below) 1 0 := by
    refine ⟨by decide, fun place column h => ?_⟩
    cases place with
    | zero => exact absurd h (hopen column (List.getElem?_eq_some_iff.1 h.1).1)
    | succ place => omega
  obtain ⟨-, hbounds⟩ := (declarationEnd?_from_matching_brace 1 hheader hopener).2 4 hend
  exact ⟨hheader, hopener, hfirst, hnone, hend, ((hbounds 1 0 hfirst).2 hnone).2 (by decide)⟩

end BranchTally
