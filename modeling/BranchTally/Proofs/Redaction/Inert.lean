-- SUMMARY: Searches and bracket walks agree on texts that differ only in characters at which none of them stops.
import Mathlib
import BranchTally.Parameter.Points
import BranchTally.Proofs.Text

/-!
# Inert characters

Lines without comments are searched for brackets, operators, arrows, tags and semicolons. A text in
which every other character is replaced gives the same places, as long as no search looks at whole
words.
-/

namespace BranchTally

open Text

/-- The characters that searches stop at. -/
def readChars : List Char :=
  ['(', ')', '{', '}', '<', '>', '=', '&', '|', ';', '*', '\\', '\'', '"', '\x60', '\n']

/-- No search stops at the character. -/
def isInert (c : Char) : Bool := !readChars.contains c

/-- The characters are the same or both inert. -/
def SameChar (c c' : Char) : Prop := c = c' ∨ isInert c = true ∧ isInert c' = true

/-- Texts whose characters are the same or both inert, one by one. -/
abbrev SameText : Line → Line → Prop := List.Forall₂ SameChar

theorem ne_of_isInert {c x : Char} (hx : isInert x = false) (hc : isInert c = true) : c ≠ x := by
  rintro rfl
  exact Bool.false_ne_true (hx.symm.trans hc)

theorem SameText.refl (l : Line) : SameText l l := List.forall₂_same.2 fun _ _ => Or.inl rfl

theorem sameText_of_isInert {l l' : Line} (hlength : l.length = l'.length)
    (hl : ∀ c ∈ l, isInert c = true) (hl' : ∀ c ∈ l', isInert c = true) : SameText l l' :=
  List.forall₂_of_length_eq_of_get hlength fun _ _ _ =>
    Or.inr ⟨hl _ (List.get_mem _ _), hl' _ (List.get_mem _ _)⟩

namespace SameChar

variable {c c' x : Char} (h : SameChar c c')

include h

theorem eq_iff (hx : isInert x = false) : c = x ↔ c' = x := by
  rcases h with rfl | ⟨hc, hc'⟩
  · rfl
  · exact iff_of_false (ne_of_isInert hx hc) (ne_of_isInert hx hc')

theorem decide_ne (hx : isInert x = false) : decide (c ≠ x) = decide (c' ≠ x) :=
  decide_eq_decide.2 (not_congr (h.eq_iff hx))

theorem step (s : ListState) : s.step c = s.step c' := by
  simp only [ListState.step, h.eq_iff (by decide : isInert '(' = false),
    h.eq_iff (by decide : isInert ')' = false), h.eq_iff (by decide : isInert '{' = false),
    h.eq_iff (by decide : isInert '}' = false)]

theorem isLogicalChar : isLogicalChar c = BranchTally.isLogicalChar c' := by
  simp only [BranchTally.isLogicalChar, h.eq_iff (by decide : isInert '&' = false),
    h.eq_iff (by decide : isInert '|' = false)]

end SameChar

namespace SameText

variable {l l' : Line} (h : SameText l l')

include h

/-! ## Parts of texts -/

theorem head?_eq_iff {x : Char} (hx : isInert x = false) : l.head? = some x ↔ l'.head? = some x := by
  cases h with
  | nil => rfl
  | cons hfirst _ => simpa using hfirst.eq_iff hx

theorem isEmpty : l.isEmpty = l'.isEmpty := by cases h <;> rfl

theorem contains {x : Char} (hx : isInert x = false) : l.contains x = l'.contains x := by
  induction h with
  | nil => rfl
  | @cons c c' _ _ hfirst _ ih =>
    have hsame : (x == c) = (x == c') := by
      rw [Bool.eq_iff_iff, beq_iff_eq, beq_iff_eq, eq_comm, hfirst.eq_iff hx, eq_comm]
    rw [List.contains_cons, List.contains_cons, ih, hsame]

theorem takeWhile {p : Char → Bool} (hp : ∀ c c', SameChar c c' → p c = p c') :
    SameText (l.takeWhile p) (l'.takeWhile p) := by
  induction h with
  | nil => exact .nil
  | @cons c c' _ _ hfirst _ ih =>
    rw [List.takeWhile_cons, List.takeWhile_cons, ← hp _ _ hfirst]
    split
    · exact .cons hfirst ih
    · exact .nil

theorem dropWhile {p : Char → Bool} (hp : ∀ c c', SameChar c c' → p c = p c') :
    SameText (l.dropWhile p) (l'.dropWhile p) := by
  induction h with
  | nil => exact .nil
  | @cons c c' _ _ hfirst hrest ih =>
    rw [List.dropWhile_cons, List.dropWhile_cons, ← hp _ _ hfirst]
    split
    · exact ih
    · exact .cons hfirst hrest

/-! ## Searches -/

theorem anyPair {p : Char → Bool} (hp : ∀ c c', SameChar c c' → p c = p c') :
    anyPair p l = Text.anyPair p l' := by
  induction h with
  | nil => rfl
  | cons hfirst hrest ih =>
    cases hrest with
    | nil => rfl
    | cons hsecond _ => simp only [Text.anyPair, hp _ _ hfirst, hp _ _ hsecond, ih]

theorem hasLogicalPair : hasLogicalPair l = BranchTally.hasLogicalPair l' :=
  h.anyPair fun _ _ hc => hc.isLogicalChar

theorem isPrefixOf {w : List Char} (hw : ∀ c ∈ w, isInert c = false) :
    w.isPrefixOf l = w.isPrefixOf l' := by
  induction w generalizing l l' with
  | nil => simp
  | cons x w ih =>
    cases h with
    | nil => rfl
    | @cons c c' _ _ hfirst hrest =>
      have hsame : (x == c) = (x == c') := by
        rw [Bool.eq_iff_iff, beq_iff_eq, beq_iff_eq, eq_comm,
          hfirst.eq_iff (hw x List.mem_cons_self), eq_comm]
      rw [List.isPrefixOf_cons_cons, List.isPrefixOf_cons_cons, hsame,
        ih hrest fun c hc => hw c (List.mem_cons_of_mem _ hc)]

theorem anyTail {p : Line → Bool} (hp : ∀ l l', SameText l l' → p l = p l') :
    anyTail p l = Text.anyTail p l' := by
  induction h with
  | nil => rfl
  | cons hfirst hrest ih => simp only [Text.anyTail, hp _ _ (.cons hfirst hrest), ih]

theorem find? {w : List Char} (hw : ∀ c ∈ w, isInert c = false) : find? w l = Text.find? w l' := by
  induction h with
  | nil => rfl
  | cons hfirst hrest ih =>
    have hprefix := isPrefixOf (.cons hfirst hrest) hw
    simp only [Text.find?, hprefix, ih]

theorem lastIndexOf? {x : Char} (hx : isInert x = false) :
    lastIndexOf? x l = Text.lastIndexOf? x l' := by
  induction h with
  | nil => rfl
  | cons hfirst _ ih => simp only [Text.lastIndexOf?, ih, hfirst.eq_iff hx]

theorem hasArrow : hasArrow l = BranchTally.hasArrow l' :=
  h.anyTail fun _ _ hl => hl.isPrefixOf (forall_mem_of_all (by decide))

theorem arrowPosition? : arrowPosition? l = BranchTally.arrowPosition? l' := by
  rw [BranchTally.arrowPosition?, h.find? (forall_mem_of_all (by decide)), BranchTally.arrowPosition?]

/-! ## Brackets -/

/-- Some bracket `x` has the property behind it. -/
theorem anyTail_behind {x : Char} (hx : isInert x = false) {test p : Line → Bool}
    (hp : ∀ l l', SameText l l' → p l = p l')
    (htest : ∀ s, test s = s.head?.any fun c => c = x && p s.tail) :
    Text.anyTail test l = Text.anyTail test l' := by
  refine h.anyTail fun l l' hl => ?_
  rw [htest, htest]
  cases hl with
  | nil => rfl
  | cons hfirst hrest =>
    simp only [List.head?_cons, List.tail_cons, Option.any_some, hp _ _ hrest, hfirst.eq_iff hx]

theorem takeWhile_ne {x : Char} (hx : isInert x = false) :
    SameText (l.takeWhile (· ≠ x)) (l'.takeWhile (· ≠ x)) :=
  h.takeWhile fun _ _ hc => hc.decide_ne hx

theorem dropWhile_ne {x : Char} (hx : isInert x = false) :
    SameText (l.dropWhile (· ≠ x)) (l'.dropWhile (· ≠ x)) :=
  h.dropWhile fun _ _ hc => hc.decide_ne hx

theorem hasBracedPair : hasBracedPair l = BranchTally.hasBracedPair l' := by
  refine h.anyTail_behind (by decide : isInert '{' = false)
    (p := fun s => BranchTally.hasLogicalPair (s.takeWhile (· ≠ '}')))
    (fun _ _ hl => (hl.takeWhile_ne (by decide)).hasLogicalPair) fun s => ?_
  split
  · simp
  · next hne => cases s <;> simp_all

theorem hasParenthesisedPair : hasParenthesisedPair l = BranchTally.hasParenthesisedPair l' := by
  refine h.anyTail_behind (by decide : isInert '(' = false)
    (p := fun s => s.contains ')' && BranchTally.hasLogicalPair (s.takeWhile (· ≠ ')')))
    (fun _ _ hl => ?_) fun s => ?_
  · rw [hl.contains (by decide), (hl.takeWhile_ne (by decide)).hasLogicalPair]
  · split
    · simp
    · next hne => cases s <;> simp_all

theorem hasEqualsInParens : hasEqualsInParens l = BranchTally.hasEqualsInParens l' := by
  refine h.anyTail_behind (by decide : isInert '(' = false)
    (p := fun s => (s.takeWhile (· ≠ ')')).contains '=')
    (fun _ _ hl => (hl.takeWhile_ne (by decide)).contains (by decide)) fun s => ?_
  split
  · simp
  · next hne => cases s <;> simp_all

theorem hasBraces : hasBraces l = BranchTally.hasBraces l' := by
  refine h.anyTail_behind (by decide : isInert '{' = false) (p := fun s => s.contains '}')
    (fun _ _ hl => hl.contains (by decide)) fun s => ?_
  split
  · simp
  · next hne => cases s <;> simp_all

theorem hasBracesInParens : hasBracesInParens l = BranchTally.hasBracesInParens l' := by
  have hany {s s' : Line} (hs : SameText s s') : (s.head?.any fun c => c = '{' && s.tail.contains '}') =
      s'.head?.any fun c => c = '{' && s'.tail.contains '}' := by
    cases hs with
    | nil => rfl
    | cons hfirst hmore =>
      simp only [List.head?_cons, List.tail_cons, Option.any_some,
        contains hmore (by decide : isInert '}' = false), hfirst.eq_iff (by decide : isInert '{' = false)]
  refine h.anyTail_behind (by decide : isInert '(' = false)
    (p := fun s => (s.dropWhile fun c => c ≠ '{' && c ≠ ')').head?.any fun c =>
      c = '{' && (s.dropWhile fun c => c ≠ '{' && c ≠ ')').tail.contains '}')
    (fun l l' hl => hany (hl.dropWhile fun _ _ hc => ?_)) fun s => ?_
  · rw [hc.decide_ne (by decide), hc.decide_ne (by decide)]
  · split
    · next rest =>
      dsimp only [List.head?_cons, List.tail_cons]
      generalize rest.dropWhile (fun c => c ≠ '{' && c ≠ ')') = tail
      split
      · simp
      · next hne => cases tail <;> simp_all
    · next hne => cases s <;> simp_all

theorem balancedEndFrom {opening closing : Char} (hopening : isInert opening = false)
    (hclosing : isInert closing = false) (depth pos : Nat) :
    balancedEndFrom opening closing depth pos l =
      BranchTally.balancedEndFrom opening closing depth pos l' := by
  induction h generalizing depth pos with
  | nil => rfl
  | cons hfirst _ ih =>
    simp only [BranchTally.balancedEndFrom, hfirst.eq_iff hopening, hfirst.eq_iff hclosing, ih]

theorem balancedEnd? {opening closing : Char} (hopening : isInert opening = false)
    (hclosing : isInert closing = false) (position : Nat) :
    balancedEnd? opening closing l position = BranchTally.balancedEnd? opening closing l' position :=
  balancedEndFrom (List.forall₂_drop _ h) hopening hclosing _ _

theorem walk (isFunction : Bool) (number first : Int) (state : ListState) :
    state.walk isFunction number first l = state.walk isFunction number first l' := by
  induction h generalizing state with
  | nil => rfl
  | cons hfirst _ ih =>
    simp only [ListState.walk, hfirst.step, hfirst.eq_iff (by decide : isInert '{' = false), ih]

end SameText

end BranchTally
