-- SUMMARY: Blanks are no word characters, and what the readers of text leave behind.
import Mathlib
import BranchTally.Text.Front

/-!
# Readers

A reader answers an end of its text. The lemmas below say so, and what stood in front of that end
where this is a single character.
-/

namespace BranchTally.Text

/-- A check of the characters of a text, without one of all characters there are. -/
theorem forall_mem_of_all {text : List Char} {p : Char → Prop} [DecidablePred p]
    (h : text.all (fun c => decide (p c)) = true) : ∀ c ∈ text, p c := by
  simpa using h

/-! ## Blanks -/

/-- The code points of the wide blanks. -/
def wideBlanks : List Nat :=
  [0x85, 0xa0, 0x1680] ++ (List.range 11).map (0x2000 + ·) ++ [0x2028, 0x2029, 0x202f, 0x205f, 0x3000]

theorem isWord_of_isBlank {c : Char} (h : isBlank c = true) : isWord c = false := by
  have hnarrow : isWideBlank c = true → c.toNat ∈ wideBlanks := by
    simp only [isWideBlank, Bool.or_eq_true, Bool.and_eq_true, beq_iff_eq, decide_eq_true_eq,
      wideBlanks, List.mem_append, List.mem_cons, List.mem_map, List.mem_range, List.not_mem_nil]
    intro hwide
    rcases hwide with ((((((((h | h) | h) | h) | h) | h) | h) | h) | h)
    all_goals first | omega | skip
    exact Or.inl (Or.inr ⟨c.toNat - 0x2000, by omega, by omega⟩)
  have hwide : ∀ n ∈ wideBlanks, 0x80 ≤ n ∧ inRanges wordRanges n = false := by decide +kernel
  simp only [isBlank, Bool.or_eq_true, Bool.and_eq_true, decide_eq_true_eq] at h
  rcases h with h | h
  · have hascii : c.toNat < 0x80 := by omega
    have hbar : c ≠ '_' := by
      rintro rfl
      revert h
      decide
    simp only [isWord, hascii, if_true, isLatinLetter, isLatinDigit, Bool.or_eq_false_iff,
      Bool.and_eq_false_iff, decide_eq_false_iff_not, beq_eq_false_iff_ne, ne_eq]
    exact ⟨⟨by omega, by omega⟩, hbar⟩
  · obtain ⟨hlarge, hnone⟩ := hwide _ (hnarrow h)
    rw [isWord, if_neg (by omega), hnone]

theorem skipBlanks_append {gap : List Char} (h : ∀ c ∈ gap, isBlank c = true) (rest : List Char) :
    skipBlanks (gap ++ rest) = skipBlanks rest :=
  List.dropWhile_append_of_pos h

theorem skipBlanks_cons_of_not_isBlank {c : Char} (h : isBlank c = false) (rest : List Char) :
    skipBlanks (c :: rest) = c :: rest := by
  rw [skipBlanks, List.dropWhile_cons, h]
  rfl

/-- What skipping blanks leaves does not begin with a blank. -/
theorem isBlank_of_skipBlanks {s t : List Char} {c : Char} (h : skipBlanks s = c :: t) :
    isBlank c = false := by
  have hhead := List.head?_dropWhile_not isBlank s
  rw [skipBlanks] at h
  rwa [h] at hhead

theorem blank_of_skipBlanks_eq_nil {s : List Char} (h : skipBlanks s = []) : ∀ c ∈ s, isBlank c = true :=
  List.dropWhile_eq_nil_iff.1 h

/-- Text that is not blank stays in front of what is behind it. -/
theorem skipBlanks_append_of_eq_cons {s t : List Char} {c : Char} (h : skipBlanks s = c :: t)
    (rest : List Char) : skipBlanks (s ++ rest) = c :: t ++ rest := by
  rw [skipBlanks] at h
  rw [skipBlanks, List.dropWhile_append, h]
  rfl

theorem exists_blanks_append (s : List Char) :
    ∃ gap, s = gap ++ skipBlanks s ∧ ∀ c ∈ gap, isBlank c = true :=
  ⟨s.takeWhile isBlank, List.takeWhile_append_dropWhile.symm, fun _ => List.mem_takeWhile_imp⟩

theorem skipBlanks_skipBlanks (s : List Char) : skipBlanks (skipBlanks s) = skipBlanks s :=
  List.dropWhile_idempotent _ s

/-! ## Readers -/

theorem literal?_eq_some_iff {w s rest : List Char} : literal? w s = some rest ↔ s = w ++ rest := by
  unfold literal?
  induction w generalizing s with
  | nil => simp [List.isPrefixOf?, eq_comm]
  | cons c w ih =>
    cases s with
    | nil => simp [List.isPrefixOf?]
    | cons d s =>
      by_cases h : c = d
      · simp [List.isPrefixOf?, h, ih]
      · simp [List.isPrefixOf?, h, Ne.symm h]

theorem suffix_of_literal? {w s rest : List Char} (h : literal? w s = some rest) : rest <:+ s :=
  ⟨w, (literal?_eq_some_iff.1 h).symm⟩

theorem suffix_of_oneOf? {ws : List (List Char)} {s rest : List Char} (h : oneOf? ws s = some rest) :
    rest <:+ s := by
  obtain ⟨w, -, hw⟩ := List.exists_of_findSome?_eq_some h
  exact suffix_of_literal? hw

theorem skipBlanks_suffix (s : List Char) : skipBlanks s <:+ s := List.dropWhile_suffix _

theorem trim_prefix_skipBlanks (s : List Char) : trim s <+: skipBlanks s := by
  rw [trim, trimEnd, ← List.reverse_suffix, List.reverse_reverse]
  exact List.dropWhile_suffix _

theorem mem_of_mem_trim {line : List Char} {c : Char} (h : c ∈ trim line) : c ∈ line :=
  (skipBlanks_suffix line).subset ((trim_prefix_skipBlanks line).subset h)

theorem eq_skipBlanks_of_blanks? {s rest : List Char} (h : blanks? s = some rest) :
    rest = skipBlanks s := by
  cases s with
  | nil => simp [blanks?, run?] at h
  | cons c s =>
    simp only [blanks?, run?] at h
    split at h
    · next hblank => rw [← Option.some.inj h, skipBlanks, List.dropWhile_cons_of_pos hblank]
    · simp at h

theorem suffix_of_blanks? {s rest : List Char} (h : blanks? s = some rest) : rest <:+ s :=
  eq_skipBlanks_of_blanks? h ▸ skipBlanks_suffix s

theorem suffix_of_word? {s rest : List Char} (h : word? s = some rest) : rest <:+ s := by
  cases s with
  | nil => simp [word?, run?] at h
  | cons c s =>
    simp only [word?, run?] at h
    split at h
    · obtain rfl := Option.some.inj h
      exact (List.dropWhile_suffix _).trans (List.suffix_cons _ _)
    · simp at h

/-- The character that `spacedChar?` takes stands right in front of what is left. -/
theorem suffix_of_spacedChar? {c : Char} {s rest : List Char} (h : spacedChar? c s = some rest) :
    c :: rest <:+ s :=
  char?_eq_some_iff.1 h ▸ skipBlanks_suffix s

/-! ## Searches -/

theorem anyTail_eq_false {p : List Char → Bool} {s : List Char} (h : ∀ t, t <:+ s → p t = false) :
    anyTail p s = false := by
  induction s with
  | nil => exact h [] (List.suffix_refl _)
  | cons c s ih =>
    rw [anyTail, h _ (List.suffix_refl _), Bool.false_or]
    exact ih fun t ht => h t (ht.trans (List.suffix_cons _ _))

theorem anyTail_of_suffix {p : List Char → Bool} {s t : List Char} (hsuffix : s <:+ t)
    (h : anyTail p s = true) : anyTail p t = true := by
  obtain ⟨front, rfl⟩ := hsuffix
  induction front with
  | nil => exact h
  | cons c front ih => rw [List.cons_append, anyTail, ih, Bool.or_true]

/-- A fixed text has a first occurrence exactly if it occurs. -/
theorem isSome_find? (w s : List Char) : (find? w s).isSome = occurs w s := by
  induction s with
  | nil => cases w <;> rfl
  | cons c s ih =>
    rw [find?, occurs, anyTail, ← occurs, ← ih]
    split
    · next hw => rw [hw, Bool.true_or]; rfl
    · next hw => rw [Option.isSome_map, Bool.eq_false_iff.2 hw, Bool.false_or]

end BranchTally.Text
