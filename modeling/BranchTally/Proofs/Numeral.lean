-- SUMMARY: A whole number is read back from its decimal form.
import Mathlib
import BranchTally.Text.Numeral

/-!
# Decimal forms

The decimal form of a whole number is made of digits below U+0080, with a minus sign in front where the number
is negative. It is a numeral, and to read it gives the number back.
-/

namespace BranchTally

namespace Text

variable {c : Char} {digits : List Char}

/-! ## Digits -/

theorem bounds_of_isDigit (h : c.isDigit = true) : 48 ≤ c.toNat ∧ c.toNat ≤ 57 := by
  simp only [Char.isDigit, Bool.and_eq_true, decide_eq_true_eq] at h
  exact h

theorem decimalValue?_of_isDigit (h : c.isDigit = true) : decimalValue? c = some (c.toNat - 48) := by
  obtain ⟨hlow, hhigh⟩ := bounds_of_isDigit h
  have hlatin : isLatinDigit c = true := by simp [isLatinDigit, hlow, hhigh]
  rw [decimalValue?, if_pos (by omega), if_pos hlatin]

/-- Digits are read from the left, as decimal forms are made. -/
theorem digitsFrom?_of_isDigit (h : ∀ c ∈ digits, c.isDigit = true) (n : Nat) :
    digitsFrom? n digits = some (Nat.ofDigitChars 10 digits n) := by
  induction digits generalizing n with
  | nil => rfl
  | cons c digits ih =>
    obtain ⟨hc, hdigits⟩ := List.forall_mem_cons.1 h
    have hne : c ≠ '_' := by
      rintro rfl
      exact absurd hc (by decide)
    rw [digitsFrom?.eq_3 n c digits (fun _ _ h => absurd h hne), decimalValue?_of_isDigit hc,
      Nat.ofDigitChars_cons, Nat.mul_comm 10]
    exact ih hdigits _

theorem natural?_of_isDigit (hne : digits ≠ []) (h : ∀ c ∈ digits, c.isDigit = true) :
    natural? digits = some (Nat.ofDigitChars 10 digits 0) := by
  cases digits with
  | nil => exact absurd rfl hne
  | cons c digits =>
    obtain ⟨hc, hdigits⟩ := List.forall_mem_cons.1 h
    rw [natural?, decimalValue?_of_isDigit hc, Option.bind_some, digitsFrom?_of_isDigit hdigits,
      Nat.ofDigitChars_cons, Nat.mul_zero, Nat.zero_add]
    rfl

theorem isDigit_of_mem_toDigits {n : Nat} (h : c ∈ Nat.toDigits 10 n) : c.isDigit = true :=
  Nat.isDigit_of_mem_toDigits (by decide) (by decide) h

theorem natural?_toDigits (n : Nat) : natural? (Nat.toDigits 10 n) = some n := by
  rw [natural?_of_isDigit Nat.toDigits_ne_nil fun _ => isDigit_of_mem_toDigits,
    Nat.ofDigitChars_ten_toDigits]

/-! ## Whole numbers -/

/-- The decimal form of a whole number: digits, behind a minus sign if there is one. -/
theorem exists_toDigits (n : Int) : ∃ k : Nat,
    n = k ∧ (toString n).toList = Nat.toDigits 10 k ∨
      n = -k ∧ (toString n).toList = '-' :: Nat.toDigits 10 k := by
  rw [Int.toString_eq_repr, Int.repr_eq_if]
  split
  · next hpos =>
    refine ⟨n.toNat, Or.inl ⟨by omega, ?_⟩⟩
    rw [Nat.repr_eq_ofList_toDigits, String.toList_ofList]
  · next hneg =>
    refine ⟨(-n).toNat, Or.inr ⟨by omega, ?_⟩⟩
    rw [Nat.repr_eq_ofList_toDigits, String.toList_append]
    exact congrArg (List.cons '-') String.toList_ofList

theorem mem_toString {n : Int} (h : c ∈ (toString n).toList) : c = '-' ∨ c.isDigit = true := by
  obtain ⟨k, ⟨-, htext⟩ | ⟨-, htext⟩⟩ := exists_toDigits n
  · exact Or.inr (isDigit_of_mem_toDigits (htext ▸ h))
  · exact (List.mem_cons.1 (htext ▸ h)).imp_right isDigit_of_mem_toDigits

theorem isNumeralBlank_of_isDigit (h : c.isDigit = true) : isNumeralBlank c = false := by
  obtain ⟨hlow, hhigh⟩ := bounds_of_isDigit h
  simp only [isNumeralBlank, isWideBlank, Bool.or_eq_false_iff, Bool.and_eq_false_imp, decide_eq_true_eq,
    decide_eq_false_iff_not, beq_eq_false_iff_ne, ne_eq]
  omega

/-- Blanks are taken from around a numeral only. -/
theorem trimNumeral_of_not_blank {s : List Char} (h : ∀ c ∈ s, isNumeralBlank c = false) :
    trimNumeral s = s := by
  have hdrop {t : List Char} (ht : ∀ c ∈ t, isNumeralBlank c = false) :
      t.dropWhile isNumeralBlank = t := by
    cases t with
    | nil => rfl
    | cons c t => rw [List.dropWhile_cons_of_neg (by simp [ht c List.mem_cons_self])]
  rw [trimNumeral, hdrop h, hdrop fun c hc => h c (List.mem_reverse.1 hc), List.reverse_reverse]

theorem integer?_toString (n : Int) : integer? (toString n).toList = some n := by
  have htrim : trimNumeral (toString n).toList = (toString n).toList := by
    refine trimNumeral_of_not_blank fun c hc => ?_
    rcases mem_toString hc with rfl | hdigit
    · decide
    · exact isNumeralBlank_of_isDigit hdigit
  rw [integer?, htrim]
  obtain ⟨k, ⟨hk, htext⟩ | ⟨hk, htext⟩⟩ := exists_toDigits n
  · rw [htext, hk]
    have hsign {c : Char} (hc : c ∈ Nat.toDigits 10 k) : c ≠ '+' ∧ c ≠ '-' := by
      constructor <;> rintro rfl <;> exact absurd (isDigit_of_mem_toDigits hc) (by decide)
    split
    · next heq => exact absurd rfl (hsign (heq ▸ List.mem_cons_self)).1
    · next heq => exact absurd rfl (hsign (heq ▸ List.mem_cons_self)).2
    · rw [natural?_toDigits]
      rfl
  · rw [htext, hk]
    simp only [natural?_toDigits]
    rfl

end Text

theorem colon_not_mem_toString (n : Int) : ':' ∉ (toString n).toList := fun h => by
  rcases Text.mem_toString h with h | h <;> revert h <;> decide

end BranchTally
