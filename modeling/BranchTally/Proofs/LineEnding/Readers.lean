-- SUMMARY: A carriage return at the end of a line, or in front of a blank, makes no difference to what a reader finds.
import BranchTally.Proofs.Text
import BranchTally.Function.Extent

/-!
# Loose carriage returns

In a text whose lines end with carriage returns each of these stands in front of a blank or at the end.
It is a blank itself, so a search that skips blanks skips it, a run of other characters ends in front
of it as it would behind it, and no word, sign or bracket is torn apart. What is found in such a text is
what is found without the returns.
-/

namespace BranchTally

open Text

namespace Text

/-! ## Texts without returns -/

/-- The text without its carriage returns. -/
def eraseReturns (s : List Char) : List Char := s.filter (· ≠ '\r')

/-- Each carriage return is the last character or stands in front of a blank. -/
def Loose (s : List Char) : Prop := s.IsChain fun c d => c = '\r' → isBlank d = true

theorem isBlank_return : isBlank '\r' = true := by decide

theorem ne_return_of_not_isBlank {c : Char} (h : isBlank c = false) : c ≠ '\r' := by
  rintro rfl
  exact Bool.false_ne_true (h.symm.trans isBlank_return)

@[simp] theorem eraseReturns_nil : eraseReturns [] = [] := rfl

@[simp] theorem eraseReturns_return (s : List Char) : eraseReturns ('\r' :: s) = eraseReturns s := rfl

theorem eraseReturns_cons {c : Char} (h : c ≠ '\r') (s : List Char) :
    eraseReturns (c :: s) = c :: eraseReturns s :=
  List.filter_cons_of_pos (by simpa using h)

@[simp] theorem eraseReturns_append (s t : List Char) :
    eraseReturns (s ++ t) = eraseReturns s ++ eraseReturns t :=
  List.filter_append ..

namespace Loose

variable {s t : List Char}

theorem suffix (h : Loose s) (ht : t <:+ s) : Loose t := List.IsChain.suffix h ht

theorem tail {c : Char} (h : Loose (c :: s)) : Loose s := h.suffix (List.suffix_cons c s)

theorem of_isPrefix (h : Loose s) (ht : t <+: s) : Loose t := List.IsChain.prefix h ht

theorem cons {c : Char} (hc : c ≠ '\r') (h : Loose s) : Loose (c :: s) := by
  cases s with
  | nil => exact .singleton c
  | cons d s => exact .cons_cons (fun heq => absurd heq hc) h

/-- Texts may be put together in front of a blank. -/
theorem append (hs : Loose s) (ht : Loose t) (hhead : ∀ d ∈ t.head?, isBlank d = true) :
    Loose (s ++ t) :=
  List.isChain_append.2 ⟨hs, ht, fun _ _ d hd _ => hhead d hd⟩

/-- Behind a carriage return and all further ones there is a blank or nothing. -/
theorem isBlank_of_mem_head? (h : Loose ('\r' :: s)) :
    ∀ d ∈ (eraseReturns s).head?, isBlank d = true := by
  induction s with
  | nil => simp
  | cons c s ih =>
    by_cases hc : c = '\r'
    · subst hc
      exact ih h.tail
    · intro d hd
      rw [eraseReturns_cons hc, List.head?_cons, Option.mem_some_iff] at hd
      exact hd ▸ (List.isChain_cons_cons.1 h).1 rfl

theorem isBlank_of_mem_head?_erase (h : Loose s) (hs : ∀ d ∈ s.head?, isBlank d = true) :
    ∀ d ∈ (eraseReturns s).head?, isBlank d = true := by
  cases s with
  | nil => exact hs
  | cons c s =>
    by_cases hc : c = '\r'
    · subst hc
      exact h.isBlank_of_mem_head?
    · rw [eraseReturns_cons hc]
      exact hs

end Loose

/-! ## Runs -/

section

variable {s : List Char} {p : Char → Bool}

theorem return_or_eq_self (hp : p '\r' = true) : (fun c => !decide (c ≠ '\r') || p c) = p := by
  funext c
  by_cases hc : c = '\r'
  · simp [hc, hp]
  · simp [hc]

/-- A run of characters that may be carriage returns. -/
theorem dropWhile_erase_of_return (hp : p '\r' = true) (s : List Char) :
    (eraseReturns s).dropWhile p = eraseReturns (s.dropWhile p) := by
  rw [eraseReturns, List.dropWhile_filter, return_or_eq_self hp, eraseReturns]

theorem takeWhile_erase_of_return (hp : p '\r' = true) (s : List Char) :
    (eraseReturns s).takeWhile p = eraseReturns (s.takeWhile p) := by
  rw [eraseReturns, List.takeWhile_filter, return_or_eq_self hp, eraseReturns]

theorem takeWhile_eq_nil_of_blank (hp : ∀ c, isBlank c = true → p c = false)
    (hs : ∀ c ∈ s.head?, isBlank c = true) : s.takeWhile p = [] := by
  cases s with
  | nil => rfl
  | cons c s => rw [List.takeWhile_cons, hp c (hs c rfl), if_neg Bool.false_ne_true]

theorem dropWhile_eq_self_of_blank (hp : ∀ c, isBlank c = true → p c = false)
    (hs : ∀ c ∈ s.head?, isBlank c = true) : s.dropWhile p = s := by
  cases s with
  | nil => rfl
  | cons c s => rw [List.dropWhile_cons, hp c (hs c rfl), if_neg Bool.false_ne_true]

/-- A run of characters that are no blanks ends in front of a carriage return, or else in front of the
blank behind it. -/
theorem dropWhile_erase_of_blank (hp : ∀ c, isBlank c = true → p c = false) (hs : Loose s) :
    (eraseReturns s).dropWhile p = eraseReturns (s.dropWhile p) := by
  induction s with
  | nil => rfl
  | cons c s ih =>
    by_cases hc : c = '\r'
    · subst hc
      rw [List.dropWhile_cons, hp _ isBlank_return, if_neg Bool.false_ne_true, eraseReturns_return]
      exact dropWhile_eq_self_of_blank hp hs.isBlank_of_mem_head?
    · rw [eraseReturns_cons hc, List.dropWhile_cons, List.dropWhile_cons, ih hs.tail]
      split
      · rfl
      · rw [eraseReturns_cons hc]

theorem takeWhile_erase_of_blank (hp : ∀ c, isBlank c = true → p c = false) (hs : Loose s) :
    (eraseReturns s).takeWhile p = s.takeWhile p := by
  induction s with
  | nil => rfl
  | cons c s ih =>
    by_cases hc : c = '\r'
    · subst hc
      rw [List.takeWhile_cons, hp _ isBlank_return, if_neg Bool.false_ne_true, eraseReturns_return]
      exact takeWhile_eq_nil_of_blank hp hs.isBlank_of_mem_head?
    · rw [eraseReturns_cons hc, List.takeWhile_cons, List.takeWhile_cons, ih hs.tail]

@[simp] theorem skipBlanks_erase (s : List Char) :
    skipBlanks (eraseReturns s) = eraseReturns (skipBlanks s) :=
  dropWhile_erase_of_return isBlank_return s

theorem reverse_erase (s : List Char) : (eraseReturns s).reverse = eraseReturns s.reverse :=
  (List.filter_reverse ..).symm

@[simp] theorem trimEnd_erase (s : List Char) : trimEnd (eraseReturns s) = eraseReturns (trimEnd s) := by
  rw [trimEnd, reverse_erase, dropWhile_erase_of_return isBlank_return, reverse_erase, trimEnd]

@[simp] theorem trim_erase (s : List Char) : trim (eraseReturns s) = eraseReturns (trim s) := by
  rw [trim, skipBlanks_erase, trimEnd_erase, trim]

theorem Loose.skipBlanks (h : Loose s) : Loose (skipBlanks s) := h.suffix (skipBlanks_suffix s)

theorem Loose.trim (h : Loose s) : Loose (trim s) := h.skipBlanks.of_isPrefix (trim_prefix_skipBlanks s)

theorem erase_skipBlanks {c : Char} {t : List Char} (h : Text.skipBlanks s = c :: t) :
    eraseReturns (Text.skipBlanks s) = c :: eraseReturns t := by
  rw [h, eraseReturns_cons (ne_return_of_not_isBlank (isBlank_of_skipBlanks h))]

end

theorem head?_erase (h : ∀ c ∈ s.head?, c ≠ '\r') : (eraseReturns s).head? = s.head? := by
  cases s with
  | nil => rfl
  | cons c s => rw [eraseReturns_cons (h c rfl), List.head?_cons, List.head?_cons]

@[simp] theorem head?_skipBlanks_erase (s : List Char) :
    (Text.skipBlanks (eraseReturns s)).head? = (Text.skipBlanks s).head? := by
  rw [skipBlanks_erase]
  refine head?_erase fun c hc => ?_
  obtain ⟨t, ht⟩ := List.head?_eq_some_iff.1 hc
  exact ne_return_of_not_isBlank (isBlank_of_skipBlanks ht)

theorem head?_trim_erase (s : List Char) : (trim (eraseReturns s)).head? = (trim s).head? := by
  rw [trim_erase]
  refine head?_erase fun c hc => ?_
  obtain ⟨t, ht⟩ := List.head?_eq_some_iff.1 hc
  obtain ⟨rest, hrest⟩ := ht ▸ trim_prefix_skipBlanks s
  exact ne_return_of_not_isBlank (isBlank_of_skipBlanks hrest.symm)

theorem getLast?_trimEnd_erase (s : List Char) :
    (trimEnd (eraseReturns s)).getLast? = (trimEnd s).getLast? := by
  have hlast (s : List Char) : (trimEnd s).getLast? = (Text.skipBlanks s.reverse).head? := by
    rw [trimEnd, List.getLast?_reverse, Text.skipBlanks]
  rw [hlast, hlast, reverse_erase, head?_skipBlanks_erase]

/-- A search for a character comes to this character. -/
theorem head_of_dropWhile_ne {s rest : List Char} {c d : Char}
    (h : s.dropWhile (· ≠ c) = d :: rest) : d = c := by
  have hhead := List.head?_dropWhile_not (· ≠ c) s
  rw [h] at hhead
  simpa using hhead

/-! ## Readers -/

theorem char?_eq_literal? (c : Char) (s : List Char) : char? c s = literal? [c] s := by
  cases s with
  | nil => rfl
  | cons d s =>
    simp only [char?, literal?, List.isPrefixOf?, beq_iff_eq]
    exact if_congr eq_comm rfl rfl

/-- A reader that finds the same in a text and in the text without its loose carriage returns. -/
structure Steady (f : List Char → Option (List Char)) : Prop where
  erase : ∀ s, Loose s → f (eraseReturns s) = (f s).map eraseReturns
  suffix : ∀ s r, f s = some r → r <:+ s

namespace Steady

variable {f g : List Char → Option (List Char)}

theorem loose (h : Steady f) {s r : List Char} (hs : Loose s) (hr : f s = some r) : Loose r :=
  hs.suffix (h.suffix s r hr)

theorem literal {w : List Char} (hw : ∀ c ∈ w, isBlank c = false) : Steady (literal? w) where
  erase s hs := by
    induction w generalizing s with
    | nil => rfl
    | cons c w ih =>
      obtain ⟨hc, hw⟩ := List.forall_mem_cons.1 hw
      have hcons (d : Char) (s : List Char) :
          literal? (c :: w) (d :: s) = if c = d then literal? w s else none := by
        simp [literal?, List.isPrefixOf?]
      cases s with
      | nil => rfl
      | cons d s =>
        by_cases hd : d = '\r'
        · -- no word begins at the return, nor at the blank behind it
          subst hd
          have hblank := hs.isBlank_of_mem_head?
          rw [hcons, if_neg (ne_return_of_not_isBlank hc), eraseReturns_return]
          cases hrest : eraseReturns s with
          | nil => rfl
          | cons e rest =>
            have hne : c ≠ e := by
              rintro rfl
              exact Bool.false_ne_true (hc.symm.trans (hblank c (by simp [hrest])))
            rw [hcons, if_neg hne]
            rfl
        · rw [eraseReturns_cons hd, hcons, hcons, ih hw s hs.tail]
          split <;> rfl
  suffix _ _ := suffix_of_literal?

theorem char {c : Char} (hc : isBlank c = false) : Steady (char? c) := by
  have heq : char? c = literal? [c] := funext (char?_eq_literal? c)
  rw [heq]
  exact literal (by simpa using hc)

theorem spacedChar {c : Char} (hc : isBlank c = false) : Steady (spacedChar? c) where
  erase s hs := by
    rw [spacedChar?, skipBlanks_erase, (char hc).erase _ hs.skipBlanks, spacedChar?]
  suffix s r hr := ((char hc).suffix _ r hr).trans (skipBlanks_suffix s)

theorem bind (hf : Steady f) (hg : Steady g) : Steady fun s => (f s).bind g where
  erase s hs := by
    rw [hf.erase s hs]
    cases hr : f s with
    | none => rfl
    | some r => exact hg.erase r (hf.loose hs hr)
  suffix s r hr := by
    obtain ⟨t, ht, hr⟩ := Option.bind_eq_some_iff.1 hr
    exact (hg.suffix t r hr).trans (hf.suffix s t ht)

theorem or (hf : Steady f) (hg : Steady g) : Steady fun s => (f s).or (g s) where
  erase s hs := by rw [hf.erase s hs, hg.erase s hs, Option.map_or]
  suffix s r hr := by
    rcases Option.or_eq_some_iff.1 hr with hr | ⟨-, hr⟩
    · exact hf.suffix s r hr
    · exact hg.suffix s r hr

theorem filter (hf : Steady f) {test : List Char → Bool}
    (htest : ∀ s, Loose s → test (eraseReturns s) = test s) : Steady fun s => (f s).filter test where
  erase s hs := by
    rw [hf.erase s hs]
    cases hr : f s with
    | none => rfl
    | some r =>
      simp only [Option.map_some, Option.filter, htest r (hf.loose hs hr)]
      split <;> rfl
  suffix s r hr := hf.suffix s r (Option.eq_some_of_filter_eq_some hr)

theorem isSome (hf : Steady f) {s : List Char} (hs : Loose s) :
    (f (eraseReturns s)).isSome = (f s).isSome := by
  rw [hf.erase s hs, Option.isSome_map]

end Steady

/-! ## Searches -/

theorem isPrefixOf_erase {w s : List Char} (hw : ∀ c ∈ w, isBlank c = false) (hs : Loose s) :
    w.isPrefixOf (eraseReturns s) = w.isPrefixOf s := by
  have hsome := (Steady.literal hw).isSome hs
  simpa only [literal?, List.isSome_isPrefixOf?_eq_isPrefixOf] using hsome

theorem anyTail_erase {test : List Char → Bool}
    (htest : ∀ s, Loose s → test (eraseReturns s) = test s) {s : List Char} (hs : Loose s) :
    anyTail test (eraseReturns s) = anyTail test s := by
  induction s with
  | nil => rfl
  | cons c s ih =>
    by_cases hc : c = '\r'
    · subst hc
      -- what is found at the return is found behind it
      have hhere : test ('\r' :: s) = true → anyTail test (eraseReturns s) = true := by
        intro h
        rw [← htest _ hs, eraseReturns_return] at h
        cases hrest : eraseReturns s with
        | nil => rwa [hrest] at h
        | cons d rest =>
          rw [hrest] at h
          rw [anyTail, h, Bool.true_or]
      rw [eraseReturns_return, anyTail, ← ih hs.tail]
      cases hreturn : test ('\r' :: s) with
      | false => rfl
      | true => rw [hhere hreturn, Bool.true_or]
    · have hhere := htest _ hs
      rw [eraseReturns_cons hc] at hhere
      rw [eraseReturns_cons hc, anyTail, anyTail, hhere, ih hs.tail]

theorem occurs_erase {w s : List Char} (hw : ∀ c ∈ w, isBlank c = false) (hs : Loose s) :
    occurs w (eraseReturns s) = occurs w s :=
  anyTail_erase (fun _ ht => isPrefixOf_erase hw ht) hs

theorem count_erase {c : Char} (hc : c ≠ '\r') (s : List Char) :
    (eraseReturns s).count c = s.count c :=
  List.count_filter (by simpa using hc)

theorem contains_erase {c : Char} (hc : c ≠ '\r') (s : List Char) :
    (eraseReturns s).contains c = s.contains c := by
  rw [Bool.eq_iff_iff, List.contains_iff_mem, List.contains_iff_mem, eraseReturns, List.mem_filter]
  simp [hc]

end Text

end BranchTally
