-- SUMMARY: Where the comments of a line lie: behind text without their signs, apart from string content, and between slashes.
import Mathlib
import BranchTally.Line.Token
import BranchTally.Proofs.Literal.Walk

/-!
# Comment spans

A search for comments goes through text without their signs and through string content as it came. What
it finds behind depends on the text there only, and moves with it. Every span begins at a slash and ends
behind one, or at the end of the line.
-/

namespace BranchTally

/-! ## Moved spans -/

/-- The span a number of characters to the right. -/
def Span.shift (s : Span) (n : Nat) : Span := ⟨s.start + n, s.stop + n⟩

@[simp]
theorem Span.contains_shift (s : Span) (n i : Nat) : (s.shift n).contains (i + n) = s.contains i := by
  simp [contains, shift]

theorem Span.contains_shift_of_lt {s : Span} {n i : Nat} (h : i < n) :
    (s.shift n).contains i = false := by
  have hstart : ¬ s.start + n ≤ i := by omega
  simp [contains, shift, hstart]

theorem commentSpansFrom_add (n skip : Nat) (opened : Option Nat) (pos : Nat)
    (cells : List (Char × Bool)) :
    commentSpansFrom skip (opened.map (· + n)) (pos + n) cells =
      (commentSpansFrom skip opened pos cells).map (·.shift n) := by
  induction cells generalizing skip opened pos with
  | nil => cases opened <;> simp [commentSpansFrom, Span.shift]
  | cons cell cells ih =>
    have hnext : pos + n + 1 = pos + 1 + n := Nat.add_right_comm pos n 1
    cases skip with
    | succ skip => cases opened <;> simp only [commentSpansFrom, hnext, ← ih, Option.map_some, Option.map_none]
    | zero =>
      have hnone (skip : Nat) := ih skip none (pos + 1)
      have hsome (skip start : Nat) := ih skip (some start) (pos + 1)
      rw [Option.map_none] at hnone
      simp only [Option.map_some] at hsome
      cases opened with
      | none =>
        simp only [Option.map_none, commentSpansFrom, hnext, hnone, hsome]
        split_ifs
        · simp only [List.map_cons, List.map_nil, Span.shift, Nat.add_right_comm]
        · rfl
        · rfl
        · rfl
      | some start =>
        simp only [Option.map_some, commentSpansFrom, hnext, hnone, hsome]
        split_ifs
        · simp only [List.map_cons, Span.shift, Nat.add_right_comm]
        · rfl

/-! ## Text without comments -/

/-- No two neighbours in the text are the sign of a comment. -/
def Uncommented (text : Line) : Prop := text.IsChain fun a b => ¬ (a = '/' ∧ (b = '/' ∨ b = '*'))

instance (text : Line) : Decidable (Uncommented text) :=
  inferInstanceAs (Decidable (text.IsChain fun a b => ¬ (a = '/' ∧ (b = '/' ∨ b = '*'))))

theorem uncommented_of_not_mem {text : Line} (h : '/' ∉ text) : Uncommented text := by
  induction text with
  | nil => exact List.IsChain.nil
  | cons c text ih =>
    refine List.isChain_cons.2 ⟨fun d _ hsign => ?_, ih fun hmem => h (List.mem_cons_of_mem c hmem)⟩
    exact h (hsign.1 ▸ List.mem_cons_self)

theorem Uncommented.append {text rest : Line} (h : Uncommented text) (hrest : Uncommented rest)
    (hjoin : ∀ c ∈ rest.head?, c ≠ '/' ∧ c ≠ '*') : Uncommented (text ++ rest) :=
  List.isChain_append.2 ⟨h, hrest, fun _ _ d hd hsign =>
    hsign.2.elim (hjoin d hd).1 (hjoin d hd).2⟩

/-- No comment opens at a character that begins no sign. -/
theorem commentSpansFrom_code {x : Char × Bool} {rest : List (Char × Bool)}
    (hsign : x.1 = '/' → ∀ y ∈ rest.head?, y.1 ≠ '/' ∧ y.1 ≠ '*') (pos : Nat) :
    commentSpansFrom 0 none pos (x :: rest) = commentSpansFrom 0 none (pos + 1) rest := by
  obtain ⟨c, masked⟩ := x
  by_cases hc : c = '/'
  · have hnext {d : Char} (hd : d = '/' ∨ d = '*') :
        rest.head?.any (fun y => decide (y.1 = d)) = false := by
      rw [Option.any_eq_false]
      intro y hy
      obtain ⟨hslash, hstar⟩ := hsign hc y hy
      rcases hd with rfl | rfl
      · simpa using hslash
      · simpa using hstar
    simp only [commentSpansFrom, hnext (Or.inl rfl), hnext (Or.inr rfl), Bool.false_eq_true, if_false,
      ite_self]
  · simp only [commentSpansFrom, hc, decide_false, Bool.false_and, Bool.false_eq_true, if_false]

/-- No comment opens in a text without the signs of comments. -/
theorem commentSpansFrom_uncommented_append {front rest : List (Char × Bool)}
    (hfront : Uncommented (front.map Prod.fst)) (hrest : ∀ x ∈ rest.head?, x.1 ≠ '/' ∧ x.1 ≠ '*')
    (pos : Nat) :
    commentSpansFrom 0 none pos (front ++ rest) = commentSpansFrom 0 none (pos + front.length) rest := by
  induction front generalizing pos with
  | nil => rfl
  | cons x front ih =>
    -- what follows a slash is no sign
    have hnext : x.1 = '/' → ∀ y ∈ (front ++ rest).head?, y.1 ≠ '/' ∧ y.1 ≠ '*' := by
      intro hc y hy
      cases front with
      | nil => exact hrest y hy
      | cons z front =>
        obtain rfl : z = y := Option.some.inj hy
        have hpair := (List.isChain_cons_cons.1 hfront).1
        rwa [not_and, not_or, hc, imp_iff_right rfl] at hpair
    rw [List.cons_append, commentSpansFrom_code hnext, ih hfront.tail, List.length_cons, Nat.add_assoc,
      Nat.add_comm 1]

theorem commentSpans_of_uncommented {line : Line} (h : Uncommented line) : commentSpans line = [] := by
  have hcells : Uncommented ((maskedCells line).map Prod.fst) := by rwa [map_fst_maskedCells]
  have hspans := @commentSpansFrom_uncommented_append _ [] hcells (by simp) 0
  rwa [List.append_nil] at hspans

/-- Every position of a line without quotes and comments is live. -/
theorem isLive_of_unquoted {line : Line} (hquotes : ∀ c ∈ line, isQuote c = false)
    (hcomments : Uncommented line) {i : Nat} (hi : i < line.length) :
    (LiveMap.of line).isLive i = true := by
  have hmask : literalMask line = List.replicate line.length false :=
    QuoteState.mask_unquoted hquotes false
  simp [LiveMap.of, LiveMap.isLive, hmask, commentSpans_of_uncommented hcomments, hi]

/-- No comment opens in string content. -/
theorem commentSpansFrom_content_append {content rest : List (Char × Bool)}
    (h : ∀ x ∈ content, x.2 = true) (pos : Nat) :
    commentSpansFrom 0 none pos (content ++ rest) =
      commentSpansFrom 0 none (pos + content.length) rest := by
  induction content generalizing pos with
  | nil => rfl
  | cons x content ih =>
    have hmasked := h x List.mem_cons_self
    have hrest := ih (fun y hy => h y (List.mem_cons_of_mem x hy)) (pos + 1)
    rw [List.cons_append, List.length_cons, ← Nat.add_assoc, Nat.add_right_comm, ← hrest]
    simp only [commentSpansFrom, hmasked, Bool.not_true, Bool.and_false, Bool.false_eq_true, if_false]

/-! ## Where spans are found -/

/-- A span is found at a character, by the marks that are skipped and the block that is open there: it is
a line comment that begins here, or the block that ends here, or else it is found behind the character,
which may open a block or close one. -/
inductive Span.FoundAt (pos : Nat) (x : Char × Bool) (cells : List (Char × Bool)) (span : Span) :
    (skip : Nat) → (opened : Option Nat) → Prop where
  | line (hslash : x.1 = '/') (hspan : span = ⟨pos, pos + 1 + cells.length⟩) :
      FoundAt pos x cells span 0 none
  | block {start : Nat} (hslash : cells.head?.map Prod.fst = some '/')
      (hspan : span = ⟨start, pos + 2⟩) : FoundAt pos x cells span 0 (some start)
  | opens (hslash : x.1 = '/') (hmem : span ∈ commentSpansFrom 1 (some pos) (pos + 1) cells) :
      FoundAt pos x cells span 0 none
  | closes {start : Nat} (hmem : span ∈ commentSpansFrom 1 none (pos + 1) cells) :
      FoundAt pos x cells span 0 (some start)
  | behind {skip skip' : Nat} {opened : Option Nat} (hskip : skip ≤ skip' + 1)
      (hmem : span ∈ commentSpansFrom skip' opened (pos + 1) cells) : FoundAt pos x cells span skip opened

section

variable {skip pos : Nat} {opened : Option Nat} {cells : List (Char × Bool)} {span : Span}

theorem foundAt_of_mem_commentSpansFrom {x : Char × Bool}
    (h : span ∈ commentSpansFrom skip opened pos (x :: cells)) :
    span.FoundAt pos x cells skip opened := by
  obtain ⟨c, masked⟩ := x
  cases skip with
  | succ skip => cases opened <;> exact .behind (Nat.le_refl _) h
  | zero =>
    cases opened with
    | none =>
      simp only [commentSpansFrom] at h
      split_ifs at h with hslash
      · simp only [Bool.and_eq_true, decide_eq_true_eq] at hslash
        exact .line hslash.1 (List.mem_singleton.1 h)
      · simp only [Bool.and_eq_true, decide_eq_true_eq] at hslash
        exact .opens hslash.1 h
      · exact .behind (Nat.zero_le _) h
      · exact .behind (Nat.zero_le _) h
    | some start =>
      simp only [commentSpansFrom] at h
      split_ifs at h with hclose
      · simp only [Bool.and_eq_true, decide_eq_true_eq, Option.any_eq_true] at hclose
        obtain ⟨-, y, hy, hslash⟩ := hclose
        rcases List.mem_cons.1 h with hspan | h
        · exact .block (by rw [hy, Option.map_some, hslash]) hspan
        · exact .closes h
      · exact .behind (Nat.zero_le _) h

/-- A span begins where a block comment was open or else behind the marks that are read. -/
theorem start_of_mem_commentSpansFrom (h : span ∈ commentSpansFrom skip opened pos cells) :
    opened = some span.start ∨ pos + skip + (if opened.isSome then 1 else 0) ≤ span.start := by
  induction cells generalizing skip opened pos with
  | nil =>
    cases opened with
    | none => simp [commentSpansFrom] at h
    | some start => exact Or.inl (by rw [List.mem_singleton.1 h])
  | cons x cells ih =>
    cases foundAt_of_mem_commentSpansFrom h with
    | line _ hspan => exact Or.inr (by simp [hspan])
    | block _ hspan => exact Or.inl (by rw [hspan])
    | opens _ hmem =>
      right
      rcases ih hmem with heq | hle
      · simp [← Option.some.inj heq]
      · simp at hle ⊢
        omega
    | closes hmem =>
      right
      rcases ih hmem with heq | hle
      · simp at heq
      · simp at hle ⊢
        omega
    | behind hskip hmem => exact (ih hmem).imp_right fun hle => by omega

/-- A span begins at a slash, unless its block was open before, and ends behind a slash or at the end of
the text. -/
theorem slashes_of_mem_commentSpansFrom (h : span ∈ commentSpansFrom skip opened pos cells) :
    (opened = some span.start ∨
        ∃ i, span.start = pos + i ∧ (cells[i]?).map Prod.fst = some '/') ∧
      (span.stop = pos + cells.length ∨
        ∃ i, span.stop = pos + i + 1 ∧ (cells[i]?).map Prod.fst = some '/') := by
  induction cells generalizing skip opened pos with
  | nil =>
    cases opened with
    | none => simp [commentSpansFrom] at h
    | some start =>
      obtain rfl := List.mem_singleton.1 h
      exact ⟨Or.inl rfl, Or.inl rfl⟩
  | cons x cells ih =>
    -- what is found behind the first character, seen from it
    have hstart {skip' : Nat} {opened' : Option Nat}
        (hmem : span ∈ commentSpansFrom skip' opened' (pos + 1) cells) :
        opened' = some span.start ∨
          ∃ i, span.start = pos + i ∧ ((x :: cells)[i]?).map Prod.fst = some '/' :=
      (ih hmem).1.imp_right fun ⟨i, hi, hslash⟩ => ⟨i + 1, by omega, hslash⟩
    have hstop {skip' : Nat} {opened' : Option Nat}
        (hmem : span ∈ commentSpansFrom skip' opened' (pos + 1) cells) :
        span.stop = pos + (x :: cells).length ∨
          ∃ i, span.stop = pos + i + 1 ∧ ((x :: cells)[i]?).map Prod.fst = some '/' :=
      (ih hmem).2.imp (fun hend => by rw [hend, List.length_cons]; omega)
        fun ⟨i, hi, hslash⟩ => ⟨i + 1, by omega, hslash⟩
    cases foundAt_of_mem_commentSpansFrom h with
    | line hslash hspan =>
      subst hspan
      refine ⟨Or.inr ⟨0, rfl, congrArg some hslash⟩, Or.inl ?_⟩
      simp only [List.length_cons]
      omega
    | block hslash hspan =>
      subst hspan
      rw [List.head?_eq_getElem?] at hslash
      exact ⟨Or.inl rfl, Or.inr ⟨1, rfl, hslash⟩⟩
    | opens hslash hmem =>
      refine ⟨Or.inr ?_, hstop hmem⟩
      rcases hstart hmem with hopen | hat
      · exact ⟨0, (Option.some.inj hopen).symm, congrArg some hslash⟩
      · exact hat
    | closes hmem =>
      rcases hstart hmem with hopen | hat
      · simp at hopen
      · exact ⟨Or.inr hat, hstop hmem⟩
    | behind _ hmem => exact ⟨hstart hmem, hstop hmem⟩

end

/-- Neither end of a comment lies between two characters of which neither is a slash. -/
theorem isInsideComment_succ {line : Line} {i : Nat} (hi : i + 1 < line.length)
    (hhere : (line)[i]? ≠ some '/') (hnext : (line)[i + 1]? ≠ some '/') :
    isInsideComment line (i + 1) = isInsideComment line i := by
  rw [isInsideComment, isInsideComment, Bool.eq_iff_iff, List.any_eq_true, List.any_eq_true]
  refine exists_congr fun span => and_congr_right fun hspan => ?_
  obtain ⟨hstart, hstop⟩ := slashes_of_mem_commentSpansFrom hspan
  have hbegins : span.start ≠ i + 1 := by
    rintro hbegins
    rcases hstart with hopen | ⟨j, hj, hslash⟩
    · exact absurd hopen (by simp)
    · rw [getElem?_maskedCells, ← Nat.zero_add j, ← hj, hbegins] at hslash
      exact hnext hslash
  have hends : span.stop ≠ i + 1 := by
    rintro hends
    rcases hstop with hend | ⟨j, hj, hslash⟩
    · rw [length_maskedCells] at hend
      omega
    · obtain rfl : j = i := by omega
      rw [getElem?_maskedCells] at hslash
      exact hhere hslash
  simp only [Span.contains, Bool.and_eq_true, decide_eq_true_eq]
  omega

end BranchTally
