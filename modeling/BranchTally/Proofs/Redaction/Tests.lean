-- SUMMARY: The tests that tell declarations, calls and markup apart stop at a guard, and searches by such tests split there.
import Mathlib
import BranchTally.Proofs.Reading.Shape
import BranchTally.Proofs.Redaction.Guard

/-!
# Tests up to a guard

The tests of a line read words from its start, or from every place of it, and stop at a guard. From the
start they see only what stands in front of the guard. A search from every place finds what it would
find in front of the guard or else behind it.
-/

namespace BranchTally

open Text

/-! ## Searches -/

section

variable {g : Char}

/-- A search by a test that does not look behind `g` finds the same in front of `g` and behind it. -/
theorem Blind.anyTail {test : Line → Bool} (h : Blind g test) (s rest : Line) :
    anyTail test (s ++ g :: rest) = (Text.anyTail test s || Text.anyTail test rest) := by
  induction s with
  | nil =>
    have hguard := h [] rest
    exact congrArg (· || Text.anyTail test rest) hguard
  | cons c s ih =>
    have hhere := h (c :: s) rest
    rw [List.cons_append] at hhere
    rw [List.cons_append, Text.anyTail, Text.anyTail, hhere, ih, Bool.or_assoc]

theorem Blind.anyPlace {test : Option Char → Line → Bool} (h : ∀ before, Blind g (test before))
    (before : Option Char) (s rest : Line) :
    anyPlace test before (s ++ g :: rest) =
      (BranchTally.anyPlace test before s || BranchTally.anyPlace test (some g) rest) := by
  induction s generalizing before with
  | nil =>
    have hguard := h before [] rest
    exact congrArg (· || BranchTally.anyPlace test (some g) rest) hguard
  | cons c s ih =>
    have hhere := h before (c :: s) rest
    rw [List.cons_append] at hhere
    rw [List.cons_append, BranchTally.anyPlace, BranchTally.anyPlace, hhere, ih, Bool.or_assoc]

end

/-! ## Tests -/

section

variable {g : Char} (hg : isGuard g = true)

include hg

theorem not_mem_of_isWord {word : List Char} (hword : ∀ c ∈ word, isWord c = true) : g ∉ word :=
  fun hmem => Bool.false_ne_true ((isWord_guard hg).symm.trans (hword g hmem))

theorem blind_isReturn : Blind g isReturn :=
  (((stopsAt_literal? (not_mem_of_isWord hg (forall_mem_of_all (by decide)))).skipBlanks hg).bind
    (stopsAt_blanks? hg)).isSome

theorem stopsAt_declaredValue? : StopsAt g declaredValue? :=
  (((stopsAt_declarators hg).bind (stopsAt_blanks? hg)).bind (stopsAt_word? hg)).bind
    (stopsAt_spacedChar? hg (forall_isGuard (p := (· ≠ '=')) (by decide) hg))

theorem blind_opensWith {word : List Char} (hword : ∀ c ∈ word, isWord c = true) :
    Blind g (opensWith word) :=
  (((stopsAt_literal? (not_mem_of_isWord hg hword)).skipBlanks hg).bind
    (stopsAt_spacedChar? hg (ne_paren_guard hg))).isSome

theorem blind_isTypeDefinition : Blind g isTypeDefinition := by
  have hletters : ∀ w ∈ [['t', 'y', 'p', 'e'], ['i', 'n', 't', 'e', 'r', 'f', 'a', 'c', 'e']], g ∉ w :=
    forall_isGuard (p := fun c =>
      ∀ w ∈ [['t', 'y', 'p', 'e'], ['i', 'n', 't', 'e', 'r', 'f', 'a', 'c', 'e']], c ∉ w) (by decide) hg
  exact ((((stopsAt_oneOf? hletters).skipBlanks hg).bind (stopsAt_blanks? hg)).bind
    (stopsAt_word? hg)).isSome

theorem blind_opensStatement : Blind g opensStatement := by
  let keywords := ['f', 'u', 'n', 'c', 't', 'i', 'o', 'n'] :: declarators ++
    [['r', 'e', 't', 'u', 'r', 'n'], ['i', 'f'], ['f', 'o', 'r'], ['w', 'h', 'i', 'l', 'e']]
  have hletters : ∀ w ∈ keywords, g ∉ w :=
    forall_isGuard (p := fun c => ∀ w ∈ keywords, c ∉ w) (by decide) hg
  intro s rest
  have hword (w : List Char) (hw : w ∈ keywords) :=
    (((stopsAt_literal? (hletters w hw)).skipBlanks hg).bind (stopsAt_blanks? hg)).isSome s rest
  rw [Bool.eq_iff_iff, opensStatement, opensStatement, List.any_eq_true, List.any_eq_true]
  exact exists_congr fun w => and_congr_right fun hw => Bool.eq_iff_iff.1 (hword w hw)

/-- `object.method(`, from the dot on. -/
theorem stopsAt_methodCall :
    StopsAt g fun s => ((char? '.' s).bind word?).bind (spacedChar? '(') :=
  ((stopsAt_char? (forall_isGuard (p := (· ≠ '.')) (by decide) hg)).bind (stopsAt_word? hg)).bind
    (stopsAt_spacedChar? hg (ne_paren_guard hg))

theorem stopsAt_dependencyArray :
    StopsAt g fun s => ((char? '}' s).bind (spacedChar? ',')).bind (spacedChar? '[') :=
  ((stopsAt_char? (forall_isGuard (p := (· ≠ '}')) (by decide) hg)).bind
    (stopsAt_spacedChar? hg (forall_isGuard (p := (· ≠ ',')) (by decide) hg))).bind
    (stopsAt_spacedChar? hg (forall_isGuard (p := (· ≠ '[')) (by decide) hg))

theorem stopsAt_arrowParen : StopsAt g fun s => (literal? arrow s).bind (spacedChar? '(') :=
  (stopsAt_literal? (forall_isGuard (p := (· ∉ arrow)) (by decide) hg)).bind
    (stopsAt_spacedChar? hg (ne_paren_guard hg))

theorem stopsAt_functionParen : StopsAt g fun s =>
    (literal? ['f', 'u', 'n', 'c', 't', 'i', 'o', 'n'] s).bind (spacedChar? '(') :=
  (stopsAt_literal? (not_mem_of_isWord hg (forall_mem_of_all (by decide)))).bind
    (stopsAt_spacedChar? hg (ne_paren_guard hg))

theorem blind_opensCallback : Blind g opensCallback := by
  have heq (s : Line) : opensCallback s =
      (arrow.isPrefixOf s || ((literal? ['f', 'u', 'n', 'c', 't', 'i', 'o', 'n'] s).bind
        (spacedChar? '(')).isSome) := by
    unfold opensCallback
    split
    · rfl
    · next hne =>
      have hnone : arrow.isPrefixOf s = false := by
        rw [Bool.eq_false_iff]
        intro hprefix
        obtain ⟨rest, rfl⟩ := List.isPrefixOf_iff_prefix.1 hprefix
        exact hne rest rfl
      rw [hnone, Bool.false_or]
  intro s rest
  have harrow := blind_isPrefixOf (forall_isGuard (p := (· ∉ arrow)) (by decide) hg) s rest
  have hfunction := (stopsAt_functionParen hg).isSome s rest
  simp only at harrow hfunction
  rw [heq, heq, harrow, hfunction]

theorem blind_opensNamedFunction : Blind g opensNamedFunction := by
  let keywords := ['f', 'u', 'n', 'c', 't', 'i', 'o', 'n'] :: declarators
  have hletters : ∀ w ∈ keywords, g ∉ w :=
    forall_isGuard (p := fun c => ∀ w ∈ keywords, c ∉ w) (by decide) hg
  have hexport : StopsAt g fun s => (literal? ['e', 'x', 'p', 'o', 'r', 't'] s).bind blanks? :=
    (stopsAt_literal? (not_mem_of_isWord hg (forall_mem_of_all (by decide)))).bind (stopsAt_blanks? hg)
  have hname : StopsAt g fun s => (((oneOf? keywords s).bind blanks?).bind word?).map skipBlanks :=
    (((stopsAt_oneOf? hletters).bind (stopsAt_blanks? hg)).bind (stopsAt_word? hg)).map_skipBlanks hg
  have hequals : g ≠ '=' := forall_isGuard (p := (· ≠ '=')) (by decide) hg
  intro s rest
  have hskip (u : Line) : (((literal? ['e', 'x', 'p', 'o', 'r', 't'] (u ++ g :: rest)).bind
      blanks?).getD (u ++ g :: rest)) =
      (((literal? ['e', 'x', 'p', 'o', 'r', 't'] u).bind blanks?).getD u) ++ g :: rest := by
    have hread := hexport u rest
    simp only at hread
    rw [hread]
    cases (literal? ['e', 'x', 'p', 'o', 'r', 't'] u).bind blanks? <;> rfl
  unfold opensNamedFunction
  dsimp only
  rw [skipBlanks_append_guard hg, hskip]
  generalize ((literal? ['e', 'x', 'p', 'o', 'r', 't'] (skipBlanks s)).bind blanks?).getD
    (skipBlanks s) = u
  have hread := hname u rest
  simp only [keywords] at hread
  rw [hread]
  rcases (((oneOf? (['f', 'u', 'n', 'c', 't', 'i', 'o', 'n'] :: declarators) u).bind blanks?).bind
    word?).map skipBlanks with _ | _ | ⟨c, t⟩
  · rfl
  · simp [hequals, ne_paren_guard hg]
  · rfl

theorem blind_opensDestructuring : Blind g opensDestructuring := by
  intro s rest
  have hread := (stopsAt_declarators hg).bind (stopsAt_blanks? hg) s rest
  simp only at hread
  unfold opensDestructuring
  rw [hread]
  rcases (oneOf? declarators (skipBlanks s)).bind blanks? with _ | _ | ⟨c, t⟩
  · rfl
  · simp [ne_brace_guard hg]
  · rfl

theorem blind_opensPlainDeclaration : Blind g opensPlainDeclaration := by
  have hvalue : Blind g fun value : Line => decide (value.head? ≠ some '{') := by
    intro s rest
    cases s <;> simp [ne_brace_guard hg]
  exact ((((stopsAt_declarators hg).bind (stopsAt_blanks? hg)).bind (stopsAt_identifier? hg)).bind
    (stopsAt_spacedChar? hg (forall_isGuard (p := (· ≠ '=')) (by decide) hg))).any hvalue

theorem blind_head? {c : Char} (hc : g ≠ c) : Blind g fun s => decide ((skipBlanks s).head? = some c) := by
  intro s rest
  simp only [skipBlanks_append_guard hg]
  cases skipBlanks s <;> simp [hc]

theorem blind_isPropertyAssignment : Blind g isPropertyAssignment := by
  have hdot : g ≠ '.' := forall_isGuard (p := (· ≠ '.')) (by decide) hg
  let inPath : Char → Bool := fun c => isWord c || c = '.'
  have hpath : inPath g = false := by simp [inPath, isWord_guard hg, hdot]
  have hequals : g ≠ '=' := forall_isGuard (p := (· ≠ '=')) (by decide) hg
  intro s rest
  have htake := takeWhile_append_stop hpath (skipBlanks s) rest
  have hdrop := dropWhile_append_stop hpath (skipBlanks s) rest
  have hvalue := (stopsAt_spacedChar? hg hequals).isSome ((skipBlanks s).dropWhile inPath) rest
  simp only [inPath] at htake hdrop hvalue
  unfold isPropertyAssignment
  dsimp only
  rw [skipBlanks_append_guard hg, htake, hdrop, hvalue]

/-- `name = name` at the start of the line. -/
theorem blind_assignment : Blind g fun line =>
    (((word? (skipBlanks line)).bind (spacedChar? '=')).bind fun s => word? (skipBlanks s)).isSome :=
  ((((stopsAt_word? hg).skipBlanks hg).bind
    (stopsAt_spacedChar? hg (forall_isGuard (p := (· ≠ '=')) (by decide) hg))).bind
    ((stopsAt_word? hg).skipBlanks hg)).isSome

theorem callbackStart?_append_guard (s rest : Line) : callbackStart? (s ++ g :: rest) =
    (callbackStart? s).or ((callbackStart? rest).map (· + (s.length + 1))) := by
  induction s with
  | nil =>
    have hguard : opensCallback (g :: rest) = false := blind_opensCallback hg [] rest
    have hstep : callbackStart? (g :: rest) = (callbackStart? rest).map (· + 1) := by
      simp [callbackStart?, hguard]
    exact hstep
  | cons c s ih =>
    have hhere := blind_opensCallback hg (c :: s) rest
    rw [List.cons_append] at hhere ⊢
    rw [callbackStart?, hhere, callbackStart?, ih]
    split
    · rfl
    · cases callbackStart? s with
      | none =>
        simp only [Option.none_or, Option.map_none, Option.map_map, List.length_cons]
        exact congrArg (Option.map · _) (funext fun n => by simp only [Function.comp_apply]; omega)
      | some start => rfl

/-- The end of a line is judged by what comes behind the last guard. -/
theorem endsWithBraceComma_append_guard (s s' rest : Line) :
    endsWithBraceComma (s ++ g :: rest) = endsWithBraceComma (s' ++ g :: rest) := by
  have hcomma : g ≠ ',' := forall_isGuard (p := (· ≠ ',')) (by decide) hg
  have hbrace : g ≠ '}' := forall_isGuard (p := (· ≠ '}')) (by decide) hg
  have hreverse (s : Line) : (trimEnd (s ++ g :: rest)).reverse = (trimEnd rest).reverse ++ g :: s.reverse := by
    rw [trimEnd_append_guard hg]
    simp
  unfold endsWithBraceComma
  rw [hreverse, hreverse]
  rcases (trimEnd rest).reverse with _ | ⟨c, more⟩
  · simp [hcomma]
  · by_cases hc : c = ','
    · have hhead (s : Line) : (skipBlanks (more ++ g :: s)).head? = (skipBlanks more ++ [g]).head? := by
        rw [skipBlanks_append_guard hg]
        cases skipBlanks more <;> rfl
      simp only [hc, List.cons_append, hhead]
    · simp [hc]

/-! ## Tags -/

theorem blind_opensStartTag : Blind g opensStartTag := by
  have hopen : g ≠ '<' := forall_isGuard (p := (· ≠ '<')) (by decide) hg
  have hletter : isLatinLetter g = false := forall_isGuard (p := (isLatinLetter · = false)) (by decide) hg
  intro s rest
  rcases s with _ | ⟨c, _ | ⟨d, s⟩⟩
  · simp [opensStartTag, hopen]
  · by_cases hc : c = '<' <;> simp [opensStartTag, hc, hletter]
  · by_cases hc : c = '<' <;> simp [opensStartTag, hc]

variable (hslash : g ≠ '/')

include hslash

theorem blind_opensTag : Blind g opensTag := by
  have hopen : g ≠ '<' := forall_isGuard (p := (· ≠ '<')) (by decide) hg
  have hletter : isLatinLetter g = false := forall_isGuard (p := (isLatinLetter · = false)) (by decide) hg
  intro s rest
  rcases s with _ | ⟨c, _ | ⟨d, _ | ⟨e, s⟩⟩⟩
  · simp [opensTag, hopen]
  · by_cases hc : c = '<' <;> simp [opensTag, hc, hslash, hletter]
  · by_cases hc : c = '<'
    · by_cases hd : d = '/'
      · simp [opensTag, hc, hd, hletter, show isLatinLetter '/' = false by decide]
      · simp [opensTag, hc, hd]
    · simp [opensTag, hc]
  · by_cases hc : c = '<'
    · by_cases hd : d = '/' <;> simp [opensTag, hc, hd]
    · simp [opensTag, hc]

theorem blind_closesTag : Blind g closesTag := by
  have hopen : g ≠ '<' := forall_isGuard (p := (· ≠ '<')) (by decide) hg
  have hclose : g ≠ '>' := forall_isGuard (p := (· ≠ '>')) (by decide) hg
  have hletter : isLatinLetter g = false := forall_isGuard (p := (isLatinLetter · = false)) (by decide) hg
  intro s rest
  rcases s with _ | ⟨c, _ | ⟨d, _ | ⟨e, s⟩⟩⟩
  · simp [closesTag, hopen, hslash]
  · by_cases hc : c = '/'
    · simp [closesTag, hc, hclose]
    · simp [closesTag, hc, hslash]
  · by_cases hc : c = '/'
    · by_cases hd : d = '>' <;> simp [closesTag, hc, hd]
    · by_cases hc' : c = '<'
      · by_cases hd : d = '/' <;> simp [closesTag, hc', hd, hletter]
      · simp [closesTag, hc, hc']
  · by_cases hc : c = '/'
    · by_cases hd : d = '>' <;> simp [closesTag, hc, hd]
    · by_cases hc' : c = '<'
      · by_cases hd : d = '/' <;> simp [closesTag, hc', hd]
      · simp [closesTag, hc, hc']

end

end BranchTally
