-- SUMMARY: No reader passes a slash, a star or a quote, so what stands behind one does not change what is read in front of it.
import Mathlib
import BranchTally.Line.Header
import BranchTally.Proofs.Text

/-!
# Guards

Comments and strings begin and end with characters that are no part of a word, a number or a keyword
form. A reader that sets out in front of such a guard either has its piece before it or fails there,
whatever comes after.
-/

namespace BranchTally

open Text

/-! ## Guards -/

/-- The characters at the edges of comments and strings. -/
def guards : List Char := ['/', '*', '\'', '"']

/-- The character stands at the edge of a comment or a string. -/
def isGuard (c : Char) : Bool := guards.contains c

/-- A check of the guards one by one. -/
theorem forall_isGuard {p : Char → Prop} [DecidablePred p]
    (h : guards.all (fun c => decide (p c)) = true) {g : Char} (hg : isGuard g = true) : p g :=
  forall_mem_of_all h g (List.contains_iff_mem.1 hg)

/-- The reader has its piece in front of `g` or fails there. -/
def StopsAt (g : Char) (read : Line → Option Line) : Prop :=
  ∀ s rest, read (s ++ g :: rest) = (read s).map (· ++ g :: rest)

/-- The test does not look behind `g`. -/
def Blind {α : Type} (g : Char) (test : Line → α) : Prop :=
  ∀ s rest, test (s ++ g :: rest) = test s

theorem dropWhile_append_stop {p : Char → Bool} {g : Char} (hp : p g = false) (s rest : Line) :
    (s ++ g :: rest).dropWhile p = s.dropWhile p ++ g :: rest := by
  have hstop : (g :: rest).dropWhile p = g :: rest :=
    List.dropWhile_cons_of_neg (by simp [hp])
  rw [List.dropWhile_append, hstop]
  split
  · next hempty => rw [List.isEmpty_iff.1 hempty, List.nil_append]
  · rfl

theorem takeWhile_append_stop {p : Char → Bool} {g : Char} (hp : p g = false) (s rest : Line) :
    (s ++ g :: rest).takeWhile p = s.takeWhile p := by
  induction s with
  | nil => simp [hp]
  | cons c s ih =>
    cases hc : p c <;> simp [hc, ih]

/-- A reader that takes a character outright stops at every other one. -/
theorem stopsAt_char? {c g : Char} (h : g ≠ c) : StopsAt g (char? c) := by
  intro s rest
  cases s with
  | nil => simp [char?, h]
  | cons d s =>
    simp only [List.cons_append, char?]
    split <;> rfl

theorem stopsAt_literal? {w : List Char} {g : Char} (h : g ∉ w) : StopsAt g (literal? w) := by
  intro s rest
  unfold literal?
  induction w generalizing s with
  | nil => simp [List.isPrefixOf?]
  | cons c w ih =>
    obtain ⟨hc, hw⟩ := not_or.1 (List.mem_cons.not.1 h)
    cases s with
    | nil => simp [List.isPrefixOf?, Ne.symm hc]
    | cons d s =>
      by_cases hcd : c = d
      · simpa [List.isPrefixOf?, hcd] using ih hw s
      · simp [List.isPrefixOf?, hcd]

theorem stopsAt_oneOf? {ws : List (List Char)} {g : Char} (h : ∀ w ∈ ws, g ∉ w) :
    StopsAt g (oneOf? ws) := by
  intro s rest
  unfold oneOf?
  induction ws with
  | nil => rfl
  | cons w ws ih =>
    have hws := ih fun v hv => h v (List.mem_cons_of_mem _ hv)
    simp only [List.findSome?_cons, stopsAt_literal? (h w List.mem_cons_self) s rest]
    cases literal? w s with
    | none => exact hws
    | some _ => rfl

theorem stopsAt_run? {p : Char → Bool} {g : Char} (h : p g = false) : StopsAt g (run? p) := by
  intro s rest
  cases s with
  | nil => simp [run?, h]
  | cons c s =>
    simp only [List.cons_append, run?, dropWhile_append_stop h]
    split <;> rfl

theorem StopsAt.bind {g : Char} {first second : Line → Option Line} (hfirst : StopsAt g first)
    (hsecond : StopsAt g second) : StopsAt g fun s => (first s).bind second := by
  intro s rest
  simp only [hfirst s rest]
  cases first s with
  | none => rfl
  | some t => exact hsecond t rest

theorem StopsAt.isSome {g : Char} {read : Line → Option Line} (h : StopsAt g read) :
    Blind g fun s => (read s).isSome := by
  intro s rest
  simp [h s rest]

/-- What a test that is blind behind `g` says of what a reader leaves. -/
theorem StopsAt.any {g : Char} {read : Line → Option Line} {test : Line → Bool} (h : StopsAt g read)
    (htest : Blind g test) : Blind g fun s => (read s).any test := by
  intro s rest
  simp only [h s rest]
  cases read s with
  | none => rfl
  | some t => exact htest t rest

theorem blind_isPrefixOf {w : List Char} {g : Char} (h : g ∉ w) : Blind g (w.isPrefixOf ·) := by
  intro s rest
  induction w generalizing s with
  | nil => rfl
  | cons c w ih =>
    obtain ⟨hc, hw⟩ := not_or.1 (List.mem_cons.not.1 h)
    cases s with
    | nil => simp [List.isPrefixOf, Ne.symm hc]
    | cons d s => simp [List.isPrefixOf, ih hw s]

/-! ## Readers of the scanned language -/

section

variable {g : Char} (hg : isGuard g = true)

include hg

theorem isBlank_guard : isBlank g = false := forall_isGuard (p := (isBlank · = false)) (by decide) hg

theorem isWord_guard : isWord g = false := forall_isGuard (p := (isWord · = false)) (by decide) hg

theorem isIdentifierPart_guard : isIdentifierPart g = false :=
  forall_isGuard (p := (isIdentifierPart · = false)) (by decide) hg

theorem isIdentifierStart_guard : isIdentifierStart g = false :=
  forall_isGuard (p := (isIdentifierStart · = false)) (by decide) hg

theorem isQuestion_guard : g ≠ '?' := forall_isGuard (p := (· ≠ '?')) (by decide) hg

theorem skipBlanks_append_guard (s rest : Line) :
    skipBlanks (s ++ g :: rest) = skipBlanks s ++ g :: rest :=
  dropWhile_append_stop (isBlank_guard hg) s rest

theorem StopsAt.skipBlanks {read : Line → Option Line} (h : StopsAt g read) :
    StopsAt g fun s => read (Text.skipBlanks s) := by
  intro s rest
  simp only [skipBlanks_append_guard hg]
  exact h _ _

theorem StopsAt.map_skipBlanks {read : Line → Option Line} (h : StopsAt g read) :
    StopsAt g fun s => (read s).map Text.skipBlanks := by
  intro s rest
  simp only [h s rest]
  cases read s with
  | none => rfl
  | some t => exact congrArg some (skipBlanks_append_guard hg t rest)

theorem stopsAt_blanks? : StopsAt g blanks? := stopsAt_run? (isBlank_guard hg)

theorem stopsAt_word? : StopsAt g word? := stopsAt_run? (isWord_guard hg)

theorem stopsAt_identifier? : StopsAt g identifier? := by
  have hpart := isIdentifierPart_guard hg
  intro s rest
  cases s with
  | nil => simp [identifier?, isIdentifierStart_guard hg]
  | cons c s =>
    simp only [List.cons_append, identifier?, dropWhile_append_stop hpart]
    split <;> rfl

theorem stopsAt_spacedChar? {c : Char} (h : g ≠ c) : StopsAt g (spacedChar? c) :=
  (stopsAt_char? h).skipBlanks hg

theorem trimEnd_append_guard (s rest : Line) :
    trimEnd (s ++ g :: rest) = s ++ g :: trimEnd rest := by
  have hreverse : (s ++ g :: rest).reverse = rest.reverse ++ g :: s.reverse := by simp
  rw [trimEnd, hreverse, dropWhile_append_stop (isBlank_guard hg), trimEnd]
  simp

theorem trim_append_guard (s rest : Line) :
    trim (s ++ g :: rest) = skipBlanks s ++ g :: trimEnd rest := by
  rw [trim, skipBlanks_append_guard hg, trimEnd_append_guard hg]

theorem blind_atWordEnd : Blind g atWordEnd := by
  intro s rest
  cases s with
  | nil => simp [atWordEnd, isWord_guard hg]
  | cons c s => rfl

theorem stopsAt_declarators : StopsAt g fun s => oneOf? declarators (Text.skipBlanks s) :=
  (stopsAt_oneOf? fun w hw =>
    forall_isGuard (p := fun c => ∀ w ∈ declarators, c ∉ w) (by decide) hg w hw).skipBlanks hg

end

/-! ## Keyword forms -/

/-- What the form takes in front of `g` does not depend on what comes after it, no form begins at `g`
itself, and whatever fits in front of `g` has a bracket there. -/
structure KeywordForm.StopsAt (form : KeywordForm) (g : Char) : Prop where
  start : ∀ before rest, form before (g :: rest) = none
  stops : ∀ before s, ∃ taken : Option HeaderTail, ∀ rest,
    form before (s ++ g :: rest) = taken.map fun tail => ⟨tail.rest ++ g :: rest, tail.isParen⟩
  bracket : ∀ before s rest, (form before (s ++ g :: rest)).isSome → '(' ∈ s ∨ '{' ∈ s

/-- A form that reads its keyword and its parenthesis where `before` allows a keyword. -/
theorem KeywordForm.stopsAt_of_read {form : KeywordForm} {g : Char} {allowed : Option Char → Bool}
    {read : Line → Option Line}
    (hform : ∀ before s, form before s = if allowed before then (read s).map (⟨·, true⟩) else none)
    (hread : BranchTally.StopsAt g read) (hparen : ∀ s t, read s = some t → '(' ∈ s) :
    form.StopsAt g where
  start before rest := by
    have hnil : read [] = none :=
      Option.eq_none_iff_forall_ne_some.2 fun t ht => List.not_mem_nil (hparen [] t ht)
    have hstart := hread [] rest
    rw [hnil, List.nil_append, Option.map_none] at hstart
    rw [hform, hstart, Option.map_none, ite_self]
  stops before s := by
    refine ⟨form before s, fun rest => ?_⟩
    rw [hform, hform, hread s rest]
    split
    · simp [Function.comp_def]
    · rfl
  bracket before s rest h := by
    rw [hform, hread s rest] at h
    split at h
    · cases ht : read s with
      | none => simp [ht] at h
      | some t => exact Or.inl (hparen s t ht)
    · simp at h

/-- A parenthesis behind what a reader leaves is one of the text. -/
theorem paren_mem_of_bind {read : Line → Option Line} (hsuffix : ∀ s t, read s = some t → t <:+ s)
    {s t : Line} (h : (read s).bind (spacedChar? '(') = some t) : '(' ∈ s := by
  obtain ⟨u, hu, ht⟩ := Option.bind_eq_some_iff.1 h
  exact (hsuffix s u hu).subset ((suffix_of_spacedChar? ht).subset List.mem_cons_self)

/-- The header behind a keyword, by the sign that stands there: `atEnd` where nothing does. -/
def signTail? (atEnd : Option HeaderTail) (isParen? : Char → Option Bool) : Line → Option HeaderTail
  | [] => atEnd
  | c :: rest => (isParen? c).map (⟨rest, ·⟩)

/-- The text after `else if`. -/
def elseIfWords? (s : Line) : Option Line :=
  ((literal? ['e', 'l', 's', 'e'] s).bind blanks?).bind (literal? ['i', 'f'])

/-- The text after `for` and its parenthesis, with `await` between them or without. -/
def forTail? (s : Line) : Option Line :=
  (literal? ['f', 'o', 'r'] s).bind fun rest =>
    spacedChar? '('
      ((literal? ['a', 'w', 'a', 'i', 't'] (skipBlanks rest)).getD (skipBlanks rest))

section

variable {g : Char} (hg : isGuard g = true)

include hg

theorem ne_paren_guard : g ≠ '(' := forall_isGuard (p := (· ≠ '(')) (by decide) hg

theorem ne_brace_guard : g ≠ '{' := forall_isGuard (p := (· ≠ '{')) (by decide) hg

/-- A keyword of letters, followed by a parenthesis. -/
theorem parenForm_stopsAt {word : List Char} (hword : ∀ c ∈ word, isWord c = true) :
    (parenForm word).StopsAt g := by
  have hnone : g ∉ word := fun hmem => Bool.false_ne_true ((isWord_guard hg).symm.trans (hword g hmem))
  refine KeywordForm.stopsAt_of_read (fun _ _ => rfl)
    ((stopsAt_literal? hnone).bind (stopsAt_spacedChar? hg (ne_paren_guard hg))) fun _ _ =>
      paren_mem_of_bind fun _ _ => suffix_of_literal?

theorem elseIfForm_stopsAt : elseIfForm.StopsAt g := by
  have hletters : ∀ w ∈ [['e', 'l', 's', 'e'], ['i', 'f']], g ∉ w :=
    forall_isGuard (p := fun c => ∀ w ∈ [['e', 'l', 's', 'e'], ['i', 'f']], c ∉ w) (by decide) hg
  have hwords : StopsAt g elseIfWords? :=
    ((stopsAt_literal? (hletters _ (by simp))).bind (stopsAt_blanks? hg)).bind
      (stopsAt_literal? (hletters _ (by simp)))
  have hsuffix (s t : Line) (h : elseIfWords? s = some t) : t <:+ s := by
    obtain ⟨u, hu, ht⟩ := Option.bind_eq_some_iff.1 h
    obtain ⟨v, hv, hu⟩ := Option.bind_eq_some_iff.1 hu
    exact (suffix_of_literal? ht).trans ((suffix_of_blanks? hu).trans (suffix_of_literal? hv))
  exact KeywordForm.stopsAt_of_read (fun _ _ => rfl)
    (hwords.bind (stopsAt_spacedChar? hg (ne_paren_guard hg)))
    fun s t h => paren_mem_of_bind hsuffix h

theorem forTail?_stopsAt : StopsAt g forTail? := by
  have hletters : ∀ w ∈ [['f', 'o', 'r'], ['a', 'w', 'a', 'i', 't']], g ∉ w :=
    forall_isGuard (p := fun c => ∀ w ∈ [['f', 'o', 'r'], ['a', 'w', 'a', 'i', 't']], c ∉ w)
      (by decide) hg
  have hparen : StopsAt g (spacedChar? '(') := stopsAt_spacedChar? hg (ne_paren_guard hg)
  refine (stopsAt_literal? (hletters _ (by simp))).bind fun s rest => ?_
  rw [skipBlanks_append_guard hg, stopsAt_literal? (hletters _ (by simp)) (skipBlanks s) rest]
  cases literal? ['a', 'w', 'a', 'i', 't'] (skipBlanks s) with
  | none => exact hparen _ rest
  | some t => exact hparen t rest

theorem forForm_stopsAt : forForm.StopsAt g := by
  have hform (before : Option Char) (s : Line) :
      forForm before s = if mayOpenKeyword before then (forTail? s).map (⟨·, true⟩) else none := by
    unfold forForm forTail?
    cases literal? ['f', 'o', 'r'] s <;> rfl
  refine KeywordForm.stopsAt_of_read hform (forTail?_stopsAt hg) fun s t h => ?_
  obtain ⟨u, hu, ht⟩ := Option.bind_eq_some_iff.1 h
  have hawait : (literal? ['a', 'w', 'a', 'i', 't'] (skipBlanks u)).getD (skipBlanks u) <:+ u := by
    cases hsome : literal? ['a', 'w', 'a', 'i', 't'] (skipBlanks u) with
    | none => exact skipBlanks_suffix u
    | some v => exact (suffix_of_literal? hsome).trans (skipBlanks_suffix u)
  exact ((hawait.trans (suffix_of_literal? hu)).subset
    ((suffix_of_spacedChar? ht).subset List.mem_cons_self))

/-- A form that reads its keyword and one sign behind it, which is a parenthesis or a brace. -/
theorem KeywordForm.stopsAt_of_sign {form : KeywordForm} {word : List Char}
    (atEnd : Option HeaderTail) (isParen? : Char → Option Bool)
    (hform : ∀ before s, form before s = if mayOpenKeyword before then
      (literal? word s).bind fun rest => signTail? atEnd isParen? (skipBlanks rest) else none)
    (hnil : word ≠ []) (hword : g ∉ word)
    (hsign : ∀ c isParen, isParen? c = some isParen → c = '(' ∨ c = '{') : form.StopsAt g := by
  have hguard : isParen? g = none := Option.eq_none_iff_forall_ne_some.2 fun isParen h =>
    (hsign g isParen h).elim (ne_paren_guard hg) (ne_brace_guard hg)
  have hread := stopsAt_literal? hword
  constructor
  · intro before rest
    have hstart := hread [] rest
    have hempty : literal? word [] = none := by
      obtain ⟨c, more, rfl⟩ := List.exists_cons_of_ne_nil hnil
      rfl
    rw [hempty, List.nil_append, Option.map_none] at hstart
    rw [hform, hstart, Option.bind_none, ite_self]
  · intro before s
    simp only [hform, hread s]
    split
    · cases hliteral : literal? word s with
      | none => exact ⟨none, fun _ => rfl⟩
      | some t =>
        simp only [Option.map_some, Option.bind_some, skipBlanks_append_guard hg]
        cases hskip : skipBlanks t with
        | nil =>
          -- at the end of the text a keyword may do without a sign, but a guard is no end
          exact ⟨none, fun rest => by simp [signTail?, hguard]⟩
        | cons c more =>
          refine ⟨(isParen? c).map (⟨more, ·⟩), fun rest => ?_⟩
          rw [List.cons_append, signTail?, Option.map_map]
          rfl
    · exact ⟨none, fun _ => rfl⟩
  · intro before s rest h
    simp only [hform, hread s] at h
    split at h
    · cases hliteral : literal? word s with
      | none => simp [hliteral] at h
      | some t =>
        simp only [hliteral, Option.map_some, Option.bind_some, skipBlanks_append_guard hg] at h
        cases hskip : skipBlanks t with
        | nil => simp [hskip, signTail?, hguard] at h
        | cons c more =>
          have hmem : c ∈ s := (suffix_of_literal? hliteral).subset
            ((skipBlanks_suffix t).subset (hskip ▸ List.mem_cons_self))
          rw [hskip, List.cons_append, signTail?, Option.isSome_map] at h
          obtain ⟨isParen, hisParen⟩ := Option.isSome_iff_exists.1 h
          rcases hsign c isParen hisParen with rfl | rfl
          · exact Or.inl hmem
          · exact Or.inr hmem
    · simp at h

theorem doForm_stopsAt : doForm.StopsAt g := by
  have hword : g ∉ ['d', 'o'] := forall_isGuard (p := (· ∉ ['d', 'o'])) (by decide) hg
  refine KeywordForm.stopsAt_of_sign hg (some ⟨[], false⟩)
    (fun c => if c = '{' then some false else none) (fun before s => ?_) (List.cons_ne_nil _ _) hword
    fun c isParen h => ?_
  · unfold doForm
    cases literal? ['d', 'o'] s with
    | none => rfl
    | some rest =>
      dsimp only [Option.bind_some]
      cases skipBlanks rest with
      | nil => rfl
      | cons c rest =>
        simp only [signTail?]
        split_ifs <;> rfl
  · split_ifs at h with hbrace
    exact Or.inr hbrace

theorem catchForm_stopsAt : catchForm.StopsAt g := by
  have hword : g ∉ ['c', 'a', 't', 'c', 'h'] :=
    forall_isGuard (p := (· ∉ ['c', 'a', 't', 'c', 'h'])) (by decide) hg
  refine KeywordForm.stopsAt_of_sign hg none
    (fun c => if c = '(' then some true else if c = '{' then some false else none)
    (fun before s => ?_) (List.cons_ne_nil _ _) hword fun c isParen h => ?_
  · unfold catchForm
    cases literal? ['c', 'a', 't', 'c', 'h'] s with
    | none => rfl
    | some rest =>
      dsimp only [Option.bind_some, Option.map_some]
      cases skipBlanks rest with
      | nil => rfl
      | cons c rest =>
        simp only [signTail?]
        split_ifs <;> rfl
  · split_ifs at h with hparen hbrace
    · exact Or.inl hparen
    · exact Or.inr hbrace

end

/-- The forms that `Headers.of` looks for. -/
def keywordForms : List KeywordForm :=
  [ifForm, elseIfForm, forForm, whileForm, doForm, switchForm, catchForm]

theorem stopsAt_of_mem_keywordForms {g : Char} (hg : isGuard g = true) {form : KeywordForm}
    (h : form ∈ keywordForms) : form.StopsAt g := by
  simp only [keywordForms, List.mem_cons, List.not_mem_nil, or_false] at h
  rcases h with rfl | rfl | rfl | rfl | rfl | rfl | rfl
  · exact parenForm_stopsAt hg (forall_mem_of_all (by decide))
  · exact elseIfForm_stopsAt hg
  · exact forForm_stopsAt hg
  · exact parenForm_stopsAt hg (forall_mem_of_all (by decide))
  · exact doForm_stopsAt hg
  · exact parenForm_stopsAt hg (forall_mem_of_all (by decide))
  · exact catchForm_stopsAt hg

end BranchTally
