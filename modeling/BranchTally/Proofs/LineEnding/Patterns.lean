-- SUMMARY: Every name pattern finds the same piece in a text with loose carriage returns as in the text without them.
import BranchTally.Proofs.FunctionName
import BranchTally.Proofs.LineEnding.Readers

/-!
# Name patterns and line endings

A name pattern is a chain of words, names and signs with blanks between them. At the end of a line the
blanks may begin with a carriage return, and the one place where this could matter, a word with nothing
but a carriage return behind it, is a dead end for every pattern. Two of the patterns try a longer form
first; they are brought into the form of two chains, of which the second is tried where the first fails.
-/

namespace BranchTally

open Text

/-! ## Steady patterns -/

namespace NamePattern

/-- A pattern that finds the same piece in a text and in the text without its loose carriage returns. -/
structure Steady (p : NamePattern) : Prop where
  erase : ∀ s, Loose s → p (eraseReturns s) = (p s).map fun r => (r.1, eraseReturns r.2)
  suffix : ∀ s r, p s = some r → r.2 <:+ s

/-- A steady pattern whose pieces do not begin with a blank. -/
structure SteadyWord (p : NamePattern) : Prop extends Steady p where
  nil : p [] = none
  blank : ∀ c s, isBlank c = true → p (c :: s) = none

theorem Steady.loose {p : NamePattern} (h : Steady p) {s : List Char} {r : List Char × List Char}
    (hs : Loose s) (hr : p s = some r) : Loose r.2 :=
  hs.suffix (h.suffix s r hr)

/-- To be steady, a pattern must be so where no carriage return comes first. -/
theorem steadyWord_of_cons {p : NamePattern} (hnil : p [] = none)
    (hblank : ∀ c s, isBlank c = true → p (c :: s) = none)
    (herase : ∀ c s, isBlank c = false → Loose (c :: s) →
      p (c :: eraseReturns s) = (p (c :: s)).map fun r => (r.1, eraseReturns r.2))
    (hsuffix : ∀ s r, p s = some r → r.2 <:+ s) : SteadyWord p where
  nil := hnil
  blank := hblank
  suffix := hsuffix
  erase s hs := by
    have hhead {s : List Char} (hs : ∀ c ∈ s.head?, isBlank c = true) : p s = none := by
      cases s with
      | nil => exact hnil
      | cons c s => exact hblank c s (hs c rfl)
    cases s with
    | nil => simp [hnil]
    | cons c s =>
      cases hc : isBlank c with
      | true =>
        have hfirst : ∀ d ∈ (c :: s).head?, isBlank d = true := by simpa using hc
        rw [hhead hfirst, hhead (hs.isBlank_of_mem_head?_erase hfirst)]
        rfl
      | false =>
        rw [eraseReturns_cons (ne_return_of_not_isBlank hc)]
        exact herase c s hc hs

/-! ## Words and names -/

theorem steadyWord_run {start part : Char → Bool} (hstart : ∀ c, isBlank c = true → start c = false)
    (hpart : ∀ c, isBlank c = true → part c = false) {p : NamePattern} (hnil : p [] = none)
    (hcons : ∀ c s, p (c :: s) =
      if start c then some (c :: s.takeWhile part, s.dropWhile part) else none) : SteadyWord p := by
  refine steadyWord_of_cons hnil ?_ ?_ ?_
  · intro c s hc
    rw [hcons, hstart c hc, if_neg Bool.false_ne_true]
  · intro c s _ hs
    rw [hcons, hcons, takeWhile_erase_of_blank hpart hs.tail, dropWhile_erase_of_blank hpart hs.tail]
    split <;> rfl
  · intro s r hr
    cases s with
    | nil => simp [hnil] at hr
    | cons c s =>
      rw [hcons] at hr
      split at hr
      · obtain rfl := Option.some.inj hr
        exact (List.dropWhile_suffix _).trans (List.suffix_cons _ _)
      · simp at hr

theorem steadyWord_takeIdentifier? : SteadyWord takeIdentifier? :=
  steadyWord_run (fun _ h => isIdentifierStart_eq_false (isNameChar_of_isBlank h))
    (fun _ h => isIdentifierPart_eq_false (isNameChar_of_isBlank h)) rfl fun _ _ => rfl

theorem steadyWord_takeWord? : SteadyWord takeWord? :=
  steadyWord_run (fun _ => isWord_of_isBlank) (fun _ => isWord_of_isBlank) rfl fun _ _ => rfl

/-! ## Chains -/

/-- A name, and behind it what a reader takes. -/
theorem SteadyWord.chain {p q : NamePattern} (hp : SteadyWord p) {f : List Char → Option (List Char)}
    (hf : Text.Steady f) (hq : q.Chain p f) : SteadyWord q where
  nil := by rw [hq [], hp.nil]; rfl
  blank c s hc := by rw [hq (c :: s), hp.blank c s hc]; rfl
  erase s hs := by
    rw [hq (eraseReturns s), hq s, hp.erase s hs]
    cases hx : p s with
    | none => rfl
    | some x =>
      simp only [Option.map_some, Option.bind_some, hf.erase _ (hp.loose hs hx), Option.map_map]
      rfl
  suffix s r hr := by
    rw [hq s] at hr
    obtain ⟨x, hx, hr⟩ := Option.bind_eq_some_iff.1 hr
    obtain ⟨rest, hrest, rfl⟩ := Option.map_eq_some_iff.1 hr
    exact (hf.suffix _ _ hrest).trans (hp.suffix s x hx)

/-- A fixed word without blanks, and behind it what a steady pattern takes. -/
theorem Steady.afterLiteral {k : NamePattern} (hk : Steady k) {w : List Char} (hne : w ≠ [])
    (hw : ∀ c ∈ w, isBlank c = false) : SteadyWord fun s => (literal? w s).bind k where
  nil := by
    obtain ⟨c, w, rfl⟩ := List.exists_cons_of_ne_nil hne
    rfl
  blank c s hc := by
    obtain ⟨d, w, rfl⟩ := List.exists_cons_of_ne_nil hne
    have hnone : literal? (d :: w) (c :: s) = none := by
      rw [Option.eq_none_iff_forall_ne_some]
      intro r hr
      obtain ⟨rfl, -⟩ := List.cons.inj (literal?_eq_some_iff.1 hr)
      exact Bool.false_ne_true ((hw c List.mem_cons_self).symm.trans hc)
    rw [hnone]
    rfl
  erase s hs := by
    have hsteady := Text.Steady.literal hw
    rw [hsteady.erase s hs]
    cases hr : literal? w s with
    | none => rfl
    | some r => exact hk.erase r (hsteady.loose hs hr)
  suffix s r hr := by
    obtain ⟨t, ht, hr⟩ := Option.bind_eq_some_iff.1 hr
    exact (hk.suffix t r hr).trans (suffix_of_literal? ht)

theorem SteadyWord.bind_blanks? {k : NamePattern} (hk : SteadyWord k) {s : List Char}
    (hs : ∀ c ∈ s.head?, isBlank c = true) : (blanks? s).bind k = k (skipBlanks s) := by
  cases s with
  | nil => exact hk.nil.symm
  | cons c s =>
    have hc := hs c rfl
    rw [blanks?, run?, if_pos hc, Option.bind_some, skipBlanks, List.dropWhile_cons_of_pos hc]

/-- Blanks, and behind them a piece. A text of carriage returns only has no such piece, with them or
without. -/
theorem SteadyWord.afterBlanks {k : NamePattern} (hk : SteadyWord k) :
    Steady fun s => (blanks? s).bind k where
  erase s hs := by
    cases s with
    | nil => rfl
    | cons c s =>
      cases hc : isBlank c with
      | true =>
        have hhead : ∀ d ∈ (c :: s).head?, isBlank d = true := by simpa using hc
        rw [hk.bind_blanks? hhead, hk.bind_blanks? (hs.isBlank_of_mem_head?_erase hhead),
          skipBlanks_erase, hk.erase _ hs.skipBlanks]
      | false =>
        rw [eraseReturns_cons (ne_return_of_not_isBlank hc), blanks?, run?, hc, blanks?, run?, hc]
        rfl
  suffix s r hr := by
    obtain ⟨t, ht, hr⟩ := Option.bind_eq_some_iff.1 hr
    exact (hk.suffix t r hr).trans (suffix_of_blanks? ht)

theorem SteadyWord.afterKeyword {k : NamePattern} (hk : SteadyWord k) {w : List Char} (hne : w ≠ [])
    (hw : ∀ c ∈ w, isBlank c = false) : SteadyWord fun s => (keyword? w s).bind k := by
  have heq : (fun s => (keyword? w s).bind k) =
      fun s => (literal? w s).bind fun s => (blanks? s).bind k := by
    funext s
    rw [keyword?, Option.bind_assoc]
  rw [heq]
  exact hk.afterBlanks.afterLiteral hne hw

theorem SteadyWord.or {p q : NamePattern} (hp : SteadyWord p) (hq : SteadyWord q) :
    SteadyWord fun s => (p s).or (q s) where
  nil := by rw [hp.nil, hq.nil]; rfl
  blank c s hc := by rw [hp.blank c s hc, hq.blank c s hc]; rfl
  erase s hs := by rw [hp.erase s hs, hq.erase s hs, Option.map_or]
  suffix s r hr := by
    rcases Option.or_eq_some_iff.1 hr with hr | ⟨-, hr⟩
    · exact hp.suffix s r hr
    · exact hq.suffix s r hr

end NamePattern

/-! ## Signs -/

theorem afterSign_eq_none {s : List Char} (h : skipBlanks s = []) (sign : Char → Bool)
    (f : List Char → Option (List Char)) : afterSign sign f s = none := by
  rw [afterSign, h]

theorem afterSign_cons {s rest : List Char} {c : Char} (h : skipBlanks s = c :: rest)
    (sign : Char → Bool) (f : List Char → Option (List Char)) :
    afterSign sign f s = if sign c then f rest else none := by
  rw [afterSign, h]

theorem steady_afterSign {f : List Char → Option (List Char)} (hf : Steady f) (sign : Char → Bool) :
    Steady (afterSign sign f) where
  erase s hs := by
    cases h : skipBlanks s with
    | nil =>
      rw [afterSign_eq_none h, afterSign_eq_none (by rw [skipBlanks_erase, h, eraseReturns_nil])]
      rfl
    | cons c rest =>
      have hrest : Loose rest := (h ▸ hs.skipBlanks : Loose (c :: rest)).tail
      have herased : skipBlanks (eraseReturns s) = c :: eraseReturns rest := by
        rw [skipBlanks_erase, erase_skipBlanks h]
      rw [afterSign_cons h, afterSign_cons herased, hf.erase rest hrest]
      split <;> rfl
  suffix s r hr := by
    cases h : skipBlanks s with
    | nil => simp [afterSign_eq_none h] at hr
    | cons c rest =>
      rw [afterSign_cons h] at hr
      split at hr
      · exact (hf.suffix rest r hr).trans ((List.suffix_cons c rest).trans (h ▸ skipBlanks_suffix s))
      · simp at hr

theorem steady_some : Steady some where
  erase _ _ := rfl
  suffix _ _ hr := by rw [Option.some.inj hr]

/-! ## Parameter lists -/

theorem skipParens_of_head {s : List Char} (h : ∀ c ∈ s.head?, c ≠ '(') : skipParens s = s := by
  unfold skipParens
  split
  · exact absurd rfl (h '(' rfl)
  · rfl

theorem skipParens_of_closed {s rest : List Char} {c : Char}
    (h : s.dropWhile (· ≠ ')') = c :: rest) : skipParens ('(' :: s) = skipBlanks rest := by
  simp only [skipParens, h]

theorem skipParens_of_open {s : List Char} (h : s.dropWhile (· ≠ ')') = []) :
    skipParens ('(' :: s) = '(' :: s := by
  simp only [skipParens, h]

theorem skipParens_suffix (s : List Char) : skipParens s <:+ s := by
  by_cases hs : ∀ c ∈ s.head?, c ≠ '('
  · rw [skipParens_of_head hs]
  · obtain ⟨s, rfl⟩ : ∃ t, s = '(' :: t := by
      cases s with
      | nil => simp at hs
      | cons c s => exact ⟨s, by simpa using hs⟩
    cases h : s.dropWhile (· ≠ ')') with
    | nil => rw [skipParens_of_open h]
    | cons c rest =>
      have hrest : c :: rest <:+ s := h ▸ List.dropWhile_suffix _
      rw [skipParens_of_closed h]
      exact ((skipBlanks_suffix rest).trans (List.suffix_cons c rest)).trans
        (hrest.trans (List.suffix_cons _ s))

theorem skipParens_erase {s : List Char} (hs : Loose s) :
    skipParens (eraseReturns s) = eraseReturns (skipParens s) := by
  cases s with
  | nil => rfl
  | cons c s =>
    by_cases hc : c = '('
    · subst hc
      have hdrop := dropWhile_erase_of_return (p := (· ≠ ')')) (by decide) s
      rw [eraseReturns_cons (by decide)]
      cases h : s.dropWhile (· ≠ ')') with
      | nil =>
        rw [h] at hdrop
        rw [skipParens_of_open hdrop, skipParens_of_open h, eraseReturns_cons (by decide)]
      | cons d rest =>
        rw [h, head_of_dropWhile_ne h, eraseReturns_cons (by decide)] at hdrop
        rw [skipParens_of_closed hdrop, skipParens_of_closed h, skipBlanks_erase]
    · have hhead : ∀ d ∈ (eraseReturns (c :: s)).head?, d ≠ '(' := by
        by_cases hreturn : c = '\r'
        · subst hreturn
          rintro d hd rfl
          exact Bool.false_ne_true
            ((by decide : isBlank '(' = false).symm.trans (hs.isBlank_of_mem_head? _ hd))
        · rw [eraseReturns_cons hreturn]
          simpa using hc
      rw [skipParens_of_head hhead, skipParens_of_head (by simpa using hc)]

/-- Blanks, perhaps a parameter list, and behind it what a reader takes. -/
theorem steady_afterParens {f : List Char → Option (List Char)} (hf : Steady f) :
    Steady fun s => f (skipParens (skipBlanks s)) where
  erase s hs := by
    have hskip := hs.skipBlanks
    rw [skipBlanks_erase, skipParens_erase hskip, hf.erase _ (hskip.suffix (skipParens_suffix _))]
  suffix s r hr := (hf.suffix _ r hr).trans ((skipParens_suffix _).trans (skipBlanks_suffix s))

/-! ## The patterns of declarations -/

section

open NamePattern

theorem steady_arrowSign? : Text.Steady arrowSign? := .literal (forall_mem_of_all (by decide))

theorem steady_functionSign? : Text.Steady functionSign? :=
  steady_arrowSign?.or (.literal (forall_mem_of_all (by decide)))

theorem steadyWord_calledName? : SteadyWord calledName? :=
  steadyWord_takeIdentifier?.chain (steady_afterSign steady_some _) chain_calledName?

theorem steadyWord_assignedName? (separators : List Char) {ending : List Char → Option (List Char)}
    (h : Text.Steady ending) : SteadyWord (assignedName? separators ending) :=
  steadyWord_takeIdentifier?.chain (steady_afterSign (steady_afterParens h) _)
    (chain_assignedName? separators ending)

theorem steadyWord_constPattern : SteadyWord constPattern :=
  (steadyWord_assignedName? _ steady_functionSign?).afterKeyword (by decide)
    (forall_mem_of_all (by decide))

theorem steadyWord_exportConstPattern : SteadyWord exportConstPattern :=
  steadyWord_constPattern.afterKeyword (by decide) (forall_mem_of_all (by decide))

theorem steadyWord_namedArrowPattern : SteadyWord namedArrowPattern :=
  (steadyWord_assignedName? _ steady_arrowSign?).afterKeyword (by decide)
    (forall_mem_of_all (by decide))

theorem steadyWord_exportDefaultPattern : SteadyWord exportDefaultPattern := by
  have hfunction := steadyWord_calledName?.afterKeyword (w := functionKeyword) (by decide)
    (forall_mem_of_all (by decide))
  have hdefault := hfunction.afterKeyword (w := defaultWord) (by decide)
    (forall_mem_of_all (by decide))
  have heq : exportDefaultPattern = fun s => (keyword? exportWord s).bind fun s =>
      (keyword? defaultWord s).bind fun s => (keyword? functionKeyword s).bind calledName? := by
    funext s
    simp only [exportDefaultPattern, Option.bind_assoc]
  rw [heq]
  exact hdefault.afterKeyword (by decide) (forall_mem_of_all (by decide))

/-- Two keywords that begin differently do not open the same text. -/
theorem keyword?_eq_none {v w s r : List Char} (h : keyword? v s = some r) (hv : v ≠ [])
    (hne : v.head? ≠ w.head?) (hw : w ≠ []) : keyword? w s = none := by
  rw [Option.eq_none_iff_forall_ne_some]
  intro r' h'
  obtain ⟨t, ht, -⟩ := Option.bind_eq_some_iff.1 h
  obtain ⟨t', ht', -⟩ := Option.bind_eq_some_iff.1 h'
  obtain ⟨c, v, rfl⟩ := List.exists_cons_of_ne_nil hv
  obtain ⟨d, w, rfl⟩ := List.exists_cons_of_ne_nil hw
  have heq := (literal?_eq_some_iff.1 ht).symm.trans (literal?_eq_some_iff.1 ht')
  exact hne (congrArg some (List.cons.inj heq).1)

theorem steadyWord_functionPattern : SteadyWord functionPattern := by
  have hfunction := steadyWord_calledName?.afterKeyword (w := functionKeyword) (by decide)
    (forall_mem_of_all (by decide))
  have heq : functionPattern = fun s =>
      ((keyword? exportWord s).bind fun s => (keyword? functionKeyword s).bind calledName?).or
        ((keyword? functionKeyword s).bind calledName?) := by
    funext s
    rw [functionPattern]
    cases h : keyword? exportWord s with
    | none => rfl
    | some r =>
      rw [keyword?_eq_none (w := functionKeyword) h (by decide) (by decide) (by decide)]
      exact (Option.or_none ..).symm
  rw [heq]
  exact (hfunction.afterKeyword (by decide) (forall_mem_of_all (by decide))).or hfunction

/-- The name of a component, which begins with a capital. -/
def capitalName? : NamePattern := fun s =>
  if s.head?.any fun c => 'A' ≤ c && c ≤ 'Z' then assignedName? [':', '='] arrowSign? s else none

theorem capitalName?_cons (c : Char) (s : List Char) : capitalName? (c :: s) =
    if 'A' ≤ c && c ≤ 'Z' then assignedName? [':', '='] arrowSign? (c :: s) else none := rfl

theorem steadyWord_capitalName? : SteadyWord capitalName? := by
  have hname := steadyWord_assignedName? [':', '='] steady_arrowSign?
  refine steadyWord_of_cons rfl ?_ ?_ ?_
  · intro c s hc
    rw [capitalName?, hname.blank c s hc, ite_self]
  · intro c s hc hs
    have herase := hname.erase _ hs
    rw [eraseReturns_cons (ne_return_of_not_isBlank hc)] at herase
    rw [capitalName?_cons, capitalName?_cons, herase]
    split <;> rfl
  · intro s r hr
    rw [capitalName?] at hr
    split at hr
    · exact hname.suffix s r hr
    · simp at hr

theorem steadyWord_componentPattern : SteadyWord componentPattern := by
  have hdefault := steadyWord_capitalName?.afterKeyword (w := defaultWord) (by decide)
    (forall_mem_of_all (by decide))
  have hconst := steadyWord_capitalName?.afterKeyword (w := constWord) (by decide)
    (forall_mem_of_all (by decide))
  have heq : componentPattern = fun s =>
      ((keyword? exportWord s).bind fun s => (keyword? defaultWord s).bind capitalName?).or
        ((keyword? constWord s).bind capitalName?) := by
    funext s
    simp only [componentPattern, Option.bind_eq_bind, ← Option.bind_assoc]
    cases hexport : (keyword? exportWord s).bind (keyword? defaultWord) with
    | none =>
      cases keyword? constWord s with
      | none => rfl
      | some rest => cases rest <;> rfl
    | some rest =>
      obtain ⟨r, hr, -⟩ := Option.bind_eq_some_iff.1 hexport
      rw [keyword?_eq_none (w := constWord) hr (by decide) (by decide) (by decide), Option.or_none,
        Option.bind_none, Option.or_none]
      cases rest <;> rfl
  rw [heq]
  exact (hdefault.afterKeyword (by decide) (forall_mem_of_all (by decide))).or hconst

/-! ## The patterns of calls -/

theorem arrowAfterCall_of_closed {s rest : List Char} {c : Char}
    (h : s.dropWhile (· ≠ ')') = c :: rest) :
    arrowAfterCall s = (arrowSign? (skipBlanks rest)).isSome := by
  simp only [arrowAfterCall, h]

theorem arrowAfterCall_of_open {s : List Char} (h : s.dropWhile (· ≠ ')') = []) :
    arrowAfterCall s = false := by
  simp only [arrowAfterCall, h]

theorem arrowAfterCall_erase {s : List Char} (hs : Loose s) :
    arrowAfterCall (eraseReturns s) = arrowAfterCall s := by
  have hdrop := dropWhile_erase_of_return (p := (· ≠ ')')) (by decide) s
  cases h : s.dropWhile (· ≠ ')') with
  | nil =>
    rw [h] at hdrop
    rw [arrowAfterCall_of_open hdrop, arrowAfterCall_of_open h]
  | cons c rest =>
    have hrest : Loose rest := by
      refine hs.suffix ((List.suffix_cons c rest).trans ?_)
      exact h ▸ List.dropWhile_suffix _
    rw [h, head_of_dropWhile_ne h, eraseReturns_cons (by decide)] at hdrop
    rw [arrowAfterCall_of_closed hdrop, arrowAfterCall_of_closed h, skipBlanks_erase,
      steady_arrowSign?.isSome hrest.skipBlanks]

theorem arrowInCall_erase {s : List Char} (hs : Loose s) :
    arrowInCall (eraseReturns s) = arrowInCall s := by
  have harguments : Loose (s.takeWhile (· ≠ ')')) := hs.of_isPrefix <| List.takeWhile_prefix _
  rw [arrowInCall, takeWhile_erase_of_return (by decide),
    occurs_erase (forall_mem_of_all (by decide)) harguments, arrowInCall]

theorem steadyWord_callPattern {test : List Char → Bool}
    (htest : ∀ s, Loose s → test (eraseReturns s) = test s) : SteadyWord (callPattern test) := by
  have hparen : Text.Steady (spacedChar? '(') := .spacedChar (by decide)
  exact steadyWord_takeWord?.chain (hparen.filter htest) (chain_callPattern test)

theorem steadyWord_methodPattern {test : List Char → Bool}
    (htest : ∀ s, Loose s → test (eraseReturns s) = test s) : SteadyWord (methodPattern test) := by
  have heq : methodPattern test = fun s => (literal? ['.'] s).bind (callPattern test) := by
    funext s
    rw [methodPattern, char?_eq_literal?]
  rw [heq]
  exact (steadyWord_callPattern htest).toSteady.afterLiteral (by decide) (forall_mem_of_all (by decide))

theorem steadyWord_of_mem_declarationPatterns : ∀ p ∈ declarationPatterns, SteadyWord p := by
  simp only [declarationPatterns, List.forall_mem_cons]
  exact ⟨steadyWord_functionPattern, steadyWord_constPattern, steadyWord_exportConstPattern,
    steadyWord_exportDefaultPattern, steadyWord_componentPattern, by simp⟩

theorem steadyWord_of_mem_hostPatterns : ∀ p ∈ hostPatterns, SteadyWord p := by
  simp only [hostPatterns, List.forall_mem_cons]
  exact ⟨steadyWord_callPattern fun _ => arrowAfterCall_erase,
    steadyWord_callPattern fun _ => arrowInCall_erase,
    steadyWord_methodPattern fun _ => arrowAfterCall_erase,
    steadyWord_methodPattern fun _ => arrowInCall_erase, by simp⟩

end

end BranchTally
