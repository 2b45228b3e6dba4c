-- SUMMARY: When a redaction changes neither where the parentheses of a line close nor what its loop header holds.
import Mathlib
import BranchTally.Proofs.Redaction.Header

/-!
# Parentheses around redacted parts

A condition that closes in front of the content is settled there. One that goes on through the content
closes at the same place where the content has no parentheses; a loop header is then read for a
semicolon and for the words `of` and `in` between blanks.
-/

namespace BranchTally

open Text

/-! ## Words of loop headers -/

section

variable {g : Char} (hg : isGuard g = true)

include hg

theorem blind_eachWordAt? : Blind g eachWordAt? := by
  have hletters : ∀ w ∈ [['o', 'f'], ['i', 'n']], g ∉ w :=
    forall_isGuard (p := fun c => ∀ w ∈ [['o', 'f'], ['i', 'n']], c ∉ w) (by decide) hg
  have hword (w : List Char) (hw : w ∈ [['o', 'f'], ['i', 'n']]) :
      Blind g fun s => ((literal? w s).bind blanks?).isSome :=
    ((stopsAt_literal? (hletters w hw)).bind (stopsAt_blanks? hg)).isSome
  intro s rest
  unfold eachWordAt?
  rw [stopsAt_blanks? hg s rest]
  cases blanks? s with
  | none => rfl
  | some t =>
    have hof := hword ['o', 'f'] (by simp) t rest
    have hin := hword ['i', 'n'] (by simp) t rest
    simp only [Option.map_some] at hof hin ⊢
    rw [hof, hin]

theorem backOff_append_guard (s rest : Line) :
    backOff (s ++ g :: rest) = (backOff s).map (· ++ g :: rest) := by
  induction s with
  | nil => simp [backOff, isBlank_guard hg]
  | cons c s ih =>
    simp only [List.cons_append, backOff]
    split
    · rw [ih, List.map_append]
      rfl
    · rfl

end

/-- A text from one guard to another holds no word of a loop header after `before`. -/
theorem eachWord?_cons_append {before : Char} {hidden rest : Line} (hbefore : before ≠ '\n')
    (hbreak : '\n' ∉ hidden) (hrest : ∀ c ∈ rest.head?, isGuard c = true)
    (h : eachWord? (before :: hidden) = none) :
    eachWord? (before :: (hidden ++ rest)) = eachWord? (before :: rest) := by
  have hat (s : Line) : eachWordAt? (s ++ rest) = eachWordAt? s ∨ rest = [] := by
    cases rest with
    | nil => exact Or.inr rfl
    | cons g rest => exact Or.inl (blind_eachWordAt? (hrest g rfl) s rest)
  induction hidden generalizing before with
  | nil => rfl
  | cons d hidden ih =>
    obtain ⟨hd, hhidden⟩ := not_or.1 (List.mem_cons.not.1 hbreak)
    simp only [eachWord?, if_neg hbefore, Option.or_eq_none_iff] at h
    have hnext := ih (Ne.symm hd) hhidden (by simpa only [eachWord?] using h.2)
    have hnone : eachWordAt? (d :: hidden ++ rest) = none := by
      rcases hat (d :: hidden) with heq | hnil
      · rw [heq]
        exact h.1
      · rw [hnil, List.append_nil]
        exact h.1
    rw [List.cons_append, eachWord?, if_neg hbefore, ← List.cons_append, hnone, Option.none_or,
      List.cons_append, hnext, eachWord?, eachWord?, if_neg hbefore, if_neg (Ne.symm hd)]

theorem eachWord?_eq_none_of_not_mem {s : Line} (hf : 'f' ∉ s) (hn : 'n' ∉ s) : eachWord? s = none := by
  have hat (s : Line) (hf : 'f' ∉ s) (hn : 'n' ∉ s) : eachWordAt? s = none := by
    unfold eachWordAt?
    cases hblanks : blanks? s with
    | none => rfl
    | some t =>
      have hsuffix := suffix_of_blanks? hblanks
      have hword {w : List Char} {c : Char} (hc : c ∈ w) (hnone : c ∉ s) : literal? w t = none := by
        rw [Option.eq_none_iff_forall_ne_some]
        intro u hu
        rw [literal?_eq_some_iff.1 hu] at hsuffix
        exact hnone (hsuffix.subset (List.mem_append_left _ hc))
      simp [hword (by simp : 'f' ∈ ['o', 'f']) hf, hword (by simp : 'n' ∈ ['i', 'n']) hn]
  induction s with
  | nil => rfl
  | cons c s ih =>
    have hf' : 'f' ∉ s := fun h => hf (List.mem_cons_of_mem _ h)
    have hn' : 'n' ∉ s := fun h => hn (List.mem_cons_of_mem _ h)
    rw [eachWord?, hat s hf' hn', ih hf' hn']
    split <;> rfl

/-- The text adds nothing to a loop header that reaches over it. -/
structure IsLoopQuiet (guard : Char) (hidden : Line) : Prop where
  sameLine : '\n' ∉ hidden
  semicolon : ';' ∉ hidden
  words : eachWord? (guard :: hidden) = none

theorem forKindOf_append_hidden {g : Char} (hg : isGuard g = true) {hidden rest : Line}
    (hrest : ∀ c ∈ rest.head?, isGuard c = true) (h : IsLoopQuiet g hidden) (front : Line) :
    forKindOf (front ++ g :: (hidden ++ rest)) = forKindOf (front ++ g :: rest) := by
  have hbreak : g ≠ '\n' := forall_isGuard (p := (· ≠ '\n')) (by decide) hg
  have hwords (s : Line) :
      eachWord? (s ++ g :: (hidden ++ rest)) = eachWord? (s ++ g :: rest) := by
    induction s with
    | nil => exact eachWord?_cons_append hbreak h.sameLine hrest h.words
    | cons c s ih =>
      simp only [List.cons_append, eachWord?, blind_eachWordAt? hg s, ih]
  have hfind (texts : List Line) : (texts.map (· ++ g :: (hidden ++ rest))).findSome? eachWord? =
      (texts.map (· ++ g :: rest)).findSome? eachWord? := by
    rw [List.findSome?_map, List.findSome?_map]
    exact congrArg (List.findSome? · texts) (funext hwords)
  have hsemicolon : (front ++ g :: (hidden ++ rest)).contains ';' = (front ++ g :: rest).contains ';' := by
    simp [h.semicolon]
  unfold forKindOf
  rw [hsemicolon]
  have hdeclared (rest : Line) := stopsAt_declarators hg front rest
  simp only at hdeclared
  simp only [hdeclared, backOff_append_guard hg]
  cases oneOf? declarators (skipBlanks front) with
  | none => simp only [Option.map_none, List.nil_append, hfind]
  | some s =>
    simp only [Option.map_some, backOff_append_guard hg, ← List.map_dropLast, ← List.map_append,
      hfind]

namespace Redaction

variable {r : Redaction}

/-! ## Parentheses that close in front -/

/-- Every parenthesis that opens in front of the guard closes there. -/
def ClosedInFront (r : Redaction) : Prop :=
  ∀ opening, (r.front)[opening]? = some '(' → (closingParen? r.front opening).isSome

theorem exists_maskedCells_fill (hidden : Line) :
    ∃ rest, maskedCells (r.fill hidden) = maskedCells r.front ++ rest := by
  obtain ⟨t, ht⟩ := QuoteState.mask_append_cons (ne_brace_guard r.isGuard_guard) r.front {}
  refine ⟨(r.guard :: (hidden ++ r.behind)).zip (t.mask (r.guard :: (hidden ++ r.behind))), ?_⟩
  rw [maskedCells, literalMask, fill, ht, List.zip_append (QuoteState.length_mask _ _).symm]
  rfl

theorem closingParen?_fill {opening closing : Nat} (h : closingParen? r.front opening = some closing)
    (hidden : Line) : closingParen? (r.fill hidden) opening = some closing := by
  obtain ⟨rest, hrest⟩ := exists_maskedCells_fill (r := r) hidden
  have hlt : opening ≤ (maskedCells r.front).length := by
    by_contra hge
    rw [closingParen?, List.drop_eq_nil_of_le (by omega)] at h
    simp [closingParenFrom] at h
  rw [closingParen?, hrest, List.drop_append_of_le_length hlt]
  exact closingParenFrom_append h rest

theorem cell_of_closingParen? {line : Line} {opening closing : Nat}
    (h : closingParen? line opening = some closing) :
    closing < line.length ∧ ∃ masked, (maskedCells line)[closing]? = some (')', masked) := by
  obtain ⟨hle, masked, hcell⟩ := bounds_of_closingParenFrom h
  rw [List.getElem?_drop, Nat.add_sub_cancel' hle] at hcell
  exact ⟨length_maskedCells line ▸ (List.getElem?_eq_some_iff.1 hcell).1, masked, hcell⟩

/-- What stands behind the content is the same in both lines. -/
theorem drop_redacted {i : Nat} (hi : r.stop ≤ i) : r.redacted.drop i = r.text.drop i := by
  refine List.ext_getElem? fun k => ?_
  rw [List.getElem?_drop, List.getElem?_drop, r.getElem?_redacted]
  simp only [Hides]
  omega

theorem SameMask.drop_maskedCells (h : r.SameMask) {i : Nat} (hi : r.stop ≤ i) :
    (maskedCells r.redacted).drop i = (maskedCells r.text).drop i := by
  refine List.ext_getElem? fun k => ?_
  rw [List.getElem?_drop, List.getElem?_drop, h.getElem?_maskedCells]
  simp only [Hides]
  omega

/-- An opening parenthesis of both lines stands in front of the guard or behind the content. -/
theorem opening_cases {opening : Nat} (htext : (r.text)[opening]? = some '(')
    (hredacted : (r.redacted)[opening]? = some '(') :
    (opening < r.front.length ∧ (r.front)[opening]? = some '(') ∨ r.stop ≤ opening := by
  by_cases hhides : r.Hides opening
  · have hmem := mem_of_getElem?_fill (Or.inr rfl) hhides hredacted
    exact absurd rfl (r.forall_mem_filler (p := (· ≠ '(')) (by decide) (by decide) _ hmem)
  · rw [text, getElem?_fill r rfl hhides] at htext
    split at htext
    · next hlt =>
      left
      rw [List.getElem?_append] at htext
      split at htext
      · next hfront => exact ⟨hfront, htext⟩
      · next hfront =>
        have hguard : r.guard = '(' := by
          rw [show opening - r.front.length = 0 by simp only [start] at hlt; omega] at htext
          simpa using htext
        exact absurd hguard (ne_paren_guard r.isGuard_guard)
    · next hge =>
      simp only [Hides] at hhides
      omega

/-! ## What the content may hold -/

/-- The content changes nothing about the conditions that reach over it: none does, or it has no
parentheses and no loop header takes a word or a semicolon from it. -/
def Settled (r : Redaction) : Prop :=
  r.ClosedInFront ∨ '(' ∉ r.content ∧ ')' ∉ r.content ∧
    ((Headers.of r.text).forHeader = none ∨ ';' ∉ r.content ∧ eachWord? (r.guard :: r.content) = none)

theorem Settled.sameClosings (h : r.Settled) (hmask : r.SameMask) : r.SameClosings := by
  intro opening htext hredacted
  rcases h with hclosed | ⟨hopening, hclosing, -⟩
  · rcases opening_cases htext hredacted with ⟨-, hfront⟩ | hbehind
    · obtain ⟨closing, hclosing⟩ := Option.isSome_iff_exists.1 (hclosed opening hfront)
      rw [redacted, text, closingParen?_fill hclosing, closingParen?_fill hclosing]
    · rw [closingParen?, closingParen?, hmask.drop_maskedCells hbehind]
  · have hidle {hidden : Line} (hhidden : r.IsHidden hidden) (i : Nat) (cell : Char × Bool)
        (hi : r.Hides i) (hcell : (maskedCells (r.fill hidden))[i]? = some cell) : IsNoParen cell := by
      have hmem := mem_of_hides hhidden hi hcell
      have hnone := hhidden.forall_mem (p := fun c => c ≠ '(' ∧ c ≠ ')')
        (fun c hc => ⟨fun e => hopening (e ▸ hc), fun e => hclosing (e ▸ hc)⟩) (by decide) (by decide)
      exact hnone _ hmem
    have hcells := hmask.sameCells (hidle (Or.inl rfl)) (hidle (Or.inr rfl))
    exact (closingParenFrom_congr (List.forall₂_drop opening hcells) 0 opening).symm

theorem isLoopQuiet_filler : IsLoopQuiet r.guard r.filler := by
  have hmissing {c : Char} (hblank : ' ' ≠ c) (hx : 'x' ≠ c) : c ∉ r.filler := fun h =>
    r.forall_mem_filler (p := (· ≠ c)) hblank hx c h rfl
  have hword {c : Char} (hc : isGuard c = false) (hnone : c ∉ r.filler) : c ∉ r.guard :: r.filler := by
    intro h
    rcases List.mem_cons.1 h with rfl | h
    · exact Bool.false_ne_true (hc.symm.trans r.isGuard_guard)
    · exact hnone h
  exact ⟨hmissing (by decide) (by decide), hmissing (by decide) (by decide),
    eachWord?_eq_none_of_not_mem (hword (by decide) (hmissing (by decide) (by decide)))
      (hword (by decide) (hmissing (by decide) (by decide)))⟩

/-! ## Loop headers -/

theorem closing_of_header? {form : KeywordForm} {skip : Nat → Bool} {live : LiveMap} {line : Line}
    {h : Header} (hh : header? form skip live line = some h) {p : Parens} (hp : h.parens = some p) :
    p.closing = closingParen? line p.opening := by
  unfold header? at hh
  split at hh
  · simp at hh
  · obtain rfl := Option.some.inj hh
    simp at hp
  · obtain rfl := Option.some.inj hh
    obtain rfl := Option.some.inj hp
    rfl

theorem inside_eq_of_drop {p : Parens} {line line' : Line}
    (h : line.drop (p.opening + 1) = line'.drop (p.opening + 1)) : p.inside line = p.inside line' := by
  unfold Parens.inside
  split
  · rw [List.drop_take, List.drop_take, h]
  · exact h

/-- The text between parentheses that open in front of the content and close behind it or not at all. -/
theorem exists_inside_fill {p : Parens} (hopening : p.opening < r.front.length)
    (hclosing : ∀ closing ∈ p.closing, r.stop ≤ closing) :
    ∃ rest : Line, (∀ c ∈ rest.head?, isGuard c = true) ∧ ∀ hidden, r.IsHidden hidden →
      p.inside (r.fill hidden) = r.front.drop (p.opening + 1) ++ r.guard :: (hidden ++ rest) := by
  have hdrop (more : Line) : (r.front ++ more).drop (p.opening + 1) =
      r.front.drop (p.opening + 1) ++ more := List.drop_append_of_le_length (by omega)
  cases hc : p.closing with
  | none =>
    refine ⟨r.behind, r.isGuard_behind, fun hidden _ => ?_⟩
    simp only [Parens.inside, hc, fill, hdrop]
  | some closing =>
    refine ⟨r.behind.take (closing - r.stop), fun c hc => ?_, fun hidden hhidden => ?_⟩
    · cases hb : r.behind with
      | nil => simp [hb] at hc
      | cons g more =>
        rw [hb] at hc
        cases hn : closing - r.stop with
        | zero => simp [hn] at hc
        | succ n =>
          rw [hn] at hc
          exact r.isGuard_behind c (by simpa [hb] using hc)
    · have hstop := hclosing closing hc
      have hedge : (r.front ++ r.guard :: hidden).length = r.stop := by
        simp only [List.length_append, List.length_cons, hhidden.length_eq, stop, start]
        omega
      have hsplit : r.fill hidden = (r.front ++ r.guard :: hidden) ++ r.behind := by simp [fill]
      simp only [Parens.inside, hc]
      rw [hsplit, List.take_append, hedge, List.take_of_length_le (by omega), List.append_assoc, hdrop]
      simp

theorem Settled.sameLoop (h : r.Settled) (hr : r.Hidden) (hmask : r.SameMask) (hline : '\n' ∉ r.content) :
    r.SameLoop := by
  intro x hloop
  have hx : header? forForm (fun _ => false) (LiveMap.of r.text) r.text = some x := hloop
  have hclosings := h.sameClosings hmask
  have hredacted : header? forForm (fun _ => false) (LiveMap.of r.redacted) r.redacted = some x :=
    (hr.header?_redacted hclosings (by simp [keywordForms]) forForm_endsAtParen fun _ _ => rfl).trans hx
  unfold forKind
  cases hp : x.parens with
  | none => rfl
  | some p =>
    have hclosing : p.closing = closingParen? r.text p.opening := closing_of_header? hx hp
    dsimp only
    rcases opening_cases (opening_of_header? forForm_endsAtParen hx hp)
      (opening_of_header? forForm_endsAtParen hredacted hp) with ⟨hlt, hfront⟩ | hbehind
    · rcases h with hclosed | ⟨-, hnoClosing, hwords⟩
      · obtain ⟨closing, hc⟩ := Option.isSome_iff_exists.1 (hclosed p.opening hfront)
        have hbounds := cell_of_closingParen? hc
        rw [text, closingParen?_fill hc] at hclosing
        have hstart : closing < r.start := by simp only [start]; omega
        simp only [Parens.inside, hclosing]
        rw [redacted, text, take_fill _ hstart, take_fill _ hstart]
      · have hquiet : IsLoopQuiet r.guard r.content := by
          rcases hwords with hnone | ⟨hsemicolon, hwords⟩
          · rw [hloop] at hnone
            simp at hnone
          · exact ⟨hline, hsemicolon, hwords⟩
        by_cases hbefore : ∃ closing ∈ p.closing, closing < r.start
        · obtain ⟨closing, hc, hstart⟩ := hbefore
          simp only [Parens.inside, Option.mem_def.1 hc]
          rw [redacted, text, take_fill _ hstart, take_fill _ hstart]
        · have hafter : ∀ closing ∈ p.closing, r.stop ≤ closing := by
            intro closing hc
            by_contra hlt'
            have hhides : r.Hides closing :=
              ⟨Nat.not_lt.1 fun hstart => hbefore ⟨closing, hc, hstart⟩, Nat.not_le.1 hlt'⟩
            obtain ⟨-, masked, hmasked⟩ := cell_of_closingParen? (hclosing.symm.trans hc)
            exact hnoClosing (mem_of_hides (Or.inl rfl) hhides hmasked)
          obtain ⟨rest, hrest, hinside⟩ := exists_inside_fill hlt hafter
          rw [redacted, text, hinside _ (Or.inr rfl), hinside _ (Or.inl rfl),
            forKindOf_append_hidden r.isGuard_guard hrest isLoopQuiet_filler,
            forKindOf_append_hidden r.isGuard_guard hrest hquiet]
    · rw [inside_eq_of_drop (drop_redacted (by omega))]

end Redaction

end BranchTally
