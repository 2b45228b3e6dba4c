-- SUMMARY: The parentheses of a header open at a parenthesis of the line, and a keyword in live code gives its line a header.
import BranchTally.Proofs.Text
import BranchTally.Line.Header

/-!
# Headers

Every keyword form that ends with a parenthesis has it in the text right before its tail. So the
`opening` of a header is the position of a `(`.
-/

namespace BranchTally

open Text

/-- A tail that the form calls one after a parenthesis stands after a `(`. -/
def KeywordForm.EndsAtParen (form : KeywordForm) : Prop :=
  ∀ before s tail, form before s = some tail → tail.isParen = true → '(' :: tail.rest <:+ s

/-! ## The forms -/

theorem parenForm_endsAtParen (word : List Char) : (parenForm word).EndsAtParen := by
  intro before s tail h _
  unfold parenForm at h
  split at h
  · obtain ⟨rest, hrest, rfl⟩ := Option.map_eq_some_iff.1 h
    obtain ⟨behind, hword, hparen⟩ := Option.bind_eq_some_iff.1 hrest
    exact (suffix_of_spacedChar? hparen).trans (suffix_of_literal? hword)
  · simp at h

theorem elseIfForm_endsAtParen : elseIfForm.EndsAtParen := by
  intro before s tail h _
  unfold elseIfForm at h
  split at h
  · obtain ⟨rest, hrest, rfl⟩ := Option.map_eq_some_iff.1 h
    obtain ⟨behindIf, hif, hparen⟩ := Option.bind_eq_some_iff.1 hrest
    obtain ⟨behindBlanks, hblanks, hword⟩ := Option.bind_eq_some_iff.1 hif
    obtain ⟨behindElse, helse, hspaces⟩ := Option.bind_eq_some_iff.1 hblanks
    exact (suffix_of_spacedChar? hparen).trans <| (suffix_of_literal? hword).trans <|
      (suffix_of_blanks? hspaces).trans (suffix_of_literal? helse)
  · simp at h

theorem forForm_endsAtParen : forForm.EndsAtParen := by
  intro before s tail h _
  unfold forForm at h
  split at h
  · split at h
    · simp at h
    · next rest hfor =>
      obtain ⟨behind, hparen, rfl⟩ := Option.map_eq_some_iff.1 h
      have hawait : (literal? ['a', 'w', 'a', 'i', 't'] (skipBlanks rest)).getD (skipBlanks rest)
          <:+ skipBlanks rest := by
        cases hw : literal? ['a', 'w', 'a', 'i', 't'] (skipBlanks rest) with
        | none => exact List.suffix_refl _
        | some behindAwait => exact suffix_of_literal? hw
      exact (suffix_of_spacedChar? hparen).trans <| hawait.trans <|
        (skipBlanks_suffix rest).trans (suffix_of_literal? hfor)
  · simp at h

theorem catchForm_endsAtParen : catchForm.EndsAtParen := by
  intro before s tail h hparen
  unfold catchForm at h
  split at h
  · split at h
    · next c rest hcatch =>
      obtain ⟨behind, hword, hskip⟩ := Option.map_eq_some_iff.1 hcatch
      split at h
      · next hc =>
        cases h
        subst hc
        exact hskip ▸ (skipBlanks_suffix behind).trans (suffix_of_literal? hword)
      · split at h
        · cases h
          simp at hparen
        · simp at h
    · simp at h
  · simp at h

/-! ## The openings -/

theorem opening_of_mem_headersFrom {form : KeywordForm} (hform : form.EndsAtParen)
    {before : Option Char} {pos start opening : Nat} {text : Line}
    (h : (start, some opening) ∈ headersFrom form before pos text) :
    pos ≤ opening ∧ text[opening - pos]? = some '(' := by
  induction text generalizing before pos with
  | nil => simp [headersFrom] at h
  | cons c rest ih =>
    have hlater : (start, some opening) ∈ headersFrom form (some c) (pos + 1) rest →
        pos ≤ opening ∧ (c :: rest)[opening - pos]? = some '(' := by
      intro hmem
      obtain ⟨hle, hget⟩ := ih hmem
      refine ⟨by omega, ?_⟩
      rw [show opening - pos = opening - (pos + 1) + 1 by omega, List.getElem?_cons_succ]
      exact hget
    simp only [headersFrom] at h
    split at h
    · exact hlater h
    · next tail htail =>
      rcases List.mem_cons.1 h with heq | hmem
      · simp only [Prod.mk.injEq] at heq
        obtain ⟨-, heq⟩ := heq
        split at heq
        · next hparen =>
          obtain ⟨word, hword⟩ := hform before (c :: rest) tail htail hparen
          have hlength := congrArg List.length hword
          simp only [List.length_append, List.length_cons] at hlength
          have hopening := Option.some.inj heq
          refine ⟨by omega, ?_⟩
          rw [show opening - pos = word.length by omega, ← hword,
            List.getElem?_append_right (Nat.le_refl _), Nat.sub_self]
          rfl
        · simp at heq
      · exact hlater hmem

theorem opening_of_header? {form : KeywordForm} (hform : form.EndsAtParen) {skip : Nat → Bool}
    {live : LiveMap} {line : Line} {h : Header} (hh : header? form skip live line = some h)
    {p : Parens} (hp : h.parens = some p) : (line)[p.opening]? = some '(' := by
  unfold header? at hh
  split at hh
  · simp at hh
  · cases hh
    simp at hp
  · next start opening hfind =>
    cases hh
    cases hp
    have := opening_of_mem_headersFrom hform (List.mem_of_find?_eq_some hfind)
    simpa using this.2

/-! ## The first live header -/

theorem header?_of_nil {form : KeywordForm} {line : Line} (h : headersFrom form none 0 line = [])
    (skip : Nat → Bool) (live : LiveMap) : header? form skip live line = none := by
  simp [header?, h]

/-- A header that is found at a live position is taken, or one in front of it. -/
theorem isSome_header?_of_mem {form : KeywordForm} {live : LiveMap} {line : Line}
    {entry : Nat × Option Nat} (hentry : entry ∈ headersFrom form none 0 line)
    (hlive : live.isLive entry.1 = true) : (header? form (fun _ => false) live line).isSome = true := by
  unfold header?
  split
  · next hnone =>
    have hskip := List.find?_eq_none.1 hnone entry hentry
    simp [hlive] at hskip
  · rfl
  · rfl

end BranchTally
