-- SUMMARY: A redacted line has the headers of the line where the parentheses close alike and no loop reads its kind from the content.
import Mathlib
import BranchTally.Proofs.Header
import BranchTally.Proofs.Redaction.Mask

/-!
# Headers of redacted lines

Keyword forms are read up to the guard and from behind the content. What a header still takes from the
content is the place of its closing parenthesis and, for a loop, the word that makes it a `for...of`
or `for...in` loop or the semicolon that makes it a counting one.
-/

namespace BranchTally

open Text

/-! ## Where forms fit -/

theorem le_of_mem_headersFrom {form : KeywordForm} {before : Option Char} {pos : Nat} {text : Line}
    {h : Nat × Option Nat} (hh : h ∈ headersFrom form before pos text) : pos ≤ h.1 := by
  induction text generalizing before pos with
  | nil => simp [headersFrom] at hh
  | cons c text ih =>
    simp only [headersFrom] at hh
    split at hh
    · exact Nat.le_of_succ_le (ih hh)
    · rcases List.mem_cons.1 hh with rfl | hh
      · exact Nat.le_refl _
      · exact Nat.le_of_succ_le (ih hh)

/-- In front of a guard the same headers are found whatever comes after it. -/
theorem headersFrom_append_guard {form : KeywordForm} {g : Char} (hform : form.StopsAt g)
    (before : Option Char) (pos : Nat) (s : Line) :
    ∃ found : List (Nat × Option Nat), (∀ h ∈ found, h.1 < pos + s.length) ∧ ∀ rest,
      headersFrom form before pos (s ++ g :: rest) =
        found ++ headersFrom form (some g) (pos + s.length + 1) rest := by
  induction s generalizing before pos with
  | nil =>
    refine ⟨[], by simp, fun rest => ?_⟩
    rw [List.nil_append, headersFrom, hform.start]
    rfl
  | cons c s ih =>
    obtain ⟨found, hbound, hfound⟩ := ih (some c) (pos + 1)
    obtain ⟨taken, htaken⟩ := hform.stops before (c :: s)
    have hlater (h : Nat × Option Nat) (hh : h ∈ found) : h.1 < pos + (c :: s).length := by
      have := hbound h hh
      simp only [List.length_cons]
      omega
    have hpos : pos + 1 + s.length + 1 = pos + (c :: s).length + 1 := by
      simp only [List.length_cons]
      omega
    cases taken with
    | none =>
      refine ⟨found, hlater, fun rest => ?_⟩
      have hnone := htaken rest
      rw [List.cons_append] at hnone
      rw [List.cons_append, headersFrom, hnone, Option.map_none, hfound, hpos]
    | some tail =>
      refine ⟨(pos, if tail.isParen then some (pos + s.length - tail.rest.length) else none) :: found,
        ?_, fun rest => ?_⟩
      · intro h hh
        rcases List.mem_cons.1 hh with rfl | hh
        · simp
        · exact hlater h hh
      · have hsome := htaken rest
        rw [List.cons_append] at hsome
        have hopening : pos + (s ++ g :: rest).length - (tail.rest ++ g :: rest).length =
            pos + s.length - tail.rest.length := by
          simp only [List.length_append]
          omega
        rw [List.cons_append, headersFrom, hsome, Option.map_some, hfound, hpos]
        simp only [hopening, List.cons_append]

theorem headersFrom_of_head_isGuard {form : KeywordForm} (hform : form ∈ keywordForms) {text : Line}
    (h : ∀ c ∈ text.head?, isGuard c = true) (before before' : Option Char) (pos : Nat) :
    headersFrom form before pos text = headersFrom form before' pos text := by
  cases text with
  | nil => rfl
  | cons g text =>
    have hstart := (stopsAt_of_mem_keywordForms (h g rfl) hform).start
    rw [headersFrom, headersFrom, hstart, hstart]

namespace Redaction

variable {r : Redaction} {form : KeywordForm}

/-- No header of the content is kept. -/
theorem filter_headersFrom_hidden (hform : form ∈ keywordForms) (keep : Nat → Bool) {hidden : Line}
    (pos : Nat) (hkeep : ∀ i < hidden.length, keep (pos + i) = false ∨
      ∀ before, form before (hidden.drop i ++ r.behind) = none) (before : Option Char) :
    (headersFrom form before pos (hidden ++ r.behind)).filter (fun h => keep h.1) =
      (headersFrom form none (pos + hidden.length) r.behind).filter fun h => keep h.1 := by
  induction hidden generalizing pos before with
  | nil => rw [List.nil_append, headersFrom_of_head_isGuard hform r.isGuard_behind before none]; rfl
  | cons c hidden ih =>
    have hrest := ih (pos + 1) (fun i hi => by
      have hlater := hkeep (i + 1) (by simpa using hi)
      rwa [List.drop_succ_cons, show pos + (i + 1) = pos + 1 + i by omega] at hlater) (some c)
    rw [show pos + 1 + hidden.length = pos + (c :: hidden).length by
      simp only [List.length_cons]; omega] at hrest
    rw [List.cons_append, headersFrom]
    split
    · exact hrest
    · next tail htail =>
      rcases hkeep 0 (by simp) with hnot | hnone
      · rw [Nat.add_zero] at hnot
        rw [List.filter_cons_of_neg (by simp [hnot]), hrest]
      · rw [List.drop_zero, List.cons_append] at hnone
        rw [hnone] at htail
        simp at htail

theorem Hidden.form_eq_none (hr : r.Hidden) (hform : form ∈ keywordForms) {hidden : Line}
    (hhidden : r.IsHidden hidden) (i : Nat) :
    (∀ j, r.Hides j → (LiveMap.of r.text).isLive j = false) ∨
      ∀ before, form before (hidden.drop i ++ r.behind) = none := by
  refine hr.unseen.imp_right fun ⟨hbehind, hunseen⟩ before => ?_
  obtain ⟨g, more, hg⟩ := List.exists_cons_of_ne_nil hbehind
  have hstops := stopsAt_of_mem_keywordForms (r.isGuard_behind g (by simp [hg])) hform
  have habsent {c : Char} (hc : c ∈ hidden.drop i) (hseen : c ∈ seenChars) : False :=
    hhidden.forall_mem (p := (· ∉ seenChars)) hunseen (by decide) (by decide) c
      (List.mem_of_mem_drop hc) hseen
  rw [hg, Option.eq_none_iff_forall_ne_some]
  intro tail htail
  rcases hstops.bracket before (hidden.drop i) more (by rw [htail]; rfl) with hc | hc
  · exact habsent hc (by decide)
  · exact habsent hc (by decide)

theorem Hidden.filter_headersFrom (hr : r.Hidden) (hform : form ∈ keywordForms)
    {skip skip' : Nat → Bool} (hskip : ∀ i, i < r.start ∨ r.behind ≠ [] ∧ r.stop < i → skip' i = skip i) :
    (headersFrom form none 0 r.redacted).filter
        (fun h => (LiveMap.of r.redacted).isLive h.1 && !skip' h.1) =
      (headersFrom form none 0 r.text).filter
        fun h => (LiveMap.of r.text).isLive h.1 && !skip h.1 := by
  obtain ⟨found, hbound, hfound⟩ :=
    headersFrom_append_guard (stopsAt_of_mem_keywordForms r.isGuard_guard hform) none 0 r.front
  simp only [Nat.zero_add] at hbound hfound
  have hdead {hidden : Line} (hhidden : r.IsHidden hidden) (skip : Nat → Bool) (i : Nat)
      (hi : i < hidden.length) :
      ((LiveMap.of r.text).isLive (r.start + i) && !skip (r.start + i)) = false ∨
        ∀ before, form before (hidden.drop i ++ r.behind) = none := by
    refine (hr.form_eq_none hform hhidden i).imp_left fun hdead => ?_
    rw [hhidden.length_eq] at hi
    rw [hdead (r.start + i) ⟨by omega, by simp only [stop]; omega⟩, Bool.false_and]
  have hbehind : (headersFrom form none r.stop r.behind).filter
        (fun h => (LiveMap.of r.text).isLive h.1 && !skip' h.1) =
      (headersFrom form none r.stop r.behind).filter
        fun h => (LiveMap.of r.text).isLive h.1 && !skip h.1 := by
    refine List.filter_congr fun h hh => ?_
    cases hb : r.behind with
    | nil => simp [hb, headersFrom] at hh
    | cons g more =>
      have hstart := (stopsAt_of_mem_keywordForms (r.isGuard_behind g (by simp [hb])) hform).start
      rw [hb, headersFrom, hstart] at hh
      rw [hskip h.1 (Or.inr ⟨by simp [hb], le_of_mem_headersFrom hh⟩)]
  have hfront : found.filter (fun h => (LiveMap.of r.text).isLive h.1 && !skip' h.1) =
      found.filter fun h => (LiveMap.of r.text).isLive h.1 && !skip h.1 :=
    List.filter_congr fun h hh => by
      rw [hskip h.1 (Or.inl (Nat.lt_succ_of_lt (hbound h hh)))]
  have hfill {hidden : Line} (hhidden : r.IsHidden hidden) (skip : Nat → Bool) :
      (headersFrom form none 0 (r.fill hidden)).filter
          (fun h => (LiveMap.of r.text).isLive h.1 && !skip h.1) =
        found.filter (fun h => (LiveMap.of r.text).isLive h.1 && !skip h.1) ++
          (headersFrom form none r.stop r.behind).filter
            fun h => (LiveMap.of r.text).isLive h.1 && !skip h.1 := by
    have hnone := filter_headersFrom_hidden (r := r) hform
      (fun i => (LiveMap.of r.text).isLive i && !skip i) r.start (hdead hhidden skip) (some r.guard)
    rw [hhidden.length_eq] at hnone
    rw [fill, hfound, List.filter_append]
    exact congrArg _ hnone
  rw [hr.isLive_redacted, redacted, hfill (Or.inr rfl), hbehind, hfront, ← hfill (Or.inl rfl)]
  rfl

/-! ## Headers -/

/-- The parentheses that open in both lines close at the same places. -/
def SameClosings (r : Redaction) : Prop :=
  ∀ opening, (r.text)[opening]? = some '(' → (r.redacted)[opening]? = some '(' →
    closingParen? r.redacted opening = closingParen? r.text opening

theorem Hidden.header?_redacted (hr : r.Hidden) (hclosings : r.SameClosings)
    (hform : form ∈ keywordForms) (hparen : form.EndsAtParen) {skip skip' : Nat → Bool}
    (hskip : ∀ i, i < r.start ∨ r.behind ≠ [] ∧ r.stop < i → skip' i = skip i) :
    header? form skip' (LiveMap.of r.redacted) r.redacted =
      header? form skip (LiveMap.of r.text) r.text := by
  have hfind : (headersFrom form none 0 r.redacted).find?
        (fun h => (LiveMap.of r.redacted).isLive h.1 && !skip' h.1) =
      (headersFrom form none 0 r.text).find?
        fun h => (LiveMap.of r.text).isLive h.1 && !skip h.1 := by
    rw [← List.head?_filter, ← List.head?_filter, hr.filter_headersFrom hform hskip]
  unfold header?
  rw [hfind]
  cases hfound : (headersFrom form none 0 r.text).find?
      fun h => (LiveMap.of r.text).isLive h.1 && !skip h.1 with
  | none => rfl
  | some h =>
    obtain ⟨start, opening⟩ := h
    cases opening with
    | none => rfl
    | some opening =>
      have htext := opening_of_mem_headersFrom hparen (List.mem_of_find?_eq_some hfound)
      have hredacted := opening_of_mem_headersFrom hparen
        (List.mem_of_find?_eq_some (hfind.trans hfound))
      rw [Nat.sub_zero] at htext hredacted
      simp only [hclosings opening htext.2 hredacted.2]

/-! ## Words around headers -/

/-- What `endsWithElse` reads, from right to left. -/
theorem endsWithElse_append_guard {g : Char} (hg : isGuard g = true) (s rest : Line) :
    endsWithElse (s ++ g :: rest) = endsWithElse rest := by
  have hletters : g ∉ ['e', 's', 'l', 'e'] :=
    forall_isGuard (p := (· ∉ ['e', 's', 'l', 'e'])) (by decide) hg
  have hreverse : (s ++ g :: rest).reverse = rest.reverse ++ g :: s.reverse := by simp
  unfold endsWithElse
  rw [hreverse]
  cases rest.reverse with
  | nil => simp [isBlank_guard hg]
  | cons c above =>
    have hread := stopsAt_literal? hletters (above.dropWhile isBlank) s.reverse
    simp only [List.cons_append, dropWhile_append_stop (isBlank_guard hg), hread]
    cases literal? ['e', 's', 'l', 'e'] (above.dropWhile isBlank) with
    | none => rfl
    | some before =>
      cases before with
      | nil => simp [atWordStart, isWord_guard hg]
      | cons d before => rfl

theorem take_fill (hidden : Line) {i : Nat} (hi : i < r.start) :
    (r.fill hidden).take i = (r.front ++ [r.guard]).take i := by
  have hle : i ≤ (r.front ++ [r.guard]).length := by
    simp only [start] at hi
    simp
    omega
  rw [fill_eq, List.take_append_of_le_length hle]

theorem endsWithElse_take {i : Nat} (hi : i < r.start ∨ r.behind ≠ [] ∧ r.stop < i) :
    endsWithElse (r.redacted.take i) = endsWithElse (r.text.take i) := by
  rcases hi with hi | ⟨hne, hi⟩
  · rw [redacted, text, take_fill _ hi, take_fill _ hi]
  · obtain ⟨g, more, hbehind⟩ := List.exists_cons_of_ne_nil hne
    have hg : isGuard g = true := r.isGuard_behind g (by simp [hbehind])
    have hfill {hidden : Line} (hhidden : r.IsHidden hidden) :
        endsWithElse ((r.fill hidden).take i) = endsWithElse (more.take (i - r.stop - 1)) := by
      have hedge : (r.front ++ r.guard :: hidden).length = r.stop := by
        simp only [List.length_append, List.length_cons, hhidden.length_eq, stop, start]
        omega
      have hsplit : r.fill hidden = (r.front ++ r.guard :: hidden) ++ g :: more := by
        simp [fill, hbehind]
      rw [hsplit, List.take_append, hedge, List.take_of_length_le (by omega),
        show i - r.stop = i - r.stop - 1 + 1 by omega, List.take_succ_cons]
      exact endsWithElse_append_guard hg _ _
    rw [redacted, text, hfill (Or.inr rfl), hfill (Or.inl rfl)]

theorem isDoTail_fill (hidden : Line) : isDoTail (r.fill hidden) = isDoTail r.front := by
  have hg := r.isGuard_guard
  have hword : r.guard ∉ ['w', 'h', 'i', 'l', 'e'] :=
    forall_isGuard (p := (· ∉ ['w', 'h', 'i', 'l', 'e'])) (by decide) hg
  have hbrace : r.guard ≠ '}' := forall_isGuard (p := (· ≠ '}')) (by decide) hg
  have hread := ((stopsAt_spacedChar? hg hbrace).map_skipBlanks hg).bind
    ((stopsAt_literal? hword).bind (stopsAt_spacedChar? hg (ne_paren_guard hg)))
  exact hread.isSome r.front (hidden ++ r.behind)

theorem isCase_fill (hidden : Line) : isCase (r.fill hidden) = isCase r.front := by
  have hg := r.isGuard_guard
  have hcase : r.guard ∉ ['c', 'a', 's', 'e'] :=
    forall_isGuard (p := (· ∉ ['c', 'a', 's', 'e'])) (by decide) hg
  have hdefault : r.guard ∉ ['d', 'e', 'f', 'a', 'u', 'l', 't'] :=
    forall_isGuard (p := (· ∉ ['d', 'e', 'f', 'a', 'u', 'l', 't'])) (by decide) hg
  have hcolon : r.guard ≠ ':' := forall_isGuard (p := (· ≠ ':')) (by decide) hg
  have hword : Blind r.guard fun s => (literal? ['c', 'a', 's', 'e'] (skipBlanks s)).any atWordEnd :=
    ((stopsAt_literal? hcase).skipBlanks hg).any (blind_atWordEnd hg)
  have hread : Blind r.guard fun s =>
      ((literal? ['d', 'e', 'f', 'a', 'u', 'l', 't'] (skipBlanks s)).bind (spacedChar? ':')).isSome :=
    ((((stopsAt_literal? hdefault).skipBlanks hg)).bind (stopsAt_spacedChar? hg hcolon)).isSome
  have hw := hword r.front (hidden ++ r.behind)
  have hr := hread r.front (hidden ++ r.behind)
  simp only at hw hr
  simp only [isCase, fill, hw, hr]

/-- The kind of the `for` loop of the line, if there is one, is the same in both lines. -/
def SameLoop (r : Redaction) : Prop :=
  ∀ h, (Headers.of r.text).forHeader = some h → forKind r.redacted h = forKind r.text h

theorem doForm_endsAtParen : KeywordForm.EndsAtParen doForm := by
  intro before s tail h hparen
  unfold doForm at h
  split at h
  · split at h
    · simp at h
    · split at h
      · obtain rfl := Option.some.inj h
        simp at hparen
      · split at h
        · obtain rfl := Option.some.inj h
          simp at hparen
        · simp at h
  · simp at h

theorem Hidden.headers_redacted (hr : r.Hidden) (hclosings : r.SameClosings) (hloop : r.SameLoop) :
    Headers.of r.redacted = Headers.of r.text := by
  have hfirst (form : KeywordForm) (hform : form ∈ keywordForms) (hparen : form.EndsAtParen) :
      header? form (fun _ => false) (LiveMap.of r.redacted) r.redacted =
        header? form (fun _ => false) (LiveMap.of r.text) r.text :=
    hr.header?_redacted hclosings hform hparen fun _ _ => rfl
  have hmem : ifForm ∈ keywordForms := by simp [keywordForms]
  have hif : header? ifForm (fun i => endsWithElse (r.redacted.take i)) (LiveMap.of r.redacted)
      r.redacted = header? ifForm (fun i => endsWithElse (r.text.take i)) (LiveMap.of r.text) r.text :=
    hr.header?_redacted hclosings hmem (parenForm_endsAtParen _) fun _ hi => endsWithElse_take hi
  have hfor := hfirst forForm (by simp [keywordForms]) forForm_endsAtParen
  have hkind : ((header? forForm (fun _ => false) (LiveMap.of r.text) r.text).map
      (forKind r.redacted)).getD .forLoop =
      ((header? forForm (fun _ => false) (LiveMap.of r.text) r.text).map
        (forKind r.text)).getD .forLoop := by
    cases hh : header? forForm (fun _ => false) (LiveMap.of r.text) r.text with
    | none => rfl
    | some h => exact hloop h hh
  have htail : isDoTail r.redacted = isDoTail r.text := by
    rw [redacted, text, isDoTail_fill, isDoTail_fill]
  have hcase : isCase r.redacted = isCase r.text := by
    rw [redacted, text, isCase_fill, isCase_fill]
  unfold Headers.of
  simp only [hif, hfor, hkind, htail, hcase,
    hfirst elseIfForm (by simp [keywordForms]) elseIfForm_endsAtParen,
    hfirst whileForm (by simp [keywordForms]) (parenForm_endsAtParen _),
    hfirst doForm (by simp [keywordForms]) doForm_endsAtParen,
    hfirst switchForm (by simp [keywordForms]) (parenForm_endsAtParen _),
    hfirst catchForm (by simp [keywordForms]) catchForm_endsAtParen]

end Redaction

end BranchTally
