-- SUMMARY: A text has as many defaults whatever an inert quotation in it says, unless a value ends in what it says and another default follows.
import Mathlib
import BranchTally.Proofs.Redaction.Quotation

/-!
# Defaults around a quotation

No default begins in an inert quotation. A value that begins in front of one may end in front of it, in
it or behind it. Only a bare value that runs into the content, as in `a = b'c d'`, ends at another
place when the content is replaced, and that is of consequence only where a default follows.
-/

namespace BranchTally

open Text

/-! ## Values up to a quote -/

section

variable {g : Char} (hg : isGuard g = true)

include hg

theorem stopsAt_wordValue? : StopsAt g wordValue? := by
  have hwords : StopsAt g (oneOf? valueWords) := stopsAt_oneOf? fun w hw =>
    forall_isGuard (p := fun c => ∀ w ∈ valueWords, c ∉ w) (by decide) hg w hw
  intro s rest
  simp only [wordValue?, hwords s rest]
  cases oneOf? valueWords s with
  | none => rfl
  | some tail =>
    simp only [Option.map_some, Option.filter_some, blind_atWordEnd hg tail rest]
    split <;> rfl

theorem stopsAt_numberValue? : StopsAt g numberValue? := by
  have hdigits : StopsAt g (run? isDecimal) :=
    stopsAt_run? (forall_isGuard (p := (isDecimal · = false)) (by decide) hg)
  have hpoint : g ≠ '.' := forall_isGuard (p := (· ≠ '.')) (by decide) hg
  intro s rest
  simp only [numberValue?, hdigits s rest]
  rcases run? isDecimal s with _ | _ | ⟨c, tail⟩
  · rfl
  · simp [hpoint]
  · by_cases hc : c = '.'
    · subst hc
      simp only [Option.map_some, List.cons_append, hdigits tail rest]
      cases run? isDecimal tail <;> rfl
    · simp [hc]

end

theorem run?_append_of_all {p : Char → Bool} {s : Line} (h : s.all p = true) (hne : s ≠ [])
    (rest : Line) : run? p (s ++ rest) = some (rest.dropWhile p) := by
  obtain ⟨c, s, rfl⟩ := List.exists_cons_of_ne_nil hne
  simp only [List.all_cons, Bool.and_eq_true, List.all_eq_true] at h
  rw [List.cons_append, run?, if_pos h.1, List.dropWhile_append_of_pos h.2]

theorem run?_append_of_not_all {p : Char → Bool} {s : Line} (h : s.all p = false) (rest : Line) :
    run? p (s ++ rest) = (run? p s).map (· ++ rest) := by
  cases s with
  | nil => simp at h
  | cons c s =>
    rw [List.cons_append, run?, run?]
    cases hc : p c with
    | false => rfl
    | true =>
      have hs : s.all p = false := by simpa [hc] using h
      have hne : s.dropWhile p ≠ [] := by
        rw [Ne, List.dropWhile_eq_nil_iff, ← List.all_eq_true, hs]
        exact Bool.false_ne_true
      rw [if_pos rfl, if_pos rfl, List.dropWhile_append, if_neg (by simpa using hne), Option.map_some]

/-- The character belongs to a bare value. -/
def DefaultForm.isBare (form : DefaultForm) (c : Char) : Bool := !form.stops.contains c && !isBlank c

theorem SameText.length_quotedValue? {l l' : Line} (h : SameText l l') :
    (quotedValue? l).map List.length = (quotedValue? l').map List.length := by
  cases h with
  | nil => rfl
  | @cons q q' rest rest' hfirst hrest =>
    simp only [quotedValue?, ← hfirst.eq_iff (by decide : isInert '"' = false),
      ← hfirst.eq_iff (by decide : isInert '\'' = false),
      ← hfirst.eq_iff (by decide : isInert '\x60' = false)]
    split
    · next hquote =>
      have hloud : isInert q = false := by
        simp only [Bool.or_eq_true, decide_eq_true_eq] at hquote
        rcases hquote with (rfl | rfl) | rfl <;> decide
      obtain rfl : q = q' := hfirst.resolve_right fun hinert =>
        Bool.false_ne_true (hloud.symm.trans hinert.1)
      have htails := SameText.dropWhile_ne hrest hloud
      generalize rest.dropWhile (· ≠ q) = tail, rest'.dropWhile (· ≠ q) = tail' at htails
      cases htails with
      | nil => rfl
      | cons _ hmore => simp [hmore.length_eq]
    · rfl

/-- No default begins in a text without equals signs that is followed by no equals sign, so only the
characters to pass over matter. -/
theorem DefaultForm.countFrom_skip_append {form : DefaultForm} {u s : Line} (hu : '=' ∉ u)
    (hs : spacedChar? '=' s = none) (hhead : ∀ c ∈ s.head?, isIdentifierPart c = false) (skip : Nat)
    (before : Option Char) :
    form.countFrom skip before (u ++ s) = form.countFrom (skip - u.length) (u.getLast?.or before) s := by
  induction u generalizing skip before with
  | nil => rfl
  | cons c u ih =>
    cases skip with
    | zero =>
      rw [Nat.zero_sub]
      exact countFrom_append_of_not_mem hu hs (Or.inr hhead) before
    | succ skip =>
      have hrest := ih (fun hmem => hu (List.mem_cons_of_mem c hmem)) skip (some c)
      rw [List.cons_append, countFrom, hrest, List.length_cons, Nat.add_sub_add_right,
        List.getLast?_cons]
      cases u.getLast? <;> rfl

namespace Quotation

variable {t : Quotation} {form : DefaultForm}

theorem length_quoted {said : Line} (hsaid : t.Says said) :
    (t.quoted said).length = t.content.length + t.back.length + 2 := by
  have hlength : said.length = t.content.length := hsaid.length_eq
  simp only [quoted, List.length_cons, List.length_append, hlength]
  omega

/-- The forms of defaults that lines are searched for. -/
def forms : List DefaultForm := [.parameter, .destructured]

theorem isBare_quote (hform : form ∈ forms) : form.isBare t.quote = true := by
  simp only [forms, List.mem_cons, List.not_mem_nil, or_false] at hform
  rcases t.isQuote with h | h <;> rw [h] <;> rcases hform with rfl | rfl <;> decide

theorem isBare_filler (hform : form ∈ forms) : t.redaction.filler.all form.isBare = true := by
  simp only [forms, List.mem_cons, List.not_mem_nil, or_false] at hform
  rw [List.all_eq_true]
  intro c hc
  obtain rfl : c = 'x' := List.eq_of_mem_replicate hc
  rcases hform with rfl | rfl <;> decide

/-- The reader leaves as much of either line from `s` on. -/
def SameRest (t : Quotation) (read : Line → Option Line) (s : Line) : Prop :=
  (read (s ++ t.quoted t.content)).map List.length =
    (read (s ++ t.quoted t.redaction.filler)).map List.length

/-- The reader goes on beyond the opening quote of either line. -/
def RunsOn (t : Quotation) (read : Line → Option Line) (s : Line) : Prop :=
  ∀ said, t.Says said → ∃ tail, read (s ++ t.quoted said) = some tail ∧
    tail.length < (t.quoted said).length

theorem sameRest_of_stops {read : Line → Option Line} {s : Line} (taken : Option Line)
    (h : ∀ rest, read (s ++ t.quote :: rest) = taken.map (· ++ t.quote :: rest)) : t.SameRest read s := by
  have hsaid {said : Line} (hsaid : t.Says said) : (read (s ++ t.quoted said)).map List.length =
      taken.map (·.length + (t.content.length + t.back.length + 2)) := by
    rw [quoted, h, Option.map_map]
    refine congrArg (Option.map · taken) (funext fun tail => ?_)
    rw [Function.comp_apply, List.length_append, ← length_quoted hsaid, quoted]
  exact (hsaid said_content).trans (hsaid said_filler).symm

/-- Where the first reader fails on either line the second one decides. -/
theorem SameRest.or {p : Prop} {first second : Line → Option Line} {s : Line}
    (hfirst : t.SameRest first s) (hsecond : t.SameRest second s ∨ p ∧ t.RunsOn second s) :
    t.SameRest (fun s => (first s).or (second s)) s ∨
      p ∧ t.RunsOn (fun s => (first s).or (second s)) s := by
  unfold SameRest at hfirst
  cases hline : first (s ++ t.quoted t.content) with
  | none =>
    have hredacted : first (s ++ t.quoted t.redaction.filler) = none := by
      simpa [hline, eq_comm] using hfirst
    rcases hsecond with hsame | ⟨hp, hruns⟩
    · exact Or.inl (by simpa only [SameRest, hline, hredacted, Option.none_or] using hsame)
    · refine Or.inr ⟨hp, fun said hsaid => ?_⟩
      have hnone : first (s ++ t.quoted said) = none := by
        rcases hsaid with rfl | rfl
        · exact hline
        · exact hredacted
      simpa only [hnone, Option.none_or] using hruns said hsaid
  | some tail =>
    obtain ⟨tail', hredacted, hlength⟩ := Option.map_eq_some_iff.1 ((hline ▸ hfirst).symm.trans rfl)
    exact Or.inl (by simp [SameRest, hline, hredacted, hlength])

/-- A bare value that reaches the quotation goes on into it, and beyond unless something in it ends the
value. -/
theorem bareValue_quoted (hform : form ∈ forms) (s : Line) : t.SameRest (run? form.isBare) s ∨
    t.content.all form.isBare = false ∧ t.RunsOn (run? form.isBare) s := by
  cases hs : s.all form.isBare with
  | false => exact Or.inl (sameRest_of_stops _ fun rest => run?_append_of_not_all hs _)
  | true =>
    have hrun (rest : Line) :
        run? form.isBare (s ++ t.quote :: rest) = some (rest.dropWhile form.isBare) := by
      rw [List.append_cons]
      exact run?_append_of_all (by simp [hs, isBare_quote hform]) (by simp) rest
    cases hcontent : t.content.all form.isBare with
    | true =>
      have hsaid {said : Line} (hall : said.all form.isBare = true) :
          run? form.isBare (s ++ t.quoted said) = some (t.back.dropWhile form.isBare) := by
        rw [quoted, hrun, List.dropWhile_append_of_pos (List.all_eq_true.1 hall),
          List.dropWhile_cons_of_pos (isBare_quote hform)]
      exact Or.inl (by rw [SameRest, hsaid hcontent, hsaid (isBare_filler hform)])
    | false =>
      refine Or.inr ⟨rfl, fun said _ => ⟨_, hrun _, ?_⟩⟩
      exact Nat.lt_succ_of_le (length_dropWhile_le _ _)

namespace Inert

variable (h : t.Inert) (hform : form ∈ forms)

include h hform

/-- A value leaves as much of either line, or it is a bare one that something in the content may end. -/
theorem value?_quoted (s : Line) : t.SameRest form.value? s ∨
    t.content.all form.isBare = false ∧ t.RunsOn form.value? s := by
  have hquoted : t.SameRest quotedValue? s := (h.sameText_append s).length_quotedValue?
  have hword : t.SameRest wordValue? s := sameRest_of_stops _ (stopsAt_wordValue? isGuard_quote s)
  have hnumber : t.SameRest numberValue? s := sameRest_of_stops _ (stopsAt_numberValue? isGuard_quote s)
  exact hquoted.or (hword.or (hnumber.or (bareValue_quoted hform s)))

/-- A default in front of the quotation leaves as much of either line, or it has a bare value that
something in the content may end. -/
theorem take?_quoted (before : Option Char) (s : Line) : t.SameRest (form.take? before) s ∨
    t.content.all form.isBare = false ∧ '=' ∈ s ∧ t.RunsOn (form.take? before) s := by
  cases s with
  | nil =>
    have hnone (rest : Line) : form.take? before (t.quote :: rest) = none :=
      DefaultForm.take?_of_not_isIdentifierStart (isIdentifierStart_guard isGuard_quote) before rest
    exact Or.inl (sameRest_of_stops none hnone)
  | cons c s =>
    cases hboundary : isWordBoundary before c with
    | false =>
      exact Or.inl (sameRest_of_stops none fun rest => by simp [DefaultForm.take?, hboundary])
    | true =>
      have hsign : StopsAt t.quote (spacedChar? '=') :=
        stopsAt_spacedChar? isGuard_quote (ne_quote (by decide) (by decide))
      have hname (more : Line) := (stopsAt_identifier? isGuard_quote).bind hsign (c :: s) more
      have hhead (rest more : Line) :
          (rest ++ t.quote :: more).head? = (rest ++ [t.quote]).head? := by
        cases rest <;> rfl
      have htake (more : Line) : form.take? before (c :: s ++ t.quote :: more) =
          ((identifier? (c :: s)).bind (spacedChar? '=')).bind fun rest =>
            if (skipBlanks rest ++ [t.quote]).head?.any form.refuses.contains then none
            else form.value? (skipBlanks rest ++ t.quote :: more) := by
        simp only [List.cons_append] at hname
        simp only [DefaultForm.take?, List.cons_append, hboundary, if_true, hname]
        cases (identifier? (c :: s)).bind (spacedChar? '=') with
        | none => rfl
        | some rest =>
          simp only [Option.map_some, Option.bind_some, skipBlanks_append_guard isGuard_quote, hhead]
      cases hfound : (identifier? (c :: s)).bind (spacedChar? '=') with
      | none => exact Or.inl (sameRest_of_stops none fun more => by rw [htake, hfound]; rfl)
      | some rest =>
        have hequals : '=' ∈ c :: s := by
          by_contra hnone
          rw [bind_identifier?_of_not_mem hnone] at hfound
          simp at hfound
        by_cases hrefused : ((skipBlanks rest ++ [t.quote]).head?.any form.refuses.contains) = true
        · exact Or.inl (sameRest_of_stops none fun more => by
            rw [htake, hfound, Option.bind_some, if_pos hrefused]; rfl)
        · have hvalue (said : Line) : form.take? before (c :: s ++ t.quoted said) =
              form.value? (skipBlanks rest ++ t.quoted said) := by
            rw [quoted, htake, hfound, Option.bind_some, if_neg hrefused]
          rcases h.value?_quoted hform (skipBlanks rest) with hsame | ⟨hends, hruns⟩
          · exact Or.inl (by rw [SameRest, hvalue, hvalue]; exact hsame)
          · exact Or.inr ⟨hends, hequals, fun said hsaid => by rw [hvalue]; exact hruns said hsaid⟩

/-! ## Counts -/

omit hform in
/-- No default begins in a quotation, so only the characters to pass over matter. -/
theorem countFrom_quoted {said : Line} (hsaid : t.Says said) (skip : Nat) (before : Option Char) :
    form.countFrom skip before (t.quoted said) =
      form.countFrom (skip - (t.content.length + 2)) (some t.quote) t.back := by
  have hquote : t.quote ≠ '=' := ne_quote (by decide) (by decide)
  have hsign : spacedChar? '=' (t.quote :: t.back) = none :=
    stopsAt_spacedChar? isGuard_quote hquote [] t.back
  have hcontent : '=' ∉ t.quote :: said := by
    rw [List.mem_cons, not_or]
    exact ⟨hquote.symm, h.not_mem hsaid (by decide)⟩
  have hpart : ∀ c ∈ (t.quote :: t.back).head?, isIdentifierPart c = false := by
    intro c hc
    obtain rfl := Option.some.inj hc
    exact isIdentifierPart_guard isGuard_quote
  have hclose (skip : Nat) (before : Option Char) : form.countFrom skip before (t.quote :: t.back) =
      form.countFrom (skip - 1) (some t.quote) t.back := by
    cases skip with
    | zero =>
      rw [DefaultForm.countFrom, DefaultForm.take?_of_not_isIdentifierStart
        (isIdentifierStart_guard isGuard_quote)]
    | succ skip => rfl
  have hlength : (t.quote :: said).length + 1 = t.content.length + 2 := by
    rw [List.length_cons, hsaid.length_eq]
    rfl
  rw [quoted, ← List.cons_append, DefaultForm.countFrom_skip_append hcontent hsign hpart, hclose,
    Nat.sub_sub, hlength]

/-- As many defaults are counted from the front of either line on, whatever has been passed over. -/
theorem countFrom_line {front : Line} {skip skip' : Nat} (before : Option Char)
    (hskip : skip = skip' ∨ '=' ∉ t.back ∧ front.length < skip ∧ front.length < skip')
    (happart : t.content.all form.isBare = true ∨ '=' ∉ front ∨ '=' ∉ t.back) :
    form.countFrom skip before (front ++ t.quoted t.content) =
      form.countFrom skip' before (front ++ t.quoted t.redaction.filler) := by
  induction front generalizing skip skip' before with
  | nil =>
    rw [List.nil_append, List.nil_append, h.countFrom_quoted said_content,
      h.countFrom_quoted said_filler]
    rcases hskip with rfl | ⟨hback, -⟩
    · rfl
    · rw [DefaultForm.countFrom_of_not_mem hback, DefaultForm.countFrom_of_not_mem hback]
  | cons c front ih =>
    have hrest := happart.imp_right (Or.imp_left fun hnone hmem => hnone (List.mem_cons_of_mem c hmem))
    have hlength {said : Line} (hsaid : t.Says said) : (front ++ t.quoted said).length =
        front.length + (t.content.length + t.back.length + 2) := by
      rw [List.length_append, length_quoted hsaid]
    cases skip with
    | succ skip =>
      cases skip' with
      | zero => simp at hskip
      | succ skip' => exact ih (some c) (by simpa using hskip) hrest
    | zero =>
      obtain rfl : skip' = 0 := by simpa [eq_comm] using hskip
      rw [List.cons_append, List.cons_append, DefaultForm.countFrom, DefaultForm.countFrom]
      rcases h.take?_quoted hform before (c :: front) with hsame | ⟨hends, hequals, hruns⟩
      · rw [SameRest, List.cons_append, List.cons_append] at hsame
        cases htail : form.take? before (c :: (front ++ t.quoted t.content)) with
        | none =>
          have htail' : form.take? before (c :: (front ++ t.quoted t.redaction.filler)) = none := by
            simpa [htail, eq_comm] using hsame
          rw [htail']
          exact ih (some c) (Or.inl rfl) hrest
        | some tail =>
          rw [htail, Option.map_some, eq_comm, Option.map_eq_some_iff] at hsame
          obtain ⟨tail', htail', hsame⟩ := hsame
          rw [htail']
          refine congrArg (· + 1) (ih (some c) (Or.inl ?_) hrest)
          rw [hlength said_content, hlength said_filler, hsame]
      · have hback : '=' ∉ t.back := by
          rcases happart with hall | hfront | hback
          · exact absurd hall (by rw [hends]; exact Bool.false_ne_true)
          · exact absurd hequals hfront
          · exact hback
        obtain ⟨tail, htail, hlt⟩ := hruns _ said_content
        obtain ⟨tail', htail', hlt'⟩ := hruns _ said_filler
        rw [length_quoted said_content] at hlt
        rw [length_quoted said_filler] at hlt'
        rw [List.cons_append] at htail htail'
        rw [htail, htail', hlength said_content, hlength said_filler]
        exact congrArg (· + 1) (ih (some c) (Or.inr ⟨hback, by omega, by omega⟩) hrest)

end Inert

/-! ## Quotations apart from defaults -/

/-- No bare value can end in the content, or defaults stand on one side of the quotation at most. -/
def Apart (t : Quotation) : Prop :=
  (∀ c ∈ t.content, isBlank c = false ∧ c ≠ ',') ∨ '=' ∉ t.front ∨ '=' ∉ t.back

/-- Whatever an inert quotation says that stands apart, the line has as many defaults. -/
theorem Apart.count_redacted (happart : t.Apart) (h : t.Inert) (hform : form ∈ forms) :
    form.count t.line = form.count t.redacted := by
  refine h.countFrom_line hform none (Or.inl rfl) (happart.imp_left fun hcontent => ?_)
  rw [List.all_eq_true]
  intro c hc
  obtain ⟨hblank, hcomma⟩ := hcontent c hc
  have hinert (x : Char) (hx : isInert x = false) : c ≠ x := ne_of_isInert hx (h.chars c hc)
  simp only [forms, List.mem_cons, List.not_mem_nil, or_false] at hform
  rcases hform with rfl | rfl <;>
    simp [DefaultForm.isBare, DefaultForm.parameter, DefaultForm.destructured, hblank, hcomma,
      hinert '=' (by decide), hinert ')' (by decide), hinert '}' (by decide)]

end Quotation

end BranchTally
