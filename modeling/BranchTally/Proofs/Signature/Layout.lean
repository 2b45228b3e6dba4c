-- SUMMARY: How many defaults are reported on each line of a printed signature, and exactly when these are all that are printed there.
import BranchTally.Proofs.Signature.Points

/-!
# Line breaks in signatures

The defaults of a signature are counted on the lines on which they are printed if the closing
parenthesis has a line without defaults for itself, no line between reads as an assignment and all
names are found. Where the whole list stands on one line, this line has to look like a signature.
-/

namespace BranchTally

open Text

/-! ## The lines of the source -/

theorem Parameter.sameLine (p : Parameter) : ∀ c ∈ p.text, c ≠ '\n' ∧ c ≠ '\r' := by
  intro c hc
  rcases List.mem_append.1 hc with hc | hc
  · exact p.name.sameLine c hc
  · cases hdefault : p.default with
    | none => simp [defaultText, hdefault] at hc
    | some d =>
      have hnumeral (e : Char) (hstart : startsNumeral e = false) (he : isNumeralChar e = false) :
          e ∉ d.literal.text := d.literal.not_mem hstart he
      simp only [defaultText, hdefault, Option.map_some, Option.getD_some, ParameterDefault.text,
        List.mem_append, List.mem_cons] at hc
      rcases hc with hc | rfl | hc | hc
      · exact d.before.sameLine c hc
      · decide
      · exact d.after.sameLine c hc
      · constructor
        · rintro rfl
          exact hnumeral _ (by decide) (by decide) hc
        · rintro rfl
          exact hnumeral _ (by decide) (by decide) hc

theorem ParameterLine.sameLine (line : ParameterLine) : ∀ c ∈ line.text, c ≠ '\n' ∧ c ≠ '\r' := by
  intro c hc
  rcases List.mem_append.1 hc with hc | hc
  · obtain ⟨p, -, hc⟩ := List.mem_flatMap.1 hc
    rcases List.mem_append.1 hc with hc | hc
    · exact p.gap.sameLine c hc
    · rcases List.mem_append.1 hc with hc | hc
      · exact p.parameter.sameLine c hc
      · cases hp : p.comma with
        | none => simp [PrintedParameter.commaText, hp] at hc
        | some g =>
          simp only [PrintedParameter.commaText, hp, Option.map_some, Option.getD_some,
            List.mem_append, List.mem_singleton] at hc
          rcases hc with hc | rfl
          · exact g.sameLine c hc
          · decide
  · exact line.tail.sameLine c hc

theorem SignatureOpening.sameLine (o : SignatureOpening) : ∀ c ∈ o.text, c ≠ '\n' ∧ c ≠ '\r' := by
  intro c hc
  simp only [text, List.mem_append, List.mem_singleton] at hc
  rcases hc with hc | hc | hc | hc | hc | rfl
  · exact o.indent.sameLine c hc
  · have hword : ∀ c ∈ functionWord, c ≠ '\n' ∧ c ≠ '\r' := forall_mem_of_all (by decide)
    exact hword c hc
  · exact o.gap.sameLine c hc
  · exact o.name.sameLine c hc
  · exact o.tail.sameLine c hc
  · decide

namespace PrintedSignature

theorem comma_of_mem (s : PrintedSignature) (line : ParameterLine) (hline : line ∈ s.parameterLines) :
    ∀ p ∈ line.parameters.dropLast, p.comma ≠ none := by
  intro p hp
  obtain ⟨front, back, hlines⟩ := List.append_of_mem hline
  refine s.separated.comma p ?_
  change p ∈ (s.parameterLines.flatMap ParameterLine.parameters).dropLast
  rw [hlines, List.flatMap_append, List.flatMap_cons, List.dropLast_append_of_ne_nil, List.mem_append]
  · refine Or.inr ?_
    cases hback : back.flatMap ParameterLine.parameters with
    | nil => rwa [List.append_nil]
    | cons q rest =>
      rw [List.dropLast_append_of_ne_nil (List.cons_ne_nil _ _), List.mem_append]
      exact Or.inl (List.mem_of_mem_dropLast hp)
  · intro hempty
    rw [(List.append_eq_nil_iff.1 hempty).1] at hp
    simp at hp

theorem splitLines_source (s : PrintedSignature) :
    ∃ (z : Line) (below : List Line), '=' ∉ z ∧ (∀ line ∈ below, '=' ∉ line) ∧
      splitLines s.source = (s.above.map ParameterLine.text ++
        (s.last.text ++ ')' :: z) :: below).modifyHead (s.opening.text ++ ·) := by
  obtain ⟨tail, below, hbody⟩ := List.exists_cons_of_ne_nil (splitLines_ne_nil s.body)
  have hassigns (line : Line) (hline : line ∈ splitLines s.body) : '=' ∉ line :=
    fun hmem => s.assignsNothing (mem_of_mem_splitLines hline hmem)
  have hclosing : ∀ c ∈ s.last.text ++ s.closing, c ≠ '\n' ∧ c ≠ '\r' := by
    intro c hc
    simp only [closing, List.mem_append, List.mem_cons, List.not_mem_nil, or_false] at hc
    rcases hc with hc | rfl | hc | rfl
    · exact s.last.sameLine c hc
    · decide
    · exact s.gap.sameLine c hc
    · decide
  refine ⟨s.gap.text ++ '{' :: tail, below, ?_, ?_, ?_⟩
  · simp [s.gap.not_mem (by decide : isBlank '=' = false), hassigns tail (by simp [hbody])]
  · exact fun line hline => hassigns line (by simp [hbody, hline])
  · have hopening (line : Line) (h : ∀ c ∈ line, c ≠ '\n' ∧ c ≠ '\r') :
        ∀ c ∈ s.opening.text ++ line, c ≠ '\n' ∧ c ≠ '\r' := fun c hc =>
      (List.mem_append.1 hc).elim (s.opening.sameLine c) (h c)
    cases habove : s.above with
    | nil =>
      have hlines : s.lines = [] ++ [s.opening.text ++ (s.last.text ++ s.closing)] := by
        simp [lines, habove]
      rw [source, hlines, splitLines_joinLines_append, hbody]
      · simp [closing]
      · intro line hline
        obtain rfl := List.mem_singleton.1 hline
        exact hopening _ hclosing
    | cons first between =>
      have hlines : s.lines = ((s.opening.text ++ first.text) :: between.map ParameterLine.text) ++
          [s.last.text ++ s.closing] := by simp [lines, habove]
      rw [source, hlines, splitLines_joinLines_append, hbody]
      · simp [closing]
      · intro line hline
        simp only [List.cons_append, List.mem_cons, List.mem_append, List.mem_map,
          List.not_mem_nil, or_false] at hline
        rcases hline with rfl | ⟨p, -, rfl⟩ | rfl
        · exact hopening _ first.sameLine
        · exact p.sameLine
        · exact hclosing

end PrintedSignature

/-! ## One line of a source -/

theorem filter_fociFrom (number : Int) (before above : List Line) (line : Line) (below : List Line) :
    (fociFrom number before (above ++ line :: below)).filter
        (fun f => f.number = number + above.length) =
      [⟨number + above.length, above.reverse ++ before, line, below⟩] := by
  induction above generalizing number before with
  | nil =>
    have hlater : (fociFrom (number + 1) (line :: before) below).filter
        (fun f => f.number = number) = [] := by
      rw [List.filter_eq_nil_iff]
      intro f hf
      have hle := le_number_of_mem_fociFrom hf
      have hne : f.number ≠ number := by omega
      simp [hne]
    simp [fociFrom, hlater]
  | cons next above ih =>
    have hne : number ≠ number + ((next :: above).length : Nat) := by
      rw [List.length_cons]
      omega
    have hnumber : number + ((next :: above).length : Nat) = number + 1 + (above.length : Nat) := by
      rw [List.length_cons]
      omega
    rw [List.cons_append, fociFrom, List.filter_cons_of_neg (by simpa using hne), hnumber, ih]
    simp

theorem defaultCount_line {source : List Char} {above below : List Line} {line : Line}
    (hlines : splitLines source = above ++ line :: below) (m : BoundaryMap) :
    defaultCount (1 + above.length) (decisionPoints source m) =
      defaultCount (1 + above.length) (scanLine (Ownership.of m) (splitLines source)
        ⟨1 + above.length, above.reverse, line, below⟩) := by
  have hfocus := filter_fociFrom 1 [] above line below
  rw [List.append_nil] at hfocus
  rw [defaultCount_decisionPoints, foci, hlines, hfocus]
  simp

theorem defaultCount_behind {source : List Char} {number : Int}
    (h : (splitLines source).length < number) (m : BoundaryMap) :
    defaultCount number (decisionPoints source m) = 0 := by
  have hnone (first : Int) (before : List Line) {lines : List Line}
      (h : first + lines.length ≤ number) :
      (fociFrom first before lines).filter (fun f => f.number = number) = [] := by
    induction lines generalizing first before with
    | nil => rfl
    | cons line lines ih =>
      rw [List.length_cons] at h
      have hne : first ≠ number := by omega
      rw [fociFrom, List.filter_cons_of_neg (by simpa using hne)]
      exact ih _ _ (by omega)
  rw [defaultCount_decisionPoints, foci, hnone 1 [] (by omega)]
  rfl

theorem defaultCount_scanLine_single {key : Int} {b : Boundary} {lines : List Line} {f : Focus}
    (hinside : b.contains f.number = true)
    (hquiet : isQuiet f.line = true →
      (readDefaults (Ownership.of (.single key b)) lines f key).length = 0) :
    defaultCount f.number (scanLine (Ownership.of (.single key b)) lines f) =
      (readDefaults (Ownership.of (.single key b)) lines f key).length := by
  cases hline : isQuiet f.line with
  | true => simp [scanLine, hline, defaultCount, hquiet hline]
  | false =>
    have howner := Ownership.holds_of_innermost? (@innermost?_single key b f.number hinside)
    rw [scanLine_single lines hline hinside, defaultCount_codePoints howner, if_pos rfl]

/-! ## Reports -/

theorem SignatureOpening.isQuiet_text (o : SignatureOpening) (line : Line) :
    isQuiet (o.text ++ line) = false :=
  isQuiet_of_head (o.skipBlanks_text line) (by decide) (by decide)

theorem ParameterLine.foundDefaults_of_isQuiet (p : ParameterLine)
    (hcomma : ∀ q ∈ p.parameters.dropLast, q.comma ≠ none) (hquiet : isQuiet p.text = true) :
    p.foundDefaults = 0 := by
  have hnone : p.parameters = [] := by
    by_contra hne
    obtain ⟨gap, name, s, htext, -⟩ := p.exists_name hcomma hne (z := []) (by simp)
    obtain ⟨c, rest, hname⟩ := List.exists_cons_of_ne_nil name.ne_nil
    have hc := name.nameChars c (hname ▸ List.mem_cons_self)
    have hcode : isQuiet p.text = false := by
      rw [List.append_nil] at htext
      have hskip : skipBlanks p.text = c :: (rest ++ s) := by
        rw [htext, skipBlanks_append gap.blank, name.skipBlanks_append, hname, List.cons_append]
      exact isQuiet_of_head hskip (ne_of_isNameChar hc (by decide))
        (ne_of_isNameChar hc (by decide))
    exact Bool.false_ne_true (hcode.symm.trans hquiet)
  simp [ParameterLine.foundDefaults, hnone]

namespace PrintedSignature

/-- The first line of the source without its comments. -/
def headLine (s : PrintedSignature) : Line := stripComments ((splitLines s.source).headD [])

/-- The first line looks like a signature where the whole list stands on it. -/
def looksLikeSignature (s : PrintedSignature) : Bool :=
  hasSignature s.headLine false && !hasDependencyArray s.headLine

/-- How many defaults each line of the signature reports. -/
def reported (s : PrintedSignature) : List Nat :=
  match s.above with
  | [] => [if s.looksLikeSignature then s.last.foundDefaults else 0]
  | first :: between =>
    first.foundDefaults ::
      between.map fun line => if isRegularAssignment line.text then 0 else line.foundDefaults

section

variable (s : PrintedSignature) (key : Int)

theorem parameterListEnd_source {z : Line} {below : List Line} (hz : '=' ∉ z)
    (hlines : splitLines s.source = (s.above.map ParameterLine.text ++
      (s.last.text ++ ')' :: z) :: below).modifyHead (s.opening.text ++ ·)) (asked : Int) (line : Line) :
    parameterListEnd asked s.boundary.start (splitLines s.source) line = s.above.length + 1 := by
  have hlimit : (s.above.length : Int) ≤ signatureLimit := by
    have := s.atMostTwenty
    simp only [signatureLimit]
    omega
  rw [hlines]
  exact parameterListEnd_signature s.opening hlimit s.last hz below

/-- A line of the source reports what is read on it. -/
theorem defaultCount_of_splitLines {above below : List Line} {line : Line}
    (hlines : splitLines s.source = above ++ line :: below)
    (hquiet : isQuiet line = true → (readDefaults (Ownership.of (.single key s.boundary))
      (splitLines s.source) ⟨1 + above.length, above.reverse, line, below⟩ key).length = 0) :
    defaultCount (1 + above.length) (decisionPoints s.source (.single key s.boundary)) =
      (readDefaults (Ownership.of (.single key s.boundary)) (splitLines s.source)
        ⟨1 + above.length, above.reverse, line, below⟩ key).length := by
  have hinside : s.boundary.contains (1 + above.length) = true := by
    have hlength := congrArg List.length hlines
    rw [List.length_append, List.length_cons] at hlength
    have hto : 1 + (above.length : Int) ≤ 1 + ((splitLines s.source).length - 1 : Nat) := by omega
    simp only [Boundary.contains, Bool.and_eq_true, decide_eq_true_eq]
    exact ⟨by simp [boundary], hto⟩
  rw [defaultCount_line hlines]
  exact @defaultCount_scanLine_single key s.boundary (splitLines s.source)
    ⟨1 + above.length, above.reverse, line, below⟩ hinside hquiet

end

theorem readDefaults_behind (s : PrintedSignature) (key : Int) (lines : List Line) {f : Focus}
    (h : '=' ∉ f.line) :
    (readDefaults (Ownership.of (.single key s.boundary)) lines f key).length = 0 := by
  rw [readDefaults_of_not_mem key lines key fun hmem => h ((stripComments_sublist _).subset hmem)]
  rfl

/-- Where an element of a list with a marked one stands: in front of it, at it or behind it. -/
theorem append_cons_cases {α : Type} {front back above below : List α} {x mark : α}
    (h : front ++ x :: back = above ++ mark :: below) :
    (∃ between, above = front ++ x :: between) ∨ (front = above ∧ x = mark ∧ back = below) ∨
      (∃ between, front = above ++ mark :: between ∧ x ∈ below) := by
  rcases List.append_eq_append_iff.1 h with ⟨u, rfl, hu⟩ | ⟨u, rfl, hu⟩
  · cases u with
    | nil =>
      obtain ⟨rfl, rfl⟩ := List.cons.inj hu
      exact Or.inr (Or.inl ⟨by simp, rfl, rfl⟩)
    | cons y u =>
      obtain ⟨rfl, -⟩ := List.cons.inj hu
      exact Or.inl ⟨u, rfl⟩
  · cases u with
    | nil =>
      obtain ⟨rfl, rfl⟩ := List.cons.inj hu
      exact Or.inr (Or.inl ⟨by simp, rfl, rfl⟩)
    | cons y u =>
      obtain ⟨rfl, rfl⟩ := List.cons.inj hu
      exact Or.inr (Or.inr ⟨u, rfl, by simp⟩)

section

variable (s : PrintedSignature) (key : Int) {z : Line} {below : List Line}

/-- The reports where the whole list stands on the first line. -/
theorem defaultCount_of_oneLine (hz : '=' ∉ z) (hbelow : ∀ line ∈ below, '=' ∉ line)
    (habove : s.above = [])
    (hlines : splitLines s.source = (s.opening.text ++ (s.last.text ++ ')' :: z)) :: below)
    (hstop : ∀ asked line, parameterListEnd asked s.boundary.start (splitLines s.source) line = 1)
    {front back : List Line} {line : Line} (hsplit : splitLines s.source = front ++ line :: back) :
    defaultCount (1 + front.length) (decisionPoints s.source (.single key s.boundary)) =
      s.reported.getD front.length 0 := by
  have hreport := s.defaultCount_of_splitLines key hsplit
  cases front with
  | nil =>
    obtain ⟨rfl, rfl⟩ := List.cons.inj (hsplit.symm.trans hlines)
    have hlast := s.comma_of_mem s.last (by simp [parameterLines])
    have hhead : s.headLine = stripComments (s.opening.text ++ (s.last.text ++ ')' :: z)) := by
      simp [headLine, hsplit]
    have hquiet := s.opening.isQuiet_text (s.last.text ++ ')' :: z)
    rw [hreport fun h => absurd (h.symm.trans hquiet) (by decide),
      length_readDefaults_oneLine _ _ s.opening s.last hlast hz rfl rfl rfl (hstop _ _) hbelow]
    simp [reported, habove, looksLikeSignature, hhead]
  | cons first front =>
    obtain ⟨-, rfl⟩ := List.cons.inj (hsplit.symm.trans hlines)
    have hnone := s.readDefaults_behind key (splitLines s.source)
      (f := ⟨1 + (first :: front).length, (first :: front).reverse, line, back⟩)
      (hbelow line (by simp))
    rw [hreport fun _ => hnone, hnone]
    simp [reported, habove]

/-- The reports where the parameters take several lines. -/
theorem defaultCount_of_lines (hz : '=' ∉ z) (hbelow : ∀ line ∈ below, '=' ∉ line)
    {first : ParameterLine} {between : List ParameterLine} (habove : s.above = first :: between)
    (hlines : splitLines s.source = (s.opening.text ++ first.text) ::
      (between.map ParameterLine.text ++ (s.last.text ++ ')' :: z) :: below))
    (hstop : ∀ asked line, parameterListEnd asked s.boundary.start (splitLines s.source) line =
      between.length + 2)
    {front back : List Line} {line : Line} (hsplit : splitLines s.source = front ++ line :: back) :
    defaultCount (1 + front.length) (decisionPoints s.source (.single key s.boundary)) =
      s.reported.getD front.length 0 := by
  have hreport := s.defaultCount_of_splitLines key hsplit
  have hstart : s.boundary.start = 1 := rfl
  have hwide : s.boundary.start < (between.length + 2 : Int) := by omega
  cases front with
  | nil =>
    obtain ⟨rfl, rfl⟩ := List.cons.inj (hsplit.symm.trans hlines)
    have hcomma := s.comma_of_mem first (by simp [parameterLines, habove])
    have hquiet := s.opening.isQuiet_text first.text
    rw [hreport fun h => absurd (h.symm.trans hquiet) (by decide),
      length_readDefaults_opening _ _ s.opening first hcomma rfl rfl rfl (hstop _ _) hwide]
    simp [reported, habove]
  | cons head front =>
    obtain ⟨rfl, htail⟩ := List.cons.inj (hsplit.symm.trans hlines)
    have hopening : '{' ∉ s.opening.text ++ first.text := by
      simp [s.opening.not_mem_text (by decide : isNameChar '{' = false) (by decide) (by decide),
        first.not_mem_text (by decide : isParameterChar '{' = false)]
    have hbrace (printed : List ParameterLine) : ∀ above ∈
        ((s.opening.text ++ first.text) :: printed.map ParameterLine.text).reverse, '{' ∉ above := by
      intro above hmem
      rcases List.mem_cons.1 (List.mem_reverse.1 hmem) with rfl | hmem
      · exact hopening
      · obtain ⟨p, -, rfl⟩ := List.mem_map.1 hmem
        exact p.not_mem_text (by decide)
    rcases append_cons_cases htail with ⟨v, hv⟩ | ⟨rfl, rfl, rfl⟩ | ⟨v, rfl, hmem⟩
    · -- a line between the first and that of the closing parenthesis
      obtain ⟨printed, later, rfl, rfl, hlater⟩ := List.map_eq_append_iff.1 hv
      obtain ⟨p, later, rfl, rfl, rfl⟩ := List.map_eq_cons_iff.1 hlater
      have hcomma := s.comma_of_mem p (by simp [parameterLines, habove])
      have hread := length_readDefaults_between key (splitLines s.source) p hcomma
        (f := ⟨1 + ((s.opening.text ++ first.text) :: printed.map ParameterLine.text).length, _,
          p.text, back⟩) rfl (hbrace printed) (hstop _ _)
        (by simp only [List.length_cons]; omega)
        (by simp only [List.length_cons, List.length_append, List.length_map]; omega)
      refine (hreport fun h => hread.trans ?_).trans (hread.trans ?_)
      · simp [p.foundDefaults_of_isQuiet hcomma h]
      · simp [reported, habove]
    · -- the line of the closing parenthesis
      have hcomma := s.comma_of_mem s.last (by simp [parameterLines])
      have hread := readDefaults_closing key (splitLines s.source) s.last hcomma hz
        (f := ⟨1 + ((s.opening.text ++ first.text) :: between.map ParameterLine.text).length, _,
          s.last.text ++ ')' :: z, back⟩) rfl (hbrace between) (hstop _ _) hwide
        (by simp only [List.length_cons, List.length_map]; omega) hbelow
      have hnone := congrArg List.length hread
      refine (hreport fun _ => hnone).trans (hnone.trans ?_)
      simp [reported, habove]
    · -- a line of the body
      have hnone (number : Int) (before : List Line) := s.readDefaults_behind key
        (splitLines s.source) (f := ⟨number, before, line, back⟩) (hbelow line hmem)
      refine (hreport fun _ => hnone _ _).trans ((hnone _ _).trans ?_)
      simp [reported, habove]

end

/-- What each line of the source reports. -/
theorem defaultCount_source (s : PrintedSignature) (key : Int) (place : Nat) :
    defaultCount (1 + place) (decisionPoints s.source (.single key s.boundary)) =
      s.reported.getD place 0 := by
  obtain ⟨z, below, hz, hbelow, hlines⟩ := s.splitLines_source
  have hstop (asked : Int) (line : Line) := s.parameterListEnd_source hz hlines asked line
  by_cases hplace : place < (splitLines s.source).length
  · obtain ⟨front, line, back, hsplit, rfl⟩ : ∃ front line back,
        splitLines s.source = front ++ line :: back ∧ front.length = place :=
      ⟨(splitLines s.source).take place, (splitLines s.source)[place],
        (splitLines s.source).drop (place + 1), by simp, by simpa using hplace.le⟩
    cases habove : s.above with
    | nil =>
      rw [habove] at hlines hstop
      exact s.defaultCount_of_oneLine key hz hbelow habove hlines hstop hsplit
    | cons first between =>
      rw [habove] at hlines hstop
      refine s.defaultCount_of_lines key hz hbelow habove hlines (fun asked line => ?_) hsplit
      rw [hstop, List.length_cons]
      omega
  · have hlong : s.reported.length ≤ place := by
      have hlength := congrArg List.length hlines
      rw [List.length_modifyHead, List.length_append, List.length_map, List.length_cons] at hlength
      cases habove : s.above with
      | nil =>
        simp only [reported, habove, List.length_cons, List.length_nil]
        omega
      | cons first between =>
        simp only [habove, List.length_cons] at hlength
        simp only [reported, habove, List.length_cons, List.length_map]
        omega
    rw [defaultCount_behind (by omega), List.getD_eq_default _ _ hlong]

/-! ## Complete reports -/

end PrintedSignature

namespace ParameterLine

theorem foundDefaults_le (line : ParameterLine) : line.foundDefaults ≤ line.defaults :=
  List.countP_mono_left fun _ _ h => (Bool.and_eq_true_iff.1 h).1

theorem foundDefaults_eq_iff (line : ParameterLine) :
    line.foundDefaults = line.defaults ↔
      ∀ p ∈ line.parameters, p.hasDefault = true → p.parameter.name.isFound = true := by
  obtain ⟨parameters, tail⟩ := line
  induction parameters with
  | nil => simp [foundDefaults, defaults]
  | cons p parameters ih =>
    have hle := (⟨parameters, tail⟩ : ParameterLine).foundDefaults_le
    simp only [foundDefaults, defaults] at hle ih
    simp only [foundDefaults, defaults, List.countP_cons, PrintedParameter.hasFoundDefault,
      List.forall_mem_cons, ← ih]
    cases hdefault : p.hasDefault <;> cases hfound : p.parameter.name.isFound <;>
      simp_all [PrintedParameter.hasFoundDefault]
    omega

end ParameterLine

namespace PrintedSignature

/-- The parameters of the signature. -/
def parameters (s : PrintedSignature) : List PrintedParameter :=
  s.parameterLines.flatMap ParameterLine.parameters

theorem forall_getD_eq_iff {xs ys : List Nat} (h : xs.length = ys.length) :
    (∀ place, xs.getD place 0 = ys.getD place 0) ↔ xs = ys := by
  refine ⟨fun heq => List.ext_getElem h fun place hx hy => ?_, fun heq _ => by rw [heq]⟩
  have hplace := heq place
  rwa [List.getD_eq_getElem _ _ hx, List.getD_eq_getElem _ _ hy] at hplace

theorem getD_append_zero (xs : List Nat) (place : Nat) :
    (xs ++ [0]).getD place 0 = xs.getD place 0 := by
  by_cases hplace : place < xs.length
  · rw [List.getD_append _ _ _ _ hplace]
  · have hnone : xs.getD place 0 = 0 := List.getD_eq_default _ _ (by omega)
    rw [List.getD_append_right _ _ _ _ (by omega), hnone]
    cases place - xs.length <;> rfl

/-- Every default is reported on the line on which it is printed exactly where all names with defaults
are found and the lines with defaults are read: on a line of its own the signature looks like one; else
no default stands beside the closing parenthesis, and no line between reads as an assignment. -/
theorem forall_defaultCount_iff (s : PrintedSignature) (key : Int) :
    (∀ place : Nat, defaultCount (1 + place) (decisionPoints s.source (.single key s.boundary)) =
        s.defaultsAt place) ↔
      (∀ p ∈ s.parameters, p.hasDefault = true → p.parameter.name.isFound = true) ∧
        (s.above = [] → s.last.defaults = 0 ∨ s.looksLikeSignature = true) ∧
        (s.above ≠ [] → s.last.defaults = 0 ∧
          ∀ line ∈ s.above.tail, isRegularAssignment line.text = true → line.defaults = 0) := by
  have hparameters : (∀ p ∈ s.parameters, p.hasDefault = true → p.parameter.name.isFound = true) ↔
      ∀ line ∈ s.above ++ [s.last], line.foundDefaults = line.defaults := by
    simp only [ParameterLine.foundDefaults_eq_iff, parameters, parameterLines, List.mem_flatMap]
    exact ⟨fun h line hline p hp => h p ⟨line, hline, hp⟩,
      fun h p ⟨line, hline, hp⟩ => h line hline p hp⟩
  have hlast := s.last.foundDefaults_le
  rw [hparameters]
  simp only [defaultCount_source, defaultsAt, parameterLines]
  cases habove : s.above with
  | nil =>
    have hone : (∀ place, s.reported.getD place 0 =
        (([] ++ [s.last]).map ParameterLine.defaults).getD place 0) ↔
        (if s.looksLikeSignature then s.last.foundDefaults else 0) = s.last.defaults := by
      rw [forall_getD_eq_iff (by simp [reported, habove])]
      simp [reported, habove]
    rw [hone]
    cases s.looksLikeSignature with
    | true => simp
    | false =>
      simp only [Bool.false_eq_true, if_false, or_false, List.nil_append, List.mem_singleton,
        forall_eq, ne_eq, not_true_eq_false, false_implies, and_true, true_implies]
      omega
  | cons first between =>
    have hall : (∀ place, s.reported.getD place 0 =
        ((first :: between ++ [s.last]).map ParameterLine.defaults).getD place 0) ↔
        first.foundDefaults = first.defaults ∧ 0 = s.last.defaults ∧ ∀ line ∈ between,
          (if isRegularAssignment line.text then 0 else line.foundDefaults) = line.defaults := by
      simp only [← getD_append_zero s.reported]
      rw [forall_getD_eq_iff (by simp [reported, habove])]
      simp only [reported, habove, List.cons_append, List.map_cons, List.map_append, List.map_nil,
        List.cons.injEq, ← List.map_inj_left]
      constructor
      · rintro ⟨hfirst, hrest⟩
        obtain ⟨hbetween, hlast⟩ := List.append_inj' hrest rfl
        exact ⟨hfirst, (List.cons.inj hlast).1, hbetween⟩
      · rintro ⟨hfirst, hlast, hbetween⟩
        exact ⟨hfirst, by rw [hbetween, hlast]⟩
    have hbetween (line : ParameterLine) :
        (if isRegularAssignment line.text then 0 else line.foundDefaults) = line.defaults ↔
          line.foundDefaults = line.defaults ∧
            (isRegularAssignment line.text = true → line.defaults = 0) := by
      have hle := line.foundDefaults_le
      split
      · next h =>
        simp only [h, forall_const]
        omega
      · next h => simp [h]
    rw [hall]
    simp only [hbetween, List.cons_append, List.forall_mem_cons, List.forall_mem_append,
      List.tail_cons, forall_and]
    constructor
    · rintro ⟨hfirst, hzero, hfound, hread⟩
      have hnone : s.last.foundDefaults = s.last.defaults := by omega
      exact ⟨⟨hfirst, hfound, by simpa using hnone⟩, by simp, fun _ => hzero.symm, fun _ => hread⟩
    · rintro ⟨⟨hfirst, hfound, -⟩, -, hzero, hread⟩
      have hseveral : first :: between ≠ [] := List.cons_ne_nil _ _
      exact ⟨hfirst, (hzero hseveral).symm, hfound, hread hseveral⟩

/-! ## A default beside the closing parenthesis -/

/-- The function `f(a = 1, b = 2)`, with a line break between its parameters. -/
def brokenPair : PrintedSignature :=
  let number (digit : Char) (h : startsNumeral digit = true) : ParameterDefault :=
    ⟨.space, .space, ⟨digit, [], h, by simp⟩⟩
  let name (letter : Char) (h : isNameChar letter = true) (hfree : [letter] ∉ reservedWords) :
      FreeIdentifier := ⟨⟨[letter], by simp, by simpa using h⟩, hfree⟩
  { opening := ⟨.empty, .space, by simp [Gap.space], name 'f' (by decide) (by decide), .empty⟩
    above := [⟨[⟨.empty, ⟨name 'a' (by decide) (by decide), some (number '1' rfl)⟩, some .empty⟩], .empty⟩]
    last := ⟨[⟨.space, ⟨name 'b' (by decide) (by decide), some (number '2' rfl)⟩, none⟩], .empty⟩
    separated := ⟨by simp, by simp⟩
    atMostTwenty := by simp
    gap := .space
    body := "\n  return b;\n\x7d".toList
    assignsNothing := by decide }

/-- The default beside the closing parenthesis is lost. -/
theorem defaultCount_lt_defaultsAt_brokenPair :
    brokenPair.source = "function f(a = 1,\n b = 2) \x7b\n  return b;\n\x7d".toList ∧
      brokenPair.boundary = ⟨1, 4, by decide⟩ ∧ brokenPair.defaultsAt 1 = 1 ∧
      defaultCount 2 (decisionPoints brokenPair.source (.single 1 brokenPair.boundary)) = 0 := by
  refine ⟨by decide, by decide, by decide, ?_⟩
  exact (brokenPair.defaultCount_source 1 1).trans (by decide)

end PrintedSignature

end BranchTally
