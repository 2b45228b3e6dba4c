-- SUMMARY: The walk over a printed signature ends on the line of its closing parenthesis, which it leaves out.
import BranchTally.Proofs.Signature.Shape

/-!
# The extent of a printed signature

The walk over brackets opens the list at the parenthesis of the opening, passes over the lines of
parameters unchanged and ends at the closing parenthesis. Its answer is the number of that line, and as
the answers are exclusive the line itself does not belong to the list.
-/

namespace BranchTally

open Text

/-! ## One line -/

/-- What the walk carries inside a parameter list. -/
def ListState.inList : ListState := { parens := 1, opened := true }

/-- A character that the walk passes over. -/
def isNoBracket (c : Char) : Bool := c ≠ '(' && c ≠ ')' && c ≠ '{' && c ≠ '}'

section

variable {isFunction : Bool} {number first : Int}

theorem ListState.walk_append {s : ListState} (hs : s.isDone = false) {u : Line}
    (hu : ∀ c ∈ u, isNoBracket c = true) (v : Line) :
    s.walk isFunction number first (u ++ v) = s.walk isFunction number first v := by
  induction u with
  | nil => rfl
  | cons c u ih =>
    have hc := hu c List.mem_cons_self
    simp only [isNoBracket, Bool.and_eq_true, decide_eq_true_eq] at hc
    obtain ⟨⟨⟨hopening, hclosing⟩, hbrace⟩, hend⟩ := hc
    have hstep : s.step c = s := by
      simp [ListState.step, hopening, hclosing, hbrace, hend]
    have hrest := ih fun d hd => hu d (List.mem_cons_of_mem _ hd)
    rw [List.cons_append, ListState.walk, hstep]
    simp [hbrace, hs, hrest]

theorem ParameterLine.walk_text (line : ParameterLine) (v : Line) :
    ListState.inList.walk isFunction number first (line.text ++ v) =
      ListState.inList.walk isFunction number first v := by
  refine ListState.walk_append rfl (fun c hc => ?_) v
  have hne (d : Char) (hd : isParameterChar d = false) : c ≠ d :=
    fun e => line.not_mem_text hd (e ▸ hc)
  simp [isNoBracket, hne '(' (by decide), hne ')' (by decide), hne '{' (by decide),
    hne '}' (by decide)]

theorem SignatureOpening.walk_text (o : SignatureOpening) (v : Line) :
    ListState.walk isFunction number first {} (o.text ++ v) =
      ListState.inList.walk isFunction number first v := by
  have hfront : ∀ c ∈ o.indent.text ++ (functionWord ++ (o.gap.text ++ (o.name.text ++ o.tail.text))),
      isNoBracket c = true := by
    have hmem (d : Char) (hname : isNameChar d = false) (hblank : isBlank d = false)
        (hword : d ∉ functionWord) :
        d ∉ o.indent.text ++ (functionWord ++ (o.gap.text ++ (o.name.text ++ o.tail.text))) := by
      simp [o.indent.not_mem hblank, o.gap.not_mem hblank, o.tail.not_mem hblank,
        o.name.not_mem hname, hword]
    intro c hc
    have hne (d : Char) (hname : isNameChar d = false) (hblank : isBlank d = false)
        (hword : d ∉ functionWord) : c ≠ d := fun e => hmem d hname hblank hword (e ▸ hc)
    simp [isNoBracket, hne '(' (by decide) (by decide) (by decide),
      hne ')' (by decide) (by decide) (by decide), hne '{' (by decide) (by decide) (by decide),
      hne '}' (by decide) (by decide) (by decide)]
  have htext : o.text ++ v =
      (o.indent.text ++ (functionWord ++ (o.gap.text ++ (o.name.text ++ o.tail.text)))) ++ '(' :: v := by
    simp [SignatureOpening.text]
  rw [htext, ListState.walk_append rfl hfront]
  rfl

/-- The closing parenthesis ends the walk. -/
theorem ListState.walk_closing (v : Line) :
    ListState.inList.walk isFunction number first (')' :: v) = .ends number := rfl

end

/-! ## The lines of a signature -/

section

variable {asked first number : Int} {line next : Line} {s s' : ListState} {rest : List Line}

theorem signatureEnd?_of_goesOn (harrow : hasArrow (stripComments next) = false)
    (hwalk : s.walkLine (stripComments next) number first = .goesOn s') :
    signatureEnd? asked first line number s (next :: rest) =
      signatureEnd? asked first line (number + 1) s' rest := by
  simp [signatureEnd?, arrowEnd?, harrow, hwalk]

theorem signatureEnd?_of_ends (harrow : hasArrow (stripComments next) = false) {stop : Int}
    (hwalk : s.walkLine (stripComments next) number first = .ends stop) :
    signatureEnd? asked first line number s (next :: rest) = some stop := by
  simp [signatureEnd?, arrowEnd?, harrow, hwalk]

theorem ParameterLine.stripComments_text (p : ParameterLine) (v : Line) :
    stripComments (p.text ++ v) = p.text ++ stripComments v :=
  stripComments_append (p.not_mem_text (by decide)) v

theorem SignatureOpening.stripComments_text (o : SignatureOpening) (v : Line) :
    stripComments (o.text ++ v) = o.text ++ stripComments v :=
  stripComments_append (o.not_mem_text (by decide) (by decide) (by decide)) v

theorem EqualsLeadToNumbers.closing {z : Line} (hz : '=' ∉ z) :
    EqualsLeadToNumbers (stripComments (')' :: z)) :=
  .of_not_mem fun hmem => by simpa [hz] using (stripComments_sublist _).subset hmem

/-- From inside the list the walk goes through the lines to the closing parenthesis. -/
theorem signatureEnd?_parameterLines (above : List ParameterLine) (last : ParameterLine) {z : Line}
    (hz : '=' ∉ z) :
    signatureEnd? asked first line number .inList
        (above.map ParameterLine.text ++ (last.text ++ ')' :: z) :: rest) =
      some (number + above.length) := by
  induction above generalizing number with
  | nil =>
    have hequals : EqualsLeadToNumbers (stripComments (last.text ++ ')' :: z)) :=
      last.stripComments_text _ ▸ .text last (.closing hz)
    have hwalk : ListState.inList.walkLine (stripComments (last.text ++ ')' :: z)) number first =
        .ends number := by
      rw [last.stripComments_text, ListState.walkLine, last.walk_text]
      exact ListState.walk_closing _
    simpa using signatureEnd?_of_ends hequals.hasArrow_eq_false hwalk
  | cons p above ih =>
    have hstrip : stripComments p.text = p.text :=
      stripComments_of_not_mem (p.not_mem_text (by decide))
    have hequals : EqualsLeadToNumbers (stripComments p.text) := by
      have hnil : EqualsLeadToNumbers [] := .of_not_mem (by simp)
      rw [hstrip, ← List.append_nil p.text]
      exact .text p hnil
    have hwalk : ListState.inList.walkLine (stripComments p.text) number first = .goesOn .inList := by
      rw [hstrip, ListState.walkLine]
      have happend := @ParameterLine.walk_text (occurs functionWord p.text) number first p []
      rwa [List.append_nil] at happend
    rw [List.map_cons, List.cons_append, signatureEnd?_of_goesOn hequals.hasArrow_eq_false hwalk, ih]
    simp only [List.length_cons, Option.some.injEq]
    omega

/-- The list of a printed signature ends on the line of its closing parenthesis. -/
theorem parameterListEnd_signature (o : SignatureOpening) {above : List ParameterLine}
    (habove : above.length ≤ signatureLimit) (last : ParameterLine) {z : Line} (hz : '=' ∉ z)
    (below : List Line) :
    parameterListEnd asked 1 ((above.map ParameterLine.text ++ (last.text ++ ')' :: z) :: below).modifyHead
      (o.text ++ ·)) line = above.length + 1 := by
  have hend : signatureEnd? asked 1 line 1 {} (signatureLines 1
      ((above.map ParameterLine.text ++ (last.text ++ ')' :: z) :: below).modifyHead (o.text ++ ·))) =
        some (above.length + 1 : Int) := by
    cases above with
    | nil =>
      have hequals : EqualsLeadToNumbers (stripComments (o.text ++ (last.text ++ ')' :: z))) := by
        rw [o.stripComments_text, last.stripComments_text]
        exact .openingText o (.text last (.closing hz))
      have hwalk : ListState.walkLine {} (stripComments (o.text ++ (last.text ++ ')' :: z))) 1 1 =
          .ends 1 := by
        rw [o.stripComments_text, last.stripComments_text, ListState.walkLine, o.walk_text,
          last.walk_text]
        exact ListState.walk_closing _
      have hlines : signatureLines 1 ((([] : List ParameterLine).map ParameterLine.text ++
          (last.text ++ ')' :: z) :: below).modifyHead (o.text ++ ·)) =
          (o.text ++ (last.text ++ ')' :: z)) :: below.take 20 := by
        simp [signatureLines, signatureLimit]
      rw [hlines, signatureEnd?_of_ends hequals.hasArrow_eq_false hwalk]
      rfl
    | cons p above =>
      have hlines : signatureLines 1 (((p :: above).map ParameterLine.text ++
          (last.text ++ ')' :: z) :: below).modifyHead (o.text ++ ·)) =
          (o.text ++ p.text) :: (above.map ParameterLine.text ++ (last.text ++ ')' :: z) ::
            below.take (19 - above.length)) := by
        have hlimit : above.length < 20 := by
          simp only [signatureLimit, List.length_cons] at habove
          omega
        have hroom : 20 - above.length = 19 - above.length + 1 := by omega
        simp [signatureLines, signatureLimit, List.take_append, hroom, hlimit.le]
      have hstrip : stripComments (o.text ++ p.text) = o.text ++ p.text := by
        rw [o.stripComments_text, stripComments_of_not_mem (p.not_mem_text (by decide))]
      have hequals : EqualsLeadToNumbers (stripComments (o.text ++ p.text)) := by
        have hnil : EqualsLeadToNumbers [] := .of_not_mem (by simp)
        rw [hstrip, ← List.append_nil p.text]
        exact .openingText o (.text p hnil)
      have hwalk : ListState.walkLine {} (stripComments (o.text ++ p.text)) 1 1 = .goesOn .inList := by
        rw [hstrip, ListState.walkLine, o.walk_text]
        have happend := @ParameterLine.walk_text (occurs functionWord (o.text ++ p.text)) 1 1 p []
        rwa [List.append_nil] at happend
      rw [hlines, signatureEnd?_of_goesOn hequals.hasArrow_eq_false hwalk,
        signatureEnd?_parameterLines above last hz]
      simp only [List.length_cons, Option.some.injEq]
      omega
  rw [parameterListEnd]
  simp [hend]

end

end BranchTally
