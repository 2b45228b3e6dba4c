-- SUMMARY: The walk over quotes step by step: what can be open at one time, what a text leaves open, and where the two readings of the walk differ.
import Mathlib
import BranchTally.Proofs.Literal

/-!
# The walk over quotes

A step takes one character, or the two of a `${` that opens a template expression. Proofs about the walk
go by these two cases. The mask and the query for a single position read the same walk; they differ in
the brace of such a `${` only, which the mask marks by the state in front of the step.
-/

namespace BranchTally

namespace QuoteState

/-! ## Steps -/

/-- The state in which a `${` leaves a template literal. -/
def openExpression (s : QuoteState) : QuoteState := { s with inExpression := true, braces := 1 }

/-- What a step can do: begin or end an escape, or nothing at all; count a brace of an expression, or
leave the expression with it; open an expression; open or close a quote while no other one is open. -/
inductive Advances (s : QuoteState) (c : Char) (next : Option Char) : QuoteStep → Prop where
  | escape (escaped : Bool) : Advances s c next ⟨{ s with escaped := escaped }, 1⟩
  | brace (braces : Int) (hexpression : s.inExpression = true)
      (hbraces : s.braces < braces ∨ 0 < braces) : Advances s c next ⟨{ s with braces := braces }, 1⟩
  | leave : Advances s c next ⟨{ s with inExpression := false, braces := 0 }, 1⟩
  | enter (hdollar : c = '$') (hbrace : next = some '{') (htemplate : s.inTemplate = true)
      (hexpression : s.inExpression = false) : Advances s c next ⟨s.openExpression, 2⟩
  | single (hexpression : s.inExpression = false) (hdouble : s.inDouble = false)
      (htemplate : s.inTemplate = false) : Advances s c next ⟨{ s with inSingle := !s.inSingle }, 1⟩
  | double (hexpression : s.inExpression = false) (hsingle : s.inSingle = false)
      (htemplate : s.inTemplate = false) : Advances s c next ⟨{ s with inDouble := !s.inDouble }, 1⟩
  | closeTemplate :
      Advances s c next ⟨{ s with inTemplate := false, inExpression := false, braces := 0 }, 1⟩
  | openTemplate (hexpression : s.inExpression = false) (hsingle : s.inSingle = false)
      (hdouble : s.inDouble = false) : Advances s c next ⟨{ s with inTemplate := true }, 1⟩

theorem advances_advance (s : QuoteState) (c : Char) (next : Option Char) :
    s.Advances c next (s.advance c next) := by
  unfold advance
  split
  · exact .escape false
  split
  · exact .escape true
  split
  · next hexpression =>
    split
    · exact .brace _ hexpression (Or.inl (Int.lt_succ _))
    split
    · split
      · exact .leave
      · exact .brace _ hexpression (Or.inr (by omega))
    · exact .escape s.escaped
  rename ¬ s.inExpression = true => hexpression
  rw [Bool.not_eq_true] at hexpression
  split
  · next h =>
    rw [Bool.and_eq_true, Bool.and_eq_true, decide_eq_true_eq, decide_eq_true_eq] at h
    exact .enter h.1.2 h.2 h.1.1 hexpression
  split
  · next h =>
    rw [Bool.and_eq_true, Bool.not_eq_true', Bool.or_eq_false_iff] at h
    exact .single hexpression h.2.1 h.2.2
  split
  · next h =>
    rw [Bool.and_eq_true, Bool.not_eq_true', Bool.or_eq_false_iff] at h
    exact .double hexpression h.2.1 h.2.2
  split
  · next h =>
    rw [Bool.and_eq_true, Bool.not_eq_true', Bool.or_eq_false_iff] at h
    split
    · exact .closeTemplate
    · exact .openTemplate hexpression h.2.1 h.2.2
  · exact .escape s.escaped

theorem Advances.width {s : QuoteState} {c : Char} {next : Option Char} {step : QuoteStep}
    (h : s.Advances c next step) :
    step.width = 1 ∨ (c = '$' ∧ next = some '{' ∧ s.inTemplate = true ∧ s.inExpression = false ∧
      step = ⟨s.openExpression, 2⟩) := by
  cases h with
  | enter hdollar hbrace htemplate hexpression =>
    exact Or.inr ⟨hdollar, hbrace, htemplate, hexpression, rfl⟩
  | _ => exact Or.inl rfl

theorem width_advance (s : QuoteState) (c : Char) {next : Option Char} (h : next ≠ some '{') :
    (s.advance c next).width = 1 :=
  (s.advances_advance c next).width.resolve_right fun hpair => h hpair.2.1

theorem width_advance_eq (s : QuoteState) (c : Char) (next : Option Char) :
    (s.advance c next).width = 1 ∨ (s.advance c next).width = 2 :=
  (s.advances_advance c next).width.imp_right fun hpair => congrArg QuoteStep.width hpair.2.2.2.2

/-- A step that takes two characters opens a template expression. -/
theorem advance_of_width_eq_two {s : QuoteState} {c : Char} {next : Option Char}
    (h : (s.advance c next).width = 2) :
    c = '$' ∧ next = some '{' ∧ s.inTemplate = true ∧ s.inExpression = false ∧
      s.advance c next = ⟨s.openExpression, 2⟩ :=
  (s.advances_advance c next).width.resolve_left (by omega)

/-- The character behind it matters to a step at the `$` of a `${` in a template literal only. At the end of
a text such a `$` is passed over. -/
theorem advance_eq_none_or_pair (s : QuoteState) (c : Char) (next : Option Char) :
    s.advance c next = s.advance c none ∨
      (c = '$' ∧ s.advance '$' (some '{') = ⟨s.openExpression, 2⟩ ∧ s.advance '$' none = ⟨s, 1⟩ ∧
        s.inTemplate = true ∧ next = some '{') := by
  cases hescaped : s.escaped with
  | true => simp only [advance, hescaped, if_true, true_or]
  | false =>
    cases hexpression : s.inExpression with
    | true => simp only [advance, hescaped, hexpression, if_true, true_or]
    | false =>
      have hend : (s.inTemplate && c = '$' && (none : Option Char) = some '{') = false := by simp
      by_cases hpair : (s.inTemplate && c = '$' && next = some '{') = true
      · simp only [Bool.and_eq_true, decide_eq_true_eq] at hpair
        obtain ⟨⟨htemplate, rfl⟩, rfl⟩ := hpair
        refine Or.inr ⟨rfl, ?_, ?_, htemplate, rfl⟩ <;>
          simp [advance, openExpression, hescaped, hexpression, htemplate]
      · refine Or.inl ?_
        simp only [advance, hescaped, hexpression, hpair, hend]

section

variable {s : QuoteState} {c : Char} {rest : Line}

theorem walk_cons (h : (s.advance c rest.head?).width = 1) :
    s.walk (c :: rest) = s.advance c rest.head? :: (s.advance c rest.head?).state.walk rest := by
  cases rest with
  | nil => rfl
  | cons d rest =>
    have h' : (s.advance c (some d)).width = 1 := h
    simp [walk, h']

theorem walk_pair (h : s.advance '$' (some '{') = ⟨s.openExpression, 2⟩) :
    s.walk ('$' :: '{' :: rest) = ⟨s.openExpression, 2⟩ :: s.openExpression.walk rest := by
  simp [walk, h]

/-- A step that takes two characters marks both by the state it starts from. -/
theorem mask_pair (h : s.advance '$' (some '{') = ⟨s.openExpression, 2⟩) :
    s.mask ('$' :: '{' :: rest) = s.inLiteral :: s.inLiteral :: s.openExpression.mask rest := by
  simp [mask, walk_pair h, marks, List.replicate]

end

/-- What holds at the end of a text, and over a step where it holds behind the step, holds of the walk
over every text. -/
@[elab_as_elim]
theorem walk_induction {motive : QuoteState → Line → Prop} (nil : ∀ s, motive s [])
    (one : ∀ s c rest, (s.advance c rest.head?).width = 1 →
      motive (s.advance c rest.head?).state rest → motive s (c :: rest))
    (pair : ∀ (s : QuoteState) rest, s.inTemplate = true → s.inExpression = false →
      s.advance '$' (some '{') = ⟨s.openExpression, 2⟩ → motive s.openExpression rest →
      motive s ('$' :: '{' :: rest)) :
    ∀ (s : QuoteState) (line : Line), motive s line
  | s, [] => nil s
  | s, [c] => one s c [] (s.width_advance c (by simp)) (nil _)
  | s, c :: d :: rest => by
    rcases s.width_advance_eq c (some d) with h | h
    · exact one s c (d :: rest) h (walk_induction nil one pair _ (d :: rest))
    · obtain ⟨rfl, hnext, htemplate, hexpression, hstep⟩ := advance_of_width_eq_two h
      obtain rfl := Option.some.inj hnext
      exact pair s rest htemplate hexpression hstep (walk_induction nil one pair _ rest)

theorem length_mask (s : QuoteState) (line : Line) : (s.mask line).length = line.length := by
  induction s, line using walk_induction with
  | nil s => rfl
  | one s c rest hwidth ih => rw [mask_cons hwidth, List.length_cons, ih, List.length_cons]
  | pair s rest _ _ hstep ih =>
    rw [mask_pair hstep, List.length_cons, List.length_cons, ih]
    rfl

theorem head?_mask {s : QuoteState} {line : Line} (h : line ≠ []) :
    (s.mask line).head? = some s.inLiteral := by
  induction s, line using walk_induction with
  | nil s => exact absurd rfl h
  | one s c rest hwidth _ =>
    rw [mask_cons hwidth]
    rfl
  | pair s rest _ _ hstep _ =>
    rw [mask_pair hstep]
    rfl

end QuoteState

/-! ## Characters that the walk passes over -/

/-- A character that opens and closes nothing, inside a literal or outside. -/
def isUnquoting (c : Char) : Bool := !isQuoting c && c ≠ '{' && c ≠ '}'

namespace QuoteState

theorem advance_unquoting {c : Char} (hc : isUnquoting c = true) (s : QuoteState) {next : Option Char}
    (h : next ≠ some '{') : s.advance c next = ⟨{ s with escaped := false }, 1⟩ := by
  simp only [isUnquoting, isQuoting, Bool.and_eq_true, Bool.not_eq_true', Bool.or_eq_false_iff,
    decide_eq_false_iff_not, decide_eq_true_eq] at hc
  obtain ⟨⟨⟨⟨⟨hslash, hsingle⟩, hdouble⟩, htemplate⟩, hopen⟩, hclose⟩ := hc
  cases hescaped : s.escaped with
  | true => simp [advance, hescaped]
  | false =>
    have hself : { s with escaped := false } = s := by rw [← hescaped]
    simp [advance, hescaped, hslash, hsingle, hdouble, htemplate, hopen, hclose, h, hself]

/-! ## What can be open -/

/-- At most one sort of quote is open, expressions are open in template literals only, and braces are
counted in expressions only. -/
structure Coherent (s : QuoteState) : Prop where
  single : s.inSingle = true → s.inDouble = false ∧ s.inTemplate = false
  double : s.inDouble = true → s.inTemplate = false
  expression : s.inExpression = true → s.inTemplate = true ∧ 1 ≤ s.braces
  outside : s.inExpression = false → s.braces = 0

theorem coherent_default : Coherent {} := by
  constructor <;> simp

theorem Coherent.of_advances {s : QuoteState} (h : s.Coherent) {c : Char} {next : Option Char}
    {step : QuoteStep} (hstep : s.Advances c next step) : step.state.Coherent := by
  cases hstep with
  | escape escaped => exact ⟨h.single, h.double, h.expression, h.outside⟩
  | brace braces hexpression hbraces =>
    obtain ⟨htemplate, hlarge⟩ := h.expression hexpression
    refine ⟨h.single, h.double, fun _ => ⟨htemplate, ?_⟩, fun hcode => ?_⟩
    · dsimp only
      omega
    · exact absurd (hcode.symm.trans hexpression) Bool.false_ne_true
  | leave => exact ⟨h.single, h.double, fun hexpression => by simp at hexpression, fun _ => rfl⟩
  | enter hdollar hbrace htemplate hexpression =>
    exact ⟨h.single, h.double, fun _ => ⟨htemplate, Int.le_refl 1⟩, fun hcode => by
      simp [openExpression] at hcode⟩
  | single hexpression hdouble htemplate =>
    exact ⟨fun _ => ⟨hdouble, htemplate⟩, h.double, h.expression, h.outside⟩
  | double hexpression hsingle htemplate =>
    refine ⟨fun hopen => ?_, fun _ => htemplate, h.expression, h.outside⟩
    exact absurd (hsingle.symm.trans hopen) Bool.false_ne_true
  | closeTemplate =>
    exact ⟨fun hsingle => ⟨(h.single hsingle).1, rfl⟩, fun _ => rfl, fun hopen => by simp at hopen,
      fun _ => rfl⟩
  | openTemplate hexpression hsingle hdouble =>
    refine ⟨fun hopen => ?_, fun hopen => ?_, fun hopen => ?_, h.outside⟩
    · exact absurd (hsingle.symm.trans hopen) Bool.false_ne_true
    · exact absurd (hdouble.symm.trans hopen) Bool.false_ne_true
    · exact absurd (hexpression.symm.trans hopen) Bool.false_ne_true

theorem Coherent.advance {s : QuoteState} (h : s.Coherent) (c : Char) (next : Option Char) :
    (s.advance c next).state.Coherent := h.of_advances (s.advances_advance c next)

/-- In front of a `${` a template literal is open, behind it code. -/
theorem Coherent.inLiteral_of_expression {s : QuoteState} (h : s.Coherent)
    (htemplate : s.inTemplate = true) (hexpression : s.inExpression = false) :
    s.inLiteral = true ∧ s.openExpression.inLiteral = false := by
  have hsingle : s.inSingle = false := by
    cases hs : s.inSingle
    · rfl
    · simp [(h.single hs).2] at htemplate
  have hdouble : s.inDouble = false := by
    cases hd : s.inDouble
    · rfl
    · simp [h.double hd] at htemplate
  simp [inLiteral, openExpression, hsingle, hdouble, htemplate, hexpression]

/-! ## What a text leaves open -/

/-- The state behind a whole text. -/
def behind (s : QuoteState) (text : Line) : QuoteState := s.after (s.walk text) text.length

theorem after_zero (s : QuoteState) (steps : List QuoteStep) : s.after steps 0 = s := by
  cases steps <;> rfl

theorem behind_nil (s : QuoteState) : s.behind [] = s := rfl

theorem behind_cons {s : QuoteState} {c : Char} {rest : Line}
    (h : (s.advance c rest.head?).width = 1) :
    s.behind (c :: rest) = (s.advance c rest.head?).state.behind rest := by
  simp [behind, walk_cons h, after, h]

theorem behind_pair {s : QuoteState} {rest : Line}
    (h : s.advance '$' (some '{') = ⟨s.openExpression, 2⟩) :
    s.behind ('$' :: '{' :: rest) = s.openExpression.behind rest := by
  simp [behind, walk_pair h, after]

/-- The character behind a text changes no step over it, unless the two could be a `${` of a template
literal. -/
theorem advance_head?_append {s : QuoteState} {c : Char} {front rest : Line}
    (h : rest.head? ≠ some '{' ∨ (s.behind (c :: front)).inTemplate = false) :
    s.advance c (front ++ rest).head? = s.advance c front.head? := by
  cases front with
  | cons d front => rfl
  | nil =>
    rcases s.advance_eq_none_or_pair c rest.head? with hstep | ⟨rfl, -, hdollar, htemplate, hbrace⟩
    · exact hstep
    · rcases h with h | h
      · exact absurd hbrace h
      · have hbehind : s.behind ['$'] = s := by
          rw [behind_cons (congrArg QuoteStep.width hdollar), List.head?_nil, hdollar, behind_nil]
        rw [hbehind, htemplate] at h
        cases h

/-- The walk over two texts is the walk over the one and then, from the state that it leaves, over the other. -/
theorem walk_append {s : QuoteState} {front rest : Line}
    (h : rest.head? ≠ some '{' ∨ (s.behind front).inTemplate = false) :
    s.walk (front ++ rest) = s.walk front ++ (s.behind front).walk rest := by
  induction s, front using walk_induction with
  | nil s => rfl
  | one s c front hwidth ih =>
    have hstep := advance_head?_append h
    rw [behind_cons hwidth] at h ⊢
    rw [List.cons_append, walk_cons (hstep ▸ hwidth), hstep, ih h, walk_cons hwidth, List.cons_append]
  | pair s front _ _ hstep ih =>
    rw [behind_pair hstep] at h ⊢
    rw [List.cons_append, List.cons_append, walk_pair hstep, ih h, walk_pair hstep, List.cons_append]

theorem marks_walk_append (s : QuoteState) (front : Line) (steps : List QuoteStep) :
    s.marks (s.walk front ++ steps) = s.mask front ++ (s.behind front).marks steps := by
  induction s, front using walk_induction with
  | nil s => rfl
  | one s c front hwidth ih =>
    rw [walk_cons hwidth, List.cons_append, marks, ih, hwidth, mask_cons hwidth, behind_cons hwidth]
    rfl
  | pair s front _ _ hstep ih =>
    rw [walk_pair hstep, List.cons_append, marks, ih, mask_pair hstep, behind_pair hstep]
    rfl

/-- A text is masked from the state that the text in front of it leaves, unless it could end a `${`. -/
theorem mask_append {rest : Line} (hrest : rest.head? ≠ some '{') (s : QuoteState) (front : Line) :
    s.mask (front ++ rest) = s.mask front ++ (s.behind front).mask rest := by
  rw [mask, walk_append (Or.inl hrest), marks_walk_append, mask, mask]

/-- A character that opens and closes nothing leaves its mark to the next one. -/
theorem getElem?_mask_succ {s : QuoteState} {line : Line} {i : Nat} {c d : Char}
    (hc : isUnquoting c = true) (hd : d ≠ '{') (hhere : (line)[i]? = some c)
    (hnext : (line)[i + 1]? = some d) : (s.mask line)[i + 1]? = (s.mask line)[i]? := by
  obtain ⟨hlt, hget⟩ := List.getElem?_eq_some_iff.1 hhere
  obtain ⟨hlt', hget'⟩ := List.getElem?_eq_some_iff.1 hnext
  have hbrace : c ≠ '{' := by
    rintro rfl
    revert hc
    decide
  have hdrop : line.drop i = c :: d :: line.drop (i + 2) := by
    rw [List.drop_eq_getElem_cons hlt, List.drop_eq_getElem_cons hlt', hget, hget']
  have hlength : (s.mask (line.take i)).length = i := by
    rw [length_mask, List.length_take_of_le (Nat.le_of_lt hlt)]
  have hstep := advance_unquoting hc (s.behind (line.take i)) (by simpa using hd : some d ≠ some '{')
  have hmask : s.mask line = s.mask (line.take i) ++ (s.behind (line.take i)).inLiteral ::
      ({ s.behind (line.take i) with escaped := false } : QuoteState).mask (d :: line.drop (i + 2)) := by
    conv => lhs; rw [← List.take_append_drop i line, hdrop]
    rw [mask_append (by simpa using hbrace), mask_cons (congrArg QuoteStep.width hstep)]
    rw [show (d :: line.drop (i + 2)).head? = some d from rfl, hstep]
  rw [hmask, List.getElem?_append_right (by omega), List.getElem?_append_right (by omega), hlength,
    Nat.sub_self, Nat.add_sub_cancel_left, List.getElem?_cons_succ, ← List.head?_eq_getElem?,
    head?_mask (List.cons_ne_nil _ _)]
  rfl

/-- What follows a character that opens no brace is masked from a state of its own. -/
theorem mask_append_cons {g : Char} (hg : g ≠ '{') (front : Line) (s : QuoteState) :
    ∃ t : QuoteState, ∀ rest, s.mask (front ++ g :: rest) = s.mask front ++ t.mask (g :: rest) :=
  ⟨s.behind front, fun _ => mask_append (by simpa using hg) s front⟩

/-! ## The two readings -/

/-- The walk takes the `${` whose brace stands at position `i` in one step, which opens a template
expression. -/
def OpensExpressionAt (s : QuoteState) (line : Line) (i : Nat) : Prop :=
  ∃ front step back, s.walk line = front ++ step :: back ∧
    i = (front.map QuoteStep.width).sum + 1 ∧ step.width = 2 ∧ step.state.inExpression = true ∧
      (line)[i - 1]? = some '$' ∧ (line)[i]? = some '{'

theorem not_opensExpressionAt_zero (s : QuoteState) (line : Line) : ¬ s.OpensExpressionAt line 0 := by
  rintro ⟨front, step, back, -, hi, -⟩
  omega

/-- Behind its first step the walk takes the same `${` as the rest of the text. -/
theorem opensExpressionAt_append {s t : QuoteState} {text rest : Line}
    (h : s.walk (text ++ rest) = ⟨t, text.length⟩ :: t.walk rest) (i : Nat) :
    s.OpensExpressionAt (text ++ rest) (text.length + i) ↔ t.OpensExpressionAt rest i := by
  have hchar (j : Nat) : (text ++ rest)[text.length + j]? = rest[j]? := by
    rw [List.getElem?_append_right (Nat.le_add_right _ _), Nat.add_sub_cancel_left]
  constructor
  · rintro ⟨front, step, back, hwalk, hi, hwidth, hexpression, hdollar, hbrace⟩
    rw [h] at hwalk
    cases front with
    | nil =>
      obtain ⟨rfl, -⟩ := List.cons.inj hwalk
      simp only [List.map_nil, List.sum_nil] at hi hwidth
      omega
    | cons first front =>
      obtain ⟨rfl, hbehind⟩ := List.cons.inj hwalk
      rw [List.map_cons, List.sum_cons, Nat.add_assoc, Nat.add_left_cancel_iff] at hi
      rw [show text.length + i - 1 = text.length + (i - 1) by omega, hchar] at hdollar
      rw [hchar] at hbrace
      exact ⟨front, step, back, hbehind, hi, hwidth, hexpression, hdollar, hbrace⟩
  · rintro ⟨front, step, back, hwalk, hi, hwidth, hexpression, hdollar, hbrace⟩
    refine ⟨⟨t, text.length⟩ :: front, step, back, ?_, ?_, hwidth, hexpression, ?_, ?_⟩
    · rw [h, hwalk, List.cons_append]
    · rw [hi, List.map_cons, List.sum_cons, Nat.add_assoc]
    · rw [show text.length + i - 1 = text.length + (i - 1) by omega, hchar, hdollar]
    · rw [hchar, hbrace]

/-- The two readings at position `i`: they differ at the brace of a `${` that opens an expression, which
the mask takes for content and the query for code. -/
def ReadAt (s : QuoteState) (line : Line) (i : Nat) : Prop :=
  (¬ s.OpensExpressionAt line i ∧ (s.mask line)[i]? = some (s.after (s.walk line) i).inLiteral) ∨
    (s.OpensExpressionAt line i ∧ (s.mask line)[i]? = some true ∧
      (s.after (s.walk line) i).inLiteral = false)

theorem readAt_append {s t : QuoteState} {text rest : Line} (hne : text ≠ [])
    (h : s.walk (text ++ rest) = ⟨t, text.length⟩ :: t.walk rest) (i : Nat) :
    s.ReadAt (text ++ rest) (text.length + i) ↔ t.ReadAt rest i := by
  have hlength : text.length + i ≠ 0 := by
    have := List.length_pos_of_ne_nil hne
    omega
  have hmask : (s.mask (text ++ rest))[text.length + i]? = (t.mask rest)[i]? := by
    rw [mask, h, marks, List.getElem?_append_right (by simp), List.length_replicate,
      Nat.add_sub_cancel_left]
    rfl
  have hafter : s.after (s.walk (text ++ rest)) (text.length + i) = t.after (t.walk rest) i := by
    rw [h, after, if_neg hlength, Nat.add_sub_cancel_left]
  rw [ReadAt, ReadAt, opensExpressionAt_append h, hmask, hafter]

theorem readAt_zero (s : QuoteState) (c : Char) (rest : Line) : s.ReadAt (c :: rest) 0 := by
  refine Or.inl ⟨s.not_opensExpressionAt_zero _, ?_⟩
  rw [after_zero, ← List.head?_eq_getElem?, head?_mask (List.cons_ne_nil c rest)]

theorem Coherent.readAt {s : QuoteState} {line : Line} (hs : s.Coherent) {i : Nat}
    (hi : i < line.length) : s.ReadAt line i := by
  induction s, line using walk_induction generalizing i with
  | nil s => simp at hi
  | one s c rest hwidth ih =>
    have hwalk : s.walk ([c] ++ rest) =
        ⟨(s.advance c rest.head?).state, [c].length⟩ :: (s.advance c rest.head?).state.walk rest := by
      rw [List.singleton_append, walk_cons hwidth, List.length_singleton, ← hwidth]
    rcases Nat.eq_zero_or_pos i with rfl | hpos
    · exact s.readAt_zero c rest
    · obtain ⟨j, rfl⟩ := Nat.exists_eq_add_of_le hpos
      refine (readAt_append (by simp) hwalk j).2 (ih (hs.advance c rest.head?) ?_)
      rw [List.length_cons] at hi
      omega
  | pair s rest htemplate hexpression hstep ih =>
    have hwalk : s.walk (['$', '{'] ++ rest) =
        ⟨s.openExpression, ['$', '{'].length⟩ :: s.openExpression.walk rest := walk_pair hstep
    have hnext := hs.advance '$' (some '{')
    rw [hstep] at hnext
    obtain rfl | rfl | hlarge : i = 0 ∨ i = 1 ∨ 2 ≤ i := by omega
    · exact s.readAt_zero '$' ('{' :: rest)
    · obtain ⟨hcontent, hcode⟩ := hs.inLiteral_of_expression htemplate hexpression
      refine Or.inr ⟨⟨[], _, _, hwalk, rfl, rfl, rfl, rfl, rfl⟩, ?_, ?_⟩
      · rw [mask_pair hstep]
        exact congrArg some hcontent
      · rw [walk_pair hstep, after, if_neg Nat.one_ne_zero]
        exact (congrArg inLiteral (after_zero _ _)).trans hcode
    · obtain ⟨j, rfl⟩ := Nat.exists_eq_add_of_le hlarge
      refine (readAt_append (by simp) hwalk j).2 (ih hnext ?_)
      rw [List.length_cons, List.length_cons] at hi
      omega

end QuoteState

theorem map_fst_maskedCells (line : Line) : (maskedCells line).map Prod.fst = line := by
  rw [maskedCells, List.map_fst_zip]
  rw [literalMask, QuoteState.length_mask]

theorem getElem?_maskedCells (line : Line) (i : Nat) :
    ((maskedCells line)[i]?).map Prod.fst = (line)[i]? := by
  rw [← List.getElem?_map, map_fst_maskedCells]

theorem length_maskedCells (line : Line) : (maskedCells line).length = line.length := by
  rw [← List.length_map Prod.fst, map_fst_maskedCells]

/-- The mask of a line and the query for a position agree but for the brace of a `${` that the walk takes
in one step to open a template expression: this is content for the mask and code for the query. -/
theorem getElem?_literalMask_eq_iff {line : Line} {i : Nat} (hi : i < line.length) :
    ((literalMask line)[i]? = some (isInsideLiteral line i) ↔
        ¬ QuoteState.OpensExpressionAt {} line i) ∧
      (QuoteState.OpensExpressionAt {} line i →
        (literalMask line)[i]? = some true ∧ isInsideLiteral line i = false) := by
  rw [literalMask, isInsideLiteral]
  rcases QuoteState.coherent_default.readAt hi with ⟨hopens, hagree⟩ | ⟨hopens, hmask, hinside⟩
  · exact ⟨iff_of_true hagree hopens, fun h => absurd h hopens⟩
  · refine ⟨iff_of_false ?_ (not_not_intro hopens), fun _ => ⟨hmask, hinside⟩⟩
    rw [hmask, hinside]
    simp

/-- In a template literal of which a piece is an expression. -/
theorem getElem?_literalMask_eq_iff_template :
    let line := "x = `a${b}`".toList
    7 < line.length ∧ QuoteState.OpensExpressionAt {} line 7 ∧
      (literalMask line)[7]? = some true ∧ isInsideLiteral line 7 = false := by
  intro line
  have hlength : 7 < line.length := by decide
  have hopens : QuoteState.OpensExpressionAt {} line 7 :=
    ⟨(QuoteState.walk {} line).take 6, ⟨{ inTemplate := true, inExpression := true, braces := 1 }, 2⟩,
      (QuoteState.walk {} line).drop 7, by decide, by decide, rfl, rfl, by decide, by decide⟩
  exact ⟨hlength, hopens, (getElem?_literalMask_eq_iff hlength).2 hopens⟩

end BranchTally
