-- SUMMARY: The walk over quotes comes to the coherent states and to no others, and what stands behind a text does not change its mask.
import BranchTally.Proofs.Literal.Walk

/-!
# The states of the walk

The walk begins with nothing open. The states that it can come to are known exactly: at most one sort of
quote is open, expressions are open in template literals only, and braces are counted in expressions only.

A step looks one character ahead, and takes this one along where a `${` opens an expression. Both characters
are marked by the state in front of them, so a text has its own mask whatever follows. Only a `$` at its end
can leave another state than the walk comes to when the text goes on.
-/

namespace BranchTally

namespace QuoteState

variable {s t : QuoteState} {c : Char} {text front rest : Line}

/-! ## States on the way -/

/-- The states that the walk over a text comes to, the one it starts from among them. -/
def states (s : QuoteState) (text : Line) : List QuoteState :=
  s :: (s.walk text).map QuoteStep.state

theorem states_cons (h : (s.advance c rest.head?).width = 1) :
    s.states (c :: rest) = s :: (s.advance c rest.head?).state.states rest := by
  rw [states, walk_cons h, List.map_cons, states]

theorem states_pair (h : s.advance '$' (some '{') = ⟨s.openExpression, 2⟩) :
    s.states ('$' :: '{' :: rest) = s :: s.openExpression.states rest := by
  rw [states, walk_pair h, List.map_cons, states]

/-- What holds of the state in front of the text and is kept by each step holds all the way. -/
theorem Coherent.of_mem_states (hs : s.Coherent) (ht : t ∈ s.states text) : t.Coherent := by
  induction s, text using walk_induction with
  | nil s =>
    obtain rfl := List.mem_singleton.1 ht
    exact hs
  | one s c rest hwidth ih =>
    rw [states_cons hwidth] at ht
    rcases List.mem_cons.1 ht with rfl | ht
    · exact hs
    · exact ih (hs.advance c rest.head?) ht
  | pair s rest _ _ hstep ih =>
    have hnext := hs.advance '$' (some '{')
    rw [hstep] at hnext
    rw [states_pair hstep] at ht
    rcases List.mem_cons.1 ht with rfl | ht
    · exact hs
    · exact ih hnext ht

/-- The walk takes every character once and none beyond the end. -/
theorem sum_width_walk (s : QuoteState) (text : Line) :
    ((s.walk text).map QuoteStep.width).sum = text.length := by
  induction s, text using walk_induction with
  | nil s => rfl
  | one s c rest hwidth ih =>
    rw [walk_cons hwidth, List.map_cons, List.sum_cons, hwidth, ih, List.length_cons, Nat.add_comm]
  | pair s rest _ _ hstep ih =>
    rw [walk_pair hstep, List.map_cons, List.sum_cons, ih, List.length_cons, List.length_cons]
    exact Nat.add_comm 2 rest.length

/-- The state behind a text is the last one on the way. -/
theorem getLast?_states (s : QuoteState) (text : Line) :
    (s.states text).getLast? = some (s.behind text) := by
  induction s, text using walk_induction with
  | nil s => rfl
  | one s c rest hwidth ih =>
    rw [states_cons hwidth, List.getLast?_cons, ih, Option.getD_some, behind_cons hwidth]
  | pair s rest _ _ hstep ih =>
    rw [states_pair hstep, List.getLast?_cons, ih, Option.getD_some, behind_pair hstep]

/-! ## Texts that open what is open -/

theorem behind_append (h : rest.head? ≠ some '{' ∨ (s.behind front).inTemplate = false) :
    s.behind (front ++ rest) = (s.behind front).behind rest := by
  have hwhole := getLast?_states s (front ++ rest)
  have hrest := getLast?_states (s.behind front) rest
  rw [states, walk_append h, List.map_append, ← List.cons_append, List.getLast?_append, ← states,
    getLast?_states, Option.or_some] at hwhole
  rw [states, List.getLast?_cons] at hrest
  exact Option.some.inj (hwhole.symm.trans hrest)

/-- The state in a template expression in which some braces are open. -/
def inBraces (braces : Int) : QuoteState := { inTemplate := true, inExpression := true, braces := braces }

theorem behind_inBraces (braces : Int) (n : Nat) :
    (inBraces braces).behind (List.replicate n '{') = inBraces (braces + n) := by
  induction n generalizing braces with
  | zero => simp [behind_nil]
  | succ n ih =>
    have hstep (next : Option Char) : (inBraces braces).advance '{' next = ⟨inBraces (braces + 1), 1⟩ := rfl
    rw [List.replicate_succ, behind_cons (by rw [hstep]), hstep, ih, Nat.cast_succ, Int.add_assoc,
      Int.add_comm 1]

/-- An expression counts its own brace. -/
theorem behind_expression {braces : Int} (h : 1 ≤ braces) :
    behind {} ('\x60' :: '$' :: List.replicate braces.toNat '{') = inBraces braces := by
  obtain ⟨n, rfl⟩ := Int.le.dest h
  have hdollar : advance { inTemplate := true } '$' (some '{') = ⟨inBraces 1, 2⟩ := rfl
  rw [show (1 + (n : Int)).toNat = n + 1 by omega, List.replicate_succ, behind_cons rfl]
  exact (behind_pair hdollar).trans (behind_inBraces 1 n)

/-- Whatever is open in a coherent state, some text opens it. -/
theorem Coherent.exists_behind (h : s.Coherent) (hescaped : s.escaped = false) :
    ∃ text, behind {} text = s := by
  obtain ⟨inSingle, inDouble, inTemplate, inExpression, braces, escaped⟩ := s
  obtain ⟨hsingle, hdouble, hexpression, houtside⟩ := h
  dsimp only at hsingle hdouble hexpression houtside hescaped
  subst hescaped
  cases inExpression with
  | true =>
    obtain ⟨rfl, hbraces⟩ := hexpression rfl
    obtain rfl : inDouble = false := by simpa using hdouble
    obtain rfl : inSingle = false := by simpa using hsingle
    exact ⟨_, behind_expression hbraces⟩
  | false =>
    obtain rfl := houtside rfl
    cases inSingle with
    | true =>
      obtain ⟨rfl, rfl⟩ := hsingle rfl
      exact ⟨['\''], rfl⟩
    | false =>
      cases inDouble with
      | true =>
        obtain rfl := hdouble rfl
        exact ⟨['"'], rfl⟩
      | false =>
        cases inTemplate with
        | true => exact ⟨['\x60'], rfl⟩
        | false => exact ⟨[], rfl⟩

theorem behind_backslash (h : s.escaped = false) : s.behind ['\\'] = { s with escaped := true } := by
  have hstep : s.advance '\\' none = ⟨{ s with escaped := true }, 1⟩ := by simp [advance, h]
  rw [behind_cons (congrArg QuoteStep.width hstep), List.head?_nil, hstep, behind_nil]

theorem exists_mem_states_iff : (∃ text, s ∈ states {} text) ↔ s.Coherent := by
  constructor
  · rintro ⟨text, hs⟩
    exact coherent_default.of_mem_states hs
  · intro hs
    suffices h : ∃ text, behind {} text = s by
      obtain ⟨text, rfl⟩ := h
      exact ⟨text, List.mem_of_getLast? (getLast?_states {} text)⟩
    cases hescaped : s.escaped with
    | false => exact hs.exists_behind hescaped
    | true =>
      -- an escape is opened last, whatever else is open
      have hplain : Coherent { s with escaped := false } :=
        ⟨hs.single, hs.double, hs.expression, hs.outside⟩
      obtain ⟨text, htext⟩ := hplain.exists_behind rfl
      refine ⟨text ++ ['\\'], ?_⟩
      rw [behind_append (Or.inl (by simp)), htext, behind_backslash rfl]
      exact congrArg (fun escaped => { s with escaped := escaped }) hescaped.symm

/-- At most one sort of quote, said of all three at once. -/
theorem coherent_iff : s.Coherent ↔
    [s.inSingle, s.inDouble, s.inTemplate].count true ≤ 1 ∧
      (s.inExpression = true → s.inTemplate = true) ∧
      (1 ≤ s.braces ↔ s.inExpression = true) ∧ (s.inExpression = false → s.braces = 0) := by
  have hquotes : ([s.inSingle, s.inDouble, s.inTemplate].count true ≤ 1) ↔
      (s.inSingle = true → s.inDouble = false ∧ s.inTemplate = false) ∧
        (s.inDouble = true → s.inTemplate = false) := by
    cases s.inSingle <;> cases s.inDouble <;> cases s.inTemplate <;> decide
  rw [hquotes]
  constructor
  · intro h
    refine ⟨⟨h.single, h.double⟩, fun hx => (h.expression hx).1,
      ⟨fun hbraces => ?_, fun hx => (h.expression hx).2⟩, h.outside⟩
    by_contra hx
    have := h.outside (Bool.eq_false_of_not_eq_true hx)
    omega
  · rintro ⟨⟨hsingle, hdouble⟩, htemplate, hbraces, houtside⟩
    exact ⟨hsingle, hdouble, fun hx => ⟨htemplate hx, hbraces.2 hx⟩, houtside⟩

/-! ## Cut texts -/

/-- What follows a text does not change its mask. A `$` at the end of the text has the mark of the state in
front of it, whether or not the walk takes a brace along with it. -/
theorem take_mask_append (s : QuoteState) (front rest : Line) :
    (s.mask (front ++ rest)).take front.length = s.mask front := by
  induction s, front using walk_induction with
  | nil s => rfl
  | one s c front hwidth ih =>
    cases front with
    | nil =>
      rw [mask_cons hwidth, List.length_singleton, List.take_one, List.singleton_append,
        head?_mask (List.cons_ne_nil c rest)]
      rfl
    | cons d front =>
      have hstep : s.advance c (d :: front ++ rest).head? = s.advance c (d :: front).head? := rfl
      rw [List.cons_append, mask_cons (hstep ▸ hwidth), List.length_cons, List.take_succ_cons, hstep, ih,
        mask_cons hwidth]
  | pair s front _ _ hstep ih =>
    rw [List.cons_append, List.cons_append, mask_pair hstep, mask_pair hstep, List.length_cons,
      List.length_cons, List.take_succ_cons, List.take_succ_cons, ih]

/-- A text that leaves no template literal open divides the walk. -/
theorem mask_append_of_not_inTemplate (h : (s.behind front).inTemplate = false) (rest : Line) :
    s.mask (front ++ rest) = s.mask front ++ (s.behind front).mask rest := by
  rw [mask, walk_append (Or.inr h), marks_walk_append, mask, mask]

end QuoteState

/-! ## Texts from their beginning -/

/-- The walk over quotes comes to just those states in which at most one sort of quote is open, an expression
is open only in a template literal, and braces are counted, from one, just where an expression is open. Its
steps take the whole text and nothing beyond. -/
theorem reached_states_coherent :
    (∀ s : QuoteState, (∃ text, s ∈ QuoteState.states {} text) ↔
      [s.inSingle, s.inDouble, s.inTemplate].count true ≤ 1 ∧
        (s.inExpression = true → s.inTemplate = true) ∧
        (1 ≤ s.braces ↔ s.inExpression = true) ∧ (s.inExpression = false → s.braces = 0)) ∧
      ∀ text : Line, ((QuoteState.walk {} text).map QuoteStep.width).sum = text.length :=
  ⟨fun _ => QuoteState.exists_mem_states_iff.trans QuoteState.coherent_iff,
    QuoteState.sum_width_walk {}⟩

/-- A text has the same mask whatever follows it, also where the two are cut inside a `${`. Where nothing is
open behind the text, what follows has its own mask too. -/
theorem literalMask_append (front rest : Line) :
    (literalMask (front ++ rest)).take front.length = literalMask front ∧
      (QuoteState.behind {} front = {} →
        literalMask (front ++ rest) = literalMask front ++ literalMask rest) := by
  refine ⟨QuoteState.take_mask_append {} front rest, fun h => ?_⟩
  have hcut : (QuoteState.behind {} front).inTemplate = false := by rw [h]
  rw [literalMask, QuoteState.mask_append_of_not_inTemplate hcut, h, literalMask, literalMask]

/-- A template literal with an expression, closed or cut inside its `${`. -/
theorem literalMask_append_template :
    let closed := "f(`${a}`)".toList
    let opened := "f(`$".toList
    QuoteState.behind {} closed = {} ∧
      literalMask (closed ++ " && 'b'".toList) = literalMask closed ++ literalMask " && 'b'".toList ∧
      QuoteState.behind {} opened ≠ {} ∧
      (literalMask (opened ++ "{a}`)".toList)).take opened.length = literalMask opened ∧
      literalMask (opened ++ "{a}`)".toList) ≠ literalMask opened ++ literalMask "{a}`)".toList := by
  intro closed opened
  have hclosed : QuoteState.behind {} closed = {} := by decide
  exact ⟨hclosed, (literalMask_append closed _).2 hclosed, by decide, (literalMask_append opened _).1,
    by decide⟩

end BranchTally
