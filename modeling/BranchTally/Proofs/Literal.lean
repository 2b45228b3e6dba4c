-- SUMMARY: The mask of a line piece by piece: code without quotes stays live, a quoted text is masked and leaves no trace behind it.
import Mathlib
import BranchTally.Line.Literal

/-!
# The mask of a line

The walk comes back to its first state at the end of every quoted text. So the mask of a line can be
read off one piece after the other, as long as no piece begins or ends inside quotes.
-/

namespace BranchTally

/-- A character that the walk outside quotes reacts to. -/
def isQuoting (c : Char) : Bool := c = '\\' || c = '\'' || c = '"' || c = '\x60'

/-- A character that opens a string. -/
def isQuote (c : Char) : Bool := c = '\'' || c = '"' || c = '\x60'

namespace QuoteState

/-- A step that takes one character marks it by the state it starts from. -/
theorem mask_cons {s : QuoteState} {c : Char} {rest : Line}
    (h : (s.advance c rest.head?).width = 1) :
    s.mask (c :: rest) = s.inLiteral :: (s.advance c rest.head?).state.mask rest := by
  cases rest with
  | nil =>
    have h' : (s.advance c none).width = 1 := h
    simp [mask, walk, marks, h']
  | cons d rest =>
    have h' : (s.advance c (some d)).width = 1 := h
    simp [mask, walk, marks, h']

theorem advance_plain {c : Char} (h : isQuoting c = false) (next : Option Char) :
    advance {} c next = ⟨{}, 1⟩ := by
  simp only [isQuoting, Bool.or_eq_false_iff, decide_eq_false_iff_not] at h
  simp [advance, h]

theorem mask_plain_cons {c : Char} (h : isQuoting c = false) (rest : Line) :
    mask {} (c :: rest) = false :: mask {} rest := by
  have hstep := advance_plain h rest.head?
  rw [mask_cons (by rw [hstep]), hstep]
  rfl

theorem mask_plain_append {text : Line} (h : ∀ c ∈ text, isQuoting c = false) (rest : Line) :
    mask {} (text ++ rest) = List.replicate text.length false ++ mask {} rest := by
  induction text with
  | nil => rfl
  | cons c text ih =>
    have hc := h c List.mem_cons_self
    have htext := ih fun d hd => h d (List.mem_cons_of_mem _ hd)
    rw [List.cons_append, mask_plain_cons hc, htext]
    rfl

/-- Without quotes nothing but an escape can be open. -/
theorem advance_unquoted {c : Char} (hc : isQuote c = false) (escaped : Bool) (next : Option Char) :
    advance { escaped := escaped } c next = ⟨{ escaped := !escaped && c = '\\' }, 1⟩ := by
  simp only [isQuote, Bool.or_eq_false_iff, decide_eq_false_iff_not] at hc
  cases escaped with
  | true => rfl
  | false => by_cases hback : c = '\\' <;> simp [advance, hback, hc]

theorem mask_unquoted {line : Line} (h : ∀ c ∈ line, isQuote c = false) (escaped : Bool) :
    mask { escaped := escaped } line = List.replicate line.length false := by
  induction line generalizing escaped with
  | nil => rfl
  | cons c line ih =>
    have hstep := advance_unquoted (h c List.mem_cons_self) escaped line.head?
    rw [mask_cons (by rw [hstep]), hstep, ih fun d hd => h d (List.mem_cons_of_mem c hd)]
    rfl

/-- Inside quotes everything is content up to the closing quote. -/
theorem mask_content {s : QuoteState} {content : Line} {q : Char} (hs : s.inLiteral = true)
    (hstay : ∀ c ∈ content, ∀ next, s.advance c next = ⟨s, 1⟩)
    (hclose : ∀ next, s.advance q next = ⟨{}, 1⟩) (rest : Line) :
    s.mask (content ++ q :: rest) =
      List.replicate (content.length + 1) true ++ mask {} rest := by
  induction content with
  | nil =>
    rw [List.nil_append, mask_cons (by rw [hclose]), hclose, hs]
    rfl
  | cons c content ih =>
    have hc := hstay c List.mem_cons_self
    have hcontent := ih fun d hd => hstay d (List.mem_cons_of_mem _ hd)
    rw [List.cons_append, mask_cons (by rw [hc]), hc, hs, hcontent]
    rfl

/-- A quoted text without its own quote and without backslashes inside. -/
theorem mask_quoted {q : Char} (hq : q = '\'' ∨ q = '"') {content : Line} (hown : q ∉ content)
    (hescape : '\\' ∉ content) (rest : Line) :
    mask {} (q :: (content ++ q :: rest)) =
      false :: (List.replicate (content.length + 1) true ++ mask {} rest) := by
  rcases hq with rfl | rfl
  · have hopen (next) : advance {} '\'' next = ⟨{ inSingle := true }, 1⟩ := rfl
    rw [mask_cons (by rw [hopen]), hopen]
    refine congrArg (List.cons false) (mask_content rfl (fun c hc next => ?_) (fun _ => rfl) rest)
    have hne : c ≠ '\'' := fun e => hown (e ▸ hc)
    have hback : c ≠ '\\' := fun e => hescape (e ▸ hc)
    simp [advance, hne, hback]
  · have hopen (next) : advance {} '"' next = ⟨{ inDouble := true }, 1⟩ := rfl
    rw [mask_cons (by rw [hopen]), hopen]
    refine congrArg (List.cons false) (mask_content rfl (fun c hc next => ?_) (fun _ => rfl) rest)
    have hne : c ≠ '"' := fun e => hown (e ▸ hc)
    have hback : c ≠ '\\' := fun e => hescape (e ▸ hc)
    simp [advance, hne, hback]

end QuoteState

theorem literalMask_plain {line : Line} (h : ∀ c ∈ line, isQuoting c = false) :
    literalMask line = List.replicate line.length false := by
  have hmask := QuoteState.mask_plain_append h []
  rw [List.append_nil] at hmask
  rw [literalMask, hmask]
  exact List.append_nil _

theorem zip_replicate_length {α : Type} (text : Line) (x : α) :
    text.zip (List.replicate text.length x) = text.map fun c => (c, x) := by
  induction text with
  | nil => rfl
  | cons c text ih =>
    rw [List.length_cons, List.replicate_succ, List.zip_cons_cons, ih]
    rfl

end BranchTally
