-- SUMMARY: Expressions with ternaries, their tokens, and which colon belongs to which question mark.
import BranchTally.Proofs.Layout

/-!
# Expressions with ternaries

Operands are names, quoted texts, and what stands in parentheses, brackets and braces, calls among
them. Phrases of all sorts are one family, so that a statement about expressions and about the lists
inside them has one proof by induction.
-/

namespace BranchTally

/-! ## Tokens -/

/-- A text in single or double quotes, without its quote, backslashes and line breaks. -/
structure QuotedText where
  quote : Char
  content : Line
  isQuote : quote = '\'' ∨ quote = '"'
  unquoted : quote ∉ content
  unescaped : '\\' ∉ content
  sameLine : ∀ c ∈ content, c ≠ '\n' ∧ c ≠ '\r'

/-- The pairs of brackets. -/
inductive Bracket where
  | paren
  | brace
  | square

namespace Bracket

/-- The opening bracket. -/
def opening : Bracket → Char
  | .paren => '('
  | .brace => '{'
  | .square => '['

/-- The closing bracket. -/
def closing : Bracket → Char
  | .paren => ')'
  | .brace => '}'
  | .square => ']'

end Bracket

/-- The tokens of expressions with ternaries. -/
inductive TernaryToken where
  | name (name : Identifier)
  | quoted (text : QuotedText)
  | opening (bracket : Bracket)
  | closing (bracket : Bracket)
  | comma
  | question
  | colon

namespace TernaryToken

/-- How the token is written. -/
def text : TernaryToken → Line
  | .name n => n.text
  | .quoted q => q.quote :: (q.content ++ [q.quote])
  | .opening b => [b.opening]
  | .closing b => [b.closing]
  | .comma => [',']
  | .question => ['?']
  | .colon => [':']

/-- The token is a question mark. -/
def isQuestion : TernaryToken → Bool
  | .question => true
  | _ => false

/-- The token may stand at the front of an operand. -/
def startsOperand : TernaryToken → Bool
  | .name _ | .quoted _ | .opening _ => true
  | _ => false

/-- The second token may follow the first: after a question mark comes an operand. -/
def Meets (t next : TernaryToken) : Prop := t = .question → next.startsOperand = true

end TernaryToken

theorem QuotedText.quote_sameLine (q : QuotedText) : q.quote ≠ '\n' ∧ q.quote ≠ '\r' := by
  rcases q.isQuote with h | h <;> rw [h] <;> decide

instance : Printable TernaryToken where
  text := TernaryToken.text
  sameLine t := by
    cases t with
    | name n => exact n.sameLine
    | quoted q =>
      intro c hc
      simp only [TernaryToken.text, List.mem_cons, List.mem_append, List.not_mem_nil,
        or_false] at hc
      rcases hc with rfl | hc | rfl
      · exact q.quote_sameLine
      · exact q.sameLine c hc
      · exact q.quote_sameLine
    | opening b => cases b <;> simp [TernaryToken.text, Bracket.opening]
    | closing b => cases b <;> simp [TernaryToken.text, Bracket.closing]
    | _ => simp [TernaryToken.text]

/-! ## Phrases -/

/-- The sorts of phrases: an expression, or one with a label as object literals have it, and lists of
these. -/
inductive PhraseKind where
  | entry (labelled : Bool)
  | list (labelled : Bool)

/-- Phrases. A list may be empty, and may end with a comma. -/
inductive Phrase : PhraseKind → Type where
  | name (n : Identifier) : Phrase (.entry false)
  | quoted (q : QuotedText) : Phrase (.entry false)
  | group (e : Phrase (.entry false)) : Phrase (.entry false)
  | array (items : Phrase (.list false)) : Phrase (.entry false)
  | object (fields : Phrase (.list true)) : Phrase (.entry false)
  | call (n : Identifier) (arguments : Phrase (.list false)) : Phrase (.entry false)
  | choice (condition consequent alternative : Phrase (.entry false)) : Phrase (.entry false)
  | labelled (n : Identifier) (e : Phrase (.entry false)) : Phrase (.entry true)
  | none (labelled : Bool) : Phrase (.list labelled)
  | one {labelled : Bool} (e : Phrase (.entry labelled)) : Phrase (.list labelled)
  | more {labelled : Bool} (e : Phrase (.entry labelled)) (rest : Phrase (.list labelled)) :
    Phrase (.list labelled)

/-- Expressions. -/
abbrev TernaryExpr := Phrase (.entry false)

namespace Phrase

variable {kind : PhraseKind}

/-- The tokens of a phrase, from left to right. -/
def tokens : {kind : PhraseKind} → Phrase kind → List TernaryToken
  | _, .name n => [.name n]
  | _, .quoted q => [.quoted q]
  | _, .group e => .opening .paren :: (e.tokens ++ [.closing .paren])
  | _, .array items => .opening .square :: (items.tokens ++ [.closing .square])
  | _, .object fields => .opening .brace :: (fields.tokens ++ [.closing .brace])
  | _, .call n args => .name n :: .opening .paren :: (args.tokens ++ [.closing .paren])
  | _, .choice c t e => c.tokens ++ .question :: (t.tokens ++ .colon :: e.tokens)
  | _, .labelled n e => .name n :: .colon :: e.tokens
  | _, .none _ => []
  | _, .one e => e.tokens
  | _, .more e rest => e.tokens ++ .comma :: rest.tokens

/-- The question marks of the phrase with the colons that belong to them, as places in its tokens; the
first token has place `first`. -/
def colons : {kind : PhraseKind} → (first : Nat) → Phrase kind → List (Nat × Nat)
  | _, _, .name _ => []
  | _, _, .quoted _ => []
  | _, first, .group e => e.colons (first + 1)
  | _, first, .array items => items.colons (first + 1)
  | _, first, .object fields => fields.colons (first + 1)
  | _, first, .call _ args => args.colons (first + 2)
  | _, first, .choice c t e =>
    let question := first + c.tokens.length
    let colon := question + 1 + t.tokens.length
    c.colons first ++ (question, colon) :: (t.colons (question + 1) ++ e.colons (colon + 1))
  | _, first, .labelled _ e => e.colons (first + 2)
  | _, _, .none _ => []
  | _, first, .one e => e.colons first
  | _, first, .more e rest => e.colons first ++ rest.colons (first + e.tokens.length + 1)

/-! ## Question marks and their colons -/

/-- A place in two lists is a place in the first or in the second. -/
theorem cut_of_append_eq {α : Type} {a b before rest : List α} {x : α}
    (h : a ++ b = before ++ x :: rest) :
    (∃ more, a = before ++ x :: more ∧ rest = more ++ b) ∨
      ∃ more, before = a ++ more ∧ b = more ++ x :: rest := by
  rcases List.append_eq_append_iff.1 h with ⟨more, hbefore, hb⟩ | ⟨more, ha, hrest⟩
  · exact Or.inr ⟨more, hbefore, hb⟩
  · cases more with
    | nil => exact Or.inr ⟨[], by simpa using ha.symm, by simpa using hrest.symm⟩
    | cons y more =>
      obtain ⟨rfl, htail⟩ := List.cons.inj hrest
      exact Or.inl ⟨more, ha, htail⟩

/-- Between a question mark and its colon stands an expression. -/
def Encloses (first : Nat) (pairs : List (Nat × Nat)) (tokens : List TernaryToken) : Prop :=
  ∀ before rest, tokens = before ++ .question :: rest →
    ∃ (middle : TernaryExpr) (after : List TernaryToken),
      rest = middle.tokens ++ .colon :: after ∧
        (first + before.length, first + before.length + 1 + middle.tokens.length) ∈ pairs

theorem Encloses.nil (first : Nat) : Encloses first [] [] := by
  intro before rest h
  simp at h

theorem Encloses.cons {first : Nat} {pairs : List (Nat × Nat)} {t : TernaryToken}
    {tokens : List TernaryToken} (ht : t ≠ .question) (h : Encloses (first + 1) pairs tokens) :
    Encloses first pairs (t :: tokens) := by
  intro before rest heq
  cases before with
  | nil => exact absurd (List.cons.inj heq).1 ht
  | cons u before =>
    obtain ⟨middle, after, hrest, hmem⟩ := h before rest (List.cons.inj heq).2
    refine ⟨middle, after, hrest, ?_⟩
    rw [List.length_cons]
    convert hmem using 2 <;> omega

theorem Encloses.append {first : Nat} {left right : List (Nat × Nat)} {a b : List TernaryToken}
    (ha : Encloses first left a) (hb : Encloses (first + a.length) right b) :
    Encloses first (left ++ right) (a ++ b) := by
  intro before rest heq
  rcases cut_of_append_eq heq with ⟨more, ha', rfl⟩ | ⟨more, rfl, hb'⟩
  · obtain ⟨middle, after, rfl, hmem⟩ := ha before more ha'
    exact ⟨middle, after ++ b, by simp, List.mem_append_left _ hmem⟩
  · obtain ⟨middle, after, hrest, hmem⟩ := hb more rest hb'
    refine ⟨middle, after, hrest, List.mem_append_right _ ?_⟩
    rw [List.length_append]
    convert hmem using 2 <;> omega

theorem Encloses.question {first : Nat} {pairs : List (Nat × Nat)} (middle : TernaryExpr)
    {after : List TernaryToken}
    (h : Encloses (first + 1) pairs (middle.tokens ++ .colon :: after)) :
    Encloses first ((first, first + 1 + middle.tokens.length) :: pairs)
      (.question :: (middle.tokens ++ .colon :: after)) := by
  intro before rest heq
  cases before with
  | nil =>
    obtain rfl := (List.cons.inj heq).2
    exact ⟨middle, after, rfl, List.mem_cons_self⟩
  | cons u before =>
    obtain ⟨inner, after', hrest, hmem⟩ := h before rest (List.cons.inj heq).2
    refine ⟨inner, after', hrest, List.mem_cons_of_mem _ ?_⟩
    rw [List.length_cons]
    convert hmem using 2 <;> omega

/-- Every question mark of a phrase has its colon. -/
theorem encloses (e : Phrase kind) (first : Nat) : Encloses first (e.colons first) e.tokens := by
  have hclosing (first : Nat) (b : Bracket) : Encloses first [] [.closing b] :=
    .cons (by simp) (.nil _)
  induction e generalizing first with
  | name n => exact .cons (by simp) (.nil _)
  | quoted q => exact .cons (by simp) (.nil _)
  | group e ih =>
    have hinner := (ih (first + 1)).append (hclosing _ .paren)
    rw [List.append_nil] at hinner
    exact hinner.cons (by simp)
  | array items ih =>
    have hinner := (ih (first + 1)).append (hclosing _ .square)
    rw [List.append_nil] at hinner
    exact hinner.cons (by simp)
  | object fields ih =>
    have hinner := (ih (first + 1)).append (hclosing _ .brace)
    rw [List.append_nil] at hinner
    exact hinner.cons (by simp)
  | call n args ih =>
    have hinner := (ih (first + 2)).append (hclosing _ .paren)
    rw [List.append_nil] at hinner
    exact (hinner.cons (by simp)).cons (by simp)
  | choice c t e ihc iht ihe =>
    have hrest := (iht (first + c.tokens.length + 1)).append
      ((ihe (first + c.tokens.length + 1 + t.tokens.length + 1)).cons (by simp : TernaryToken.colon ≠ _))
    exact (ihc first).append (Encloses.question t hrest)
  | labelled n e ih => exact ((ih (first + 2)).cons (by simp)).cons (by simp)
  | none labelled => exact .nil first
  | one e ih => exact ih first
  | more e rest ihe ihrest =>
    exact (ihe first).append ((ihrest (first + e.tokens.length + 1)).cons (by simp))

/-! ## Which tokens meet -/

theorem exists_cons_tokens {labelled : Bool} : ∀ e : Phrase (.entry labelled),
    ∃ t rest, e.tokens = t :: rest ∧ t.startsOperand = true
  | .name _ => ⟨_, _, rfl, rfl⟩
  | .quoted _ => ⟨_, _, rfl, rfl⟩
  | .group _ => ⟨_, _, rfl, rfl⟩
  | .array _ => ⟨_, _, rfl, rfl⟩
  | .object _ => ⟨_, _, rfl, rfl⟩
  | .call _ _ => ⟨_, _, rfl, rfl⟩
  | .labelled _ _ => ⟨_, _, rfl, rfl⟩
  | .choice c t e => by
    obtain ⟨first, rest, hc, hstart⟩ := exists_cons_tokens c
    exact ⟨first, _, by rw [tokens, hc]; rfl, hstart⟩

/-- After every question mark of a phrase comes an operand. -/
theorem isChain_tokens (e : Phrase kind) {rest : List TernaryToken}
    (hrest : rest.IsChain TernaryToken.Meets) : (e.tokens ++ rest).IsChain TernaryToken.Meets := by
  have hcons {t : TernaryToken} (ht : t ≠ .question) {tokens : List TernaryToken}
      (h : tokens.IsChain TernaryToken.Meets) : (t :: tokens).IsChain TernaryToken.Meets :=
    List.isChain_cons.2 ⟨fun _ _ heq => absurd heq ht, h⟩
  induction e generalizing rest with
  | name n => exact hcons (by simp) hrest
  | quoted q => exact hcons (by simp) hrest
  | group e ih =>
    rw [tokens, List.cons_append, List.append_assoc]
    exact hcons (by simp) (ih (hcons (by simp) hrest))
  | array items ih =>
    rw [tokens, List.cons_append, List.append_assoc]
    exact hcons (by simp) (ih (hcons (by simp) hrest))
  | object fields ih =>
    rw [tokens, List.cons_append, List.append_assoc]
    exact hcons (by simp) (ih (hcons (by simp) hrest))
  | call n args ih =>
    rw [tokens, List.cons_append, List.cons_append, List.append_assoc]
    exact hcons (by simp) (hcons (by simp) (ih (hcons (by simp) hrest)))
  | choice c t e ihc iht ihe =>
    obtain ⟨first, more, ht, hstart⟩ := t.exists_cons_tokens
    have hmiddle := iht (hcons (by simp : TernaryToken.colon ≠ _) (ihe hrest))
    rw [tokens, List.append_assoc, List.cons_append, List.append_assoc, List.cons_append]
    refine ihc (List.isChain_cons.2 ⟨fun next hnext _ => ?_, hmiddle⟩)
    rw [ht] at hnext
    obtain rfl : first = next := by simpa using hnext
    exact hstart
  | labelled n e ih => exact hcons (by simp) (hcons (by simp) (ih hrest))
  | none labelled => exact hrest
  | one e ih => exact ih hrest
  | more e rest ihe ihrest =>
    rw [tokens, List.append_assoc]
    exact ihe (hcons (by simp) (ihrest hrest))

end Phrase

end BranchTally
