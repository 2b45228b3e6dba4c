-- SUMMARY: Boolean conditions with their headers, printed over lines in any way, and the points they should make.
import BranchTally.Proofs.Layout
import BranchTally.Proofs.Ownership
import BranchTally.Ternary.Points

/-!
# Conditions

A condition is built from names with `!`, parentheses, `&&` and `||`. It is printed between the header
of a control structure and its `) {`, with line breaks and blanks between any two tokens.
-/

namespace BranchTally

open Text

/-! ## Names -/

/-- The words that the scanned language reserves. -/
def reservedWords : List Line :=
  ["break", "case", "catch", "class", "const", "continue", "debugger", "default", "delete", "do",
    "else", "enum", "export", "extends", "false", "finally", "for", "function", "if", "import", "in",
    "instanceof", "new", "null", "return", "super", "switch", "this", "throw", "true", "try",
    "typeof", "var", "void", "while", "with"].map String.toList

/-- An identifier that names something. -/
structure FreeIdentifier extends Identifier where
  free : text ∉ reservedWords

/-- The name is longer than a reserved word that it begins with. -/
theorem FreeIdentifier.ne_nil_of_append {name : FreeIdentifier} {word rest : Line}
    (hword : word ∈ reservedWords) (h : name.text = word ++ rest) : rest ≠ [] := by
  rintro rfl
  rw [List.append_nil] at h
  exact name.free (h ▸ hword)

/-! ## Expressions -/

/-- The tokens that come after a header; `final` is the `) {` that closes it. -/
inductive ConditionToken where
  | word (name : FreeIdentifier)
  | bang
  | opening
  | closing
  | logical (op : Logical)
  | final

/-- How the token is written. -/
def ConditionToken.text : ConditionToken → Line
  | .word name => name.text
  | .bang => ['!']
  | .opening => ['(']
  | .closing => [')']
  | .logical op => op.token
  | .final => [')', ' ', '{']

instance : Printable ConditionToken where
  text := ConditionToken.text
  sameLine t := by
    cases t with
    | word name => exact name.sameLine
    | logical op => cases op <;> simp [ConditionToken.text, Logical.token]
    | _ => simp [ConditionToken.text]

/-- The token is this operator. -/
def ConditionToken.isOp (op : Logical) : ConditionToken → Bool
  | .logical other => other = op
  | _ => false

/-- Boolean expressions. -/
inductive BoolExpr where
  | word (name : FreeIdentifier)
  | negation (e : BoolExpr)
  | group (e : BoolExpr)
  | binary (op : Logical) (left right : BoolExpr)

/-- The tokens of the expression, from left to right. -/
def BoolExpr.tokens : BoolExpr → List ConditionToken
  | .word name => [.word name]
  | .negation e => .bang :: e.tokens
  | .group e => .opening :: (e.tokens ++ [.closing])
  | .binary op left right => left.tokens ++ .logical op :: right.tokens

/-! ## Which tokens meet -/

/-- The second token may follow the first: a name stands before an operator or a closing
parenthesis. -/
def ConditionToken.Meets : ConditionToken → ConditionToken → Prop
  | .word _, .closing | .word _, .logical _ | .word _, .final => True
  | .word _, _ => False
  | _, _ => True

/-- Tokens that follow one another as they may. -/
abbrev Meeting (tokens : List ConditionToken) : Prop := tokens.IsChain ConditionToken.Meets

theorem BoolExpr.meeting_tokens (e : BoolExpr) {next : ConditionToken}
    {rest : List ConditionToken} (hnext : ∀ name, (ConditionToken.word name).Meets next)
    (hrest : Meeting (next :: rest)) : Meeting (e.tokens ++ next :: rest) := by
  induction e generalizing next rest with
  | word name => exact List.isChain_cons_cons.2 ⟨hnext name, hrest⟩
  | negation e ih => exact List.isChain_cons.2 ⟨fun _ _ => trivial, ih hnext hrest⟩
  | group e ih =>
    have hclose : Meeting (.closing :: next :: rest) :=
      List.isChain_cons_cons.2 ⟨trivial, hrest⟩
    have hinner : Meeting (e.tokens ++ .closing :: next :: rest) := ih (fun _ => trivial) hclose
    rw [tokens, List.cons_append, List.append_assoc]
    exact List.isChain_cons.2 ⟨fun _ _ => trivial, hinner⟩
  | binary op left right ihleft ihright =>
    have hop : Meeting (.logical op :: (right.tokens ++ next :: rest)) :=
      List.isChain_cons.2 ⟨fun _ _ => trivial, ihright hnext hrest⟩
    rw [tokens, List.append_assoc]
    exact ihleft (fun _ => trivial) hop

/-! ## Nesting -/

/-- After `depth` opening parentheses the tokens close as many only where they end. -/
def StaysOpen : (depth : Nat) → List ConditionToken → Prop
  | _, [] => True
  | depth, .opening :: rest => StaysOpen (depth + 1) rest
  | depth, .closing :: rest => 2 ≤ depth ∧ StaysOpen (depth - 1) rest
  | depth, .final :: rest => depth = 1 ∧ rest = []
  | depth, _ :: rest => StaysOpen depth rest

theorem BoolExpr.staysOpen_tokens (e : BoolExpr) {depth : Nat} {rest : List ConditionToken}
    (hdepth : 1 ≤ depth) (hrest : StaysOpen depth rest) : StaysOpen depth (e.tokens ++ rest) := by
  induction e generalizing depth rest with
  | word name => exact hrest
  | negation e ih => exact ih hdepth hrest
  | group e ih =>
    have hclose : StaysOpen (depth + 1) (.closing :: rest) := ⟨by omega, hrest⟩
    rw [tokens, List.cons_append, List.append_assoc]
    exact ih (by omega) hclose
  | binary op left right ihleft ihright =>
    have hop : StaysOpen depth (.logical op :: (right.tokens ++ rest)) := ihright hdepth hrest
    rw [tokens, List.append_assoc]
    exact ihleft hdepth hop

theorem StaysOpen.left_of_append {depth : Nat} {tokens rest : List ConditionToken}
    (h : StaysOpen depth (tokens ++ rest)) : StaysOpen depth tokens := by
  induction tokens generalizing depth with
  | nil => trivial
  | cons t tokens ih =>
    cases t with
    | opening => exact ih h
    | closing => exact ⟨h.1, ih h.2⟩
    | final => exact ⟨h.1, (List.append_eq_nil_iff.1 h.2).1⟩
    | word name => exact ih h
    | bang => exact ih h
    | logical op => exact ih h

/-! ## Headers -/

/-- The control structures whose conditions are printed. -/
inductive ConditionHeader where
  | ifHead
  | whileHead
  | switchHead
  | elseIfHead

namespace ConditionHeader

/-- How the header is written, up to its parenthesis. -/
def text : ConditionHeader → Line
  | .ifHead => ['i', 'f', ' ', '(']
  | .whileHead => ['w', 'h', 'i', 'l', 'e', ' ', '(']
  | .switchHead => ['s', 'w', 'i', 't', 'c', 'h', ' ', '(']
  | .elseIfHead => ['}', ' ', 'e', 'l', 's', 'e', ' ', 'i', 'f', ' ', '(']

theorem sameLine (header : ConditionHeader) : ∀ c ∈ header.text, c ≠ '\n' ∧ c ≠ '\r' :=
  forall_mem_of_all (by cases header <;> decide)

/-- What the header is counted as. -/
def kind : ConditionHeader → Kind
  | .ifHead => .ifBranch
  | .whileHead => .whileLoop
  | .switchHead => .switchBranch
  | .elseIfHead => .elseIf

end ConditionHeader

/-! ## Printed conditions -/

/-- A control structure with its condition, printed with line breaks anywhere after the header and
between tokens. Of the lines below the first none is blank. -/
structure PrintedCondition where
  header : ConditionHeader
  condition : BoolExpr
  first : PrintedLine ConditionToken
  rest : Layout ConditionToken
  tokens_eq : Layout.tokens (first :: rest) = condition.tokens ++ [.final]
  not_blank : ∀ line ∈ rest, line.pieces ≠ []

namespace PrintedCondition

/-- The first line as it is printed. -/
def firstLine (c : PrintedCondition) : Line := c.header.text ++ c.first.text

/-- The printed lines. -/
def lines (c : PrintedCondition) : List Line := c.firstLine :: c.rest.map PrintedLine.text

/-- The source that holds the condition and nothing else. -/
def source (c : PrintedCondition) : List Char := joinLines c.lines

/-- One function that takes all lines. -/
def boundary (c : PrintedCondition) : Boundary := ⟨1, 1 + c.rest.length, by omega⟩

/-- As many points of each operator as a line has of its tokens. -/
def operatorPoints (number : Int) (line : PrintedLine ConditionToken) : List Point :=
  Logical.all.flatMap fun op =>
    List.replicate (line.tokens.countP (·.isOp op)) ⟨number, op.kind, 1⟩

/-- The operators of lines of which the first has number `number`. -/
def operatorPointsFrom (number : Int) : Layout ConditionToken → List Point
  | [] => []
  | line :: rest => operatorPoints number line ++ operatorPointsFrom (number + 1) rest

/-- The keyword and the operators, each on the line where it is printed. -/
def points (c : PrintedCondition) : List Point :=
  ⟨1, c.header.kind, 1⟩ :: operatorPointsFrom 1 (c.first :: c.rest)

/-- The line begins with a name that goes on with a dollar sign after `case`. -/
def opensLikeCase (line : PrintedLine ConditionToken) : Bool :=
  match line.tokens with
  | .word name :: _ => ['c', 'a', 's', 'e', '$'].isPrefixOf name.text
  | _ => false

/-- The lines of the layout follow one another in the condition, so each is a piece of it. -/
theorem tokens_infix (c : PrintedCondition) {line : PrintedLine ConditionToken}
    (hline : line ∈ c.first :: c.rest) : line.tokens <:+: c.condition.tokens ++ [.final] := by
  obtain ⟨before, after, heq⟩ := List.append_of_mem hline
  rw [← c.tokens_eq, heq, Layout.tokens, List.flatMap_append, List.flatMap_cons]
  exact ⟨before.flatMap PrintedLine.tokens, after.flatMap PrintedLine.tokens, by simp⟩

theorem meeting_tokens (c : PrintedCondition) {line : PrintedLine ConditionToken}
    (hline : line ∈ c.first :: c.rest) : Meeting line.tokens := by
  have hwhole : Meeting (c.condition.tokens ++ [.final]) :=
    c.condition.meeting_tokens (fun _ => trivial) (List.isChain_singleton _)
  exact hwhole.infix (c.tokens_infix hline)

theorem staysOpen_first (c : PrintedCondition) : StaysOpen 1 c.first.tokens := by
  have hwhole : StaysOpen 1 (c.condition.tokens ++ [.final]) :=
    c.condition.staysOpen_tokens (Nat.le_refl 1) ⟨rfl, rfl⟩
  rw [← c.tokens_eq] at hwhole
  exact hwhole.left_of_append

end PrintedCondition

end BranchTally
