-- SUMMARY: How often the `&&` and `||` of a line are counted: once for each collector that claims them.
import BranchTally.Proofs.Scan
import BranchTally.Proofs.Token
import BranchTally.Proofs.Header

/-!
# Counting operators

Two short-circuit operators are never taken for duplicates of each other, so every collector that
claims an operator adds one to its count. On a control line an operator is claimed by each header
that has it between its parentheses. On any other line the collectors of expressions and of continued
conditions share the operators, and a ternary on the line below takes those of its condition.
-/

namespace BranchTally

/-- The points of an operator on a line. -/
def operatorCount (op : Logical) (number : Int) (points : List Point) : Nat :=
  points.countP fun p => p.line = number && p.kind = op.kind

/-! ## Kinds -/

theorem Logical.kind_inj {op other : Logical} : other.kind = op.kind ↔ other = op := by
  cases op <;> cases other <;> decide

theorem Logical.repeatable_kind (op : Logical) : op.kind.repeatable = true := by
  cases op <;> rfl

theorem Logical.ne_kind {kind : Kind} (hconj : kind ≠ .conj) (hdisj : kind ≠ .disj) (op : Logical) :
    kind ≠ op.kind := by
  cases op
  · exact hconj
  · exact hdisj

theorem Logical.token_length (op : Logical) : op.token.length = 2 := by
  cases op <;> rfl

section

variable {op : Logical} {number : Int}

/-! ## Counts of single collectors -/

@[simp] theorem operatorCount_nil : operatorCount op number [] = 0 := rfl

@[simp] theorem operatorCount_append (a b : List Point) :
    operatorCount op number (a ++ b) = operatorCount op number a + operatorCount op number b :=
  List.countP_append

theorem operatorCount_cons_of_kind_ne {p : Point} (h : p.kind ≠ op.kind) (points : List Point) :
    operatorCount op number (p :: points) = operatorCount op number points := by
  simp [operatorCount, h]

theorem operatorCount_eq_zero {points : List Point}
    (h : ∀ p ∈ points, p.line ≠ number ∨ p.kind ≠ op.kind) : operatorCount op number points = 0 := by
  rw [operatorCount, List.countP_eq_zero]
  intro p hp
  rcases h p hp with h | h <;> simp [h]

theorem operatorCount_pointsAt {kind : Kind} (hkind : kind ≠ op.kind) (line owner : Int)
    (positions : List Nat) : operatorCount op number (pointsAt line kind owner positions) = 0 := by
  apply operatorCount_eq_zero
  intro p hp
  obtain ⟨i, -, rfl⟩ := List.mem_map.1 hp
  exact Or.inr hkind

theorem operatorCount_defaultPoints (count : Nat) (line owner : Int) :
    operatorCount op number (defaultPoints count line owner) = 0 := by
  apply operatorCount_eq_zero
  intro p hp
  obtain rfl := List.eq_of_mem_replicate hp
  exact Or.inr (Logical.ne_kind (by simp) (by simp) op)

/-- All live operators of a text, whoever owns them. -/
theorem operatorCount_all (text : Line) (line : Int) (owner : Nat → Int) :
    operatorCount op number (Logical.all.flatMap fun other =>
      (findTokens text other.token).map fun i => ⟨line, other.kind, owner i⟩) =
      if line = number then (findTokens text op.token).length else 0 := by
  by_cases hline : line = number
  · cases op <;>
      simp [operatorCount, Logical.all, hline, List.countP_map, Function.comp_def, Logical.kind]
  · rw [if_neg hline]
    apply operatorCount_eq_zero
    intro p hp
    obtain ⟨other, -, hp⟩ := List.mem_flatMap.1 hp
    obtain ⟨i, -, rfl⟩ := List.mem_map.1 hp
    exact Or.inl hline

theorem operatorCount_logicalPoints (text : Line) (line owner : Int) :
    operatorCount op number (logicalPoints text line owner) =
      if line = number then (findTokens text op.token).length else 0 :=
  operatorCount_all text line fun _ => owner

theorem operatorCount_expressionPoints (ctx : Ownership) (f : Focus) (headers : Headers)
    (markup : Markup) (default : Int) :
    operatorCount op f.number (expressionPoints ctx f headers markup default) =
      if isBooleanExpression (stripComments f.line) headers markup && !isTernaryCondition f
      then (findTokens f.line op.token).length else 0 := by
  simp only [expressionPoints]
  split
  · next h =>
    rw [if_neg, operatorCount_nil]
    cases hb : isBooleanExpression (stripComments f.line) headers markup <;> simp_all
  · next h =>
    rw [if_pos, operatorCount_all, if_pos rfl]
    simpa using h

/-! ## Conditions of headers -/

/-- The headers whose conditions are read for operators: all that have one, save the headers of
`for...of` and `for...in` loops. -/
def Headers.conditions (h : Headers) : List Header :=
  h.ifHeader.toList ++ h.elseIf.toList ++ (if h.forKind = .forLoop then h.forHeader.toList else []) ++
    h.whileHeader.toList ++ h.doTail.toList ++ h.switchHeader.toList ++ h.catchHeader.toList

/-- The operator at this position stands between the parentheses of the header. -/
def Header.encloses (h : Header) (i : Nat) : Bool :=
  h.parens.any fun p => p.opening ≤ i && p.closing.all fun closing => i + 2 ≤ closing

/-- The conditions of a line that an operator stands in. -/
def conditionsAround (line : Line) (i : Nat) : Nat :=
  (Headers.of line).conditions.countP (·.encloses i)

theorem countP_conditionOperators (line : Line) (h : Header) (op : Logical) :
    (conditionOperators line h).countP (fun o => o.2 = op) =
      match h.parens with
      | none => 0
      | some p => (findTokens line op.token p.opening p.closing).length := by
  unfold conditionOperators
  cases h.parens with
  | none => rfl
  | some p =>
    dsimp only
    rw [(List.mergeSort_perm _ _).countP_eq]
    cases op <;> simp [Logical.all, List.countP_map, Function.comp_def]

theorem paren_of_mem_conditions {line : Line} {h : Header} {p : Parens}
    (hh : h ∈ (Headers.of line).conditions) (hp : h.parens = some p) :
    (line)[p.opening]? = some '(' := by
  simp only [Headers.conditions, Headers.of, List.mem_append, Option.mem_toList] at hh
  rcases hh with (((((hh | hh) | hh) | hh) | hh) | hh) | hh
  · exact opening_of_header? (parenForm_endsAtParen _) hh hp
  · exact opening_of_header? elseIfForm_endsAtParen hh hp
  · split at hh
    · exact opening_of_header? forForm_endsAtParen (Option.mem_toList.1 hh) hp
    · simp at hh
  · split at hh
    · simp at hh
    · exact opening_of_header? (parenForm_endsAtParen _) hh hp
  · split at hh
    · exact opening_of_header? (parenForm_endsAtParen _) hh hp
    · simp at hh
  · exact opening_of_header? (parenForm_endsAtParen _) hh hp
  · exact opening_of_header? catchForm_endsAtParen hh hp

/-- The operators read for a header are the live ones of the line that it encloses. -/
theorem countP_conditionOperators_of_mem {line : Line} {h : Header}
    (hh : h ∈ (Headers.of line).conditions) (op : Logical) :
    (conditionOperators line h).countP (fun o => o.2 = op) =
      (findTokens line op.token).countP h.encloses := by
  rw [countP_conditionOperators]
  cases hp : h.parens with
  | none =>
    symm
    rw [List.countP_eq_zero]
    simp [Header.encloses, hp]
  | some p =>
    have hparen : '(' ∉ op.token := op.not_mem_token (by decide)
    dsimp only
    rw [findTokens_window (paren_of_mem_conditions hh hp) hparen op.token_ne_nil,
      ← List.countP_eq_length_filter, Logical.token_length]
    congr 1
    funext i
    simp [Header.encloses, hp]

theorem operatorCount_operatorPoints (line : Line) (h : Header) (owner : Int) :
    operatorCount op number (operatorPoints line h number owner) =
      (conditionOperators line h).countP fun o => o.2 = op := by
  simp [operatorCount, operatorPoints, List.countP_map, Function.comp_def, Logical.kind_inj]

theorem operatorCount_headerPoints {kind : Kind} (hkind : kind ≠ op.kind) (line : Line)
    (owner : Int) (h : Header) :
    operatorCount op number (headerPoints kind line number owner h) =
      (conditionOperators line h).countP fun o => o.2 = op :=
  (operatorCount_cons_of_kind_ne hkind _).trans (operatorCount_operatorPoints line h owner)

theorem operatorCount_ifPoints (ctx : Ownership) (line : Line) (h : Header) (default : Int) :
    operatorCount op number (ifPoints ctx line number h default) =
      (conditionOperators line h).countP fun o => o.2 = op := by
  rw [ifPoints, operatorCount_cons_of_kind_ne (Logical.ne_kind (by simp) (by simp) op)]
  simp [operatorCount, List.countP_map, Function.comp_def, Logical.kind_inj]

theorem operatorCount_getD_map {o : Option Header} {points : Header → List Point}
    {count : Header → Nat} (h : ∀ header, operatorCount op number (points header) = count header) :
    operatorCount op number ((o.map points).getD []) = (o.toList.map count).sum := by
  cases o <;> simp [h]

/-- A control line counts the operators of each of its conditions. -/
theorem operatorCount_controlPoints (ctx : Ownership) (line : Line) {headers : Headers}
    (hloop : headers.forKind ≠ op.kind) (default : Int) :
    operatorCount op number (controlPoints ctx line number headers default) =
      (headers.conditions.map fun h => (conditionOperators line h).countP fun o => o.2 = op).sum := by
  have hkind (kind : Kind) (hconj : kind ≠ .conj) (hdisj : kind ≠ .disj) : kind ≠ op.kind :=
    Logical.ne_kind hconj hdisj op
  have hfor (h : Header) : operatorCount op number
      (⟨number, headers.forKind, controlOwner ctx number default⟩ ::
        if headers.forKind = .forLoop then
          operatorPoints line h number (controlOwner ctx number default)
        else []) =
      if headers.forKind = .forLoop then (conditionOperators line h).countP fun o => o.2 = op
      else 0 := by
    rw [operatorCount_cons_of_kind_ne hloop]
    split
    · exact operatorCount_operatorPoints line h _
    · rfl
  have hdo (h : Header) : operatorCount op number [⟨number, .doWhile, default⟩] = 0 :=
    operatorCount_cons_of_kind_ne (hkind _ (by simp) (by simp)) []
  have hcase : operatorCount op number
      (if headers.isCase then [⟨number, .caseClause, default⟩] else []) = 0 := by
    split
    · exact operatorCount_cons_of_kind_ne (hkind _ (by simp) (by simp)) []
    · rfl
  simp only [controlPoints, operatorCount_append, hcase,
    operatorCount_getD_map (operatorCount_ifPoints ctx line · default),
    operatorCount_getD_map (operatorCount_headerPoints (hkind .elseIf (by decide) (by decide)) line default),
    operatorCount_getD_map hfor,
    operatorCount_getD_map (operatorCount_headerPoints (hkind .whileLoop (by decide) (by decide)) line _),
    operatorCount_getD_map hdo,
    operatorCount_getD_map (operatorCount_operatorPoints line · default),
    operatorCount_getD_map (operatorCount_headerPoints (hkind .switchBranch (by decide) (by decide)) line _),
    operatorCount_getD_map (operatorCount_headerPoints (hkind .catchClause (by decide) (by decide)) line default)]
  simp only [Headers.conditions, List.map_append, List.sum_append_nat]
  split <;> cases headers.forHeader <;> cases headers.doHeader <;> simp

end

end BranchTally
