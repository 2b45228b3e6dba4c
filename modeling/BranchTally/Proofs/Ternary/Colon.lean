-- SUMMARY: Reading a whole phrase brings the colon search back to its depth with no more pending ternaries, unless it succeeds on the way.
import BranchTally.Proofs.Ternary.Syntax
import BranchTally.Ternary.Colon

/-!
# The colon search, token by token

The search counts inner question marks without regard to depth, and the colons of object literals count
against them. So pending ternaries may be lost on the way through an operand, but none is ever added,
and a colon that meets no pending one is either taken or passed over. This is what each phrase is shown
to do, at every depth at or inside that of the question mark.
-/

namespace BranchTally

/-! ## Depth -/

theorem Depth.below_self (d : Depth) : d.below d = false := by
  simp [Depth.below]

theorem Bracket.step_closing_step_opening (b : Bracket) (d : Depth) :
    (d.step b.opening).step b.closing = d := by
  obtain ⟨paren, brace, square⟩ := d
  cases b <;> simp [Bracket.opening, Bracket.closing, Depth.step]

theorem Bracket.below_step_opening (b : Bracket) {d target : Depth} (h : d.below target = false) :
    (d.step b.opening).below target = false := by
  simp only [Depth.below, Bool.or_eq_false_iff, decide_eq_false_iff_not] at h ⊢
  cases b <;> simp only [Bracket.opening, Depth.step] <;> omega

/-- Inside brackets the depth is never that of the question mark. -/
theorem Bracket.step_opening_ne (b : Bracket) {d target : Depth} (h : d.below target = false) :
    d.step b.opening ≠ target := by
  rintro rfl
  simp only [Depth.below, Bool.or_eq_false_iff, decide_eq_false_iff_not] at h
  cases b <;> simp only [Bracket.opening, Depth.step] at h <;> omega

/-! ## Reading tokens -/

/-- The search goes on at another depth, unless this lies outside that of the question mark. -/
def ColonRule.move (rule : ColonRule) (state : ColonState) (depth : Depth) : ColonResult :=
  if depth.below rule.target then .decided false else .undecided { state with depth := depth }

/-- What the search does with a token. -/
def ColonRule.read (rule : ColonRule) (state : ColonState) : TernaryToken → ColonResult
  | .name _ | .quoted _ => .undecided state
  | .opening b => rule.move state (state.depth.step b.opening)
  | .closing b => rule.move state (state.depth.step b.closing)
  | .comma => if rule.stopsAt state ',' then .decided false else .undecided state
  | .question => .undecided { state with pending := state.pending + 1 }
  | .colon =>
    if 0 < state.pending then .undecided { state with pending := state.pending - 1 }
    else if rule.accepts state.depth then .decided true
    else .undecided state

/-- Reads tokens, each by its own rule: the rule is another one from the second line on. -/
def readAll : ColonState → List (ColonRule × TernaryToken) → ColonResult
  | state, [] => .undecided state
  | state, (rule, t) :: rest =>
    match rule.read state t with
    | .decided found => .decided found
    | .undecided state => readAll state rest

/-- The search succeeds; running out of text is no success. -/
def ColonResult.succeeds : ColonResult → Bool
  | .decided found => found
  | .undecided _ => false

theorem readAll_append (state : ColonState) (a b : List (ColonRule × TernaryToken)) :
    readAll state (a ++ b) =
      match readAll state a with
      | .decided found => .decided found
      | .undecided state => readAll state b := by
  induction a generalizing state with
  | nil => rfl
  | cons x a ih =>
    obtain ⟨rule, t⟩ := x
    simp only [List.cons_append, readAll]
    cases rule.read state t with
    | decided found => rfl
    | undecided state => exact ih state

/-- The search never leaves the brackets around its question mark. -/
theorem ColonRule.below_of_read {rule : ColonRule} {state state' : ColonState} {t : TernaryToken}
    (hstate : state.depth.below rule.target = false)
    (h : rule.read state t = .undecided state') : state'.depth.below rule.target = false := by
  have hmove (depth : Depth) (hmove : rule.move state depth = .undecided state') :
      state'.depth.below rule.target = false := by
    cases hbelow : depth.below rule.target with
    | true => simp [move, hbelow] at hmove
    | false =>
      simp only [move, hbelow, Bool.false_eq_true, if_false] at hmove
      obtain rfl := ColonResult.undecided.inj hmove
      exact hbelow
  cases t with
  | name n =>
    obtain rfl := ColonResult.undecided.inj h
    exact hstate
  | quoted q =>
    obtain rfl := ColonResult.undecided.inj h
    exact hstate
  | opening b => exact hmove _ h
  | closing b => exact hmove _ h
  | comma =>
    simp only [read] at h
    split at h
    · exact ColonResult.noConfusion h
    · obtain rfl := ColonResult.undecided.inj h
      exact hstate
  | question =>
    obtain rfl := ColonResult.undecided.inj h
    exact hstate
  | colon =>
    simp only [read] at h
    split at h
    · obtain rfl := ColonResult.undecided.inj h
      exact hstate
    · split at h
      · exact ColonResult.noConfusion h
      · obtain rfl := ColonResult.undecided.inj h
        exact hstate

theorem below_of_readAll {rule : ColonRule} {tokens : List TernaryToken} {state state' : ColonState}
    (hstate : state.depth.below rule.target = false)
    (h : readAll state (tokens.map fun t => (rule, t)) = .undecided state') :
    state'.depth.below rule.target = false := by
  induction tokens generalizing state with
  | nil =>
    obtain rfl := ColonResult.undecided.inj h
    exact hstate
  | cons t tokens ih =>
    rw [List.map_cons, readAll] at h
    cases hread : rule.read state t with
    | decided found => simp [hread] at h
    | undecided next =>
      rw [hread] at h
      exact ih (ColonRule.below_of_read hstate hread) h

/-! ## Phrases are harmless -/

section

variable {target depth : Depth}

/-- From a depth, whatever is pending, the search succeeds within the tokens or is at the same depth
behind them with no more pending. -/
def Harmless (target depth : Depth) (tokens : List TernaryToken) : Prop :=
  ∀ (reads : List (ColonRule × TernaryToken)), reads.map Prod.snd = tokens →
    (∀ r ∈ reads, r.1.target = target) → ∀ pending : Nat,
      readAll ⟨depth, pending⟩ reads = .decided true ∨
        ∃ left, left ≤ pending ∧ readAll ⟨depth, pending⟩ reads = .undecided ⟨depth, left⟩

namespace Harmless

theorem nil : Harmless target depth [] := by
  intro reads hreads _ pending
  obtain rfl := List.map_eq_nil_iff.1 hreads
  exact Or.inr ⟨pending, Nat.le_refl _, rfl⟩

theorem append {a b : List TernaryToken} (ha : Harmless target depth a)
    (hb : Harmless target depth b) : Harmless target depth (a ++ b) := by
  intro reads hreads hrules pending
  obtain ⟨first, second, rfl, hfirst, hsecond⟩ := List.map_eq_append_iff.1 hreads
  rw [readAll_append]
  rcases ha first hfirst (fun r hr => hrules r (List.mem_append_left _ hr)) pending with
    hfound | ⟨left, hleft, hopen⟩
  · exact Or.inl (by rw [hfound])
  · rw [hopen]
    rcases hb second hsecond (fun r hr => hrules r (List.mem_append_right _ hr)) left with
      hfound | ⟨less, hless, hopen'⟩
    · exact Or.inl hfound
    · exact Or.inr ⟨less, Nat.le_trans hless hleft, hopen'⟩

/-- A token that neither ends the search nor adds to what is pending. -/
theorem single {t : TernaryToken}
    (h : ∀ (rule : ColonRule), rule.target = target → ∀ pending : Nat,
      rule.read ⟨depth, pending⟩ t = .decided true ∨
        ∃ left, left ≤ pending ∧ rule.read ⟨depth, pending⟩ t = .undecided ⟨depth, left⟩) :
    Harmless target depth [t] := by
  intro reads hreads hrules pending
  obtain ⟨⟨rule, t'⟩, rfl, rfl⟩ : ∃ r, reads = [r] ∧ r.2 = t := by
    cases reads with
    | nil => simp at hreads
    | cons r rest =>
      simp only [List.map_cons, List.cons.injEq, List.map_eq_nil_iff] at hreads
      exact ⟨r, by rw [hreads.2], hreads.1⟩
  rcases h rule (hrules _ List.mem_cons_self) pending with hfound | ⟨left, hleft, hopen⟩
  · exact Or.inl (by simp only [readAll, hfound])
  · exact Or.inr ⟨left, hleft, by simp only [readAll, hopen]⟩

theorem name (n : Identifier) : Harmless target depth [.name n] :=
  single fun _ _ pending => Or.inr ⟨pending, Nat.le_refl _, rfl⟩

theorem quoted (q : QuotedText) : Harmless target depth [.quoted q] :=
  single fun _ _ pending => Or.inr ⟨pending, Nat.le_refl _, rfl⟩

/-- A colon takes one from what is pending, succeeds, or is passed over. -/
theorem colon : Harmless target depth [.colon] := by
  refine single fun rule _ pending => ?_
  simp only [ColonRule.read]
  split
  · exact Or.inr ⟨pending - 1, Nat.sub_le _ _, rfl⟩
  · split
    · exact Or.inl rfl
    · exact Or.inr ⟨pending, Nat.le_refl _, rfl⟩

/-- A comma ends the search only at the depth of the question mark. -/
theorem comma (h : depth ≠ target) : Harmless target depth [.comma] := by
  refine single fun rule hrule pending => ?_
  have hstop : rule.stopsAt ⟨depth, pending⟩ ',' = false := by
    simp [ColonRule.stopsAt, hrule, h]
  simp only [ColonRule.read, hstop, Bool.false_eq_true, if_false]
  exact Or.inr ⟨pending, Nat.le_refl _, rfl⟩

/-- What is harmless inside brackets is harmless with them. -/
theorem bracketed {tokens : List TernaryToken} (b : Bracket) (hdepth : depth.below target = false)
    (h : Harmless target (depth.step b.opening) tokens) :
    Harmless target depth (.opening b :: (tokens ++ [.closing b])) := by
  intro reads hreads hrules pending
  obtain ⟨⟨rule, t⟩, later, rfl, rfl, hlater⟩ := List.map_eq_cons_iff.1 hreads
  obtain ⟨inner, close, rfl, hinner, hclose⟩ := List.map_eq_append_iff.1 hlater
  obtain ⟨⟨rule', t'⟩, rest, rfl, rfl, hrest⟩ := List.map_eq_cons_iff.1 hclose
  obtain rfl := List.map_eq_nil_iff.1 hrest
  have hrule : rule.target = target := hrules _ List.mem_cons_self
  have hrule' : rule'.target = target := hrules (rule', .closing b) (by simp)
  have hopen : rule.read ⟨depth, pending⟩ (.opening b) =
      .undecided ⟨depth.step b.opening, pending⟩ := by
    simp [ColonRule.read, ColonRule.move, hrule, b.below_step_opening hdepth]
  have hshut (left : Nat) : rule'.read ⟨depth.step b.opening, left⟩ (.closing b) =
      .undecided ⟨depth, left⟩ := by
    simp [ColonRule.read, ColonRule.move, hrule', b.step_closing_step_opening, hdepth]
  simp only [readAll, hopen, readAll_append]
  have hrulesInner : ∀ r ∈ inner, r.1.target = target := fun r hr => hrules r (by simp [hr])
  rcases h inner hinner hrulesInner pending with hfound | ⟨left, hleft, hundecided⟩
  · exact Or.inl (by rw [hfound])
  · exact Or.inr ⟨left, hleft, by simp only [hundecided, hshut]⟩

/-- A question mark and its colon take each other away, whatever happens between them. -/
theorem enclosed {tokens : List TernaryToken} (h : Harmless target depth tokens) :
    Harmless target depth (.question :: (tokens ++ [.colon])) := by
  intro reads hreads hrules pending
  obtain ⟨⟨rule, t⟩, later, rfl, rfl, hlater⟩ := List.map_eq_cons_iff.1 hreads
  obtain ⟨inner, close, rfl, hinner, hclose⟩ := List.map_eq_append_iff.1 hlater
  obtain ⟨⟨rule', t'⟩, rest, rfl, rfl, hrest⟩ := List.map_eq_cons_iff.1 hclose
  obtain rfl := List.map_eq_nil_iff.1 hrest
  have hrulesInner : ∀ r ∈ inner, r.1.target = target := fun r hr => hrules r (by simp [hr])
  simp only [readAll, ColonRule.read, readAll_append]
  rcases h inner hinner hrulesInner (pending + 1) with hfound | ⟨left, hleft, hundecided⟩
  · exact Or.inl (by rw [hfound])
  · rw [hundecided]
    dsimp only
    by_cases hpos : 0 < left
    · rw [if_pos hpos]
      exact Or.inr ⟨left - 1, by omega, rfl⟩
    · rw [if_neg hpos]
      cases rule'.accepts depth with
      | true => exact Or.inl rfl
      | false => exact Or.inr ⟨left, by omega, rfl⟩

end Harmless

/-- Every phrase is harmless at or inside the depth of the question mark, and a list inside it. -/
theorem Phrase.harmless {kind : PhraseKind} (e : Phrase kind) (hdepth : depth.below target = false)
    (hlist : ∀ labelled, kind = .list labelled → depth ≠ target) :
    Harmless target depth e.tokens := by
  induction e generalizing depth with
  | name n => exact .name n
  | quoted q => exact .quoted q
  | group e ih =>
    exact .bracketed .paren hdepth
      (ih (Bracket.paren.below_step_opening hdepth) fun _ h => PhraseKind.noConfusion h)
  | array items ih =>
    exact .bracketed .square hdepth (ih (Bracket.square.below_step_opening hdepth)
      fun _ _ => Bracket.square.step_opening_ne hdepth)
  | object fields ih =>
    exact .bracketed .brace hdepth (ih (Bracket.brace.below_step_opening hdepth)
      fun _ _ => Bracket.brace.step_opening_ne hdepth)
  | call n args ih =>
    have hargs := Harmless.bracketed .paren hdepth (ih (Bracket.paren.below_step_opening hdepth)
      fun _ _ => Bracket.paren.step_opening_ne hdepth)
    exact (Harmless.name n).append hargs
  | choice c t e ihc iht ihe =>
    have hc := ihc hdepth fun _ h => PhraseKind.noConfusion h
    have ht := iht hdepth fun _ h => PhraseKind.noConfusion h
    have he := ihe hdepth fun _ h => PhraseKind.noConfusion h
    have hall := hc.append (ht.enclosed.append he)
    simpa only [tokens, List.cons_append, List.append_assoc, List.nil_append] using hall
  | labelled n e ih =>
    exact (Harmless.name n).append (Harmless.colon.append
      (ih hdepth fun _ h => PhraseKind.noConfusion h))
  | none labelled => exact .nil
  | one e ih => exact ih hdepth fun _ h => PhraseKind.noConfusion h
  | more e rest ihe ihrest =>
    have he := ihe hdepth fun _ h => PhraseKind.noConfusion h
    have hne := hlist _ rfl
    have hrest := ihrest hdepth fun _ _ => hne
    exact he.append ((Harmless.comma hne).append hrest)

end

/-- Behind an expression that begins right after the question mark the next colon is accepted. -/
theorem readAll_succeeds (middle : TernaryExpr) {target : Depth}
    {reads : List (ColonRule × TernaryToken)} {after : List TernaryToken}
    (hreads : reads.map Prod.snd = middle.tokens ++ .colon :: after)
    (hrules : ∀ r ∈ reads, r.1.target = target) :
    (readAll ⟨target, 0⟩ reads).succeeds = true := by
  obtain ⟨inner, later, rfl, hinner, hlater⟩ := List.map_eq_append_iff.1 hreads
  obtain ⟨⟨rule, t⟩, rest, rfl, rfl, -⟩ := List.map_eq_cons_iff.1 hlater
  have hrule : rule.target = target := hrules (rule, .colon) (by simp)
  have hmiddle := middle.harmless target.below_self (fun _ h => PhraseKind.noConfusion h) inner hinner
    (fun r hr => hrules r (List.mem_append_left _ hr)) 0
  rw [readAll_append]
  rcases hmiddle with hfound | ⟨left, hleft, hundecided⟩
  · rw [hfound]
    rfl
  · obtain rfl := Nat.le_zero.1 hleft
    have haccepts : rule.accepts target = true := by simp [ColonRule.accepts, hrule]
    simp [hundecided, readAll, ColonRule.read, haccepts, ColonResult.succeeds]

end BranchTally
