-- SUMMARY: Names that are found in a text consist of name characters, so no display name has a colon.
import BranchTally.Project
import BranchTally.Proofs.Signature.Defaults

/-!
# Characters of names

A name pattern may pass over signs of all kinds, but the name in its piece is one run of name characters.
A display name adds blanks, parentheses and fixed words to such names.
-/

namespace BranchTally

open Text

/-! ## Chains -/

/-- Blanks, a sign, and behind it what a reader takes. -/
def afterSign (sign : Char → Bool) (f : List Char → Option (List Char)) (s : List Char) :
    Option (List Char) :=
  match skipBlanks s with
  | c :: rest => if sign c then f rest else none
  | [] => none

namespace NamePattern

/-- The pattern `q` finds the name that `p` finds, and goes on with what the reader `f` takes behind it. -/
def Chain (q p : NamePattern) (f : List Char → Option (List Char)) : Prop :=
  ∀ s, q s = (p s).bind fun x => (f x.2).map fun rest => (x.1, rest)

theorem chain_calledName? :
    calledName?.Chain takeIdentifier? (afterSign (fun c => c = '<' || c = '(') some) := by
  intro s
  simp only [calledName?, afterSign]
  cases takeIdentifier? s with
  | none => rfl
  | some x =>
    simp only [Option.bind_eq_bind, Option.bind_some]
    cases skipBlanks x.2 with
    | nil => rfl
    | cons c rest =>
      dsimp only
      split <;> rfl

theorem chain_assignedName? (separators : List Char) (ending : List Char → Option (List Char)) :
    (assignedName? separators ending).Chain takeIdentifier?
      (afterSign separators.contains fun s => ending (skipParens (skipBlanks s))) := by
  intro s
  simp only [assignedName?, afterSign]
  cases takeIdentifier? s with
  | none => rfl
  | some x =>
    simp only [Option.bind_eq_bind, Option.bind_some]
    cases skipBlanks x.2 with
    | nil => rfl
    | cons c rest =>
      dsimp only
      split
      · cases ending (skipParens (skipBlanks rest)) <;> rfl
      · rfl

theorem chain_callPattern (test : List Char → Bool) :
    (callPattern test).Chain takeWord? fun s => (spacedChar? '(' s).filter test := by
  intro s
  simp only [callPattern]
  cases takeWord? s with
  | none => rfl
  | some x =>
    simp only [Option.bind_eq_bind, Option.bind_some]
    cases spacedChar? '(' x.2 with
    | none => rfl
    | some arguments =>
      simp only [Option.bind_some, Option.filter]
      split <;> rfl

end NamePattern

/-! ## Names in patterns -/

namespace NamePattern

/-- The names that the pattern finds consist of name characters. -/
def FindsNames (p : NamePattern) : Prop := ∀ s x, p s = some x → ∀ c ∈ x.1, isNameChar c = true

theorem findsNames_run {start part : Char → Bool} (hstart : ∀ c, start c = true → isNameChar c = true)
    (hpart : ∀ c, part c = true → isNameChar c = true) {p : NamePattern} (hnil : p [] = none)
    (hcons : ∀ c s, p (c :: s) =
      if start c then some (c :: s.takeWhile part, s.dropWhile part) else none) : p.FindsNames := by
  intro s x hx
  cases s with
  | nil => simp [hnil] at hx
  | cons c s =>
    rw [hcons] at hx
    split at hx
    · rename_i hc
      obtain rfl := Option.some.inj hx
      exact List.forall_mem_cons.2 ⟨hstart c hc, fun d hd => hpart d (List.mem_takeWhile_imp hd)⟩
    · simp at hx

theorem findsNames_takeIdentifier? : FindsNames takeIdentifier? :=
  findsNames_run
    (fun _ hc => isNameChar_of_isIdentifierPart (isIdentifierPart_of_isIdentifierStart hc))
    (fun _ => isNameChar_of_isIdentifierPart) rfl fun _ _ => rfl

theorem findsNames_takeWord? : FindsNames takeWord? := by
  have hword (c : Char) (hc : isWord c = true) : isNameChar c = true := by rw [isNameChar, hc, Bool.true_or]
  exact findsNames_run hword hword rfl fun _ _ => rfl

variable {p q : NamePattern}

theorem FindsNames.after (hp : p.FindsNames) (f : List Char → Option (List Char)) :
    FindsNames fun s => (f s).bind p := by
  intro s x hx
  obtain ⟨rest, -, hx⟩ := Option.bind_eq_some_iff.1 hx
  exact hp rest x hx

theorem FindsNames.chain (hp : p.FindsNames) {f : List Char → Option (List Char)}
    (hq : q.Chain p f) : q.FindsNames := by
  intro s y hy
  rw [hq s] at hy
  obtain ⟨x, hx, hy⟩ := Option.bind_eq_some_iff.1 hy
  obtain ⟨rest, -, rfl⟩ := Option.map_eq_some_iff.1 hy
  exact hp s x hx

theorem findsNames_calledName? : FindsNames calledName? :=
  findsNames_takeIdentifier?.chain chain_calledName?

theorem findsNames_assignedName? (separators : List Char) (ending : List Char → Option (List Char)) :
    FindsNames (assignedName? separators ending) :=
  findsNames_takeIdentifier?.chain (chain_assignedName? separators ending)

theorem findsNames_componentPattern : FindsNames componentPattern := by
  intro s x hx
  obtain ⟨rest, -, hx⟩ := Option.bind_eq_some_iff.1 hx
  split at hx
  · split at hx
    · exact findsNames_assignedName? _ _ _ x hx
    · cases hx
  · cases hx

theorem findsNames_callPattern (test : List Char → Bool) : FindsNames (callPattern test) :=
  findsNames_takeWord?.chain (chain_callPattern test)

theorem findsNames_constPattern : FindsNames constPattern :=
  (findsNames_assignedName? _ _).after _

theorem findsNames_namedArrowPattern : FindsNames namedArrowPattern :=
  (findsNames_assignedName? _ _).after _

theorem findsNames_of_mem_declarationPatterns (h : p ∈ declarationPatterns) : p.FindsNames := by
  simp only [declarationPatterns, List.mem_cons, List.not_mem_nil, or_false] at h
  rcases h with rfl | rfl | rfl | rfl | rfl
  · exact findsNames_calledName?.after _
  · exact findsNames_constPattern
  · exact findsNames_constPattern.after _
  · exact findsNames_calledName?.after _
  · exact findsNames_componentPattern

theorem findsNames_of_mem_hostPatterns (h : p ∈ hostPatterns) : p.FindsNames := by
  simp only [hostPatterns, List.mem_cons, List.not_mem_nil, or_false] at h
  rcases h with rfl | rfl | rfl | rfl
  · exact findsNames_callPattern _
  · exact findsNames_callPattern _
  · exact (findsNames_callPattern _).after _
  · exact (findsNames_callPattern _).after _

theorem FindsNames.firstName? (hp : p.FindsNames) {s name : List Char}
    (h : firstName? p s = some name) : ∀ c ∈ name, isNameChar c = true := by
  induction s with
  | nil =>
    obtain ⟨x, hx, rfl⟩ := Option.map_eq_some_iff.1 h
    exact hp _ x hx
  | cons c s ih =>
    rw [BranchTally.firstName?] at h
    split at h
    · rename_i hx
      cases h
      exact hp _ _ hx
    · exact ih h

end NamePattern

/-! ## The last piece of a pattern -/

theorem mem_of_mem_laterName {a b : Option (Nat × List Char)} {x : Nat × List Char}
    (h : x ∈ laterName a b) : x ∈ a ∨ x ∈ b := by
  cases a with
  | none => exact .inr h
  | some y =>
    cases b with
    | none => exact .inl h
    | some z =>
      rw [laterName] at h
      split at h
      · exact .inr h
      · exact .inl h

theorem lastNameFrom_of_some {p : NamePattern} {c : Char} {s name tail : List Char}
    (h : p (c :: s) = some (name, tail)) (pos : Nat) (last : Option (Nat × List Char)) :
    lastNameFrom p 0 pos last (c :: s) =
      lastNameFrom p (s.length - tail.length) (pos + 1) (some (pos, name)) s := by
  simp only [lastNameFrom, h]

theorem lastNameFrom_of_none {p : NamePattern} {c : Char} {s : List Char} (h : p (c :: s) = none)
    (pos : Nat) (last : Option (Nat × List Char)) :
    lastNameFrom p 0 pos last (c :: s) = lastNameFrom p 0 (pos + 1) last s := by
  simp only [lastNameFrom, h]

namespace NamePattern

theorem FindsNames.lastNameFrom {p : NamePattern} (hp : p.FindsNames) {skip pos : Nat}
    {last : Option (Nat × List Char)} (hlast : ∀ x ∈ last, ∀ c ∈ x.2, isNameChar c = true)
    (s : List Char) : ∀ x ∈ lastNameFrom p skip pos last s, ∀ c ∈ x.2, isNameChar c = true := by
  induction s generalizing skip pos last with
  | nil => simpa [BranchTally.lastNameFrom] using hlast
  | cons c s ih =>
    cases skip with
    | succ skip => exact ih hlast
    | zero =>
      cases hpiece : p (c :: s) with
      | none =>
        rw [lastNameFrom_of_none hpiece]
        exact ih hlast
      | some piece =>
        rw [lastNameFrom_of_some hpiece]
        exact ih fun x hx => Option.mem_some_iff.1 hx ▸ hp _ _ hpiece

end NamePattern

/-! ## Display names -/

/-- The nearest of several kinds of declarations has a name of name characters. -/
theorem isNameChar_of_mem_foldl_laterName {context : List Char} {patterns : List NamePattern}
    (hpatterns : ∀ p ∈ patterns, p.FindsNames) {last : Option (Nat × List Char)}
    (hlast : ∀ x ∈ last, ∀ c ∈ x.2, isNameChar c = true) :
    ∀ x ∈ patterns.foldl (fun last p => laterName last (lastNameFrom p 0 0 none context)) last,
      ∀ c ∈ x.2, isNameChar c = true := by
  induction patterns generalizing last with
  | nil => exact hlast
  | cons p patterns ih =>
    obtain ⟨hp, hpatterns⟩ := List.forall_mem_cons.1 hpatterns
    refine ih hpatterns fun x hx => ?_
    rcases mem_of_mem_laterName hx with hx | hx
    · exact hlast x hx
    · exact hp.lastNameFrom (by simp) context x hx

theorem isNameChar_of_mem_declaredName? {lines : List Line} {number : Int} {name : List Char}
    (h : declaredName? lines number = some name) : ∀ c ∈ name, isNameChar c = true := by
  rw [declaredName?] at h
  split at h
  · cases h
  · obtain ⟨x, hx, rfl⟩ := Option.map_eq_some_iff.1 h
    exact isNameChar_of_mem_foldl_laterName
      (fun p => NamePattern.findsNames_of_mem_declarationPatterns) (by simp) x hx

theorem colon_not_mem_of_isNameChar {name : List Char} (h : ∀ c ∈ name, isNameChar c = true) :
    ':' ∉ name := fun hmem => absurd (h ':' hmem) (by decide)

theorem colon_not_mem_declaredName? {lines : List Line} {number : Int} {name : List Char}
    (h : declaredName? lines number = some name) : ':' ∉ name :=
  colon_not_mem_of_isNameChar (isNameChar_of_mem_declaredName? h)

theorem colon_not_mem_arrowName (lines : List Line) (number : Int) :
    ':' ∉ arrowName lines number := by
  rw [arrowName]
  split
  · rename_i hname
    exact colon_not_mem_of_isNameChar (NamePattern.findsNames_namedArrowPattern.firstName? hname)
  · have hhost {context name : List Char} (h : hostPatterns.findSome? (firstName? · context) = some name) :
        ':' ∉ name := by
      obtain ⟨p, hp, hname⟩ := List.exists_of_findSome?_eq_some h
      exact colon_not_mem_of_isNameChar
        ((NamePattern.findsNames_of_mem_hostPatterns hp).firstName? hname)
    dsimp only
    split
    · rename_i hcall hparent
      simp [hhost hcall, colon_not_mem_declaredName? hparent]
    · rename_i hcall _
      simp [hhost hcall]
    · rename_i _ hparent
      simp [colon_not_mem_declaredName? hparent]
    · decide

theorem colon_not_mem_functionName (lines : List Line) (number : Int) (nodeType : Json) :
    ':' ∉ functionName lines number nodeType := by
  rw [functionName]
  split
  · exact colon_not_mem_arrowName lines number
  · cases hname : declaredName? lines number with
    | none => decide
    | some name => exact colon_not_mem_declaredName? hname

/-- No function of a project is shown with a colon, whether its file can be read or not. -/
theorem Project.colon_not_mem_functionName (p : Project) (file : String) (line : Int) (nodeType : Json) :
    ':' ∉ (p.functionName file line nodeType).toList := by
  rw [Project.functionName]
  split
  · rw [String.toList_ofList]
    exact BranchTally.colon_not_mem_functionName _ line nodeType
  · decide

end BranchTally
