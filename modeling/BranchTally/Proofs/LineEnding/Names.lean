-- SUMMARY: The display name of a function is read from its lines as if these had no carriage returns at their ends.
import BranchTally.Proofs.FunctionName
import BranchTally.Proofs.LineEnding.Patterns

/-!
# Names and line endings

Which declaration is the last one in a text is decided by positions. Without the carriage returns the
positions are smaller, but no piece begins with a return, so the pieces stay in their order.
-/

namespace BranchTally

open Text NamePattern

/-! ## First pieces -/

theorem firstName?_erase {p : NamePattern} (hp : SteadyWord p) {s : List Char} (hs : Loose s) :
    firstName? p (eraseReturns s) = firstName? p s := by
  induction s with
  | nil => rfl
  | cons c s ih =>
    by_cases hc : c = '\r'
    · subst hc
      simp only [eraseReturns_return, ih hs.tail, firstName?, hp.blank _ s isBlank_return]
    · have herase := hp.erase _ hs
      rw [eraseReturns_cons hc] at herase
      rw [eraseReturns_cons hc]
      simp only [firstName?, herase, ih hs.tail]
      cases p (c :: s) <;> rfl

theorem findSome?_firstName?_erase {patterns : List NamePattern} (h : ∀ p ∈ patterns, SteadyWord p)
    {s : List Char} (hs : Loose s) :
    patterns.findSome? (firstName? · (eraseReturns s)) = patterns.findSome? (firstName? · s) := by
  induction patterns with
  | nil => rfl
  | cons p patterns ih =>
    obtain ⟨hp, hpatterns⟩ := List.forall_mem_cons.1 h
    rw [List.findSome?_cons, List.findSome?_cons, firstName?_erase hp hs, ih hpatterns]

/-! ## Last pieces -/

/-- The place that a position has once the carriage returns in front of it are gone. -/
def placeOf (text : List Char) (i : Nat) : Nat := (eraseReturns (text.take i)).length

/-- The piece at its new place. -/
def movePiece (text : List Char) (x : Nat × List Char) : Nat × List Char := (placeOf text x.1, x.2)

/-- Some character stands at the position that is no carriage return. -/
def Marks (text : List Char) (i : Nat) : Prop := ∃ c, text[i]? = some c ∧ c ≠ '\r'

theorem placeOf_lt_iff {text : List Char} {i j : Nat} (hi : Marks text i) :
    placeOf text i < placeOf text j ↔ i < j := by
  have hmono {i j : Nat} (h : i ≤ j) : placeOf text i ≤ placeOf text j :=
    ((List.take_prefix_take_left h).filter _).length_le
  constructor
  · intro hlt
    by_contra hle
    exact absurd (hmono (not_lt.1 hle)) (not_le.2 hlt)
  · intro hlt
    obtain ⟨c, hget, hc⟩ := hi
    have hnext : placeOf text (i + 1) = placeOf text i + 1 := by
      rw [placeOf, List.take_add_one, hget, eraseReturns_append, Option.toList_some,
        eraseReturns_cons hc, List.length_append]
      rfl
    have hle : placeOf text (i + 1) ≤ placeOf text j := hmono hlt
    omega

theorem laterName_move {text : List Char} {a b : Option (Nat × List Char)}
    (ha : ∀ x ∈ a, Marks text x.1) :
    laterName (a.map (movePiece text)) (b.map (movePiece text)) =
      (laterName a b).map (movePiece text) := by
  cases a with
  | none => cases b <;> rfl
  | some x =>
    cases b with
    | none => rfl
    | some y =>
      simp only [Option.map_some, laterName, movePiece, placeOf_lt_iff (ha x rfl)]
      split <;> rfl

section

variable {p : NamePattern} (hp : SteadyWord p)

include hp

/-- A piece begins with a character that is no carriage return. -/
theorem marks_of_lastNameFrom {text front s : List Char} (htext : front ++ s = text) {skip : Nat}
    {last : Option (Nat × List Char)} (hlast : ∀ x ∈ last, Marks text x.1) :
    ∀ x ∈ lastNameFrom p skip front.length last s, Marks text x.1 := by
  induction s generalizing front skip last with
  | nil => simpa [lastNameFrom] using hlast
  | cons c s ih =>
    have hrest : (front ++ [c]) ++ s = text := by rw [List.append_assoc, List.singleton_append, htext]
    have hnext {skip : Nat} {last : Option (Nat × List Char)} (hlast : ∀ x ∈ last, Marks text x.1) :
        ∀ x ∈ lastNameFrom p skip (front.length + 1) last s, Marks text x.1 := by
      have hrest := @ih (front ++ [c]) hrest skip last hlast
      rwa [List.length_append] at hrest
    cases skip with
    | succ skip => exact hnext hlast
    | zero =>
      cases hpiece : p (c :: s) with
      | none =>
        rw [lastNameFrom_of_none hpiece]
        exact hnext hlast
      | some piece =>
        rw [lastNameFrom_of_some hpiece]
        refine hnext fun x hx => ?_
        obtain rfl := Option.mem_some_iff.1 hx
        refine ⟨c, by rw [← htext]; simp, ?_⟩
        rintro rfl
        simp [hp.blank _ s isBlank_return] at hpiece

theorem lastNameFrom_erase {text front s : List Char} (htext : front ++ s = text) (hs : Loose s)
    (skip : Nat) (last : Option (Nat × List Char)) :
    lastNameFrom p (eraseReturns (s.take skip)).length (eraseReturns front).length
        (last.map (movePiece text)) (eraseReturns s) =
      (lastNameFrom p skip front.length last s).map (movePiece text) := by
  induction s generalizing front skip last with
  | nil => simp [lastNameFrom]
  | cons c s ih =>
    have hrest : (front ++ [c]) ++ s = text := by rw [List.append_assoc, List.singleton_append, htext]
    have hnext := ih hrest hs.tail
    rw [eraseReturns_append, List.length_append, List.length_append, List.length_singleton] at hnext
    by_cases hc : c = '\r'
    · -- no piece begins at the return, and no place is counted for it
      subst hc
      cases skip with
      | succ skip => exact hnext skip last
      | zero =>
        rw [lastNameFrom_of_none (hp.blank _ s isBlank_return)]
        exact hnext 0 last
    · rw [eraseReturns_cons hc, eraseReturns_nil, List.length_singleton] at hnext
      cases skip with
      | succ skip =>
        rw [List.take_succ_cons, eraseReturns_cons hc, eraseReturns_cons hc]
        exact hnext skip last
      | zero =>
        have herase := hp.erase _ hs
        rw [eraseReturns_cons hc] at herase
        rw [List.take_zero, eraseReturns_nil, List.length_nil, eraseReturns_cons hc]
        cases hpiece : p (c :: s) with
        | none =>
          rw [hpiece] at herase
          rw [lastNameFrom_of_none herase, lastNameFrom_of_none hpiece]
          exact hnext 0 last
        | some piece =>
          obtain ⟨name, tail⟩ := piece
          rw [hpiece] at herase
          rw [lastNameFrom_of_some herase, lastNameFrom_of_some hpiece]
          have hplace : placeOf text front.length = (eraseReturns front).length := by
            rw [placeOf, ← htext, List.take_left]
          have hskip : (eraseReturns s).length - (eraseReturns tail).length =
              (eraseReturns (s.take (s.length - tail.length))).length := by
            rcases List.suffix_cons_iff.1 (hp.suffix _ _ hpiece) with htail | ⟨piece, hpiece⟩
            · obtain rfl : tail = c :: s := htail
              rw [eraseReturns_cons hc]
              simp
            · rw [← hpiece]
              simp
          rw [hskip, ← hplace]
          rw [← hplace] at hnext
          exact hnext _ (some (front.length, name))

end

/-- The nearest of several kinds of declarations is the same piece, at its new place. -/
theorem lastDeclaration_erase {text : List Char} (htext : Loose text) {patterns : List NamePattern}
    (hpatterns : ∀ p ∈ patterns, SteadyWord p) {last : Option (Nat × List Char)}
    (hlast : ∀ x ∈ last, Marks text x.1) :
    patterns.foldl (fun last p => laterName last (lastNameFrom p 0 0 none (eraseReturns text)))
        (last.map (movePiece text)) =
      (patterns.foldl (fun last p => laterName last (lastNameFrom p 0 0 none text)) last).map
        (movePiece text) := by
  induction patterns generalizing last with
  | nil => rfl
  | cons p patterns ih =>
    obtain ⟨hp, hpatterns⟩ := List.forall_mem_cons.1 hpatterns
    have hfound : ∀ x ∈ lastNameFrom p 0 0 none text, Marks text x.1 :=
      marks_of_lastNameFrom hp (List.nil_append text) (by simp)
    have hlater : ∀ x ∈ laterName last (lastNameFrom p 0 0 none text), Marks text x.1 := fun x hx =>
      (mem_of_mem_laterName hx).elim (hlast x) (hfound x)
    have herase : lastNameFrom p 0 0 none (eraseReturns text) =
        (lastNameFrom p 0 0 none text).map (movePiece text) :=
      lastNameFrom_erase hp (List.nil_append text) htext 0 none
    rw [List.foldl_cons, List.foldl_cons, herase, laterName_move hlast, ih hpatterns hlater]

/-! ## Lines -/

theorem joinLines_erase (lines : List Line) :
    joinLines (lines.map eraseReturns) = eraseReturns (joinLines lines) := by
  induction lines with
  | nil => rfl
  | cons line rest ih =>
    cases rest with
    | nil => rfl
    | cons next rest =>
      simp only [List.map_cons, joinLines] at ih ⊢
      rw [ih, eraseReturns_append, eraseReturns_cons (by decide)]

theorem loose_joinLines {lines : List Line} (h : ∀ line ∈ lines, Loose line) :
    Loose (joinLines lines) := by
  induction lines with
  | nil => exact .nil
  | cons line rest ih =>
    obtain ⟨hline, hrest⟩ := List.forall_mem_cons.1 h
    cases rest with
    | nil => exact hline
    | cons next rest =>
      exact hline.append ((ih hrest).cons (by decide)) fun d hd => Option.mem_some_iff.1 hd ▸ by decide

section

variable {lines : List Line} (h : ∀ line ∈ lines, Loose line)

theorem lineOrEmpty_erase (lines : List Line) (number : Int) :
    lineOrEmpty (lines.map eraseReturns) number = eraseReturns (lineOrEmpty lines number) := by
  rw [lineOrEmpty, lineOrEmpty, List.getElem?_map]
  split
  · cases lines[(number - 1).toNat]? <;> rfl
  · rfl

include h

theorem loose_lineOrEmpty (number : Int) : Loose (lineOrEmpty lines number) := by
  rw [lineOrEmpty]
  split
  · cases hline : lines[(number - 1).toNat]? with
    | none => exact .nil
    | some line => exact h line (List.mem_of_getElem? hline)
  · exact .nil

theorem declaredName?_erase (number : Int) :
    declaredName? (lines.map eraseReturns) number = declaredName? lines number := by
  rw [declaredName?, declaredName?]
  split
  · rfl
  · have hcontext : Loose (joinLines ((lines.take number.toNat).drop
        (number.toNat - declarationLookback))) :=
      loose_joinLines fun line hline => h line (List.mem_of_mem_take (List.mem_of_mem_drop hline))
    have hlast := lastDeclaration_erase hcontext steadyWord_of_mem_declarationPatterns
      fun x (hx : x ∈ none) => absurd hx (Option.not_mem_none x)
    rw [Option.map_none] at hlast
    simp only [← List.map_take, ← List.map_drop, joinLines_erase, hlast, Option.map_map]
    rfl

theorem arrowName_erase (number : Int) :
    arrowName (lines.map eraseReturns) number = arrowName lines number := by
  have hspace : Loose (' ' :: lineOrEmpty lines number) :=
    (loose_lineOrEmpty h number).cons (by decide)
  have hcontext : Loose (trim (lineOrEmpty lines (number - 1) ++ ' ' :: lineOrEmpty lines number)) :=
    ((loose_lineOrEmpty h _).append hspace fun d hd => Option.mem_some_iff.1 hd ▸ by decide).trim
  have herase : trim (eraseReturns (lineOrEmpty lines (number - 1)) ++
      ' ' :: eraseReturns (lineOrEmpty lines number)) =
      eraseReturns (trim (lineOrEmpty lines (number - 1) ++ ' ' :: lineOrEmpty lines number)) := by
    rw [← trim_erase, eraseReturns_append, eraseReturns_cons (by decide)]
  have hhosts := findSome?_firstName?_erase steadyWord_of_mem_hostPatterns hcontext
  simp only [arrowName, lineOrEmpty_erase, herase, firstName?_erase steadyWord_namedArrowPattern hcontext,
    hhosts, declaredName?_erase h]

/-- A name does not depend on carriage returns in front of blanks or at the end of lines. -/
theorem functionName_erase (number : Int) (nodeType : Json) :
    functionName (lines.map eraseReturns) number nodeType = functionName lines number nodeType := by
  rw [functionName, functionName, arrowName_erase h, declaredName?_erase h]

end

end BranchTally
