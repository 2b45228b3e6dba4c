-- SUMMARY: What is left of a text without comments in front of a quote, and which comments there are, does not depend on a text behind it that has no marks of comments.
import Mathlib
import BranchTally.Proofs.Redaction.Comment

/-!
# Comments around a quote

The walk that removes comments may look to the end of the line at a mark in front of a quote: a `//` cuts
the line only if no line break follows, a `/*` only if a `*/` does. Of two texts that tell it the same it
keeps the same. The walk that reports comments passes over string content.
-/

namespace BranchTally

open Text

/-! ## Comments in front of a quote -/

theorem isLineTail_cons {c : Char} (hc : c ≠ '\n') (rest : Line) :
    isLineTail (c :: rest) = isLineTail rest := by
  rw [isLineTail]
  · exact fun heq _ => hc heq
  · exact hc

theorem isLineTail_append_congr {u rest rest' : Line} (hne : rest ≠ []) (hne' : rest' ≠ [])
    (h : isLineTail rest = isLineTail rest') : isLineTail (u ++ rest) = isLineTail (u ++ rest') := by
  induction u with
  | nil => exact h
  | cons c u ih =>
    by_cases hc : c = '\n'
    · have hbreak {more : Line} (hmore : more ≠ []) : isLineTail ('\n' :: more) = false := by
        cases more with
        | nil => exact absurd rfl hmore
        | cons d more => rfl
      rw [hc, List.cons_append, List.cons_append, hbreak (List.append_ne_nil_of_right_ne_nil _ hne),
        hbreak (List.append_ne_nil_of_right_ne_nil _ hne')]
    · rw [List.cons_append, List.cons_append, isLineTail_cons hc, isLineTail_cons hc, ih]

theorem closesBlock_append_congr {u rest rest' : Line} (hhead : rest.head? = rest'.head?)
    (h : closesBlock rest = closesBlock rest') : closesBlock (u ++ rest) = closesBlock (u ++ rest') := by
  induction u with
  | nil => exact h
  | cons c u ih =>
    have hnext : (u ++ rest).head? = (u ++ rest').head? := by
      cases u with
      | nil => exact hhead
      | cons d u => rfl
    by_cases hc : c = '\n'
    · rw [hc]
      rfl
    · rw [List.cons_append, List.cons_append, closesBlock_cons hc, closesBlock_cons hc, hnext, ih]

/-- The texts behind a quote tell nothing about the comments in front of it. -/
structure SameTail (g : Char) (rest rest' : Line) : Prop where
  noMark : g ≠ '/' ∧ g ≠ '*'
  closes : closesBlock (g :: rest) = closesBlock (g :: rest')
  ends : isLineTail (g :: rest) = isLineTail (g :: rest')
  breaks : (g :: rest).filter (· = '\n') = (g :: rest').filter (· = '\n')

/-- Without comments the two texts are the same, or they begin with the same part of `front` and the walk
that removes comments reaches the quote in the same state. -/
def StripAlike (g : Char) (rest rest' : Line) (inBlock : Bool) (front : Line) : Prop :=
  stripCommentsFrom inBlock (front ++ g :: rest) = stripCommentsFrom inBlock (front ++ g :: rest') ∨
    ∃ (left : Line) (state : Bool), left ⊆ front ∧
      stripCommentsFrom inBlock (front ++ g :: rest) = left ++ stripCommentsFrom state (g :: rest) ∧
      stripCommentsFrom inBlock (front ++ g :: rest') = left ++ stripCommentsFrom state (g :: rest')

/-- The walk goes on alike where it keeps the same characters of either text. -/
theorem StripAlike.step {g : Char} {rest rest' front more : Line} {inBlock state : Bool}
    (h : StripAlike g rest rest' state more) (kept : Line) (hkept : kept ⊆ front) (hmore : more ⊆ front)
    (hrest : stripCommentsFrom inBlock (front ++ g :: rest) =
      kept ++ stripCommentsFrom state (more ++ g :: rest))
    (hrest' : stripCommentsFrom inBlock (front ++ g :: rest') =
      kept ++ stripCommentsFrom state (more ++ g :: rest')) :
    StripAlike g rest rest' inBlock front := by
  rcases h with heq | ⟨left, reached, hleft, heq, heq'⟩
  · exact Or.inl (by rw [hrest, hrest', heq])
  · refine Or.inr ⟨kept ++ left, reached, List.append_subset.2 ⟨hkept, List.Subset.trans hleft hmore⟩, ?_, ?_⟩
    · rw [hrest, heq, List.append_assoc]
    · rw [hrest', heq', List.append_assoc]

section

variable {g : Char} {rest rest' : Line} (h : SameTail g rest rest')

include h

/-- Two slashes cut either text or neither. -/
theorem SameTail.stripAlike_slashes {more : Line} (hmore : StripAlike g rest rest' false ('/' :: more)) :
    StripAlike g rest rest' false ('/' :: '/' :: more) := by
  have hends : isLineTail (more ++ g :: rest) = isLineTail (more ++ g :: rest') :=
    isLineTail_append_congr (List.cons_ne_nil _ _) (List.cons_ne_nil _ _) h.ends
  have hmark (r : Line) : stripCommentsFrom false ('/' :: '/' :: (more ++ g :: r)) =
      if isLineTail (more ++ g :: r) then (more ++ g :: r).filter (· = '\n')
      else '/' :: stripCommentsFrom false ('/' :: (more ++ g :: r)) := by
    rw [stripCommentsFrom]
  have hrest := hmark rest
  have hrest' := hmark rest'
  rw [← hends] at hrest'
  cases htail : isLineTail (more ++ g :: rest) with
  | true =>
    rw [htail, if_pos rfl, List.filter_append] at hrest hrest'
    rw [← h.breaks] at hrest'
    exact Or.inl (hrest.trans hrest'.symm)
  | false =>
    rw [htail, if_neg Bool.false_ne_true] at hrest hrest'
    exact hmore.step ['/'] (by simp) (List.subset_cons_self _ _) hrest hrest'

/-- A block comment opens in either text or in neither. -/
theorem SameTail.stripAlike_block {more : Line} (hinside : StripAlike g rest rest' true more)
    (hmore : StripAlike g rest rest' false ('*' :: more)) :
    StripAlike g rest rest' false ('/' :: '*' :: more) := by
  have hcloses : closesBlock (more ++ g :: rest) = closesBlock (more ++ g :: rest') :=
    closesBlock_append_congr rfl h.closes
  have hmark (r : Line) : stripCommentsFrom false ('/' :: '*' :: (more ++ g :: r)) =
      if closesBlock (more ++ g :: r) then stripCommentsFrom true (more ++ g :: r)
      else '/' :: stripCommentsFrom false ('*' :: (more ++ g :: r)) := by
    rw [stripCommentsFrom]
  have hrest := hmark rest
  have hrest' := hmark rest'
  rw [← hcloses] at hrest'
  cases hblock : closesBlock (more ++ g :: rest) with
  | true =>
    rw [hblock, if_pos rfl] at hrest hrest'
    exact hinside.step [] (List.nil_subset _)
      (List.Subset.trans (List.subset_cons_self _ _) (List.subset_cons_self _ _)) hrest hrest'
  | false =>
    rw [hblock, if_neg Bool.false_ne_true] at hrest hrest'
    exact hmore.step ['/'] (by simp) (List.subset_cons_self _ _) hrest hrest'

/-- The walk goes on alike up to the quote. -/
theorem SameTail.stripAlike (inBlock : Bool) (front : Line) : StripAlike g rest rest' inBlock front := by
  -- a mark takes two characters, so the induction is on the length of the front
  induction hn : front.length using Nat.strong_induction_on generalizing front inBlock with
  | _ n ih =>
  cases front with
  | nil => exact Or.inr ⟨[], inBlock, List.Subset.refl _, rfl, rfl⟩
  | cons c more =>
    have hsub : more ⊆ c :: more := List.subset_cons_self c more
    have hmore (inBlock : Bool) : StripAlike g rest rest' inBlock more :=
      ih more.length (by rw [← hn, List.length_cons]; omega) inBlock more rfl
    have hnext (r : Line) : (more ++ g :: r).head? = (more ++ [g]).head? := by
      cases more <;> rfl
    have hmark {d : Char} (hd : (more ++ [g]).head? = some d) (hg : g ≠ d) :
        ∃ behind, more = d :: behind ∧ ∀ inBlock, StripAlike g rest rest' inBlock behind := by
      cases more with
      | nil => exact absurd (Option.some.inj hd) hg
      | cons e behind =>
        refine ⟨behind, by rw [Option.some.inj hd], fun inBlock => ih behind.length ?_ inBlock behind rfl⟩
        simp only [← hn, List.length_cons]
        omega
    cases inBlock with
    | false =>
      by_cases hline : c = '/' ∧ (more ++ [g]).head? = some '/'
      · obtain ⟨behind, rfl, -⟩ := hmark hline.2 h.noMark.1
        exact hline.1 ▸ h.stripAlike_slashes (hmore false)
      · by_cases hblock : c = '/' ∧ (more ++ [g]).head? = some '*'
        · obtain ⟨behind, rfl, hbehind⟩ := hmark hblock.2 h.noMark.2
          exact hblock.1 ▸ h.stripAlike_block (hbehind true) (hmore false)
        · have hcode (r : Line) : stripCommentsFrom false (c :: (more ++ g :: r)) =
              c :: stripCommentsFrom false (more ++ g :: r) :=
            stripCommentsFrom_code fun hc => by
              rw [hnext]
              exact ⟨fun hd => hline ⟨hc, hd⟩, fun hd => hblock ⟨hc, hd⟩⟩
          exact (hmore false).step [c] (by simp) hsub (hcode rest) (hcode rest')
    | true =>
      by_cases hclose : c = '*' ∧ (more ++ [g]).head? = some '/'
      · obtain ⟨behind, rfl, hbehind⟩ := hmark hclose.2 h.noMark.1
        obtain rfl := hclose.1
        exact (hbehind false).step [] (List.nil_subset _)
          (List.Subset.trans (List.subset_cons_self _ _) hsub) rfl rfl
      · have hinside (r : Line) : stripCommentsFrom true (c :: (more ++ g :: r)) =
            stripCommentsFrom true (more ++ g :: r) :=
          stripCommentsFrom_inside fun hc => by
            rw [hnext]
            exact fun hd => hclose ⟨hc, hd⟩
        exact (hmore true).step [] (List.nil_subset _) hsub (hinside rest) (hinside rest')

end

/-! ## Texts without marks of comments -/

theorem closesBlock_append_of_not_mem {u : Line} (hstar : '*' ∉ u) (hbreak : '\n' ∉ u) (rest : Line) :
    closesBlock (u ++ rest) = closesBlock rest := by
  induction u with
  | nil => rfl
  | cons c u ih =>
    obtain ⟨hc, hu⟩ := not_or.1 (List.mem_cons.not.1 hstar)
    obtain ⟨hc', hu'⟩ := not_or.1 (List.mem_cons.not.1 hbreak)
    rw [List.cons_append, closesBlock_cons (Ne.symm hc'), ih hu hu', decide_eq_false fun h => hc h.1.symm,
      Bool.false_or]

theorem isLineTail_append_of_not_mem {u : Line} (hbreak : '\n' ∉ u) (rest : Line) :
    isLineTail (u ++ rest) = isLineTail rest := by
  induction u with
  | nil => rfl
  | cons c u ih =>
    obtain ⟨hc, hu⟩ := not_or.1 (List.mem_cons.not.1 hbreak)
    rw [List.cons_append, isLineTail_cons (Ne.symm hc), ih hu]

/-- Inside a block nothing is left of a text without stars. -/
theorem stripCommentsFrom_inside_append {u : Line} (hstar : '*' ∉ u) (rest : Line) :
    stripCommentsFrom true (u ++ rest) = stripCommentsFrom true rest := by
  induction u with
  | nil => rfl
  | cons c u ih =>
    obtain ⟨hc, hu⟩ := not_or.1 (List.mem_cons.not.1 hstar)
    rw [List.cons_append, stripCommentsFrom_inside fun h => absurd h.symm hc, ih hu]

/-- In code all is left of a text without marks of comments, up to a character that is part of none. -/
theorem stripCommentsFrom_code_append {g : Char} (hg : g ≠ '/' ∧ g ≠ '*') {u : Line} (hstar : '*' ∉ u)
    (hslashes : u.IsChain fun a b => ¬ (a = '/' ∧ b = '/')) (rest : Line) :
    stripCommentsFrom false (u ++ g :: rest) = u ++ g :: stripCommentsFrom false rest := by
  induction u with
  | nil => exact stripCommentsFrom_code fun hc => absurd hc hg.1
  | cons c u ih =>
    have hu : '*' ∉ u := fun hmem => hstar (List.mem_cons_of_mem c hmem)
    rw [List.cons_append, stripCommentsFrom_code, ih hu hslashes.tail, List.cons_append]
    intro hc
    cases u with
    | nil => exact ⟨fun hd => hg.1 (Option.some.inj hd), fun hd => hg.2 (Option.some.inj hd)⟩
    | cons d u =>
      have hd := (List.isChain_cons_cons.1 hslashes).1
      exact ⟨fun heq => hd ⟨hc, Option.some.inj heq⟩, fun heq =>
        hu (Option.some.inj heq ▸ List.mem_cons_self)⟩

/-! ## Comments behind strings -/

/-- Masked characters that are no stars open and close no comment. -/
theorem commentSpansFrom_masked_append {hidden : List (Char × Bool)}
    (h : ∀ x ∈ hidden, x.2 = true ∧ x.1 ≠ '*') (skip : Nat) (opened : Option Nat) (pos : Nat)
    (tail : List (Char × Bool)) : commentSpansFrom skip opened pos (hidden ++ tail) =
      commentSpansFrom (skip - hidden.length) opened (pos + hidden.length) tail := by
  induction hidden generalizing skip pos with
  | nil => rfl
  | cons x hidden ih =>
    obtain ⟨hmasked, hstar⟩ := h x List.mem_cons_self
    have hrest := ih fun y hy => h y (List.mem_cons_of_mem x hy)
    have hlength : pos + (x :: hidden).length = pos + 1 + hidden.length := by
      rw [List.length_cons]
      omega
    rw [hlength, List.cons_append, List.length_cons]
    cases skip with
    | succ skip => cases opened <;> simp only [commentSpansFrom, hrest, Nat.add_sub_add_right]
    | zero =>
      cases opened <;>
        simp only [commentSpansFrom, hmasked, hstar, hrest, Nat.zero_sub, decide_false, Bool.not_true,
          Bool.and_false, Bool.false_and, Bool.false_eq_true, if_false]

/-- Texts of one length with the same comments have the same behind any front. -/
theorem commentSpansFrom_append_congr {g : Char} (hg : g ≠ '/' ∧ g ≠ '*') {mark : Bool}
    {rest rest' : List (Char × Bool)} (hlength : rest.length = rest'.length)
    (h : ∀ skip opened pos,
      commentSpansFrom skip opened pos rest = commentSpansFrom skip opened pos rest')
    (front : List (Char × Bool)) (skip : Nat) (opened : Option Nat) (pos : Nat) :
    commentSpansFrom skip opened pos (front ++ (g, mark) :: rest) =
      commentSpansFrom skip opened pos (front ++ (g, mark) :: rest') := by
  induction front generalizing skip opened pos with
  | nil =>
    cases skip with
    | succ skip => cases opened <;> simp only [List.nil_append, commentSpansFrom, h]
    | zero =>
      cases opened <;>
        simp only [List.nil_append, commentSpansFrom, hg.1, hg.2, h, decide_false, Bool.false_and,
          Bool.false_eq_true, if_false]
  | cons x front ih =>
    have hnext : (front ++ (g, mark) :: rest).head? = (front ++ (g, mark) :: rest').head? := by
      cases front <;> rfl
    have hmore : (front ++ (g, mark) :: rest).length = (front ++ (g, mark) :: rest').length := by
      simp only [List.length_append, List.length_cons, hlength]
    cases skip with
    | succ skip => cases opened <;> simp only [List.cons_append, commentSpansFrom, ih]
    | zero => cases opened <;> simp only [List.cons_append, commentSpansFrom, hnext, hmore, ih]

end BranchTally
