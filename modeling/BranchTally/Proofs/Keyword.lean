-- SUMMARY: A keyword form finds headers only where its keyword stands as a word of its own, and text without the word is passed over.
import Mathlib
import BranchTally.Line.Header
import BranchTally.Proofs.Layout

/-!
# Keywords in a text

A keyword stands at a place where a word may begin, with a blank, a parenthesis or a brace behind it. A
form of the keyword fits nowhere else, so a search for headers goes through text without the keyword.
-/

namespace BranchTally

open Text

/-! ## Words of their own -/

/-- A character that may stand right behind a keyword. -/
def endsKeyword (c : Char) : Bool := isBlank c || c = '(' || c = '{'

/-- The text begins with the keyword as a word of its own. -/
def opensKeyword (word : Line) (before : Option Char) (text : Line) : Bool :=
  mayOpenKeyword before && (literal? word text).any fun rest => rest.head?.any endsKeyword

/-- The keyword stands somewhere in a text that begins after the character `before`. -/
def hasKeyword (word : Line) (before : Option Char) : Line → Bool
  | [] => false
  | c :: rest => opensKeyword word before (c :: rest) || hasKeyword word (some c) rest

theorem opensKeyword_iff {word text : Line} {before : Option Char} :
    opensKeyword word before text = true ↔
      mayOpenKeyword before = true ∧ ∃ c rest, text = word ++ c :: rest ∧ endsKeyword c = true := by
  rw [opensKeyword, Bool.and_eq_true, Option.any_eq_true]
  refine and_congr_right fun _ => ⟨?_, ?_⟩
  · rintro ⟨rest, hrest, hend⟩
    obtain ⟨c, hc, hend⟩ := (Option.any_eq_true _ _).1 hend
    obtain ⟨rest, rfl⟩ := List.head?_eq_some_iff.1 hc
    exact ⟨c, rest, literal?_eq_some_iff.1 hrest, hend⟩
  · rintro ⟨c, rest, rfl, hend⟩
    exact ⟨c :: rest, literal?_eq_some_iff.2 rfl, by simpa using hend⟩

section

variable {word : Line} {before : Option Char}

theorem opensKeyword_append {text : Line} (h : opensKeyword word before text = true) (rest : Line) :
    opensKeyword word before (text ++ rest) = true := by
  obtain ⟨hbefore, c, tail, rfl, hend⟩ := opensKeyword_iff.1 h
  exact opensKeyword_iff.2 ⟨hbefore, c, tail ++ rest, by simp, hend⟩

/-- A character that neither belongs to the keyword nor may stand behind it cuts a text in two. -/
theorem opensKeyword_append_cons {g : Char} (hg : g ∉ word) (hend : endsKeyword g = false)
    (text rest : Line) :
    opensKeyword word before (text ++ g :: rest) = opensKeyword word before text := by
  rw [Bool.eq_iff_iff]
  refine ⟨fun h => ?_, fun h => opensKeyword_append h _⟩
  obtain ⟨hbefore, c, tail, heq, hc⟩ := opensKeyword_iff.1 h
  have hne : g ≠ c := by
    rintro rfl
    exact Bool.false_ne_true (hend.symm.trans hc)
  refine opensKeyword_iff.2 ⟨hbefore, c, ?_⟩
  rcases List.append_eq_append_iff.1 heq with ⟨more, hword, hmore⟩ | ⟨more, htext, hmore⟩
  · cases more with
    | nil => exact absurd (List.cons.inj hmore).1 hne
    | cons d more =>
      obtain ⟨rfl, -⟩ := List.cons.inj hmore
      exact absurd (hword ▸ List.mem_append_right _ List.mem_cons_self) hg
  · cases more with
    | nil => exact absurd (List.cons.inj hmore).1.symm hne
    | cons d more =>
      obtain ⟨rfl, -⟩ := List.cons.inj hmore
      exact ⟨more, htext, hc⟩

theorem hasKeyword_append_cons {g : Char} (hg : g ∉ word) (hend : endsKeyword g = false)
    (text rest : Line) :
    hasKeyword word before (text ++ g :: rest) =
      (hasKeyword word before text || hasKeyword word (some g) rest) := by
  induction text generalizing before with
  | nil =>
    have hnone := @opensKeyword_append_cons word before g hg hend [] rest
    have hempty : opensKeyword word before [] = false := by
      rw [Bool.eq_false_iff, Ne, opensKeyword_iff]
      simp
    rw [List.nil_append, hempty] at hnone
    simp [hasKeyword, hnone]
  | cons c text ih =>
    have hfirst := @opensKeyword_append_cons word before g hg hend (c :: text) rest
    rw [List.cons_append] at hfirst ⊢
    rw [hasKeyword, hasKeyword, hfirst, ih, Bool.or_assoc]

theorem hasKeyword_of_append {text rest : Line} (h : hasKeyword word before (text ++ rest) = false) :
    hasKeyword word before text = false := by
  induction text generalizing before with
  | nil => rfl
  | cons c text ih =>
    rw [List.cons_append, hasKeyword, Bool.or_eq_false_iff] at h
    have hfirst : opensKeyword word before (c :: text) = false :=
      Bool.eq_false_iff.2 fun hopens =>
        Bool.false_ne_true (h.1.symm.trans (opensKeyword_append hopens rest))
    rw [hasKeyword, hfirst, ih h.2]
    rfl

theorem hasKeyword_of_append_cons {text rest : Line} {g : Char}
    (h : hasKeyword word before (text ++ g :: rest) = false) : hasKeyword word (some g) rest = false := by
  induction text generalizing before with
  | nil => exact (Bool.or_eq_false_iff.1 h).2
  | cons c text ih => exact ih (Bool.or_eq_false_iff.1 h).2

/-- The character in front of a text matters only for whether a keyword may begin. -/
theorem hasKeyword_congr {other : Option Char} (h : mayOpenKeyword before = mayOpenKeyword other)
    (text : Line) : hasKeyword word before text = hasKeyword word other text := by
  cases text with
  | nil => rfl
  | cons c text => rw [hasKeyword, hasKeyword, opensKeyword, opensKeyword, h]

/-- A keyword may begin behind a blank. -/
theorem mayOpenKeyword_of_isBlank {c : Char} (h : isBlank c = true) : mayOpenKeyword (some c) = true := by
  have hdot : c ≠ '.' := by
    rintro rfl
    revert h
    decide
  have hdollar : c ≠ '$' := by
    rintro rfl
    revert h
    decide
  simp [mayOpenKeyword, atWordStart, isWord_of_isBlank h, hdot, hdollar]

theorem hasKeyword_of_blanks_append {gap text : Line} (hgap : ∀ c ∈ gap, isBlank c = true)
    (hbefore : mayOpenKeyword before = true) (h : hasKeyword word before (gap ++ text) = false) :
    hasKeyword word none text = false := by
  have hnone : mayOpenKeyword none = true := by decide
  rcases List.eq_nil_or_concat gap with rfl | ⟨front, c, rfl⟩
  · rwa [List.nil_append, hasKeyword_congr (hbefore.trans hnone.symm)] at h
  · rw [List.concat_eq_append] at hgap h
    have hblank := mayOpenKeyword_of_isBlank (hgap c (by simp))
    rw [List.append_assoc, List.singleton_append] at h
    rw [← hasKeyword_congr (hblank.trans hnone.symm)]
    exact hasKeyword_of_append_cons h

/-- No keyword is found where none can end. -/
theorem hasKeyword_of_forall_not_endsKeyword {text : Line} (h : ∀ c ∈ text, endsKeyword c = false) :
    hasKeyword word before text = false := by
  induction text generalizing before with
  | nil => rfl
  | cons c text ih =>
    have hfirst : opensKeyword word before (c :: text) = false := by
      rw [Bool.eq_false_iff]
      intro hopens
      obtain ⟨-, d, rest, heq, hd⟩ := opensKeyword_iff.1 hopens
      have hmem : d ∈ c :: text := heq ▸ List.mem_append_right _ List.mem_cons_self
      exact Bool.false_ne_true ((h d hmem).symm.trans hd)
    rw [hasKeyword, hfirst, ih fun d hd => h d (List.mem_cons_of_mem _ hd)]
    rfl

theorem endsKeyword_of_isNameChar {c : Char} (h : isNameChar c = true) : endsKeyword c = false := by
  have hparen : c ≠ '(' := ne_of_isNameChar h (by decide)
  have hbrace : c ≠ '{' := ne_of_isNameChar h (by decide)
  simp [endsKeyword, isBlank_of_isNameChar h, hparen, hbrace]

/-- No keyword ends inside a name, nor at its end where no keyword may end. -/
theorem hasKeyword_name_append (name : Identifier) {g : Char} (hg : g ∉ word)
    (hend : endsKeyword g = false) (rest : Line) :
    hasKeyword word before (name.text ++ g :: rest) = hasKeyword word (some g) rest := by
  rw [hasKeyword_append_cons hg hend, hasKeyword_of_forall_not_endsKeyword fun c hc =>
    endsKeyword_of_isNameChar (name.nameChars c hc), Bool.false_or]

end

/-! ## Lines of a text -/

/-- A text without the keyword has none on any of its lines, each taken with its line break. -/
theorem hasKeyword_lines {word last : Line} {front : List Line}
    (h : hasKeyword word none (front.flatMap (· ++ ['\n']) ++ last) = false) :
    (∀ line ∈ front, hasKeyword word none (line ++ ['\n']) = false) ∧
      hasKeyword word none last = false := by
  induction front with
  | nil => exact ⟨by simp, h⟩
  | cons line front ih =>
    rw [List.flatMap_cons, List.append_assoc, List.append_assoc, List.singleton_append] at h
    have hbreak : mayOpenKeyword (some '\n') = mayOpenKeyword none := by decide
    obtain ⟨hfront, hlast⟩ := ih (hasKeyword_congr hbreak _ ▸ hasKeyword_of_append_cons h)
    refine ⟨?_, hlast⟩
    intro other hother
    rcases List.mem_cons.1 hother with rfl | hother
    · exact hasKeyword_of_append (by rwa [List.append_assoc, List.singleton_append])
    · exact hfront other hother

/-- A line keeps its want of the keyword when it gives up its carriage returns. -/
theorem hasKeyword_dropReturns {word raw : Line} {before : Option Char}
    (h : hasKeyword word before (raw ++ ['\n']) = false) :
    ∃ c, endsKeyword c = true ∧ hasKeyword word before (dropReturns raw ++ [c]) = false := by
  obtain ⟨returns, hraw, hreturns⟩ := exists_eq_dropReturns_append raw
  cases returns with
  | nil =>
    rw [List.append_nil] at hraw
    exact ⟨'\n', by decide, hraw ▸ h⟩
  | cons c returns =>
    refine ⟨c, by rw [hreturns c List.mem_cons_self]; decide, ?_⟩
    rw [hraw, List.append_assoc, List.cons_append, ← List.singleton_append, ← List.append_assoc] at h
    exact hasKeyword_of_append h

/-! ## Forms and their keywords -/

/-- Where the form fits, on a line with a blank behind it, its keyword stands. -/
def KeywordForm.Reads (form : KeywordForm) (word : Line) : Prop :=
  ∀ {before : Option Char} {text : Line} {tail : HeaderTail} {c : Char},
    form before text = some tail → endsKeyword c = true →
      opensKeyword word before (text ++ [c]) = true

theorem opensKeyword_of_literal? {word text rest : Line} {before : Option Char} {c : Char}
    (hbefore : mayOpenKeyword before = true) (hrest : literal? word text = some rest)
    (hhead : ∀ d ∈ rest.head?, endsKeyword d = true) (hc : endsKeyword c = true) :
    opensKeyword word before (text ++ [c]) = true := by
  rw [opensKeyword_iff, literal?_eq_some_iff.1 hrest, List.append_assoc]
  refine ⟨hbefore, ?_⟩
  cases rest with
  | nil => exact ⟨c, [], rfl, hc⟩
  | cons d rest => exact ⟨d, rest ++ [c], rfl, hhead d rfl⟩

/-- The first character of a text is a blank or the one that is read behind its blanks. -/
theorem endsKeyword_of_skipBlanks {rest tail : Line} {c : Char} (h : skipBlanks rest = c :: tail)
    (hc : endsKeyword c = true) : ∀ d ∈ rest.head?, endsKeyword d = true := by
  intro d hd
  obtain ⟨more, rfl⟩ := List.head?_eq_some_iff.1 hd
  cases hblank : isBlank d with
  | true => simp [endsKeyword, hblank]
  | false =>
    rw [skipBlanks_cons_of_not_isBlank hblank] at h
    exact (List.cons.inj h).1 ▸ hc

theorem parenForm_reads (word : Line) : (parenForm word).Reads word := by
  intro before text tail c h hc
  unfold parenForm at h
  split at h
  · next hbefore =>
    obtain ⟨rest, hrest, -⟩ := Option.map_eq_some_iff.1 h
    obtain ⟨rest', hword, hparen⟩ := Option.bind_eq_some_iff.1 hrest
    exact opensKeyword_of_literal? hbefore hword
      (endsKeyword_of_skipBlanks (char?_eq_some_iff.1 hparen) (by decide)) hc
  · simp at h

theorem whileForm_reads : whileForm.Reads ['w', 'h', 'i', 'l', 'e'] := parenForm_reads _

theorem doForm_reads : doForm.Reads ['d', 'o'] := by
  intro before text tail c h hc
  unfold doForm at h
  split at h
  · next hbefore =>
    split at h
    · simp at h
    · next rest hword =>
      refine opensKeyword_of_literal? hbefore hword ?_ hc
      split at h
      · next hblank =>
        intro d hd
        simp [endsKeyword, blank_of_skipBlanks_eq_nil hblank d (List.mem_of_mem_head? hd)]
      · next brace rest' hskip =>
        split at h
        · next hbrace => exact endsKeyword_of_skipBlanks hskip (by simp [endsKeyword, hbrace])
        · simp at h
  · simp at h

section

variable {form : KeywordForm} {word : Line} (hform : form.Reads word)

include hform

/-- A line without the keyword has no header of the form. -/
theorem KeywordForm.Reads.headersFrom_eq_nil {line : Line} {before : Option Char} {c : Char}
    (hc : endsKeyword c = true) (h : hasKeyword word before (line ++ [c]) = false) (pos : Nat) :
    headersFrom form before pos line = [] := by
  induction line generalizing before pos with
  | nil => rfl
  | cons d line ih =>
    rw [List.cons_append, hasKeyword, Bool.or_eq_false_iff] at h
    have hnone : form before (d :: line) = none := by
      rw [Option.eq_none_iff_forall_ne_some]
      intro tail htail
      exact Bool.false_ne_true (h.1.symm.trans (hform htail hc))
    rw [headersFrom, hnone]
    exact ih h.2 (pos + 1)

/-- The search for headers goes through text without the keyword up to a character that cuts. -/
theorem KeywordForm.Reads.headersFrom_append_cons {text : Line} {before : Option Char} {g : Char}
    (hg : g ∉ word) (hend : endsKeyword g = false) (h : hasKeyword word before text = false)
    (pos : Nat) (rest : Line) :
    headersFrom form before pos (text ++ g :: rest) =
      headersFrom form (text.getLast?.or before) (pos + text.length) (g :: rest) := by
  induction text generalizing before pos with
  | nil => rfl
  | cons c text ih =>
    rw [hasKeyword, Bool.or_eq_false_iff] at h
    have hnone : form before (c :: (text ++ g :: rest)) = none := by
      rw [Option.eq_none_iff_forall_ne_some]
      intro tail htail
      have hopens := hform htail (by decide : endsKeyword ' ' = true)
      have hcut := @opensKeyword_append_cons word before g hg hend (c :: text) (rest ++ [' '])
      rw [List.cons_append, List.append_assoc, List.cons_append, ← List.cons_append, hcut, h.1] at hopens
      exact Bool.false_ne_true hopens
    have hlast : (c :: text).getLast?.or before = text.getLast?.or (some c) := by
      rw [List.getLast?_cons]
      cases text.getLast? <;> rfl
    rw [List.cons_append, headersFrom, hnone, hlast, List.length_cons,
      show pos + (text.length + 1) = pos + 1 + text.length by omega]
    exact ih h.2 (pos + 1)

end

end BranchTally
