-- SUMMARY: No name of a printed condition reads as a keyword: what follows a name opens neither a condition nor a block.
import BranchTally.Proofs.Condition.Syntax
import BranchTally.Proofs.PlainLine

/-!
# Names in conditions

A keyword opens a header where a parenthesis or a brace comes next, and `do` also at the end of the
line. In a condition a name is followed by an operator, a closing parenthesis or the end of the line.
-/

namespace BranchTally

open Text

/-! ## Characters of printed lines -/

/-- A character that no token of a condition has. -/
theorem not_mem_conditionText {c : Char} (hname : isNameChar c = false) (hblank : isBlank c = false)
    (hsign : c ∉ ['!', '(', ')', '&', '|', '{']) (line : PrintedLine ConditionToken) :
    c ∉ line.text := by
  have hspace : ' ' ≠ c := by
    rintro rfl
    revert hblank
    decide
  simp only [List.mem_cons, List.not_mem_nil, or_false, not_or] at hsign
  obtain ⟨hbang, hopening, hclosing, hconj, hdisj, hbrace⟩ := hsign
  have htokens : ∀ t ∈ line.tokens, ∀ d ∈ Printable.text t, d ≠ c := by
    intro t _ d hd
    cases t with
    | word name => exact ne_of_isNameChar (name.nameChars d hd) hname
    | bang => exact (List.mem_singleton.1 hd) ▸ Ne.symm hbang
    | opening => exact (List.mem_singleton.1 hd) ▸ Ne.symm hopening
    | closing => exact (List.mem_singleton.1 hd) ▸ Ne.symm hclosing
    | logical op =>
      cases op
      · obtain rfl : d = '&' := by simpa [Printable.text, ConditionToken.text, Logical.token] using hd
        exact Ne.symm hconj
      · obtain rfl : d = '|' := by simpa [Printable.text, ConditionToken.text, Logical.token] using hd
        exact Ne.symm hdisj
    | final =>
      simp only [Printable.text, ConditionToken.text, List.mem_cons, List.not_mem_nil, or_false] at hd
      rcases hd with rfl | rfl | rfl
      · exact Ne.symm hclosing
      · exact hspace
      · exact Ne.symm hbrace
  have hgaps (gap : Gap) : ∀ d ∈ gap.text, d ≠ c := by
    rintro d hd rfl
    exact gap.not_mem hblank hd
  exact fun hmem => PrintedLine.forall_mem_text hgaps htokens c hmem rfl

theorem isPlain_conditionText (line : PrintedLine ConditionToken) : IsPlain line.text := by
  intro c hc
  cases hplain : isPlainChar c with
  | true => rfl
  | false =>
    have hspecial : c ∈ ['\\', '\'', '"', '\x60', '/', '?', '='] := by
      simp only [isPlainChar, isQuoting, Bool.not_eq_eq_eq_not, Bool.not_false, Bool.or_eq_true,
        decide_eq_true_eq, or_assoc] at hplain
      simpa only [List.mem_cons, List.not_mem_nil, or_false] using hplain
    have hforeign : ∀ d ∈ ['\\', '\'', '"', '\x60', '/', '?', '='],
        isNameChar d = false ∧ isBlank d = false ∧ d ∉ ['!', '(', ')', '&', '|', '{'] :=
      forall_mem_of_all (by decide)
    obtain ⟨hname, hblank, hsign⟩ := hforeign c hspecial
    exact absurd hc (not_mem_conditionText hname hblank hsign line)

/-- The token is a name. -/
def ConditionToken.isWord : ConditionToken → Bool
  | .word _ => true
  | _ => false

theorem ConditionToken.exists_word_of_isWord (t : ConditionToken) (h : t.isWord = true) :
    ∃ name, t = .word name := by
  cases t with
  | word name => exact ⟨name, rfl⟩
  | _ => simp [isWord] at h

theorem ConditionToken.not_isNameChar_of_mem (t : ConditionToken) (h : t.isWord = false) :
    ∀ c ∈ t.text, isNameChar c = false := by
  cases t with
  | word name => simp [isWord] at h
  | logical op => exact forall_mem_of_all (by cases op <;> decide)
  | _ => exact forall_mem_of_all (by decide)

/-! ## After a name -/

/-- The text goes on after a name: what comes first in it is no operand. -/
def StopsName (s : Line) : Prop :=
  ∀ c, (skipBlanks s).head? = some c → c = ')' ∨ c = '&' ∨ c = '|'

theorem StopsName.not_isNameChar {s : Line} (h : StopsName s) {c : Char}
    (hc : s.head? = some c) : isNameChar c = false := by
  obtain ⟨rest, rfl⟩ : ∃ rest, s = c :: rest := by
    cases s with
    | nil => simp at hc
    | cons d rest => exact ⟨rest, by simpa using hc⟩
  cases hblank : isBlank c with
  | true => exact isNameChar_of_isBlank hblank
  | false =>
    have hhead := h c (by rw [skipBlanks_cons_of_not_isBlank hblank]; rfl)
    rcases hhead with rfl | rfl | rfl <;> decide

theorem stopsName_text {name : FreeIdentifier} {pieces : List (Piece ConditionToken)} {tail : Gap}
    (h : Meeting (.word name :: pieces.map Piece.token)) :
    StopsName (⟨pieces, tail⟩ : PrintedLine ConditionToken).text := by
  intro c hc
  obtain ⟨⟨gap, t⟩, rest, rfl, hfirst⟩ := PrintedLine.exists_piece_of_head? hc
  have hmeets : (ConditionToken.word name).Meets t := (List.isChain_cons_cons.1 h).1
  cases t with
  | closing => exact Or.inl (Option.some.inj hfirst).symm
  | final => exact Or.inl (Option.some.inj hfirst).symm
  | logical op =>
    cases op
    · exact Or.inr (Or.inl (Option.some.inj hfirst).symm)
    · exact Or.inr (Or.inr (Option.some.inj hfirst).symm)
  | word _ => exact hmeets.elim
  | bang => exact hmeets.elim
  | opening => exact hmeets.elim

/-! ## No name opens a header -/

/-- What follows a name in the text is neither an opening parenthesis nor a brace. -/
def NamesStop : Line → Prop
  | [] => True
  | c :: rest =>
    (isNameChar c = true → ∀ d, (skipBlanks rest).head? = some d → d ≠ '(' ∧ d ≠ '{') ∧
      NamesStop rest

namespace NamesStop

theorem append_of_not_name {text rest : Line} (h : ∀ c ∈ text, isNameChar c = false)
    (hrest : NamesStop rest) : NamesStop (text ++ rest) := by
  induction text with
  | nil => exact hrest
  | cons c text ih =>
    have hc := h c List.mem_cons_self
    exact ⟨fun hname => absurd (hc.symm.trans hname) Bool.false_ne_true,
      ih fun d hd => h d (List.mem_cons_of_mem _ hd)⟩

theorem append_of_name {name rest : Line} (h : ∀ c ∈ name, isNameChar c = true)
    (hstop : StopsName rest) (hrest : NamesStop rest) : NamesStop (name ++ rest) := by
  induction name with
  | nil => exact hrest
  | cons c name ih =>
    refine ⟨fun _ d hd => ?_, ih fun d hd => h d (List.mem_cons_of_mem _ hd)⟩
    cases name with
    | nil =>
      rcases hstop d hd with rfl | rfl | rfl <;> decide
    | cons e name =>
      have he : isNameChar e = true := h e (by simp)
      have hhead : skipBlanks (e :: name ++ rest) = e :: (name ++ rest) :=
        skipBlanks_cons_of_not_isBlank (isBlank_of_isNameChar he) _
      obtain rfl : e = d := by
        rw [show (e :: name).append rest = e :: name ++ rest from rfl, hhead] at hd
        exact Option.some.inj hd
      exact ⟨ne_of_isNameChar he (by decide), ne_of_isNameChar he (by decide)⟩

theorem of_suffix {s t : Line} (h : NamesStop s) (ht : t <:+ s) : NamesStop t := by
  induction s with
  | nil =>
    obtain rfl := List.suffix_nil.1 ht
    exact h
  | cons c s ih =>
    rcases List.suffix_cons_iff.1 ht with rfl | ht
    · exact h
    · exact ih h.2 ht

/-- No word can be read together with an opening parenthesis or brace behind it. -/
theorem after_literal? {word s rest : Line} (h : NamesStop s)
    (hword : word.getLast?.any isNameChar = true) (hliteral : literal? word s = some rest) {c : Char}
    (hc : (skipBlanks rest).head? = some c) : c ≠ '(' ∧ c ≠ '{' := by
  obtain ⟨last, hlast, hname⟩ : ∃ last, word.getLast? = some last ∧ isNameChar last = true := by
    cases hlast : word.getLast? with
    | none => simp [hlast] at hword
    | some last => exact ⟨last, rfl, by simpa [hlast] using hword⟩
  obtain ⟨front, rfl⟩ := List.getLast?_eq_some_iff.1 hlast
  have hs : s = front ++ (last :: rest) := by simpa using literal?_eq_some_iff.1 hliteral
  exact (h.of_suffix ⟨front, hs.symm⟩).1 hname c hc

theorem spacedChar?_eq_none {word s rest : Line} (h : NamesStop s)
    (hword : word.getLast?.any isNameChar = true) (hliteral : literal? word s = some rest) :
    spacedChar? '(' rest = none := by
  rw [Option.eq_none_iff_forall_ne_some]
  intro tail htail
  have hhead : (skipBlanks rest).head? = some '(' := by rw [char?_eq_some_iff.1 htail]; rfl
  exact (h.after_literal? hword hliteral hhead).1 rfl

end NamesStop

theorem namesStop_text (line : PrintedLine ConditionToken) (h : Meeting line.tokens) :
    NamesStop line.text := by
  obtain ⟨pieces, tail⟩ := line
  induction pieces with
  | nil =>
    have htail : NamesStop (tail.text ++ []) :=
      NamesStop.append_of_not_name tail.not_isNameChar trivial
    rwa [List.append_nil] at htail
  | cons piece pieces ih =>
    obtain ⟨gap, t⟩ := piece
    have hrest := ih (List.isChain_cons.1 h).2
    rw [PrintedLine.text_cons]
    refine NamesStop.append_of_not_name gap.not_isNameChar ?_
    cases hword : t.isWord with
    | false => exact NamesStop.append_of_not_name (t.not_isNameChar_of_mem hword) hrest
    | true =>
      obtain ⟨name, rfl⟩ := t.exists_word_of_isWord hword
      exact NamesStop.append_of_name name.nameChars (stopsName_text h) hrest

end BranchTally
