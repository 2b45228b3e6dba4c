-- SUMMARY: Tokens printed over lines with any layout, and the lines of a joined text.
import BranchTally.Function.Name
import BranchTally.Proofs.Text
import BranchTally.Source

/-!
# Layouts

A layout says how tokens are printed: on which lines, and with which blanks between them. Statements
that quantify over layouts hold for every way to format a piece of code.
-/

namespace BranchTally

open Text

/-! ## Identifiers -/

/-- A character of an identifier. -/
def isNameChar (c : Char) : Bool := isWord c || c = '$'

theorem isNameChar_of_isBlank {c : Char} (h : isBlank c = true) : isNameChar c = false := by
  have hdollar : c ≠ '$' := by
    rintro rfl
    revert h
    decide
  simp [isNameChar, isWord_of_isBlank h, hdollar]

theorem isBlank_of_isNameChar {c : Char} (h : isNameChar c = true) : isBlank c = false := by
  rw [Bool.eq_false_iff]
  intro hblank
  exact Bool.false_ne_true ((isNameChar_of_isBlank hblank).symm.trans h)

theorem ne_of_isNameChar {c d : Char} (h : isNameChar c = true) (hd : isNameChar d = false) :
    c ≠ d := fun heq => Bool.false_ne_true (hd.symm.trans (heq ▸ h))

/-- A word that opens a name with text behind it lies in the name. -/
theorem append_eq_of_head {name rest word tail : Line} (hrest : ∀ c ∈ rest.head?, isNameChar c = false)
    (hword : ∀ c ∈ word, isNameChar c = true) (h : name ++ rest = word ++ tail) :
    ∃ more, name = word ++ more ∧ tail = more ++ rest := by
  rcases List.append_eq_append_iff.1 h with ⟨more, hmore, htail⟩ | ⟨more, hname, htail⟩
  · cases more with
    | nil => exact ⟨[], by simpa using hmore.symm, by simpa using htail.symm⟩
    | cons c more =>
      have hc : isNameChar c = true := hword c (by simp [hmore])
      have hnone := hrest c (by rw [htail]; rfl)
      exact absurd (hnone.symm.trans hc) Bool.false_ne_true
  · exact ⟨more, hname, htail⟩

/-- An identifier of the scanned language. -/
structure Identifier where
  text : Line
  ne_nil : text ≠ []
  nameChars : ∀ c ∈ text, isNameChar c = true

theorem Identifier.not_mem (name : Identifier) {c : Char} (hc : isNameChar c = false) :
    c ∉ name.text := fun hmem => Bool.false_ne_true (hc.symm.trans (name.nameChars c hmem))

theorem Identifier.sameLine (name : Identifier) : ∀ c ∈ name.text, c ≠ '\n' ∧ c ≠ '\r' :=
  fun c hc => ⟨ne_of_isNameChar (name.nameChars c hc) (by decide),
    ne_of_isNameChar (name.nameChars c hc) (by decide)⟩

/-! ## Printed lines -/

/-- Blanks between two tokens of a line. -/
structure Gap where
  text : Line
  blank : ∀ c ∈ text, isBlank c = true
  sameLine : ∀ c ∈ text, c ≠ '\n' ∧ c ≠ '\r'

/-- No blanks. -/
def Gap.empty : Gap := ⟨[], by simp, by simp⟩

/-- One space. -/
def Gap.space : Gap := ⟨[' '], by simp [isBlank], by simp⟩

theorem Gap.not_mem (gap : Gap) {c : Char} (hc : isBlank c = false) : c ∉ gap.text :=
  fun hmem => Bool.false_ne_true (hc.symm.trans (gap.blank c hmem))

theorem Gap.not_isNameChar (gap : Gap) : ∀ c ∈ gap.text, isNameChar c = false :=
  fun c hc => isNameChar_of_isBlank (gap.blank c hc)

theorem Gap.skipBlanks_text (gap : Gap) : skipBlanks gap.text = [] :=
  List.dropWhile_eq_nil_iff.2 gap.blank

/-- Tokens that are written without a line break. -/
class Printable (τ : Type) where
  text : τ → Line
  sameLine : ∀ t, ∀ c ∈ text t, c ≠ '\n' ∧ c ≠ '\r'

/-- A token and the blanks in front of it. -/
structure Piece (τ : Type) where
  gap : Gap
  token : τ

/-- A line of tokens, with the blanks at its end. -/
structure PrintedLine (τ : Type) where
  pieces : List (Piece τ)
  tail : Gap

/-- Lines of tokens, some of which may be blank. -/
abbrev Layout (τ : Type) := List (PrintedLine τ)

variable {τ : Type}

/-- The tokens of the line. -/
def PrintedLine.tokens (line : PrintedLine τ) : List τ := line.pieces.map Piece.token

/-- The tokens of the layout in the order in which they are printed. -/
def Layout.tokens (layout : Layout τ) : List τ := layout.flatMap PrintedLine.tokens

/-- The line on which the token at a place is printed, counted from zero. -/
def Layout.lineOf : Layout τ → Nat → Nat
  | [], _ => 0
  | line :: rest, place =>
    if place < line.tokens.length then 0
    else Layout.lineOf rest (place - line.tokens.length) + 1

theorem Layout.tokens_append (a b : Layout τ) :
    Layout.tokens (a ++ b) = a.tokens ++ b.tokens := List.flatMap_append

theorem Layout.lineOf_append (above layout : Layout τ) (place : Nat) :
    Layout.lineOf (above ++ layout) (above.tokens.length + place) =
      above.length + layout.lineOf place := by
  induction above with
  | nil => simp [tokens]
  | cons line above ih =>
    have hlength : Layout.tokens (line :: above) = line.tokens ++ tokens above := rfl
    rw [hlength, List.length_append, List.cons_append, lineOf, if_neg (by omega),
      show line.tokens.length + (tokens above).length + place - line.tokens.length =
        (tokens above).length + place by omega, ih, List.length_cons]
    omega

/-- A token on one of the first lines is a token of these lines. -/
theorem Layout.lt_length_tokens_take {layout : Layout τ} {place count : Nat}
    (hplace : place < layout.tokens.length) (hline : layout.lineOf place < count) :
    place < (Layout.tokens (layout.take count)).length := by
  induction layout generalizing place count with
  | nil => simp [tokens] at hplace
  | cons line layout ih =>
    obtain ⟨count, rfl⟩ : ∃ n, count = n + 1 := ⟨count - 1, by omega⟩
    have hlength (rest : Layout τ) : Layout.tokens (line :: rest) = line.tokens ++ rest.tokens := rfl
    rw [hlength, List.length_append] at hplace
    rw [List.take_succ_cons, hlength, List.length_append]
    rw [lineOf] at hline
    split at hline
    · omega
    · have hrest : place - line.tokens.length < (tokens layout).length := by omega
      have := ih hrest (by omega : lineOf layout (place - line.tokens.length) < count)
      omega

/-- A token that is printed at most `count` lines below another one is printed on the line of that one
or on the `count` lines below it. -/
theorem Layout.lt_length_of_lineOf_le {above below : Layout τ} {line : PrintedLine τ}
    {place later count : Nat} (hplace : place < line.tokens.length)
    (hlater : later < line.tokens.length + below.tokens.length)
    (hnear : Layout.lineOf (above ++ line :: below) (above.tokens.length + later) ≤
      Layout.lineOf (above ++ line :: below) (above.tokens.length + place) + count) :
    later < line.tokens.length + (Layout.tokens (below.take count)).length := by
  have hlength (rest : Layout τ) : (Layout.tokens (line :: rest)).length =
      line.tokens.length + rest.tokens.length := List.length_append
  have hhere : Layout.lineOf (line :: below) place = 0 := if_pos hplace
  rw [lineOf_append, lineOf_append, hhere, Nat.add_zero, Nat.add_le_add_iff_left] at hnear
  have hfirst := lt_length_tokens_take (hlength below ▸ hlater) (Nat.lt_succ_of_le hnear)
  rwa [List.take_succ_cons, hlength] at hfirst

section

variable [Printable τ]

/-- The blanks and the token as they are printed. -/
def Piece.text (piece : Piece τ) : Line := piece.gap.text ++ Printable.text piece.token

/-- The line as it is printed. -/
def PrintedLine.text (line : PrintedLine τ) : Line :=
  line.pieces.flatMap Piece.text ++ line.tail.text

@[simp]
theorem PrintedLine.text_nil (tail : Gap) :
    (⟨[], tail⟩ : PrintedLine τ).text = tail.text := rfl

@[simp]
theorem PrintedLine.text_cons (piece : Piece τ) (pieces : List (Piece τ)) (tail : Gap) :
    (⟨piece :: pieces, tail⟩ : PrintedLine τ).text =
      piece.gap.text ++ (Printable.text piece.token ++ (⟨pieces, tail⟩ : PrintedLine τ).text) := by
  simp [text, Piece.text]

/-- The first character of a line that is not blank is that of its first token. -/
theorem PrintedLine.exists_piece_of_head? {pieces : List (Piece τ)} {tail : Gap} {c : Char}
    (hc : c ∈ (skipBlanks (⟨pieces, tail⟩ : PrintedLine τ).text).head?) :
    ∃ piece rest, pieces = piece :: rest ∧
      c ∈ (skipBlanks (Printable.text piece.token ++ (⟨rest, tail⟩ : PrintedLine τ).text)).head? := by
  cases pieces with
  | nil =>
    rw [text_nil, tail.skipBlanks_text] at hc
    simp at hc
  | cons piece rest =>
    rw [text_cons, skipBlanks_append piece.gap.blank] at hc
    exact ⟨piece, rest, rfl, hc⟩

/-- What holds of all blanks and of the characters of all tokens holds of the characters of the
line. -/
theorem PrintedLine.forall_mem_text {P : Char → Prop} {line : PrintedLine τ}
    (hgap : ∀ gap : Gap, ∀ c ∈ gap.text, P c) (htoken : ∀ t ∈ line.tokens, ∀ c ∈ Printable.text t, P c) :
    ∀ c ∈ line.text, P c := by
  obtain ⟨pieces, tail⟩ := line
  induction pieces with
  | nil => exact hgap tail
  | cons piece pieces ih =>
    intro c hc
    rw [text_cons, List.mem_append, List.mem_append] at hc
    rcases hc with hc | hc | hc
    · exact hgap piece.gap c hc
    · exact htoken piece.token List.mem_cons_self c hc
    · exact ih (fun t ht => htoken t (List.mem_cons_of_mem _ ht)) c hc

theorem PrintedLine.sameLine (line : PrintedLine τ) : ∀ c ∈ line.text, c ≠ '\n' ∧ c ≠ '\r' :=
  forall_mem_text (fun gap => gap.sameLine) fun t _ => Printable.sameLine t

end

/-! ## Joined lines -/

theorem rawLines_ne_nil (source : List Char) : rawLines source ≠ [] := by
  cases source with
  | nil => simp [rawLines]
  | cons c rest =>
    rw [rawLines]
    split
    · simp
    · split <;> simp

theorem rawLines_append {line : Line} (h : '\n' ∉ line) (rest : List Char) :
    rawLines (line ++ rest) = (rawLines rest).modifyHead (line ++ ·) := by
  obtain ⟨first, more, hrest⟩ := List.exists_cons_of_ne_nil (rawLines_ne_nil rest)
  induction line with
  | nil => simp [hrest]
  | cons c line ih =>
    have hc : c ≠ '\n' := fun e => h (e ▸ List.mem_cons_self)
    have hline := ih fun m => h (List.mem_cons_of_mem _ m)
    simp [rawLines, hc, hline, hrest]

theorem dropReturns_append {line : Line} (h : '\r' ∉ line) (rest : Line) :
    dropReturns (line ++ rest) = line ++ dropReturns rest := by
  have hnone : line.reverse.dropWhile (fun c => decide (c = '\r')) = line.reverse := by
    rw [List.dropWhile_eq_self_iff]
    intro hlength hreturn
    have hmem := List.getElem_mem hlength
    rw [of_decide_eq_true hreturn, List.mem_reverse] at hmem
    exact h hmem
  rw [dropReturns, dropReturns, List.reverse_append, List.dropWhile_append, hnone]
  split
  · next hempty => simp [List.isEmpty_iff.1 hempty]
  · simp

theorem splitLines_ne_nil (source : List Char) : splitLines source ≠ [] := by
  rw [splitLines, ne_eq, List.map_eq_nil_iff]
  exact rawLines_ne_nil source

/-- A text is its lines, each but the last with its line break. -/
theorem exists_lines (text : List Char) :
    ∃ (front : List Line) (last : Line), (∀ line ∈ front, '\n' ∉ line) ∧ '\n' ∉ last ∧
      text = front.flatMap (· ++ ['\n']) ++ last := by
  induction text with
  | nil => exact ⟨[], [], by simp⟩
  | cons c text ih =>
    obtain ⟨front, last, hfront, hlast, rfl⟩ := ih
    by_cases hc : c = '\n'
    · exact ⟨[] :: front, last, by simpa using hfront, hlast, by simp [hc]⟩
    · cases front with
      | nil => exact ⟨[], c :: last, by simp, by simp [Ne.symm hc, hlast], by simp⟩
      | cons line front =>
        have hline := hfront line List.mem_cons_self
        refine ⟨(c :: line) :: front, last, ?_, hlast, by simp⟩
        intro other hother
        rcases List.mem_cons.1 hother with rfl | hother
        · simp [Ne.symm hc, hline]
        · exact hfront other (List.mem_cons_of_mem _ hother)

theorem rawLines_flatMap_append {front : List Line} {last : Line} (hfront : ∀ line ∈ front, '\n' ∉ line)
    (hlast : '\n' ∉ last) : rawLines (front.flatMap (· ++ ['\n']) ++ last) = front ++ [last] := by
  induction front with
  | nil =>
    have hline := rawLines_append hlast []
    simpa [rawLines] using hline
  | cons line front ih =>
    have hrest := ih fun other hother => hfront other (List.mem_cons_of_mem _ hother)
    rw [List.flatMap_cons, List.append_assoc, List.append_assoc,
      rawLines_append (hfront line List.mem_cons_self), List.singleton_append, rawLines, if_pos rfl, hrest]
    simp

theorem infix_of_mem_rawLines {text : List Char} {line : Line} (h : line ∈ rawLines text) :
    line <:+: text := by
  obtain ⟨front, last, hfront, hlast, rfl⟩ := exists_lines text
  rw [rawLines_flatMap_append hfront hlast, List.mem_append, List.mem_singleton] at h
  rcases h with h | rfl
  · obtain ⟨above, below, rfl⟩ := List.append_of_mem h
    rw [List.flatMap_append, List.flatMap_cons]
    exact ⟨above.flatMap (· ++ ['\n']), '\n' :: (below.flatMap (· ++ ['\n']) ++ last), by simp⟩
  · exact (List.suffix_append _ _).isInfix

/-- A line gives up the carriage returns at its end. -/
theorem exists_eq_dropReturns_append (line : Line) :
    ∃ returns, line = dropReturns line ++ returns ∧ ∀ c ∈ returns, c = '\r' := by
  refine ⟨(line.reverse.takeWhile (· = '\r')).reverse, ?_, fun c hc => ?_⟩
  · rw [dropReturns, ← List.reverse_append, List.takeWhile_append_dropWhile, List.reverse_reverse]
  · simpa using List.mem_takeWhile_imp (List.mem_reverse.1 hc)

theorem dropReturns_of_getLast? {line : Line} (h : line.getLast? ≠ some '\r') :
    dropReturns line = line := by
  obtain ⟨returns, hline, hreturns⟩ := exists_eq_dropReturns_append line
  cases hlast : returns.getLast? with
  | none => rw [List.getLast?_eq_none_iff.1 hlast, List.append_nil] at hline; exact hline.symm
  | some c =>
    rw [hline, List.getLast?_append, hlast, hreturns c (List.mem_of_getLast? hlast)] at h
    exact absurd rfl h

theorem infix_of_mem_splitLines {source : List Char} {line : Line} (h : line ∈ splitLines source) :
    line <:+: source := by
  obtain ⟨raw, hraw, rfl⟩ := List.mem_map.1 h
  obtain ⟨returns, heq, -⟩ := exists_eq_dropReturns_append raw
  have hprefix : dropReturns raw <+: raw := ⟨returns, heq.symm⟩
  exact hprefix.isInfix.trans (infix_of_mem_rawLines hraw)

theorem mem_of_mem_splitLines {source : List Char} {line : Line} (hline : line ∈ splitLines source)
    {c : Char} (hc : c ∈ line) : c ∈ source :=
  (infix_of_mem_splitLines hline).subset hc

theorem splitLines_append {line : Line} (h : ∀ c ∈ line, c ≠ '\n' ∧ c ≠ '\r') (rest : List Char) :
    splitLines (line ++ rest) = (splitLines rest).modifyHead (line ++ ·) := by
  obtain ⟨first, more, hrest⟩ := List.exists_cons_of_ne_nil (rawLines_ne_nil rest)
  have hfeed : '\n' ∉ line := fun m => (h _ m).1 rfl
  have hreturn : '\r' ∉ line := fun m => (h _ m).2 rfl
  simp [splitLines, rawLines_append hfeed, hrest, dropReturns_append hreturn]

/-- A text that was joined from lines is split into these lines, the last of which goes on with the
text behind them. -/
theorem splitLines_joinLines_append {front : List Line} {last : Line}
    (h : ∀ line ∈ front ++ [last], ∀ c ∈ line, c ≠ '\n' ∧ c ≠ '\r') (rest : List Char) :
    splitLines (joinLines (front ++ [last]) ++ rest) =
      front ++ (splitLines rest).modifyHead (last ++ ·) := by
  induction front with
  | nil => exact splitLines_append (h last (by simp)) rest
  | cons line front ih =>
    have hlater := ih fun l hl => h l (List.mem_cons_of_mem _ hl)
    obtain ⟨next, more, hnext⟩ : ∃ next more, front ++ [last] = next :: more :=
      List.exists_cons_of_ne_nil (by simp)
    have hjoin : joinLines (line :: (front ++ [last])) ++ rest =
        line ++ '\n' :: (joinLines (front ++ [last]) ++ rest) := by
      rw [hnext, joinLines, List.append_assoc, List.cons_append]
      simp
    have hfeed (source : List Char) : splitLines ('\n' :: source) = [] :: splitLines source := rfl
    rw [List.cons_append, hjoin, splitLines_append (h line List.mem_cons_self), hfeed, hlater]
    simp

/-- A text that was joined from lines is split into these lines. -/
theorem splitLines_joinLines {lines : List Line} (hne : lines ≠ [])
    (h : ∀ line ∈ lines, ∀ c ∈ line, c ≠ '\n' ∧ c ≠ '\r') :
    splitLines (joinLines lines) = lines := by
  obtain ⟨front, last, rfl⟩ := List.eq_nil_or_concat lines |>.resolve_left hne
  rw [List.concat_eq_append] at h ⊢
  have happend := splitLines_joinLines_append h []
  rw [List.append_nil] at happend
  rw [happend]
  simp [splitLines, rawLines, dropReturns]

end BranchTally
