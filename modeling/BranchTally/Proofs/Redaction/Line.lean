-- SUMMARY: A line part of which is replaced between two guards has the same live tokens and chains.
import Mathlib
import BranchTally.Proofs.PlainLine
import BranchTally.Proofs.Redaction.Guard
import BranchTally.Logical.Expression
import BranchTally.Parameter.Shape

/-!
# Redacted lines

A redaction replaces what a comment or a string holds by a filler of the same length. The guards at
its edges stay, so whatever is read in front of them or behind them is the same. Of the positions in
between none may count: either they are no live code, or nothing that is counted begins there.
-/

namespace BranchTally

open Text

/-- The characters that stand for what is hidden. -/
def isFiller (c : Char) : Bool := c = ' ' || c = 'x'

/-- A part of a line between two guards, or between one and the end of the line, and its filler. -/
structure Redaction where
  front : Line
  guard : Char
  content : Line
  filler : Line
  behind : Line
  isGuard_guard : isGuard guard = true
  isGuard_behind : ∀ c ∈ behind.head?, isGuard c = true
  isFiller_filler : ∀ c ∈ filler, isFiller c = true
  length_filler : filler.length = content.length

namespace Redaction

variable (r : Redaction)

/-- The line with some text in the place of the content. -/
def fill (hidden : Line) : Line := r.front ++ r.guard :: (hidden ++ r.behind)

/-- The line as it is. -/
def text : Line := r.fill r.content

/-- The line with the filler. -/
def redacted : Line := r.fill r.filler

/-- The first position of the content. -/
def start : Nat := r.front.length + 1

/-- The first position behind the content. -/
def stop : Nat := r.start + r.content.length

/-- The position is one of the content. -/
def Hides (i : Nat) : Prop := r.start ≤ i ∧ i < r.stop

instance (i : Nat) : Decidable (r.Hides i) := inferInstanceAs (Decidable (_ ∧ _))

/-- A check of the characters of a filler. -/
theorem forall_mem_filler {p : Char → Prop} (hblank : p ' ') (hx : p 'x') : ∀ c ∈ r.filler, p c := by
  intro c hc
  have hfiller := r.isFiller_filler c hc
  simp only [isFiller, Bool.or_eq_true, decide_eq_true_eq] at hfiller
  rcases hfiller with rfl | rfl
  · exact hblank
  · exact hx

theorem fill_eq (hidden : Line) : r.fill hidden = (r.front ++ [r.guard]) ++ (hidden ++ r.behind) := by
  simp [fill]

theorem getElem?_fill {hidden : Line} (h : hidden.length = r.content.length) {i : Nat}
    (hi : ¬ r.Hides i) :
    (r.fill hidden)[i]? =
      if i < r.start then (r.front ++ [r.guard])[i]? else (r.behind)[i - r.stop]? := by
  have hstart : (r.front ++ [r.guard]).length = r.start := by simp [start]
  rw [fill_eq, List.getElem?_append, hstart]
  split
  · rfl
  · next hle =>
    have hstop : r.stop ≤ i := by
      simp only [Hides, not_and] at hi
      omega
    have hrest : hidden.length ≤ i - r.start := by
      simp only [stop] at hstop
      omega
    rw [List.getElem?_append_right hrest, h]
    congr 1
    simp only [stop]
    omega

theorem getElem?_redacted {i : Nat} (hi : ¬ r.Hides i) : (r.redacted)[i]? = (r.text)[i]? := by
  rw [redacted, text, getElem?_fill _ r.length_filler hi, getElem?_fill _ rfl hi]

theorem length_redacted : r.text.length = r.redacted.length := by
  simp [redacted, text, fill, r.length_filler]

/-! ## What is hidden -/

/-- The characters that the counted tokens are made of, and the brackets of keyword forms. -/
def seenChars : List Char := ['&', '|', '=', '?', '(', '{']

/-- The same positions are live in both lines, and in what is hidden nothing that counts begins. -/
structure Hidden : Prop where
  live : ∀ i, (LiveMap.of r.redacted).isLive i = (LiveMap.of r.text).isLive i
  unseen : (∀ i, r.Hides i → (LiveMap.of r.text).isLive i = false) ∨
    (r.behind ≠ [] ∧ ∀ c ∈ r.content, c ∉ seenChars)

/-- The text is one of the two that may stand between the guards. -/
def IsHidden (hidden : Line) : Prop := hidden = r.content ∨ hidden = r.filler

variable {r}

theorem IsHidden.length_eq {hidden : Line} (h : r.IsHidden hidden) :
    hidden.length = r.content.length := by
  rcases h with rfl | rfl
  · rfl
  · exact r.length_filler

/-- What the content has nothing of, neither of the two texts has. -/
theorem IsHidden.forall_mem {hidden : Line} (h : r.IsHidden hidden) {p : Char → Prop}
    (hcontent : ∀ c ∈ r.content, p c) (hblank : p ' ') (hx : p 'x') : ∀ c ∈ hidden, p c := by
  rcases h with rfl | rfl
  · exact hcontent
  · exact r.forall_mem_filler hblank hx

/-! ## Tokens -/

/-- The tokens that are counted one by one, and the arrow. -/
def countedTokens : List (List Char) :=
  [['&', '&'], ['|', '|'], ['=', '>'], ['?', '?'], ['?', '.']]

variable {token : List Char}

theorem guard_not_mem_token {g : Char} (hg : isGuard g = true) (h : token ∈ countedTokens) :
    g ∉ token := by
  have hall := forall_isGuard (p := fun c => ∀ t ∈ countedTokens, c ∉ t) (by decide) hg
  exact hall token h

theorem token_ne_nil (h : token ∈ countedTokens) : token ≠ [] := by
  have hall : ∀ t ∈ countedTokens, t ≠ [] := by decide
  exact hall token h

theorem seen_of_token (h : token ∈ countedTokens) : ∃ c ∈ token, c ∈ seenChars := by
  have hall : ∀ c ∈ countedTokens.map (·.headD ' '), c ∈ seenChars := forall_mem_of_all (by decide)
  obtain ⟨c, rest, rfl⟩ := List.exists_cons_of_ne_nil (token_ne_nil h)
  exact ⟨c, List.mem_cons_self, hall c (List.mem_map.2 ⟨_, h, rfl⟩)⟩

/-- The occurrences of a token lie in front of the content, in it or behind it. -/
theorem occurrencesFrom_fill (h : token ∈ countedTokens) {hidden : Line} (hhidden : r.IsHidden hidden) :
    occurrencesFrom token 0 0 (r.fill hidden) =
      occurrencesFrom token 0 0 r.front ++
        (occurrencesFrom token 0 r.start hidden ++ occurrencesFrom token 0 r.stop r.behind) := by
  have hne := token_ne_nil h
  have hbehind : occurrencesFrom token 0 r.start (hidden ++ r.behind) =
      occurrencesFrom token 0 r.start hidden ++ occurrencesFrom token 0 r.stop r.behind := by
    cases hb : r.behind with
    | nil => simp [occurrencesFrom]
    | cons g more =>
      have hg : g ∉ token := guard_not_mem_token (r.isGuard_behind g (by simp [hb])) h
      rw [occurrencesFrom_append_cons hg hne (Nat.zero_le _), occurrencesFrom_cons_of_not_mem _ hg hne,
        hhidden.length_eq, stop]
  have hguard := guard_not_mem_token r.isGuard_guard h
  rw [fill, occurrencesFrom_append_cons hguard hne (Nat.zero_le _), Nat.zero_add, ← hbehind]
  rfl

theorem Hidden.filter_occurrencesFrom (hr : r.Hidden) (h : token ∈ countedTokens) {hidden : Line}
    (hhidden : r.IsHidden hidden) :
    (occurrencesFrom token 0 r.start hidden).filter (LiveMap.of r.text).isLive = [] := by
  rcases hr.unseen with hdead | ⟨-, hunseen⟩
  · rw [List.filter_eq_nil_iff]
    intro i hi
    have hbounds := bounds_of_mem_occurrencesFrom hi
    rw [hhidden.length_eq] at hbounds
    simp [hdead i hbounds]
  · obtain ⟨c, hc, hseen⟩ := seen_of_token h
    have hnone : c ∉ hidden := fun hm =>
      hhidden.forall_mem (p := (· ∉ seenChars)) hunseen (by decide) (by decide) c hm hseen
    rw [occurrencesFrom_eq_nil_of_not_mem hc hnone, List.filter_nil]

theorem Hidden.isLive_redacted (hr : r.Hidden) :
    (LiveMap.of r.redacted).isLive = (LiveMap.of r.text).isLive := funext hr.live

/-- The live occurrences of a token, in front of the content and behind it. -/
theorem Hidden.findTokens_text (hr : r.Hidden) (h : token ∈ countedTokens) :
    findTokens r.text token =
      (occurrencesFrom token 0 0 r.front).filter (LiveMap.of r.text).isLive ++
        (occurrencesFrom token 0 r.stop r.behind).filter (LiveMap.of r.text).isLive := by
  have hfill := occurrencesFrom_fill h (Or.inl rfl : r.IsHidden r.content)
  have hnone := hr.filter_occurrencesFrom h (Or.inl rfl)
  simp only [findTokens, Option.all_none, Bool.true_and, List.drop_zero]
  rw [text, hfill, List.filter_append, List.filter_append, ← text, hnone, List.nil_append]

theorem Hidden.findTokens_redacted (hr : r.Hidden) (h : token ∈ countedTokens) :
    findTokens r.redacted token = findTokens r.text token := by
  have hfill := occurrencesFrom_fill h (Or.inr rfl : r.IsHidden r.filler)
  have hnone := hr.filter_occurrencesFrom h (Or.inr rfl)
  rw [hr.findTokens_text h]
  simp only [findTokens, Option.all_none, Bool.true_and, List.drop_zero, hr.isLive_redacted]
  rw [redacted, hfill, List.filter_append, List.filter_append, hnone, List.nil_append]

theorem Hidden.bounds_of_mem_findTokens (hr : r.Hidden) (h : token ∈ countedTokens) {i : Nat}
    (hi : i ∈ findTokens r.text token) : i + token.length ≤ r.front.length ∨ r.stop ≤ i := by
  rw [hr.findTokens_text h, List.mem_append, List.mem_filter, List.mem_filter] at hi
  rcases hi with ⟨hi, -⟩ | ⟨hi, -⟩
  · have hle := add_length_le_of_mem_occurrencesFrom hi
    exact Or.inl (by omega)
  · exact Or.inr (bounds_of_mem_occurrencesFrom hi).1

theorem Hidden.chainPoints_redacted (hr : r.Hidden) (number owner : Int) :
    chainPoints r.redacted number owner = chainPoints r.text number owner := by
  have htoken : ['?', '.'] ∈ countedTokens := by decide
  unfold chainPoints
  rw [hr.findTokens_redacted htoken]
  congr 1
  refine List.filter_congr fun i hi => ?_
  have hbounds := hr.bounds_of_mem_findTokens htoken hi
  have hvisible (k : Nat) (hk : k ≤ 2) : ¬ r.Hides (i + k) := by
    simp only [Hides, start, stop, List.length_cons, List.length_nil] at hbounds ⊢
    omega
  rw [r.getElem?_redacted (hvisible 1 (by omega)), r.getElem?_redacted (hvisible 2 (by omega))]

/-! ## Comment lines -/

theorem isCommentLine_eq (line : Line) :
    isCommentLine line = ((trim line).head? = some '*' || ((trim line).head? = some '/' &&
      ((trim line)[1]? = some '/' || (trim line)[1]? = some '*'))) := by
  unfold isCommentLine
  split
  · next h => simp [h]
  · next h => simp [h]
  · next h => simp [h]
  · next hslash hblock hstar =>
    rcases htrim : trim line with _ | ⟨c, _ | ⟨d, more⟩⟩
    · simp
    · have hc : c ≠ '*' := fun e => hstar [] (by rw [htrim, e])
      simp [hc]
    · have hc : c ≠ '*' := fun e => hstar (d :: more) (by rw [htrim, e])
      have hd (e : c = '/') : d ≠ '/' ∧ d ≠ '*' :=
        ⟨fun e' => hslash more (by rw [htrim, e, e']), fun e' => hblock more (by rw [htrim, e, e'])⟩
      by_cases he : c = '/'
      · simp [he, hd he]
      · simp [hc, he]

/-- Both lines have something to count or neither has, unless the content decides whether a slash at
the start of the line begins a comment. -/
theorem isQuiet_redacted (h : r.guard = '/' → skipBlanks r.front ≠ []) :
    isQuiet r.redacted = isQuiet r.text := by
  have hfill (hidden : Line) : isQuiet (r.fill hidden) =
      (decide ((skipBlanks r.front ++ [r.guard]).head? = some '*') ||
        (decide ((skipBlanks r.front ++ [r.guard]).head? = some '/') &&
          (decide ((skipBlanks r.front ++ [r.guard])[1]? = some '/') ||
            decide ((skipBlanks r.front ++ [r.guard])[1]? = some '*')))) := by
    rw [isQuiet, isCommentLine_eq, fill, trim_append_guard r.isGuard_guard]
    rcases hfront : skipBlanks r.front with _ | ⟨c, _ | ⟨d, more⟩⟩
    · have hguard : r.guard ≠ '/' := fun e => h e hfront
      simp [hguard]
    · simp
    · simp
  rw [redacted, text, hfill, hfill]

end Redaction

end BranchTally
