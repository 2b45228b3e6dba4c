-- SUMMARY: Which messages of the linter score a function, and that a message with a text and a line is either read as one of them or passed over.
import Mathlib
import BranchTally.Linter.Record

/-!
# Messages that score a function

A warning of the complexity rule scores a function if its text has the words `complexity of` with digits
behind them. Where there are several such places the first one counts, with all the digits that stand there.
-/

namespace BranchTally

open Text

/-! ## Scores in texts -/

/-- The words `complexity of`, in any case, and behind them these digits and no more begin the text. -/
def BeginsWithScore (s digits : List Char) : Prop :=
  ∃ words rest, s = words ++ (digits ++ rest) ∧
    List.Forall₂ (fun letter c => matchesLetter letter c = true) "complexity of ".toList words ∧
    digits ≠ [] ∧ (∀ c ∈ digits, isDecimal c = true) ∧ ∀ c ∈ rest.head?, isDecimal c = false

/-- The first score of the text has these digits. -/
def TellsScore (text digits : List Char) : Prop :=
  ∃ front s, text = front ++ s ∧ BeginsWithScore s digits ∧
    ∀ k < front.length, ∀ other, ¬BeginsWithScore (text.drop k) other

theorem foldedLiteral?_eq_some_iff {w s rest : List Char} :
    foldedLiteral? w s = some rest ↔
      ∃ words, s = words ++ rest ∧ List.Forall₂ (fun letter c => matchesLetter letter c = true) w words := by
  induction w generalizing s with
  | nil =>
    constructor
    · rintro ⟨⟩
      exact ⟨[], rfl, .nil⟩
    · rintro ⟨words, rfl, hwords⟩
      cases hwords
      rfl
  | cons letter w ih =>
    cases s with
    | nil => simp [foldedLiteral?, List.forall₂_cons_left_iff]
    | cons c s =>
      rw [foldedLiteral?]
      constructor
      · intro h
        split at h
        · rename_i hc
          obtain ⟨words, rfl, hwords⟩ := ih.1 h
          exact ⟨c :: words, rfl, .cons hc hwords⟩
        · cases h
      · rintro ⟨words, hs, hwords⟩
        cases hwords with
        | cons hd htail =>
          obtain ⟨rfl, rfl⟩ := List.cons.inj hs
          rw [if_pos hd]
          exact ih.2 ⟨_, rfl, htail⟩

theorem isSome_decimalValue? {c : Char} (h : isDecimal c = true) : (decimalValue? c).isSome := by
  rw [isDecimal] at h
  rw [decimalValue?]
  split
  · rename_i hlow
    rw [if_pos hlow] at h
    simp [h]
  · rename_i hhigh
    rw [if_neg hhigh] at h
    rw [Option.isSome_map, List.isSome_find?]
    exact h

theorem isSome_digitsFrom? {digits : List Char} (h : ∀ c ∈ digits, isDecimal c = true) (n : Nat) :
    (digitsFrom? n digits).isSome := by
  induction digits generalizing n with
  | nil => rfl
  | cons c digits ih =>
    obtain ⟨hc, hdigits⟩ := List.forall_mem_cons.1 h
    obtain ⟨d, hd⟩ := Option.isSome_iff_exists.1 (isSome_decimalValue? hc)
    have hne : c ≠ '_' := by
      rintro rfl
      exact absurd hc (by decide)
    rw [digitsFrom?.eq_3 n c digits (fun _ _ h => absurd h hne), hd]
    exact ih hdigits _

theorem isSome_natural? {digits : List Char} (hne : digits ≠ [])
    (h : ∀ c ∈ digits, isDecimal c = true) : (natural? digits).isSome := by
  cases digits with
  | nil => exact absurd rfl hne
  | cons c digits =>
    obtain ⟨hc, hdigits⟩ := List.forall_mem_cons.1 h
    obtain ⟨d, hd⟩ := Option.isSome_iff_exists.1 (isSome_decimalValue? hc)
    rw [natural?, hd]
    exact isSome_digitsFrom? hdigits d

theorem takeWhile_append_of_head {p : Char → Bool} {front rest : List Char}
    (hfront : ∀ c ∈ front, p c = true) (hrest : ∀ c ∈ rest.head?, p c = false) :
    (front ++ rest).takeWhile p = front := by
  rw [List.takeWhile_append_of_pos hfront]
  cases rest with
  | nil => exact List.append_nil front
  | cons c rest => rw [List.takeWhile_cons_of_neg (by simp [hrest c rfl]), List.append_nil]

theorem scoreHere?_eq_some_iff {s : List Char} {n : Nat} :
    scoreHere? s = some n ↔ ∃ digits, BeginsWithScore s digits ∧ natural? digits = some n := by
  rw [scoreHere?, Option.bind_eq_some_iff]
  constructor
  · rintro ⟨rest, hrest, hn⟩
    obtain ⟨words, rfl, hwords⟩ := foldedLiteral?_eq_some_iff.1 hrest
    refine ⟨rest.takeWhile isDecimal, ⟨words, rest.dropWhile isDecimal, ?_, hwords, ?_, ?_, ?_⟩, hn⟩
    · rw [List.takeWhile_append_dropWhile]
    · intro hnil
      rw [hnil] at hn
      cases hn
    · exact fun c hc => List.mem_takeWhile_imp hc
    · intro c hc
      have hhead := List.head?_dropWhile_not isDecimal rest
      rwa [hc] at hhead
  · rintro ⟨digits, ⟨words, rest, rfl, hwords, hne, hdigits, hend⟩, hn⟩
    refine ⟨digits ++ rest, foldedLiteral?_eq_some_iff.2 ⟨words, rfl, hwords⟩, ?_⟩
    rw [takeWhile_append_of_head hdigits hend]
    exact hn

theorem exists_scoreHere? {s digits : List Char} (h : BeginsWithScore s digits) :
    ∃ n, natural? digits = some n ∧ scoreHere? s = some n := by
  obtain ⟨-, -, -, -, hne, hdigits, -⟩ := id h
  obtain ⟨n, hn⟩ := Option.isSome_iff_exists.1 (isSome_natural? hne hdigits)
  exact ⟨n, hn, scoreHere?_eq_some_iff.2 ⟨digits, h, hn⟩⟩

theorem not_beginsWithScore_nil (digits : List Char) : ¬BeginsWithScore [] digits := by
  rintro ⟨words, rest, hs, hwords, -⟩
  obtain ⟨rfl, -⟩ := List.append_eq_nil_iff.1 hs.symm
  cases hwords

section

variable {c : Char} {rest digits : List Char}

theorem tellsScore_iff_beginsWithScore {s : List Char} (h : ∃ other, BeginsWithScore s other) :
    TellsScore s digits ↔ BeginsWithScore s digits := by
  constructor
  · rintro ⟨front, back, rfl, hback, hfirst⟩
    cases front with
    | nil => exact hback
    | cons c front =>
      obtain ⟨other, hother⟩ := h
      exact absurd hother (hfirst 0 (Nat.zero_lt_succ _) other)
  · intro hs
    exact ⟨[], s, rfl, hs, nofun⟩

theorem tellsScore_cons_iff (h : ¬∃ other, BeginsWithScore (c :: rest) other) :
    TellsScore (c :: rest) digits ↔ TellsScore rest digits := by
  constructor
  · rintro ⟨front, back, hcut, hback, hfirst⟩
    cases front with
    | nil =>
      obtain rfl : c :: rest = back := hcut
      exact absurd ⟨digits, hback⟩ h
    | cons d front =>
      obtain ⟨rfl, rfl⟩ := List.cons.inj hcut
      exact ⟨front, back, rfl, hback, fun k hk => hfirst (k + 1) (Nat.succ_lt_succ hk)⟩
  · rintro ⟨front, back, rfl, hback, hfirst⟩
    refine ⟨c :: front, back, rfl, hback, fun k hk other hother => ?_⟩
    cases k with
    | zero => exact h ⟨other, hother⟩
    | succ k => exact hfirst k (Nat.lt_of_succ_lt_succ hk) other hother

end

theorem score?_eq_some_iff {text : List Char} {n : Nat} :
    score? text = some n ↔ ∃ digits, TellsScore text digits ∧ natural? digits = some n := by
  induction text with
  | nil =>
    constructor
    · rintro ⟨⟩
    · rintro ⟨digits, ⟨front, s, hcut, hs, -⟩, -⟩
      obtain ⟨-, rfl⟩ := List.append_eq_nil_iff.1 hcut.symm
      exact absurd hs (not_beginsWithScore_nil digits)
  | cons c rest ih =>
    by_cases hbegins : ∃ other, BeginsWithScore (c :: rest) other
    · obtain ⟨other, hother⟩ := hbegins
      obtain ⟨m, -, hm⟩ := exists_scoreHere? hother
      have hscore : score? (c :: rest) = scoreHere? (c :: rest) := by simp only [score?, hm]
      rw [hscore, scoreHere?_eq_some_iff]
      simp only [tellsScore_iff_beginsWithScore ⟨other, hother⟩]
    · have hnone : scoreHere? (c :: rest) = none := by
        rw [Option.eq_none_iff_forall_ne_some]
        intro m hm
        obtain ⟨digits, hdigits, -⟩ := scoreHere?_eq_some_iff.1 hm
        exact hbegins ⟨digits, hdigits⟩
      have hscore : score? (c :: rest) = score? rest := by simp only [score?, hnone]
      rw [hscore, ih]
      simp only [tellsScore_cons_iff hbegins]

theorem isSome_score?_iff {text : List Char} : (score? text).isSome ↔ ∃ digits, TellsScore text digits := by
  rw [Option.isSome_iff_exists]
  constructor
  · rintro ⟨n, hn⟩
    obtain ⟨digits, hdigits, -⟩ := score?_eq_some_iff.1 hn
    exact ⟨digits, hdigits⟩
  · rintro ⟨digits, hdigits⟩
    obtain ⟨-, s, -, hs, -⟩ := id hdigits
    obtain ⟨n, hn, -⟩ := exists_scoreHere? hs
    exact ⟨n, score?_eq_some_iff.2 ⟨digits, hdigits, hn⟩⟩

/-! ## Messages -/

/-- A message has a text and a line. What else it says is open. -/
structure HasTextAndLine (message : Json) : Prop where
  is_object : ∃ fields, message = .obj fields
  text : ∃ text, message.field? "message" = some (.str text)
  line : ∃ line, message.field? "line" = some (.int line)

/-- A warning of the complexity rule that tells a score. -/
structure ScoresFunction (message : Json) : Prop where
  rule : message.field? "ruleId" = some (.str "complexity")
  warning : ∃ severity, message.field? "severity" = some severity ∧ severity.isOne = true
  text : ∃ text, message.field? "message" = some (.str text) ∧ ∃ digits, TellsScore text.toList digits

/-- What is found in a message is what it says, with the node type of declarations where it has none. -/
structure Finding.IsSaidBy (f : Finding) (message : Json) : Prop where
  line : message.field? "line" = some (.int f.line)
  text : message.field? "message" = some (.str f.message)
  score : ∃ digits, TellsScore f.message.toList digits ∧ natural? digits = some f.score
  column : f.column = (message.field? "column").getD .null
  node_type : f.nodeType =
    let nodeType := (message.field? "nodeType").getD .null
    if nodeType.isVoid then .str defaultNodeType else nodeType

/-- The text of a message, if it has one. -/
def messageText? (message : Json) : Option String :=
  match message.field? "message" with
  | some (.str text) => some text
  | _ => none

theorem messageText?_eq_some_iff {message : Json} {text : String} :
    messageText? message = some text ↔ message.field? "message" = some (.str text) := by
  rw [messageText?]
  split
  · rename_i heq
    rw [heq]
    simp
  · rename_i hne
    exact ⟨nofun, fun h => absurd h (hne text)⟩

theorem field?_any_isText_iff {message : Json} {name text : String} :
    (message.field? name).any (Json.isText text) = true ↔ message.field? name = some (.str text) := by
  cases message.field? name with
  | none => simp
  | some value => cases value <;> simp [Json.isText]

theorem field?_any_isOne_iff {message : Json} {name : String} :
    (message.field? name).any Json.isOne = true ↔
      ∃ value, message.field? name = some value ∧ value.isOne = true := by
  cases message.field? name <;> simp

theorem scoresFunction_iff {message : Json} : ScoresFunction message ↔
    ((message.field? "ruleId").any (Json.isText "complexity") &&
      (message.field? "severity").any Json.isOne &&
      (messageText? message).any fun text => (score? text.toList).isSome) = true := by
  rw [Bool.and_eq_true, Bool.and_eq_true, field?_any_isText_iff, field?_any_isOne_iff,
    Option.any_eq_true]
  simp only [isSome_score?_iff, messageText?_eq_some_iff]
  constructor
  · rintro ⟨hrule, hwarning, htext⟩
    exact ⟨⟨hrule, hwarning⟩, htext⟩
  · rintro ⟨⟨hrule, hwarning⟩, htext⟩
    exact ⟨hrule, hwarning, htext⟩

instance : DecidablePred ScoresFunction := fun _ => decidable_of_iff' _ scoresFunction_iff

namespace HasTextAndLine

variable {message : Json} (h : HasTextAndLine message)

include h

theorem exists_finding? (hscores : ScoresFunction message) :
    ∃ f, finding? message = .ok (some f) ∧ f.IsSaidBy message := by
  obtain ⟨fields, rfl⟩ := h.is_object
  obtain ⟨line, hline⟩ := h.line
  obtain ⟨text, htext, digits, hdigits⟩ := hscores.text
  obtain ⟨score, hscore⟩ := Option.isSome_iff_exists.1 (isSome_score?_iff.2 ⟨digits, hdigits⟩)
  have hrule := field?_any_isText_iff.2 hscores.rule
  have hwarning := field?_any_isOne_iff.2 hscores.warning
  simp only [finding?, hrule, hwarning, htext, hline, hscore, Option.getD_some, Json.whole]
  exact ⟨_, rfl, hline, htext, score?_eq_some_iff.1 hscore, rfl, rfl⟩

theorem finding?_eq_none (hscores : ¬ScoresFunction message) : finding? message = .ok none := by
  obtain ⟨fields, rfl⟩ := h.is_object
  obtain ⟨text, htext⟩ := h.text
  rw [scoresFunction_iff, messageText?_eq_some_iff.2 htext] at hscores
  simp only [finding?, htext, Option.getD_some]
  split
  · rfl
  · rename_i hwarning
    cases hscore : score? text.toList with
    | none => rfl
    | some score =>
      simp only [hscore, Option.any_some, Option.isSome_some, Bool.and_true] at hscores
      simp [hscores] at hwarning

end HasTextAndLine

/-- Well-formed messages give what those of them say that score a function, in order. -/
theorem exists_findings {messages : List Json} (h : ∀ m ∈ messages, HasTextAndLine m) :
    ∃ found, findings messages = .ok found ∧
      List.Forall₂ (fun message f => Finding.IsSaidBy f message)
        (messages.filter fun m => ScoresFunction m) found := by
  induction messages with
  | nil => exact ⟨[], rfl, .nil⟩
  | cons message messages ih =>
    obtain ⟨hmessage, hmessages⟩ := List.forall_mem_cons.1 h
    obtain ⟨more, hmore, hsaid⟩ := ih hmessages
    by_cases hscores : ScoresFunction message
    · obtain ⟨f, hf, hfirst⟩ := hmessage.exists_finding? hscores
      refine ⟨f :: more, ?_, ?_⟩
      · simp [findings, hf, hmore, bind, Except.bind, pure, Except.pure]
      · simp only [List.filter_cons, hscores, decide_true, if_true]
        exact .cons hfirst hsaid
    · refine ⟨more, ?_, ?_⟩
      · simp [findings, hmessage.finding?_eq_none hscores, hmore, bind, Except.bind, pure, Except.pure]
      · simp only [List.filter_cons, hscores, decide_false, Bool.false_eq_true, if_false]
        exact hsaid

end BranchTally
