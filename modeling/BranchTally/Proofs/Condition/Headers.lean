-- SUMMARY: The only header of a printed condition is the one in front of it, and its parenthesis closes at the end.
import BranchTally.Proofs.Condition.Names
import BranchTally.Proofs.Header

/-!
# Headers around conditions

No keyword form fits anywhere in the text of a condition. So the headers of the first line are those
of its first characters, and the other lines have none, save that a name may pass for a `case`.
-/

namespace BranchTally

open Text

/-! ## Forms that fit nowhere -/

/-- A form that needs a parenthesis or brace after its word finds none. -/
structure KeywordForm.FailsOnNames (form : KeywordForm) : Prop where
  eq_none : ∀ {s : Line}, NamesStop s → ∀ before, form before s = none

theorem parenForm_failsOnNames {word : List Char} (hword : word.getLast?.any isNameChar = true) :
    (parenForm word).FailsOnNames where
  eq_none {s} h before := by
    unfold parenForm
    split
    · cases hliteral : literal? word s with
      | none => rfl
      | some rest => rw [Option.bind_some, h.spacedChar?_eq_none hword hliteral]; rfl
    · rfl

theorem elseIfForm_failsOnNames : elseIfForm.FailsOnNames where
  eq_none {s} h before := by
    unfold elseIfForm
    split
    · cases helse : literal? ['e', 'l', 's', 'e'] s with
      | none => rfl
      | some rest =>
        cases hblanks : blanks? rest with
        | none => simp [hblanks]
        | some next =>
          cases hif : literal? ['i', 'f'] next with
          | none => simp [hblanks, hif]
          | some tail =>
            have hnext : NamesStop next :=
              h.of_suffix ((suffix_of_blanks? hblanks).trans (suffix_of_literal? helse))
            simp [hblanks, hif, hnext.spacedChar?_eq_none (by decide) hif]
    · rfl

theorem forForm_failsOnNames : forForm.FailsOnNames where
  eq_none {s} h before := by
    unfold forForm
    split
    · cases hfor : literal? ['f', 'o', 'r'] s with
      | none => rfl
      | some rest =>
        dsimp only
        cases hawait : literal? ['a', 'w', 'a', 'i', 't'] (skipBlanks rest) with
        | none =>
          have hagain : spacedChar? '(' (skipBlanks rest) = spacedChar? '(' rest := by
            rw [spacedChar?, spacedChar?, skipBlanks_skipBlanks]
          rw [Option.getD_none, hagain, h.spacedChar?_eq_none (by decide) hfor]
          rfl
        | some tail =>
          have hrest : NamesStop (skipBlanks rest) :=
            h.of_suffix ((skipBlanks_suffix rest).trans (suffix_of_literal? hfor))
          rw [Option.getD_some, hrest.spacedChar?_eq_none (by decide) hawait]
          rfl
    · rfl

theorem catchForm_failsOnNames : catchForm.FailsOnNames where
  eq_none {s} h before := by
    unfold catchForm
    split
    · cases hcatch : literal? ['c', 'a', 't', 'c', 'h'] s with
      | none => rfl
      | some rest =>
        cases hhead : skipBlanks rest with
        | nil => simp [hhead]
        | cons c tail =>
          have hc := h.after_literal? (by decide) hcatch (by rw [hhead]; rfl : _ = some c)
          simp [hhead, hc]
    · rfl

theorem KeywordForm.FailsOnNames.headersFrom_eq_nil {form : KeywordForm} (hform : form.FailsOnNames)
    {s : Line} (h : NamesStop s) (before : Option Char) (pos : Nat) :
    headersFrom form before pos s = [] := by
  induction s generalizing before pos with
  | nil => rfl
  | cons c s ih =>
    rw [headersFrom, hform.eq_none h before]
    exact ih h.2 (some c) (pos + 1)

/-! ## The form of `do` -/

theorem doForm_of_ne {c : Char} (h : c ≠ 'd') (before : Option Char) (rest : Line) :
    doForm before (c :: rest) = none := by
  have hliteral : literal? ['d', 'o'] (c :: rest) = none := by
    rw [Option.eq_none_iff_forall_ne_some]
    intro tail htail
    exact h (List.cons.inj (literal?_eq_some_iff.1 htail)).1
  simp [doForm, hliteral]

/-- Inside a name no keyword begins. -/
theorem mayOpenKeyword_of_isNameChar {c : Char} (h : isNameChar c = true) :
    mayOpenKeyword (some c) = false := by
  simp only [isNameChar, Bool.or_eq_true, decide_eq_true_eq] at h
  rcases h with h | rfl
  · simp [mayOpenKeyword, atWordStart, h]
  · decide

theorem headersFrom_doForm_name {name rest : Line} (h : ∀ c ∈ name, isNameChar c = true)
    (hrest : ∀ before pos, headersFrom doForm before pos rest = []) {before : Char}
    (hbefore : isNameChar before = true) (pos : Nat) :
    headersFrom doForm (some before) pos (name ++ rest) = [] := by
  induction name generalizing before pos with
  | nil => exact hrest _ _
  | cons c name ih =>
    have hnone : doForm (some before) (c :: (name ++ rest)) = none := by
      simp [doForm, mayOpenKeyword_of_isNameChar hbefore]
    rw [List.cons_append, headersFrom, hnone]
    exact ih (fun d hd => h d (List.mem_cons_of_mem _ hd)) (h c List.mem_cons_self) (pos + 1)

/-- A name that begins with `do` goes on. -/
theorem doForm_name {name : FreeIdentifier} {rest : Line} (hstop : StopsName rest)
    (before : Option Char) : doForm before (name.text ++ rest) = none := by
  unfold doForm
  split
  · cases hliteral : literal? ['d', 'o'] (name.text ++ rest) with
    | none => rfl
    | some tail =>
      obtain ⟨more, hname, rfl⟩ :=
        append_eq_of_head (fun _ => hstop.not_isNameChar) (forall_mem_of_all (by decide))
          (literal?_eq_some_iff.1 hliteral)
      have hmore := name.ne_nil_of_append (by decide) hname
      obtain ⟨c, more, rfl⟩ := List.exists_cons_of_ne_nil hmore
      have hc : isNameChar c = true := name.nameChars c (by simp [hname])
      have hblank : isBlank c = false := isBlank_of_isNameChar hc
      have hbrace : c ≠ '{' := ne_of_isNameChar hc (by decide)
      simp [skipBlanks_cons_of_not_isBlank hblank, hbrace]
  · rfl

theorem headersFrom_doForm_text (line : PrintedLine ConditionToken) (h : Meeting line.tokens)
    (before : Option Char) (pos : Nat) : headersFrom doForm before pos line.text = [] := by
  -- neither blanks nor signs begin a `do`
  have hskip : ∀ {text rest : Line}, (∀ c ∈ text, isNameChar c = false) →
      (∀ before pos, headersFrom doForm before pos rest = []) →
      ∀ before pos, headersFrom doForm before pos (text ++ rest) = [] := by
    intro text rest htext hrest
    induction text with
    | nil => exact hrest
    | cons c text ih =>
      intro before pos
      have hc : c ≠ 'd' := by
        rintro rfl
        exact Bool.false_ne_true ((htext 'd' List.mem_cons_self).symm.trans (by decide))
      rw [List.cons_append, headersFrom, doForm_of_ne hc]
      exact ih (fun d hd => htext d (List.mem_cons_of_mem _ hd)) _ _
  obtain ⟨pieces, tail⟩ := line
  induction pieces generalizing before pos with
  | nil =>
    have htail := @hskip tail.text [] tail.not_isNameChar (fun _ _ => rfl) before pos
    rwa [List.append_nil] at htail
  | cons piece pieces ih =>
    obtain ⟨gap, t⟩ := piece
    have hrest := fun before pos => ih before pos (List.isChain_cons.1 h).2
    rw [PrintedLine.text_cons]
    refine hskip gap.not_isNameChar (fun before pos => ?_) before pos
    cases hword : t.isWord with
    | false => exact hskip (t.not_isNameChar_of_mem hword) hrest before pos
    | true =>
      obtain ⟨name, rfl⟩ := t.exists_word_of_isWord hword
      have hnone := @doForm_name name _ (@stopsName_text name pieces tail h) before
      obtain ⟨c, more, hname⟩ := List.exists_cons_of_ne_nil name.ne_nil
      have hmore : ∀ d ∈ c :: more, isNameChar d = true := hname ▸ name.nameChars
      change headersFrom doForm before pos (name.text ++ _) = []
      rw [hname] at hnone ⊢
      rw [List.cons_append] at hnone ⊢
      rw [headersFrom, hnone]
      exact headersFrom_doForm_name (fun d hd => hmore d (List.mem_cons_of_mem _ hd)) hrest
        (hmore c List.mem_cons_self) (pos + 1)

/-! ## Headers of the first line -/

theorem header?_of_singleton {form : KeywordForm} {line : Line} {start opening : Nat}
    (h : headersFrom form none 0 line = [(start, some opening)]) {skip : Nat → Bool}
    (hskip : skip start = false) {live : LiveMap} (hlive : live.isLive start = true) :
    header? form skip live line = some ⟨start, some ⟨opening, closingParen? line opening⟩⟩ := by
  simp [header?, h, hskip, hlive]

namespace ConditionHeader

/-- Where the keyword of the header stands. -/
def start : ConditionHeader → Nat
  | .elseIfHead => 2
  | _ => 0

/-- Where the parenthesis of the header stands. -/
def opening : ConditionHeader → Nat
  | .ifHead => 3
  | .whileHead => 6
  | .switchHead => 7
  | .elseIfHead => 10

theorem length_text (header : ConditionHeader) : header.text.length = header.opening + 1 := by
  cases header <;> rfl

theorem isPlain_text (header : ConditionHeader) : IsPlain header.text :=
  forall_mem_of_all (by cases header <;> decide)

/-- The header as it is found on a line that opens with it. -/
def head (header : ConditionHeader) (line : Line) : Header :=
  ⟨header.start, some ⟨header.opening, closingParen? line header.opening⟩⟩

/-- The headers of a line that opens with the header and has no other. -/
def headers (header : ConditionHeader) (line : Line) : Headers :=
  match header with
  | .ifHead => { ifHeader := some (head .ifHead line) }
  | .whileHead => { whileHeader := some (head .whileHead line) }
  | .switchHead => { switchHeader := some (head .switchHead line) }
  | .elseIfHead => { elseIf := some (head .elseIfHead line) }

end ConditionHeader

section

variable {body : Line}

/-- What a form finds on a line that opens with a header it finds in front of the condition. -/
theorem KeywordForm.FailsOnNames.headersFrom_header {form : KeywordForm} (hform : form.FailsOnNames)
    (header : ConditionHeader) (hbody : NamesStop body) {found : List (Nat × Option Nat)}
    (hfront : headersFrom form none 0 (header.text ++ body) =
      found ++ headersFrom form (some '(') (header.opening + 1) body) :
    headersFrom form none 0 (header.text ++ body) = found := by
  rw [hfront, hform.headersFrom_eq_nil hbody, List.append_nil]

theorem headersFrom_ifForm (header : ConditionHeader) (hbody : NamesStop body) :
    headersFrom ifForm none 0 (header.text ++ body) =
      match header with
      | .ifHead => [(0, some 3)]
      | .elseIfHead => [(7, some 10)]
      | _ => [] := by
  have hfail : ifForm.FailsOnNames := parenForm_failsOnNames (by decide)
  cases header with
  | ifHead =>
    have hopening : 0 + (body.length + 3) - body.length = 3 := by omega
    exact hfail.headersFrom_header .ifHead hbody (congrArg (fun n => (0, some n) :: _) hopening)
  | whileHead => exact hfail.headersFrom_header .whileHead hbody rfl
  | switchHead => exact hfail.headersFrom_header .switchHead hbody rfl
  | elseIfHead =>
    have hopening : 7 + (body.length + 3) - body.length = 10 := by omega
    exact hfail.headersFrom_header .elseIfHead hbody (congrArg (fun n => (7, some n) :: _) hopening)

theorem headersFrom_elseIfForm (header : ConditionHeader) (hbody : NamesStop body) :
    headersFrom elseIfForm none 0 (header.text ++ body) =
      match header with
      | .elseIfHead => [(2, some 10)]
      | _ => [] := by
  have hfail := elseIfForm_failsOnNames
  cases header with
  | ifHead => exact hfail.headersFrom_header .ifHead hbody rfl
  | whileHead => exact hfail.headersFrom_header .whileHead hbody rfl
  | switchHead => exact hfail.headersFrom_header .switchHead hbody rfl
  | elseIfHead =>
    have hopening : 2 + (body.length + 8) - body.length = 10 := by omega
    exact hfail.headersFrom_header .elseIfHead hbody (congrArg (fun n => (2, some n) :: _) hopening)

theorem headersFrom_whileForm (header : ConditionHeader) (hbody : NamesStop body) :
    headersFrom whileForm none 0 (header.text ++ body) =
      match header with
      | .whileHead => [(0, some 6)]
      | _ => [] := by
  have hfail : whileForm.FailsOnNames := parenForm_failsOnNames (by decide)
  cases header with
  | ifHead => exact hfail.headersFrom_header .ifHead hbody rfl
  | whileHead =>
    have hopening : 0 + (body.length + 6) - body.length = 6 := by omega
    exact hfail.headersFrom_header .whileHead hbody (congrArg (fun n => (0, some n) :: _) hopening)
  | switchHead => exact hfail.headersFrom_header .switchHead hbody rfl
  | elseIfHead => exact hfail.headersFrom_header .elseIfHead hbody rfl

theorem headersFrom_switchForm (header : ConditionHeader) (hbody : NamesStop body) :
    headersFrom switchForm none 0 (header.text ++ body) =
      match header with
      | .switchHead => [(0, some 7)]
      | _ => [] := by
  have hfail : switchForm.FailsOnNames := parenForm_failsOnNames (by decide)
  cases header with
  | ifHead => exact hfail.headersFrom_header .ifHead hbody rfl
  | whileHead => exact hfail.headersFrom_header .whileHead hbody rfl
  | switchHead =>
    have hopening : 0 + (body.length + 7) - body.length = 7 := by omega
    exact hfail.headersFrom_header .switchHead hbody (congrArg (fun n => (0, some n) :: _) hopening)
  | elseIfHead => exact hfail.headersFrom_header .elseIfHead hbody rfl

theorem headersFrom_forForm (header : ConditionHeader) (hbody : NamesStop body) :
    headersFrom forForm none 0 (header.text ++ body) = [] := by
  cases header <;> exact forForm_failsOnNames.headersFrom_header _ hbody rfl

theorem headersFrom_catchForm (header : ConditionHeader) (hbody : NamesStop body) :
    headersFrom catchForm none 0 (header.text ++ body) = [] := by
  cases header <;> exact catchForm_failsOnNames.headersFrom_header _ hbody rfl

end

theorem headersFrom_doForm (header : ConditionHeader) {line : PrintedLine ConditionToken}
    (h : Meeting line.tokens) : headersFrom doForm none 0 (header.text ++ line.text) = [] := by
  cases header with
  | ifHead => exact headersFrom_doForm_text line h (some '(') 4
  | whileHead => exact headersFrom_doForm_text line h (some '(') 7
  | switchHead => exact headersFrom_doForm_text line h (some '(') 8
  | elseIfHead => exact headersFrom_doForm_text line h (some '(') 11

theorem Headers.of_header (header : ConditionHeader) {line : PrintedLine ConditionToken}
    (h : Meeting line.tokens) :
    Headers.of (header.text ++ line.text) = header.headers (header.text ++ line.text) := by
  have hnames := namesStop_text line h
  have hplain := header.isPlain_text.append (isPlain_conditionText line)
  have hlive {i : Nat} (hi : i < header.text.length) :
      (LiveMap.of (header.text ++ line.text)).isLive i = true :=
    hplain.isLive (by rw [List.length_append]; omega)
  have hif := headersFrom_ifForm header hnames
  have helseIf := headersFrom_elseIfForm header hnames
  have hwhile := headersFrom_whileForm header hnames
  have hswitch := headersFrom_switchForm header hnames
  have hfor := headersFrom_forForm header hnames
  have hcatch := headersFrom_catchForm header hnames
  have hdo := headersFrom_doForm header h
  have htail : isDoTail (header.text ++ line.text) = false := by cases header <;> rfl
  have hcase : BranchTally.isCase (header.text ++ line.text) = false := by cases header <;> rfl
  unfold Headers.of
  simp only [header?_of_nil hfor, header?_of_nil hcatch, header?_of_nil hdo, htail, hcase,
    Option.map_none, Option.getD_none, Bool.false_eq_true, if_false]
  cases header with
  | ifHead =>
    rw [header?_of_singleton hif rfl (hlive (by decide)), header?_of_nil helseIf,
      header?_of_nil hwhile, header?_of_nil hswitch]
    rfl
  | whileHead =>
    rw [header?_of_nil hif, header?_of_nil helseIf,
      header?_of_singleton hwhile rfl (hlive (by decide)), header?_of_nil hswitch]
    rfl
  | switchHead =>
    rw [header?_of_nil hif, header?_of_nil helseIf, header?_of_nil hwhile,
      header?_of_singleton hswitch rfl (hlive (by decide))]
    rfl
  | elseIfHead =>
    -- the `if` after `else` is left to the form of `else if`
    have hskipped : header? ifForm
        (fun i => endsWithElse ((ConditionHeader.elseIfHead.text ++ line.text).take i))
        (LiveMap.of (ConditionHeader.elseIfHead.text ++ line.text))
        (ConditionHeader.elseIfHead.text ++ line.text) = none := by
      have helse : endsWithElse ((ConditionHeader.elseIfHead.text ++ line.text).take 7) = true := rfl
      simp [header?, hif, helse]
    rw [hskipped, header?_of_singleton helseIf rfl (hlive (by decide)), header?_of_nil hwhile,
      header?_of_nil hswitch]
    rfl

/-! ## Where the condition closes -/

theorem closingParenFrom_append {text : Line} (h : ∀ c ∈ text, c ≠ '(' ∧ c ≠ ')') (depth : Int)
    (pos : Nat) (rest : Line) :
    closingParenFrom depth pos ((text ++ rest).map fun c => (c, false)) =
      closingParenFrom depth (pos + text.length) (rest.map fun c => (c, false)) := by
  induction text generalizing pos with
  | nil => rfl
  | cons c text ih =>
    have hc := h c List.mem_cons_self
    have hrest := ih (fun d hd => h d (List.mem_cons_of_mem _ hd)) (pos + 1)
    simp only [List.cons_append, List.map_cons, closingParenFrom, hc, hrest, List.length_cons,
      Bool.false_eq_true, if_false]
    congr 1
    omega

/-- The last token of a condition stands in the text, which begins at position `pos`, with its
parenthesis at position `closing`. -/
def EndsCondition (pos : Nat) (text : Line) (closing : Nat) : Prop :=
  ∃ (before : Line) (tail : Gap),
    text = before ++ ([')', ' ', '{'] ++ tail.text) ∧ closing = pos + before.length

theorem EndsCondition.append {pos closing : Nat} {text : Line} (front : Line)
    (h : EndsCondition (pos + front.length) text closing) :
    EndsCondition pos (front ++ text) closing := by
  obtain ⟨before, tail, rfl, rfl⟩ := h
  refine ⟨front ++ before, tail, (List.append_assoc _ _ _).symm, ?_⟩
  rw [List.length_append, Nat.add_assoc]

/-- The parenthesis that closes the condition is the one of its last token. -/
theorem closingParenFrom_text {line : PrintedLine ConditionToken} {depth : Nat} {pos closing : Nat}
    (hdepth : 1 ≤ depth) (hopen : StaysOpen depth line.tokens)
    (h : closingParenFrom depth pos (line.text.map fun c => (c, false)) = some closing) :
    EndsCondition pos line.text closing := by
  have hgap (gap : Gap) : ∀ c ∈ gap.text, c ≠ '(' ∧ c ≠ ')' := by
    intro c hc
    constructor <;> rintro rfl <;> exact gap.not_mem (by decide) hc
  obtain ⟨pieces, tail⟩ := line
  induction pieces generalizing depth pos with
  | nil =>
    have hnone := closingParenFrom_append (hgap tail) depth pos []
    rw [List.append_nil] at hnone
    rw [PrintedLine.text_nil, hnone] at h
    simp [closingParenFrom] at h
  | cons piece pieces ih =>
    obtain ⟨gap, t⟩ := piece
    rw [PrintedLine.text_cons, closingParenFrom_append (hgap gap)] at h
    rw [PrintedLine.text_cons]
    refine EndsCondition.append gap.text ?_
    -- a token without parentheses leaves the depth as it is
    have hflat (text : Line) (hflat : ∀ c ∈ text, c ≠ '(' ∧ c ≠ ')')
        (hopen' : StaysOpen depth (⟨pieces, tail⟩ : PrintedLine ConditionToken).tokens)
        (h' : closingParenFrom depth (pos + gap.text.length)
          ((text ++ (⟨pieces, tail⟩ : PrintedLine ConditionToken).text).map fun c => (c, false)) =
            some closing) :
        EndsCondition (pos + gap.text.length)
          (text ++ (⟨pieces, tail⟩ : PrintedLine ConditionToken).text) closing := by
      rw [closingParenFrom_append hflat] at h'
      exact (ih hdepth hopen' h').append text
    cases t with
    | word name =>
      refine hflat name.text (fun c hc => ?_) hopen h
      exact ⟨ne_of_isNameChar (name.nameChars c hc) (by decide),
        ne_of_isNameChar (name.nameChars c hc) (by decide)⟩
    | bang => exact hflat ['!'] (forall_mem_of_all (by decide)) hopen h
    | logical op => exact hflat op.token (forall_mem_of_all (by cases op <;> decide)) hopen h
    | opening => exact (@ih (depth + 1) _ (Nat.le_add_left 1 depth) hopen h).append ['(']
    | closing =>
      obtain ⟨hlarge, hrest⟩ := hopen
      have hne : (depth : Int) ≠ 1 := by omega
      have hless : (depth : Int) - 1 = (depth - 1 : Nat) := by omega
      have hcell : closingParenFrom depth (pos + gap.text.length)
          ((Printable.text ConditionToken.closing ++
            (⟨pieces, tail⟩ : PrintedLine ConditionToken).text).map fun c => (c, false)) =
          closingParenFrom (depth - 1 : Nat) (pos + gap.text.length + 1)
            ((⟨pieces, tail⟩ : PrintedLine ConditionToken).text.map fun c => (c, false)) := by
        rw [← hless]
        exact if_neg hne
      exact (@ih (depth - 1) _ (by omega) hrest (hcell ▸ h)).append [')']
    | final =>
      obtain ⟨rfl, hlast⟩ := hopen
      obtain rfl := List.map_eq_nil_iff.1 hlast
      exact ⟨[], tail, rfl, (Option.some.inj h).symm⟩

end BranchTally
