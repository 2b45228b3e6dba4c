-- SUMMARY: Cut where the searches cut them, two lines that differ in what a quotation says still differ in that alone, and their parameters have as many defaults.
import Mathlib
import BranchTally.Proofs.Redaction.Default
import BranchTally.Proofs.Redaction.Ternary

/-!
# Requoted texts

Lines are cut at arrows and brackets, trimmed, and read off from the front. None of this cuts through
an inert quotation, so the pieces of a line and of the line with the content of the quotation replaced
are related as the lines are.
-/

namespace BranchTally

open Text

/-! ## Positions of brackets and arrows -/

theorem getElem?_of_find? {c : Char} {word line : Line} {i : Nat} (h : find? (c :: word) line = some i) :
    (line)[i]? = some c := by
  induction line generalizing i with
  | nil => simp [find?] at h
  | cons d line ih =>
    rw [find?] at h
    split at h
    · next hprefix =>
      obtain rfl := Option.some.inj h
      have hd : c = d := (List.cons_prefix_cons.1 (List.isPrefixOf_iff_prefix.1 hprefix)).1
      rw [hd, List.getElem?_cons_zero]
    · obtain ⟨j, hj, rfl⟩ := Option.map_eq_some_iff.1 h
      exact ih hj

theorem getElem?_of_lastIndexOf? {c : Char} {line : Line} {i : Nat} (h : lastIndexOf? c line = some i) :
    (line)[i]? = some c := by
  induction line generalizing i with
  | nil => simp [lastIndexOf?] at h
  | cons d line ih =>
    rw [lastIndexOf?] at h
    split at h
    · next j hj =>
      obtain rfl := Option.some.inj h
      exact ih hj
    · split at h
      · next hd =>
        obtain rfl := Option.some.inj h
        rw [hd, List.getElem?_cons_zero]
      · simp at h

/-- A balanced bracket is closed behind its opening. -/
theorem getElem?_of_balancedEnd? {opening closing : Char} {line : Line} {position stop : Nat}
    (h : balancedEnd? opening closing line position = some stop) :
    ∃ i, stop = i + 1 ∧ position < i ∧ (line)[i]? = some closing := by
  have hfrom (rest : Line) (depth pos : Nat)
      (h : balancedEndFrom opening closing depth pos rest = some stop) :
      ∃ i, stop = pos + i + 1 ∧ (rest)[i]? = some closing := by
    induction rest generalizing depth pos with
    | nil => simp [balancedEndFrom] at h
    | cons c rest ih =>
      have hlater {depth : Nat} (h : balancedEndFrom opening closing depth (pos + 1) rest = some stop) :
          ∃ i, stop = pos + i + 1 ∧ (c :: rest)[i]? = some closing := by
        obtain ⟨i, hstop, hi⟩ := ih _ _ h
        exact ⟨i + 1, by omega, hi⟩
      rw [balancedEndFrom] at h
      split_ifs at h with hopens hcloses hdepth
      · exact hlater h
      · obtain rfl := Option.some.inj h
        exact ⟨0, rfl, by rw [hcloses]; rfl⟩
      · exact hlater h
      · exact hlater h
  obtain ⟨i, hstop, hi⟩ := hfrom _ _ _ h
  rw [List.getElem?_drop] at hi
  exact ⟨position + 1 + i, hstop, by omega, hi⟩

theorem suffix_of_declaredValue? {line value : Line} (h : declaredValue? line = some value) :
    value <:+ line := by
  obtain ⟨afterName, hname, hvalue⟩ := Option.bind_eq_some_iff.1 h
  obtain ⟨afterBlanks, hblanks, hname⟩ := Option.bind_eq_some_iff.1 hname
  obtain ⟨afterWord, hword, hblanks⟩ := Option.bind_eq_some_iff.1 hblanks
  exact ((List.suffix_cons _ _).trans (suffix_of_spacedChar? hvalue)).trans
    ((suffix_of_word? hname).trans ((suffix_of_blanks? hblanks).trans
      ((suffix_of_oneOf? hword).trans (skipBlanks_suffix line))))

/-! ## Spans -/

theorem Span.of_suffix {text value : Line} (h : value <:+ text) :
    Span.of ⟨text.length - value.length, text.length⟩ text = value := by
  rw [Span.of, List.take_length, ← List.suffix_iff_eq_drop.1 h]

theorem Span.of_all (text : Line) : Span.of ⟨0, text.length⟩ text = text := by
  rw [Span.of, List.take_length, List.drop_zero]

/-! ## Requoted texts -/

/-- The second text is the first, or it has the content of an inert quotation replaced that stands apart
from defaults. -/
inductive Requoted : Line → Line → Prop
  | same (s : Line) : Requoted s s
  | quotation (t : Quotation) (h : t.Inert) (happart : t.Apart) : Requoted t.line t.redacted

/-- What stands around the quotation may be cut. -/
theorem Requoted.of_subset {t : Quotation} (h : t.Inert) (happart : t.Apart) {front back : Line}
    (hfront : front ⊆ t.front) (hback : back ⊆ t.back) :
    Requoted (front ++ t.quote :: (t.content ++ t.quote :: back))
      (front ++ t.quote :: (t.redaction.filler ++ t.quote :: back)) :=
  .quotation { t with front := front, back := back } ⟨h.chars, h.function⟩
    (happart.imp_right (Or.imp (fun hnone hmem => hnone (hfront hmem)) fun hnone hmem =>
      hnone (hback hmem)))

namespace Requoted

variable {s s' : Line} (h : Requoted s s')

include h

theorem sameText : SameText s s' := by
  cases h with
  | same => exact SameText.refl s
  | quotation t h => exact h.sameText

theorem count {form : DefaultForm} (hform : form ∈ Quotation.forms) : form.count s = form.count s' := by
  cases h with
  | same => rfl
  | quotation t h happart => exact happart.count_redacted h hform

theorem countDefaults : countDefaults s = BranchTally.countDefaults s' :=
  h.count (by simp [Quotation.forms])

/-! ## Pieces -/

theorem skipBlanks : Requoted (skipBlanks s) (Text.skipBlanks s') := by
  cases h with
  | same => exact .same _
  | quotation t h happart =>
    have hskip := skipBlanks_append_guard (Quotation.isGuard_quote (t := t)) t.front
    rw [t.line_eq, t.redacted_eq, Quotation.quoted, Quotation.quoted, hskip, hskip]
    exact .of_subset h happart (List.dropWhile_subset _) (List.Subset.refl _)

theorem trim : Requoted (trim s) (Text.trim s') := by
  have hskipped := h.skipBlanks
  unfold Text.trim
  generalize Text.skipBlanks s = u, Text.skipBlanks s' = u' at hskipped
  cases hskipped with
  | same => exact .same _
  | quotation t h happart =>
    have htrim := trimEnd_append_guard (Quotation.isGuard_quote (t := t))
    rw [t.line_eq, t.redacted_eq, Quotation.quoted, Quotation.quoted, htrim, htrim, htrim, htrim]
    exact .of_subset h happart (List.Subset.refl _) fun c hc => by
      simp only [trimEnd, List.mem_reverse] at hc
      exact List.mem_reverse.1 ((List.dropWhile_suffix _).subset hc)

theorem dropWhile_ne {x : Char} (hx : isInert x = false) (hguard : isGuard x = false) :
    Requoted (s.dropWhile (· ≠ x)) (s'.dropWhile (· ≠ x)) := by
  cases h with
  | same => exact .same _
  | quotation t h happart =>
    rw [t.line_eq, t.redacted_eq]
    cases hfront : t.front.dropWhile (· ≠ x) with
    | nil =>
      have hquote : t.quote ≠ x := by
        rintro rfl
        exact Bool.false_ne_true (hguard.symm.trans Quotation.isGuard_quote)
      have hall : ∀ c ∈ t.front, decide (c ≠ x) = true := List.dropWhile_eq_nil_iff.1 hfront
      have hdrop {said : Line} (hsaid : t.Says said) :
          (t.front ++ t.quoted said).dropWhile (· ≠ x) = t.back.dropWhile (· ≠ x) := by
        have hnone : ∀ c ∈ said, decide (c ≠ x) = true := fun c hc =>
          decide_eq_true (ne_of_isInert hx (h.isInert_of_said hsaid c hc))
        have hstep (rest : Line) : (t.quote :: rest).dropWhile (· ≠ x) = rest.dropWhile (· ≠ x) :=
          List.dropWhile_cons_of_pos (by simpa using hquote)
        rw [List.dropWhile_append_of_pos hall, Quotation.quoted, hstep,
          List.dropWhile_append_of_pos hnone, hstep]
      rw [hdrop Quotation.said_content, hdrop Quotation.said_filler]
      exact .same _
    | cons c front =>
      have hdrop (rest : Line) : (t.front ++ rest).dropWhile (· ≠ x) = (c :: front) ++ rest := by
        rw [List.dropWhile_append, hfront]
        rfl
      rw [hdrop, hdrop]
      exact .of_subset h happart (hfront ▸ List.dropWhile_subset _) (List.Subset.refl _)

/-- The texts are cut alike in front of a character or behind it if that is neither inert nor a guard. -/
theorem cut {i : Nat} {c : Char} (hc : (s)[i]? = some c) (hinert : isInert c = false)
    (hguard : isGuard c = false) {n : Nat} (hn : n = i ∨ n = i + 1) :
    Requoted (s.take n) (s'.take n) ∧ Requoted (s.drop n) (s'.drop n) := by
  cases h with
  | same => exact ⟨.same _, .same _⟩
  | quotation t h happart =>
    have hhides : ¬ t.redaction.Hides i := by
      intro hi
      have hmem := Redaction.mem_of_getElem?_fill (Or.inl rfl) hi hc
      exact Bool.false_ne_true (hinert.symm.trans (h.chars c hmem))
    rcases Redaction.position_of_not_isGuard hhides hc hguard with hlt | hlt
    · have hle : n ≤ t.front.length := by
        simp only [Quotation.redaction] at hlt
        omega
      have htake (said : Line) : (t.front ++ t.quoted said).take n = t.front.take n :=
        List.take_append_of_le_length hle
      have hdrop (said : Line) : (t.front ++ t.quoted said).drop n = t.front.drop n ++ t.quoted said :=
        List.drop_append_of_le_length hle
      rw [t.line_eq, t.redacted_eq, htake, htake, hdrop, hdrop]
      exact ⟨.same _, .of_subset h happart (List.drop_subset _ _) (List.Subset.refl _)⟩
    · have hlt' : t.redaction.stop < n := by omega
      obtain ⟨k, hk⟩ : ∃ k, n - t.redaction.stop = k + 1 := ⟨n - t.redaction.stop - 1, by omega⟩
      have htake {said : Line} (hsaid : t.Says said) : (t.front ++ t.quoted said).take n =
          t.front ++ t.quote :: (said ++ t.quote :: t.back.take k) := by
        have hfill := Redaction.take_fill_of_stop_lt hsaid hlt'
        rw [hk, List.append_assoc] at hfill
        exact hfill
      have hdrop : t.redacted.drop n = t.line.drop n := Redaction.drop_redacted (Nat.le_of_lt hlt')
      rw [hdrop, t.line_eq, t.redacted_eq, htake Quotation.said_content, htake Quotation.said_filler]
      exact ⟨.of_subset h happart (List.Subset.refl _) (List.take_subset _ _), .same _⟩

theorem tail {c : Char} (hc : s.head? = some c) (hinert : isInert c = false)
    (hguard : isGuard c = false) : Requoted s.tail s'.tail := by
  have hcut := h.cut (n := 1) (by rwa [← List.head?_eq_getElem?]) hinert hguard (Or.inr rfl)
  simpa using hcut.2

/-- What a reader leaves that stops at guards. -/
theorem read (read : Line → Option Line) (hstops : ∀ g, isGuard g = true → StopsAt g read)
    (hsuffix : ∀ s rest, read s = some rest → rest <:+ s) :
    Option.Rel Requoted (read s) (read s') := by
  cases h with
  | same =>
    cases read s with
    | none => exact .none
    | some rest => exact .some (.same rest)
  | quotation t h happart =>
    have hread (said : Line) : read (t.front ++ t.quoted said) = (read t.front).map (· ++ t.quoted said) :=
      hstops _ Quotation.isGuard_quote _ _
    rw [t.line_eq, t.redacted_eq, hread, hread]
    cases hfront : read t.front with
    | none => exact .none
    | some rest =>
      exact .some (.of_subset h happart (hsuffix _ _ hfront).subset (List.Subset.refl _))

end Requoted

theorem any_eq_of_rel {R : Line → Line → Prop} {o o' : Option Line} (h : Option.Rel R o o')
    {f g : Line → Bool} (hfg : ∀ v v', R v v' → f v = g v') : o.any f = o'.any g := by
  cases h with
  | none => rfl
  | some hv => exact hfg _ _ hv

namespace Requoted

variable {s s' : Line} (h : Requoted s s')

include h

/-! ## Parameters -/

/-- As many defaults stand between balanced brackets, the brackets themselves counted in or not. -/
theorem countDefaults_balanced {opening closing : Char} {position stop : Nat}
    (hopening : (s)[position]? = some opening)
    (hstop : balancedEnd? opening closing s position = some stop)
    (hinert : isInert opening = false ∧ isInert closing = false)
    (hguard : isGuard opening = false ∧ isGuard closing = false) {n m : Nat}
    (hn : n = position ∨ n = position + 1) (hm : m = stop - 1 ∨ m = stop) :
    BranchTally.countDefaults ((s.take m).drop n) = BranchTally.countDefaults ((s'.take m).drop n) := by
  obtain ⟨i, rfl, hi, hclosing⟩ := getElem?_of_balancedEnd? hstop
  have htaken := (h.cut hclosing hinert.2 hguard.2 hm).1
  have hkept : (s.take m)[position]? = some opening := by
    rw [List.getElem?_take_of_lt (by omega), hopening]
  exact (htaken.cut hkept hinert.1 hguard.1 hn).2.countDefaults

theorem length_eq : s.length = s'.length := h.sameText.length_eq

theorem declaredValue? : Option.Rel Requoted (declaredValue? s) (BranchTally.declaredValue? s') :=
  h.read _ (fun _ hg => stopsAt_declaredValue? hg) fun _ _ => suffix_of_declaredValue?

/-- The parameters of an arrow have as many defaults. -/
theorem arrowParameters? (isDeclaration : Bool) :
    (arrowParameters? s isDeclaration).map (fun span => BranchTally.countDefaults (span.of s)) =
      (BranchTally.arrowParameters? s' isDeclaration).map fun span =>
        BranchTally.countDefaults (span.of s') := by
  have hopening := h.sameText.lastIndexOf? (by decide : isInert '(' = false)
  have hparens := h.sameText.balancedEnd? (by decide : isInert '(' = false)
    (by decide : isInert ')' = false)
  have hbraces := h.sameText.balancedEnd? (by decide : isInert '{' = false)
    (by decide : isInert '}' = false)
  have hskip := h.skipBlanks
  have hhead := hskip.sameText.head?_eq_iff (by decide : isInert '{' = false)
  simp only [BranchTally.arrowParameters?, ← hopening, ← hparens, ← hbraces, ← hskip.length_eq,
    ← h.length_eq, ← hhead, ← h.sameText.isEmpty]
  cases hlast : lastIndexOf? '(' s with
  | some opening =>
    dsimp only
    cases hstop : balancedEnd? '(' ')' s opening with
    | none => rfl
    | some stop =>
      rw [Option.bind_some]
      split
      · rfl
      · exact congrArg some (h.countDefaults_balanced (getElem?_of_lastIndexOf? hlast) hstop
          (by decide) (by decide) (Or.inr rfl) (Or.inl rfl))
  | none =>
    dsimp only
    split
    · next hbrace =>
      cases hstop : balancedEnd? '{' '}' s (s.length - (Text.skipBlanks s).length) with
      | none => rfl
      | some stop =>
        have hopen : (s)[s.length - (Text.skipBlanks s).length]? = some '{' := by
          rw [← List.head?_drop, ← List.suffix_iff_eq_drop.1 (skipBlanks_suffix s), hbrace]
        exact congrArg some (h.countDefaults_balanced hopen hstop (by decide) (by decide)
          (Or.inl rfl) (Or.inr rfl))
    · split
      · have hvalue := h.declaredValue?
        have hsuffix (v : Line) := @suffix_of_declaredValue? s v
        have hsuffix' (v : Line) := @suffix_of_declaredValue? s' v
        generalize BranchTally.declaredValue? s = o, BranchTally.declaredValue? s' = o'
          at hvalue hsuffix hsuffix'
        cases hvalue with
        | none => rfl
        | @some v v' hv =>
          have htext := Span.of_suffix (hsuffix v rfl)
          have htext' := Span.of_suffix (hsuffix' v' rfl)
          rw [← h.length_eq, ← hv.length_eq] at htext'
          have hcount := hv.countDefaults
          have hlength := hv.length_eq
          cases v with
          | nil =>
            obtain rfl := List.eq_nil_of_length_eq_zero hlength.symm
            rfl
          | cons c rest =>
            obtain ⟨c', rest', rfl⟩ := List.exists_cons_of_length_eq_add_one hlength.symm
            simp only [Option.map_some, ← hlength, htext, htext', hcount]
      · split
        · rfl
        · have hline := Span.of_all s'
          rw [← h.length_eq] at hline
          simp only [Option.map_some, Span.of_all, hline, h.countDefaults]

theorem isSome_declaredValue? :
    (BranchTally.declaredValue? s).isSome = (BranchTally.declaredValue? s').isSome := by
  rw [← Option.any_true, any_eq_of_rel h.declaredValue? fun _ _ _ => rfl, Option.any_true]

theorem take_arrow {position : Nat} (hposition : arrowPosition? s = some position) :
    Requoted (s.take position) (s'.take position) := by
  have harrow : (s)[position]? = some '=' :=
    getElem?_of_find? (Option.filter_eq_some_iff.1 hposition).1
  exact (h.cut harrow (by decide) (by decide) (Or.inl rfl)).1

theorem arrowDefaults : arrowDefaults s = BranchTally.arrowDefaults s' := by
  unfold BranchTally.arrowDefaults
  rw [← h.sameText.arrowPosition?, ← h.isSome_declaredValue?]
  cases hposition : arrowPosition? s with
  | none => rfl
  | some position =>
    have hcount :=
      (h.take_arrow hposition).arrowParameters? (BranchTally.declaredValue? s).isSome
    dsimp only
    generalize BranchTally.arrowParameters? (s.take position) _ = parameters,
      BranchTally.arrowParameters? (s'.take position) _ = parameters' at hcount
    cases parameters with
    | none =>
      obtain rfl : parameters' = none := by simpa [eq_comm] using hcount
      rfl
    | some span =>
      obtain ⟨span', rfl, hspan⟩ := Option.map_eq_some_iff.1 hcount.symm
      exact hspan.symm

theorem signatureDefaults : signatureDefaults s = BranchTally.signatureDefaults s' := by
  unfold BranchTally.signatureDefaults
  rw [← h.sameText.arrowPosition?, ← h.isSome_declaredValue?]
  cases hposition : arrowPosition? s with
  | none => exact h.countDefaults
  | some position =>
    have hbefore := h.take_arrow hposition
    dsimp only
    rw [← hbefore.sameText.lastIndexOf? (by decide : isInert '(' = false)]
    split
    · cases hlast : lastIndexOf? '(' (s.take position) with
      | none => rfl
      | some opening =>
        dsimp only
        rw [← hbefore.sameText.balancedEnd? (by decide : isInert '(' = false)
          (by decide : isInert ')' = false)]
        cases hstop : balancedEnd? '(' ')' (s.take position) opening with
        | none => rfl
        | some stop =>
          dsimp only
          split
          · rfl
          · exact hbefore.countDefaults_balanced (getElem?_of_lastIndexOf? hlast) hstop
              (by decide) (by decide) (Or.inr rfl) (Or.inl rfl)
    · exact hbefore.countDefaults

end Requoted

end BranchTally
