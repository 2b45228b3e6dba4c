-- SUMMARY: Occurrences of a token: where they lie, how they split at a foreign character, and what a window of the line keeps of them.
import Mathlib
import BranchTally.Line.Token

/-!
# Tokens on a line

The search for a token reads on from any place of a line. A character that the token does not have
cannot lie inside an occurrence, so the search may be cut in two there.
-/

namespace BranchTally

/-! ## Operators as tokens -/

theorem Logical.token_ne_nil (op : Logical) : op.token ≠ [] := by
  cases op <;> simp [token]

theorem Logical.not_mem_token {c : Char} (h : isLogicalChar c = false) (op : Logical) :
    c ∉ op.token := by
  simp only [isLogicalChar, Bool.or_eq_false_iff, decide_eq_false_iff_not] at h
  cases op <;> simp [token, h]

/-! ## Occurrences -/

/-- An occurrence is a place of the text at which the token stands. -/
theorem exists_drop_of_mem_occurrencesFrom {token : List Char} {skip pos i : Nat} {text : Line}
    (h : i ∈ occurrencesFrom token skip pos text) :
    ∃ k < text.length, i = pos + k ∧ token <+: text.drop k := by
  induction text generalizing skip pos with
  | nil => cases skip <;> simp [occurrencesFrom] at h
  | cons c rest ih =>
    have hlater {skip' : Nat} (h : i ∈ occurrencesFrom token skip' (pos + 1) rest) :
        ∃ k < (c :: rest).length, i = pos + k ∧ token <+: (c :: rest).drop k := by
      obtain ⟨k, hk, rfl, htoken⟩ := ih h
      exact ⟨k + 1, Nat.succ_lt_succ hk, by omega, htoken⟩
    cases skip with
    | succ skip => exact hlater h
    | zero =>
      simp only [occurrencesFrom] at h
      split at h
      · next htoken =>
        rcases List.mem_cons.1 h with rfl | h
        · exact ⟨0, Nat.succ_pos _, rfl, List.isPrefixOf_iff_prefix.1 htoken⟩
        · exact hlater h
      · exact hlater h

theorem bounds_of_mem_occurrencesFrom {token : List Char} {skip pos i : Nat} {text : Line}
    (h : i ∈ occurrencesFrom token skip pos text) : pos ≤ i ∧ i < pos + text.length := by
  obtain ⟨k, hk, rfl, -⟩ := exists_drop_of_mem_occurrencesFrom h
  exact ⟨Nat.le_add_right pos k, Nat.add_lt_add_left hk pos⟩

theorem add_length_le_of_mem_occurrencesFrom {token : List Char} {skip pos i : Nat} {text : Line}
    (h : i ∈ occurrencesFrom token skip pos text) : i + token.length ≤ pos + text.length := by
  obtain ⟨k, hk, rfl, htoken⟩ := exists_drop_of_mem_occurrencesFrom h
  have hlength := htoken.length_le
  rw [List.length_drop] at hlength
  omega

theorem getElem?_of_mem_occurrencesFrom {token : List Char} {c : Char} {skip pos i : Nat} {text : Line}
    (h : i ∈ occurrencesFrom (c :: token) skip pos text) : text[i - pos]? = some c := by
  obtain ⟨k, -, rfl, rest, hrest⟩ := exists_drop_of_mem_occurrencesFrom h
  rw [Nat.add_sub_cancel_left, ← List.head?_drop, ← hrest]
  rfl

theorem isPrefixOf_append_cons {token text rest : List Char} {c : Char} (hc : c ∉ token) :
    token.isPrefixOf (text ++ c :: rest) = token.isPrefixOf text := by
  induction token generalizing text with
  | nil => simp [List.isPrefixOf]
  | cons t token ih =>
    have htc : t ≠ c := fun h => hc (h ▸ List.mem_cons_self)
    have hc' : c ∉ token := fun h => hc (List.mem_cons_of_mem _ h)
    cases text with
    | nil => simp [List.isPrefixOf, htc]
    | cons d text => simp [List.isPrefixOf, ih hc']

theorem length_le_of_isPrefixOf {token text : List Char} (h : token.isPrefixOf text = true) :
    token.length ≤ text.length :=
  (List.isPrefixOf_iff_prefix.1 h).length_le

theorem occurrencesFrom_cons_of_not_mem {token rest : List Char} {c : Char} (pos : Nat)
    (hc : c ∉ token) (htoken : token ≠ []) :
    occurrencesFrom token 0 pos (c :: rest) = occurrencesFrom token 0 (pos + 1) rest := by
  have hprefix : token.isPrefixOf (c :: rest) = false := by
    cases token with
    | nil => exact absurd rfl htoken
    | cons t token =>
      have htc : t ≠ c := fun h => hc (h ▸ List.mem_cons_self)
      simp [List.isPrefixOf, htc]
  simp [occurrencesFrom, hprefix]

/-- The search is cut in two by a character that the token does not have. -/
theorem occurrencesFrom_append_cons {token text rest : List Char} {c : Char} {skip pos : Nat}
    (hc : c ∉ token) (htoken : token ≠ []) (hskip : skip ≤ text.length) :
    occurrencesFrom token skip pos (text ++ c :: rest) =
      occurrencesFrom token skip pos text ++
        occurrencesFrom token 0 (pos + text.length + 1) rest := by
  induction text generalizing skip pos with
  | nil =>
    obtain rfl : skip = 0 := by simpa using hskip
    rw [List.nil_append, occurrencesFrom_cons_of_not_mem pos hc htoken]
    simp [occurrencesFrom]
  | cons d text ih =>
    rw [List.length_cons] at hskip ⊢
    have hpos : pos + 1 + text.length + 1 = pos + (text.length + 1) + 1 := by omega
    cases skip with
    | succ skip =>
      have hlater := @ih skip (pos + 1) (by omega)
      simpa only [List.cons_append, occurrencesFrom, hpos] using hlater
    | zero =>
      have hsame : token.isPrefixOf (d :: (text ++ c :: rest)) = token.isPrefixOf (d :: text) :=
        @isPrefixOf_append_cons token (d :: text) rest c hc
      simp only [List.cons_append, occurrencesFrom, hsame]
      split
      · next hprefix =>
        have hlength := length_le_of_isPrefixOf hprefix
        rw [List.length_cons] at hlength
        have hlater := @ih (token.length - 1) (pos + 1) (by omega)
        rw [hlater, hpos, List.cons_append]
      · have hlater := @ih 0 (pos + 1) (by omega)
        rw [hlater, hpos]

/-! ## Windows -/

/-- Searching a line from a character on that the token does not have finds the occurrences behind
this character. -/
theorem occurrencesFrom_drop {token : List Char} {line : Line} {start : Nat} {c : Char}
    (hstart : (line)[start]? = some c) (hc : c ∉ token) (htoken : token ≠ []) :
    occurrencesFrom token 0 start (line.drop start) =
      (occurrencesFrom token 0 0 line).filter fun i => start ≤ i := by
  obtain ⟨hlt, hget⟩ := List.getElem?_eq_some_iff.1 hstart
  have hdrop : line.drop start = c :: line.drop (start + 1) := by
    rw [List.drop_eq_getElem_cons hlt, hget]
  have hline : line = line.take start ++ c :: line.drop (start + 1) := by
    rw [← hdrop, List.take_append_drop]
  have hlength : (line.take start).length = start := by
    rw [List.length_take]
    omega
  have hsplit : occurrencesFrom token 0 0 line =
      occurrencesFrom token 0 0 (line.take start) ++
        occurrencesFrom token 0 (start + 1) (line.drop (start + 1)) := by
    conv => lhs; rw [hline]
    rw [occurrencesFrom_append_cons hc htoken (Nat.zero_le _), hlength, Nat.zero_add]
  have hbefore : (occurrencesFrom token 0 0 (line.take start)).filter (fun i => start ≤ i) = [] := by
    rw [List.filter_eq_nil_iff]
    intro i hi
    have := (bounds_of_mem_occurrencesFrom hi).2
    simp only [hlength, Nat.zero_add] at this
    simp only [decide_eq_true_eq]
    omega
  have hbehind : (occurrencesFrom token 0 (start + 1) (line.drop (start + 1))).filter
      (fun i => start ≤ i) = occurrencesFrom token 0 (start + 1) (line.drop (start + 1)) := by
    rw [List.filter_eq_self]
    intro i hi
    have := (bounds_of_mem_occurrencesFrom hi).1
    simp only [decide_eq_true_eq]
    omega
  rw [hdrop, occurrencesFrom_cons_of_not_mem start hc htoken, hsplit, List.filter_append, hbefore,
    hbehind, List.nil_append]

/-- A window that begins with a character foreign to the token keeps the live positions in it. -/
theorem findTokens_window {token : List Char} {line : Line} {start : Nat} {stop : Option Nat}
    {c : Char} (hstart : (line)[start]? = some c) (hc : c ∉ token) (htoken : token ≠ []) :
    findTokens line token start stop =
      (findTokens line token).filter fun i =>
        start ≤ i && stop.all fun limit => i + token.length ≤ limit := by
  have hwhole : occurrencesFrom token 0 0 (line.drop 0) = occurrencesFrom token 0 0 line := rfl
  simp only [findTokens, hwhole, occurrencesFrom_drop hstart hc htoken, List.filter_filter]
  congr 1
  funext i
  cases (LiveMap.of line).isLive i <;> simp [Bool.and_comm]

end BranchTally
