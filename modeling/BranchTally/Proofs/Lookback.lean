-- SUMMARY: The look-back for the start of a condition: the nearest condition keyword below the first line that stops it, and failing that the farthest operator.
import Mathlib
import BranchTally.Signed

/-!
# The start of a condition

The look-back goes up from line to line and keeps the farthest line with an operator that it has passed. A
line that stops it ends it with this candidate, and a condition keyword ends it with its own line. Said of all
distances at once: the first stopping line sets a limit, and below it the nearest keyword wins over the
farthest operator.
-/

namespace BranchTally

open Text

namespace Lookback

variable (line : Nat → Line)

/-! ## Distances -/

/-- The distances up to `last` at which the look-back stops. -/
def stopping (last : Nat) : Set Nat := {k | 1 ≤ k ∧ k ≤ last ∧ stopsLookback (line k) = true}

/-- The distances below a limit at which a condition begins. -/
def starting (limit : Nat) : Set Nat := {k | 1 ≤ k ∧ k < limit ∧ isConditionStart (line k) = true}

/-- The distances below a limit at which the line has a logical operator. -/
def operating (limit : Nat) : Set Nat := {k | 1 ≤ k ∧ k < limit ∧ hasLogicalPair (line k) = true}

/-- The least stopping distance, or one past the last distance where none stops. -/
def IsLimit (last limit : Nat) : Prop := IsLeast (stopping line last ∪ {last + 1}) limit

/-- What is found below a limit: the nearest start, and failing that the farthest operator. -/
structure Finds (limit : Nat) (found : Option Nat) : Prop where
  nearest : (starting line limit).Nonempty → ∃ k, IsLeast (starting line limit) k ∧ found = some k
  farthest : starting line limit = ∅ → (operating line limit).Nonempty →
    ∃ k, IsGreatest (operating line limit) k ∧ found = some k
  nothing : starting line limit = ∅ → operating line limit = ∅ → found = none

variable {line} {last limit distance : Nat} {found : Option Nat}

theorem exists_isLimit (line : Nat → Line) (last : Nat) : ∃ limit, IsLimit line last limit :=
  (OrderBot.bddBelow _).exists_isLeast_of_nonempty ⟨last + 1, Or.inr rfl⟩

/-! ## The lines passed so far -/

/-- What is kept of a set of distances: the greatest one, or none where there is none. -/
def KeepsGreatest (s : Set Nat) : Option Nat → Prop
  | none => s = ∅
  | some k => IsGreatest s k

/-- A line with an operator takes the place of those nearer by. -/
theorem KeepsGreatest.succ (h : KeepsGreatest (operating line distance) found) (hpos : 1 ≤ distance) :
    KeepsGreatest (operating line (distance + 1))
      (if hasLogicalPair (line distance) then some distance else found) := by
  cases hpair : hasLogicalPair (line distance) with
  | true =>
    rw [if_pos rfl]
    exact ⟨⟨hpos, Nat.lt_succ_self distance, hpair⟩, fun k hk => Nat.le_of_lt_succ hk.2.1⟩
  | false =>
    have hsame : operating line (distance + 1) = operating line distance := by
      ext k
      refine and_congr_right fun _ =>
        ⟨fun ⟨hlt, hk⟩ => ⟨?_, hk⟩, fun ⟨hlt, hk⟩ => ⟨Nat.lt_succ_of_lt hlt, hk⟩⟩
      refine lt_of_le_of_ne (Nat.le_of_lt_succ hlt) ?_
      rintro rfl
      exact absurd hk (by simp [hpair])
    rw [if_neg Bool.false_ne_true, hsame]
    exact h

/-- The look-back has passed all lines below a distance: none stops it, none begins a condition, and the
farthest with an operator is kept. -/
structure Passed (line : Nat → Line) (distance : Nat) (found : Option Nat) : Prop where
  goesOn : ∀ k, 1 ≤ k → k < distance → stopsLookback (line k) = false
  noStart : starting line distance = ∅
  kept : KeepsGreatest (operating line distance) found

theorem passed_one (line : Nat → Line) : Passed line 1 none := by
  have hnone (k : Nat) : ¬ (1 ≤ k ∧ k < 1) := by omega
  exact ⟨fun k hpos hlt => absurd ⟨hpos, hlt⟩ (hnone k),
    Set.eq_empty_of_forall_notMem fun k hk => hnone k ⟨hk.1, hk.2.1⟩,
    Set.eq_empty_of_forall_notMem fun k hk => hnone k ⟨hk.1, hk.2.1⟩⟩

/-- One more line that neither stops the look-back nor begins a condition. -/
theorem Passed.succ (h : Passed line distance found) (hpos : 1 ≤ distance)
    (hstop : stopsLookback (line distance) = false) (hstart : isConditionStart (line distance) = false) :
    Passed line (distance + 1) (if hasLogicalPair (line distance) then some distance else found) where
  goesOn k hk hlt := by
    rcases Nat.lt_succ_iff_lt_or_eq.1 hlt with hlt | rfl
    · exact h.goesOn k hk hlt
    · exact hstop
  noStart := by
    refine Set.eq_empty_of_forall_notMem fun k hk => ?_
    rcases Nat.lt_succ_iff_lt_or_eq.1 hk.2.1 with hlt | rfl
    · exact Set.eq_empty_iff_forall_notMem.1 h.noStart k ⟨hk.1, hlt, hk.2.2⟩
    · exact absurd hk.2.2 (by simp [hstart])
  kept := h.kept.succ hpos

/-- Where the look-back ends without a start it finds what it has kept. -/
theorem Passed.finds (h : Passed line distance found) : Finds line distance found := by
  have hkept := h.kept
  cases found with
  | none =>
    exact ⟨fun hne => absurd h.noStart hne.ne_empty, fun _ hne => absurd hkept hne.ne_empty,
      fun _ _ => rfl⟩
  | some k =>
    exact ⟨fun hne => absurd h.noStart hne.ne_empty, fun _ _ => ⟨k, hkept, rfl⟩,
      fun _ hempty => absurd hempty hkept.nonempty.ne_empty⟩

/-- No limit lies among the lines passed. -/
theorem Passed.le_limit (h : Passed line distance found) (hle : distance ≤ last + 1)
    (hlimit : IsLimit line last limit) : distance ≤ limit := by
  rcases hlimit.1 with ⟨hpos, -, hstops⟩ | rfl
  · by_contra hlt
    exact absurd hstops (by simp [h.goesOn limit hpos (not_le.1 hlt)])
  · exact hle

theorem Passed.lt_limit (h : Passed line distance found) (hle : distance ≤ last)
    (hstop : stopsLookback (line distance) = false) (hlimit : IsLimit line last limit) :
    distance < limit := by
  refine lt_of_le_of_ne (h.le_limit (Nat.le_succ_of_le hle) hlimit) ?_
  rintro rfl
  rcases hlimit.1 with ⟨-, -, hstops⟩ | hends
  · exact absurd hstops (by simp [hstop])
  · rw [Set.mem_singleton_iff] at hends
    omega

/-- A start that the look-back comes to is the nearest one. -/
theorem Passed.finds_of_start (h : Passed line distance found) (hpos : 1 ≤ distance)
    (hlt : distance < limit) (hstart : isConditionStart (line distance) = true) :
    Finds line limit (some distance) := by
  have hmem : distance ∈ starting line limit := ⟨hpos, hlt, hstart⟩
  have hleast : IsLeast (starting line limit) distance := by
    refine ⟨hmem, fun k hk => ?_⟩
    by_contra hlt
    exact Set.eq_empty_iff_forall_notMem.1 h.noStart k ⟨hk.1, not_le.1 hlt, hk.2.2⟩
  have hne : starting line limit ≠ ∅ := Set.nonempty_iff_ne_empty.1 ⟨distance, hmem⟩
  exact ⟨fun _ => ⟨distance, hleast, rfl⟩, fun hempty => absurd hempty hne,
    fun hempty => absurd hempty hne⟩

/-! ## The whole look-back -/

/-- The lines that are left to look at begin at a distance and go up to the last one. -/
structure Ahead (line : Nat → Line) (last distance : Nat) (above : List Line) : Prop where
  ends : distance + above.length = last + 1
  lines : ∀ j, ∀ h : j < above.length, trim (stripComments above[j]) = line (distance + j)

theorem Ahead.tail {l : Line} {above : List Line} (h : Ahead line last distance (l :: above)) :
    Ahead line last (distance + 1) above where
  ends := by
    have := h.ends
    rw [List.length_cons] at this
    omega
  lines j hj := by
    have hline := h.lines (j + 1) (Nat.succ_lt_succ hj)
    rwa [List.getElem_cons_succ, show distance + (j + 1) = distance + 1 + j by omega] at hline

theorem Ahead.finds {above : List Line} (h : Ahead line last distance above) (hpos : 1 ≤ distance)
    (hpassed : Passed line distance found) (hlimit : IsLimit line last limit) :
    Finds line limit (conditionStartFrom distance found above) := by
  induction above generalizing distance found with
  | nil =>
    have hends : distance = last + 1 := h.ends
    obtain rfl : limit = distance :=
      le_antisymm (hends ▸ hlimit.2 (Or.inr rfl)) (hpassed.le_limit hends.le hlimit)
    exact hpassed.finds
  | cons l above ih =>
    have hhere : trim (stripComments l) = line distance := h.lines 0 (Nat.succ_pos _)
    have hlast : distance ≤ last := by
      have := h.ends
      rw [List.length_cons] at this
      omega
    simp only [conditionStartFrom, hhere]
    cases hstop : stopsLookback (line distance) with
    | true =>
      obtain rfl : limit = distance := le_antisymm (hlimit.2 (Or.inl ⟨hpos, hlast, hstop⟩))
        (hpassed.le_limit (Nat.le_succ_of_le hlast) hlimit)
      exact hpassed.finds
    | false =>
      cases hstart : isConditionStart (line distance) with
      | true => exact hpassed.finds_of_start hpos (hpassed.lt_limit hlast hstop hlimit) hstart
      | false => exact ih h.tail (Nat.le_add_left 1 distance) (hpassed.succ hpos hstop hstart)

/-! ## Look-backs in a text -/

/-- The line at a distance above an index, as the look-back reads it. -/
def lineAbove (lines : List Line) (index : Int) (distance : Nat) : Line :=
  trim (stripComments ((lines[(index - distance).toNat]?).getD []))

theorem ahead_above {lines : List Line} {index : Int} (h : index ≤ lines.length) :
    Ahead (lineAbove lines index) (min lookbackLimit index.toNat) 1
      ((lines.take index.toNat).reverse.take lookbackLimit) where
  ends := by
    rw [List.length_take, List.length_reverse, List.length_take]
    omega
  lines j hj := by
    rw [List.length_take, List.length_reverse, List.length_take] at hj
    have hplace : (index - ((1 + j : Nat) : Int)).toNat = index.toNat - 1 - j := by omega
    have hlt : index.toNat - 1 - j < lines.length := by omega
    rw [lineAbove, hplace, List.getElem?_eq_getElem hlt, Option.getD_some, List.getElem_take,
      List.getElem_reverse, List.getElem_take]
    congr 3
    rw [List.length_take]
    omega

end Lookback

/-- A view of a text searches the lines above its index. -/
theorem Signed.conditionStart?_of_view {lines : List Line} {index : Int} {v : Signed.View}
    (h : Signed.view lines index = .ok v) :
    Signed.conditionStart? v = (BranchTally.conditionStart? (lines.take index.toNat).reverse).map
      fun distance : Nat => index - (distance : Int) := by
  rw [Signed.view] at h
  split at h
  · cases h
  · split at h
    · obtain rfl := Except.ok.inj h
      simp only [Signed.conditionStart?, Int.add_sub_cancel]
      cases BranchTally.conditionStart? (lines.take index.toNat).reverse <;> rfl
    · next hneg =>
      obtain rfl := Except.ok.inj h
      rw [show index.toNat = 0 by omega]
      rfl

/-- The line at a distance above an index is the next one of the lines above it. -/
theorem Signed.exists_item?_above {lines : List Line} {index : Int} (h : index ≤ lines.length) {distance : Nat}
    (hpos : 1 ≤ distance) (hplace : 0 ≤ index - (distance : Int)) :
    ∃ above, Signed.item? lines (index - distance) = some above ∧
      (lines.take index.toNat).reverse.drop (distance - 1) =
        above :: (lines.take index.toNat).reverse.drop distance := by
  have hlt : distance - 1 < (lines.take index.toNat).reverse.length := by
    rw [List.length_reverse, List.length_take]
    omega
  have hin : (index - (distance : Int)).toNat < lines.length := by omega
  have hindex : (lines.take index.toNat).length - 1 - (distance - 1) = (index - (distance : Int)).toNat := by
    rw [List.length_take]
    omega
  refine ⟨lines[(index - (distance : Int)).toNat], ?_, ?_⟩
  · rw [Signed.item?, if_pos hplace, List.getElem?_eq_getElem hin]
  · rw [List.drop_eq_getElem_cons hlt, Nat.sub_add_cancel hpos, List.getElem_reverse, List.getElem_take]
    simp only [hindex]

/-- The look-back by items agrees with the one on the lines above the index. -/
theorem Signed.lookbackFrom_eq {lines : List Line} {index : Int} (h : index ≤ lines.length) (count : Nat)
    {distance : Nat} (hpos : 1 ≤ distance) (found : Option Nat) :
    Signed.lookbackFrom lines index distance (found.map fun d : Nat => index - (d : Int)) count =
      .ok ((conditionStartFrom distance found
          (((lines.take index.toNat).reverse.drop (distance - 1)).take count)).map
        fun d : Nat => index - (d : Int)) := by
  induction count generalizing distance found with
  | zero => rfl
  | succ count ih =>
    rcases lt_or_ge (index - (distance : Int)) 0 with hplace | hplace
    · have hnone : (lines.take index.toNat).reverse.drop (distance - 1) = [] := by
        refine List.drop_eq_nil_of_le ?_
        rw [List.length_reverse, List.length_take]
        omega
      rw [Signed.lookbackFrom, if_pos hplace, hnone]
      rfl
    · obtain ⟨above, hitem, hdrop⟩ := Signed.exists_item?_above h hpos hplace
      have hrest := ih (Nat.le_add_left 1 distance)
        (if hasLogicalPair (trim (stripComments above)) then some distance else found)
      rw [Nat.add_sub_cancel, apply_ite (Option.map _)] at hrest
      simp only [Signed.lookbackFrom, if_neg (not_lt.2 hplace), hitem, hdrop, List.take_succ_cons,
        conditionStartFrom]
      split
      · rfl
      · split
        · rfl
        · exact hrest

theorem Signed.lookback_eq {lines : List Line} {index : Int} (h : index ≤ lines.length) :
    Signed.lookback lines index =
      .ok ((BranchTally.conditionStart? (lines.take index.toNat).reverse).map
        fun distance : Nat => index - (distance : Int)) :=
  Signed.lookbackFrom_eq h lookbackLimit le_rfl none

/-- Beyond the end of the text the line above the index is missing. -/
theorem Signed.lookback_beyond {lines : List Line} {index : Int} (h : lines.length < index) :
    Signed.lookback lines index = .error .list := by
  have hplace : ¬ index - ((1 : Nat) : Int) < 0 := by omega
  have hitem : Signed.item? lines (index - ((1 : Nat) : Int)) = none := by
    rw [Signed.item?, if_pos (not_lt.1 hplace), List.getElem?_eq_none_iff]
    omega
  simp only [Signed.lookback, lookbackLimit, Signed.lookbackFrom, if_neg hplace, hitem]

/-- The first stopping line above an index, at most five lines up, limits the look-back. Below the limit the
nearest line that begins a condition is its start, and without one the farthest line with an operator. The
index may be that of the end of the text; beyond the end there is no line right above it, and the look-back
fails. -/
theorem conditionStart?_nearest_or_farthest (lines : List Line) (index : Int) :
    let line := Lookback.lineAbove lines index
    let start := (conditionStart? (lines.take index.toNat).reverse).map
      fun distance : Nat => index - (distance : Int)
    (index ≤ lines.length →
      (∃ limit, Lookback.IsLimit line (min lookbackLimit index.toNat) limit ∧
        ((Lookback.starting line limit).Nonempty →
          ∃ k, IsLeast (Lookback.starting line limit) k ∧ start = some (index - k)) ∧
        (Lookback.starting line limit = ∅ → (Lookback.operating line limit).Nonempty →
          ∃ k, IsGreatest (Lookback.operating line limit) k ∧ start = some (index - k)) ∧
        (Lookback.starting line limit = ∅ → Lookback.operating line limit = ∅ → start = none)) ∧
      Signed.lookback lines index = .ok start) ∧
      (lines.length < index → Signed.lookback lines index = .error .list) ∧
      ∀ v, Signed.view lines index = .ok v → Signed.conditionStart? v = start := by
  intro line start
  refine ⟨fun h => ⟨?_, Signed.lookback_eq h⟩, Signed.lookback_beyond,
    fun v hv => Signed.conditionStart?_of_view hv⟩
  obtain ⟨limit, hlimit⟩ := Lookback.exists_isLimit line (min lookbackLimit index.toNat)
  have hfinds : Lookback.Finds line limit (conditionStart? (lines.take index.toNat).reverse) :=
    (Lookback.ahead_above h).finds le_rfl (Lookback.passed_one line) hlimit
  refine ⟨limit, hlimit, fun hstart => ?_, fun hempty hpair => ?_, fun hempty hnone => ?_⟩
  · obtain ⟨k, hk, hfound⟩ := hfinds.nearest hstart
    exact ⟨k, hk, by simp only [start, hfound, Option.map_some]⟩
  · obtain ⟨k, hk, hfound⟩ := hfinds.farthest hempty hpair
    exact ⟨k, hk, by simp only [start, hfound, Option.map_some]⟩
  · simp only [start, hfinds.nothing hempty hnone, Option.map_none]

/-- Behind a statement: an `if` three lines up, with operators on the two lines between. One line below the
end of the text the look-back fails. -/
theorem conditionStart?_nearest_or_farthest_if :
    let lines := ["a = b;".toList, "if (a && // first".toList, "  b ||".toList, "  c &&".toList]
    let line := Lookback.lineAbove lines 4
    let start := (conditionStart? (lines.take 4).reverse).map fun distance : Nat => 4 - (distance : Int)
    (4 : Int) ≤ lines.length ∧ start = some 1 ∧
      (∃ limit, Lookback.IsLimit line 4 limit ∧
        ∃ k, IsLeast (Lookback.starting line limit) k ∧ start = some (4 - (k : Int))) ∧
      Signed.lookback lines 4 = .ok (some 1) ∧
      lines.length < (5 : Int) ∧ Signed.lookback lines 5 = .error .list := by
  intro lines line start
  have hle : (4 : Int) ≤ lines.length := by decide
  have hbeyond : lines.length < (5 : Int) := by decide
  have hstart : start = some 1 := by decide
  have hstop : ∀ k ∈ [1, 2, 3], stopsLookback (line k) = false := by decide
  have hif : isConditionStart (line 3) = true := by decide
  obtain ⟨⟨limit, hlimit, hnearest, -⟩, hback⟩ := (conditionStart?_nearest_or_farthest lines 4).1 hle
  have hlt : 3 < limit := by
    rcases hlimit.1 with ⟨hpos, -, hstops⟩ | rfl
    · by_contra hle
      have := hstop limit (by interval_cases limit <;> decide)
      exact absurd hstops (by rw [this]; decide)
    · decide
  exact ⟨hle, hstart, ⟨limit, hlimit, hnearest ⟨3, by decide, hlt, hif⟩⟩, hback.trans (congrArg _ hstart),
    hbeyond, (conditionStart?_nearest_or_farthest lines 5).2.1 hbeyond⟩

end BranchTally
