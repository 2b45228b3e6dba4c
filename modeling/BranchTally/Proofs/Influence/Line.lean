-- SUMMARY: The points on a line are decided by a few lines around it, the first lines of the functions that hold it, and the functions that meet it or the lines next to it.
import BranchTally.Proofs.Influence.Owners
import BranchTally.Proofs.Sorting
import BranchTally.Proofs.TernaryCondition

/-!
# Bounded influence

Nothing far away bears on the points of a line. They are reported from the line itself and, for the
condition of a ternary, from the line below; neither the removal of duplicates nor the sorting mixes
lines; and each of the two lines is read through its window.
-/

namespace BranchTally

/-! ## Lines are not mixed -/

theorem line_le_trans (p q r : Point) (hpq : decide (p.line ≤ q.line) = true)
    (hqr : decide (q.line ≤ r.line) = true) : decide (p.line ≤ r.line) = true := by
  rw [decide_eq_true_eq] at *
  exact hpq.trans hqr

theorem line_le_total (p q : Point) : (decide (p.line ≤ q.line) || decide (q.line ≤ p.line)) = true := by
  simpa using le_total p.line q.line

/-- Sorting leaves the points of one line as they are. -/
theorem filter_sortByLine (points : List Point) (number : Int) :
    (sortByLine points).filter (fun p => p.line = number) =
      points.filter fun p => p.line = number := by
  refine filter_mergeSort_of_ties line_le_trans line_le_total (fun a b ha hb => ?_) points
  rw [decide_eq_true_eq] at ha hb ⊢
  exact (ha.trans hb.symm).le

/-- Whether a point is a duplicate is decided by the points like it. -/
theorem filter_distinctFrom (q : Point → Bool) {seen seen' : List Point}
    (h : ∀ p, q p = true → (p ∈ seen ↔ p ∈ seen')) (points : List Point) :
    (distinctFrom seen points).filter q = distinctFrom seen' (points.filter q) := by
  induction points generalizing seen seen' with
  | nil => rfl
  | cons p rest ih =>
    have hcons : ∀ x, q x = true → (x ∈ p :: seen ↔ x ∈ p :: seen') := by
      intro x hx
      rw [List.mem_cons, List.mem_cons, h x hx]
    cases hq : q p with
    | true =>
      have hcontains : seen.contains p = seen'.contains p := by
        rw [Bool.eq_iff_iff, List.contains_iff_mem, List.contains_iff_mem, h p hq]
      simp only [List.filter_cons, hq, if_true, distinctFrom, ← hcontains]
      split
      · rw [List.filter_cons, hq, if_pos rfl, ih h]
      · split
        · exact ih h
        · rw [List.filter_cons, hq, if_pos rfl, ih hcons]
    | false =>
      have hskip : ∀ x, q x = true → (x ∈ p :: seen ↔ x ∈ seen') := by
        intro x hx
        have hne : x ≠ p := fun e => by simp [e, hq] at hx
        rw [List.mem_cons, h x hx, or_iff_right hne]
      simp only [List.filter_cons, hq, Bool.false_eq_true, if_false, distinctFrom]
      split
      · rw [List.filter_cons, hq, if_neg Bool.false_ne_true, ih h]
      · split
        · exact ih h
        · rw [List.filter_cons, hq, if_neg Bool.false_ne_true, ih hskip]

theorem filter_decisionPoints (source : List Char) (m : BoundaryMap) (number : Int) :
    (decisionPoints source m).filter (fun p => p.line = number) =
      distinctPoints ((rawPoints (Ownership.of m) (splitLines source)).filter fun p =>
        p.line = number) := by
  rw [decisionPoints_eq, filter_sortByLine]
  exact filter_distinctFrom _ (fun _ _ => Iff.rfl) _

/-! ## Reports from two lines -/

section

variable {m m' : BoundaryMap} {lines lines' : List Line} {f : Focus}

/-- A line that is not there has no points. -/
theorem filter_rawPoints_of_lineAt {number : Int} (h : lineAt lines number = none) :
    (rawPoints (Ownership.of m) lines).filter (fun p => p.line = number) = [] := by
  have hmissing (g : Focus) (hg : g ∈ foci lines) : g.number ≠ number := by
    rintro rfl
    simp [lineAt_number hg] at h
  rw [List.filter_eq_nil_iff]
  intro p hp hline
  rw [decide_eq_true_eq] at hline
  obtain ⟨g, hg, hp⟩ := List.mem_flatMap.1 hp
  rcases (mem_scanLine hp).2 with ⟨family, hmade⟩ | ⟨-, above, hup, -, hmade⟩
  · exact hmissing g hg (hmade.liesOn.1.symm.trans hline)
  · exact hmissing above (mem_foci_of_up? hg hup) (hmade.liesOn.1.symm.trans hline)

theorem scanLine_congr (h : ∀ k, f.number - 5 ≤ k → k ≤ f.number → m.AgreeAt m' k)
    (hsignature : ∀ b key, m.get? key = some b → b.contains f.number = true →
      signatureLines b.start lines = signatureLines b.start lines') :
    scanLine (Ownership.of m) lines f = scanLine (Ownership.of m') lines' f := by
  have hhere := h f.number (by omega) (Int.le_refl _)
  simp only [scanLine, ← innermost?_congr hhere]
  cases howner : (Ownership.of m).innermost? f.number with
  | none => rfl
  | some owner =>
    have hcode := codePoints_congr hhere (Ownership.holds_of_innermost? howner) hsignature
      fun k hfirst hlast => h k hfirst (Int.le_of_lt hlast)
    simp only [hcode]

/-- On the line above, a line reports only the condition of its ternaries. -/
theorem filter_codePoints_above {owner : Int} (howner : (Ownership.of m).Holds f.number owner) :
    (codePoints (Ownership.of m) lines f owner).filter (fun p => p.line = f.number - 1) =
      if (ternaryPositions f).isEmpty then []
      else conditionAbovePoints f owner (Ownership.of m).innermost? := by
  have hhere {points : List Point}
      (h : ∀ p ∈ points, ∃ family, p.MadeOn (Ownership.of m) family f.number) :
      points.filter (fun p => p.line = f.number - 1) = [] := by
    rw [List.filter_eq_nil_iff]
    intro p hp hline
    obtain ⟨family, hmade⟩ := h p hp
    have := hmade.liesOn.1
    rw [decide_eq_true_eq] at hline
    omega
  have habove : (conditionAbovePoints f owner (Ownership.of m).innermost?).filter
      (fun p => p.line = f.number - 1) =
      conditionAbovePoints f owner (Ownership.of m).innermost? := by
    rw [List.filter_eq_self]
    intro p hp
    exact decide_eq_true (liesOn_of_mem_conditionAbovePoints howner.hasKey hp).1
  obtain ⟨front, back, heq, hmade⟩ := codePoints_split lines howner
  rw [heq, List.filter_append, List.filter_append,
    hhere fun p hp => hmade p (List.mem_append_left _ hp),
    hhere fun p hp => hmade p (List.mem_append_right _ hp), List.nil_append, List.append_nil]
  split
  · rfl
  · exact habove

theorem filter_scanLine_above_congr (hhere : m.AgreeAt m' f.number)
    (habove : m.AgreeAt m' (f.number - 1)) :
    (scanLine (Ownership.of m) lines f).filter (fun p => p.line = f.number - 1) =
      (scanLine (Ownership.of m') lines' f).filter fun p => p.line = f.number - 1 := by
  simp only [scanLine, ← innermost?_congr hhere]
  split
  · rfl
  · cases howner : (Ownership.of m).innermost? f.number with
    | none => rfl
    | some owner =>
      have howner' := (innermost?_congr hhere).symm.trans howner
      dsimp only
      rw [filter_codePoints_above (Ownership.holds_of_innermost? howner),
        filter_codePoints_above (Ownership.holds_of_innermost? howner'),
        conditionAbovePoints_congr habove]

end

/-! ## Bounded influence -/

theorem mem_foci_of_down? {lines : List Line} {f d : Focus} (hf : f ∈ foci lines)
    (hd : f.down? = some d) : d ∈ foci lines := by
  obtain ⟨above, below, heq, -, -⟩ := fociFrom_split hf
  rw [foci, heq, hd]
  simp

theorem map_line_down? {lines : List Line} {f : Focus} (hf : f ∈ foci lines) :
    f.down?.map (·.line) = lineAt lines (f.number + 1) := by
  have hafter := getElem?_after hf 0
  rw [Int.natCast_zero, Int.add_zero] at hafter
  rw [← hafter, Focus.down?]
  cases f.after <;> rfl

/-- The line below reports the same on the line in view, if it is there. -/
theorem filter_below_congr {lines lines' : List Line} {m m' : BoundaryMap} {f g : Focus}
    (hf : f ∈ foci lines) (hg : g ∈ foci lines') (hnumber : f.number = g.number)
    (hlines : ∀ k, f.number - 10 ≤ k → k ≤ f.number + 21 → lineAt lines k = lineAt lines' k)
    (hhere : m.AgreeAt m' f.number) (hbelow : m.AgreeAt m' (f.number + 1)) :
    (f.down?.toList.flatMap (scanLine (Ownership.of m) lines)).filter
        (fun p => p.line = f.number) =
      (g.down?.toList.flatMap (scanLine (Ownership.of m') lines')).filter
        fun p => p.line = f.number := by
  have hpresent : f.down?.map (·.line) = g.down?.map (·.line) := by
    rw [map_line_down? hf, map_line_down? hg, ← hnumber]
    exact hlines _ (by omega) (by omega)
  cases hd : f.down? with
  | none =>
    rw [hd, Option.map_none, eq_comm, Option.map_eq_none_iff] at hpresent
    simp only [hpresent, Option.toList_none, List.flatMap_nil]
  | some d =>
    rw [hd, Option.map_some, eq_comm, Option.map_eq_some_iff] at hpresent
    obtain ⟨e, he, -⟩ := hpresent
    have hdf := Focus.number_of_down? hd
    have heg := Focus.number_of_down? he
    have hwindow : d.window = e.window :=
      window_congr (mem_foci_of_down? hf hd) (mem_foci_of_down? hg he) (by omega)
        fun k hfirst hlast => hlines k (by omega) (by omega)
    have habove : d.window.number - 1 = f.number := by
      rw [window_number]
      omega
    have hreport := @filter_scanLine_above_congr m m' lines lines' d.window (by
      rw [window_number, hdf]
      exact hbelow) (by
      rw [habove]
      exact hhere)
    rw [habove] at hreport
    rw [he, Option.toList_some, Option.toList_some, List.flatMap_singleton, List.flatMap_singleton,
      ← scanLine_window _ _ d, ← scanLine_window _ _ e, ← hwindow]
    exact hreport

/-- The points on a line are the same in any two sources that agree on the ten lines above it, on the
twenty-one lines below it and on the first twenty-one lines of each function around it, and for any two
maps whose functions on it, on the five lines above it and on the line below it are the same. -/
theorem points_of_line_congr {source source' : List Char} {m m' : BoundaryMap} (n : Int)
    (hlines : ∀ k, n - 10 ≤ k → k ≤ n + 21 →
      lineAt (splitLines source) k = lineAt (splitLines source') k)
    (hsignatures : ∀ entry ∈ m.entries, entry.2.contains n = true →
      ∀ k, entry.2.start ≤ k → k ≤ entry.2.start + 20 →
        lineAt (splitLines source) k = lineAt (splitLines source') k)
    (hmaps : m.meeting (n - 5) (n + 1) = m'.meeting (n - 5) (n + 1)) :
    (decisionPoints source m).filter (fun p => p.line = n) =
      (decisionPoints source' m').filter fun p => p.line = n := by
  have hagree (k : Int) (hfirst : n - 5 ≤ k) (hlast : k ≤ n + 1) : m.AgreeAt m' k :=
    agreeAt_of_meeting hmaps hfirst hlast
  rw [filter_decisionPoints, filter_decisionPoints]
  apply congrArg
  have hhere := hlines n (by omega) (by omega)
  cases hline : lineAt (splitLines source) n with
  | none => rw [filter_rawPoints_of_lineAt hline, filter_rawPoints_of_lineAt (hhere ▸ hline)]
  | some line =>
    obtain ⟨f, hf, rfl⟩ := exists_mem_foci_of_lineAt hline
    obtain ⟨g, hg, hnumber⟩ := exists_mem_foci_of_lineAt (hhere ▸ hline)
    -- the line itself
    have hwindow := window_congr hf hg hnumber.symm fun k hfirst hlast =>
      hlines k hfirst (by omega)
    have hsignature (b : Boundary) (key : Int) (hget : m.get? key = some b)
        (hcontains : b.contains f.number = true) :
        signatureLines b.start (splitLines source) = signatureLines b.start (splitLines source') := by
      have hentry := (m.get?_eq_some_iff key b).1 hget
      exact signatureLines_congr (hsignatures _ hentry hcontains)
    have hself : scanLine (Ownership.of m) (splitLines source) f =
        scanLine (Ownership.of m') (splitLines source') g := by
      rw [← scanLine_window, ← scanLine_window _ _ g, ← hwindow]
      exact scanLine_congr (fun k hfirst hlast => hagree k hfirst (Int.le_trans hlast (by simp)))
        hsignature
    have hbelow := filter_below_congr hf hg hnumber.symm hlines (hagree _ (by omega) (by omega))
      (hagree _ (by omega) (by omega))
    have hsplit := @filter_rawPoints m' (splitLines source') g hg
    rw [hnumber] at hsplit
    rw [filter_rawPoints hf, hsplit, hself, hbelow]

/-- A line that is twenty-two lines away may change, and a function may come to be there. -/
theorem points_of_line_congr_distant_change :
    let source := "x = a ? b : c;".toList ++ List.replicate 22 '\n' ++ "y = z;".toList
    let source' := "x = a ? b : c;".toList ++ List.replicate 22 '\n' ++ "if (y && z) \x7b".toList
    let m := BoundaryMap.single 4 ⟨1, 1, by decide⟩
    let m' : BoundaryMap := ⟨[(9, ⟨23, 23, by decide⟩), (4, ⟨1, 1, by decide⟩)], by decide⟩
    (∀ k, 1 - 10 ≤ k → k ≤ 1 + 21 → lineAt (splitLines source) k = lineAt (splitLines source') k) ∧
      (∀ entry ∈ m.entries, entry.2.contains 1 = true →
        ∀ k, entry.2.start ≤ k → k ≤ entry.2.start + 20 →
          lineAt (splitLines source) k = lineAt (splitLines source') k) ∧
      m.meeting (1 - 5) (1 + 1) = m'.meeting (1 - 5) (1 + 1) ∧
      lineAt (splitLines source) 23 ≠ lineAt (splitLines source') 23 ∧
      (decisionPoints source m).filter (fun p => p.line = 1) =
        (decisionPoints source' m').filter fun p => p.line = 1 := by
  intro source source' m m'
  have hlines : ∀ k, 1 - 10 ≤ k → k ≤ 1 + 21 →
      lineAt (splitLines source) k = lineAt (splitLines source') k := by decide
  have hsignatures : ∀ entry ∈ m.entries, entry.2.contains 1 = true →
      ∀ k, entry.2.start ≤ k → k ≤ entry.2.start + 20 →
        lineAt (splitLines source) k = lineAt (splitLines source') k := by decide
  have hmaps : m.meeting (1 - 5) (1 + 1) = m'.meeting (1 - 5) (1 + 1) := by decide
  exact ⟨hlines, hsignatures, hmaps, by decide, points_of_line_congr 1 hlines hsignatures hmaps⟩

end BranchTally
