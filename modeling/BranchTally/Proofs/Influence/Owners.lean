-- SUMMARY: What a line reports depends on a boundary map only through the functions around this line and the few above it.
import BranchTally.Proofs.Influence.Window
import BranchTally.Proofs.Ownership.Holding

/-!
# The functions that a line can see

All owners are chosen from the functions around a line: the line itself, or one of the five above it
where a condition may have begun. Two maps that agree on these give the same owners, and the same range
for each of them.
-/

namespace BranchTally

/-- The entries whose ranges meet the lines from `first` to `last`, in the order of the map. -/
def BoundaryMap.meeting (m : BoundaryMap) (first last : Int) : List (Int × Boundary) :=
  m.entries.filter fun entry => entry.2.start ≤ last && first ≤ entry.2.stop

/-- The maps give the same functions around a line, in the same order. -/
def BoundaryMap.AgreeAt (m m' : BoundaryMap) (line : Int) : Prop :=
  (Ownership.of m).containing line = (Ownership.of m').containing line

theorem containing_eq_map_meeting (m : BoundaryMap) {first last line : Int} (hfirst : first ≤ line)
    (hlast : line ≤ last) :
    (Ownership.of m).containing line = ((m.meeting first last).filter fun entry =>
      entry.2.contains line).map fun entry => ⟨entry.1, entry.2⟩ := by
  have hentries : m.entries.filter (fun entry => entry.2.contains line) =
      (m.meeting first last).filter fun entry => entry.2.contains line := by
    rw [BoundaryMap.meeting, List.filter_filter]
    apply List.filter_congr
    intro entry _
    rw [Bool.eq_iff_iff]
    simp only [Boundary.contains, Bool.and_eq_true, decide_eq_true_eq]
    omega
  rw [Ownership.containing_of, BoundaryMap.owners, List.filter_map, ← hentries]
  rfl

/-- Maps with the same entries around some lines give the same functions on each of them. -/
theorem agreeAt_of_meeting {m m' : BoundaryMap} {first last line : Int}
    (h : m.meeting first last = m'.meeting first last) (hfirst : first ≤ line) (hlast : line ≤ last) :
    m.AgreeAt m' line := by
  rw [BoundaryMap.AgreeAt, containing_eq_map_meeting m hfirst hlast,
    containing_eq_map_meeting m' hfirst hlast, h]

section

variable {m m' : BoundaryMap}

/-! ## Owners -/

section

variable {line : Int} (h : m.AgreeAt m' line)

include h

theorem innermost?_congr : (Ownership.of m).innermost? line = (Ownership.of m').innermost? line := by
  rw [BoundaryMap.AgreeAt] at h
  simp only [Ownership.innermost?, h]

theorem controlOwner?_congr :
    (Ownership.of m).controlOwner? line = (Ownership.of m').controlOwner? line := by
  have hinnermost := innermost?_congr h
  rw [BoundaryMap.AgreeAt] at h
  simp only [Ownership.controlOwner?, hinnermost, h]

theorem callbackOn?_congr :
    (Ownership.of m).callbackOn? line = (Ownership.of m').callbackOn? line := by
  rw [BoundaryMap.AgreeAt] at h
  funext owner
  simp only [Ownership.callbackOn?, h]

theorem startingOn_congr :
    (Ownership.of m).startingOn line = (Ownership.of m').startingOn line := by
  have hstart (m : BoundaryMap) : (Ownership.of m).startingOn line =
      ((Ownership.of m).containing line).filter fun f => f.boundary.start = line := by
    rw [Ownership.containing_of, List.filter_filter]
    apply List.filter_congr
    intro f _
    have := f.boundary.start_le_stop
    rw [Bool.eq_iff_iff]
    simp only [Boundary.contains, Bool.and_eq_true, decide_eq_true_eq]
    omega
  rw [hstart m, hstart m', h]

/-- The maps give a function around the line the same range. -/
theorem get?_congr {key : Int} (hkey : (Ownership.of m).Holds line key) : m.get? key = m'.get? key := by
  obtain ⟨f, hf, rfl⟩ := hkey
  have hf' : f ∈ (Ownership.of m').containing line := h ▸ hf
  rw [Ownership.get?_of_mem_owners (Ownership.mem_owners_of_mem_containing line hf),
    Ownership.get?_of_mem_owners (Ownership.mem_owners_of_mem_containing line hf')]

theorem arrowOwner_congr {key : Int} (hkey : (Ownership.of m).Holds line key) :
    (Ownership.of m).arrowOwner line key = (Ownership.of m').arrowOwner line key := by
  have hget := get?_congr h hkey
  simp only [Ownership.arrowOwner, startingOn_congr h]
  rw [show (Ownership.of m).boundaries = m from rfl, show (Ownership.of m').boundaries = m' from rfl,
    hget]

theorem expressionOwner_of_agreeAt (text : Line) (position default : Int) :
    expressionOwner (Ownership.of m) text line position default =
      expressionOwner (Ownership.of m') text line position default := by
  have hhosts (m : BoundaryMap) : ((Ownership.of m).boundaries.owners.filter fun f =>
      f.boundary.contains line && f.boundary.start ≠ line) =
      ((Ownership.of m).containing line).filter fun f => f.boundary.start ≠ line := by
    rw [Ownership.containing_of, List.filter_filter]
    exact List.filter_congr fun f _ => Bool.and_comm _ _
  have hstarting := startingOn_congr h
  rw [BoundaryMap.AgreeAt] at h
  simp only [expressionOwner, hstarting, hhosts, h]

end

/-! ## Points -/

theorem controlPoints_congr {number : Int} (h : m.AgreeAt m' number) (line : Line) (headers : Headers)
    (owner : Int) :
    controlPoints (Ownership.of m) line number headers owner =
      controlPoints (Ownership.of m') line number headers owner := by
  simp only [controlPoints, ifPoints, controlOwner, controlOwner?_congr h, callbackOn?_congr h]

theorem conditionAbovePoints_congr {f : Focus} (h : m.AgreeAt m' (f.number - 1)) (owner : Int) :
    conditionAbovePoints f owner (Ownership.of m).innermost? =
      conditionAbovePoints f owner (Ownership.of m').innermost? := by
  unfold conditionAbovePoints
  split
  · next above habove => rw [number_of_up? habove, innermost?_congr h]
  · rfl

theorem conditionOwner_of_agreeAt {number : Int} (h : m.AgreeAt m' number) (line : Line) (owner : Int) :
    conditionOwner (Ownership.of m) number line owner =
      conditionOwner (Ownership.of m') number line owner := by
  simp only [conditionOwner, controlOwner?_congr h, innermost?_congr h]

theorem continuationPoints_congr {f : Focus}
    (h : ∀ k, f.number - 5 ≤ k → k ≤ f.number → m.AgreeAt m' k) (headers : Headers) (markup : Markup)
    (owner : Int) :
    continuationPoints (Ownership.of m) f headers markup owner =
      continuationPoints (Ownership.of m') f headers markup owner := by
  have habove := h (f.number - 1) (by omega) (by omega)
  unfold continuationPoints
  split
  · rfl
  · simp only [continuationPointsBelow, conditionOwner_of_agreeAt habove]
    cases hstart : conditionStart? f.before with
    | none => rfl
    | some d =>
      have hd := le_of_conditionStart? hstart
      rw [lookbackLimit] at hd
      have hbegin := h (f.number - d) (by omega) (by omega)
      simp only [conditionOwner_of_agreeAt hbegin]

section

variable {lines lines' : List Line} {f : Focus} {owner : Int} (h : m.AgreeAt m' f.number)
  (howner : (Ownership.of m).Holds f.number owner)
  (hsignature : ∀ b key, m.get? key = some b → b.contains f.number = true →
    signatureLines b.start lines = signatureLines b.start lines')

include h howner hsignature

theorem parameterPoints_of_agreeAt : parameterPoints (Ownership.of m) lines f owner =
    parameterPoints (Ownership.of m') lines' f owner := by
  have hpoints {key : Int} (hkey : (Ownership.of m).Holds f.number key) :
      ∃ b, m.get? key = some b ∧ signaturePoints lines (stripComments f.line) f owner b =
        signaturePoints lines' (stripComments f.line) f owner b := by
    obtain ⟨b, hb, hcontains⟩ := (Ownership.holds_iff_get? m f.number key).1 hkey
    exact ⟨b, hb, signaturePoints_of_signatureLines (hsignature b key hb hcontains) _ f owner⟩
  have harrow : (Ownership.of m).arrowOwner f.number owner =
      (((Ownership.of m).arrowOwner f.number owner).1,
        m.get? ((Ownership.of m).arrowOwner f.number owner).1) := by
    rw [← Ownership.arrowOwner_get?]
  have hget : (Ownership.of m').boundaries.get? owner = m.get? owner := (get?_congr h howner).symm
  unfold parameterPoints
  rw [← arrowOwner_congr h howner, harrow, hget]
  dsimp only
  split
  · split
    · obtain ⟨b, hb, hsame⟩ := hpoints (Ownership.holds_arrowOwner howner)
      rw [hb]
      exact hsame
    · rfl
  · obtain ⟨b, hb, hsame⟩ := hpoints howner
    have howned : (Ownership.of m).boundaries.get? owner = some b := hb
    rw [howned, hb]
    exact hsame

/-- What a line reports depends on the functions around it and around the five lines above, and on the
first lines of the functions around it. -/
theorem codePoints_congr (habove : ∀ k, f.number - 5 ≤ k → k < f.number → m.AgreeAt m' k) :
    codePoints (Ownership.of m) lines f owner = codePoints (Ownership.of m') lines' f owner := by
  have hnear (k : Int) (hfirst : f.number - 5 ≤ k) (hlast : k ≤ f.number) : m.AgreeAt m' k := by
    rcases Int.lt_or_eq_of_le hlast with hlt | rfl
    · exact habove k hfirst hlt
    · exact h
  have hternary : ternaryPoints f owner (Ownership.of m).innermost? =
      ternaryPoints f owner (Ownership.of m').innermost? := by
    simp only [ternaryPoints, conditionAbovePoints_congr (hnear (f.number - 1) (by omega) (by omega))]
  have hexpression (headers : Headers) (markup : Markup) :
      expressionPoints (Ownership.of m) f headers markup owner =
        expressionPoints (Ownership.of m') f headers markup owner := by
    simp only [expressionPoints, expressionOwner_of_agreeAt h]
  have hget : (Ownership.of m).boundaries.get? owner = (Ownership.of m').boundaries.get? owner :=
    get?_congr h howner
  simp only [codePoints, controlPoints_congr h, hternary, hexpression, continuationPoints_congr hnear,
    parameterPoints_of_agreeAt h howner hsignature, hget]

end

end

end BranchTally
