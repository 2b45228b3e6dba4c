-- SUMMARY: Moving a text down moves its points, and new keys for its functions are the new owners of its points.
import BranchTally.Proofs.Relabeling.Points

/-!
# Moved texts and renamed functions

Two ways to relabel a boundary map, and what they do to the points of a file. Empty lines around a text
move its functions and its points; the keys of functions are labels, which no collector looks into
except for zero, which stands for no function.
-/

namespace BranchTally

/-! ## Moved texts -/

/-- The map of a text that was moved down. -/
def BoundaryMap.shift (m : BoundaryMap) (lines : Nat) : BoundaryMap where
  entries := m.entries.map fun entry => (entry.1, entry.2.shift lines)
  nodup_keys := by
    rw [List.map_map]
    exact m.nodup_keys

/-- The point moved down. -/
def Point.shift (p : Point) (lines : Nat) : Point := { p with line := p.line + lines }

theorem BoundaryMap.relabels_shift (m : BoundaryMap) (lines : Nat) :
    Relabeling.Relabels ⟨id, lines⟩ m (m.shift lines) where
  owners := by
    simp only [owners, shift, List.map_map]
    rfl
  injective _ _ _ _ h := h
  zero _ _ := Iff.rfl

/-- Empty lines above and below a text, with its functions moved down, move its points down. -/
theorem decisionPoints_translate (source : List Char) (m : BoundaryMap) (above below : Nat) :
    decisionPoints (List.replicate above '\n' ++ source ++ List.replicate below '\n') (m.shift above) =
      (decisionPoints source m).map (·.shift above) :=
  (m.relabels_shift above).answers.decisionPoints below source

/-! ## Renamed functions -/

/-- The map under new keys, in its order and with its ranges. -/
def BoundaryMap.rename (m : BoundaryMap) (name : Int → Int)
    (hname : ∀ k ∈ m.keys, ∀ l ∈ m.keys, name k = name l → k = l) : BoundaryMap where
  entries := m.entries.map fun entry => (name entry.1, entry.2)
  nodup_keys := by
    have hkeys : (m.keys.map name).Nodup := m.nodup_keys.map_on hname
    rw [OrderedMap.keys, List.map_map] at hkeys
    rw [List.map_map]
    exact hkeys

theorem BoundaryMap.key_mem_keys {m : BoundaryMap} {f : Owner} (h : f ∈ m.owners) : f.key ∈ m.keys := by
  obtain ⟨entry, hentry, rfl⟩ := List.mem_map.1 h
  exact List.mem_map_of_mem hentry

theorem BoundaryMap.relabels_rename (m : BoundaryMap) {name : Int → Int}
    (hname : ∀ k ∈ m.keys, ∀ l ∈ m.keys, name k = name l → k = l)
    (hkeys : ∀ k ∈ m.keys, k ≠ 0) (hnames : ∀ k ∈ m.keys, name k ≠ 0) :
    Relabeling.Relabels ⟨name, 0⟩ m (m.rename name hname) where
  owners := by
    simp only [owners, rename, List.map_map]
    apply List.map_congr_left
    intro entry _
    simp [Relabeling.owner]
  injective f hf g hg := hname f.key (key_mem_keys hf) g.key (key_mem_keys hg)
  zero f hf := iff_of_false (hnames _ (key_mem_keys hf)) (hkeys _ (key_mem_keys hf))

/-- New keys for the functions of a file are the new owners of its points, and change nothing else. -/
theorem decisionPoints_rename (source : List Char) (m : BoundaryMap) (name : Int → Int)
    (hname : ∀ k ∈ m.keys, ∀ l ∈ m.keys, name k = name l → k = l)
    (hkeys : ∀ k ∈ m.keys, k ≠ 0) (hnames : ∀ k ∈ m.keys, name k ≠ 0) :
    decisionPoints source (m.rename name hname) =
      (decisionPoints source m).map fun p => { p with owner := name p.owner } := by
  have hpoints := (m.relabels_rename hname hkeys hnames).answers.decisionPoints 0 source
  have hpoint : Relabeling.point ⟨name, 0⟩ = fun p => { p with owner := name p.owner } := by
    funext p
    simp [Relabeling.point]
  rwa [hpoint, List.replicate_zero, List.nil_append, List.append_nil] at hpoints

/-- The names may turn the order of the keys around. -/
theorem decisionPoints_rename_reversed :
    let source := "rows.map((x) => \x7b\n  return x && x.y;\n\x7d);".toList
    let m : BoundaryMap := ⟨[(1, ⟨1, 3, by decide⟩), (2, ⟨1, 2, by decide⟩)], by decide⟩
    let name : Int → Int := fun k => 10 - k
    ∃ hname : ∀ k ∈ m.keys, ∀ l ∈ m.keys, name k = name l → k = l,
      (∀ k ∈ m.keys, k ≠ 0) ∧ (∀ k ∈ m.keys, name k ≠ 0) ∧
        (m.rename name hname).keys = [9, 8] ∧
        decisionPoints source (m.rename name hname) =
          (decisionPoints source m).map fun p => { p with owner := name p.owner } := by
  intro source m name
  have hname : ∀ k ∈ m.keys, ∀ l ∈ m.keys, name k = name l → k = l := by decide
  have hkeys : ∀ k ∈ m.keys, k ≠ 0 := by decide
  have hnames : ∀ k ∈ m.keys, name k ≠ 0 := by decide
  exact ⟨hname, hkeys, hnames, rfl, decisionPoints_rename source m name hname hkeys hnames⟩

end BranchTally
