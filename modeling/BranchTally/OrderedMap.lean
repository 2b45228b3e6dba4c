-- SUMMARY: Finite maps that keep their keys in the order of first insertion.

/-! # Ordered maps

A map is the list of its entries, with distinct keys. Setting a known key keeps its place and gives
it the new value; a new key goes to the end.
-/

namespace BranchTally

universe u v

/-- Sets `key` in a list of entries. -/
def putEntry {κ : Type u} {ν : Type v} [DecidableEq κ] (key : κ) (value : ν) :
    List (κ × ν) → List (κ × ν)
  | [] => [(key, value)]
  | (k, x) :: rest => if k = key then (key, value) :: rest else (k, x) :: putEntry key value rest

theorem keys_putEntry {κ : Type u} {ν : Type v} [DecidableEq κ] (key : κ) (value : ν)
    (entries : List (κ × ν)) :
    (putEntry key value entries).map (·.1) =
      if key ∈ entries.map (·.1) then entries.map (·.1) else entries.map (·.1) ++ [key] := by
  induction entries with
  | nil => simp [putEntry]
  | cons entry rest ih =>
    obtain ⟨k, x⟩ := entry
    by_cases h : k = key
    · simp [putEntry, h]
    · have h' : ¬key = k := fun e => h e.symm
      by_cases hm : key ∈ rest.map (·.1)
      · simp only [putEntry, h, if_false, List.map_cons, ih, List.mem_cons, h', hm,
          or_true, if_true]
      · simp only [putEntry, h, if_false, List.map_cons, ih, List.mem_cons, h', hm,
          or_self, List.cons_append]

theorem nodup_putEntry {κ : Type u} {ν : Type v} [DecidableEq κ] (key : κ) (value : ν)
    {entries : List (κ × ν)} (h : (entries.map (·.1)).Nodup) :
    ((putEntry key value entries).map (·.1)).Nodup := by
  rw [keys_putEntry]
  split
  · exact h
  · rename_i hm
    rw [List.nodup_append]
    refine ⟨h, by simp, ?_⟩
    intro a ha b hb
    simp only [List.mem_singleton] at hb
    subst hb
    exact fun e => hm (e ▸ ha)

theorem nodup_filter_keys {κ : Type u} {ν : Type v} (p : κ × ν → Bool) {entries : List (κ × ν)}
    (h : (entries.map (·.1)).Nodup) : ((entries.filter p).map (·.1)).Nodup :=
  h.sublist (List.filter_sublist.map _)

/-- A finite map whose entries stand in the order in which their keys first came. -/
structure OrderedMap (κ : Type u) (ν : Type v) where
  entries : List (κ × ν)
  nodup_keys : (entries.map (·.1)).Nodup

namespace OrderedMap

variable {κ : Type u} {ν : Type v}

/-- The map without entries. -/
def empty : OrderedMap κ ν := ⟨[], by simp⟩

/-- The keys, in order. -/
def keys (m : OrderedMap κ ν) : List κ := m.entries.map (·.1)

/-- The values, in the order of their keys. -/
def values (m : OrderedMap κ ν) : List ν := m.entries.map (·.2)

variable [DecidableEq κ]

/-- The value of a key. -/
def get? (m : OrderedMap κ ν) (key : κ) : Option ν :=
  (m.entries.find? fun entry => entry.1 = key).map (·.2)

/-- The key has a value. -/
def contains (m : OrderedMap κ ν) (key : κ) : Bool := m.entries.any fun entry => entry.1 = key

/-- Sets a key. -/
def insert (m : OrderedMap κ ν) (key : κ) (value : ν) : OrderedMap κ ν :=
  ⟨putEntry key value m.entries, nodup_putEntry key value m.nodup_keys⟩

/-- Drops a key. -/
def erase (m : OrderedMap κ ν) (key : κ) : OrderedMap κ ν :=
  ⟨m.entries.filter fun entry => entry.1 ≠ key, nodup_filter_keys _ m.nodup_keys⟩

/-- The map that results from setting the keys of a list one after the other. -/
def ofList (entries : List (κ × ν)) : OrderedMap κ ν :=
  entries.foldl (fun m entry => m.insert entry.1 entry.2) empty

end OrderedMap

end BranchTally
