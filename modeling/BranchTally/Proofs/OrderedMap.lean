-- SUMMARY: Ordered maps built from entries, whose keys keep their first place and take their last value, and maps cut down to some of their keys.
import Mathlib
import BranchTally.OrderedMap

/-!
# Ordered maps

New keys go to the end, so a map that is built from distinct keys has them in their order. A key that comes
again keeps its first place and takes its last value. A map cut down to the keys that pass a test has the
others' places closed up; setting a key that passes can be done before or after the cut, and setting one that
fails does not show behind it.
-/

namespace BranchTally

/-! ## Maps from entries -/

section

variable {κ ν : Type} [DecidableEq κ]

theorem putEntry_of_not_mem {key : κ} (value : ν) {entries : List (κ × ν)}
    (h : key ∉ entries.map (·.1)) : putEntry key value entries = entries ++ [(key, value)] := by
  induction entries with
  | nil => rfl
  | cons entry rest ih =>
    rw [List.map_cons, List.mem_cons, not_or] at h
    rw [putEntry, if_neg (Ne.symm h.1), ih h.2, List.cons_append]

/-- New keys go to the end one after the other. -/
theorem OrderedMap.entries_foldl_insert (m : OrderedMap κ ν) {entries : List (κ × ν)}
    (h : ((m.entries ++ entries).map (·.1)).Nodup) :
    (entries.foldl (fun m entry => m.insert entry.1 entry.2) m).entries = m.entries ++ entries := by
  induction entries generalizing m with
  | nil => simp
  | cons entry rest ih =>
    have hnew : entry.1 ∉ m.entries.map (·.1) := by
      rw [List.map_append, List.map_cons] at h
      exact fun hmem => (List.disjoint_of_nodup_append h) hmem List.mem_cons_self
    have hinsert : (m.insert entry.1 entry.2).entries = m.entries ++ [entry] :=
      putEntry_of_not_mem entry.2 hnew
    rw [List.foldl_cons, ih, hinsert, List.append_assoc, List.singleton_append]
    rw [hinsert, List.append_assoc, List.singleton_append]
    exact h

theorem OrderedMap.entries_ofList {entries : List (κ × ν)} (h : (entries.map (·.1)).Nodup) :
    (OrderedMap.ofList entries).entries = entries :=
  OrderedMap.empty.entries_foldl_insert h

omit [DecidableEq κ] in
theorem OrderedMap.ext_entries {m m' : OrderedMap κ ν} (h : m.entries = m'.entries) : m = m' := by
  obtain ⟨entries, hnodup⟩ := m
  obtain ⟨entries', hnodup'⟩ := m'
  obtain rfl : entries = entries' := h
  rfl

theorem mem_of_mem_putEntry {key : κ} {value : ν} {entries : List (κ × ν)} {entry : κ × ν}
    (h : entry ∈ putEntry key value entries) : entry = (key, value) ∨ entry ∈ entries := by
  induction entries with
  | nil => exact .inl (List.mem_singleton.1 h)
  | cons first rest ih =>
    rw [putEntry] at h
    split at h
    · exact (List.mem_cons.1 h).imp_right (List.mem_cons_of_mem _)
    · rcases List.mem_cons.1 h with rfl | h
      · exact .inr List.mem_cons_self
      · exact (ih h).imp_right (List.mem_cons_of_mem _)

/-- Keys are distinct, so an entry of a map is what the map gives for its key. -/
theorem OrderedMap.get?_eq_some_iff (m : OrderedMap κ ν) (key : κ) (value : ν) :
    m.get? key = some value ↔ (key, value) ∈ m.entries := by
  rw [OrderedMap.get?, Option.map_eq_some_iff]
  constructor
  · rintro ⟨entry, hfind, rfl⟩
    have hkey : entry.1 = key := by simpa using List.find?_some hfind
    exact hkey ▸ List.mem_of_find?_eq_some hfind
  · intro hentry
    refine ⟨(key, value), ?_, rfl⟩
    cases hfind : m.entries.find? fun entry => entry.1 = key with
    | none => simpa using List.find?_eq_none.1 hfind _ hentry
    | some other =>
      have hkey : other.1 = key := by simpa using List.find?_some hfind
      rw [List.inj_on_of_nodup_map m.nodup_keys (List.mem_of_find?_eq_some hfind) hentry hkey]

theorem OrderedMap.get?_insert (m : OrderedMap κ ν) (key other : κ) (value : ν) :
    (m.insert key value).get? other = if other = key then some value else m.get? other := by
  obtain ⟨entries, hnodup⟩ := m
  change ((putEntry key value entries).find? fun entry => entry.1 = other).map (·.2) =
    if other = key then some value else (entries.find? fun entry => entry.1 = other).map (·.2)
  clear hnodup
  induction entries with
  | nil => by_cases h : other = key <;> simp [putEntry, h, eq_comm (a := key)]
  | cons entry rest ih =>
    by_cases hkey : entry.1 = key
    · by_cases h : other = key
      · simp [putEntry, hkey, h]
      · simp [putEntry, hkey, h, Ne.symm h]
    · by_cases h : entry.1 = other
      · obtain rfl := h
        simp [putEntry, hkey]
      · simpa [putEntry, hkey, h] using ih

theorem OrderedMap.contains_eq_isSome (m : OrderedMap κ ν) (key : κ) :
    m.contains key = (m.get? key).isSome := by
  rw [OrderedMap.contains, OrderedMap.get?, Option.isSome_map, List.isSome_find?]

theorem OrderedMap.mem_keys_iff (m : OrderedMap κ ν) (key : κ) :
    key ∈ m.keys ↔ ∃ value, m.get? key = some value := by
  simp only [OrderedMap.keys, List.mem_map, Prod.exists, exists_and_right, exists_eq_right,
    OrderedMap.get?_eq_some_iff]

theorem OrderedMap.keys_insert (m : OrderedMap κ ν) (key : κ) (value : ν) :
    (m.insert key value).keys = if key ∈ m.keys then m.keys else m.keys ++ [key] :=
  keys_putEntry key value m.entries

/-- To set a key is to replace its value, if it has one. -/
theorem OrderedMap.sum_insert (size : ν → Nat) (m : OrderedMap κ ν) (key : κ) (value : ν) :
    ((m.insert key value).entries.map fun entry => size entry.2).sum +
        ((m.get? key).map size).getD 0 =
      (m.entries.map fun entry => size entry.2).sum + size value := by
  obtain ⟨entries, hnodup⟩ := m
  change ((putEntry key value entries).map _).sum +
    (((entries.find? fun entry => entry.1 = key).map (·.2)).map size).getD 0 =
    (entries.map fun entry => size entry.2).sum + size value
  clear hnodup
  induction entries with
  | nil => simp [putEntry]
  | cons entry rest ih =>
    rw [putEntry, List.find?_cons]
    by_cases hkey : entry.1 = key
    · simp only [hkey, if_true, decide_true, List.map_cons, List.sum_cons, Option.map_some,
        Option.getD_some]
      omega
    · simp only [hkey, if_false, decide_false, List.map_cons, List.sum_cons] at ih ⊢
      omega

/-! ## Keys that come again -/

/-- Of the entries with its key it is the last one. -/
def IsLastOfKey (entries : List (κ × ν)) (entry : κ × ν) : Prop :=
  ∃ front back, entries = front ++ entry :: back ∧ ∀ x ∈ back, x.1 ≠ entry.1

omit [DecidableEq κ] in
/-- One more entry makes the others with its key give way. -/
theorem isLastOfKey_concat {entries : List (κ × ν)} {entry last : κ × ν} :
    IsLastOfKey (entries ++ [last]) entry ↔
      entry = last ∨ entry.1 ≠ last.1 ∧ IsLastOfKey entries entry := by
  constructor
  · rintro ⟨front, back, heq, hback⟩
    rcases List.eq_nil_or_concat back with rfl | ⟨back, x, rfl⟩
    · exact Or.inl (List.cons.inj (List.append_inj' heq rfl).2).1.symm
    · rw [List.concat_eq_append, ← List.cons_append, ← List.append_assoc] at heq
      obtain ⟨rfl, hx⟩ := List.append_inj' heq rfl
      obtain rfl := (List.cons.inj hx).1
      rw [List.concat_eq_append] at hback
      exact Or.inr ⟨(hback last (by simp)).symm, front, back, rfl, fun y hy => hback y (by simp [hy])⟩
  · rintro (rfl | ⟨hne, front, back, rfl, hback⟩)
    · exact ⟨entries, [], rfl, nofun⟩
    · refine ⟨front, back ++ [last], by simp, fun x hx => ?_⟩
      rcases List.mem_append.1 hx with hx | hx
      · exact hback x hx
      · obtain rfl := List.mem_singleton.1 hx
        exact hne.symm

theorem OrderedMap.ofList_concat (entries : List (κ × ν)) (entry : κ × ν) :
    OrderedMap.ofList (entries ++ [entry]) = (OrderedMap.ofList entries).insert entry.1 entry.2 := by
  rw [OrderedMap.ofList, List.foldl_append]
  rfl

/-- A key keeps the place where it first came. -/
theorem OrderedMap.keys_ofList (entries : List (κ × ν)) :
    (OrderedMap.ofList entries).keys = (entries.map (·.1)).eraseDups := by
  induction entries using List.reverseRecOn with
  | nil => rfl
  | append_singleton entries entry ih =>
    rw [OrderedMap.ofList_concat, OrderedMap.keys_insert, ih, List.map_append, List.eraseDups_append]
    by_cases h : entry.1 ∈ entries.map (·.1)
    · simp [List.mem_eraseDups, h, List.removeAll]
    · simp [List.mem_eraseDups, h, List.removeAll, List.eraseDups_cons]

/-- A key takes the value that comes last. -/
theorem OrderedMap.mem_entries_ofList_iff {entries : List (κ × ν)} {entry : κ × ν} :
    entry ∈ (OrderedMap.ofList entries).entries ↔ IsLastOfKey entries entry := by
  induction entries using List.reverseRecOn with
  | nil => simp [OrderedMap.ofList, OrderedMap.empty, IsLastOfKey]
  | append_singleton entries last ih =>
    rw [isLastOfKey_concat, ← ih, ← OrderedMap.get?_eq_some_iff, OrderedMap.ofList_concat,
      OrderedMap.get?_insert, ← OrderedMap.get?_eq_some_iff]
    by_cases hkey : entry.1 = last.1
    · rw [if_pos hkey, Option.some.injEq]
      constructor
      · exact fun h => Or.inl (Prod.ext hkey h.symm)
      · rintro (rfl | ⟨hne, -⟩)
        · rfl
        · exact absurd hkey hne
    · rw [if_neg hkey]
      constructor
      · exact fun h => Or.inr ⟨hkey, h⟩
      · rintro (rfl | ⟨-, h⟩)
        · exact absurd rfl hkey
        · exact h

theorem putEntry_map {κ' ν' : Type} [DecidableEq κ'] {f : κ → κ'} (hf : f.Injective) (g : ν → ν')
    (key : κ) (value : ν) (entries : List (κ × ν)) :
    putEntry (f key) (g value) (entries.map fun entry => (f entry.1, g entry.2)) =
      (putEntry key value entries).map fun entry => (f entry.1, g entry.2) := by
  induction entries with
  | nil => rfl
  | cons entry rest ih =>
    by_cases h : entry.1 = key
    · simp [putEntry, h]
    · simp [putEntry, h, hf.ne h, ih]

/-- Keys may be spelled in another way, and values too, before a map is made or after. -/
theorem OrderedMap.entries_ofList_map {κ' ν' : Type} [DecidableEq κ'] {f : κ → κ'} (hf : f.Injective)
    (g : ν → ν') (entries : List (κ × ν)) :
    (OrderedMap.ofList (entries.map fun entry => (f entry.1, g entry.2))).entries =
      (OrderedMap.ofList entries).entries.map fun entry => (f entry.1, g entry.2) := by
  induction entries using List.reverseRecOn with
  | nil => rfl
  | append_singleton entries last ih =>
    rw [List.map_append, List.map_singleton, OrderedMap.ofList_concat, OrderedMap.ofList_concat]
    change putEntry (f last.1) (g last.2) (OrderedMap.ofList _).entries = _
    rw [ih]
    exact putEntry_map hf g last.1 last.2 _
/-! ## Maps cut down to some keys -/

namespace OrderedMap

variable (q : κ → Bool)

omit [DecidableEq κ]

/-- The map without the keys that fail the test. -/
def filterKeys (m : OrderedMap κ ν) : OrderedMap κ ν :=
  ⟨m.entries.filter fun entry => q entry.1, nodup_filter_keys _ m.nodup_keys⟩

theorem filterKeys_empty : (empty : OrderedMap κ ν).filterKeys q = empty := rfl

/-- The values of the keys that pass, where each value tells whether its key does. -/
theorem values_filterKeys {m : OrderedMap κ ν} {p : ν → Bool}
    (h : ∀ entry ∈ m.entries, p entry.2 = q entry.1) :
    (m.filterKeys q).values = m.values.filter p := by
  rw [values, values, List.filter_map, filterKeys]
  exact congrArg _ (List.filter_congr fun entry hentry => (h entry hentry).symm)

variable {q}

/-- Items that are put into a map one after the other, each under its key, may be left out before or
behind: what is put under a key depends on nothing else in the map. -/
theorem filterKeys_foldl {α : Type} {step : OrderedMap κ ν → α → OrderedMap κ ν} {key : α → κ}
    (hkept : ∀ m x, q (key x) = true → (step m x).filterKeys q = step (m.filterKeys q) x)
    (hleft : ∀ m x, q (key x) = false → (step m x).filterKeys q = m.filterKeys q)
    (items : List α) (m : OrderedMap κ ν) :
    (items.foldl step m).filterKeys q =
      (items.filter fun x => q (key x)).foldl step (m.filterKeys q) := by
  induction items generalizing m with
  | nil => rfl
  | cons x items ih =>
    rw [List.foldl_cons, ih]
    cases hq : q (key x) with
    | true => simp only [List.filter_cons, hq, if_true, List.foldl_cons, hkept m x hq]
    | false => simp only [List.filter_cons, hq, Bool.false_eq_true, if_false, hleft m x hq]

variable [DecidableEq κ]

theorem get?_filterKeys {key : κ} (h : q key = true) (m : OrderedMap κ ν) :
    (m.filterKeys q).get? key = m.get? key := by
  rw [get?, filterKeys, List.find?_filter, get?]
  congr 2
  funext entry
  by_cases hkey : entry.1 = key <;> simp [hkey, h]

theorem filter_putEntry (key : κ) (value : ν) (entries : List (κ × ν)) :
    (putEntry key value entries).filter (fun entry => q entry.1) =
      if q key then putEntry key value (entries.filter fun entry => q entry.1)
      else entries.filter fun entry => q entry.1 := by
  induction entries with
  | nil => cases h : q key <;> simp [putEntry, h]
  | cons entry rest ih =>
    by_cases hkey : entry.1 = key
    · cases h : q key <;> simp [putEntry, hkey, h]
    · cases h : q key <;> cases hentry : q entry.1 <;> simp [putEntry, hkey, hentry, ih, h]

theorem filterKeys_insert {key : κ} (h : q key = true) (value : ν) (m : OrderedMap κ ν) :
    (m.insert key value).filterKeys q = (m.filterKeys q).insert key value :=
  ext_entries ((filter_putEntry key value m.entries).trans (if_pos h))

theorem filterKeys_insert_of_not {key : κ} (h : q key = false) (value : ν) (m : OrderedMap κ ν) :
    (m.insert key value).filterKeys q = m.filterKeys q :=
  ext_entries ((filter_putEntry key value m.entries).trans (if_neg (Bool.eq_false_iff.1 h)))

end OrderedMap

end

end BranchTally
