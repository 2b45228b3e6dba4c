-- SUMMARY: Linter results give one record for each scored function: the first one with its highest score, largest scores first.
import BranchTally.Proofs.Linter.Record
import BranchTally.Proofs.Sorting

/-!
# The highest score of each function

Several messages may score the same function. Going through them, the map of records holds for each function
met so far the first record with its highest score, in the order in which the functions were first met: a
higher score takes over the place of the one before. Sorting then moves records only past those with another
score.
-/

namespace BranchTally

/-! ## Firsts among records -/

section

variable {κ : Type} (key : FunctionRecord → κ)

/-- Of the records with its key this is the first one with the highest score. -/
def IsFirstHighest (all : List FunctionRecord) (r : FunctionRecord) : Prop :=
  ∃ before after, all = before ++ r :: after ∧
    (∀ x ∈ before, key x = key r → x.complexity < r.complexity) ∧
    ∀ x ∈ after, key x = key r → x.complexity ≤ r.complexity

/-- The one key is met before the other. -/
def IsMetBefore (all : List FunctionRecord) (k l : κ) : Prop :=
  ∃ front back, all = front ++ back ∧ (∃ x ∈ front, key x = k) ∧ ∀ x ∈ front, key x ≠ l

/-- The records stand for all: one for each key, which is the first with the highest score, those with
higher scores first and those with the same score in the order in which their keys were met. -/
structure Summarizes (records all : List FunctionRecord) : Prop where
  distinct : (records.map key).Nodup
  complete : ∀ x ∈ all, ∃ r ∈ records, key r = key x
  highest : ∀ r ∈ records, IsFirstHighest key all r
  ordered : records.Pairwise fun a b =>
    b.complexity < a.complexity ∨ b.complexity = a.complexity ∧ IsMetBefore key all (key a) (key b)

variable {key} {all : List FunctionRecord} {r x : FunctionRecord} {k l : κ}

namespace IsFirstHighest

theorem mem (h : IsFirstHighest key all r) : r ∈ all := by
  obtain ⟨before, after, rfl, -⟩ := h
  simp

theorem le (h : IsFirstHighest key all r) (hx : x ∈ all) (hkey : key x = key r) :
    x.complexity ≤ r.complexity := by
  obtain ⟨before, after, rfl, hbefore, hafter⟩ := h
  rcases List.mem_append.1 hx with hx | hx
  · exact (hbefore x hx hkey).le
  · rcases List.mem_cons.1 hx with rfl | hx
    · exact le_rfl
    · exact hafter x hx hkey

/-- A further record does not change what is the first with the highest score, unless it scores higher. -/
theorem concat (h : IsFirstHighest key all r) (hx : key x = key r → x.complexity ≤ r.complexity) :
    IsFirstHighest key (all ++ [x]) r := by
  obtain ⟨before, after, rfl, hbefore, hafter⟩ := h
  refine ⟨before, after ++ [x], by simp, hbefore, fun y hy => ?_⟩
  rcases List.mem_append.1 hy with hy | hy
  · exact hafter y hy
  · obtain rfl := List.mem_singleton.1 hy
    exact hx

theorem last (h : ∀ x ∈ all, key x = key r → x.complexity < r.complexity) :
    IsFirstHighest key (all ++ [r]) r :=
  ⟨all, [], rfl, h, nofun⟩

end IsFirstHighest

theorem IsMetBefore.concat (h : IsMetBefore key all k l) (x : FunctionRecord) :
    IsMetBefore key (all ++ [x]) k l := by
  obtain ⟨front, back, rfl, hk, hl⟩ := h
  exact ⟨front, back ++ [x], by simp, hk, hl⟩

theorem IsMetBefore.last (hk : ∃ x ∈ all, key x = k) (hl : ∀ x ∈ all, key x ≠ l) (x : FunctionRecord) :
    IsMetBefore key (all ++ [x]) k l :=
  ⟨all, [x], rfl, hk, hl⟩

end

/-! ## The map of records -/

/-- What a key stands for after a further record: a known one stays unless the new one scores higher. -/
def higherOf (known : Option FunctionRecord) (x : FunctionRecord) : FunctionRecord :=
  match known with
  | none => x
  | some r => if x.complexity > r.complexity then x else r

section

variable (m : OrderedMap String FunctionRecord) (x : FunctionRecord)

theorem get?_keepHighest (k : String) :
    (keepHighest m x).get? k = if k = x.key then some (higherOf (m.get? x.key) x) else m.get? k := by
  rw [keepHighest]
  cases hknown : m.get? x.key with
  | none => exact m.get?_insert x.key k x
  | some r =>
    dsimp only [higherOf]
    split
    · exact m.get?_insert x.key k x
    · split
      · rename_i hk
        rw [hk, hknown]
      · rfl

theorem keys_keepHighest :
    (keepHighest m x).keys = if x.key ∈ m.keys then m.keys else m.keys ++ [x.key] := by
  rw [keepHighest]
  cases hknown : m.get? x.key with
  | none => exact m.keys_insert x.key x
  | some r =>
    have hmem : x.key ∈ m.keys := (m.mem_keys_iff x.key).2 ⟨r, hknown⟩
    rw [if_pos hmem]
    dsimp only
    split
    · exact (m.keys_insert x.key x).trans (if_pos hmem)
    · rfl

end

/-- What the map holds once all these records have been put into it. -/
structure Gathers (all : List FunctionRecord) (m : OrderedMap String FunctionRecord) : Prop where
  known : ∀ x ∈ all, x.key ∈ m.keys
  highest : ∀ k r, m.get? k = some r → r.key = k ∧ IsFirstHighest FunctionRecord.key all r
  in_order : m.keys.Pairwise (IsMetBefore FunctionRecord.key all)

namespace Gathers

variable {all : List FunctionRecord} {m : OrderedMap String FunctionRecord}

theorem empty : Gathers [] .empty := by
  refine ⟨nofun, fun k r h => ?_, List.Pairwise.nil⟩
  cases h

/-- Each key is that of a record that was put in. -/
theorem exists_key (h : Gathers all m) {k : String} (hk : k ∈ m.keys) : ∃ x ∈ all, x.key = k := by
  obtain ⟨r, hr⟩ := (m.mem_keys_iff k).1 hk
  obtain ⟨hkey, hfirst⟩ := h.highest k r hr
  exact ⟨r, hfirst.mem, hkey⟩

theorem isFirstHighest_higherOf (h : Gathers all m) (x : FunctionRecord) :
    (higherOf (m.get? x.key) x).key = x.key ∧
      IsFirstHighest FunctionRecord.key (all ++ [x]) (higherOf (m.get? x.key) x) := by
  cases hknown : m.get? x.key with
  | none =>
    refine ⟨rfl, .last fun y hy hkey => ?_⟩
    obtain ⟨r, hr⟩ := (m.mem_keys_iff y.key).1 (h.known y hy)
    rw [hkey, hknown] at hr
    cases hr
  | some r =>
    obtain ⟨hkey, hfirst⟩ := h.highest x.key r hknown
    rw [higherOf]
    split
    · rename_i hhigher
      refine ⟨rfl, .last fun y hy hy' => ?_⟩
      exact (hfirst.le hy (hy'.trans hkey.symm)).trans_lt hhigher
    · rename_i hhigher
      exact ⟨hkey, hfirst.concat fun _ => not_lt.1 hhigher⟩

/-- What one further record does. -/
theorem keepHighest (h : Gathers all m) (x : FunctionRecord) :
    Gathers (all ++ [x]) (keepHighest m x) := by
  refine ⟨fun y hy => ?_, fun k r hr => ?_, ?_⟩
  · rw [keys_keepHighest]
    rcases List.mem_append.1 hy with hy | hy
    · split
      · exact h.known y hy
      · exact List.mem_append_left _ (h.known y hy)
    · obtain rfl := List.mem_singleton.1 hy
      split
      · assumption
      · simp
  · rw [get?_keepHighest] at hr
    split at hr
    · rename_i hk
      obtain rfl := Option.some.inj hr
      rw [hk]
      exact h.isFirstHighest_higherOf x
    · rename_i hk
      obtain ⟨hkey, hfirst⟩ := h.highest k r hr
      exact ⟨hkey, hfirst.concat fun hx => absurd (hkey.symm.trans hx.symm) hk⟩
  · have hkept := h.in_order.imp fun {k l} hkl => hkl.concat x
    rw [keys_keepHighest]
    split
    · exact hkept
    · rename_i hnew
      refine List.pairwise_append.2 ⟨hkept, List.pairwise_singleton _ _, fun k hk l hl => ?_⟩
      obtain rfl := List.mem_singleton.1 hl
      refine .last (h.exists_key hk) (fun y hy hkey => hnew ?_) x
      rw [← hkey]
      exact h.known y hy

theorem foldl (all : List FunctionRecord) : Gathers all (all.foldl BranchTally.keepHighest .empty) := by
  induction all using List.reverseRecOn with
  | nil => exact empty
  | append_singleton all x ih =>
    rw [List.foldl_append, List.foldl_cons, List.foldl_nil]
    exact ih.keepHighest x

theorem map_key_values (h : Gathers all m) : m.values.map FunctionRecord.key = m.keys := by
  rw [OrderedMap.values, OrderedMap.keys, List.map_map]
  refine List.map_congr_left fun entry hentry => ?_
  exact (h.highest entry.1 entry.2 ((m.get?_eq_some_iff _ _).2 hentry)).1

end Gathers

/-! ## The records of results -/

/-- Each key has one record, in the order in which the keys were met. -/
theorem summarizes_byScore (all : List FunctionRecord) :
    Summarizes FunctionRecord.key (byScore (distinctRecords all)) all := by
  have hgathers := Gathers.foldl all
  have hperm : (byScore (distinctRecords all)).Perm (distinctRecords all) := List.mergeSort_perm _ _
  have hkeys : (distinctRecords all).map FunctionRecord.key =
      (all.foldl keepHighest .empty).keys := hgathers.map_key_values
  refine ⟨?_, fun x hx => ?_, fun r hr => ?_, ?_⟩
  · rw [(hperm.map _).nodup_iff, hkeys]
    exact OrderedMap.nodup_keys _
  · have hmem := hgathers.known x hx
    rw [← hkeys] at hmem
    obtain ⟨r, hr, hkey⟩ := List.mem_map.1 hmem
    exact ⟨r, hperm.mem_iff.2 hr, hkey⟩
  · obtain ⟨entry, hentry, rfl⟩ := List.mem_map.1 (hperm.mem_iff.1 hr)
    exact (hgathers.highest entry.1 entry.2 ((OrderedMap.get?_eq_some_iff _ _ _).2 hentry)).2
  · have hmet : (distinctRecords all).Pairwise fun a b =>
        IsMetBefore FunctionRecord.key all a.key b.key := by
      rw [← List.pairwise_map, hkeys]
      exact hgathers.in_order
    exact pairwise_mergeSort_largestFirst FunctionRecord.complexity hmet

/-- Keys may be exchanged for others that tell the same records apart. -/
theorem Summarizes.of_key_eq_iff {κ κ' : Type} {key : FunctionRecord → κ} {key' : FunctionRecord → κ'}
    {records all : List FunctionRecord} (h : Summarizes key records all)
    (hkey : ∀ a ∈ all, ∀ b ∈ all, key a = key b ↔ key' a = key' b) : Summarizes key' records all := by
  have hmem (r : FunctionRecord) (hr : r ∈ records) : r ∈ all := (h.highest r hr).mem
  have hdistinct := List.pairwise_map.1 h.distinct
  refine ⟨List.pairwise_map.2 ?_, fun x hx => ?_, fun r hr => ?_, ?_⟩
  · exact hdistinct.imp_of_mem fun ha hb hne =>
      mt (hkey _ (hmem _ ha) _ (hmem _ hb)).2 hne
  · obtain ⟨r, hr, hsame⟩ := h.complete x hx
    exact ⟨r, hr, (hkey r (hmem r hr) x hx).1 hsame⟩
  · obtain ⟨before, after, hcut, hbefore, hafter⟩ := h.highest r hr
    refine ⟨before, after, hcut, fun x hx hsame => ?_, fun x hx hsame => ?_⟩
    · exact hbefore x hx ((hkey x (by simp [hcut, hx]) r (hmem r hr)).2 hsame)
    · exact hafter x hx ((hkey x (by simp [hcut, hx]) r (hmem r hr)).2 hsame)
  · refine h.ordered.imp_of_mem fun {a b} ha hb hab => hab.imp_right (And.imp_right ?_)
    rintro ⟨front, back, hcut, ⟨x, hx, hsame⟩, hother⟩
    refine ⟨front, back, hcut, ⟨x, hx, ?_⟩, fun y hy => ?_⟩
    · exact (hkey x (by simp [hcut, hx]) a (hmem a ha)).1 hsame
    · exact mt (hkey y (by simp [hcut, hy]) b (hmem b hb)).2 (hother y hy)

/-- Well-formed results give one record for each file, name and line that their messages score: what the
first message with the highest score says. Higher scores come first, equal ones in the order in which their
functions were first scored. -/
theorem Project.functionRecords_summarize (p : Project) {results : List Json}
    (h : ∀ result ∈ results, ListsMessages HasTextAndLine result) :
    ∃ records all, p.functionRecords (.arr results) = .ok records ∧
      List.Forall₂ p.Scores (scoringMessages p.root results) all ∧
      Summarizes FunctionRecord.triple records all := by
  obtain ⟨all, hall, hscores⟩ := Project.exists_allRecords (p := p) h
  refine ⟨byScore (distinctRecords all), all, ?_, hscores, ?_⟩
  · simp only [Project.functionRecords, Json.parts?, hall, Except.map]
  · have hname (r : FunctionRecord) (hr : r ∈ all) : ':' ∉ r.name.toList := by
      obtain ⟨x, -, hx⟩ := exists_of_mem_right hscores hr
      exact hx.plain_name
    exact (summarizes_byScore all).of_key_eq_iff fun a ha b hb =>
      FunctionRecord.key_eq_iff (hname a ha) (hname b hb)

/-- A function in a file with a colon in its name is scored three times, another one in a file that cannot be
read once; a message of another rule scores none. -/
theorem Project.functionRecords_summarize_scored_again :
    let read : FileReader := fun path =>
      if path = "/p/a:b.js".toList then .ok "function a() {}".toUTF8 else .error .missing
    let p : Project := ⟨"/p".toList, read⟩
    let message (rule text : String) (line column : Int) : Json := .obj
      [("ruleId", .str rule), ("severity", .int 1), ("line", .int line), ("column", .int column),
        ("message", .str text)]
    let results : List Json :=
      [.obj [("filePath", .str "/p/a:b.js"), ("messages", .arr
          [message "complexity" "has a complexity of 5." 1 1, message "max-lines" "complexity of 90" 1 1,
            message "complexity" "has a Complexity of 9." 1 2,
            message "complexity" "has a complexity of 9 again." 1 3])],
        .obj [("filePath", .str "/p/c.js"), ("messages", .arr
          [message "complexity" "complexity of 9 or of 12" 4 1])]]
    (∀ result ∈ results, ListsMessages HasTextAndLine result) ∧
      ∃ records all, p.functionRecords (.arr results) = .ok records ∧
        List.Forall₂ p.Scores (scoringMessages p.root results) all ∧
        Summarizes FunctionRecord.triple records all ∧
        records.map (fun r => (r.triple, r.complexity, r.message)) =
          [(("a:b.js", "a", 1), 9, "has a Complexity of 9."),
            (("c.js", "unknown", 4), 9, "complexity of 9 or of 12")] := by
  intro read p message results
  have hmessage (rule text : String) (line column : Int) :
      HasTextAndLine (message rule text line column) := ⟨⟨_, rfl⟩, ⟨text, rfl⟩, line, rfl⟩
  have hresult (path : String) (messages : List Json) (hmessages : ∀ m ∈ messages, HasTextAndLine m) :
      ListsMessages HasTextAndLine (.obj [("filePath", .str path), ("messages", .arr messages)]) := by
    refine ⟨⟨_, rfl⟩, fun value hvalue => ⟨path, (Option.some.inj hvalue).symm⟩, fun value hvalue => ?_⟩
    exact .inr ⟨messages, (Option.some.inj hvalue).symm, hmessages⟩
  have hresults : ∀ result ∈ results, ListsMessages HasTextAndLine result := by
    simp only [results, List.forall_mem_cons]
    refine ⟨hresult _ _ ?_, hresult _ _ ?_, nofun⟩
    · simp only [List.forall_mem_cons]
      exact ⟨hmessage _ _ _ _, hmessage _ _ _ _, hmessage _ _ _ _, hmessage _ _ _ _, nofun⟩
    · simp only [List.forall_mem_cons]
      exact ⟨hmessage _ _ _ _, nofun⟩
  obtain ⟨records, all, hrecords, hscores, hsummary⟩ := p.functionRecords_summarize hresults
  -- The two scores are equal, so sorting leaves the records as they were found.
  have hshown : (p.allRecords results).map
      (fun all => (distinctRecords all).map fun r => (r.triple, r.complexity, r.message)) =
        .ok [(("a:b.js", "a", 1), 9, "has a Complexity of 9."),
          (("c.js", "unknown", 4), 9, "complexity of 9 or of 12")] := by
    decide +kernel
  obtain ⟨found, hfound, hshown⟩ := map_eq_ok_iff.1 hshown
  have hties : (distinctRecords found).Pairwise fun a b => decide (b.complexity ≤ a.complexity) = true := by
    have hscores := congrArg (List.map fun x => x.2.1) hshown
    rw [List.map_map] at hscores
    have hpairs : ((distinctRecords found).map FunctionRecord.complexity).Pairwise (· ≥ ·) := by
      refine Eq.mpr (congrArg (List.Pairwise _) hscores) ?_
      decide
    exact (List.pairwise_map.1 hpairs).imp decide_eq_true
  have hsame : records = distinctRecords found := by
    simp only [Project.functionRecords, Json.parts?, hfound, Except.map, byScore,
      List.mergeSort_of_pairwise hties, Except.ok.injEq] at hrecords
    exact hrecords.symm
  exact ⟨hresults, records, all, hrecords, hscores, hsummary, hsame ▸ hshown⟩

end BranchTally
