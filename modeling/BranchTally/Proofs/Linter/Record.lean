-- SUMMARY: The functions of some files are collected, sorted and grouped in the same way with and without those of the others.
import BranchTally.Linter.Record
import BranchTally.Proofs.FunctionName
import BranchTally.Proofs.Linter.Message
import BranchTally.Proofs.Numeral
import BranchTally.Proofs.OrderedMap
import BranchTally.Proofs.Sorting

/-!
# Functions of some files

The key of a function is one text, with colons between file, name and line. The name of a file may have
colons of its own, but the name of a function has none, so that a key still tells its file, and functions
with one key are of one file. Neither the highest score of a key, nor the place of a function among those of
its file, nor the order of the files depends on what is reported of another file: to leave files out of
the results is to leave their groups out of what comes of them.
-/

namespace BranchTally

/-! ## Well-formed results -/

/-- A message has a text and a line. What else it says is open. -/
structure IsLinterMessage (message : Json) : Prop where
  is_object : ∃ fields, message = .obj fields
  text : ∃ text, message.field? "message" = some (.str text)
  line : ∃ line, message.field? "line" = some (.int line) ∧ 1 ≤ line

/-- A result names a file and lists messages; either may be missing. -/
structure IsLinterResult (result : Json) : Prop where
  is_object : ∃ fields, result = .obj fields
  path : ∀ value, result.field? "filePath" = some value → ∃ path, value = .str path
  messages : ∀ value, result.field? "messages" = some value →
    value = .null ∨ ∃ messages, value = .arr messages ∧ ∀ m ∈ messages, IsLinterMessage m

/-- The file of a linter result, as seen from the project. -/
def resultFile (root : List Char) (result : Json) : String :=
  match (result.field? "filePath").getD (.str "") with
  | .str path => String.ofList (Path.relativeTo root path.toList)
  | _ => ""

/-- A result names a file and lists messages of a kind; either may be missing. -/
structure ListsMessages (good : Json → Prop) (result : Json) : Prop where
  is_object : ∃ fields, result = .obj fields
  path : ∀ value, result.field? "filePath" = some value → ∃ path, value = .str path
  messages : ∀ value, result.field? "messages" = some value →
    value = .null ∨ ∃ messages, value = .arr messages ∧ ∀ m ∈ messages, good m

/-- The messages of a linter result. -/
def resultMessages (result : Json) : List Json :=
  match result.field? "messages" with
  | some (.arr messages) => messages
  | _ => []

theorem IsLinterMessage.hasTextAndLine {message : Json} (h : IsLinterMessage message) :
    HasTextAndLine message := by
  obtain ⟨line, hline, -⟩ := h.line
  exact ⟨h.is_object, h.text, line, hline⟩

theorem IsLinterResult.listsMessages {result : Json} (h : IsLinterResult result) :
    ListsMessages IsLinterMessage result :=
  ⟨h.is_object, h.path, h.messages⟩

namespace ListsMessages

variable {good better : Json → Prop} {result : Json}

theorem imp (h : ListsMessages better result) (hgood : ∀ m, better m → good m) :
    ListsMessages good result := by
  refine ⟨h.is_object, h.path, fun value hvalue => ?_⟩
  rcases h.messages value hvalue with rfl | ⟨messages, rfl, hmessages⟩
  · exact .inl rfl
  · exact .inr ⟨messages, rfl, fun m hm => hgood m (hmessages m hm)⟩

theorem forall_mem (h : ListsMessages good result) : ∀ m ∈ resultMessages result, good m := by
  intro m hm
  rw [resultMessages] at hm
  split at hm
  · rename_i messages hfield
    rcases h.messages _ hfield with hnull | ⟨_, harr, hmessages⟩
    · cases hnull
    · cases harr
      exact hmessages m hm
  · cases hm

theorem exists_path (h : ListsMessages good result) :
    ∃ path, (result.field? "filePath").getD (.str "") = .str path := by
  cases hfield : result.field? "filePath" with
  | none => exact ⟨"", rfl⟩
  | some value => exact h.path value hfield

theorem messages_eq (h : ListsMessages good result) :
    (let value := (result.field? "messages").getD .null
      if value.isVoid then some [] else value.parts?) = some (resultMessages result) := by
  rw [resultMessages]
  cases hfield : result.field? "messages" with
  | none => rfl
  | some value =>
    rcases h.messages value hfield with rfl | ⟨messages, rfl, -⟩
    · rfl
    · cases messages <;> rfl

/-- A result gives its file, and what those of its messages say that score a function. -/
theorem exists_fileFindings (h : ListsMessages HasTextAndLine result) (root : List Char) :
    ∃ found, fileFindings root result = .ok (resultFile root result, found) ∧
      List.Forall₂ (fun message f => Finding.IsSaidBy f message)
        ((resultMessages result).filter fun m => ScoresFunction m) found := by
  obtain ⟨path, hpath⟩ := h.exists_path
  obtain ⟨found, hfound, hsaid⟩ := exists_findings h.forall_mem
  have hmessages := h.messages_eq
  obtain ⟨fields, rfl⟩ := h.is_object
  dsimp only at hmessages
  refine ⟨found, ?_, hsaid⟩
  simp [fileFindings, resultFile, hpath, hmessages, hfound, bind, Except.bind, pure, Except.pure]

end ListsMessages

theorem bind_eq_ok_iff {ε α β : Type} {x : Except ε α} {f : α → Except ε β} {b : β} :
    x >>= f = .ok b ↔ ∃ a, x = .ok a ∧ f a = .ok b := by
  cases x with
  | error e => simp [bind, Except.bind]
  | ok a => simp [bind, Except.bind]

theorem map_eq_ok_iff {ε α β : Type} {x : Except ε α} {f : α → β} {b : β} :
    x.map f = .ok b ↔ ∃ a, x = .ok a ∧ f a = b := by
  cases x with
  | error e => simp [Except.map]
  | ok a => simp [Except.map]

/-- Whatever a result says, its functions are those of its file. -/
theorem file_of_fileFindings {root : List Char} {result : Json} {x : String × List Finding}
    (h : fileFindings root result = .ok x) : x.1 = resultFile root result := by
  cases result with
  | obj fields =>
    simp only [fileFindings] at h
    split at h
    · rename_i path hpath
      split at h
      · obtain ⟨found, -, hx⟩ := bind_eq_ok_iff.1 h
        cases hx
        rw [resultFile, hpath]
      · cases h
    · cases h
  | _ => cases h

/-! ## Keys -/

/-- A function as results report it: on a line, under a name without a colon. -/
structure FunctionRecord.IsReported (r : FunctionRecord) : Prop where
  on_line : 1 ≤ r.line
  plain_name : ':' ∉ r.name.toList

/-- What stands in front of the last colon. -/
def beforeColon (s : List Char) : List Char := (s.rdropWhile (· ≠ ':')).dropLast

theorem beforeColon_append (s : List Char) {t : List Char} (h : ':' ∉ t) :
    beforeColon (s ++ ':' :: t) = s := by
  have hback : ∀ c ∈ t.reverse, (decide (c ≠ ':')) = true := by
    intro c hc
    rw [decide_eq_true_eq]
    rintro rfl
    exact h (List.mem_reverse.1 hc)
  rw [beforeColon, List.rdropWhile, List.reverse_append, List.reverse_cons, List.append_assoc,
    List.dropWhile_append_of_pos hback]
  simp

/-- The file that a key begins with. -/
def keyFile (key : String) : String := String.ofList (beforeColon (beforeColon key.toList))

namespace FunctionRecord

variable {r r' : FunctionRecord}

theorem toList_key (r : FunctionRecord) :
    r.key.toList = (r.file.toList ++ ':' :: r.name.toList) ++ ':' :: (toString r.line).toList := by
  simp [key]

theorem keyFile_key (h : ':' ∉ r.name.toList) : keyFile r.key = r.file := by
  rw [keyFile, toList_key, beforeColon_append _ (colon_not_mem_toString _), beforeColon_append _ h,
    String.ofList_toList]

/-- What tells functions apart. -/
def triple (r : FunctionRecord) : String × String × Int := (r.file, r.name, r.line)

/-- Whatever colons there are in the names of files, keys tell apart functions of different files, names
or lines. -/
theorem key_eq_iff (h : ':' ∉ r.name.toList) (h' : ':' ∉ r'.name.toList) :
    r.key = r'.key ↔ r.triple = r'.triple := by
  constructor
  · intro hkey
    have hfile : r.file = r'.file := by rw [← keyFile_key h, hkey, keyFile_key h']
    have hrest : r.name.toList ++ ':' :: (toString r.line).toList =
        r'.name.toList ++ ':' :: (toString r'.line).toList := by
      have hlist := congrArg String.toList hkey
      rw [toList_key, toList_key, hfile, List.append_assoc, List.append_assoc] at hlist
      exact List.cons.inj (List.append_cancel_left hlist) |>.2
    have hname : r.name.toList = r'.name.toList := by
      rw [← beforeColon_append r.name.toList (colon_not_mem_toString r.line), hrest,
        beforeColon_append _ (colon_not_mem_toString _)]
    rw [hname] at hrest
    have hline : toString r.line = toString r'.line :=
      String.toList_inj.1 (List.cons.inj (List.append_cancel_left hrest)).2
    have hread := Int.toInt?_repr r.line
    rw [← Int.toString_eq_repr, hline, Int.toString_eq_repr, Int.toInt?_repr] at hread
    rw [triple, triple, hfile, String.toList_inj.1 hname, Option.some.inj hread]
  · intro htriple
    obtain ⟨hfile, hname, hline⟩ : r.file = r'.file ∧ r.name = r'.name ∧ r.line = r'.line := by
      simpa [triple] using htriple
    rw [key, key, hfile, hname, hline]

end FunctionRecord

/-! ## Collecting -/

/-- The messages of results that score a function, each with its file. -/
def scoringMessages (root : List Char) (results : List Json) : List (String × Json) :=
  results.flatMap fun result =>
    ((resultMessages result).filter fun m => ScoresFunction m).map fun m => (resultFile root result, m)

section

variable (p : Project)

/-- The function is the one that a message in a file scores. -/
def Project.Scores (x : String × Json) (r : FunctionRecord) : Prop :=
  ∃ f : Finding, f.IsSaidBy x.2 ∧
    r = { file := x.1, line := f.line, complexity := f.score, name := p.functionName x.1 f.line f.nodeType
          nodeType := f.nodeType, column := f.column, message := f.message }

variable {p}

theorem Project.Scores.plain_name {x : String × Json} {r : FunctionRecord} (h : p.Scores x r) :
    ':' ∉ r.name.toList := by
  obtain ⟨f, -, rfl⟩ := h
  exact p.colon_not_mem_functionName _ _ _

theorem Project.Scores.on_line {x : String × Json} {r : FunctionRecord} (h : p.Scores x r)
    (hmessage : IsLinterMessage x.2) : 1 ≤ r.line := by
  obtain ⟨f, hf, rfl⟩ := h
  obtain ⟨line, hline, hpos⟩ := hmessage.line
  have hsame : Json.int f.line = .int line := Option.some.inj (hf.line.symm.trans hline)
  exact Json.int.inj hsame ▸ hpos

theorem Project.forall₂_scores_records {file : String} {messages : List Json} {found : List Finding}
    (h : List.Forall₂ (fun message f => Finding.IsSaidBy f message) messages found) :
    List.Forall₂ p.Scores (messages.map fun m => (file, m)) (p.records file found) := by
  rw [Project.records, List.forall₂_map_left_iff, List.forall₂_map_right_iff]
  exact h.imp fun message f hf => ⟨f, hf, rfl⟩

theorem Project.allRecords_cons_eq_ok_iff {result : Json} {results : List Json}
    {records : List FunctionRecord} :
    p.allRecords (result :: results) = .ok records ↔
      ∃ found more, fileFindings p.root result = .ok (resultFile p.root result, found) ∧
        p.allRecords results = .ok more ∧
        records = p.records (resultFile p.root result) found ++ more := by
  rw [Project.allRecords, bind_eq_ok_iff]
  constructor
  · rintro ⟨⟨file, found⟩, hfound, hrest⟩
    obtain ⟨more, hmore, hrecords⟩ := bind_eq_ok_iff.1 hrest
    obtain rfl : file = resultFile p.root result := file_of_fileFindings hfound
    cases hrecords
    exact ⟨found, more, hfound, hmore, rfl⟩
  · rintro ⟨found, more, hfound, hmore, rfl⟩
    exact ⟨_, hfound, bind_eq_ok_iff.2 ⟨more, hmore, rfl⟩⟩

/-- Well-formed results give a function for each message that scores one, in order. -/
theorem Project.exists_allRecords {results : List Json}
    (h : ∀ result ∈ results, ListsMessages HasTextAndLine result) :
    ∃ records, p.allRecords results = .ok records ∧
      List.Forall₂ p.Scores (scoringMessages p.root results) records := by
  induction results with
  | nil => exact ⟨[], rfl, .nil⟩
  | cons result results ih =>
    obtain ⟨hresult, hresults⟩ := List.forall_mem_cons.1 h
    obtain ⟨found, hfound, hsaid⟩ := hresult.exists_fileFindings p.root
    obtain ⟨more, hmore, hscores⟩ := ih hresults
    refine ⟨p.records (resultFile p.root result) found ++ more, ?_, ?_⟩
    · exact Project.allRecords_cons_eq_ok_iff.2 ⟨found, more, hfound, hmore, rfl⟩
    · rw [scoringMessages, List.flatMap_cons]
      exact List.rel_append (Project.forall₂_scores_records hsaid) hscores

/-- With files left out, results give the functions of the others. -/
theorem Project.allRecords_filter (keep : String → Bool) {results : List Json}
    {records : List FunctionRecord} (h : p.allRecords results = .ok records) :
    p.allRecords (results.filter fun result => keep (resultFile p.root result)) =
      .ok (records.filter fun r => keep r.file) := by
  induction results generalizing records with
  | nil =>
    cases h
    rfl
  | cons result results ih =>
    obtain ⟨found, more, hfound, hmore, rfl⟩ := Project.allRecords_cons_eq_ok_iff.1 h
    have hfile : ∀ r ∈ p.records (resultFile p.root result) found,
        keep r.file = keep (resultFile p.root result) := by
      intro r hr
      obtain ⟨f, -, rfl⟩ := List.mem_map.1 hr
      rfl
    rw [List.filter_append, List.filter_congr hfile]
    cases hkeep : keep (resultFile p.root result) with
    | true =>
      rw [List.filter_true, List.filter_cons_of_pos (by simp [hkeep])]
      exact Project.allRecords_cons_eq_ok_iff.2 ⟨found, _, hfound, ih hmore, rfl⟩
    | false =>
      rw [List.filter_false, List.nil_append, List.filter_cons_of_neg (by simp [hkeep])]
      exact ih hmore

end

/-! ## One function for each key -/

theorem mem_of_mem_keepHighest {m : OrderedMap String FunctionRecord} {r : FunctionRecord}
    {entry : String × FunctionRecord} (h : entry ∈ (keepHighest m r).entries) :
    entry = (r.key, r) ∨ entry ∈ m.entries := by
  rw [keepHighest] at h
  split at h
  · exact mem_of_mem_putEntry h
  · split at h
    · exact mem_of_mem_putEntry h
    · exact .inr h

/-- The map that is built holds functions that were put into it, each under its key. -/
theorem mem_of_mem_foldl_keepHighest {records : List FunctionRecord}
    {m : OrderedMap String FunctionRecord} {entry : String × FunctionRecord}
    (h : entry ∈ (records.foldl keepHighest m).entries) :
    (∃ r ∈ records, entry = (r.key, r)) ∨ entry ∈ m.entries := by
  induction records generalizing m with
  | nil => exact .inr h
  | cons r records ih =>
    rcases ih h with ⟨found, hfound, rfl⟩ | h
    · exact .inl ⟨found, List.mem_cons_of_mem r hfound, rfl⟩
    · exact (mem_of_mem_keepHighest h).imp_left fun hentry => ⟨r, List.mem_cons_self, hentry⟩

section

variable {q : String → Bool} {r : FunctionRecord}

theorem filterKeys_keepHighest (h : q r.key = true) (m : OrderedMap String FunctionRecord) :
    (keepHighest m r).filterKeys q = keepHighest (m.filterKeys q) r := by
  rw [keepHighest, keepHighest, OrderedMap.get?_filterKeys h]
  cases m.get? r.key with
  | none => exact OrderedMap.filterKeys_insert h r m
  | some known =>
    dsimp only
    split
    · exact OrderedMap.filterKeys_insert h r m
    · rfl

theorem filterKeys_keepHighest_of_not (h : q r.key = false) (m : OrderedMap String FunctionRecord) :
    (keepHighest m r).filterKeys q = m.filterKeys q := by
  rw [keepHighest]
  split
  · exact OrderedMap.filterKeys_insert_of_not h r m
  · split
    · exact OrderedMap.filterKeys_insert_of_not h r m
    · rfl

end

section

variable {records : List FunctionRecord} (keep : String → Bool)

theorem mem_of_mem_distinctRecords {r : FunctionRecord} (h : r ∈ distinctRecords records) :
    r ∈ records := by
  obtain ⟨entry, hentry, rfl⟩ := List.mem_map.1 h
  rcases mem_of_mem_foldl_keepHighest hentry with ⟨found, hfound, rfl⟩ | hentry
  · exact hfound
  · exact absurd hentry List.not_mem_nil

/-- Which functions are kept of a file, and in which order, depends on none of another file. -/
theorem distinctRecords_filter (h : ∀ r ∈ records, r.IsReported) :
    distinctRecords (records.filter fun r => keep r.file) =
      (distinctRecords records).filter fun r => keep r.file := by
  have hkeep : ∀ r ∈ records, keep r.file = keep (keyFile r.key) := fun r hr => by
    rw [FunctionRecord.keyFile_key (h r hr).plain_name]
  have hentries : ∀ entry ∈ (records.foldl keepHighest .empty).entries,
      keep entry.2.file = keep (keyFile entry.1) := by
    intro entry hentry
    rcases mem_of_mem_foldl_keepHighest hentry with ⟨r, hr, rfl⟩ | hentry
    · exact hkeep r hr
    · exact absurd hentry List.not_mem_nil
  rw [distinctRecords, distinctRecords, List.filter_congr hkeep,
    ← OrderedMap.values_filterKeys (fun key => keep (keyFile key)) hentries,
    OrderedMap.filterKeys_foldl (fun m r hr => filterKeys_keepHighest hr m)
      (fun m r hr => filterKeys_keepHighest_of_not hr m),
    OrderedMap.filterKeys_empty]

/-! ## Order and groups -/

theorem byScore_filter (q : FunctionRecord → Bool) (records : List FunctionRecord) :
    byScore (records.filter q) = (byScore records).filter q :=
  (filter_mergeSort (largestFirst_trans FunctionRecord.complexity)
    (largestFirst_total FunctionRecord.complexity) q records).symm

/-- Puts a function behind those of its file. -/
def putInGroup (m : OrderedMap String (List FunctionRecord)) (r : FunctionRecord) :
    OrderedMap String (List FunctionRecord) :=
  m.insert r.file ((m.get? r.file).getD [] ++ [r])

theorem groupByFile_eq (records : List FunctionRecord) :
    groupByFile records = records.foldl putInGroup .empty := rfl

/-- The groups of some files are the same with and without the functions of the others. -/
theorem groupByFile_filter (records : List FunctionRecord) :
    groupByFile (records.filter fun r => keep r.file) = (groupByFile records).filterKeys keep := by
  rw [groupByFile_eq, groupByFile_eq, OrderedMap.filterKeys_foldl, OrderedMap.filterKeys_empty]
  · intro m r hr
    rw [putInGroup, OrderedMap.filterKeys_insert hr, putInGroup, OrderedMap.get?_filterKeys hr]
  · exact fun m r hr => OrderedMap.filterKeys_insert_of_not hr _ m

theorem sum_length_putInGroup (m : OrderedMap String (List FunctionRecord)) (r : FunctionRecord) :
    ((putInGroup m r).entries.map fun group => group.2.length).sum =
      (m.entries.map fun group => group.2.length).sum + 1 := by
  have hinsert := m.sum_insert List.length r.file ((m.get? r.file).getD [] ++ [r])
  rw [putInGroup]
  cases hget : m.get? r.file with
  | none =>
    rw [hget] at hinsert
    exact hinsert
  | some known =>
    simp only [hget, Option.map_some, Option.getD_some, List.length_append, List.length_singleton]
      at hinsert ⊢
    omega

/-- Each function is in one group. -/
theorem length_groupByFile (records : List FunctionRecord) :
    ((groupByFile records).entries.map fun group => group.2.length).sum = records.length := by
  have hlength (m : OrderedMap String (List FunctionRecord)) :
      ((records.foldl putInGroup m).entries.map fun group => group.2.length).sum =
        (m.entries.map fun group => group.2.length).sum + records.length := by
    induction records generalizing m with
    | nil => rfl
    | cons r records ih =>
      rw [List.foldl_cons, ih, sum_length_putInGroup, List.length_cons]
      omega
  exact (hlength .empty).trans (Nat.zero_add _)

theorem subset_of_mem_putInGroup {m : OrderedMap String (List FunctionRecord)} {r : FunctionRecord}
    {all : List FunctionRecord} (hr : r ∈ all) (hm : ∀ group ∈ m.entries, group.2 ⊆ all) :
    ∀ group ∈ (putInGroup m r).entries, group.2 ⊆ all := by
  intro group hgroup
  rcases mem_of_mem_putEntry hgroup with rfl | hgroup
  · refine List.append_subset.2 ⟨?_, List.cons_subset.2 ⟨hr, List.nil_subset all⟩⟩
    cases hget : m.get? r.file with
    | none => exact List.nil_subset all
    | some known => exact hm _ ((m.get?_eq_some_iff r.file known).1 hget)
  · exact hm group hgroup

theorem mem_of_mem_groupByFile {group : String × List FunctionRecord}
    (hgroup : group ∈ (groupByFile records).entries) {r : FunctionRecord} (hr : r ∈ group.2) :
    r ∈ records := by
  have hsubset {rest : List FunctionRecord} {m : OrderedMap String (List FunctionRecord)}
      (hrest : rest ⊆ records) (hm : ∀ group ∈ m.entries, group.2 ⊆ records) :
      ∀ group ∈ (rest.foldl putInGroup m).entries, group.2 ⊆ records := by
    induction rest generalizing m with
    | nil => exact hm
    | cons r rest ih =>
      obtain ⟨hr, hrest⟩ := List.cons_subset.1 hrest
      exact ih hrest (subset_of_mem_putInGroup hr hm)
  exact hsubset (List.Subset.refl records) (by simp [OrderedMap.empty]) group hgroup hr

end

/-! ## Scored functions -/

theorem exists_of_mem_right {α β : Type} {R : α → β → Prop} {xs : List α} {ys : List β}
    (h : List.Forall₂ R xs ys) {y : β} (hy : y ∈ ys) : ∃ x ∈ xs, R x y := by
  induction h with
  | nil => cases hy
  | cons hxy _ ih =>
    rcases List.mem_cons.1 hy with rfl | hy
    · exact ⟨_, List.mem_cons_self, hxy⟩
    · obtain ⟨x, hx, hR⟩ := ih hy
      exact ⟨x, List.mem_cons_of_mem _ hx, hR⟩

theorem isLinterMessage_of_mem_scoringMessages {root : List Char} {results : List Json}
    (h : ∀ result ∈ results, IsLinterResult result) {x : String × Json}
    (hx : x ∈ scoringMessages root results) : IsLinterMessage x.2 := by
  obtain ⟨result, hresult, hx⟩ := List.mem_flatMap.1 hx
  obtain ⟨message, hmessage, rfl⟩ := List.mem_map.1 hx
  exact (h result hresult).listsMessages.forall_mem _ (List.mem_filter.1 hmessage).1

/-- The functions that results score are reported ones, and without the results for some files they are
those of the others, in the same order. -/
theorem Project.exists_functionRecords (p : Project) {results : List Json}
    (h : ∀ result ∈ results, IsLinterResult result) (keep : String → Bool) :
    ∃ records, p.functionRecords (.arr results) = .ok records ∧ (∀ r ∈ records, r.IsReported) ∧
      p.functionRecords (.arr (results.filter fun result => keep (resultFile p.root result))) =
        .ok (records.filter fun r => keep r.file) := by
  obtain ⟨records, hrecords, hscores⟩ := Project.exists_allRecords (p := p) fun result hresult =>
    (h result hresult).listsMessages.imp fun m hm => hm.hasTextAndLine
  have hfiltered := Project.allRecords_filter keep hrecords
  have hreported : ∀ r ∈ records, r.IsReported := by
    intro r hr
    obtain ⟨x, hx, hscore⟩ := exists_of_mem_right hscores hr
    exact ⟨hscore.on_line (isLinterMessage_of_mem_scoringMessages h hx), hscore.plain_name⟩
  refine ⟨byScore (distinctRecords records), ?_, fun r hr => ?_, ?_⟩
  · rw [Project.functionRecords, Json.parts?]
    dsimp only
    rw [hrecords]
    rfl
  · exact hreported r (mem_of_mem_distinctRecords ((List.mergeSort_perm _ _).subset hr))
  · rw [← byScore_filter, ← distinctRecords_filter keep hreported, Project.functionRecords, Json.parts?]
    dsimp only
    rw [hfiltered]
    rfl

end BranchTally
