-- SUMMARY: A boundary map is read back from its document, and the ways to write keys and ranges all give one boundary map.
import BranchTally.Boundary.Document
import BranchTally.Proofs.Numeral
import BranchTally.Proofs.OrderedMap

/-!
# Documents of boundary maps

A document lists its entries in order, and reading sets one key after the other. Where the keys are distinct,
each comes to stand behind the ones before it; a key that comes again keeps its first place and takes its last
range. A range that ends before it starts is refused. Of a document only the last range of each key is read,
while texts `key:start:end` are read one by one.
-/

namespace BranchTally

/-! ## Entries read one by one -/

/-- Where each key and each range is read back, so are all entries. -/
theorem readEntries_of_read {spell : Int × Boundary → BoundaryKey × BoundaryValue}
    (hkey : ∀ entry, (spell entry).1.read = .ok entry.1)
    (hrange : ∀ entry, (spell entry).2.read = .ok entry.2) (m : BoundaryMap)
    (entries : List (Int × Boundary)) :
    readEntries m (entries.map spell) =
      .ok (entries.foldl (fun m entry => m.insert entry.1 entry.2) m) := by
  induction entries generalizing m with
  | nil => rfl
  | cons entry entries ih =>
    rw [List.map_cons, readEntries, hrange, hkey]
    exact ih (m.insert entry.1 entry.2)

theorem BoundaryMap.entries_document (m : BoundaryMap) :
    m.document.entries = m.entries.map fun entry => (.number entry.1, .ready entry.2) := by
  apply OrderedMap.entries_ofList
  have hkeys : (m.entries.map (·.1)).map BoundaryKey.number =
      (m.entries.map fun entry =>
        ((.number entry.1, .ready entry.2) : BoundaryKey × BoundaryValue)).map (·.1) := by
    rw [List.map_map, List.map_map]
    rfl
  rw [← hkeys]
  exact m.nodup_keys.map fun _ _ h => BoundaryKey.number.inj h

theorem BoundaryMap.ofList_entries (m : BoundaryMap) : OrderedMap.ofList m.entries = m :=
  OrderedMap.ext_entries (OrderedMap.entries_ofList m.nodup_keys)

/-- A boundary map is read back from its document. -/
theorem BoundaryMap.read_document (m : BoundaryMap) : BoundaryMap.read m.document = .ok m := by
  rw [BoundaryMap.read, m.entries_document, readEntries_of_read (fun _ => rfl) (fun _ => rfl)]
  exact congrArg Except.ok m.ofList_entries

/-! ## Ranges as they are given -/

/-- A range of lines as it is given, which may end before it starts. -/
structure GivenRange where
  start : Int
  stop : Int
  deriving DecidableEq

/-- It ends before it starts. -/
def GivenRange.IsReversed (r : GivenRange) : Prop := r.stop < r.start

instance (r : GivenRange) : Decidable r.IsReversed := inferInstanceAs (Decidable (_ < _))

/-- The range of a boundary. -/
def Boundary.given (b : Boundary) : GivenRange := ⟨b.start, b.stop⟩

/-- A key with the range of its boundary. -/
def givenEntry (entry : Int × Boundary) : Int × GivenRange := (entry.1, entry.2.given)

theorem GivenRange.exists_given {r : GivenRange} (h : ¬ r.IsReversed) : ∃ b : Boundary, b.given = r :=
  ⟨⟨r.start, r.stop, not_lt.1 h⟩, rfl⟩

/-- Entries without reversed ranges are those of boundaries. -/
theorem exists_givenEntry {entries : List (Int × GivenRange)}
    (h : ∀ entry ∈ entries, ¬ entry.2.IsReversed) :
    ∃ bs : List (Int × Boundary), entries = bs.map givenEntry := by
  induction entries with
  | nil => exact ⟨[], rfl⟩
  | cons entry entries ih =>
    obtain ⟨hentry, hentries⟩ := List.forall_mem_cons.1 h
    obtain ⟨b, hb⟩ := GivenRange.exists_given hentry
    obtain ⟨bs, rfl⟩ := ih hentries
    exact ⟨(entry.1, b) :: bs, by rw [List.map_cons, givenEntry, hb]⟩

theorem entries_ofList_givenEntry (bs : List (Int × Boundary)) :
    (OrderedMap.ofList (bs.map givenEntry)).entries = (OrderedMap.ofList bs).entries.map givenEntry :=
  OrderedMap.entries_ofList_map Function.injective_id Boundary.given bs

theorem ofRange?_given (b : Boundary) : Boundary.ofRange? b.start b.stop = some b :=
  dif_pos b.start_le_stop

theorem ofRange?_of_isReversed {r : GivenRange} (h : r.IsReversed) :
    Boundary.ofRange? r.start r.stop = none := dif_neg (not_le.2 h)

theorem readRange_given (b : Boundary) : readRange (.int b.start) (.int b.stop) = .ok b := by
  simp only [readRange, readWhole, Json.whole, Except.mapError, bind, Except.bind, ofRange?_given]

theorem readRange_of_isReversed {r : GivenRange} (h : r.IsReversed) :
    readRange (.int r.start) (.int r.stop) = .error (.reversed r.start r.stop) := by
  simp only [readRange, readWhole, Json.whole, Except.mapError, bind, Except.bind,
    ofRange?_of_isReversed h]

/-! ## Ranges in texts -/

/-- A key and its range in one text: `key:start:end`. -/
def rangeText (entry : Int × GivenRange) : List Char :=
  (toString entry.1).toList ++
    ':' :: ((toString entry.2.start).toList ++ ':' :: (toString entry.2.stop).toList)

theorem colonPieces_of_not_mem {piece : List Char} (h : ':' ∉ piece) : colonPieces piece = [piece] := by
  induction piece with
  | nil => rfl
  | cons c piece ih =>
    rw [List.mem_cons, not_or] at h
    rw [colonPieces, if_neg (Ne.symm h.1), ih h.2]

theorem colonPieces_append {piece : List Char} (h : ':' ∉ piece) (rest : List Char) :
    colonPieces (piece ++ ':' :: rest) = piece :: colonPieces rest := by
  induction piece with
  | nil => rfl
  | cons c piece ih =>
    rw [List.mem_cons, not_or] at h
    rw [List.cons_append, colonPieces, if_neg (Ne.symm h.1), ih h.2]

theorem parseBoundary?_rangeText (entry : Int × GivenRange) :
    parseBoundary? (rangeText entry) =
      (Boundary.ofRange? entry.2.start entry.2.stop).map fun b => (entry.1, b) := by
  have hpieces : (colonPieces (rangeText entry)).mapM Text.integer? =
      some [entry.1, entry.2.start, entry.2.stop] := by
    rw [rangeText, colonPieces_append (colon_not_mem_toString _),
      colonPieces_append (colon_not_mem_toString _), colonPieces_of_not_mem (colon_not_mem_toString _)]
    simp only [List.mapM_cons, List.mapM_nil, Text.integer?_toString]
    rfl
  rw [parseBoundary?, hpieces]

theorem parseBoundary?_givenEntry (entry : Int × Boundary) :
    parseBoundary? (rangeText (givenEntry entry)) = some entry := by
  rw [parseBoundary?_rangeText, givenEntry, Boundary.given, ofRange?_given, Option.map_some]

/-- Just the texts of reversed ranges are refused. -/
theorem parseBoundary?_rangeText_eq_none_iff (entry : Int × GivenRange) :
    parseBoundary? (rangeText entry) = none ↔ entry.2.IsReversed := by
  constructor
  · contrapose!
    intro h
    obtain ⟨b, hb⟩ := GivenRange.exists_given h
    have hentry : entry = givenEntry (entry.1, b) := by rw [givenEntry, hb]
    rw [hentry, parseBoundary?_givenEntry]
    exact Option.some_ne_none _
  · intro h
    rw [parseBoundary?_rangeText, ofRange?_of_isReversed h, Option.map_none]

theorem mapM_parseBoundary?_givenEntry (bs : List (Int × Boundary)) :
    ((bs.map givenEntry).mapM fun entry => parseBoundary? (rangeText entry)) = some bs := by
  induction bs with
  | nil => rfl
  | cons b bs ih =>
    rw [List.map_cons, List.mapM_cons, parseBoundary?_givenEntry, ih]
    rfl

/-! ## Spellings -/

/-- A way to write keys and ranges in a document, from which they are read as they were. -/
structure Spelling where
  key : Int → BoundaryKey
  range : GivenRange → BoundaryValue
  read_key : ∀ k, (key k).read = .ok k
  read_range : ∀ r, (range r).read = readRange (.int r.start) (.int r.stop)

namespace Spelling

/-- Keys in decimals, ranges as objects with a start and an end. -/
def objects : Spelling where
  key k := .text (toString k)
  range r := .document (.obj [("start", .int r.start), ("end", .int r.stop)])
  read_key k := by
    rw [BoundaryKey.read, readWhole, Json.whole, Text.integer?_toString]
    rfl
  read_range _ := rfl

/-- Keys as numbers, ranges as pairs. -/
def pairs : Spelling where
  key := .number
  range r := .document (.arr [.int r.start, .int r.stop])
  read_key _ := rfl
  read_range _ := rfl

variable (sp : Spelling)

/-- An entry of a document. -/
def entry (given : Int × GivenRange) : BoundaryKey × BoundaryValue := (sp.key given.1, sp.range given.2)

/-- The document that sets the keys of some entries one after the other. -/
def document (entries : List (Int × GivenRange)) : OrderedMap BoundaryKey BoundaryValue :=
  .ofList (entries.map sp.entry)

theorem key_injective : sp.key.Injective := fun k l h => by
  have hread := congrArg BoundaryKey.read h
  rw [sp.read_key, sp.read_key] at hread
  exact Except.ok.inj hread

/-- Spelling keeps keys apart, so a document has the last range of each key. -/
theorem entries_document (entries : List (Int × GivenRange)) :
    (sp.document entries).entries = (OrderedMap.ofList entries).entries.map sp.entry :=
  OrderedMap.entries_ofList_map sp.key_injective sp.range entries

theorem readEntries_givenEntry (m : BoundaryMap) (bs : List (Int × Boundary)) :
    readEntries m ((bs.map givenEntry).map sp.entry) =
      .ok (bs.foldl (fun m entry => m.insert entry.1 entry.2) m) := by
  rw [List.map_map]
  exact readEntries_of_read (fun _ => sp.read_key _)
    (fun b => (sp.read_range _).trans (readRange_given b.2)) m bs

/-- The first range that ends before it starts stops the reading. -/
theorem readEntries_of_isReversed (m : BoundaryMap) {entries : List (Int × GivenRange)}
    (h : ∃ given ∈ entries, given.2.IsReversed) :
    ∃ given ∈ entries, given.2.IsReversed ∧
      readEntries m (entries.map sp.entry) = .error (.reversed given.2.start given.2.stop) := by
  induction entries generalizing m with
  | nil => simp at h
  | cons first entries ih =>
    by_cases hfirst : first.2.IsReversed
    · refine ⟨first, List.mem_cons_self, hfirst, ?_⟩
      rw [List.map_cons, entry, readEntries, sp.read_range, readRange_of_isReversed hfirst]
      rfl
    · obtain ⟨b, hb⟩ := GivenRange.exists_given hfirst
      obtain ⟨given, hgiven, hreversed, hread⟩ := ih (m.insert first.1 b) (by simpa [hfirst] using h)
      refine ⟨given, List.mem_cons_of_mem _ hgiven, hreversed, ?_⟩
      have hrange : (sp.range first.2).read = .ok b := by
        rw [← hb, sp.read_range]
        exact readRange_given b
      rw [List.map_cons, entry, readEntries, hrange, sp.read_key]
      exact hread

/-- All spellings are read alike. -/
theorem readEntries_eq (sp' : Spelling) (m : BoundaryMap) (entries : List (Int × GivenRange)) :
    readEntries m (entries.map sp.entry) = readEntries m (entries.map sp'.entry) := by
  induction entries generalizing m with
  | nil => rfl
  | cons given entries ih =>
    simp only [List.map_cons, entry, readEntries, sp.read_key, sp'.read_key, sp.read_range,
      sp'.read_range] at ih ⊢
    simp only [ih]

theorem read_document_eq (sp' : Spelling) (entries : List (Int × GivenRange)) :
    BoundaryMap.read (sp.document entries) = BoundaryMap.read (sp'.document entries) := by
  rw [BoundaryMap.read, BoundaryMap.read, sp.entries_document, sp'.entries_document, sp.readEntries_eq sp']

variable {entries : List (Int × GivenRange)}

/-- A document is refused where the last range of some key ends before it starts. -/
theorem read_document_of_isReversed (h : ∃ given, IsLastOfKey entries given ∧ given.2.IsReversed) :
    ∃ given, IsLastOfKey entries given ∧ given.2.IsReversed ∧
      BoundaryMap.read (sp.document entries) = .error (.reversed given.2.start given.2.stop) := by
  simp only [← OrderedMap.mem_entries_ofList_iff] at h ⊢
  rw [BoundaryMap.read, sp.entries_document]
  exact sp.readEntries_of_isReversed .empty h

/-- It is refused for no other reason. -/
theorem isReversed_of_read_document {error : BoundaryError}
    (h : BoundaryMap.read (sp.document entries) = .error error) :
    ∃ given, IsLastOfKey entries given ∧ given.2.IsReversed ∧
      error = .reversed given.2.start given.2.stop := by
  by_cases hreversed : ∃ given, IsLastOfKey entries given ∧ given.2.IsReversed
  · obtain ⟨given, hlast, hrange, hread⟩ := sp.read_document_of_isReversed hreversed
    exact ⟨given, hlast, hrange, Except.error.inj (h.symm.trans hread)⟩
  · obtain ⟨bs, hbs⟩ := exists_givenEntry fun given hgiven hrange =>
      hreversed ⟨given, OrderedMap.mem_entries_ofList_iff.1 hgiven, hrange⟩
    rw [BoundaryMap.read, sp.entries_document, hbs, sp.readEntries_givenEntry] at h
    cases h

/-- A document of boundaries gives the map that results from setting their keys one after the other. -/
theorem read_document_givenEntry (bs : List (Int × Boundary)) :
    BoundaryMap.read (sp.document (bs.map givenEntry)) = .ok (.ofList bs) := by
  rw [BoundaryMap.read, sp.entries_document, entries_ofList_givenEntry, sp.readEntries_givenEntry]
  exact congrArg Except.ok (BoundaryMap.ofList_entries _)

end Spelling

/-- Texts `key:start:end`, objects and pairs give one boundary map, in which a key keeps its first place and
takes its last range, and which reads as itself. A text is refused where its own range ends before it starts,
and a document where the last range of some key does. -/
theorem boundary_spellings_agree (entries : List (Int × GivenRange)) :
    let objects := BoundaryMap.read (Spelling.objects.document entries)
    let pairs := BoundaryMap.read (Spelling.pairs.document entries)
    objects = pairs ∧
      ((∀ given ∈ entries, given.2.start ≤ given.2.stop) → ∃ m : BoundaryMap,
        (entries.mapM fun given => parseBoundary? (rangeText given)).map OrderedMap.ofList = some m ∧
          pairs = .ok m ∧ BoundaryMap.read m.document = .ok m ∧
          m.keys = (entries.map (·.1)).eraseDups ∧
          ∀ given, IsLastOfKey entries given → (m.get? given.1).map Boundary.given = some given.2) ∧
      (∀ given ∈ entries, parseBoundary? (rangeText given) = none ↔ given.2.stop < given.2.start) ∧
      ((∃ error, pairs = .error error) ↔
        ∃ given, IsLastOfKey entries given ∧ given.2.stop < given.2.start) ∧
      ∀ error, pairs = .error error →
        ∃ given, IsLastOfKey entries given ∧ given.2.stop < given.2.start ∧
          error = .reversed given.2.start given.2.stop := by
  intro objects pairs
  refine ⟨Spelling.objects.read_document_eq _ entries, fun hforward => ?_,
    fun given _ => parseBoundary?_rangeText_eq_none_iff given, ⟨fun ⟨_, h⟩ => ?_, fun h => ?_⟩,
    fun _ => Spelling.pairs.isReversed_of_read_document⟩
  · obtain ⟨bs, rfl⟩ := exists_givenEntry fun given hgiven => not_lt.2 (hforward given hgiven)
    refine ⟨.ofList bs, ?_, Spelling.pairs.read_document_givenEntry bs, BoundaryMap.read_document _, ?_,
      fun given hlast => ?_⟩
    · rw [mapM_parseBoundary?_givenEntry, Option.map_some]
    · rw [OrderedMap.keys_ofList, List.map_map]
      rfl
    · rw [← OrderedMap.mem_entries_ofList_iff, entries_ofList_givenEntry] at hlast
      obtain ⟨entry, hentry, rfl⟩ := List.mem_map.1 hlast
      rw [givenEntry, (OrderedMap.get?_eq_some_iff _ _ _).2 hentry, Option.map_some]
  · obtain ⟨given, hlast, hrange, -⟩ := Spelling.pairs.isReversed_of_read_document h
    exact ⟨given, hlast, hrange⟩
  · obtain ⟨given, -, -, hread⟩ := Spelling.pairs.read_document_of_isReversed h
    exact ⟨_, hread⟩

/-- Two functions, the first of which is given again at the end; and a reversed range that is given anew. -/
theorem boundary_spellings_agree_key_again :
    let entries : List (Int × GivenRange) := [(3, ⟨1, 9⟩), (-2, ⟨-7, -7⟩), (3, ⟨2, 4⟩)]
    let mended : List (Int × GivenRange) := [(3, ⟨9, 1⟩), (3, ⟨2, 4⟩)]
    (∀ given ∈ entries, given.2.start ≤ given.2.stop) ∧
      (∃ m : BoundaryMap,
        (entries.mapM fun given => parseBoundary? (rangeText given)).map OrderedMap.ofList = some m ∧
          BoundaryMap.read (Spelling.objects.document entries) = .ok m ∧
          BoundaryMap.read (Spelling.pairs.document entries) = .ok m ∧ m.keys = [3, -2] ∧
          (m.get? 3).map Boundary.given = some ⟨2, 4⟩) ∧
      parseBoundary? (rangeText (3, ⟨9, 1⟩)) = none ∧
      ¬ ∃ error, BoundaryMap.read (Spelling.pairs.document mended) = .error error := by
  intro entries mended
  have hforward : ∀ given ∈ entries, given.2.start ≤ given.2.stop := by decide
  have hlast : IsLastOfKey entries (3, ⟨2, 4⟩) := ⟨[(3, ⟨1, 9⟩), (-2, ⟨-7, -7⟩)], [], rfl, nofun⟩
  obtain ⟨hsame, hmap, -⟩ := boundary_spellings_agree entries
  obtain ⟨m, htexts, hpairs, -, hkeys, hranges⟩ := hmap hforward
  obtain ⟨-, -, htext, hrefused, -⟩ := boundary_spellings_agree mended
  refine ⟨hforward, ⟨m, htexts, hsame.trans hpairs, hpairs, hkeys, hranges _ hlast⟩,
    (htext (3, ⟨9, 1⟩) (by decide)).2 (by decide), fun herror => ?_⟩
  obtain ⟨given, hlast, hreversed⟩ := hrefused.1 herror
  rw [← OrderedMap.mem_entries_ofList_iff] at hlast
  revert given
  decide

end BranchTally
