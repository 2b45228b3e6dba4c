-- SUMMARY: After any registrations a file goes to the parser that last listed its language, and the extensions that are called supported but lead to no parser.
import BranchTally.Registry
import BranchTally.Proofs.OrderedMap

/-!
# Routing by registration

An extension keeps the language that it had from the start or was given when a parser first listed it: no
later registration makes it stand for another one. So the order of the registrations does not show in the
languages, and the parser of a language is the last one that lists an extension of it.

Extensions are kept as parsers spell them, but the extension of a file is read in lower case. An extension
that is listed with capital letters leads to a parser only if its lower-case spelling does.
-/

namespace BranchTally

open Text

/-! ## Languages of extensions -/

/-- The language of an extension: the one known from the start, else its own. -/
def languageOf (extension : String) : String :=
  (knownLanguages.get? extension).getD (ownLanguage extension)

/-- The parser lists an extension of the language. -/
def SourceParser.Handles (p : SourceParser) (language : String) : Prop :=
  ∃ e ∈ p.extensions, languageOf e = language

instance (language : String) : DecidablePred (SourceParser.Handles · language) := fun p =>
  inferInstanceAs (Decidable (∃ e ∈ p.extensions, languageOf e = language))

/-- The extension is known from the start or listed by a parser, in this spelling. -/
def IsListed (parsers : List SourceParser) (extension : String) : Prop :=
  extension ∈ knownLanguages.keys ∨ ∃ p ∈ parsers, extension ∈ p.extensions

/-- The parser handles the language, and none that comes behind it in the list does. -/
def IsLastHandler (parsers : List SourceParser) (language : String) (p : SourceParser) : Prop :=
  ∃ before after, parsers = before ++ p :: after ∧ p.Handles language ∧
    ∀ q ∈ after, ¬q.Handles language

namespace Registry

/-- The language that the extension has, or would be given if a parser listed it. -/
def languageFor (r : Registry) (extension : String) : String :=
  (r.languages.get? extension).getD (ownLanguage extension)

/-- The registry after parsers have been registered in turn. -/
def registered (parsers : List SourceParser) : Registry := parsers.foldl register empty

/-! ## One extension -/

section

variable (r : Registry) (p : SourceParser) (extension : String)

theorem get?_languages_registerExtension (e : String) :
    (r.registerExtension p extension).languages.get? e =
      if e = extension then some (r.languageFor extension) else r.languages.get? e := by
  rw [registerExtension, languageFor]
  cases hknown : r.languages.get? extension with
  | none => exact OrderedMap.get?_insert _ _ _ _
  | some language =>
    dsimp only
    split
    · rename_i he
      rw [he, hknown, Option.getD_some]
    · rfl

theorem get?_parsers_registerExtension (language : String) :
    (r.registerExtension p extension).parsers.get? language =
      if r.languageFor extension = language then some p else r.parsers.get? language := by
  rw [registerExtension, languageFor]
  cases hknown : r.languages.get? extension with
  | none => simp only [OrderedMap.get?_insert, Option.getD_none, eq_comm (a := language)]
  | some known => simp only [OrderedMap.get?_insert, Option.getD_some, eq_comm (a := language)]

theorem languageFor_registerExtension (e : String) :
    (r.registerExtension p extension).languageFor e = r.languageFor e := by
  rw [languageFor, get?_languages_registerExtension]
  split
  · rename_i he
    rw [he, Option.getD_some]
  · rfl

end

/-! ## One parser -/

section

variable (r : Registry) (p : SourceParser)

/-- A registration makes no extension stand for another language. -/
theorem languageFor_register (e : String) : (r.register p).languageFor e = r.languageFor e := by
  rw [register]
  induction p.extensions generalizing r with
  | nil => rfl
  | cons extension extensions ih => rw [List.foldl_cons, ih, languageFor_registerExtension]

theorem isSome_get?_languages_register (e : String) :
    ((r.register p).languages.get? e).isSome ↔ (r.languages.get? e).isSome ∨ e ∈ p.extensions := by
  rw [register]
  induction p.extensions generalizing r with
  | nil => simp
  | cons extension extensions ih =>
    rw [List.foldl_cons, ih, get?_languages_registerExtension, List.mem_cons]
    by_cases h : e = extension <;> simp [h]

/-- The parser takes over all languages of its extensions, and no others. -/
theorem get?_parsers_register (language : String) :
    (r.register p).parsers.get? language =
      if ∃ e ∈ p.extensions, r.languageFor e = language then some p else r.parsers.get? language := by
  rw [register]
  induction p.extensions generalizing r with
  | nil => simp
  | cons extension extensions ih =>
    simp only [List.foldl_cons, ih, languageFor_registerExtension, get?_parsers_registerExtension,
      List.mem_cons, exists_eq_or_imp]
    by_cases h : r.languageFor extension = language <;> simp [h]

theorem register_of_no_extensions (h : p.extensions = []) : r.register p = r := by
  rw [register, h, List.foldl_nil]

end

/-! ## A run of registrations -/

section

variable (parsers : List SourceParser)

theorem registered_concat (p : SourceParser) :
    registered (parsers ++ [p]) = (registered parsers).register p := by
  rw [registered, registered, List.foldl_append, List.foldl_cons, List.foldl_nil]

theorem languageFor_registered (e : String) : (registered parsers).languageFor e = languageOf e := by
  induction parsers using List.reverseRecOn with
  | nil => rfl
  | append_singleton parsers p ih => rw [registered_concat, languageFor_register, ih]

theorem isSome_get?_languages_registered (e : String) :
    ((registered parsers).languages.get? e).isSome ↔ IsListed parsers e := by
  induction parsers using List.reverseRecOn with
  | nil => simp [registered, IsListed, empty, OrderedMap.get?, OrderedMap.keys]
  | append_singleton parsers p ih =>
    rw [registered_concat, isSome_get?_languages_register, ih]
    simp [IsListed, or_and_right, exists_or, or_assoc]

theorem get?_languages_registered (e language : String) :
    (registered parsers).languages.get? e = some language ↔
      IsListed parsers e ∧ languageOf e = language := by
  rw [← isSome_get?_languages_registered, ← languageFor_registered parsers, languageFor]
  cases (registered parsers).languages.get? e <;> simp

theorem get?_parsers_registered (language : String) :
    (registered parsers).parsers.get? language = parsers.reverse.find? (·.Handles language) := by
  induction parsers using List.reverseRecOn with
  | nil => rfl
  | append_singleton parsers p ih =>
    rw [registered_concat, get?_parsers_register, List.reverse_concat, List.find?_cons]
    simp only [languageFor_registered, ih]
    by_cases h : p.Handles language
    · rw [decide_eq_true h]
      exact if_pos h
    · rw [decide_eq_false h]
      exact if_neg h

theorem get?_parsers_registered_eq_some_iff (language : String) (p : SourceParser) :
    (registered parsers).parsers.get? language = some p ↔ IsLastHandler parsers language p := by
  rw [get?_parsers_registered, List.find?_eq_some_iff_append]
  constructor
  · rintro ⟨hp, after, before, hparsers, hafter⟩
    refine ⟨before.reverse, after.reverse, ?_, of_decide_eq_true hp, fun q hq => ?_⟩
    · rw [← List.reverse_inj, hparsers]
      simp
    · simpa using hafter q (List.mem_reverse.1 hq)
  · rintro ⟨before, after, hparsers, hp, hafter⟩
    refine ⟨decide_eq_true hp, after.reverse, before.reverse, ?_, fun q hq => ?_⟩
    · rw [hparsers]
      simp
    · simpa using hafter q (List.mem_reverse.1 hq)

theorem isSome_get?_parsers_registered (language : String) :
    ((registered parsers).parsers.get? language).isSome ↔ ∃ p ∈ parsers, p.Handles language := by
  rw [get?_parsers_registered, List.find?_isSome]
  simp only [List.mem_reverse, decide_eq_true_eq]

theorem registered_filter :
    registered (parsers.filter fun p => !p.extensions.isEmpty) = registered parsers := by
  induction parsers using List.reverseRecOn with
  | nil => rfl
  | append_singleton parsers p ih =>
    rw [List.filter_append, registered_concat]
    cases hextensions : p.extensions with
    | nil =>
      rw [register_of_no_extensions _ _ hextensions, List.filter_singleton, hextensions]
      exact (congrArg registered (List.append_nil _)).trans ih
    | cons e extensions =>
      rw [List.filter_singleton, hextensions]
      exact (registered_concat _ _).trans (congrArg (register · p) ih)

/-! ## Files -/

theorem parserFor?_eq_some_iff (path : String) (p : SourceParser) :
    (registered parsers).parserFor? path = some p ↔
      IsListed parsers (extensionOf path) ∧
        IsLastHandler parsers (languageOf (extensionOf path)) p := by
  simp only [parserFor?, language?, parser?, Option.bind_eq_some_iff, get?_languages_registered,
    get?_parsers_registered_eq_some_iff]
  constructor
  · rintro ⟨language, ⟨hlisted, rfl⟩, hlast⟩
    exact ⟨hlisted, hlast⟩
  · rintro ⟨hlisted, hlast⟩
    exact ⟨_, ⟨hlisted, rfl⟩, hlast⟩

theorem isSome_parserFor?_iff (path : String) :
    ((registered parsers).parserFor? path).isSome ↔
      IsListed parsers (extensionOf path) ∧
        ∃ p ∈ parsers, p.Handles (languageOf (extensionOf path)) := by
  rw [← isSome_get?_parsers_registered, Option.isSome_iff_exists, Option.isSome_iff_exists]
  simp only [parserFor?_eq_some_iff, get?_parsers_registered_eq_some_iff, exists_and_left]

/-- A file has a parser if its extension is known from the start or listed by a parser, and some parser
lists an extension of the same language: the last one that does is its parser. Parsers without extensions
change nothing. -/
theorem parserFor?_registered :
    (∀ path, ((registered parsers).parserFor? path).isSome ↔
      IsListed parsers (extensionOf path) ∧
        ∃ p ∈ parsers, p.Handles (languageOf (extensionOf path))) ∧
    (∀ path p, (registered parsers).parserFor? path = some p ↔
      IsListed parsers (extensionOf path) ∧
        IsLastHandler parsers (languageOf (extensionOf path)) p) ∧
    registered (parsers.filter fun p => !p.extensions.isEmpty) = registered parsers :=
  ⟨isSome_parserFor?_iff parsers, parserFor?_eq_some_iff parsers, registered_filter parsers⟩

/-! ## Supported extensions -/

theorem mem_supportedExtensions {r : Registry} {e : String} :
    e ∈ r.supportedExtensions ↔
      ∃ language, r.languages.get? e = some language ∧ (r.parsers.get? language).isSome := by
  simp only [supportedExtensions, List.mem_mergeSort, List.mem_map, List.mem_filter, Prod.exists,
    exists_and_right, exists_eq_right, OrderedMap.get?_eq_some_iff, OrderedMap.contains_eq_isSome]

theorem mem_supportedExtensions_registered (e : String) :
    e ∈ (registered parsers).supportedExtensions ↔
      IsListed parsers e ∧ ∃ p ∈ parsers, p.Handles (languageOf e) := by
  simp only [mem_supportedExtensions, get?_languages_registered, isSome_get?_parsers_registered]
  constructor
  · rintro ⟨language, ⟨hlisted, rfl⟩, hhandler⟩
    exact ⟨hlisted, hhandler⟩
  · rintro ⟨hlisted, hhandler⟩
    exact ⟨_, ⟨hlisted, rfl⟩, hhandler⟩

/-- What decides on a file is whether its extension, in lower case, is among the supported ones. -/
theorem isSome_parserFor?_iff_mem_supportedExtensions (path : String) :
    ((registered parsers).parserFor? path).isSome ↔
      extensionOf path ∈ (registered parsers).supportedExtensions := by
  rw [isSome_parserFor?_iff, mem_supportedExtensions_registered]

end

end Registry

/-! ## Spelling -/

/-- The extension in lower case. -/
def lowerCased (extension : String) : String := String.ofList (lower extension.toList)

/-- A dot and behind it one or more Latin letters or digits. -/
def isPlainExtension (extension : String) : Bool :=
  match extension.toList with
  | '.' :: name => !name.isEmpty && name.all fun c => isLatinLetter c || isLatinDigit c
  | _ => false

theorem lowerCased_of_mem_knownLanguages :
    ∀ e ∈ knownLanguages.keys, lowerCased e = e := by
  decide +kernel

theorem isPlainExtension_of_mem_knownLanguages :
    ∀ e ∈ knownLanguages.keys, isPlainExtension e = true := by
  decide +kernel

theorem exists_name_of_isPlainExtension {e : String} (h : isPlainExtension e = true) :
    ∃ name, e.toList = '.' :: name ∧ name ≠ [] ∧ '.' ∉ name ∧ '/' ∉ name := by
  rw [isPlainExtension] at h
  split at h
  · rename_i name he
    rw [Bool.and_eq_true, List.all_eq_true] at h
    obtain ⟨hne, hname⟩ := h
    refine ⟨name, he, by simpa using hne, fun hdot => ?_, fun hslash => ?_⟩
    · exact absurd (hname _ hdot) (by decide)
    · exact absurd (hname _ hslash) (by decide)
  · cases h

theorem lastIndexOf?_of_not_mem {c : Char} {s : List Char} (h : c ∉ s) : lastIndexOf? c s = none := by
  induction s with
  | nil => rfl
  | cons d s ih =>
    rw [List.mem_cons, not_or] at h
    rw [lastIndexOf?, ih h.2]
    exact if_neg (Ne.symm h.1)

theorem Path.pieces_of_not_mem {s : List Char} (h : '/' ∉ s) : Path.pieces s = [s] := by
  induction s with
  | nil => rfl
  | cons c s ih =>
    rw [List.mem_cons, not_or] at h
    rw [Path.pieces, if_neg (Ne.symm h.1), ih h.2]

/-- The extension of a file is read in lower case. -/
theorem extensionOf_append {e : String} (h : isPlainExtension e = true) :
    extensionOf ("x" ++ e) = lowerCased e := by
  obtain ⟨name, he, hne, hdot, hslash⟩ := exists_name_of_isPlainExtension h
  have hpath : ("x" ++ e).toList = 'x' :: '.' :: name := by
    rw [String.toList_append, he]
    rfl
  have hnames : Path.names ('x' :: '.' :: name) = ['x' :: '.' :: name] := by
    have hpieces : Path.pieces ('x' :: '.' :: name) = ['x' :: '.' :: name] :=
      Path.pieces_of_not_mem (by simpa using hslash)
    rw [Path.names, hpieces]
    simp [Path.isIdle]
  have hindex : lastIndexOf? '.' ('x' :: '.' :: name) = some 1 := by
    simp [lastIndexOf?, lastIndexOf?_of_not_mem hdot]
  have hextension : nameExtension ('x' :: '.' :: name) = '.' :: name := by
    simp [nameExtension, hindex, List.length_pos_iff, hne]
  rw [extensionOf, hpath, hnames, lowerCased, he]
  exact congrArg (fun s => String.ofList (lower s)) hextension

namespace Registry

/-- What a parser lists is supported, since the parser itself handles its language. -/
theorem mem_supportedExtensions_registered_iff (parsers : List SourceParser) (e : String) :
    e ∈ (registered parsers).supportedExtensions ↔ (∃ p ∈ parsers, e ∈ p.extensions) ∨
      e ∈ knownLanguages.keys ∧ ∃ p ∈ parsers, p.Handles (languageOf e) := by
  rw [mem_supportedExtensions_registered]
  constructor
  · rintro ⟨hknown | hlisted, hhandler⟩
    · exact .inr ⟨hknown, hhandler⟩
    · exact .inl hlisted
  · rintro (⟨p, hp, he⟩ | ⟨hknown, hhandler⟩)
    · exact ⟨.inr ⟨p, hp, he⟩, p, hp, e, he, rfl⟩
    · exact ⟨.inl hknown, hhandler⟩

/-- All supported extensions lead to a parser if and only if each listed one does so in lower case: that
spelling is listed too, or known from the start and of a language with a parser. -/
theorem supportedExtensions_lead_to_parser_iff {parsers : List SourceParser}
    (h : ∀ p ∈ parsers, ∀ e ∈ p.extensions, isPlainExtension e = true) :
    (∀ e ∈ (registered parsers).supportedExtensions,
      ((registered parsers).parserFor? ("x" ++ e)).isSome) ↔
    ∀ p ∈ parsers, ∀ e ∈ p.extensions, (∃ q ∈ parsers, lowerCased e ∈ q.extensions) ∨
      lowerCased e ∈ knownLanguages.keys ∧ ∃ q ∈ parsers, q.Handles (languageOf (lowerCased e)) := by
  have hroute {e : String} (he : isPlainExtension e = true) :
      ((registered parsers).parserFor? ("x" ++ e)).isSome ↔
        lowerCased e ∈ (registered parsers).supportedExtensions := by
    rw [isSome_parserFor?_iff_mem_supportedExtensions, extensionOf_append he]
  constructor
  · intro hall p hp e he
    rw [← mem_supportedExtensions_registered_iff, ← hroute (h p hp e he)]
    apply hall
    rw [mem_supportedExtensions_registered_iff]
    exact .inl ⟨p, hp, he⟩
  · intro hall e he
    rcases (mem_supportedExtensions_registered_iff parsers e).1 he with ⟨p, hp, hlisted⟩ | ⟨hknown, -⟩
    · rw [hroute (h p hp e hlisted), mem_supportedExtensions_registered_iff]
      exact hall p hp e hlisted
    · rw [hroute (isPlainExtension_of_mem_knownLanguages e hknown),
        lowerCased_of_mem_knownLanguages e hknown]
      exact he

/-- Capital letters do no harm where the lower-case spelling is listed by another parser, or belongs to a
known language that has one. -/
theorem supportedExtensions_lead_to_parser_iff_capitals :
    let parsers : List SourceParser :=
      [⟨"first", [".Vue", ".TS"], fun _ => .ok none⟩, ⟨"second", [".tsx"], fun _ => .ok none⟩,
        ⟨"third", [".vue"], fun _ => .ok none⟩]
    (∀ p ∈ parsers, ∀ e ∈ p.extensions, isPlainExtension e = true) ∧
      ∀ e ∈ (registered parsers).supportedExtensions,
        ((registered parsers).parserFor? ("x" ++ e)).isSome := by
  intro parsers
  have hplain : ∀ p ∈ parsers, ∀ e ∈ p.extensions, isPlainExtension e = true := by decide +kernel
  refine ⟨hplain, (supportedExtensions_lead_to_parser_iff hplain).2 ?_⟩
  decide +kernel

/-- `.Vue` is called supported, but a file `x.Vue` has no parser. -/
theorem exists_supported_without_parser_capital :
    let parsers : List SourceParser := [⟨"capital", [".Vue"], fun _ => .ok none⟩]
    (∀ p ∈ parsers, ∀ e ∈ p.extensions, isPlainExtension e = true) ∧
      ∃ e ∈ (registered parsers).supportedExtensions,
        ((registered parsers).parserFor? ("x" ++ e)).isNone := by
  refine ⟨by decide +kernel, ".Vue", ?_, ?_⟩
  · rw [mem_supportedExtensions_registered_iff]
    exact .inl (by decide)
  · decide +kernel

end Registry

end BranchTally
