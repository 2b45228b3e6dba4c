-- SUMMARY: The text of a comment that the spans report may be blanked without a change to the comments of its line or to the line without them.
import Mathlib
import BranchTally.Proofs.Redaction.Ternary

/-!
# Blanked comments

The spans of comments and the line without comments come from two walks, of which only the first knows
about strings. Up to a comment that the spans report the two agree where no string holds a `/*`: a
`//` in a string cuts the line for the second walk, and the comment behind it with it.
-/

namespace BranchTally

open Text

/-! ## The line without comments -/

theorem isLineTail_of_not_mem {rest : Line} (h : '\n' ∉ rest) : isLineTail rest = true := by
  induction rest with
  | nil => rfl
  | cons c rest ih =>
    obtain ⟨hc, hrest⟩ := not_or.1 (List.mem_cons.not.1 h)
    rw [isLineTail]
    · exact ih hrest
    · rintro rfl -
      exact hc rfl
    · rintro rfl
      exact hc rfl

theorem stripCommentsFrom_line {rest : Line} (hnext : rest.head? = some '/') (h : '\n' ∉ rest) :
    stripCommentsFrom false ('/' :: rest) = [] := by
  cases rest with
  | nil => simp at hnext
  | cons c rest =>
    obtain rfl : c = '/' := by simpa using hnext
    have hrest : '\n' ∉ rest := fun hmem => h (List.mem_cons_of_mem _ hmem)
    rw [stripCommentsFrom, if_pos (isLineTail_of_not_mem hrest), List.filter_eq_nil_iff]
    intro c hc hbreak
    exact hrest (of_decide_eq_true hbreak ▸ hc)

theorem stripCommentsFrom_block {rest : Line} (h : closesBlock rest = true) :
    stripCommentsFrom false ('/' :: '*' :: rest) = stripCommentsFrom true rest := by
  rw [stripCommentsFrom, if_pos h]

theorem stripCommentsFrom_code {c : Char} {rest : Line}
    (h : c = '/' → rest.head? ≠ some '/' ∧ rest.head? ≠ some '*') :
    stripCommentsFrom false (c :: rest) = c :: stripCommentsFrom false rest := by
  rw [stripCommentsFrom]
  · rintro more rfl rfl
    exact (h rfl).1 rfl
  · rintro more rfl rfl
    exact (h rfl).2 rfl

theorem stripCommentsFrom_inside {c : Char} {rest : Line} (h : c = '*' → rest.head? ≠ some '/') :
    stripCommentsFrom true (c :: rest) = stripCommentsFrom true rest := by
  rw [stripCommentsFrom]
  rintro more rfl rfl
  exact h rfl rfl

theorem closesBlock_cons {c : Char} {rest : Line} (hc : c ≠ '\n') :
    closesBlock (c :: rest) = (decide (c = '*' ∧ rest.head? = some '/') || closesBlock rest) := by
  by_cases hclose : c = '*' ∧ rest.head? = some '/'
  · obtain ⟨rfl, hrest⟩ := hclose
    cases rest with
    | nil => simp at hrest
    | cons d rest =>
      obtain rfl : d = '/' := by simpa using hrest
      rfl
  · rw [decide_eq_false hclose, Bool.false_or, closesBlock]
    · rintro more rfl rfl
      exact hclose ⟨rfl, rfl⟩
    · rintro rfl
      exact hc rfl

/-! ## Comment spans -/

/-- Up to a reported comment the spans do not depend on what follows but for its first character and
its length. -/
theorem commentSpansFrom_append {rest rest' : List (Char × Bool)} (hhead : rest.head? = rest'.head?)
    {front : List (Char × Bool)} {skip pos : Nat} {opened : Option Nat}
    (hopened : ∀ start ∈ opened, start < pos)
    (hmem : ∃ span ∈ commentSpansFrom skip opened pos (front ++ rest), span.start = pos + front.length) :
    ∃ above, commentSpansFrom skip opened pos (front ++ rest) =
        above ++ commentSpansFrom 0 none (pos + front.length) rest ∧
      commentSpansFrom skip opened pos (front ++ rest') =
        above ++ commentSpansFrom 0 none (pos + front.length) rest' ∧
      ∃ span ∈ commentSpansFrom 0 none (pos + front.length) rest, span.start = pos + front.length := by
  induction front generalizing skip pos opened with
  | nil =>
    obtain ⟨span, hspan, hstart⟩ := hmem
    rw [List.length_nil, Nat.add_zero] at hstart
    rw [List.nil_append] at hspan
    rcases start_of_mem_commentSpansFrom hspan with heq | hle
    · exact absurd (hopened _ heq) (by omega)
    · cases opened with
      | some start => simp at hle; omega
      | none =>
        obtain rfl : skip = 0 := by simp at hle; omega
        exact ⟨[], rfl, rfl, span, hspan, hstart⟩
  | cons cell front ih =>
    obtain ⟨span, hspan, hstart⟩ := hmem
    have hnumber : pos + (cell :: front).length = pos + 1 + front.length := by
      rw [List.length_cons]
      omega
    rw [hnumber] at hstart ⊢
    have hlater {skip' : Nat} {opened' : Option Nat} (hopened' : ∀ start ∈ opened', start < pos + 1)
        (hmem : span ∈ commentSpansFrom skip' opened' (pos + 1) (front ++ rest)) :=
      ih hopened' ⟨span, hmem, hstart⟩
    have hkeep : ∀ start ∈ opened, start < pos + 1 := fun start h => Nat.lt_succ_of_lt (hopened start h)
    have hnext : (front ++ rest).head? = (front ++ rest').head? := by
      cases front with
      | nil => exact hhead
      | cons x front => rfl
    cases skip with
    | succ skip =>
      simp only [List.cons_append, commentSpansFrom] at hspan ⊢
      exact hlater hkeep hspan
    | zero =>
      obtain ⟨c, masked⟩ := cell
      cases opened with
      | none =>
        simp only [List.cons_append, commentSpansFrom, ← hnext] at hspan ⊢
        split_ifs at hspan ⊢
        · rw [List.mem_singleton.1 hspan] at hstart
          simp only at hstart
          omega
        · exact hlater (by simp) hspan
        · exact hlater (by simp) hspan
        · exact hlater (by simp) hspan
      | some start =>
        simp only [List.cons_append, commentSpansFrom, ← hnext] at hspan ⊢
        split_ifs at hspan ⊢
        · rcases List.mem_cons.1 hspan with rfl | hspan
          · exact absurd (hopened start rfl) (by simp only at hstart; omega)
          · obtain ⟨above, hrest, hrest', hmem⟩ := hlater (by simp) hspan
            exact ⟨_ :: above, by rw [hrest, List.cons_append], by rw [hrest', List.cons_append], hmem⟩
        · exact hlater hkeep hspan

/-- A comment reported at the start of a text begins with a live slash. -/
theorem cell_of_commentSpansFrom {pos : Nat} {c : Char} {masked : Bool} {rest : List (Char × Bool)}
    (hmem : ∃ span ∈ commentSpansFrom 0 none pos ((c, masked) :: rest), span.start = pos) :
    c = '/' ∧ masked = false := by
  obtain ⟨span, hspan, hstart⟩ := hmem
  have hlater (h : span ∈ commentSpansFrom 0 none (pos + 1) rest) : c = '/' ∧ masked = false := by
    rcases start_of_mem_commentSpansFrom h with heq | hle
    · simp at heq
    · simp at hle
      omega
  simp only [commentSpansFrom] at hspan
  split_ifs at hspan with hslash
  · simpa using hslash
  · simpa using hslash
  · exact hlater hspan
  · exact hlater hspan

/-- The string content of the text holds no `/*`. -/
def HidesNoBlock (cells : List (Char × Bool)) : Prop :=
  cells.IsChain fun x y => ¬ (x = ('/', true) ∧ y.1 = '*')

/-- Between marks at position `pos` with `opened` as the start of an open block, a comment is reported
where `front` ends. -/
structure ReportedBehind (rest : List (Char × Bool)) (opened : Option Nat) (pos : Nat)
    (front : List (Char × Bool)) : Prop where
  isAbove : ∀ start ∈ opened, start < pos
  sameLine : ∀ x ∈ front, x.1 ≠ '\n'
  strings : HidesNoBlock front
  reported : ∃ span ∈ commentSpansFrom 0 opened pos (front ++ rest), span.start = pos + front.length

namespace ReportedBehind

variable {rest front : List (Char × Bool)} {opened : Option Nat} {pos start : Nat} {x : Char × Bool}

theorem eq_none_of_nil (h : ReportedBehind rest opened pos []) : opened = none := by
  obtain ⟨span, hspan, hstart⟩ := h.reported
  rw [List.length_nil, Nat.add_zero] at hstart
  rcases start_of_mem_commentSpansFrom hspan with heq | hle
  · exact absurd (h.isAbove _ heq) (by omega)
  · cases opened with
    | none => rfl
    | some start => simp at hle; omega

/-- One character further on. -/
theorem step (h : ReportedBehind rest opened pos (x :: front)) {opened' : Option Nat}
    (hopened : ∀ start ∈ opened', start < pos + 1)
    (hspans : ∀ span ∈ commentSpansFrom 0 opened pos (x :: (front ++ rest)),
      span.start = pos + 1 + front.length → span ∈ commentSpansFrom 0 opened' (pos + 1) (front ++ rest)) :
    ReportedBehind rest opened' (pos + 1) front := by
  obtain ⟨span, hspan, hstart⟩ := h.reported
  have hstart' : span.start = pos + 1 + front.length := by
    rw [hstart, List.length_cons]
    omega
  exact ⟨hopened, fun y hy => h.sameLine y (List.mem_cons_of_mem _ hy), h.strings.tail,
    span, hspans span hspan hstart', hstart'⟩

/-- Two characters further on, past a mark. -/
theorem mark {y : Char × Bool} (h : ReportedBehind rest opened pos (x :: y :: front))
    {opened' : Option Nat} (hopened : ∀ start ∈ opened', start < pos + 2)
    (hspans : ∀ span ∈ commentSpansFrom 0 opened pos (x :: y :: (front ++ rest)),
      span.start = pos + 2 + front.length → span ∈ commentSpansFrom 0 opened' (pos + 2) (front ++ rest)) :
    ReportedBehind rest opened' (pos + 2) front := by
  obtain ⟨span, hspan, hstart⟩ := h.reported
  have hstart' : span.start = pos + 2 + front.length := by
    rw [hstart, List.length_cons, List.length_cons]
    omega
  exact ⟨hopened, fun z hz => h.sameLine z (List.mem_cons_of_mem _ (List.mem_cons_of_mem _ hz)),
    h.strings.tail.tail, span, hspans span hspan hstart', hstart'⟩

/-- The next character is the given one. -/
theorem head?_any (front rest : List (Char × Bool)) (d : Char) :
    ((front ++ rest).head?.any fun x => x.1 = d) =
      decide ((front.map Prod.fst ++ rest.map Prod.fst).head? = some d) := by
  rw [← List.map_append, List.head?_map]
  cases (front ++ rest).head? <;> simp

/-- Code goes on behind a character that begins no mark. -/
theorem code (h : ReportedBehind rest none pos (x :: front))
    (hmark : x.1 = '/' → (front.map Prod.fst ++ rest.map Prod.fst).head? ≠ some '/' ∧
      (front.map Prod.fst ++ rest.map Prod.fst).head? ≠ some '*') :
    ReportedBehind rest none (pos + 1) front := by
  refine h.step (by simp) fun span hspan _ => ?_
  obtain ⟨c, masked⟩ := x
  simp only [commentSpansFrom, head?_any] at hspan
  by_cases hc : c = '/'
  · simpa only [hmark hc, decide_false, Bool.false_eq_true, if_false, ite_self] using hspan
  · rwa [if_neg (by simp [hc])] at hspan

/-- A block opens at a `/*` in front of the reported comment. -/
theorem opens (h : ReportedBehind rest none pos (x :: front)) (hslash : rest.head?.map Prod.fst = some '/')
    (hx : x.1 = '/') (hnext : (front.map Prod.fst ++ rest.map Prod.fst).head? = some '*') :
    ∃ masked more, front = ('*', masked) :: more ∧ ReportedBehind rest (some pos) (pos + 2) more := by
  obtain ⟨c, masked⟩ := x
  obtain rfl : c = '/' := hx
  cases front with
  | nil =>
    rw [List.map_nil, List.nil_append, List.head?_map, hslash] at hnext
    simp at hnext
  | cons y more =>
    obtain ⟨d, masked'⟩ := y
    obtain rfl : d = '*' := by simpa using hnext
    have hmasked : masked = false := by simpa using (List.isChain_cons_cons.1 h.strings).1
    refine ⟨masked', more, rfl, h.mark (by simp) fun span hspan _ => ?_⟩
    simpa [commentSpansFrom, hmasked] using hspan

/-- The block goes on behind a character that does not close it. -/
theorem inside (h : ReportedBehind rest (some start) pos (x :: front))
    (hclose : ¬ (x.1 = '*' ∧ (front.map Prod.fst ++ rest.map Prod.fst).head? = some '/')) :
    ReportedBehind rest (some start) (pos + 1) front := by
  refine h.step (fun s hs => Nat.lt_succ_of_lt (h.isAbove s hs)) fun span hspan _ => ?_
  simp only [commentSpansFrom, head?_any] at hspan
  rwa [if_neg (by simpa using hclose)] at hspan

/-- The block closes in front of the reported comment. -/
theorem closes (h : ReportedBehind rest (some start) pos (x :: front)) (hx : x.1 = '*')
    (hnext : (front.map Prod.fst ++ rest.map Prod.fst).head? = some '/') :
    ∃ masked more, front = ('/', masked) :: more ∧ ReportedBehind rest none (pos + 2) more := by
  have hspans {span : Span} (hspan : span ∈ commentSpansFrom 0 (some start) pos (x :: (front ++ rest)))
      (hstart : span.start = pos + 1 + front.length) :
      span ∈ commentSpansFrom 1 none (pos + 1) (front ++ rest) := by
    simp only [commentSpansFrom, head?_any, hx, hnext, decide_true, Bool.and_self, if_true] at hspan
    rcases List.mem_cons.1 hspan with rfl | hspan
    · exact absurd (h.isAbove start rfl) (by simp only at hstart; omega)
    · exact hspan
  cases front with
  | nil =>
    obtain ⟨span, hspan, hstart⟩ := h.reported
    rcases start_of_mem_commentSpansFrom (hspans hspan (by simpa using hstart)) with heq | hle
    · simp at heq
    · simp at hle hstart
      omega
  | cons y more =>
    obtain ⟨d, masked⟩ := y
    obtain rfl : d = '/' := by simpa using hnext
    refine ⟨masked, more, rfl, h.mark (by simp) fun span hspan hstart => ?_⟩
    have hmem := hspans hspan (by rw [hstart, List.length_cons]; omega)
    simpa only [List.cons_append, commentSpansFrom] using hmem

/-- A block that is open closes in front of the reported comment. -/
theorem closesBlock (h : ReportedBehind rest (some start) pos front) {rest' : Line}
    (hhead : rest.head?.map Prod.fst = rest'.head?) :
    closesBlock (front.map Prod.fst ++ rest') = true := by
  induction front generalizing pos with
  | nil => exact absurd h.eq_none_of_nil (by simp)
  | cons x front ih =>
    have hnext : (front.map Prod.fst ++ rest.map Prod.fst).head? =
        (front.map Prod.fst ++ rest').head? := by
      cases front with
      | nil => simpa using hhead
      | cons y front => rfl
    rw [List.map_cons, List.cons_append, closesBlock_cons (h.sameLine x List.mem_cons_self), ← hnext]
    by_cases hclose : x.1 = '*' ∧ (front.map Prod.fst ++ rest.map Prod.fst).head? = some '/'
    · rw [decide_eq_true hclose, Bool.true_or]
    · rw [ih (h.inside hclose), Bool.or_true]

/-- Up to a reported comment the line without comments does not depend on what follows, unless a string
holds a `/*`. -/
theorem stripCommentsFrom_congr (h : ReportedBehind rest opened pos front)
    {rest' : List (Char × Bool)} (hhead : rest.head? = rest'.head?)
    (hslash : rest.head?.map Prod.fst = some '/') (hline : '\n' ∉ rest.map Prod.fst)
    (hline' : '\n' ∉ rest'.map Prod.fst)
    (hrest : stripComments (rest.map Prod.fst) = stripComments (rest'.map Prod.fst)) :
    stripCommentsFrom opened.isSome (front.map Prod.fst ++ rest.map Prod.fst) =
      stripCommentsFrom opened.isSome (front.map Prod.fst ++ rest'.map Prod.fst) := by
  -- a mark takes two characters, so the induction is on the length of the front
  induction hn : front.length using Nat.strong_induction_on generalizing front opened pos with
  | _ n ih =>
  cases front with
  | nil => rw [h.eq_none_of_nil]; exact hrest
  | cons x front =>
    have hsame : (front.map Prod.fst ++ rest'.map Prod.fst).head? =
        (front.map Prod.fst ++ rest.map Prod.fst).head? := by
      cases front with
      | nil => simp [List.head?_map, hhead]
      | cons y front => rfl
    rw [List.length_cons] at hn
    rw [List.map_cons, List.cons_append, List.cons_append]
    generalize hnext : (front.map Prod.fst ++ rest.map Prod.fst).head? = next at hsame
    cases opened with
    | none =>
      rw [Option.isSome_none]
      by_cases hline₂ : x.1 = '/' ∧ next = some '/'
      · have hnone {more : Line} (hmore : '\n' ∉ more) : '\n' ∉ front.map Prod.fst ++ more := by
          intro hbreak
          rcases List.mem_append.1 hbreak with hbreak | hbreak
          · obtain ⟨y, hy, heq⟩ := List.mem_map.1 hbreak
            exact h.sameLine y (List.mem_cons_of_mem _ hy) heq
          · exact hmore hbreak
        rw [hline₂.1, stripCommentsFrom_line (hnext.trans hline₂.2) (hnone hline),
          stripCommentsFrom_line (hsame.trans hline₂.2) (hnone hline')]
      · by_cases hblock : x.1 = '/' ∧ next = some '*'
        · obtain ⟨masked, more, rfl, hmore⟩ := h.opens hslash hblock.1 (hnext.trans hblock.2)
          have hcloses {cells : List (Char × Bool)} (hcells : rest.head? = cells.head?) :
              BranchTally.closesBlock (more.map Prod.fst ++ cells.map Prod.fst) = true :=
            hmore.closesBlock (by rw [hcells, List.head?_map])
          rw [List.map_cons, List.cons_append, List.cons_append, hblock.1,
            stripCommentsFrom_block (hcloses rfl), stripCommentsFrom_block (hcloses hhead)]
          exact ih more.length (by rw [List.length_cons] at hn; omega) hmore rfl
        · have hmark (hx : x.1 = '/') : next ≠ some '/' ∧ next ≠ some '*' :=
            ⟨fun e => hline₂ ⟨hx, e⟩, fun e => hblock ⟨hx, e⟩⟩
          rw [stripCommentsFrom_code (hnext ▸ hmark), stripCommentsFrom_code (hsame ▸ hmark)]
          exact congrArg _ (ih front.length (by omega) (h.code (hnext ▸ hmark)) rfl)
    | some start =>
      rw [Option.isSome_some]
      by_cases hclose : x.1 = '*' ∧ next = some '/'
      · obtain ⟨masked, more, rfl, hmore⟩ := h.closes hclose.1 (hnext.trans hclose.2)
        rw [List.map_cons, List.cons_append, List.cons_append, hclose.1]
        exact ih more.length (by rw [List.length_cons] at hn; omega) hmore rfl
      · have hopen (hx : x.1 = '*') : next ≠ some '/' := fun e => hclose ⟨hx, e⟩
        rw [stripCommentsFrom_inside (hnext ▸ hopen), stripCommentsFrom_inside (hsame ▸ hopen)]
        exact ih front.length (by omega) (h.inside (hnext ▸ hclose)) rfl

end ReportedBehind

end BranchTally
