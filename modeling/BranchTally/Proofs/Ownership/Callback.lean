-- SUMMARY: Operators around a callback that opens on their line: which of them go to the function around the line, and how far the comments of the line shift the border.
import Mathlib
import BranchTally.Proofs.Ownership.Nesting
import BranchTally.Proofs.Redaction.Blank
import BranchTally.Proofs.Redaction.Strip

/-!
# Operators around a callback

In `ok = a && items.map(x => x || y)` the `&&` runs in the function around the line and the `||` in the
callback. The border between the two is the first `=>` or `function (` of the line. Operators are found
in the full line, the border in the line without comments, so a comment in front of the border brings it
forward by its own length.
-/

namespace BranchTally

open Text

/-! ## The border -/

/-- The position of the first `=>` or `function (` in live code. -/
def liveCallbackStart? (line : Line) : Option Nat :=
  (List.range line.length).find? fun i => opensCallback (line.drop i) && (LiveMap.of line).isLive i

/-- The position stands in front of the border, if there is one. -/
def isInFront (border : Option Nat) (i : Nat) : Bool := border.any (i < ·)

theorem callbackStart?_eq_find? (line : Line) :
    callbackStart? line = (List.range line.length).find? fun i => opensCallback (line.drop i) := by
  induction line with
  | nil => rfl
  | cons c line ih =>
    have hlater : ((List.range line.length).map Nat.succ).find?
        (fun i => opensCallback ((c :: line).drop i)) = (callbackStart? line).map (· + 1) := by
      rw [List.find?_map, ih]
      rfl
    rw [List.length_cons, List.range_succ_eq_map, List.find?_cons, hlater, callbackStart?,
      List.drop_zero]
    cases opensCallback (c :: line) <;> rfl

/-- On a line without quotes and slashes both searches find the same. -/
theorem liveCallbackStart?_of_unmarked {line : Line} (h : ∀ c ∈ line, isQuoting c = false ∧ c ≠ '/') :
    liveCallbackStart? line = callbackStart? (stripComments line) := by
  have hslash : '/' ∉ line := fun hmem => (h _ hmem).2 rfl
  have hmask : literalMask line = List.replicate line.length false :=
    literalMask_plain fun c hc => (h c hc).1
  rw [stripComments_of_not_mem hslash, callbackStart?_eq_find?, liveCallbackStart?]
  apply List.find?_congr
  intro i hi
  have hlive : (LiveMap.of line).isLive i = true := by
    simp [LiveMap.of, LiveMap.isLive, hmask, commentSpans_of_not_mem hslash, List.mem_range.1 hi]
  rw [hlive, Bool.and_true]

/-! ## Comments in front of the border -/

/-- A text is code and block comments; the second one is its code. -/
inductive HasCode : Line → Line → Prop
  | nil : HasCode [] []
  | code {c : Char} {text left : Line}
      (hslash : c = '/' → ∃ d ∈ text.head?, d ≠ '/' ∧ d ≠ '*') (h : HasCode text left) :
      HasCode (c :: text) (c :: left)
  | block {body text left : Line} (hclose : ¬ ['*', '/'] <:+: body) (hbreak : '\n' ∉ body)
      (h : HasCode text left) : HasCode ('/' :: '*' :: (body ++ '*' :: '/' :: text)) left

theorem HasCode.of_not_mem {text : Line} (h : '/' ∉ text) : HasCode text text := by
  induction text with
  | nil => exact .nil
  | cons c text ih =>
    obtain ⟨hc, htext⟩ := not_or.1 (List.mem_cons.not.1 h)
    exact .code (fun heq => absurd heq.symm hc) (ih htext)

theorem HasCode.append {text more left left' : Line} (h : HasCode text left)
    (hmore : HasCode more left') : HasCode (text ++ more) (left ++ left') := by
  induction h with
  | nil => exact hmore
  | code hslash _ ih =>
    refine .code (fun hc => ?_) ih
    obtain ⟨d, hd, hne⟩ := hslash hc
    exact ⟨d, List.mem_head?_append_of_mem_head? hd, hne⟩
  | block hclose hbreak _ ih =>
    rw [List.cons_append, List.cons_append, List.append_assoc, List.cons_append, List.cons_append]
    exact .block hclose hbreak ih

theorem HasCode.sublist {text left : Line} (h : HasCode text left) : left.Sublist text := by
  induction h with
  | nil => exact List.Sublist.refl _
  | code _ _ ih => exact ih.cons_cons _
  | @block body text left _ _ _ ih =>
    have htail : left.Sublist (body ++ '*' :: '/' :: text) :=
      ((ih.cons '/').cons '*').trans (List.sublist_append_right _ _)
    exact (htail.cons '*').cons '/'

theorem isChain_of_not_infix_close {body : Line} (hclose : ¬ ['*', '/'] <:+: body) :
    body.IsChain fun a b => ¬ (a = '*' ∧ b = '/') := by
  induction body with
  | nil => exact List.IsChain.nil
  | cons c body ih =>
    have hbody := ih fun h => hclose (h.trans (List.suffix_cons c body).isInfix)
    cases body with
    | nil => exact List.IsChain.singleton c
    | cons d body =>
      refine List.isChain_cons_cons.2 ⟨?_, hbody⟩
      rintro ⟨rfl, rfl⟩
      exact hclose ⟨[], body, rfl⟩

/-- A block comment is removed up to its first `*/`. -/
theorem stripCommentsFrom_block_append {body : Line} (hclose : ¬ ['*', '/'] <:+: body)
    (hbreak : '\n' ∉ body) (rest : Line) :
    stripCommentsFrom false ('/' :: '*' :: (body ++ '*' :: '/' :: rest)) =
      stripCommentsFrom false rest := by
  obtain ⟨hcloses, hstrip⟩ :=
    @stripCommentsFrom_blockContent _ rest (isChain_of_not_infix_close hclose) hbreak
  rw [stripCommentsFrom_block hcloses, hstrip]

/-- Without comments the code is left, whatever follows. -/
theorem HasCode.stripComments_append {text left : Line} (h : HasCode text left) (behind : Line) :
    stripComments (text ++ behind) = left ++ stripComments behind := by
  unfold stripComments
  induction h with
  | nil => rfl
  | @code c text left hslash _ ih =>
    rw [List.cons_append, stripCommentsFrom_code, ih, List.cons_append]
    intro hc
    obtain ⟨d, hd, hne⟩ := hslash hc
    rw [List.head?_append, Option.mem_def.1 hd]
    exact ⟨fun heq => hne.1 (Option.some.inj heq), fun heq => hne.2 (Option.some.inj heq)⟩
  | @block body text left hclose hbreak _ ih =>
    have happend : '/' :: '*' :: (body ++ '*' :: '/' :: text) ++ behind =
        '/' :: '*' :: (body ++ '*' :: '/' :: (text ++ behind)) := by simp
    rw [happend, stripCommentsFrom_block_append hclose hbreak, ih]

/-! ## Points on both sides of the border -/

/-- The points of the operators of a line: those in front of the border belong to `host`, the others to
`default`. -/
def pointsAround (f : Focus) (border : Option Nat) (host default : Int) : List Point :=
  Logical.all.flatMap fun op =>
    (findTokens f.line op.token).map fun (i : Nat) =>
      ⟨f.number, op.kind, if isInFront border i then host else default⟩

/-- Two borders make the same points if there is one function on both sides, or no operator stands
between them. -/
theorem pointsAround_eq_iff (f : Focus) (border border' : Option Nat) (host default : Int) :
    pointsAround f border host default = pointsAround f border' host default ↔
      host = default ∨
        ∀ op : Logical, ∀ i ∈ findTokens f.line op.token, isInFront border i = isInFront border' i := by
  have hside (i : Nat) : ((if isInFront border i then host else default) =
      if isInFront border' i then host else default) ↔
      host = default ∨ isInFront border i = isInFront border' i := by
    cases isInFront border i <;> cases isInFront border' i <;> simp [eq_comm]
  -- the points of one operator differ in their owners only
  have hpoint (op : Logical) (i : Nat) :
      (⟨f.number, op.kind, if isInFront border i then host else default⟩ : Point) =
        ⟨f.number, op.kind, if isInFront border' i then host else default⟩ ↔
      host = default ∨ isInFront border i = isInFront border' i := by
    rw [Point.mk.injEq, ← hside i]
    simp
  have hall : pointsAround f border host default = pointsAround f border' host default ↔
      ∀ op : Logical, ∀ i ∈ findTokens f.line op.token,
        host = default ∨ isInFront border i = isInFront border' i := by
    constructor
    · intro heq
      simp only [pointsAround, Logical.all, List.flatMap_cons, List.flatMap_nil,
        List.append_nil] at heq
      obtain ⟨hconj, hdisj⟩ := List.append_inj heq (by simp)
      intro op i hi
      cases op with
      | conj => exact (hpoint .conj i).1 (List.map_inj_left.1 hconj i hi)
      | disj => exact (hpoint .disj i).1 (List.map_inj_left.1 hdisj i hi)
    · intro h
      apply List.flatMap_congr
      intro op _
      apply List.map_congr_left
      exact fun i hi => (hpoint op i).2 (h op i hi)
  rw [hall]
  simp only [forall_or_left]

/-! ## Owners -/

/-- The first of the smallest functions of a list. -/
def firstSmallest? (l : List Owner) : Option Owner :=
  l.find? fun f => l.all fun g => f.boundary.size ≤ g.boundary.size

theorem bestBy_smaller (l : List Owner) : bestBy Owner.smaller l = firstSmallest? l :=
  bestBy_eq_find? Owner.smaller_iff l

namespace Ownership

/-- The functions around a line that do not start on it, in the order of the map. -/
def hosts (ctx : Ownership) (line : Int) : List Owner :=
  ctx.boundaries.owners.filter fun f => f.boundary.contains line && f.boundary.start ≠ line

variable {ctx : Ownership} {host : Owner}

/-- Where a function starts on the line, the operators in front of the border of the line without
comments belong to the host. -/
theorem expressionOwner_eq {number : Int} (hcallback : ctx.startingOn number ≠ [])
    (hhost : firstSmallest? (ctx.hosts number) = some host) (line : Line) (i : Nat) (default : Int) :
    expressionOwner ctx line number i default =
      if isInFront (callbackStart? line) i then host.key else default := by
  have hbest : bestBy Owner.smaller (ctx.hosts number) = some host := (bestBy_smaller _).trans hhost
  have hstarts : (ctx.startingOn number).isEmpty = false := by simpa using hcallback
  rw [hosts] at hbest
  simp only [expressionOwner, hstarts, Bool.false_eq_true, if_false, hbest]
  cases callbackStart? line with
  | none => rfl
  | some start =>
    by_cases hi : (start : Int) ≤ i
    · have hbehind : isInFront (some start) i = false := decide_eq_false (by omega)
      rw [hbehind, if_neg Bool.false_ne_true]
      exact if_pos hi
    · have hfront : isInFront (some start) i = true := decide_eq_true (by omega)
      rw [hfront, if_pos rfl]
      exact if_neg hi

theorem expressionPoints_eq_pointsAround {f : Focus} {headers : Headers} {markup : Markup}
    {default : Int} (hpoints : expressionPoints ctx f headers markup default ≠ [])
    (hcallback : ctx.startingOn f.number ≠ [])
    (hhost : firstSmallest? (ctx.hosts f.number) = some host) :
    expressionPoints ctx f headers markup default =
      pointsAround f (callbackStart? (stripComments f.line)) host.key default := by
  unfold expressionPoints at hpoints ⊢
  dsimp only at hpoints ⊢
  split at hpoints
  · exact absurd rfl hpoints
  · next hgate =>
    rw [if_neg hgate, pointsAround]
    simp only [expressionOwner_eq hcallback hhost]

/-- On a line inside a function that opens a callback, the operators in front of the first live `=>` or
`function (` belong to the smallest function around the line, and the others to the function of the line,
if these are one function or no operator stands between that sign and the one that is found in the line
without comments. On a line without quotes and slashes none does. Where both searches find one sign, the
operators between are those that are no further in front of it than the comments in front of it are
long. -/
theorem expressionPoints_eq_pointsAround_iff {f : Focus} {headers : Headers} {markup : Markup}
    {default : Int} (hpoints : expressionPoints ctx f headers markup default ≠ [])
    (hcallback : ∃ g ∈ ctx.boundaries.owners, g.boundary.start = f.number)
    (haround : ∃ g ∈ ctx.boundaries.owners,
      g.boundary.contains f.number = true ∧ g.boundary.start ≠ f.number) :
    ∃ host, firstSmallest? (ctx.hosts f.number) = some host ∧
      (expressionPoints ctx f headers markup default =
          pointsAround f (liveCallbackStart? f.line) host.key default ↔
        host.key = default ∨ ∀ op : Logical, ∀ i ∈ findTokens f.line op.token,
          isInFront (callbackStart? (stripComments f.line)) i =
            isInFront (liveCallbackStart? f.line) i) ∧
      ((∀ c ∈ f.line, isQuoting c = false ∧ c ≠ '/') →
        expressionPoints ctx f headers markup default =
          pointsAround f (liveCallbackStart? f.line) host.key default) ∧
      ∀ front code behind : Line, f.line = front ++ behind → HasCode front code →
        callbackStart? (code ++ stripComments behind) = some code.length →
        liveCallbackStart? f.line = some front.length →
        (expressionPoints ctx f headers markup default =
            pointsAround f (liveCallbackStart? f.line) host.key default ↔
          host.key = default ∨ ∀ op : Logical, ∀ i ∈ findTokens f.line op.token,
            i < front.length → i < code.length) := by
  have hstarting : ctx.startingOn f.number ≠ [] := by
    obtain ⟨g, hg, hstart⟩ := hcallback
    exact List.ne_nil_of_mem (List.mem_filter.2 ⟨hg, decide_eq_true hstart⟩)
  have hhosts : ctx.hosts f.number ≠ [] := by
    obtain ⟨g, hg, hholds, hstart⟩ := haround
    exact List.ne_nil_of_mem (List.mem_filter.2 ⟨hg, by simp [hholds, hstart]⟩)
  obtain ⟨host, hbest⟩ := exists_bestBy Owner.smaller hhosts
  have hhost : firstSmallest? (ctx.hosts f.number) = some host := (bestBy_smaller _).symm.trans hbest
  have hiff := pointsAround_eq_iff f (callbackStart? (stripComments f.line))
    (liveCallbackStart? f.line) host.key default
  rw [← expressionPoints_eq_pointsAround hpoints hstarting hhost] at hiff
  refine ⟨host, hhost, hiff, ?_, ?_⟩
  · intro hunmarked
    rw [liveCallbackStart?_of_unmarked hunmarked]
    exact expressionPoints_eq_pointsAround hpoints hstarting hhost
  · intro front code behind hline hcode hborder hlive
    have hstripped : callbackStart? (stripComments f.line) = some code.length := by
      rw [hline, hcode.stripComments_append, hborder]
    have hside (i : Nat) : isInFront (some code.length) i = isInFront (some front.length) i ↔
        (i < front.length → i < code.length) := by
      have hlength : code.length ≤ front.length := hcode.sublist.length_le
      simp only [isInFront, Option.any_some, decide_eq_decide]
      exact ⟨Iff.mpr, fun h => ⟨fun hi => lt_of_lt_of_le hi hlength, h⟩⟩
    rw [hiff, hlive, hstripped]
    simp only [hside]

theorem expressionPoints_eq_pointsAround_iff_comment_between :
    let line := "ok = a && b /* and */ && xs.map(x => y || z);".toList
    let m : BoundaryMap := ⟨[(1, ⟨1, 3, by decide⟩), (2, ⟨2, 2, by decide⟩)], by decide⟩
    let f : Focus := ⟨2, [], line, []⟩
    expressionPoints (Ownership.of m) f (Headers.of line) (Markup.of f (Headers.of line)) 2 ≠ [] ∧
      (∃ g ∈ m.owners, g.boundary.start = f.number) ∧
      (∃ g ∈ m.owners, g.boundary.contains f.number = true ∧ g.boundary.start ≠ f.number) ∧
      expressionPoints (Ownership.of m) f (Headers.of line) (Markup.of f (Headers.of line)) 2 =
        pointsAround f (liveCallbackStart? line) 1 2 := by
  intro line m f
  have hpoints : expressionPoints (Ownership.of m) f (Headers.of line)
      (Markup.of f (Headers.of line)) 2 ≠ [] := by decide +kernel
  have hcallback : ∃ g ∈ m.owners, g.boundary.start = f.number := by decide
  have haround : ∃ g ∈ m.owners, g.boundary.contains f.number = true ∧
      g.boundary.start ≠ f.number := by decide
  obtain ⟨host, hhost, -, -, hcomment⟩ :=
    expressionPoints_eq_pointsAround_iff hpoints hcallback haround
  obtain rfl : host = ⟨1, ⟨1, 3, by decide⟩⟩ := Option.some.inj (hhost.symm.trans (by decide))
  have hfront : HasCode "ok = a && b ".toList "ok = a && b ".toList := .of_not_mem (by decide)
  have hbehind : HasCode "/* and */ && xs.map(x ".toList " && xs.map(x ".toList :=
    @HasCode.block " and ".toList _ _ (by decide) (by decide) (.of_not_mem (by decide))
  have hcode : HasCode "ok = a && b /* and */ && xs.map(x ".toList "ok = a && b  && xs.map(x ".toList :=
    hfront.append hbehind
  have hiff := hcomment _ _ "=> y || z);".toList rfl hcode (by decide +kernel) (by decide +kernel)
  refine ⟨hpoints, hcallback, haround, hiff.2 (Or.inr fun op => ?_)⟩
  cases op <;> decide +kernel

/-- An operator that stands in front of the callback by less than a comment is long goes to the
callback. -/
theorem expressionPoints_ne_pointsAround_comment_in_front :
    let line := "  return /* checked above */ a && xs.map(x => x.ok);".toList
    let m : BoundaryMap := ⟨[(1, ⟨1, 3, by decide⟩), (2, ⟨2, 2, by decide⟩)], by decide⟩
    let f : Focus := ⟨2, ["function f(a, xs) \x7b".toList], line, ["\x7d".toList]⟩
    (Ownership.of m).hosts f.number = [⟨1, ⟨1, 3, by decide⟩⟩] ∧
      expressionPoints (Ownership.of m) f (Headers.of line) (Markup.of f (Headers.of line)) 2 =
        [⟨2, Logical.conj.kind, 2⟩] ∧
      pointsAround f (liveCallbackStart? line) 1 2 = [⟨2, Logical.conj.kind, 1⟩] := by
  decide +kernel

end Ownership

end BranchTally
