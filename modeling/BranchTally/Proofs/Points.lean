-- SUMMARY: What a collector makes of a line is a construct of its own family for a function around the line or an operator of some function of the map; only the condition of a ternary is reported from the line below it.
import BranchTally.Proofs.Kinds
import BranchTally.Proofs.Ownership

/-!
# Points of one line

Each collector is given the function that owns its line. The constructs that it makes belong to one family
and stay with functions around the line; the operators of a condition go to the function of the line where
the condition began, and that may have ended since. There is one lemma for each collector, and what is
known of points is read off their cases.
-/

namespace BranchTally

/-- The point lies on a line and is owned by a function of the map. -/
def Point.LiesOn (ctx : Ownership) (number : Int) (p : Point) : Prop :=
  p.line = number ∧ ctx.HasKey p.owner

/-- The points that a collector of a family may make of a line: constructs of the family for functions
around the line, and operators for any function of the map. -/
inductive Point.MadeOn (ctx : Ownership) (family : Family) (number : Int) : Point → Prop where
  | construct {kind : Kind} {owner : Int} (hfamily : kind.family = family)
      (howner : ctx.Holds number owner) : MadeOn ctx family number ⟨number, kind, owner⟩
  | operator {op : Logical} {owner : Int} (howner : ctx.HasKey owner) :
      MadeOn ctx family number ⟨number, op.kind, owner⟩

section

variable {m : BoundaryMap} {p : Point} {f : Focus} {family : Family} {number owner : Int}

namespace Point.MadeOn

theorem liesOn (h : p.MadeOn (Ownership.of m) family number) : p.LiesOn (Ownership.of m) number := by
  cases h with
  | construct _ howner => exact ⟨rfl, howner.hasKey⟩
  | operator howner => exact ⟨rfl, howner⟩

theorem family_eq {ctx : Ownership} (h : p.MadeOn ctx family number) :
    p.kind.family = family ∨ p.kind.family = .shortCircuit := by
  cases h with
  | construct hfamily _ => exact Or.inl hfamily
  | operator _ => exact Or.inr (Logical.family_kind _)

theorem family_ne {ctx : Ownership} {other : Family} (h : p.MadeOn ctx family number)
    (hfamily : family ≠ other) (hoperator : .shortCircuit ≠ other) : p.kind.family ≠ other := by
  rcases h.family_eq with h | h <;> rw [h]
  · exact hfamily
  · exact hoperator

end Point.MadeOn

theorem mem_getD_map {α β : Type} {o : Option α} {g : α → List β} {x : β} :
    x ∈ (o.map g).getD [] ↔ ∃ a, o = some a ∧ x ∈ g a := by
  cases o <;> simp

/-! ## Control structures -/

theorem keyOr_cases {motive : Int → Prop} {key : Option Int} {default : Int}
    (hkey : ∀ k, key = some k → motive k) (hdefault : motive default) :
    motive (keyOr key default) := by
  unfold keyOr
  split
  · split
    · exact hdefault
    · exact hkey _ rfl
  · exact hdefault

theorem hasKey_controlOwner (number : Int) (howner : (Ownership.of m).HasKey owner) :
    (Ownership.of m).HasKey (controlOwner (Ownership.of m) number owner) :=
  keyOr_cases (fun _ h => Ownership.hasKey_of_controlOwner? h) howner

theorem holds_controlOwner (howner : (Ownership.of m).Holds number owner) :
    (Ownership.of m).Holds number (controlOwner (Ownership.of m) number owner) :=
  keyOr_cases (fun _ h => Ownership.holds_of_controlOwner? h) howner

theorem madeOn_of_mem_operatorPoints {ctx : Ownership} {line : Line} {h : Header}
    (howner : ctx.HasKey owner) (hp : p ∈ operatorPoints line h number owner) :
    p.MadeOn ctx family number := by
  obtain ⟨o, -, rfl⟩ := List.mem_map.1 hp
  exact .operator howner

theorem madeOn_of_mem_headerPoints {kind : Kind} {line : Line} {h : Header}
    (hkind : kind.family = .control) (howner : (Ownership.of m).Holds number owner)
    (hp : p ∈ headerPoints kind line number owner h) : p.MadeOn (Ownership.of m) .control number := by
  rcases List.mem_cons.1 hp with rfl | hp
  · exact .construct hkind howner
  · exact madeOn_of_mem_operatorPoints howner.hasKey hp

theorem madeOn_of_mem_ifPoints {line : Line} {h : Header}
    (howner : (Ownership.of m).Holds number owner)
    (hp : p ∈ ifPoints (Ownership.of m) line number h owner) :
    p.MadeOn (Ownership.of m) .control number := by
  have hhost := holds_controlOwner howner
  rcases List.mem_cons.1 hp with rfl | hp
  · exact .construct rfl hhost
  · obtain ⟨o, -, rfl⟩ := List.mem_map.1 hp
    refine .operator ?_
    -- an operator goes to the callback behind the first arrow, and else to the host
    dsimp only
    split
    · exact hhost.hasKey
    · split
      · next callback hcallback =>
        split
        · exact Ownership.hasKey_of_callbackOn? hcallback
        · exact hhost.hasKey
      · exact hhost.hasKey

theorem madeOn_of_mem_controlPoints {line : Line} (howner : (Ownership.of m).Holds number owner)
    (hp : p ∈ controlPoints (Ownership.of m) line number (Headers.of line) owner) :
    p.MadeOn (Ownership.of m) .control number := by
  have hhost := holds_controlOwner howner
  simp only [controlPoints, List.mem_append, mem_getD_map] at hp
  rcases hp with (((((((⟨h, -, hp⟩ | ⟨h, -, hp⟩) | ⟨h, -, hp⟩) | ⟨h, -, hp⟩) | ⟨h, -, hp⟩) |
    ⟨h, -, hp⟩) | ⟨h, -, hp⟩) | hp) | ⟨h, -, hp⟩
  · exact madeOn_of_mem_ifPoints howner hp
  · exact madeOn_of_mem_headerPoints rfl howner hp
  · rcases List.mem_cons.1 hp with rfl | hp
    · exact .construct (family_forKind line) hhost
    · split at hp
      · exact madeOn_of_mem_operatorPoints hhost.hasKey hp
      · simp at hp
  · exact madeOn_of_mem_headerPoints rfl hhost hp
  · obtain rfl := List.mem_singleton.1 hp
    exact .construct rfl howner
  · exact madeOn_of_mem_operatorPoints howner.hasKey hp
  · exact madeOn_of_mem_headerPoints rfl hhost hp
  · split at hp
    · obtain rfl := List.mem_singleton.1 hp
      exact .construct rfl howner
    · simp at hp
  · exact madeOn_of_mem_headerPoints rfl howner hp

/-! ## Ternaries, chainings and operators outside conditions -/

theorem madeOn_of_mem_pointsAt {ctx : Ownership} {kind : Kind} {positions : List Nat}
    (hkind : kind.family = family) (howner : ctx.Holds number owner)
    (hp : p ∈ pointsAt number kind owner positions) : p.MadeOn ctx family number := by
  obtain ⟨i, -, rfl⟩ := List.mem_map.1 hp
  exact .construct hkind howner

theorem madeOn_of_mem_logicalPoints {ctx : Ownership} {text : Line} (howner : ctx.HasKey owner)
    (hp : p ∈ logicalPoints text number owner) : p.MadeOn ctx family number := by
  obtain ⟨op, -, hp⟩ := List.mem_flatMap.1 hp
  obtain ⟨i, -, rfl⟩ := List.mem_map.1 hp
  exact .operator howner

theorem number_of_up? {f above : Focus} (h : f.up? = some above) : above.number = f.number - 1 := by
  unfold Focus.up? at h
  split at h
  · simp at h
  · cases h
    rfl

/-- The points of a ternary condition are made on a line above that is such a condition. -/
theorem madeOn_above_of_mem_conditionAbovePoints (howner : (Ownership.of m).HasKey owner)
    (hp : p ∈ conditionAbovePoints f owner (Ownership.of m).innermost?) :
    ∃ above, f.up? = some above ∧ isTernaryCondition above = true ∧
      p.MadeOn (Ownership.of m) .shortCircuit above.number := by
  unfold conditionAbovePoints at hp
  split at hp
  · next above habove =>
    split at hp
    · next hcondition =>
      have hkey : (Ownership.of m).HasKey
          (keyOr ((Ownership.of m).innermost? above.number) owner) :=
        keyOr_cases (fun _ h => Ownership.hasKey_of_innermost? h) howner
      exact ⟨above, habove, hcondition, madeOn_of_mem_logicalPoints hkey hp⟩
    · simp at hp
  · simp at hp

/-- Ternaries and their conditions make points of no other family. -/
theorem family_ne_of_mem_ternaryPoints {other : Family} (howner : (Ownership.of m).Holds f.number owner)
    (hp : p ∈ ternaryPoints f owner (Ownership.of m).innermost?) (hconditional : .conditional ≠ other)
    (hoperator : .shortCircuit ≠ other) : p.kind.family ≠ other := by
  simp only [ternaryPoints, List.mem_append] at hp
  rcases hp with (hp | hp) | hp
  · split at hp
    · simp at hp
    · obtain ⟨above, -, -, h⟩ := madeOn_above_of_mem_conditionAbovePoints howner.hasKey hp
      exact h.family_ne hoperator hoperator
  · exact (madeOn_of_mem_pointsAt rfl howner hp).family_ne hconditional hoperator
  · exact (madeOn_of_mem_pointsAt rfl howner hp).family_ne hconditional hoperator

/-- The points of a ternary condition lie on the line above its question mark. -/
theorem liesOn_of_mem_conditionAbovePoints (howner : (Ownership.of m).HasKey owner)
    (hp : p ∈ conditionAbovePoints f owner (Ownership.of m).innermost?) :
    p.LiesOn (Ownership.of m) (f.number - 1) := by
  obtain ⟨above, habove, -, h⟩ := madeOn_above_of_mem_conditionAbovePoints howner hp
  exact number_of_up? habove ▸ h.liesOn

theorem hasKey_expressionOwner {ctx : Ownership} {line : Line} {position : Int}
    (howner : ctx.HasKey owner) : ctx.HasKey (expressionOwner ctx line number position owner) := by
  unfold expressionOwner
  split
  · exact howner
  · split
    · exact howner
    · split
      · exact howner
      · dsimp only
        split
        · next host hhost => exact ⟨host, (List.mem_filter.1 (mem_of_bestBy hhost)).1, rfl⟩
        · exact howner

theorem hasKey_conditionOwner {line : Line} (howner : (Ownership.of m).HasKey owner) :
    (Ownership.of m).HasKey (conditionOwner (Ownership.of m) number line owner) := by
  refine keyOr_cases (fun k hk => ?_) howner
  split at hk
  · exact Ownership.hasKey_of_controlOwner? hk
  · exact Ownership.hasKey_of_innermost? hk

/-- A continued condition reports all operators of the line, with one owner, or nothing. -/
theorem continuationPoints_eq (m : BoundaryMap) (f : Focus) (headers : Headers) (markup : Markup)
    {owner : Int} (howner : (Ownership.of m).HasKey owner) :
    continuationPoints (Ownership.of m) f headers markup owner = [] ∨
      mayContinue f headers markup = true ∧ ∃ key, (Ownership.of m).HasKey key ∧
        continuationPoints (Ownership.of m) f headers markup owner =
          logicalPoints f.line f.number key := by
  unfold continuationPoints
  split
  · exact Or.inl rfl
  · next above rest hbefore =>
    simp only [continuationPointsBelow]
    split
    · exact Or.inl rfl
    · next hopen =>
      have hmay : mayContinue f headers markup = true := by
        cases h : mayContinue f headers markup <;> simp_all
      split
      · exact Or.inr ⟨hmay, _, hasKey_conditionOwner howner, rfl⟩
      · split
        · exact Or.inl rfl
        · exact Or.inr ⟨hmay, _, hasKey_conditionOwner howner, rfl⟩

/-- Expressions and continued conditions make operators only. -/
theorem madeOn_of_mem_expressions {headers : Headers} {markup : Markup}
    (howner : (Ownership.of m).HasKey owner)
    (hp : p ∈ if (continuationPoints (Ownership.of m) f headers markup owner).isEmpty then
        expressionPoints (Ownership.of m) f headers markup owner
      else continuationPoints (Ownership.of m) f headers markup owner) :
    p.MadeOn (Ownership.of m) .shortCircuit f.number := by
  split at hp
  · simp only [expressionPoints] at hp
    split at hp
    · simp at hp
    · obtain ⟨op, -, hp⟩ := List.mem_flatMap.1 hp
      obtain ⟨i, -, rfl⟩ := List.mem_map.1 hp
      exact .operator (hasKey_expressionOwner howner)
  · rcases continuationPoints_eq m f headers markup howner with hnone | ⟨-, key, hkey, hsome⟩
    · simp [hnone] at hp
    · rw [hsome] at hp
      exact madeOn_of_mem_logicalPoints hkey hp

/-! ## Defaults -/

theorem signaturePoints_eq (lines : List Line) (line : Line) (f : Focus) (owner : Int)
    (boundary : Boundary) :
    ∃ count, signaturePoints lines line f owner boundary = defaultPoints count f.number owner := by
  have hnone : ∃ count, ([] : List Point) = defaultPoints count f.number owner := ⟨0, rfl⟩
  simp only [signaturePoints]
  split
  · exact hnone
  split
  · exact hnone
  split
  · exact hnone
  split
  · exact hnone
  · exact ⟨_, rfl⟩

theorem arrowPoints_eq (line : Line) (f : Focus) (owner : Int) :
    ∃ count, arrowPoints line f owner = defaultPoints count f.number owner := by
  unfold arrowPoints
  split
  · exact ⟨0, rfl⟩
  · exact ⟨_, rfl⟩

/-- The parameters of a line make points of defaults only, all with one owner around the line. -/
theorem parameterPoints_eq (lines : List Line) (howner : (Ownership.of m).Holds f.number owner) :
    ∃ count key, (Ownership.of m).Holds f.number key ∧
      parameterPoints (Ownership.of m) lines f owner = defaultPoints count f.number key := by
  have hnone : ∃ count key, (Ownership.of m).Holds f.number key ∧
      ([] : List Point) = defaultPoints count f.number key := ⟨0, owner, howner, rfl⟩
  have hsignature (b : Boundary) : ∃ count key, (Ownership.of m).Holds f.number key ∧
      signaturePoints lines (stripComments f.line) f owner b =
        defaultPoints count f.number key := by
    obtain ⟨count, h⟩ := signaturePoints_eq lines (stripComments f.line) f owner b
    exact ⟨count, owner, howner, h⟩
  simp only [parameterPoints]
  split
  · split
    · split
      · exact hsignature _
      · exact hnone
    · obtain ⟨count, h⟩ := arrowPoints_eq (stripComments f.line) f
        ((Ownership.of m).arrowOwner f.number owner).1
      exact ⟨count, _, Ownership.holds_arrowOwner howner, h⟩
  · split
    · exact hsignature _
    · exact hnone

theorem destructuringPoints_eq (f : Focus) (owner : Int) (boundary : Option Boundary) :
    ∃ count, destructuringPoints f owner boundary = defaultPoints count f.number owner := by
  unfold destructuringPoints
  split
  · exact ⟨0, rfl⟩
  · dsimp only
    split
    · exact ⟨0, rfl⟩
    · exact ⟨_, rfl⟩

/-- The defaults of a line are those of its parameters, or else of its destructuring declaration, and
have one owner around the line. -/
theorem defaults_eq (lines : List Line) (howner : (Ownership.of m).Holds f.number owner) :
    ∃ count key, (Ownership.of m).Holds f.number key ∧
      (if (parameterPoints (Ownership.of m) lines f owner).isEmpty then
        destructuringPoints f owner ((Ownership.of m).boundaries.get? owner)
      else parameterPoints (Ownership.of m) lines f owner) = defaultPoints count f.number key := by
  split
  · obtain ⟨count, h⟩ := destructuringPoints_eq f owner ((Ownership.of m).boundaries.get? owner)
    exact ⟨count, owner, howner, h⟩
  · exact parameterPoints_eq lines howner

theorem madeOn_of_mem_defaultPoints {ctx : Ownership} {count : Nat} (howner : ctx.Holds number owner)
    (hp : p ∈ defaultPoints count number owner) : p.MadeOn ctx .default number := by
  obtain rfl := List.eq_of_mem_replicate hp
  exact .construct rfl howner

end

end BranchTally
