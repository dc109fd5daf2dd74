/-
Module: SelectTree.Proofs.Grammar.Orderly.Leaf
Purpose: the parsers of the grammar that apply no other rule go forward.
Main exports: Grammar.orderly_table, Grammar.orderly_frame, Grammar.orderly_optionHints
-/
import SelectTree.Proofs.Grammar.Orderly

namespace SelectTree.Grammar

open SelectTree.Parser

variable {bound : Nat}

/-! ### Operands -/

/-- A braced constant that is read has consumed at least its opening brace. -/
theorem orderly_temporalConstant : Orderly bound .start temporalConstant fun _ => .behind := by
  refine .follow (.expect _ _) fun opening => ?_
  refine .bind .peek fun tag => ?_
  split
  · split
    · refine .bind (.skip 1 (by decide)) fun _ => ?_
      refine .bind .peek fun literal => ?_
      split
      · split
        · refine .bind (.skip 1 (by decide)) fun _ => ?_
          split
          · split
            · exact .failAt _ rfl
            · exact .seq (.expect _ _) fun _ => .pure _ (.inl rfl)
          · exact .failAt _ rfl
        · exact .failHere _
      · exact .failHere _
    · exact .failAt _ rfl
  · exact .failAt _ rfl

/-- Cutting a conversion at its type only looks: no word is consumed. -/
theorem orderly_splitAtType (opening : Word) (label : String) :
    Orderly bound .start (splitAtType opening label) fun _ => .start := by
  refine .bind .remaining fun words => ?_
  split
  · exact .failAt _ rfl
  · exact .pure _ (.inl rfl)

/-- Keeping a type as written consumes no word either. -/
theorem orderly_typeText (opening : Word) (label part text : String) :
    Orderly bound .start (typeText opening label part text) fun _ => .start := by
  unfold typeText
  split
  · exact .failAt _ rfl
  · exact .pure _ (.inl rfl)

/-- A further part of a name is behind a dot and a name; without one nothing is consumed. -/
theorem orderly_nextPart : Orderly bound .start nextPart Lead.ofFound := by
  refine .checked ?_ ?_
  · exact .pure none (.inl rfl)
  · refine .bind .remaining fun words => ?_
    split
    · exact .bind (.skipAhead 0) fun _ => .failHere _
    · split
      · exact .pure none (.inl rfl)
      · split
        · exact .failAt _ rfl
        · next part _ => exact .bind (.skipAhead 1) fun _ => .pure (some part) (.inr rfl)

/-- What a name refers to is decided behind the name, and nothing more is consumed. -/
theorem orderly_reference (first : Word) (parts : List Identifier) :
    Orderly bound .start (reference first parts) fun _ => .start := by
  unfold reference
  split
  · exact .pure _ (.inl rfl)
  · exact .pure _ (.inl rfl)
  · exact .failAt _ rfl

/-- The dot and the star are there when this is called, but that is not needed to go forward. -/
theorem orderly_tableStar (first : Word) (parts : List Identifier) :
    Orderly bound .start (tableStar first parts) fun _ => .start := by
  refine .bind (.skip 2 (by decide)) fun _ => ?_
  split
  · exact .pure _ (.inl rfl)
  · exact .failAt _ rfl

/-! ### Columns -/

theorem orderly_sortDirection : Orderly bound .start sortDirection fun _ => .start := by
  refine .eatOr (.inl rfl) ?_
  exact .seq (.eatKeyword .ASC) fun _ => .pure _ (.inl rfl)

/-- The name of a collation is consumed only behind its keyword. -/
theorem orderly_collation : Orderly bound .start collation fun _ => .start := by
  refine .seq (.eatKeyword .COLLATE) fun collated => ?_
  cases collated with
  | false => exact .pure none (.inl rfl)
  | true =>
      refine .bind .peek fun next => ?_
      split
      · exact .bind (.skip 1 (by decide)) fun _ => .pure _ (.inl rfl)
      · exact .failHere _

/-- A side of a frame is a word. -/
theorem orderly_frameSide : Orderly bound .start frameSide fun _ => .behind := by
  refine .eatOr (.inr rfl) ?_
  refine .eatOr (.inr rfl) ?_
  exact .failHere _

/-- A bound of a frame takes a word in each of its three forms. -/
theorem orderly_frameBound : Orderly bound .start frameBound fun _ => .behind := by
  have side (convert : FrameSide → FrameBound) :
      Orderly bound .start (do return convert (← frameSide)) fun _ => .behind :=
    .bind orderly_frameSide fun _ => .pure _ (.inr rfl)
  refine .seq (.eatKeyword .UNBOUNDED) fun unbounded => ?_
  cases unbounded with
  | true => exact side .unbounded
  | false =>
      refine .seq (.eatKeyword .CURRENT) fun current => ?_
      cases current with
      | true => exact .bind (.expectKeyword .ROW) fun _ => .pure _ (.inr rfl)
      | false =>
          refine .bind .peek fun next => ?_
          split
          · split
            · next count _ =>
                split
                · exact .refuseAt _ rfl
                · exact .bind (.skip 1 (by decide)) fun _ => side (.offset count)
            · exact .failHere _
          · exact .failHere _

theorem orderly_frameUnit : Orderly bound .start frameUnit fun _ => .start := by
  refine .eatOr (.inl rfl) ?_
  refine .eatOr (.inl rfl) ?_
  exact .pure none (.inl rfl)

/-- A frame may be missing, so nothing is promised behind it. -/
theorem orderly_frame : Orderly bound .start frame fun _ => .start := by
  refine .bind orderly_frameUnit fun unit => ?_
  cases unit with
  | none => exact .pure none (.inl rfl)
  | some unit =>
      refine .seq (.eatKeyword .BETWEEN) fun between => ?_
      cases between with
      | false => exact .seq orderly_frameBound fun _ => .pure _ (.inl rfl)
      | true =>
          refine .seq orderly_frameBound fun lower => ?_
          refine .seq (.expectKeyword .AND) fun _ => ?_
          exact .seq orderly_frameBound fun _ => .pure _ (.inl rfl)

/-! ### Conditions -/

/-- Only the `NOT` of a negated predicate is consumed, not the keyword behind it. -/
theorem orderly_negation : Orderly bound .start negation fun _ => .start := by
  refine .bind (.check _) fun negated => ?_
  cases negated with
  | false => exact .pure false (.inl rfl)
  | true =>
      refine .bind .remaining fun words => ?_
      split
      · exact .bind (.skip 1 (by decide)) fun _ => .pure true (.inl rfl)
      · exact .bind (.skip 1 (by decide)) fun _ => .pure true (.inl rfl)
      · exact .bind (.skip 1 (by decide)) fun _ => .pure true (.inl rfl)
      · exact .pure false (.inl rfl)

theorem orderly_quantifier : Orderly bound .start quantifier fun _ => .start := by
  refine .eatOr (.inl rfl) ?_
  refine .eatOr (.inl rfl) ?_
  refine .eatOr (.inl rfl) ?_
  exact .pure none (.inl rfl)

/-! ### Sources -/

/-- The word of the side is there and is consumed without being looked at again. -/
theorem orderly_sideJoin (type : JoinType) :
    Orderly bound .ahead (sideJoin type) fun _ => .behind := by
  refine .follow (.skipAhead 0) fun _ => ?_
  refine .seq (.eatKeyword .OUTER) fun _ => ?_
  exact .seq (.expectKeyword .JOIN) fun _ => .pure type (.inl rfl)

/-- Where a join is found, its keywords are consumed. -/
theorem orderly_joinType : Orderly bound .start joinType Lead.ofFound := by
  have join (type : JoinType) :
      Orderly bound .start (do
        let _ ← expectKeyword .JOIN
        return some type) Lead.ofFound :=
    .bind (.expectKeyword .JOIN) fun _ => .pure (some type) (.inr rfl)
  have side (type : JoinType) :
      Orderly bound .ahead (do return some (← sideJoin type)) Lead.ofFound :=
    .bind (orderly_sideJoin type) fun type => .pure (some type) (.inr rfl)
  refine .ahead (.pure none (.inl rfl)) fun word => ?_
  rw [Option.map_some]
  split
  · exact .bind (.skipAhead 0) fun _ => .pure (some JoinType.inner) (.inr rfl)
  · exact .seq (.skipAhead 0) fun _ => join .inner
  · exact side .left
  · exact side .right
  · exact side .full
  · refine .seq (.skipAhead 0) fun _ => ?_
    refine .bind (.eatKeyword .APPLY) fun apply' => ?_
    cases apply' with
    | true => exact .pure (some JoinType.crossApply) (.inr rfl)
    | false => exact join .cross
  · refine .bind .remaining fun words => ?_
    split
    · exact .bind (.skipAhead 1) fun _ => .pure (some JoinType.outerApply) (.inr rfl)
    · exact .pure none (.inl rfl)
  · exact .pure none (.inl rfl)

theorem orderly_tablePart : Orderly bound .start tablePart Lead.ofFound := by
  refine .seq (.eat .dot) fun dot => ?_
  cases dot with
  | true => exact .bind (.identifier _) fun part => .pure (some part) (.inr rfl)
  | false => exact .pure none (.inl rfl)

/-- A table takes at least the first part of its name. -/
theorem orderly_table : Orderly bound .start table fun _ => .behind := by
  refine .bind .peek fun next => ?_
  split
  · refine .follow (.identifier _) fun name => ?_
    refine .bind (.many orderly_tablePart) fun others => ?_
    by_cases short : (name :: others).length ≤ 3
    · simp only [dif_pos short]
      exact .seq (.aliasName false) fun _ => .pure _ (.inl rfl)
    · simp only [dif_neg short]
      exact .failAt _ rfl
  · exact .failHere _

/-! ### Clauses and statements -/

theorem orderly_rowsWord : Orderly bound .start rowsWord fun _ => .behind := by
  refine .eatOr (.inr rfl) ?_
  refine .eatOr (.inr rfl) ?_
  exact .failHere _

/-- Hints are kept from the text of the words, which stay where they are. -/
theorem orderly_hintTexts (opening : Word) (texts : List String) :
    Orderly bound .start (hintTexts opening texts) fun _ => .start := by
  induction texts with
  | nil => exact .pure [] (.inl rfl)
  | cons text texts ih =>
      unfold hintTexts
      split
      · exact .failAt _ rfl
      · exact .bind ih fun _ => .pure _ (.inl rfl)

/-- The hints of a statement are behind their keyword and in their bracket. -/
theorem orderly_optionHints : Orderly bound .start optionHints fun _ => .behind := by
  refine .bind (.expectKeyword .OPTION) fun _ => ?_
  refine .bracketed fun opening => ?_
  refine .bind .remaining fun words => ?_
  refine .seq (orderly_hintTexts opening _) fun hints => ?_
  split
  · exact .failAt _ rfl
  · exact .pure _ (.inl rfl)

/-- Where a set operator is found, its keyword is consumed. -/
theorem orderly_setOperator : Orderly bound .start setOperator Lead.ofFound := by
  have others : Orderly bound .start (do
      if ← eatKeyword .INTERSECT then return some SetOperator.intersect
      if ← eatKeyword .EXCEPT then return some SetOperator.except
      return none) Lead.ofFound :=
    .eatOr (.inr rfl) (.eatOr (.inr rfl) (.pure none (.inl rfl)))
  refine .bind (.eatKeyword .UNION) fun union => ?_
  cases union with
  | false => exact others
  | true =>
      refine .bind (Orderly.eatKeyword .ALL).onward fun all => ?_
      cases all with
      | true => exact .pure (some SetOperator.unionAll) (.inr rfl)
      | false => exact .pure (some SetOperator.union) (.inr rfl)

/-- The names of columns stand in a bracket, which is consumed whole. -/
theorem orderly_columnNames : Orderly bound .start columnNames fun _ => .behind := by
  refine .bracketed fun opening => ?_
  refine .seq (.segments (.identifier _)) fun names => ?_
  split
  · exact .failAt _ rfl
  · exact .pure _ (.inl rfl)

/-- Without a level left, the rule complains of the depth, which is a plain fault. -/
theorem orderly_exhausted {α : Type} {after : α → Lead} :
    Orderly bound .start (exhausted : Parser α) after :=
  .bind .peek fun _ => .fail rfl

end SelectTree.Grammar
