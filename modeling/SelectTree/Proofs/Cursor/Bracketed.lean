/-
Module: SelectTree.Proofs.Cursor.Bracketed
Purpose: the bracket group that is taken at a cursor, and that counting brackets never goes wrong.
Main exports: Words.excess, Words.ClosesAt, Words.ClosesFirstAt, Cursor.takeBracketed_apply,
  Cursor.Takes, Cursor.brackets_taken

The count begins with the bracket at the cursor, and the group ends as soon as it is back to zero.
So it is never zero where a bracket is closed, whatever stands behind the group.
-/
import SelectTree.Cursor.Bracketed
import SelectTree.Proofs.Words.Part

namespace SelectTree

namespace Words

open TokenKind (NeverBelow)

/-! ### Counted brackets -/

/-- How many more brackets are opened than are closed. -/
def excess (words : Words) : Int :=
  (words.map Word.kind).count .leftParen - (words.map Word.kind).count .rightParen

/-- The word at this place closes a bracket, and all that are opened up to there are closed. -/
def ClosesAt (words : Words) (offset : Nat) : Prop :=
  (∃ closing, words[offset]? = some closing ∧ closing.kind = .rightParen) ∧
    excess (words.take (offset + 1)) = 0

/-- This is the first such place. -/
def ClosesFirstAt (words : Words) (offset : Nat) : Prop :=
  words.ClosesAt offset ∧ ∀ earlier, earlier < offset → ¬ words.ClosesAt earlier

/-- There is one place at most where a bracket is closed. -/
theorem ClosesFirstAt.unique {words : Words} {one two : Nat} (first : words.ClosesFirstAt one)
    (also : words.ClosesFirstAt two) : one = two := by
  exact Nat.le_antisymm (Nat.le_of_not_lt fun lt => first.2 two lt also.1)
    (Nat.le_of_not_lt fun lt => also.2 one lt first.1)

theorem excess_append (first second : Words) :
    excess (first ++ second) = excess first + excess second := by
  simp only [excess, List.map_append, List.count_append]
  omega

theorem excess_opening {opening : Word} (opens : opening.kind = .leftParen) (words : Words) :
    excess (opening :: words) = excess words + 1 := by
  simp [excess, opens]
  omega

theorem excess_closing {closing : Word} (closes : closing.kind = .rightParen) :
    excess [closing] = -1 := by
  simp [excess, closes]

/-- In balanced words no front has more closing brackets than opening ones. -/
theorem excess_take_nonneg {words : Words} (never : NeverBelow 0 (words.map Word.kind))
    (count : Nat) : 0 ≤ excess (words.take count) := by
  have front := never ((words.take count).map Word.kind) ((List.take_prefix count words).map _)
  simp only [excess]
  omega

/-- As long as no more brackets are closed than opened, the bracket in front stays open. -/
theorem not_closesAt_of_nonneg {opening : Word} {words : Words} {offset : Nat}
    (opens : opening.kind = .leftParen) (nonneg : 0 ≤ excess (words.take offset)) :
    ¬ ClosesAt (opening :: words) offset := by
  rintro ⟨-, closed⟩
  rw [List.take_succ_cons, excess_opening opens] at closed
  omega

/-- A bracket around balanced words is closed directly behind them. -/
theorem closesFirstAt_of_balanced {opening closing : Word} {contents : Words} (behind : Words)
    (opens : opening.kind = .leftParen) (closes : closing.kind = .rightParen)
    (balanced : contents.Balanced) :
    ClosesFirstAt (opening :: (contents ++ closing :: behind)) (contents.length + 1) := by
  obtain ⟨never, same⟩ := openBehind?_eq_some_iff.1 balanced
  have front : (contents ++ closing :: behind).take (contents.length + 1) =
      contents ++ [closing] := by
    rw [List.take_length_add_append, List.take_succ_cons, List.take_zero]
  refine ⟨⟨⟨closing, by simp, closes⟩, ?_⟩, fun earlier lt => not_closesAt_of_nonneg opens ?_⟩
  · rw [List.take_succ_cons, front, excess_opening opens, excess_append, excess_closing closes]
    simp only [excess]
    omega
  · rw [List.take_append_of_le_length (Nat.le_of_lt_succ lt)]
    exact excess_take_nonneg never earlier

/-- A bracket that begins no group is closed nowhere. -/
theorem not_closesAt_of_group? {opening : Word} {words : Words}
    (opens : opening.kind = .leftParen) (noGroup : group? (opening :: words) = none)
    (offset : Nat) : ¬ ClosesAt (opening :: words) offset := by
  rw [group?, if_pos opens, Option.map_eq_none_iff] at noGroup
  obtain ⟨_, stillOpen⟩ := closeGroup?_eq_none_iff.1 noGroup
  have never := (openBehind?_eq_some_iff.1 stillOpen).1
  exact not_closesAt_of_nonneg opens (excess_take_nonneg never offset)

end Words

namespace Cursor

open TokenKind (NeverBelow)

/-! ### The group that is taken -/

/-- Whatever follows an action goes on with the cursor behind it. -/
theorem bind_of_ok {α β : Type} {first : Action α} {next : α → Action β} {cursor after : Cursor}
    {value : α} (done : first cursor = .ok value after) :
    (first >>= next) cursor = next value after := by
  change (first >>= next).run cursor = _
  rw [EStateM.run_bind, EStateM.run, done]
  rfl

theorem get_apply (cursor : Cursor) : (get : Action Cursor) cursor = .ok cursor cursor := rfl

/-- With an open bracket more than the depth, the count is down to zero exactly where a bracket is
closed at depth zero. -/
theorem closingFrom_cons (depth offset : Nat) (word : Word) (words : Words) :
    closingFrom (depth + 1) offset (word :: words) =
      if Words.closesNothing depth word then pure (some offset)
      else closingFrom (Words.depthBehind depth word.kind + 1) (offset + 1) words := by
  obtain ⟨kind, text, glued, index⟩ := word
  cases kind with
  | rightParen => cases depth <;> rfl
  | _ => simp [closingFrom, Words.closesNothing, Words.depthBehind]

/-- While a bracket is open nothing goes wrong, and the cursor stays where it is. -/
theorem closingFrom_apply (depth offset : Nat) (words : Words) (cursor : Cursor) :
    closingFrom (depth + 1) offset words cursor =
      .ok ((Words.closeGroup? depth words).map fun group => group.1.length + offset) cursor := by
  induction words generalizing depth offset with
  | nil => rfl
  | cons word words ih =>
      rw [closingFrom_cons, Words.closeGroup?_cons]
      split
      · rw [Option.map_some, List.length_nil, Nat.zero_add]
        rfl
      · rw [ih, Option.map_map]
        congr
        funext group
        simp only [Function.comp_apply, List.length_cons]
        omega

theorem moveTo_apply {position : Nat} {cursor : Cursor}
    (inside : position ≤ cursor.range.length) :
    moveTo position cursor = .ok () { cursor with position, position_le := inside } := by
  rw [moveTo, bind_of_ok (get_apply cursor), dif_pos inside]
  rfl

theorem between_apply {first last : Nat} {cursor : Cursor} (le : first ≤ last)
    (inside : last ≤ cursor.range.length) :
    between first last cursor = .ok ((cursor.range.take last).drop first) cursor := by
  rw [between, bind_of_ok (get_apply cursor), if_pos ⟨le, inside⟩]
  rfl

section Group

variable {cursor : Cursor} {opening closing : Word} {contents behind : Words}
  (rest_eq : cursor.rest = opening :: (contents ++ closing :: behind))

include rest_eq

theorem length_of_rest_eq :
    cursor.range.length = cursor.position + (contents.length + 1) + 1 + behind.length := by
  have length := congrArg List.length rest_eq
  simp only [rest, List.length_drop, List.length_cons, List.length_append] at length
  omega

theorem contents_of_rest_eq :
    (cursor.range.take (cursor.position + (contents.length + 1))).drop (cursor.position + 1) =
      contents := by
  have rest_eq : cursor.range.drop cursor.position = _ := rest_eq
  rw [List.drop_take, ← List.drop_drop, rest_eq, List.drop_succ_cons, List.drop_zero,
    Nat.add_sub_add_left, Nat.add_sub_cancel, List.take_left]

theorem leaving_of_rest_eq :
    cursor.leaving behind =
      { range := cursor.range, position := cursor.position + (contents.length + 1) + 1
        position_le := by
          have length := length_of_rest_eq rest_eq
          omega } := by
  have length := length_of_rest_eq rest_eq
  simp only [leaving, restore, Cursor.mk.injEq, true_and]
  omega

/-- What is done when the bracket at the cursor turned out to be closed. -/
theorem takeBracketed_of_closing (opens : opening.kind = .leftParen)
    (found : closingFrom 0 0 cursor.rest cursor = .ok (some (contents.length + 1)) cursor) :
    takeBracketed cursor = .ok (some (opening, start contents)) (cursor.leaving behind) := by
  have length := length_of_rest_eq rest_eq
  have moved : moveTo (cursor.position + (contents.length + 1) + 1) cursor =
      .ok () (cursor.leaving behind) := by
    rw [moveTo_apply (by omega), leaving_of_rest_eq rest_eq]
  have cut : between (cursor.position + 1) (cursor.position + (contents.length + 1))
      (cursor.leaving behind) = .ok contents (cursor.leaving behind) := by
    have sameRange : (cursor.leaving behind).range = cursor.range := rfl
    rw [between_apply (by omega) (by rw [sameRange]; omega), sameRange, contents_of_rest_eq rest_eq]
  have atCursor : cursor.peek? 0 = some opening := by simp [peek?, rest_eq]
  rw [takeBracketed, bind_of_ok (get_apply cursor)]
  simp only [atCursor]
  rw [if_neg (not_not_intro opens), bind_of_ok found]
  simp only []
  rw [bind_of_ok moved, bind_of_ok cut]
  rfl

end Group

/-- Counting brackets takes the group at the cursor, and leaves the cursor where it is if there is
none. -/
theorem takeBracketed_apply (cursor : Cursor) :
    takeBracketed cursor =
      match cursor.takeGroup? with
      | some (opening, contents, behind) => .ok (some (opening, contents)) behind
      | none => .ok none cursor := by
  rw [takeGroup?]
  cases rest_eq : cursor.rest with
  | nil =>
      have atEnd : cursor.peek? 0 = none := by simp [peek?, rest_eq]
      rw [takeBracketed, bind_of_ok (get_apply cursor)]
      simp only [atEnd]
      rfl
  | cons opening words =>
      have atCursor : cursor.peek? 0 = some opening := by simp [peek?, rest_eq]
      by_cases opens : opening.kind = .leftParen
      · have counted : closingFrom 0 0 cursor.rest cursor =
            .ok ((Words.closeGroup? 0 words).map fun group => group.1.length + 1) cursor := by
          rw [rest_eq, ← closingFrom_apply, closingFrom, opens]
        rw [Words.group?, if_pos opens]
        cases closed : Words.closeGroup? 0 words with
        | none =>
            rw [closed] at counted
            rw [takeBracketed, bind_of_ok (get_apply cursor)]
            simp only [atCursor]
            rw [if_neg (not_not_intro opens), bind_of_ok counted]
            rfl
        | some group =>
            obtain ⟨contents, behind⟩ := group
            obtain ⟨-, closing, -, rfl⟩ := Words.exists_of_closeGroup? closed
            rw [closed] at counted
            rw [takeBracketed_of_closing rest_eq opens counted]
            rfl
      · rw [Words.group?, if_neg opens, takeBracketed, bind_of_ok (get_apply cursor)]
        simp only [atCursor]
        rw [if_pos opens]
        rfl

/-- The bracket at the cursor is closed first at an offset.  Its contents are what stands between
the brackets; in them no bracket is closed that they do not open, and all that they open are closed.
The cursor behind it is at the word after the closing bracket. -/
structure Takes (cursor : Cursor) (offset : Nat) (opening : Word) (contents after : Cursor) :
    Prop where
  at_cursor : cursor.peek? 0 = some opening
  opens : opening.kind = .leftParen
  closes : cursor.rest.ClosesFirstAt offset
  contents_eq : contents =
    start ((cursor.range.take (cursor.position + offset)).drop (cursor.position + 1))
  never_below : NeverBelow 0 (contents.range.map Word.kind)
  count_eq : (contents.range.map Word.kind).count .leftParen =
    (contents.range.map Word.kind).count .rightParen
  range_eq : after.range = cursor.range
  position_eq : after.position = cursor.position + offset + 1

/-- The bracket at the cursor is closed somewhere. -/
def Closed (cursor : Cursor) : Prop :=
  ∃ opening offset, cursor.peek? 0 = some opening ∧ opening.kind = .leftParen ∧
    cursor.rest.ClosesAt offset

/-- What is taken is a bracket, its balanced contents and what is behind it. -/
theorem takes_of_takeGroup? {cursor contents behind : Cursor} {opening : Word}
    (taken : cursor.takeGroup? = some (opening, contents, behind)) :
    ∃ offset, cursor.Takes offset opening contents behind := by
  obtain ⟨group, found, same⟩ := Option.map_eq_some_iff.1 taken
  cases same
  obtain ⟨opens, balanced, closing, closes, rest_eq⟩ := Words.exists_of_group? found
  rw [List.cons_append] at rest_eq
  obtain ⟨never, same⟩ := Words.openBehind?_eq_some_iff.1 balanced
  refine ⟨group.contents.length + 1, {
    at_cursor := by simp [peek?, rest_eq]
    opens
    closes := rest_eq ▸ Words.closesFirstAt_of_balanced group.behind opens closes balanced
    contents_eq := by rw [contents_of_rest_eq rest_eq]
    never_below := never
    count_eq := by
      rw [Nat.zero_add, Nat.zero_add] at same
      exact same.symm
    range_eq := rfl
    position_eq := by rw [leaving_of_rest_eq rest_eq] }⟩

/-- Where nothing can be taken, no bracket is closed. -/
theorem not_closed_of_takeGroup? {cursor : Cursor} (noGroup : cursor.takeGroup? = none) :
    ¬ cursor.Closed := by
  rintro ⟨opening, offset, atCursor, opens, closes⟩
  rw [takeGroup?, Option.map_eq_none_iff] at noGroup
  cases rest_eq : cursor.rest with
  | nil => simp [peek?, rest_eq] at atCursor
  | cons first words =>
      obtain rfl : first = opening := by simpa [peek?, rest_eq] using atCursor
      rw [rest_eq] at noGroup closes
      exact Words.not_closesAt_of_group? opens noGroup offset closes

namespace Takes

variable {cursor contents after : Cursor} {offset : Nat} {opening : Word}
  (takes : cursor.Takes offset opening contents after)

include takes

theorem closed : cursor.Closed :=
  ⟨opening, offset, takes.at_cursor, takes.opens, takes.closes.1⟩

/-- What is taken is determined by the cursor. -/
theorem unique {contents' after' : Cursor} {offset' : Nat} {opening' : Word}
    (also : cursor.Takes offset' opening' contents' after') :
    opening' = opening ∧ contents' = contents ∧ after' = after := by
  obtain rfl := takes.closes.unique also.closes
  refine ⟨?_, also.contents_eq.trans takes.contents_eq.symm, ?_⟩
  · exact Option.some.inj (also.at_cursor.symm.trans takes.at_cursor)
  · have range := also.range_eq.trans takes.range_eq.symm
    have position := also.position_eq.trans takes.position_eq.symm
    cases after
    cases after'
    cases range
    cases position
    rfl

end Takes

/-- At every cursor, whatever brackets there are: the group at the cursor is taken if the bracket
there is closed, and otherwise the cursor stays where it is.  No bracket is closed when the count of
open ones is zero, and no place outside of the range is used. -/
theorem brackets_taken (cursor : Cursor) :
    (∀ mishap after, takeBracketed cursor ≠ .error mishap after) ∧
      (∀ opening contents after, takeBracketed cursor = .ok (some (opening, contents)) after ↔
        ∃ offset, cursor.Takes offset opening contents after) ∧
      ∀ after, takeBracketed cursor = .ok none after ↔ after = cursor ∧ ¬ cursor.Closed := by
  rw [takeBracketed_apply]
  cases taken : cursor.takeGroup? with
  | none =>
      have notClosed := not_closed_of_takeGroup? taken
      refine ⟨nofun, fun opening contents after => ⟨nofun, ?_⟩, fun after => ?_⟩
      · rintro ⟨offset, takes⟩
        exact absurd takes.closed notClosed
      · constructor
        · rintro ⟨⟩
          exact ⟨rfl, notClosed⟩
        · rintro ⟨rfl, -⟩
          rfl
  | some group =>
      obtain ⟨opening, contents, behind⟩ := group
      obtain ⟨offset, takes⟩ := takes_of_takeGroup? taken
      refine ⟨nofun, fun opening' contents' after => ?_, fun after => ⟨nofun, ?_⟩⟩
      · constructor
        · rintro ⟨⟩
          exact ⟨offset, takes⟩
        · rintro ⟨offset', also⟩
          obtain ⟨rfl, rfl, rfl⟩ := takes.unique also
          rfl
      · rintro ⟨-, notClosed⟩
        exact absurd takes.closed notClosed

/-- Of the two brackets that are closed behind the opening one the second is a stray. -/
example :
    let words : Words :=
      [⟨.leftParen, "(", false, 0⟩, ⟨.rightParen, ")", true, 1⟩, ⟨.rightParen, ")", true, 2⟩]
    takeBracketed (start words) = .ok (some (words[0], start [])) ((start words).advance 2) := rfl

end Cursor

end SelectTree
