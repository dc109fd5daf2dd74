/-
Module: SelectTree.Proofs.Grammar.Frame
Purpose: window frames as they are written, what is kept of them, and what that says.
Main exports: FrameClause, FrameClause.edges, FrameClause.Misdirected, FrameClause.edges_frame,
  FrameClause.rows_frame_ne, FrameClause.eq_of_suffix, Grammar.frame_ok

A bound is kept as its distance from the current row, and an unbounded bound as no distance at all.
So its side is lost.  When the pair is read, no lower distance means that the frame begins with the
first row, and no upper one that it ends with the last; an unbounded bound that was written on the
other side is then another bound.
-/
import Mathlib.Data.Set.Basic
import SelectTree.Grammar.Column
import SelectTree.Proofs.Grammar.Bracket

namespace SelectTree

/-! ### Frames as written -/

/-- A place among the rows: in front of them all, a row by its offset from the current one, or
behind them all. -/
inductive FrameEdge where
  | first
  | row (offset : Int)
  | last
deriving Repr, DecidableEq

namespace FrameEdge

/-- The row is not in front of the place. -/
def Precedes : FrameEdge → Int → Prop
  | .first, _ => True
  | .row start, offset => start ≤ offset
  | .last, _ => False

/-- The row is not behind the place. -/
def Follows : FrameEdge → Int → Prop
  | .first, _ => False
  | .row stop, offset => offset ≤ stop
  | .last, _ => True

end FrameEdge

/-- A window frame as written: two bounds or one. -/
inductive FrameClause where
  | between (unit : FrameUnit) (lower upper : FrameBound)
  | single (unit : FrameUnit) (bound : FrameBound)
deriving Repr, DecidableEq

def FrameSide.keyword : FrameSide → Keyword
  | .preceding => .PRECEDING
  | .following => .FOLLOWING

def FrameUnit.keyword : FrameUnit → Keyword
  | .rows => .ROWS
  | .range => .RANGE

namespace FrameBound

/-- No negative number of rows is counted. -/
def Proper : FrameBound → Prop
  | .offset count _ => 0 ≤ count
  | _ => True

/-- The words of a bound. -/
def kinds : FrameBound → List TokenKind
  | .unbounded side => [.keyword .UNBOUNDED, .keyword side.keyword]
  | .currentRow => [.keyword .CURRENT, .keyword .ROW]
  | .offset count side => [.integer count, .keyword side.keyword]

/-- The place of a bound among the rows. -/
def edge : FrameBound → FrameEdge
  | .unbounded .preceding => .first
  | .unbounded .following => .last
  | .currentRow => .row 0
  | .offset count .preceding => .row (-count)
  | .offset count .following => .row count

def isFollowing : FrameBound → Bool
  | .unbounded side | .offset _ side => side = .following
  | .currentRow => false

end FrameBound

namespace FrameClause

def Proper : FrameClause → Prop
  | .between _ lower upper => lower.Proper ∧ upper.Proper
  | .single _ bound => bound.Proper

/-- What is kept of the frame. -/
def frame : FrameClause → Frame
  | .between unit lower upper => .between unit lower upper
  | .single unit bound => .single unit bound

def unit : FrameClause → FrameUnit
  | .between unit _ _ | .single unit _ => unit

/-- The words behind the unit. -/
def boundKinds : FrameClause → List TokenKind
  | .between _ lower upper => .keyword .BETWEEN :: (lower.kinds ++ .keyword .AND :: upper.kinds)
  | .single _ bound => bound.kinds

/-- The words of a frame. -/
def kinds (clause : FrameClause) : List TokenKind :=
  .keyword clause.unit.keyword :: clause.boundKinds

/-- The places where the frame begins and ends.  A single bound is one of them, and the other one is
the current row. -/
def edges : FrameClause → FrameEdge × FrameEdge
  | .between _ lower upper => (lower.edge, upper.edge)
  | .single _ bound => if bound.isFollowing then (.row 0, bound.edge) else (bound.edge, .row 0)

/-- An unbounded bound is written on the side where the frame does not extend to. -/
def Misdirected : FrameClause → Prop
  | .between _ lower upper => lower = .unbounded .following ∨ upper = .unbounded .preceding
  | .single _ bound => bound = .unbounded .following

end FrameClause

/-- The places that the kept distances say: no lower one is the first row, and no upper one the
last. -/
def Frame.edges (frame : Frame) : FrameEdge × FrameEdge :=
  (frame.lower.elim .first .row, frame.upper.elim .last .row)

/-- The rows between two places, by their offsets from the current row. -/
def rowsBetween (edges : FrameEdge × FrameEdge) : Set Int :=
  {offset | edges.1.Precedes offset ∧ edges.2.Follows offset}

/-! ### What is kept -/

namespace FrameBound

variable {bound : FrameBound}

/-- Without a distance, the lower edge is the first row, except where the bound is unbounded ahead.
-/
theorem elim_first_distance (directed : bound ≠ .unbounded .following) :
    bound.distance.elim .first .row = bound.edge := by
  rcases bound with (_ | _) | _ | ⟨count, _ | _⟩
  case unbounded.following => exact absurd rfl directed
  all_goals rfl

/-- Without a distance, the upper edge is the last row, except where the bound is unbounded behind.
-/
theorem elim_last_distance (directed : bound ≠ .unbounded .preceding) :
    bound.distance.elim .last .row = bound.edge := by
  rcases bound with (_ | _) | _ | ⟨count, _ | _⟩
  case unbounded.preceding => exact absurd rfl directed
  all_goals rfl

end FrameBound

namespace FrameClause

variable {clause other : FrameClause}

/-- The kept pair says what was written, unless a side is lost. -/
theorem edges_frame (proper : clause.Proper) (directed : ¬ clause.Misdirected) :
    clause.frame.edges = clause.edges := by
  cases clause with
  | between unit lower upper =>
      obtain ⟨lowerDirected, upperDirected⟩ := not_or.1 directed
      exact congrArg₂ Prod.mk (FrameBound.elim_first_distance lowerDirected)
        (FrameBound.elim_last_distance upperDirected)
  | single unit bound =>
      rcases bound with (_ | _) | _ | ⟨count, _ | _⟩
      case unbounded.preceding => rfl
      case unbounded.following => exact absurd rfl directed
      case currentRow => rfl
      case offset.preceding =>
        have notBehind : ¬ count < 0 := Int.not_lt.2 proper
        simp [frame, Frame.single, FrameBound.distance, notBehind, Frame.edges, edges,
          FrameBound.isFollowing, FrameBound.edge]
      case offset.following =>
        rcases Int.le_iff_lt_or_eq.1 (proper : 0 ≤ count) with behind | rfl
        · simp [frame, Frame.single, FrameBound.distance, behind, Frame.edges, edges,
            FrameBound.isFollowing, FrameBound.edge]
        · rfl

/-- A frame that begins behind the last row or ends in front of the first has no rows. -/
theorem rows_eq_empty {unit : FrameUnit} {lower upper : FrameBound}
    (misdirected : (between unit lower upper).Misdirected) :
    rowsBetween (between unit lower upper).edges = ∅ := by
  refine Set.eq_empty_of_forall_notMem fun offset ⟨begins, ends⟩ => ?_
  rcases misdirected with rfl | rfl
  · exact begins
  · exact ends

/-- The frame that is kept then goes on without end on that side. -/
theorem rows_frame_nonempty {unit : FrameUnit} {lower upper : FrameBound}
    (misdirected : (between unit lower upper).Misdirected) :
    (rowsBetween (between unit lower upper).frame.edges).Nonempty := by
  rcases misdirected with rfl | rfl
  · refine ⟨upper.distance.getD 0, trivial, ?_⟩
    change FrameEdge.Follows (upper.distance.elim .last .row) _
    cases upper.distance with
    | none => trivial
    | some distance => exact Int.le_refl distance
  · refine ⟨lower.distance.getD 0, ?_, trivial⟩
    change FrameEdge.Precedes (lower.distance.elim .first .row) _
    cases lower.distance with
    | none => trivial
    | some distance => exact Int.le_refl distance

/-- Where a side is lost, the kept pair says other rows. -/
theorem rows_frame_ne (misdirected : clause.Misdirected) :
    rowsBetween clause.frame.edges ≠ rowsBetween clause.edges := by
  cases clause with
  | between unit lower upper =>
      rw [rows_eq_empty misdirected]
      exact (rows_frame_nonempty misdirected).ne_empty
  | single unit bound =>
      obtain rfl : bound = .unbounded .following := misdirected
      -- The row in front of the current one is kept, and it was not written.
      intro same
      have kept : (-1 : Int) ∈ rowsBetween (single unit (.unbounded .following)).frame.edges :=
        ⟨trivial, show (-1 : Int) ≤ 0 by decide⟩
      rw [same] at kept
      exact absurd (show (0 : Int) ≤ -1 from kept.1) (by decide)

/-- Two frames that keep the same pair, and of which no side is lost, are the same. -/
theorem edges_eq (proper : clause.Proper) (otherProper : other.Proper)
    (directed : ¬ clause.Misdirected) (otherDirected : ¬ other.Misdirected)
    (lower : other.frame.lower = clause.frame.lower)
    (upper : other.frame.upper = clause.frame.upper) : other.edges = clause.edges := by
  rw [← edges_frame proper directed, ← edges_frame otherProper otherDirected, Frame.edges,
    Frame.edges, lower, upper]

end FrameClause

/-! ### One clause for the words -/

theorem FrameSide.keyword_injective : Function.Injective FrameSide.keyword := by
  rintro (_ | _) (_ | _) same
  all_goals first | rfl | cases same

theorem FrameUnit.keyword_injective : Function.Injective FrameUnit.keyword := by
  rintro (_ | _) (_ | _) same
  all_goals first | rfl | cases same

namespace FrameBound

/-- Every bound is two words. -/
theorem length_kinds (bound : FrameBound) : bound.kinds.length = 2 := by
  cases bound <;> rfl

theorem kinds_injective : Function.Injective kinds := by
  intro one other same
  cases one <;> cases other <;> simp_all [kinds, FrameSide.keyword_injective.eq_iff]

/-- A unit occurs in no bound. -/
theorem unit_not_mem_kinds (unit : FrameUnit) (bound : FrameBound) :
    .keyword unit.keyword ∉ bound.kinds := by
  rcases bound with (_ | _) | _ | ⟨count, _ | _⟩ <;> cases unit <;>
    simp [kinds, FrameSide.keyword, FrameUnit.keyword]

/-- `BETWEEN` occurs in no bound. -/
theorem between_not_mem_kinds (bound : FrameBound) : .keyword .BETWEEN ∉ bound.kinds := by
  rcases bound with (_ | _) | _ | ⟨count, _ | _⟩ <;> simp [kinds, FrameSide.keyword]

end FrameBound

namespace FrameClause

variable {clause other : FrameClause}

/-- Two bounds are not written as one. -/
theorem boundKinds_between_ne {unit otherUnit : FrameUnit} {lower upper bound : FrameBound} :
    (between unit lower upper).boundKinds ≠ (single otherUnit bound).boundKinds := by
  intro same
  have member : .keyword .BETWEEN ∈ (between unit lower upper).boundKinds := List.mem_cons_self
  rw [same] at member
  exact bound.between_not_mem_kinds member

/-- The bounds of a frame and its unit determine it. -/
theorem boundKinds_eq (unit : clause.unit = other.unit)
    (same : clause.boundKinds = other.boundKinds) : clause = other := by
  cases clause with
  | between _ lower upper =>
      cases other with
      | between _ otherLower otherUpper =>
          obtain ⟨lowers, uppers⟩ := List.append_inj (List.cons.inj same).2
            (lower.length_kinds.trans otherLower.length_kinds.symm)
          obtain rfl := FrameBound.kinds_injective lowers
          obtain rfl := FrameBound.kinds_injective (List.cons.inj uppers).2
          exact congrArg (between · lower upper) unit
      | single _ bound => exact absurd same boundKinds_between_ne
  | single _ bound =>
      cases other with
      | between _ lower upper => exact absurd same.symm boundKinds_between_ne
      | single _ other =>
          obtain rfl := FrameBound.kinds_injective same
          exact congrArg (single · bound) unit

theorem kinds_injective : Function.Injective kinds := by
  intro clause other same
  obtain ⟨units, bounds⟩ := List.cons.inj same
  exact boundKinds_eq (FrameUnit.keyword_injective (TokenKind.keyword.inj units)) bounds

/-- A unit occurs only in front of the bounds. -/
theorem unit_not_mem_boundKinds (unit : FrameUnit) (clause : FrameClause) :
    .keyword unit.keyword ∉ clause.boundKinds := by
  cases clause with
  | between _ lower upper =>
      have others : unit.keyword ≠ .BETWEEN ∧ unit.keyword ≠ .AND := by cases unit <;> decide
      simp [boundKinds, others, FrameBound.unit_not_mem_kinds]
  | single _ bound => exact bound.unit_not_mem_kinds unit

/-- A frame does not end with another frame. -/
theorem eq_of_kinds_suffix (ends : clause.kinds <:+ other.kinds) : clause = other := by
  rcases List.suffix_cons_iff.1 ends with same | inside
  · exact kinds_injective same
  · exact absurd (inside.subset List.mem_cons_self) (other.unit_not_mem_boundKinds clause.unit)

/-- Words end with one frame at most. -/
theorem eq_of_suffix {all : List TokenKind} (ends : clause.kinds <:+ all)
    (otherEnds : other.kinds <:+ all) : other = clause := by
  rcases List.suffix_or_suffix_of_suffix ends otherEnds with inOther | inClause
  · exact (eq_of_kinds_suffix inOther).symm
  · exact eq_of_kinds_suffix inClause

end FrameClause

/-! ### Reading a frame -/

/-- The words begin with words of these kinds, and the rest is behind them. -/
def Words.Begins (kinds : List TokenKind) (words rest : Words) : Prop :=
  ∃ front, front.map Word.kind = kinds ∧ words = front ++ rest

namespace Words.Begins

variable {kinds others : List TokenKind} {words middle rest : Words}

theorem nil (words : Words) : Begins [] words words :=
  ⟨[], rfl, rfl⟩

theorem word (word : Word) (rest : Words) : Begins [word.kind] (word :: rest) rest :=
  ⟨[word], rfl, rfl⟩

theorem map_kind (begins : Begins kinds words []) : words.map Word.kind = kinds := by
  obtain ⟨front, rfl, rfl⟩ := begins
  rw [List.append_nil]

/-- What begins the words and what begins the rest begin the words together. -/
theorem append (first : Begins kinds words middle) (second : Begins others middle rest) :
    Begins (kinds ++ others) words rest := by
  obtain ⟨front, rfl, rfl⟩ := first
  obtain ⟨back, rfl, rfl⟩ := second
  exact ⟨front ++ back, List.map_append, (List.append_assoc ..).symm⟩

end Words.Begins

namespace Parser

open SelectTree.Words (Begins)

variable {scope : Scope} {words rest : Words} {keyword : Keyword}

theorem eatKeyword_ok {found : Bool}
    (read : eatKeyword keyword scope words = .ok (found, rest)) :
    Begins (if found then [.keyword keyword] else []) words rest := by
  rw [eatKeyword, eat_apply] at read
  rcases words with _ | ⟨word, words⟩
  · cases read
    exact .nil []
  · split at read
    · next isKeyword =>
        cases read
        have kind : word.kind = .keyword keyword := by simpa using isKeyword
        rw [if_pos rfl, ← kind]
        exact .word word words
    · cases read
      exact .nil _

theorem expectEnd_ok {value : Unit} (read : expectEnd scope words = .ok (value, rest)) :
    words = [] := by
  cases words with
  | nil => rfl
  | cons word words => cases read

end Parser

namespace Grammar

open SelectTree.Parser
open SelectTree.Words (Begins)

variable {scope : Scope} {words rest : Words}

/-- A side that is read is the keyword that is there. -/
theorem frameSide_ok {side : FrameSide} (read : frameSide scope words = .ok (side, rest)) :
    Begins [.keyword side.keyword] words rest := by
  obtain ⟨preceding, middle, ate, read⟩ := bind_ok_iff.1 read
  have front := eatKeyword_ok ate
  cases preceding with
  | true =>
      cases read
      exact front
  | false =>
      obtain ⟨following, last, ate, read⟩ := bind_ok_iff.1 read
      have back := eatKeyword_ok ate
      cases following with
      | true =>
          cases read
          exact front.append back
      | false => cases read

/-- A bound is kept with its side, and it counts no negative number of rows. -/
theorem frameBound_ok {bound : FrameBound} (read : frameBound scope words = .ok (bound, rest)) :
    bound.Proper ∧ Begins bound.kinds words rest := by
  obtain ⟨unbounded, middle, ate, read⟩ := bind_ok_iff.1 read
  have front := eatKeyword_ok ate
  cases unbounded with
  | true =>
      obtain ⟨side, _, readSide, ⟨⟩⟩ := bind_ok_iff.1 read
      exact ⟨trivial, front.append (frameSide_ok readSide)⟩
  | false =>
      obtain ⟨current, middle, ate, read⟩ := bind_ok_iff.1 read
      have front := front.append (eatKeyword_ok ate)
      cases current with
      | true =>
          obtain ⟨row, _, expected, ⟨⟩⟩ := bind_ok_iff.1 read
          obtain ⟨isRow, rfl⟩ := expectKeyword_ok_iff.1 expected
          have back := Begins.word row rest
          rw [isRow] at back
          exact ⟨trivial, front.append back⟩
      | false =>
          obtain ⟨_, _, ⟨⟩, read⟩ := bind_ok_iff.1 read
          rcases middle with _ | ⟨⟨kind, text, glued, index⟩, middle⟩
          · cases read
          · cases kind with
            | integer count =>
                by_cases negative : count < 0
                · simp only [List.head?_cons, if_pos negative] at read
                  cases read
                · simp only [List.head?_cons, if_neg negative] at read
                  obtain ⟨_, _, ⟨⟩, read⟩ := bind_ok_iff.1 read
                  obtain ⟨side, _, readSide, ⟨⟩⟩ := bind_ok_iff.1 read
                  have number := Begins.word ⟨.integer count, text, glued, index⟩ middle
                  exact ⟨Int.not_lt.1 negative,
                    (front.append number).append (frameSide_ok readSide)⟩
            | _ => cases read

/-- A unit that is read is the keyword that is there. -/
theorem frameUnit_ok {unit : Option FrameUnit}
    (read : frameUnit scope words = .ok (unit, rest)) :
    Begins (unit.elim [] fun unit => [.keyword unit.keyword]) words rest := by
  obtain ⟨rows, middle, ate, read⟩ := bind_ok_iff.1 read
  have front := eatKeyword_ok ate
  cases rows with
  | true =>
      cases read
      exact front
  | false =>
      obtain ⟨range, last, ate, read⟩ := bind_ok_iff.1 read
      have back := eatKeyword_ok ate
      cases range with
      | true =>
          cases read
          exact front.append back
      | false =>
          cases read
          exact front.append back

/-- If there is a frame, what is kept of it comes from the clause that is written in front. -/
theorem frame_ok {found : Option Frame} (read : frame scope words = .ok (found, rest)) :
    ∃ clause : Option FrameClause, found = clause.map FrameClause.frame ∧
      (∀ written ∈ clause, written.Proper) ∧
      Begins (clause.elim [] FrameClause.kinds) words rest := by
  obtain ⟨unit, middle, readUnit, read⟩ := bind_ok_iff.1 read
  have front := frameUnit_ok readUnit
  cases unit with
  | none =>
      cases read
      exact ⟨none, rfl, nofun, front⟩
  | some unit =>
      obtain ⟨between, middle, ate, read⟩ := bind_ok_iff.1 read
      have front := front.append (eatKeyword_ok ate)
      cases between with
      | false =>
          obtain ⟨bound, _, readBound, ⟨⟩⟩ := bind_ok_iff.1 read
          obtain ⟨proper, back⟩ := frameBound_ok readBound
          refine ⟨some (.single unit bound), rfl, ?_, front.append back⟩
          rintro _ ⟨⟩
          exact proper
      | true =>
          obtain ⟨lower, middle, readLower, read⟩ := bind_ok_iff.1 read
          obtain ⟨and, middle, expected, read⟩ := bind_ok_iff.1 read
          obtain ⟨upper, _, readUpper, ⟨⟩⟩ := bind_ok_iff.1 read
          obtain ⟨lowerProper, lowerWords⟩ := frameBound_ok readLower
          obtain ⟨isAnd, rfl⟩ := expectKeyword_ok_iff.1 expected
          obtain ⟨upperProper, upperWords⟩ := frameBound_ok readUpper
          have link := Begins.word and middle
          rw [isAnd] at link
          refine ⟨some (.between unit lower upper), rfl, ?_,
            front.append (lowerWords.append (link.append upperWords))⟩
          rintro _ ⟨⟩
          exact ⟨lowerProper, upperProper⟩

end Grammar

end SelectTree
