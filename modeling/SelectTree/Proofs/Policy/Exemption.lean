/-
Module: SelectTree.Proofs.Policy.Exemption
Purpose: in all words, also in those whose brackets do not match, the policy refuses the denied
  keywords outside of hint lists, and a hint list is what a bracket behind `OPTION` encloses.
Main exports: Policy.InHints, Policy.BeginsHint, Policy.Tracks, Policy.mem_offences_iff,
  Words.neverBelow_iff_of_group?, Policy.check_refuses

The policy goes through the words once and keeps one number, while hint lists may stand in one
another.  The number belongs to the outermost list that is open: an inner one ends no later.
-/
import Mathlib.Control.Monad.Basic
import SelectTree.Proofs.Policy.OptionGroup

namespace SelectTree

open TokenKind (NeverBelow)

namespace Policy

/-- The place behind these kinds is in a hint list: behind an `OPTION` that is followed by an
opening bracket, and that bracket is still open. -/
def InHints (before : List TokenKind) : Prop :=
  ∃ front inner, before = front ++ .keyword .OPTION :: .leftParen :: inner ∧ NeverBelow 0 inner

/-- Behind these kinds the keyword begins a hint. -/
def BeginsHint (before : List TokenKind) (keyword : Keyword) : Prop :=
  keyword = .USE ∧ InHints before

/-! ### Hint lists that are open -/

/-- A hint list is open behind these kinds, and in it so many more brackets. -/
def Opens (seen : List TokenKind) (depth : Nat) : Prop :=
  ∃ front inner, seen = front ++ .keyword .OPTION :: .leftParen :: inner ∧ NeverBelow 0 inner ∧
    depth + inner.count .rightParen = inner.count .leftParen

theorem inHints_iff {seen : List TokenKind} : InHints seen ↔ ∃ depth, Opens seen depth := by
  constructor
  · rintro ⟨front, inner, split, never⟩
    have whole := never inner (List.prefix_refl _)
    rw [Nat.zero_add] at whole
    exact ⟨_, front, inner, split, never, Nat.sub_add_cancel whole⟩
  · rintro ⟨_, front, inner, split, never, -⟩
    exact ⟨front, inner, split, never⟩

/-- With one more kind a list is begun, or one that was open is still open. -/
theorem opens_concat {seen : List TokenKind} {kind : TokenKind} {depth : Nat} :
    Opens (seen ++ [kind]) depth ↔
      (seen.getLast? = some (.keyword .OPTION) ∧ kind = .leftParen ∧ depth = 0) ∨
      ∃ outer, Opens seen outer ∧
        depth + [kind].count .rightParen = outer + [kind].count .leftParen := by
  constructor
  · rintro ⟨front, inner, split, never, counts⟩
    rcases List.eq_nil_or_concat inner with rfl | ⟨inner, last, rfl⟩
    · have cut : seen ++ [kind] = (front ++ [.keyword .OPTION]) ++ [.leftParen] := by
        simpa using split
      obtain ⟨rfl, same⟩ := List.append_inj' cut rfl
      cases same
      exact .inl ⟨List.getLast?_concat .., rfl, counts⟩
    · rw [List.concat_eq_append] at split never counts
      have cut : seen ++ [kind] =
          (front ++ .keyword .OPTION :: .leftParen :: inner) ++ [last] := by
        simpa using split
      obtain ⟨rfl, same⟩ := List.append_inj' cut rfl
      cases same
      obtain ⟨stillOpen, -⟩ := TokenKind.neverBelow_concat.1 never
      have whole := stillOpen inner (List.prefix_refl _)
      simp only [List.count_append] at counts
      exact .inr ⟨inner.count .leftParen - inner.count .rightParen,
        ⟨front, inner, rfl, stillOpen, by omega⟩, by omega⟩
  · rintro (⟨isLast, rfl, rfl⟩ | ⟨outer, ⟨front, inner, rfl, never, counts⟩, moved⟩)
    · obtain ⟨front, rfl⟩ := List.getLast?_eq_some_iff.1 isLast
      refine ⟨front, [], by simp, ?_, rfl⟩
      intro part isPart
      cases List.prefix_nil.1 isPart
      exact Nat.zero_le _
    · have total : depth + (inner ++ [kind]).count .rightParen =
          (inner ++ [kind]).count .leftParen := by
        simp only [List.count_append]
        omega
      exact ⟨front, inner ++ [kind], by simp, TokenKind.neverBelow_concat.2 ⟨never, by omega⟩,
        total⟩

/-! ### Where the policy is -/

/-- After these kinds and in front of those, the policy is where its number says: in no list, at
the bracket that begins one, or in a list in which so many brackets are open, its own among them,
and in no list in which there are more. -/
def Tracks (seen rest : List TokenKind) : HintDepth → Prop
  | none => (∀ depth, ¬Opens seen depth) ∧
      (seen.getLast? = some (.keyword .OPTION) → rest.head? ≠ some .leftParen)
  | some 0 => (∀ depth, ¬Opens seen depth) ∧
      seen.getLast? = some (.keyword .OPTION) ∧ rest.head? = some .leftParen
  | some (depth + 1) => Opens seen depth ∧ ∀ other, Opens seen other → other ≤ depth

theorem Tracks.nil (kinds : List TokenKind) : Tracks [] kinds none := by
  refine ⟨?_, nofun⟩
  rintro depth ⟨front, inner, split, -⟩
  simp at split

section Plain

variable {seen rest : List TokenKind} {kind : TokenKind}

/-- Brackets apart, no list is begun or ended. -/
theorem opens_concat_of_plain {depth : Nat} (plain : Words.isBracket kind = false) :
    Opens (seen ++ [kind]) depth ↔ Opens seen depth := by
  have notOpening : kind ≠ .leftParen := by
    rintro rfl
    cases plain
  have notClosing : kind ≠ .rightParen := by
    rintro rfl
    cases plain
  simp [opens_concat, notOpening, notClosing]

theorem next_of_plain {depth : Nat} (plain : Words.isBracket kind = false) :
    next (some depth) kind rest = some depth := by
  cases kind <;> first | rfl | cases plain

end Plain

theorem Tracks.step {seen rest : List TokenKind} {kind : TokenKind} {depth : HintDepth}
    (tracks : Tracks seen (kind :: rest) depth) :
    Tracks (seen ++ [kind]) rest (next depth kind rest) := by
  rcases depth with _ | _ | depth
  case none =>
    obtain ⟨outside, noList⟩ := tracks
    have still : ∀ depth, ¬Opens (seen ++ [kind]) depth := by
      intro depth opens
      rcases opens_concat.1 opens with ⟨isLast, rfl, -⟩ | ⟨outer, wasOpen, -⟩
      · exact noList isLast rfl
      · exact outside outer wasOpen
    rw [next]
    split
    · next begins => exact ⟨still, by simp [begins.1], begins.2⟩
    · next further =>
        refine ⟨still, fun isLast opening => further ⟨?_, opening⟩⟩
        simpa using isLast
  case some.zero =>
    obtain ⟨outside, isLast, opening⟩ := tracks
    cases Option.some.inj opening
    refine ⟨opens_concat.2 (.inl ⟨isLast, rfl, rfl⟩), ?_⟩
    intro other opens
    rcases opens_concat.1 opens with ⟨-, -, rfl⟩ | ⟨outer, wasOpen, -⟩
    · exact Nat.le_refl _
    · exact absurd wasOpen (outside outer)
  case some.succ =>
    obtain ⟨opens, greatest⟩ := tracks
    by_cases plain : Words.isBracket kind = false
    · rw [next_of_plain plain]
      refine ⟨(opens_concat_of_plain plain).2 opens, ?_⟩
      intro other opens
      exact greatest other ((opens_concat_of_plain plain).1 opens)
    · cases kind with
      | leftParen =>
          refine ⟨opens_concat.2 (.inr ⟨depth, opens, rfl⟩), ?_⟩
          intro other opens
          rcases opens_concat.1 opens with ⟨-, -, rfl⟩ | ⟨outer, wasOpen, moved⟩
          · exact Nat.zero_le _
          · obtain rfl : other = outer + 1 := moved
            exact Nat.succ_le_succ (greatest outer wasOpen)
      | rightParen =>
          have fewer {other : Nat} (opens : Opens (seen ++ [.rightParen]) other) :
              other + 1 ≤ depth := by
            rcases opens_concat.1 opens with ⟨-, ⟨⟩, -⟩ | ⟨outer, wasOpen, moved⟩
            obtain rfl : other + 1 = outer := moved
            exact greatest _ wasOpen
          cases depth with
          | zero =>
              refine ⟨fun other opens => Nat.not_succ_le_zero other (fewer opens), ?_⟩
              simp
          | succ depth =>
              exact ⟨opens_concat.2 (.inr ⟨depth + 1, opens, rfl⟩),
                fun other opens => Nat.le_of_succ_le_succ (fewer opens)⟩
      | _ => exact absurd rfl plain

/-- In front of a keyword the policy counts brackets exactly in hint lists. -/
theorem Tracks.isSome_iff {seen rest : List TokenKind} {keyword : Keyword} {depth : HintDepth}
    (tracks : Tracks seen (.keyword keyword :: rest) depth) :
    depth.isSome = true ↔ InHints seen := by
  rw [inHints_iff]
  rcases depth with _ | _ | depth
  case none => exact iff_of_false nofun fun ⟨other, opens⟩ => tracks.1 other opens
  case some.zero =>
    obtain ⟨-, -, opening⟩ := tracks
    cases opening
  case some.succ => exact iff_of_true rfl ⟨depth, tracks.1⟩

/-- The policy finds the denied keywords that begin no hint where they stand, and no other. -/
theorem mem_offences_iff {seen kinds : List TokenKind} {depth : HintDepth} {keyword : Keyword}
    (tracks : Tracks seen kinds depth) :
    keyword ∈ offences depth kinds ↔ ∃ before after,
      kinds = before ++ .keyword keyword :: after ∧ keyword.isDenied = true ∧
        ¬BeginsHint (seen ++ before) keyword := by
  induction kinds generalizing seen depth with
  | nil => simp [offences]
  | cons kind rest ih =>
      rw [mem_offences_cons, ih tracks.step]
      constructor
      · rintro (⟨rfl, denied, notHint⟩ | ⟨before, after, rfl, denied, notHint⟩)
        · rw [tracks.isSome_iff] at notHint
          refine ⟨[], rest, rfl, denied, ?_⟩
          rw [List.append_nil]
          exact notHint
        · exact ⟨kind :: before, after, rfl, denied, by simpa using notHint⟩
      · rintro ⟨before, after, split, denied, notHint⟩
        cases before with
        | nil =>
            cases split
            rw [List.append_nil] at notHint
            exact .inl ⟨rfl, denied, by rwa [tracks.isSome_iff]⟩
        | cons other before =>
            cases split
            exact .inr ⟨before, after, rfl, denied, by simpa using notHint⟩

/-! ### The answer of the policy -/

theorem check_eq_ok_iff {kinds : List TokenKind} :
    check kinds = .ok () ↔ offences none kinds = [] := by
  refine ⟨offences_eq_nil_of_check, fun nothing => ?_⟩
  rw [check, nothing]
  rfl

theorem eq_filter_of_check {kinds : List TokenKind} {refused : List Keyword}
    (failed : check kinds = .error refused) :
    refused = Keyword.denied.filter fun keyword => (offences none kinds).contains keyword := by
  unfold check at failed
  dsimp only at failed
  split at failed
  · cases failed
  · cases failed
    rfl

/-- The denied keywords stand in the order of their texts. -/
theorem pairwise_denied : (Keyword.denied.map Keyword.text).Pairwise (· < ·) := by
  decide +kernel

theorem mem_refused_iff {kinds : List TokenKind} {refused : List Keyword} {keyword : Keyword}
    (failed : check kinds = .error refused) :
    keyword ∈ refused ↔ keyword ∈ offences none kinds := by
  rw [eq_filter_of_check failed, List.mem_filter, List.contains_iff_mem]
  refine and_iff_right_of_imp fun member => ?_
  exact List.mem_filter.2 ⟨Keyword.mem_all keyword, isDenied_of_mem_offences member⟩

end Policy

/-! ### Hint lists that are closed -/

namespace Words

variable {opening word : Word} {words left after : Words}

theorem group?_eq_some_iff {group : Group} (opens : opening.kind = .leftParen) :
    group? (opening :: words) = some group ↔
      opening = group.opening ∧ closeGroup? 0 words = some (group.contents, group.behind) := by
  rw [group?, if_pos opens, Option.map_eq_some_iff]
  constructor
  · rintro ⟨⟨contents, behind⟩, closed, rfl⟩
    exact ⟨rfl, closed⟩
  · rintro ⟨rfl, closed⟩
    exact ⟨_, closed, rfl⟩

/-- Up to the word the bracket is still open exactly if the group that is taken holds the word, or
if none can be taken. -/
theorem neverBelow_iff_of_group? (opens : opening.kind = .leftParen)
    (other : word.kind ≠ .rightParen) :
    NeverBelow 0 (left.map Word.kind) ↔
      ∀ group, group? (opening :: (left ++ word :: after)) = some group →
        ∃ right, group.contents = left ++ word :: right := by
  constructor
  · intro stillOpen group found
    obtain ⟨-, closed⟩ := (group?_eq_some_iff opens).1 found
    obtain ⟨counted, closing, closes, split⟩ := exists_of_closeGroup? closed
    rcases exists_of_append_eq split.symm with ⟨right, same, -⟩ | ⟨front, isLeft, further⟩
    · exact ⟨right, same⟩
    · -- Otherwise the closing bracket stands in front of the word, and closes one too many.
      rcases List.append_eq_cons_iff.1 further.symm with ⟨-, same⟩ | ⟨front, rfl, -⟩
      · cases same
        exact absurd closes other
      · obtain ⟨-, total⟩ := openBehind?_eq_some_iff.1 counted
        have fewer := stillOpen ((group.contents ++ [closing]).map Word.kind) (by simp [isLeft])
        simp [closes] at fewer
        omega
  · intro taken
    rcases closed : closeGroup? 0 (left ++ word :: after) with _ | ⟨contents, behind⟩
    · -- A bracket that nothing closes is open at every place behind it.
      obtain ⟨depth, counted⟩ := closeGroup?_eq_none_iff.1 closed
      have never := (openBehind?_eq_some_iff.1 counted).1
      rw [List.map_append] at never
      exact never.of_prefix (List.prefix_append ..)
    · obtain ⟨right, rfl⟩ := taken { opening, contents, behind }
        ((group?_eq_some_iff opens).2 ⟨rfl, closed⟩)
      obtain ⟨counted, -⟩ := exists_of_closeGroup? closed
      have never := (openBehind?_eq_some_iff.1 counted).1
      rw [List.map_append] at never
      exact never.of_prefix (List.prefix_append ..)

end Words

namespace Policy

/-- Whatever the kinds are, and whether or not their brackets match: the policy is content exactly
if each denied keyword is a `USE` that begins a hint, and otherwise it names the denied keywords
that begin none, each once and in the order of their texts.  The bracket behind an `OPTION` is still
open in front of a `USE` exactly if the group that is taken there holds that `USE`, or if none can
be taken because the bracket is never closed. -/
theorem check_refuses (kinds : List TokenKind) :
    (check kinds = .ok () ↔ ∀ before keyword after,
      kinds = before ++ .keyword keyword :: after → keyword.isDenied = true →
        BeginsHint before keyword) ∧
    (∀ refused, check kinds = .error refused →
      (refused.map Keyword.text).Pairwise (· < ·) ∧
      ∀ keyword, keyword ∈ refused ↔ ∃ before after,
        kinds = before ++ .keyword keyword :: after ∧ keyword.isDenied = true ∧
          ¬BeginsHint before keyword) ∧
    ∀ words : Words, words.map Word.kind = kinds → ∀ front option opening left word after,
      words = front ++ option :: opening :: (left ++ word :: after) →
      option.kind = .keyword .OPTION → opening.kind = .leftParen → word.kind = .keyword .USE →
        (NeverBelow 0 (left.map Word.kind) ↔
          ∀ group, Words.group? (opening :: (left ++ word :: after)) = some group →
            ∃ right, group.contents = left ++ word :: right) := by
  have found {keyword : Keyword} : keyword ∈ offences none kinds ↔ ∃ before after,
      kinds = before ++ .keyword keyword :: after ∧ keyword.isDenied = true ∧
        ¬BeginsHint before keyword := mem_offences_iff (.nil kinds)
  refine ⟨?accepted, ?refused, ?region⟩
  case accepted =>
    rw [check_eq_ok_iff, List.eq_nil_iff_forall_not_mem]
    constructor
    · intro nothing before keyword after split denied
      refine Classical.byContradiction fun notHint => ?_
      exact nothing keyword (found.2 ⟨before, after, split, denied, notHint⟩)
    · intro hints keyword member
      obtain ⟨before, after, split, denied, notHint⟩ := found.1 member
      exact notHint (hints before keyword after split denied)
  case refused =>
    intro refused failed
    refine ⟨?_, fun keyword => (mem_refused_iff failed).trans found⟩
    rw [eq_filter_of_check failed]
    exact pairwise_denied.sublist (List.filter_sublist.map Keyword.text)
  case region =>
    intro words _ front option opening left word after _ _ opens isUse
    exact Words.neverBelow_iff_of_group? opens (by simp [isUse])

/-- The words of `) OPTION ((USE), OPTION (USE HINT)) USE DROP USE; OPTION (USE`. -/
def strayHints : Words :=
  (TokenStream.ofString ") OPTION ((USE), OPTION (USE HINT)) USE DROP USE; OPTION (USE").words

/-- A bracket that closes nothing leaves the hints as they are, and the end of an inner list leaves
the outer one open.  Behind the outer one the keywords are refused. -/
theorem check_refuses_strayHints :
    check (strayHints.map Word.kind) = .error [.DROP, .USE] ∧
      ([.DROP, .USE].map Keyword.text).Pairwise (· < ·) ∧
      (∃ before after, strayHints.map Word.kind = before ++ .keyword .USE :: after ∧
        Keyword.USE.isDenied = true ∧ ¬BeginsHint before .USE) ∧
      check ((strayHints.take 13).map Word.kind) = .ok () ∧
      BeginsHint ((strayHints.take 9).map Word.kind) .USE ∧
      (∃ group, Words.group? (strayHints.drop 2) = some group ∧
        group.contents = (strayHints.drop 3).take 9) ∧
      NeverBelow 0 (((strayHints.drop 3).take 6).map Word.kind) := by
  let opening := strayHints.getD 2 default
  let left := (strayHints.drop 3).take 6
  let word := strayHints.getD 9 default
  let contents := (strayHints.drop 3).take 9
  obtain ⟨failed, passed, inside, taken, whole, behind, isOption, opens, isUse, held⟩ :
      check (strayHints.map Word.kind) = .error [.DROP, .USE] ∧
      check ((strayHints.take 13).map Word.kind) = .ok () ∧
      (strayHints.take 13).map Word.kind = (strayHints.take 9).map Word.kind ++
        .keyword .USE :: ((strayHints.drop 10).take 3).map Word.kind ∧
      Words.group? (strayHints.drop 2) =
        some { opening, contents, behind := strayHints.drop 13 } ∧
      strayHints = strayHints.take 1 ++ strayHints.getD 1 default :: strayHints.drop 2 ∧
      strayHints.drop 2 = opening :: (left ++ word :: strayHints.drop 10) ∧
      (strayHints.getD 1 default).kind = .keyword .OPTION ∧ opening.kind = .leftParen ∧
      word.kind = .keyword .USE ∧ contents = left ++ word :: (strayHints.drop 10).take 2 := by
    decide +kernel
  obtain ⟨-, refused, region⟩ := check_refuses (strayHints.map Word.kind)
  obtain ⟨ascending, member⟩ := refused _ failed
  have hint := (check_refuses ((strayHints.take 13).map Word.kind)).1.1 passed _ .USE _ inside rfl
  rw [behind] at whole taken
  have stillOpen := (region strayHints rfl _ _ opening left word _ whole isOption opens isUse).2
  refine ⟨failed, ascending, (member .USE).1 (by simp), passed, hint, ?_, stillOpen ?_⟩
  · rw [behind]
    exact ⟨_, taken, rfl⟩
  · intro group found
    rw [taken] at found
    cases found
    exact ⟨_, held⟩

end Policy

end SelectTree
