/-
Module: SelectTree.Proofs.Policy.OptionGroup
Purpose: what the keyword policy lets pass in words in which every bracket is closed.
Main exports: OptionGroup, OptionGroup.Holding, Words.Seen, Words.Balanced.seen,
  Policy.offences_eq_nil_of_check, Policy.next, Policy.mem_offences_cons, Policy.Exempts,
  Policy.passes_seen

The policy counts brackets from an `OPTION` on, wherever that stands.  In words in which every
bracket is closed it comes back to where it began, so what it lets pass there stands in brackets
behind an `OPTION` of these words.
-/
import SelectTree.Parse
import SelectTree.Proofs.Words.Part

namespace SelectTree

/-- The policy refuses a word of this kind, or it would outside of brackets behind `OPTION`. -/
def TokenKind.isDenied : TokenKind → Bool
  | .keyword word => word.isDenied
  | _ => false

/-- `OPTION` and brackets behind it, between which every bracket is closed. -/
structure OptionGroup where
  option : Word
  opening : Word
  contents : Words
  closing : Word
  isOption : option.kind = .keyword .OPTION
  opens : opening.kind = .leftParen
  closes : closing.kind = .rightParen
  balanced : contents.Balanced

namespace OptionGroup

def words (group : OptionGroup) : Words :=
  group.option :: group.opening :: (group.contents ++ [group.closing])

theorem words_append (group : OptionGroup) (rest : Words) :
    group.words ++ rest =
      group.option :: group.opening :: (group.contents ++ group.closing :: rest) := by
  simp [words]

/-- The word that stands between these words stands between the brackets of the group, which has a
front and a back around it. -/
def Holds (group : OptionGroup) (front before : Words) (word : Word) (after back : Words) : Prop :=
  ∃ left right, group.contents = left ++ word :: right ∧
    before = front ++ group.option :: group.opening :: left ∧
    after = right ++ group.closing :: back

theorem Holds.around {group : OptionGroup} {front before after back : Words} {word : Word}
    (holds : group.Holds front before word after back) (first last : Words) :
    group.Holds (first ++ front) (first ++ before) word (after ++ last) (back ++ last) := by
  obtain ⟨left, right, contents, rfl, rfl⟩ := holds
  exact ⟨left, right, contents, by simp, by simp⟩

/-- Together the words are those of the group with what is in front of it and behind it. -/
theorem Holds.eq_append {group : OptionGroup} {front before after back : Words} {word : Word}
    (holds : group.Holds front before word after back) :
    before ++ word :: after = front ++ (group.words ++ back) := by
  obtain ⟨left, right, contents, rfl, rfl⟩ := holds
  rw [words_append, contents]
  simp

/-- The word that stands between these words stands in such brackets. -/
def Holding (before : Words) (word : Word) (after : Words) : Prop :=
  ∃ (group : OptionGroup) (front back : Words), group.Holds front before word after back

end OptionGroup

/-! ### Balanced words as the policy sees them -/

namespace Words

/-- A word of two sequences is in the first of them or in the second. -/
theorem exists_of_append_eq {first second before after : Words} {word : Word}
    (split : first ++ second = before ++ word :: after) :
    (∃ rest, first = before ++ word :: rest ∧ after = rest ++ second) ∨
      ∃ front, before = first ++ front ∧ second = front ++ word :: after := by
  rcases List.append_eq_append_iff.1 split with ⟨front, same, behind⟩ | ⟨rest, same, behind⟩
  · exact .inr ⟨front, same, behind⟩
  · cases rest with
    | nil => exact .inr ⟨[], by simpa using same.symm, behind.symm⟩
    | cons other rest =>
        cases behind
        exact .inl ⟨rest, same, rfl⟩

/-- Words in which every bracket is closed, with each `OPTION` and the brackets behind it as one. -/
inductive Seen : Words → Prop where
  | nil : Seen []
  | word {word : Word} {rest : Words} : isBracket word.kind = false →
      (word.kind = .keyword .OPTION → rest.head?.map Word.kind ≠ some .leftParen) →
      Seen rest → Seen (word :: rest)
  | bracket {opening closing : Word} {inner rest : Words} : opening.kind = .leftParen →
      closing.kind = .rightParen → Seen inner → Seen rest →
      Seen (opening :: (inner ++ closing :: rest))
  | option (group : OptionGroup) {rest : Words} : Seen rest → Seen (group.words ++ rest)

/-- An opening bracket in front of balanced words begins a group. -/
theorem Balanced.exists_group {opening : Word} {words : Words}
    (balanced : Balanced (opening :: words)) (opens : opening.kind = .leftParen) :
    ∃ (inner : Words) (closing : Word) (rest : Words), words = inner ++ closing :: rest ∧
      closing.kind = .rightParen ∧ inner.Balanced ∧ rest.Balanced := by
  rcases closed : closeGroup? 0 words with _ | ⟨inner, rest⟩
  · exact absurd ⟨opens, words, List.suffix_refl _, closed⟩ (balanced.not_unclosed opening)
  · obtain ⟨counted, closing, closes, rfl⟩ := exists_of_closeGroup? closed
    have cut : Balanced ((opening :: inner ++ [closing]) ++ rest) := by simpa using balanced
    have inside : inner.Balanced := counted
    exact ⟨inner, closing, rest, rfl, closes, inside, cut.of_append (inside.group opens closes)⟩

theorem Balanced.seen {words : Words} (balanced : words.Balanced) : words.Seen := by
  induction length : words.length using Nat.strongRecOn generalizing words with
  | _ count ih =>
    cases words with
    | nil => exact .nil
    | cons word rest =>
        have seen {part : Words} (balanced : part.Balanced)
            (shorter : part.length < (word :: rest).length) : part.Seen :=
          ih part.length (length ▸ shorter) balanced rfl
        by_cases plain : isBracket word.kind = false
        · have restBalanced := balanced.of_cons plain
          by_cases isOption : word.kind = .keyword .OPTION ∧
              rest.head?.map Word.kind = some .leftParen
          · obtain ⟨isOption, next⟩ := isOption
            obtain ⟨opening, isHead, opens⟩ := Option.map_eq_some_iff.1 next
            obtain ⟨others, rfl⟩ := List.head?_eq_some_iff.1 isHead
            obtain ⟨contents, closing, behind, rfl, closes, inside, behindBalanced⟩ :=
              restBalanced.exists_group opens
            let group : OptionGroup :=
              { option := word, opening, contents, closing, isOption, opens, closes,
                balanced := inside }
            have whole : word :: opening :: (contents ++ closing :: behind) =
                group.words ++ behind := (group.words_append behind).symm
            rw [whole]
            exact .option group (seen behindBalanced (by grind))
          · exact .word plain (fun isWord next => isOption ⟨isWord, next⟩)
              (seen restBalanced (Nat.lt_succ_self _))
        · cases opens : word.kind with
          | leftParen =>
              obtain ⟨inner, closing, behind, rfl, closes, inside, behindBalanced⟩ :=
                balanced.exists_group opens
              exact .bracket opens closes (seen inside (by grind))
                (seen behindBalanced (by grind))
          | rightParen =>
              -- Nothing is open that the bracket could close.
              rw [Balanced, openBehind?, if_pos (by simp [closesNothing, opens])] at balanced
              cases balanced
          | _ => exact absurd (by rw [opens]; rfl) plain

end Words

/-! ### Steps of the policy -/

namespace Policy

open Words (closesNothing depthBehind openBehind?)

theorem isDenied_of_mem_offences {depth : HintDepth} {kinds : List TokenKind} {keyword : Keyword}
    (member : keyword ∈ offences depth kinds) : keyword.isDenied = true := by
  fun_induction offences depth kinds with
  | case1 => cases member
  | case6 depth other rest _ _ denied ih =>
      rcases List.mem_cons.1 member with rfl | member
      · exact denied
      · exact ih member
  | _ => rename_i ih; exact ih member

/-- Kinds that pass have no offence among them. -/
theorem offences_eq_nil_of_check {kinds : List TokenKind} (passed : check kinds = .ok ()) :
    offences none kinds = [] := by
  rw [List.eq_nil_iff_forall_not_mem]
  intro keyword member
  unfold check at passed
  dsimp only at passed
  split at passed
  · next none =>
      have denied : keyword ∈ Keyword.denied :=
        List.mem_filter.2 ⟨Keyword.mem_all keyword, isDenied_of_mem_offences member⟩
      have kept := List.mem_filter.2 ⟨denied, List.contains_iff_mem.2 member⟩
      rw [none] at kept
      cases kept
  · cases passed

/-- Apart from `OPTION` outside and `USE` inside it counts whether a keyword is denied. -/
theorem offences_keyword (depth : HintDepth) (keyword : Keyword) (kinds : List TokenKind)
    (notOption : depth = none → keyword ≠ .OPTION) (notUse : depth.isSome → keyword ≠ .USE) :
    offences depth (.keyword keyword :: kinds) =
      if keyword.isDenied then keyword :: offences depth kinds else offences depth kinds := by
  conv => lhs; unfold offences
  cases depth with
  | none =>
      have other := notOption rfl
      simp
  | some depth =>
      have other := notUse rfl
      simp [other]

/-- Where the policy is behind a kind that these follow. -/
def next : HintDepth → TokenKind → List TokenKind → HintDepth
  | none, kind, rest =>
      if kind = .keyword .OPTION ∧ rest.head? = some .leftParen then some 0 else none
  | some depth, .leftParen, _ => some (depth + 1)
  | some depth, .rightParen, _ => if depth ≤ 1 then none else some (depth - 1)
  | some depth, _, _ => some depth

/-- Only `USE` in a hint list is passed over. -/
theorem mem_offences_cons {depth : HintDepth} {kind : TokenKind} {rest : List TokenKind}
    {keyword : Keyword} :
    keyword ∈ offences depth (kind :: rest) ↔
      (kind = .keyword keyword ∧ keyword.isDenied = true ∧ ¬(keyword = .USE ∧ depth.isSome)) ∨
        keyword ∈ offences (next depth kind rest) rest := by
  cases kind with
  | keyword word =>
      by_cases isOption : depth = none ∧ word = .OPTION
      · obtain ⟨rfl, rfl⟩ := isOption
        have free : Keyword.OPTION.isDenied = false := rfl
        simp only [offences, next, true_and]
        refine (or_iff_right ?_).symm
        rintro ⟨same, denied, -⟩
        cases same
        rw [free] at denied
        cases denied
      · have stays : next depth (.keyword word) rest = depth := by
          cases depth with
          | none =>
              have other : word ≠ .OPTION := fun same => isOption ⟨rfl, same⟩
              simp [next, other]
          | some depth => rfl
        rw [stays]
        by_cases isUse : depth.isSome ∧ word = .USE
        · obtain ⟨isSome, rfl⟩ := isUse
          obtain ⟨depth, rfl⟩ := Option.isSome_iff_exists.1 isSome
          simp only [offences]
          refine (or_iff_right ?_).symm
          rintro ⟨same, -, outside⟩
          cases same
          exact outside ⟨rfl, rfl⟩
        · rw [offences_keyword depth word rest (fun isNone same => isOption ⟨isNone, same⟩)
            fun isSome same => isUse ⟨isSome, same⟩]
          split <;> grind
  | _ => cases depth <;> simp [offences, next]

/-- If nothing is found from a kind on, then the kind passes where it stands. -/
theorem offences_cons_eq_nil {depth : HintDepth} {kind : TokenKind} {rest : List TokenKind} :
    offences depth (kind :: rest) = [] ↔
      (kind.isDenied = true → kind = .keyword .USE ∧ depth.isSome = true) ∧
        offences (next depth kind rest) rest = [] := by
  simp only [List.eq_nil_iff_forall_not_mem, mem_offences_cons, not_or]
  constructor
  · intro nothing
    refine ⟨fun denied => ?_, fun keyword => (nothing keyword).2⟩
    cases kind with
    | keyword keyword =>
        have isHint : keyword = .USE ∧ depth.isSome = true :=
          Classical.byContradiction fun other => (nothing keyword).1 ⟨rfl, denied, other⟩
        exact ⟨congrArg TokenKind.keyword isHint.1, isHint.2⟩
    | _ => cases denied
  · rintro ⟨passes, others⟩ keyword
    refine ⟨?_, others keyword⟩
    rintro ⟨rfl, denied, other⟩
    obtain ⟨same, isSome⟩ := passes denied
    cases same
    exact other ⟨rfl, isSome⟩

/-- Outside of brackets behind `OPTION` nothing denied passes. -/
theorem step_outside {kind : TokenKind} {kinds : List TokenKind}
    (other : kind = .keyword .OPTION → kinds.head? ≠ some .leftParen)
    (passes : offences none (kind :: kinds) = []) :
    offences none kinds = [] ∧ kind.isDenied = false := by
  obtain ⟨exempt, goesOn⟩ := offences_cons_eq_nil.1 passes
  rw [next, if_neg fun ⟨isOption, opening⟩ => other isOption opening] at goesOn
  exact ⟨goesOn, Bool.eq_false_iff.2 fun denied => nomatch (exempt denied).2⟩

theorem step_bracket {kind : TokenKind} {kinds : List TokenKind}
    (bracket : Words.isBracket kind = true) (passes : offences none (kind :: kinds) = []) :
    offences none kinds = [] := by
  refine (step_outside ?_ passes).1
  rintro rfl
  cases bracket

/-- Between these brackets only `USE` passes, and the depth is counted. -/
theorem step_inside {depth : Nat} {word : Word} {kinds : List TokenKind}
    (opens : closesNothing depth word = false)
    (passes : offences (some (depth + 1)) (word.kind :: kinds) = []) :
    offences (some (depthBehind depth word.kind + 1)) kinds = [] ∧
      (word.kind.isDenied = true → word.kind = .keyword .USE) := by
  have counted : next (some (depth + 1)) word.kind kinds =
      some (depthBehind depth word.kind + 1) := by
    obtain ⟨kind, text, glued, index⟩ := word
    cases kind with
    | rightParen =>
        have inside : depth ≠ 0 := by simpa [closesNothing] using opens
        obtain ⟨depth, rfl⟩ := Nat.exists_eq_add_one_of_ne_zero inside
        rfl
    | _ => rfl
  obtain ⟨exempt, goesOn⟩ := offences_cons_eq_nil.1 passes
  rw [counted] at goesOn
  exact ⟨goesOn, fun denied => (exempt denied).1⟩

theorem passes_inside {inner : Words} {depth left : Nat} {kinds : List TokenKind}
    (counted : openBehind? depth inner = some left)
    (passes : offences (some (depth + 1)) (inner.map Word.kind ++ kinds) = []) :
    offences (some (left + 1)) kinds = [] ∧
      ∀ word ∈ inner, word.kind.isDenied = true → word.kind = .keyword .USE := by
  induction inner generalizing depth with
  | nil =>
      cases counted
      exact ⟨passes, nofun⟩
  | cons word inner ih =>
      rw [openBehind?] at counted
      split at counted
      · cases counted
      · next opens =>
          obtain ⟨goesOn, first⟩ := step_inside (Bool.eq_false_iff.2 opens) passes
          obtain ⟨behind, others⟩ := ih counted goesOn
          refine ⟨behind, ?_⟩
          intro other member denied
          rcases List.mem_cons.1 member with rfl | member
          · exact first denied
          · exact others other member denied

/-- Behind a group the policy is where it was in front of it. -/
theorem passes_group (group : OptionGroup) {kinds : List TokenKind}
    (passes : offences none (group.words.map Word.kind ++ kinds) = []) :
    offences none kinds = [] ∧
      ∀ word ∈ group.contents, word.kind.isDenied = true → word.kind = .keyword .USE := by
  simp only [OptionGroup.words, List.map_cons, List.map_append, List.map_nil, group.isOption,
    group.opens, group.closes, List.cons_append, List.append_assoc, List.nil_append] at passes
  exact passes_inside group.balanced passes

/-! ### What passes -/

/-- Of the denied words only `USE` is among these words, and where it stands is such a place. -/
def Exempts (IsPlace : Words → Word → Words → Prop) (words : Words) : Prop :=
  ∀ before word after, words = before ++ word :: after → word.kind.isDenied = true →
    word.kind = .keyword .USE ∧ IsPlace before word after

/-- Such a place is one also with more words around. -/
def Extends (IsPlace : Words → Word → Words → Prop) : Prop :=
  ∀ {before word after} (first last : Words), IsPlace before word after →
    IsPlace (first ++ before) word (after ++ last)

theorem holding_extends : Extends OptionGroup.Holding := by
  rintro before word after first last ⟨group, front, back, holds⟩
  exact ⟨group, _, _, holds.around first last⟩

namespace Exempts

variable {IsPlace IsOther : Words → Word → Words → Prop}

theorem nil : Exempts IsPlace [] := by
  intro before word after split
  simp at split

theorem word {word : Word} (free : word.kind.isDenied = false) : Exempts IsPlace [word] := by
  intro before other after split denied
  have member : other ∈ [word] := by simp [split]
  obtain rfl := List.mem_singleton.1 member
  rw [free] at denied
  cases denied

theorem append (goesOn : Extends IsPlace) {first second : Words} (one : Exempts IsPlace first)
    (two : Exempts IsPlace second) : Exempts IsPlace (first ++ second) := by
  intro before word after split denied
  rcases Words.exists_of_append_eq split with ⟨rest, inFirst, rfl⟩ | ⟨front, rfl, inSecond⟩
  · obtain ⟨isUse, place⟩ := one before word rest inFirst denied
    exact ⟨isUse, goesOn [] second place⟩
  · obtain ⟨isUse, place⟩ := two front word after inSecond denied
    have behind := goesOn first [] place
    rw [List.append_nil] at behind
    exact ⟨isUse, behind⟩

theorem imp {words : Words} (exempts : Exempts IsPlace words)
    (other : ∀ before word after, words = before ++ word :: after → IsPlace before word after →
      IsOther before word after) : Exempts IsOther words := by
  intro before word after split denied
  obtain ⟨isUse, place⟩ := exempts before word after split denied
  exact ⟨isUse, other before word after split place⟩

theorem group (group : OptionGroup)
    (inside : ∀ word ∈ group.contents, word.kind.isDenied = true → word.kind = .keyword .USE) :
    Exempts (fun before word after => group.Holds [] before word after []) group.words := by
  intro before word after split denied
  have other {kind : TokenKind} (free : kind.isDenied = false) : word.kind ≠ kind := by
    intro same
    rw [same, free] at denied
    cases denied
  have cut : [group.option, group.opening] ++ (group.contents ++ [group.closing]) =
      before ++ word :: after := split
  rcases Words.exists_of_append_eq cut with ⟨rest, inFront, -⟩ | ⟨behind, rfl, further⟩
  · have member : word ∈ [group.option, group.opening] := by simp [inFront]
    simp only [List.mem_cons, List.not_mem_nil, or_false] at member
    rcases member with rfl | rfl
    · exact absurd group.isOption (other rfl)
    · exact absurd group.opens (other rfl)
  · rcases Words.exists_of_append_eq further with ⟨rest, contents, rfl⟩ | ⟨last, rfl, isLast⟩
    · have member : word ∈ group.contents := by simp [contents]
      exact ⟨inside word member denied, behind, rest, contents, rfl, rfl⟩
    · have member : word ∈ [group.closing] := by simp [isLast]
      obtain rfl := List.mem_singleton.1 member
      exact absurd group.closes (other rfl)

end Exempts

/-- Behind balanced words the policy is where it was in front of them, unless an `OPTION` at their
end gets a bracket. -/
theorem passes_seen {words : Words} (seen : words.Seen) {next : TokenKind} {kinds : List TokenKind}
    (noBracket : next ≠ .leftParen)
    (passes : offences none (words.map Word.kind ++ next :: kinds) = []) :
    offences none (next :: kinds) = [] ∧ Exempts OptionGroup.Holding words := by
  induction seen generalizing next kinds with
  | nil => exact ⟨passes, .nil⟩
  | @word word rest plain noGroup _ ih =>
      have notOpened : word.kind = .keyword .OPTION →
          (rest.map Word.kind ++ next :: kinds).head? ≠ some .leftParen := by
        intro isOption
        cases rest with
        | nil => simpa using noBracket
        | cons other rest => simpa using noGroup isOption
      obtain ⟨goesOn, free⟩ := step_outside notOpened passes
      obtain ⟨behind, exempts⟩ := ih noBracket goesOn
      exact ⟨behind, (Exempts.word free).append holding_extends exempts⟩
  | @bracket opening closing inner rest opens closes _ _ ihInner ihRest =>
      simp only [List.map_cons, List.map_append, opens, closes, List.cons_append,
        List.append_assoc] at passes
      obtain ⟨closed, exemptsInner⟩ := ihInner (by decide) (step_bracket rfl passes)
      have goesOn := step_bracket rfl closed
      obtain ⟨behind, exemptsRest⟩ := ihRest noBracket goesOn
      have opened : opening.kind.isDenied = false := by rw [opens]; rfl
      have ended : closing.kind.isDenied = false := by rw [closes]; rfl
      exact ⟨behind, (Exempts.word opened).append holding_extends (exemptsInner.append
        holding_extends ((Exempts.word ended).append holding_extends exemptsRest))⟩
  | @option group rest _ ih =>
      rw [List.map_append, List.append_assoc] at passes
      obtain ⟨goesOn, inside⟩ := passes_group group passes
      obtain ⟨behind, exempts⟩ := ih noBracket goesOn
      have held : Exempts OptionGroup.Holding group.words :=
        (Exempts.group group inside).imp fun _ _ _ _ holds => ⟨group, [], [], holds⟩
      exact ⟨behind, held.append holding_extends exempts⟩

end Policy

end SelectTree
