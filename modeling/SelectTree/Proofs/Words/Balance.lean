/-
Module: SelectTree.Proofs.Words.Balance
Purpose: words in which every bracket is closed, and where the bracket around such words ends.
Main exports: TokenKind.NeverBelow, Words.openBehind?, Words.openBehind?_eq_some_iff,
  Words.Balanced, Words.Passes, Words.group?_bracket, Words.Passes.of_group?,
  Words.Passes.of_firstKeyword?, Words.balanced_of_splitCommas
-/
import SelectTree.Words.Segment

namespace SelectTree

/-! ### Fronts of kinds -/

namespace TokenKind

/-- No front closes more brackets than it opens if so many are open before it. -/
def NeverBelow (depth : Nat) (kinds : List TokenKind) : Prop :=
  ∀ front, front <+: kinds → front.count .rightParen ≤ depth + front.count .leftParen

theorem neverBelow_cons {depth : Nat} {kind : TokenKind} {kinds : List TokenKind} :
    NeverBelow depth (kind :: kinds) ↔
      ∀ front, front <+: kinds →
        (kind :: front).count .rightParen ≤ depth + (kind :: front).count .leftParen := by
  constructor
  · intro never front begins
    exact never (kind :: front) (List.cons_prefix_cons.2 ⟨rfl, begins⟩)
  · intro never front begins
    rcases List.prefix_cons_iff.1 begins with rfl | ⟨inner, rfl, further⟩
    · exact Nat.zero_le _
    · exact never inner further

theorem NeverBelow.of_prefix {depth : Nat} {front kinds : List TokenKind}
    (never : NeverBelow depth kinds) (begins : front <+: kinds) : NeverBelow depth front :=
  fun part isPart => never part (isPart.trans begins)

/-- One more kind closes no bracket that is not open if the numbers of brackets say so. -/
theorem neverBelow_concat {depth : Nat} {kinds : List TokenKind} {kind : TokenKind} :
    NeverBelow depth (kinds ++ [kind]) ↔ NeverBelow depth kinds ∧
      (kinds ++ [kind]).count .rightParen ≤ depth + (kinds ++ [kind]).count .leftParen := by
  constructor
  · intro never
    exact ⟨never.of_prefix (List.prefix_append ..), never _ (List.prefix_refl _)⟩
  · rintro ⟨never, whole⟩ front begins
    rcases List.prefix_concat_iff.1 begins with rfl | further
    · exact whole
    · exact never front further

end TokenKind

namespace Words

open TokenKind (NeverBelow)

/-- The word closes a bracket that is not open. -/
def closesNothing (depth : Nat) (word : Word) : Bool :=
  depth == 0 && word.kind == .rightParen

/-- The number of brackets that are open behind a sequence of words when so many are open before
it.  There is none if a bracket is closed that is not open. -/
def openBehind? : Nat → Words → Option Nat
  | depth, [] => some depth
  | depth, word :: words =>
      if closesNothing depth word then none
      else openBehind? (depthBehind depth word.kind) words

/-- Every bracket that is opened is closed, and no other. -/
def Balanced (words : Words) : Prop :=
  openBehind? 0 words = some 0

instance (words : Words) : Decidable words.Balanced :=
  inferInstanceAs (Decidable (openBehind? 0 words = some 0))

theorem depthBehind_of_not_isBracket {word : Word} (depth : Nat)
    (plain : isBracket word.kind = false) : depthBehind depth word.kind = depth := by
  obtain ⟨kind, text, glued, index⟩ := word
  cases kind <;> first | rfl | cases plain

theorem closesNothing_of_not_isBracket {word : Word} (depth : Nat)
    (plain : isBracket word.kind = false) : closesNothing depth word = false := by
  have other : word.kind ≠ .rightParen := by
    intro closes
    rw [closes] at plain
    cases plain
  simp [closesNothing, other]

/-- Brackets around everything change nothing but the depth. -/
theorem depthBehind_add {depth : Nat} {word : Word} (outer : Nat)
    (closes : closesNothing depth word = false) :
    closesNothing (depth + outer) word = false ∧
      depthBehind (depth + outer) word.kind = depthBehind depth word.kind + outer := by
  obtain ⟨kind, text, glued, index⟩ := word
  cases kind with
  | rightParen =>
      have inside : depth ≠ 0 := by simpa [closesNothing] using closes
      constructor
      · simp [closesNothing, inside]
      · simp only [depthBehind]
        omega
  | leftParen => simp [closesNothing, depthBehind, Nat.add_right_comm]
  | _ => simp [closesNothing, depthBehind]

theorem openBehind?_append (first second : Words) (depth : Nat) :
    openBehind? depth (first ++ second) =
      (openBehind? depth first).bind fun inner => openBehind? inner second := by
  induction first generalizing depth with
  | nil => rfl
  | cons word first ih =>
      simp only [List.cons_append, openBehind?]
      split
      · rfl
      · exact ih _

theorem openBehind?_add {words : Words} {depth behind : Nat} (outer : Nat)
    (counted : openBehind? depth words = some behind) :
    openBehind? (depth + outer) words = some (behind + outer) := by
  induction words generalizing depth with
  | nil =>
      cases counted
      rfl
  | cons word words ih =>
      rw [openBehind?] at counted
      split at counted
      · cases counted
      · next opens =>
          obtain ⟨stillOpens, deeper⟩ := depthBehind_add outer (Bool.eq_false_iff.2 opens)
          rw [openBehind?, stillOpens, deeper]
          exact ih counted

/-- A word changes the depth by what it opens and by what it closes. -/
theorem depthBehind_add_count {depth : Nat} {word : Word}
    (opens : closesNothing depth word = false) (kinds : List TokenKind) :
    depthBehind depth word.kind + kinds.count .leftParen + (word.kind :: kinds).count .rightParen =
      depth + (word.kind :: kinds).count .leftParen + kinds.count .rightParen := by
  obtain ⟨kind, text, glued, index⟩ := word
  cases kind with
  | leftParen =>
      simp [depthBehind]
      omega
  | rightParen =>
      have inside : depth ≠ 0 := by simpa [closesNothing] using opens
      simp [depthBehind]
      omega
  | _ => simp [depthBehind]

/-- The depth behind words is what the numbers of their brackets say. -/
theorem openBehind?_eq_some_iff {depth behind : Nat} {words : Words} :
    openBehind? depth words = some behind ↔
      NeverBelow depth (words.map Word.kind) ∧
        behind + (words.map Word.kind).count .rightParen =
          depth + (words.map Word.kind).count .leftParen := by
  induction words generalizing depth with
  | nil =>
      have never : NeverBelow depth [] := by
        intro front begins
        cases List.prefix_nil.1 begins
        exact Nat.zero_le _
      simp [openBehind?, never, eq_comm]
  | cons word words ih =>
      rw [openBehind?, List.map_cons, TokenKind.neverBelow_cons]
      cases closes : closesNothing depth word with
      | true =>
          obtain ⟨rfl, isClosing⟩ : depth = 0 ∧ word.kind = .rightParen := by
            simpa [closesNothing] using closes
          refine iff_of_false (by simp) ?_
          rintro ⟨never, -⟩
          have first := never [] List.nil_prefix
          simp [isClosing] at first
      | false =>
          rw [if_neg Bool.false_ne_true, ih]
          apply and_congr
          · refine forall₂_congr fun front _ => ?_
            have counts := depthBehind_add_count closes front
            omega
          · have counts := depthBehind_add_count closes (words.map Word.kind)
            omega

namespace Balanced

theorem nil : Balanced [] := rfl

theorem word {word : Word} (plain : isBracket word.kind = false) : Balanced [word] := by
  unfold Balanced openBehind?
  rw [closesNothing_of_not_isBracket 0 plain, depthBehind_of_not_isBracket 0 plain]
  rfl

theorem append {first second : Words} (one : first.Balanced) (two : second.Balanced) :
    Balanced (first ++ second) := by
  unfold Words.Balanced at one ⊢
  rw [openBehind?_append, one]
  exact two

/-- Behind words that change no depth the rest is balanced if all is. -/
theorem of_append {front behind : Words} (whole : Balanced (front ++ behind))
    (balanced : front.Balanced) : behind.Balanced := by
  unfold Words.Balanced at whole balanced
  rw [openBehind?_append, balanced] at whole
  exact whole

theorem of_cons {word : Word} {behind : Words} (whole : Balanced (word :: behind))
    (plain : isBracket word.kind = false) : behind.Balanced := by
  have cut : Balanced ([word] ++ behind) := whole
  exact cut.of_append (.word plain)

/-- Balanced words in a bracket. -/
theorem group {opening closing : Word} {inner : Words} (balanced : inner.Balanced)
    (opens : opening.kind = .leftParen) (closes : closing.kind = .rightParen) :
    Balanced (opening :: inner ++ [closing]) := by
  have inside : openBehind? 1 inner = some 1 := openBehind?_add 1 balanced
  unfold Words.Balanced
  simp [openBehind?, opens, closes, closesNothing, depthBehind, openBehind?_append, inside]

end Balanced

/-! ### Bracket groups -/

theorem closeGroup?_cons (depth : Nat) (word : Word) (words : Words) :
    closeGroup? depth (word :: words) =
      if closesNothing depth word then some ([], words)
      else (closeGroup? (depthBehind depth word.kind) words).map fun (inside, behind) =>
        (word :: inside, behind) := by
  obtain ⟨kind, text, glued, index⟩ := word
  cases kind with
  | rightParen => cases depth <;> rfl
  | _ => simp [closeGroup?, closesNothing, depthBehind]

/-- A group ends where a bracket is closed that is not open. -/
theorem closeGroup?_append {inner : Words} {depth : Nat} {closing : Word} (behind : Words)
    (counted : openBehind? depth inner = some 0) (closes : closing.kind = .rightParen) :
    closeGroup? depth (inner ++ closing :: behind) = some (inner, behind) := by
  induction inner generalizing depth with
  | nil =>
      cases counted
      rw [List.nil_append, closeGroup?_cons, if_pos (by simp [closesNothing, closes])]
  | cons word inner ih =>
      rw [openBehind?] at counted
      split at counted
      · cases counted
      · next opens =>
          rw [List.cons_append, closeGroup?_cons, if_neg opens, ih counted]
          rfl

theorem exists_of_closeGroup? {words inner behind : Words} {depth : Nat}
    (closed : closeGroup? depth words = some (inner, behind)) :
    openBehind? depth inner = some 0 ∧
      ∃ closing : Word, closing.kind = .rightParen ∧ words = inner ++ closing :: behind := by
  induction words generalizing depth inner with
  | nil => cases closed
  | cons word words ih =>
      rw [closeGroup?_cons] at closed
      split at closed
      · next ends =>
          cases closed
          simp only [closesNothing, Bool.and_eq_true, beq_iff_eq] at ends
          obtain ⟨rfl, closes⟩ := ends
          exact ⟨rfl, word, closes, rfl⟩
      · next goesOn =>
          obtain ⟨⟨rest, behind⟩, found, same⟩ := Option.map_eq_some_iff.1 closed
          cases same
          obtain ⟨counted, closing, closes, rfl⟩ := ih found
          exact ⟨by rw [openBehind?, if_neg goesOn, counted], closing, closes, rfl⟩

/-- A bracket around balanced words ends behind these words. -/
theorem group?_bracket {opening closing : Word} {inner : Words} (behind : Words)
    (opens : opening.kind = .leftParen) (balanced : inner.Balanced)
    (closes : closing.kind = .rightParen) :
    group? (opening :: inner ++ closing :: behind) =
      some { opening, contents := inner, behind } := by
  rw [List.cons_append, group?, if_pos opens, closeGroup?_append behind balanced closes]
  rfl

/-- What stands in a bracket group is balanced. -/
theorem exists_of_group? {words : Words} {group : Group} (found : group? words = some group) :
    group.opening.kind = .leftParen ∧ group.contents.Balanced ∧
      ∃ closing : Word, closing.kind = .rightParen ∧
        words = group.opening :: group.contents ++ closing :: group.behind := by
  cases words with
  | nil => cases found
  | cons opening words =>
      rw [group?] at found
      split at found
      · next opens =>
          obtain ⟨⟨contents, behind⟩, closed, rfl⟩ := Option.map_eq_some_iff.1 found
          obtain ⟨balanced, closing, closes, rfl⟩ := exists_of_closeGroup? closed
          exact ⟨opens, balanced, closing, closes, rfl⟩
      · cases found

/-! ### Consuming balanced words -/

/-- The words in front of the rest are balanced. -/
def Passes (words rest : Words) : Prop :=
  ∃ front : Words, front.Balanced ∧ words = front ++ rest

namespace Passes

theorem refl (words : Words) : words.Passes words :=
  ⟨[], .nil, rfl⟩

theorem trans {words middle rest : Words} (one : words.Passes middle)
    (two : middle.Passes rest) : words.Passes rest := by
  obtain ⟨front, balanced, rfl⟩ := one
  obtain ⟨next, alsoBalanced, rfl⟩ := two
  exact ⟨front ++ next, balanced.append alsoBalanced, (List.append_assoc ..).symm⟩

theorem of_group? {words : Words} {group : Group} (found : group? words = some group) :
    words.Passes group.behind := by
  obtain ⟨opens, balanced, closing, closes, rfl⟩ := exists_of_group? found
  exact ⟨group.opening :: group.contents ++ [closing], balanced.group opens closes, by simp⟩

/-- A word that is no bracket is passed by itself. -/
theorem word {word : Word} {words : Words} (plain : isBracket word.kind = false) :
    Passes (word :: words) words :=
  ⟨[word], .word plain, rfl⟩

/-- All words are balanced if none is left. -/
theorem nil_iff {words : Words} : words.Passes [] ↔ words.Balanced := by
  constructor
  · rintro ⟨front, balanced, rfl⟩
    rwa [List.append_nil]
  · intro balanced
    exact ⟨words, balanced, (List.append_nil words).symm⟩

end Passes

/-! ### Parts of balanced words -/

section BreakTop

variable {isMember : Word → Bool} {words rest : Words} {word : Word} {depth : Nat}

theorem breakTopFrom_append (isMember : Word → Bool) (depth : Nat) (words : Words) :
    (breakTopFrom isMember depth words).1 ++ (breakTopFrom isMember depth words).2 = words := by
  induction words generalizing depth with
  | nil => rfl
  | cons word words ih =>
      rw [breakTopFrom]
      split
      · rfl
      · rw [List.cons_append, ih]

/-- The word in front of which words are cut is no bracket. -/
theorem not_isBracket_of_breakTopFrom
    (found : (breakTopFrom isMember depth words).2 = word :: rest) :
    isBracket word.kind = false := by
  induction words generalizing depth with
  | nil => cases found
  | cons next words ih =>
      rw [breakTopFrom] at found
      split at found
      · next here =>
          cases found
          simp only [Bool.and_eq_true, Bool.not_eq_true'] at here
          exact here.1.2
      · exact ih found

/-- What stands in front of a word outside of every bracket is balanced. -/
theorem balanced_of_breakTopFrom {behind : Nat} (counted : openBehind? depth words = some behind)
    (found : (breakTopFrom isMember depth words).2 = word :: rest) :
    openBehind? depth (breakTopFrom isMember depth words).1 = some 0 := by
  induction words generalizing depth with
  | nil => cases found
  | cons next words ih =>
      rw [breakTopFrom] at found ⊢
      split
      · next here =>
          simp only [Bool.and_eq_true, decide_eq_true_eq] at here
          rw [here.1.1]
          rfl
      · next further =>
          rw [if_neg further] at found
          rw [openBehind?] at counted
          split at counted
          · cases counted
          · next opens =>
              rw [openBehind?, if_neg opens]
              exact ih counted found

end BreakTop

/-- A keyword outside of every bracket and what stands before it are passed. -/
theorem Passes.of_firstKeyword? {keyword : Keyword} {words : Words} {place : Nat}
    (balanced : words.Balanced) (found : firstKeyword? keyword words = some place) :
    words.Passes (words.drop (place + 1)) := by
  rw [firstKeyword?] at found
  split at found
  · cases found
  · next front word rest cut =>
      cases found
      have front_eq : (breakTopFrom (·.isKeyword keyword) 0 words).1 = front :=
        congrArg Prod.fst cut
      have rest_eq : (breakTopFrom (·.isKeyword keyword) 0 words).2 = word :: rest :=
        congrArg Prod.snd cut
      have balancedFront := balanced_of_breakTopFrom balanced rest_eq
      have parts := breakTopFrom_append (·.isKeyword keyword) 0 words
      rw [front_eq] at balancedFront
      rw [front_eq, rest_eq] at parts
      have passesFront : Passes words (word :: rest) := ⟨front, balancedFront, parts.symm⟩
      have behind : words.drop (front.length + 1) = rest := by
        rw [← parts, ← List.drop_drop]
        simp
      rw [behind]
      exact passesFront.trans (.word (not_isBracket_of_breakTopFrom rest_eq))

theorem segmentsFrom_ne_nil (depth : Nat) (words : Words) : segmentsFrom depth words ≠ [] := by
  cases words with
  | nil => simp [segmentsFrom]
  | cons word words =>
      rw [segmentsFrom]
      split
      · simp
      · split <;> simp

/-- If the segments between commas are balanced, so are all words. -/
theorem balanced_of_segmentsFrom {words segment : Words} {segments : List Words} {depth : Nat}
    (split : segmentsFrom depth words = segment :: segments)
    (first : openBehind? depth segment = some 0) (others : ∀ other ∈ segments, Balanced other) :
    openBehind? depth words = some 0 := by
  induction words generalizing depth segment segments with
  | nil =>
      cases split
      exact first
  | cons word words ih =>
      rw [segmentsFrom] at split
      split at split
      · next here =>
          cases split
          simp only [Bool.and_eq_true, decide_eq_true_eq] at here
          obtain ⟨rfl, comma⟩ := here
          have plain : isBracket word.kind = false := by
            rw [isComma, beq_iff_eq] at comma
            rw [comma]
            rfl
          rw [openBehind?, closesNothing_of_not_isBracket 0 plain,
            depthBehind_of_not_isBracket 0 plain]
          obtain ⟨next, rest, more⟩ := List.exists_cons_of_ne_nil (segmentsFrom_ne_nil 0 words)
          rw [more] at others
          exact ih more (others next List.mem_cons_self) fun other member =>
            others other (List.mem_cons_of_mem _ member)
      · split at split
        · next none => exact absurd none (segmentsFrom_ne_nil _ words)
        · next next rest more =>
            cases split
            rw [openBehind?] at first ⊢
            split at first
            · cases first
            · next opens =>
                rw [if_neg opens]
                exact ih more first others

theorem balanced_of_splitCommas {words : Words}
    (balanced : ∀ segment ∈ splitCommas words, Balanced segment) : words.Balanced := by
  cases words with
  | nil => exact .nil
  | cons word words =>
      obtain ⟨segment, segments, split⟩ :=
        List.exists_cons_of_ne_nil (segmentsFrom_ne_nil 0 (word :: words))
      have same : splitCommas (word :: words) = segment :: segments := split
      rw [same] at balanced
      exact balanced_of_segmentsFrom split (balanced segment List.mem_cons_self)
        fun other member => balanced other (List.mem_cons_of_mem _ member)

end Words

end SelectTree
