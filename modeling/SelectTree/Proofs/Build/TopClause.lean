/-
Module: SelectTree.Proofs.Build.TopClause
Purpose: a `TOP` clause is read in the same way wherever it stands.
Main exports: IsCount, TopClause, Words.EndsTop, Build.ReadsTop, Build.exists_readsTop,
  Build.exists_topClause

Nothing behind the count of a clause is looked at but for the words `PERCENT` and `WITH`.  So a
clause that is accepted in front of some words is accepted in front of all that do not begin with
one of these two.
-/
import SelectTree.Proofs.Build.Progress
import SelectTree.Proofs.Grammar.Balance
import SelectTree.Proofs.Grammar.Frame

namespace SelectTree

/-! ### Clauses as they are written -/

/-- The words of a count behind `TOP`: a number, a variable, or words in brackets. -/
inductive IsCount : Words → Prop where
  | word {word : Word} : Grammar.startsCount word.kind = true → word.kind ≠ .leftParen →
      IsCount [word]
  | brackets {opening closing : Word} {inner : Words} : opening.kind = .leftParen →
      inner.Balanced → closing.kind = .rightParen → IsCount (opening :: inner ++ [closing])

/-- The words of a clause `TOP count [PERCENT] [WITH TIES]`. -/
structure TopClause where
  top : Word
  count : Words
  percent : Option Word
  ties : Option (Word × Word)
  isTop : top.kind = .keyword .TOP
  isCount : IsCount count
  isPercent : ∀ word ∈ percent, word.kind = .keyword .PERCENT
  isTies : ∀ pair ∈ ties, pair.1.kind = .keyword .WITH ∧ pair.2.kind = .keyword .TIES

namespace TopClause

/-- The words `WITH TIES`, or nothing. -/
def tiesWords (clause : TopClause) : Words :=
  clause.ties.elim [] fun pair => [pair.1, pair.2]

/-- All words of the clause. -/
def words (clause : TopClause) : Words :=
  clause.top :: (clause.count ++ (clause.percent.toList ++ clause.tiesWords))

theorem words_append (clause : TopClause) (rest : Words) :
    clause.words ++ rest =
      clause.top :: (clause.count ++ (clause.percent.toList ++ clause.tiesWords ++ rest)) := by
  rw [words, List.cons_append, List.append_assoc]

end TopClause

/-- The words go on neither with `PERCENT` nor with `WITH`. -/
def Words.EndsTop (words : Words) : Prop :=
  ∀ word ∈ words.head?, word.kind ≠ .keyword .PERCENT ∧ word.kind ≠ .keyword .WITH

namespace Build

open SelectTree.Words (EndsTop)

variable {rules : Rules} {limits : Limits} {nesting : Nat} {tree : Tree} {rest : Words}

/-! ### Single words -/

theorem on_eatKeyword {word : Word} {keyword : Keyword} (isKeyword : word.kind = .keyword keyword) :
    (Builder.read (Parser.eatKeyword keyword)).on limits
        { words := word :: rest, nesting, tree } =
      (.ok true, { words := rest, nesting, tree }) := by
  rw [Builder.on_read, Parser.eatKeyword, Parser.eat_apply, List.head?_cons, Option.any_some,
    isKeyword, beq_self_eq_true]
  rfl

/-- Whether a keyword was eaten tells which words were there. -/
theorem exists_of_eatKeyword {keyword : Keyword} {before after : Workspace} {ate : Bool}
    (ran : (Builder.read (Parser.eatKeyword keyword)).on limits before = (.ok ate, after)) :
    ∃ eaten : Option Word, (∀ word ∈ eaten, word.kind = .keyword keyword) ∧
      before.words = eaten.toList ++ after.words := by
  rcases Builder.on_eat_cases ran with ⟨-, -, rfl⟩ | ⟨word, rest, -, words, kind, rfl⟩
  · exact ⟨none, nofun, rfl⟩
  · exact ⟨some word, by rintro _ ⟨⟩; exact kind, words⟩

theorem any_head?_eq_false {words : Words} {kind : TokenKind}
    (other : ∀ word ∈ words.head?, word.kind ≠ kind) :
    words.head?.any (·.kind == kind) = false := by
  cases words with
  | nil => rfl
  | cons word words => simpa using other word rfl

theorem on_eatKeyword_other {words : Words} {keyword : Keyword}
    (other : ∀ word ∈ words.head?, word.kind ≠ .keyword keyword) :
    (Builder.read (Parser.eatKeyword keyword)).on limits { words, nesting, tree } =
      (.ok false, { words, nesting, tree }) := by
  rw [Builder.on_read, Parser.eatKeyword, Parser.eat_apply, any_head?_eq_false other]
  rfl

theorem on_expectKeyword {word : Word} {keyword : Keyword}
    (isKeyword : word.kind = .keyword keyword) :
    (Builder.read (Parser.expectKeyword keyword)).on limits
        { words := word :: rest, nesting, tree } =
      (.ok word, { words := rest, nesting, tree }) := by
  rw [Builder.on_read, Parser.expectKeyword_ok_iff.2 ⟨isKeyword, rfl⟩]

/-! ### A count and a clause -/

/-- A count is not empty and begins with a word that may begin one. -/
theorem exists_first_of_isCount {count : Words} (isCount : IsCount count) :
    ∃ first others, count = first :: others ∧ Grammar.startsCount first.kind = true := by
  cases isCount with
  | @word word starts _ => exact ⟨word, [], rfl, starts⟩
  | @brackets opening closing inner opens _ _ =>
      exact ⟨opening, inner ++ [closing], rfl, by rw [opens]; rfl⟩

/-- The count is read, in front of whatever words. -/
def ReadsCount (rules : Rules) (limits : Limits) (before : Workspace) (count : Words) (id : NodeId)
    (after : Workspace) : Prop :=
  ∀ rest, rules.operand.on limits { before with words := count ++ rest } =
    (.ok id, { after with words := rest })

/-- The clause is read, in front of whatever words do not go on with it. -/
def ReadsTop (rules : Rules) (limits : Limits) (before : Workspace) (clause : TopClause)
    (id : NodeId) (after : Workspace) : Prop :=
  ∀ rest, EndsTop rest → (top rules).on limits { before with words := clause.words ++ rest } =
    (.ok id, { after with words := rest })

/-- What is left of a clause is eaten word by word. -/
theorem on_percent (clause : TopClause) (ends : EndsTop rest) :
    (Builder.read (Parser.eatKeyword .PERCENT)).on limits
        { words := clause.percent.toList ++ clause.tiesWords ++ rest, nesting, tree } =
      (.ok clause.percent.isSome, { words := clause.tiesWords ++ rest, nesting, tree }) := by
  cases isPercent : clause.percent with
  | some word => exact on_eatKeyword (clause.isPercent word isPercent)
  | none =>
      refine on_eatKeyword_other fun word isFirst => ?_
      cases isTies : clause.ties with
      | none =>
          rw [TopClause.tiesWords, isTies] at isFirst
          exact (ends word isFirst).1
      | some pair =>
          rw [TopClause.tiesWords, isTies] at isFirst
          cases isFirst
          rw [(clause.isTies pair isTies).1]
          decide

/-- Behind the count, the words of the clause are read one by one, and its node is added. -/
theorem ReadsCount.top {before after : Workspace} {clause : TopClause} {id : NodeId}
    (reads : ReadsCount rules limits before clause.count id after) :
    ReadsTop rules limits before clause after.tree.nextId
      { after with
        tree := after.tree.attach
          (.element (.top (some id) clause.percent.isSome clause.ties.isSome)) } := by
  intro rest ends
  have starts : (clause.count ++ (clause.percent.toList ++ clause.tiesWords ++ rest)).head?.any
      (fun word => Grammar.startsCount word.kind) = true := by
    obtain ⟨first, others, isFirst, starts⟩ := exists_first_of_isCount clause.isCount
    rw [isFirst, List.cons_append, List.head?_cons, Option.any_some, starts]
  rw [clause.words_append]
  refine Builder.on_bind_ok_iff.2 ⟨_, _, on_expectKeyword clause.isTop, ?_⟩
  refine Builder.on_bind_ok_iff.2 ⟨_, _, rfl, ?_⟩
  simp only [starts, Bool.not_true, Bool.false_eq_true, if_false]
  refine Builder.on_bind_ok_iff.2 ⟨id, _, reads _, ?_⟩
  refine Builder.on_bind_ok_iff.2 ⟨_, _, on_percent clause ends, ?_⟩
  cases isTies : clause.ties with
  | none =>
      have without : clause.tiesWords = [] := by rw [TopClause.tiesWords, isTies]; rfl
      rw [without]
      exact Builder.on_bind_ok_iff.2
        ⟨_, _, on_eatKeyword_other fun word isFirst => (ends word isFirst).2, rfl⟩
  | some pair =>
      obtain ⟨isWith, isTiesWord⟩ := clause.isTies pair isTies
      have both : clause.tiesWords = [pair.1, pair.2] := by rw [TopClause.tiesWords, isTies]; rfl
      rw [both]
      refine Builder.on_bind_ok_iff.2 ⟨_, _, on_eatKeyword isWith, ?_⟩
      exact Builder.on_bind_ok_iff.2 ⟨_, _, on_expectKeyword isTiesWord, rfl⟩

/-- A bracket is opened in the same way, whatever is behind it. -/
theorem openGroup_bracket {opening closing : Word} {inner : Words}
    (opens : opening.kind = .leftParen) (balanced : inner.Balanced)
    (closes : closing.kind = .rightParen) (behind : Words) :
    Parser.openGroup (opening :: inner ++ closing :: behind) =
      .ok { opening, contents := inner, behind } := by
  have found := Words.group?_bracket behind opens balanced closes
  rw [List.cons_append] at found ⊢
  simp only [Parser.openGroup, opens, if_true, found]

/-- Brackets around balanced words are built on these words and left behind. -/
theorem on_bracketed_behind {α : Type} {body : Word → Builder α} {opening closing : Word}
    {inner : Words} (opens : opening.kind = .leftParen) (balanced : inner.Balanced)
    (closes : closing.kind = .rightParen) {before after : Workspace} {value : α}
    (ran : (Builder.bracketed body).on limits
      { before with words := opening :: inner ++ closing :: rest } = (.ok value, after))
    (other : Words) :
    (Builder.bracketed body).on limits
      { before with words := opening :: inner ++ closing :: other } =
        (.ok value, { after with words := other }) := by
  obtain ⟨group, room, last, opened, entered, inside, rfl⟩ := Builder.exists_of_on_bracketed ran
  rw [openGroup_bracket opens balanced closes] at opened
  cases opened
  rw [Builder.on_bracketed, openGroup_bracket opens balanced closes]
  simp only [entered, inside]

/-- Without hooks an operand is a plain one. -/
theorem on_operand_hookless (hookless : limits.hooks = {}) (workspace : Workspace) :
    (operand rules).on limits workspace = (plainOperand rules).on limits workspace := by
  obtain ⟨room, hooks⟩ := limits
  obtain rfl : hooks = {} := hookless
  rfl

/-- A number or a variable adds one node. -/
theorem exists_node_of_word (rules : Rules) (limits : Limits) {word : Word}
    (starts : Grammar.startsCount word.kind = true) (notBracket : word.kind ≠ .leftParen) :
    ∃ node, ∀ (before : Workspace) (rest : Words),
      (plainOperand rules).on limits { before with words := word :: rest } =
        (.ok before.tree.nextId,
          { before with words := rest, tree := before.tree.attach node }) := by
  obtain ⟨kind, text, glued, index⟩ := word
  cases kind with
  | integer | decimal | «variable» => exact ⟨_, fun _ _ => rfl⟩
  | leftParen => exact absurd rfl notBracket
  | _ => cases starts

theorem on_plainOperand_bracket (rules : Rules) (limits : Limits) {opening : Word}
    (opens : opening.kind = .leftParen) (before : Workspace) (rest : Words) :
    (plainOperand rules).on limits { before with words := opening :: rest } =
      (bracketOperand rules).on limits { before with words := opening :: rest } := by
  obtain ⟨kind, text, glued, index⟩ := opening
  obtain rfl : kind = .leftParen := opens
  rfl

/-- A count that is read once is read in front of whatever words. -/
theorem readsCount_of_ran {depth : Nat} {count : Words} (hookless : limits.hooks = {})
    (isCount : IsCount count) {before after : Workspace} {id : NodeId}
    (ran : (Build.rules depth).operand.on limits { before with words := count ++ rest } =
      (.ok id, after)) : ReadsCount (Build.rules depth) limits before count id after := by
  cases depth with
  | zero => cases ran
  | succ depth =>
      intro other
      change (operand (Build.rules depth)).on limits _ = _ at ran
      change (operand (Build.rules depth)).on limits _ = _
      rw [on_operand_hookless hookless] at ran ⊢
      cases isCount with
      | word starts notBracket =>
          obtain ⟨node, reads⟩ := exists_node_of_word (Build.rules depth) limits starts notBracket
          rw [List.singleton_append, reads] at ran ⊢
          cases ran
          rfl
      | @brackets opening closing inner opens balanced closes =>
          have behind (rest : Words) : opening :: inner ++ [closing] ++ rest =
              opening :: inner ++ closing :: rest := by
            rw [List.append_assoc, List.singleton_append]
          rw [behind, List.cons_append, on_plainOperand_bracket _ _ opens] at ran ⊢
          exact on_bracketed_behind opens balanced closes ran other

/-- An accepted count is the words of one. -/
theorem exists_isCount {depth : Nat} (hookless : limits.hooks = {}) {before after : Workspace}
    {id : NodeId} (ran : (Build.rules depth).operand.on limits before = (.ok id, after))
    (starts : before.words.head?.any (fun word => Grammar.startsCount word.kind) = true) :
    ∃ count, IsCount count ∧ before.words = count ++ after.words := by
  obtain ⟨words, nesting, tree⟩ := before
  cases depth with
  | zero => cases ran
  | succ depth =>
      change (operand (Build.rules depth)).on limits _ = _ at ran
      rw [on_operand_hookless hookless] at ran
      cases words with
      | nil => cases starts
      | cons word words =>
          rw [List.head?_cons, Option.any_some] at starts
          by_cases opens : word.kind = .leftParen
          · have atBracket := on_plainOperand_bracket (Build.rules depth) limits opens
              { words, nesting, tree } words
            obtain ⟨group, room, last, opened, -, -, rfl⟩ :=
              Builder.exists_of_on_bracketed (atBracket.symm.trans ran)
            obtain ⟨opens, balanced, closing, closes, same⟩ :=
              Words.exists_of_group? (Parser.group?_of_openGroup opened)
            refine ⟨_, .brackets opens balanced closes, ?_⟩
            rw [List.append_assoc, List.singleton_append]
            exact same
          · obtain ⟨node, reads⟩ := exists_node_of_word (Build.rules depth) limits starts opens
            have read := reads { words, nesting, tree } words
            cases read.symm.trans ran
            exact ⟨[word], .word starts opens, rfl⟩

/-- What an accepted clause is read from: the count, and what may stand behind it. -/
theorem exists_of_on_top {before after : Workspace} {id : NodeId}
    (ran : (top rules).on limits before = (.ok id, after)) :
    ∃ word rest count middle, before.words = word :: rest ∧ word.kind = .keyword .TOP ∧
      rest.head?.any (fun word => Grammar.startsCount word.kind) = true ∧
      rules.operand.on limits { before with words := rest } = (.ok count, middle) ∧
      ∃ (percent : Option Word) (ties : Option (Word × Word)),
        (∀ word ∈ percent, word.kind = .keyword .PERCENT) ∧
        (∀ pair ∈ ties, pair.1.kind = .keyword .WITH ∧ pair.2.kind = .keyword .TIES) ∧
        middle.words = percent.toList ++ (ties.elim [] fun pair => [pair.1, pair.2]) ++
          after.words := by
  obtain ⟨word, _, readTop, behindTop⟩ := Builder.on_bind_ok_iff.1 ran
  obtain ⟨rest, expected, rfl⟩ := Builder.exists_of_on_read readTop
  obtain ⟨isTop, words⟩ := Parser.expectKeyword_ok_iff.1 expected
  obtain ⟨_, _, ⟨⟩, behindLook⟩ := Builder.on_bind_ok_iff.1 behindTop
  cases starts : rest.head?.any fun word => Grammar.startsCount word.kind with
  | false =>
      simp only [starts, Bool.not_false, if_true] at behindLook
      obtain ⟨_, _, refused, -⟩ := Builder.on_bind_ok_iff.1 behindLook
      cases refused
  | true =>
      simp only [starts, Bool.not_true, Bool.false_eq_true, if_false] at behindLook
      obtain ⟨count, middle, ranCount, behindCount⟩ := Builder.on_bind_ok_iff.1 behindLook
      refine ⟨word, rest, count, middle, words, isTop, starts, ranCount, ?_⟩
      obtain ⟨_, left, readPercent, behindPercent⟩ := Builder.on_bind_ok_iff.1 behindCount
      obtain ⟨percent, isPercent, wordsPercent⟩ := exists_of_eatKeyword readPercent
      obtain ⟨withTies, next, readWith, behindWith⟩ := Builder.on_bind_ok_iff.1 behindPercent
      rcases Builder.on_eat_cases readWith with
        ⟨rfl, -, rfl⟩ | ⟨withWord, rest, rfl, wordsWith, isWith, rfl⟩
      · simp only [Bool.false_eq_true, if_false] at behindWith
        cases behindWith
        refine ⟨percent, none, isPercent, fun pair isPair => ?_, ?_⟩
        · cases isPair
        · rw [wordsPercent, Option.elim_none, List.append_nil]
      · simp only [if_true] at behindWith
        obtain ⟨tiesWord, _, readTies, added⟩ := Builder.on_bind_ok_iff.1 behindWith
        obtain ⟨last, expectedTies, rfl⟩ := Builder.exists_of_on_read readTies
        obtain ⟨isTies, wordsTies⟩ := Parser.expectKeyword_ok_iff.1 expectedTies
        cases added
        refine ⟨percent, some (withWord, tiesWord), isPercent, ?_, ?_⟩
        · rintro pair ⟨⟩
          exact ⟨isWith, isTies⟩
        · obtain rfl : rest = tiesWord :: last := wordsTies
          rw [wordsPercent, wordsWith]
          simp

/-- An accepted clause is the words of one. -/
theorem exists_topClause {depth : Nat} (hookless : limits.hooks = {}) {before after : Workspace}
    {id : NodeId} (ran : (top (Build.rules depth)).on limits before = (.ok id, after)) :
    ∃ clause : TopClause, before.words = clause.words ++ after.words := by
  obtain ⟨word, rest, _, middle, words, isTop, starts, ranCount, percent, ties, isPercent, isTies,
    suffix⟩ := exists_of_on_top ran
  obtain ⟨count, isCount, front⟩ := exists_isCount hookless ranCount starts
  refine ⟨⟨word, count, percent, ties, isTop, isCount, isPercent, isTies⟩, ?_⟩
  obtain rfl : rest = count ++ middle.words := front
  rw [words, suffix]
  simp [TopClause.words, TopClause.tiesWords]

/-- A clause that is accepted once is read in front of whatever words do not go on with it. -/
theorem exists_readsTop {depth : Nat} (hookless : limits.hooks = {}) {before after : Workspace}
    {clause : TopClause} {id : NodeId}
    (ran : (top (Build.rules depth)).on limits { before with words := clause.words ++ rest } =
      (.ok id, after)) :
    ∃ id after, ReadsTop (Build.rules depth) limits before clause id after := by
  rw [clause.words_append] at ran
  obtain ⟨word, others, count, middle, words, -, -, ranCount, -⟩ := exists_of_on_top ran
  obtain ⟨-, rfl⟩ := List.cons.inj words
  exact ⟨_, _, (readsCount_of_ran hookless clause.isCount ranCount).top⟩

end Build

end SelectTree
