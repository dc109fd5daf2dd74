/-
Module: SelectTree.Proofs.Grammar.Composed
Purpose: parsers that are put together from the rules inside and from the ways of combining
  parsers, and from nothing else.
Main exports: Grammar.Inner, Grammar.Rules.apply, Grammar.Composed

A rule of the grammar is a function of the rules inside.  What all rules have in common is proved by
induction on how they are put together, with one case for each way of combining parsers.
-/
import SelectTree.Proofs.Grammar.Bracket
import SelectTree.Proofs.Words.Balance

namespace SelectTree

/-- A name is no bracket. -/
theorem Word.not_isBracket_of_identifier? {word : Word} {name : Identifier}
    (named : word.identifier? = some name) : Words.isBracket word.kind = false := by
  obtain ⟨kind, text, glued, index⟩ := word
  cases kind <;> first | rfl | cases named

/-- A string that is used as a name is no bracket. -/
theorem Parser.not_isBracket_of_stringName? {word : Word} {name : Identifier}
    (named : Parser.stringName? word = some name) : Words.isBracket word.kind = false := by
  obtain ⟨kind, text, glued, index⟩ := word
  cases kind <;> first | rfl | cases named

/-- A word that is an alias by itself is no bracket. -/
theorem Parser.not_isBracket_of_bareAlias? {word : Word} {name : Identifier}
    (named : Parser.bareAlias? word = some name) : Words.isBracket word.kind = false := by
  obtain ⟨kind, text, glued, index⟩ := word
  cases kind <;> first | rfl | cases named

namespace Grammar

/-- The rules that occur inside of rules, by name. -/
inductive Inner where
  | operand | column | term | condition | relation | statement
deriving Repr, DecidableEq

/-- The form of the phrases that a rule inside recognises. -/
def Inner.form : Inner → Form
  | .operand => .operand
  | .column => .column
  | .term => .term
  | .condition => .condition
  | .relation => .relation
  | .statement => .statement

/-- A rule inside, by name. -/
def Rules.apply (rules : Rules) : (inner : Inner) → Parser (Phrase inner.form)
  | .operand => rules.operand
  | .column => rules.column
  | .term => rules.term
  | .condition => rules.condition
  | .relation => rules.relation
  | .statement => rules.statement

/-- On the given words, the parser is put together from the rules inside.  What follows a part
matters only for the values that the part can give, and words are consumed only as far as every
bracket is closed. -/
inductive Composed : {α : Type} → (Rules → Parser α) → Words → Prop where
  | pure {α : Type} (value : α) (words : Words) : Composed (fun _ => Pure.pure value) words
  | fail {α : Type} (fault : Fault) (words : Words) :
      Composed (fun _ => (Parser.fail fault : Parser α)) words
  | remaining (words : Words) : Composed (fun _ => Parser.remaining) words
  | skip (count : Nat) {words : Words} :
      words.Passes (words.drop count) → Composed (fun _ => Parser.skip count) words
  | inner (inner : Inner) (words : Words) : Composed (fun rules => rules.apply inner) words
  | bind {α β : Type} {first : Rules → Parser α} {next : Rules → α → Parser β} {words : Words} :
      Composed first words →
      (∀ rules scope value rest, first rules scope words = .ok (value, rest) →
        Composed (fun rules => next rules value) rest) →
      Composed (fun rules => first rules >>= next rules) words
  | within {α : Type} {body : Rules → Parser α} {range : Words} (words : Words) :
      Composed body range → Composed (fun rules => Parser.within range (body rules)) words
  | bracketed {α : Type} {body : Rules → Word → Parser α} {words : Words} :
      (∀ group, Words.group? words = some group →
        Composed (fun rules => body rules group.opening) group.contents) →
      Composed (fun rules => Parser.bracketed (body rules)) words
  | segments {α : Type} {item : Rules → Parser α} {words : Words} :
      (∀ segment ∈ Words.splitCommas words, Composed item segment) →
      Composed (fun rules => Parser.segments (item rules)) words
  | nested {α : Type} {body : Rules → Parser α} {words : Words} :
      Composed body words → Composed (fun rules => Parser.nested (body rules)) words
  | attempt {α : Type} {body : Rules → Parser α} {words : Words} :
      Composed body words → Composed (fun rules => Parser.attempt (body rules)) words
  | committed {α : Type} {body : Rules → Parser α} {words : Words} :
      Composed body words → Composed (fun rules => Parser.committed (body rules)) words
  | hooked {α : Type} (choose : Hooks → Option (Hook α)) (words : Words) :
      choose {} = none → Composed (fun _ => Parser.hooked choose) words

namespace Composed

open SelectTree.Parser

variable {α β γ : Type} {words : Words}

/-- A part and what follows, whatever the part gives. -/
theorem seq {first : Rules → Parser α} {next : Rules → α → Parser β} (one : Composed first words)
    (two : ∀ value rest, Composed (fun rules => next rules value) rest) :
    Composed (fun rules => first rules >>= next rules) words :=
  .bind one fun _ _ value rest _ => two value rest

theorem map {body : Rules → Parser α} (convert : α → β) (composed : Composed body words) :
    Composed (fun rules => convert <$> body rules) words :=
  composed.seq fun value rest => .pure (convert value) rest

/-- The words are looked at. -/
theorem look {next : Rules → Words → Parser β}
    (two : Composed (fun rules => next rules words) words) :
    Composed (fun rules => Parser.remaining >>= next rules) words := by
  refine .bind (.remaining words) ?_
  rintro rules scope value rest ⟨⟩
  exact two

/-- Looking consumes nothing. -/
theorem peek (words : Words) : Composed (fun _ => Parser.peek) words :=
  .look (.pure _ words)

/-- The next word is looked at. -/
theorem ahead {next : Rules → Option Word → Parser β}
    (two : Composed (fun rules => next rules words.head?) words) :
    Composed (fun rules => Parser.peek >>= next rules) words := by
  refine .bind (.peek words) ?_
  rintro rules scope value rest ⟨⟩
  exact two

theorem check (kind : TokenKind) (words : Words) :
    Composed (fun _ => Parser.check kind) words :=
  .ahead (.pure _ words)

/-- It is looked whether the next word is of a kind. -/
theorem checked {kind : TokenKind} {next : Rules → Bool → Parser β}
    (two : Composed (fun rules => next rules (words.head?.any (·.kind == kind))) words) :
    Composed (fun rules => Parser.check kind >>= next rules) words := by
  refine .bind (.check kind words) ?_
  rintro rules scope value rest ⟨⟩
  exact two

/-- A word that is no bracket is consumed. -/
theorem skipped {word : Word} {rest : Words} {next : Rules → Unit → Parser β}
    (plain : Words.isBracket word.kind = false)
    (two : Composed (fun rules => next rules ()) rest) :
    Composed (fun rules => Parser.skip 1 >>= next rules) (word :: rest) := by
  refine .bind (.skip 1 (.word plain)) ?_
  rintro rules scope value left ⟨⟩
  exact two

theorem failAt (word : Word) (cause : Cause) (words : Words) :
    Composed (fun _ => (Parser.failAt word cause : Parser α)) words :=
  .fail _ words

/-- Behind a refusal nothing follows. -/
theorem refuse (fault : Fault) {next : Rules → α → Parser β} :
    Composed (fun rules => Parser.fail fault >>= next rules) words := by
  refine .bind (.fail fault words) ?_
  rintro rules scope value rest ⟨⟩

theorem failHere (what : String) (words : Words) :
    Composed (fun _ => (Parser.failHere what : Parser α)) words :=
  .look (.fail _ words)

/-- A word that is no bracket is skipped, or nothing is. -/
theorem eat {kind : TokenKind} (plain : Words.isBracket kind = false) (words : Words) :
    Composed (fun _ => Parser.eat kind) words := by
  refine .checked ?_
  cases words with
  | nil => exact .pure false []
  | cons word rest =>
      by_cases found : word.kind = kind
      · have isKind : (word.kind == kind) = true := by simpa using found
        simp only [List.head?_cons, Option.any_some, isKind, if_true]
        exact .skipped (found ▸ plain) (.pure true rest)
      · have other : (word.kind == kind) = false := by simpa using found
        simp only [List.head?_cons, Option.any_some, other]
        exact .pure false _

theorem eatKeyword (keyword : Keyword) (words : Words) :
    Composed (fun _ => Parser.eatKeyword keyword) words :=
  .eat rfl words

/-- A word that is no bracket is skipped, or the parser fails. -/
theorem expect {kind : TokenKind} (plain : Words.isBracket kind = false) (what : String)
    (words : Words) : Composed (fun _ => Parser.expect kind what) words := by
  refine .ahead ?_
  cases words with
  | nil => exact .failHere what []
  | cons word rest =>
      by_cases found : word.kind = kind
      · simp only [List.head?_cons, if_pos found]
        exact .skipped (found ▸ plain) (.pure word rest)
      · simp only [List.head?_cons, if_neg found]
        exact .failHere what _

theorem expectKeyword (keyword : Keyword) (words : Words) :
    Composed (fun _ => Parser.expectKeyword keyword) words :=
  .expect rfl keyword.text words

theorem expectEnd (words : Words) : Composed (fun _ => Parser.expectEnd) words := by
  refine .ahead ?_
  cases words with
  | nil => exact .pure () []
  | cons word rest => exact .failAt word .unexpected _

/-- Other words are read in between. -/
theorem aside {first : Rules → Parser α} {next : Rules → α → Parser β} {range : Words}
    (one : Composed first range) (two : ∀ value, Composed (fun rules => next rules value) words) :
    Composed (fun rules => Parser.within range (first rules) >>= next rules) words := by
  refine .bind (.within words one) fun rules scope value rest read => ?_
  rw [within_apply] at read
  split at read
  · cases read
    exact two value
  · cases read

/-- That nothing is left over is only looked at. -/
theorem wholly {body : Rules → Parser α} (composed : Composed body words) :
    Composed (fun rules => Parser.wholly (body rules)) words := by
  refine composed.seq fun value rest => ?_
  exact .seq (.expectEnd rest) fun _ rest => .pure value rest

/-- By induction on the number of items that are looked for at most. -/
theorem manyUpTo {item : Rules → Parser (Option α)} (composed : ∀ words, Composed item words)
    (count : Nat) (words : Words) :
    Composed (fun rules => Parser.manyUpTo (item rules) count) words := by
  induction count generalizing words with
  | zero => exact .pure [] words
  | succ count ih =>
      refine (composed words).seq fun found rest => ?_
      cases found with
      | none => exact .pure [] rest
      | some first => exact (ih rest).seq fun others rest => .pure (first :: others) rest

/-- There are at most as many items as words. -/
theorem many {item : Rules → Parser (Option α)} (composed : ∀ words, Composed item words)
    (words : Words) : Composed (fun rules => Parser.many (item rules)) words :=
  .look (.manyUpTo composed _ words)

/-- The comma between two items is no bracket. -/
theorem commaList {item : Rules → Parser α} (composed : ∀ words, Composed item words)
    (words : Words) : Composed (fun rules => Parser.commaList (item rules)) words := by
  refine (composed words).seq fun first rest => ?_
  refine .seq (.many (fun words => ?_) rest) fun others rest => .pure (first, others) rest
  refine .seq (.eat rfl words) fun comma rest => ?_
  cases comma with
  | true => exact (composed rest).seq fun next rest => .pure (some next) rest
  | false => exact .pure none rest

theorem startsStatement (words : Words) : Composed (fun _ => Parser.startsStatement) words := by
  refine .seq (.check _ words) fun select rest => ?_
  cases select with
  | true => exact .pure true rest
  | false => exact .check _ rest

/-- A name is skipped, or the parser fails. -/
theorem identifier (what : String) (words : Words) :
    Composed (fun _ => Parser.identifier what) words := by
  refine .ahead ?_
  cases words with
  | nil => exact .failHere what []
  | cons word rest =>
      simp only [List.head?_cons, Option.bind_some]
      cases named : word.identifier? with
      | none => exact .failHere what _
      | some name => exact .skipped (word.not_isBracket_of_identifier? named) (.pure name rest)

/-- An alias without `AS` is skipped if the next word may be one. -/
theorem bareAlias (words : Words) :
    Composed (fun _ => do
      match (← Parser.peek).bind bareAlias? with
      | some name =>
          Parser.skip 1
          return some name
      | none => return none) words := by
  refine .ahead ?_
  cases words with
  | nil => exact .pure none []
  | cons word rest =>
      simp only [List.head?_cons, Option.bind_some]
      cases named : bareAlias? word with
      | none => exact .pure none _
      | some name => exact .skipped (not_isBracket_of_bareAlias? named) (.pure (some name) rest)

/-- An alias is a name or a string, perhaps behind `AS`. -/
theorem aliasName (allowString : Bool) (words : Words) :
    Composed (fun _ => Parser.aliasName allowString) words := by
  refine .seq (.eatKeyword .AS words) fun found rest => ?_
  cases found with
  | false => exact .bareAlias rest
  | true =>
      have plainName : Composed (fun _ => do
          return some (← Parser.identifier "an alias after AS")) rest :=
        (identifier _ rest).seq fun name rest => .pure (some name) rest
      refine .ahead ?_
      cases allowString with
      | false => exact plainName
      | true =>
          cases rest with
          | nil => exact plainName
          | cons word rest =>
              simp only [if_true, List.head?_cons, Option.bind_some]
              cases named : stringName? word with
              | none => exact plainName
              | some name =>
                  exact .skipped (not_isBracket_of_stringName? named) (.pure (some name) rest)

end Composed

end Grammar

end SelectTree
