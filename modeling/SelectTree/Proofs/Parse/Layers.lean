/-
Module: SelectTree.Proofs.Parse.Layers
Purpose: names in layers of brackets and minus signs, and for which of them there is room.
Main exports: Layer, Layer.Wrapped, Layer.fit, Layer.operand_answers, Layer.parse_answers
-/
import SelectTree.Proofs.Grammar.Reading
import SelectTree.Proofs.Parse.Refused

namespace SelectTree

/-- What stands around an operand. -/
inductive Layer where
  | bracket
  | minus
deriving Repr, DecidableEq

namespace Layer

open SelectTree.Parser
open SelectTree.Grammar

/-- The words are a plain name in these layers, the outermost one first. -/
inductive Wrapped : List Layer → Words → Prop where
  | name {word : Word} {text : String} : word.kind = .identifier text → Wrapped [] [word]
  | bracket {layers : List Layer} {words : Words} {opening closing : Word} :
      opening.kind = .leftParen → closing.kind = .rightParen → Wrapped layers words →
      Wrapped (.bracket :: layers) (opening :: words ++ [closing])
  | minus {layers : List Layer} {words : Words} {sign : Word} :
      sign.kind = .minus → Wrapped layers words → Wrapped (.minus :: layers) (sign :: words)

/-- There is room for the layers where so many levels of brackets may be opened and so many prefix
operators are open.  A bracket does not ask for the prefix operators around it. -/
def fit : Nat → Nat → List Layer → Bool
  | _, _, [] => true
  | 0, _, .bracket :: _ => false
  | room + 1, nesting, .bracket :: layers => fit room nesting layers
  | room, nesting, .minus :: layers => decide (nesting + 1 < room) && fit room (nesting + 1) layers

/-- With room for them the words are read as a whole, and without the limit is reported. -/
def Answers {α : Type} (answer : Except Fault (α × Words)) (fits : Bool) : Prop :=
  match fits with
  | true => ∃ value, answer = .ok (value, [])
  | false => ∃ fault, answer = .error fault ∧ fault.kind = .depthLimit

variable {α β : Type} {layers : List Layer} {words : Words} {scope : Scope} {fits : Bool}

/-- What follows at the end of the words does not matter. -/
theorem Answers.bind {first : Parser α} {next : α → Parser β}
    (one : Answers (first scope words) fits)
    (two : ∀ value, ∃ result, next value scope [] = .ok (result, [])) :
    Answers ((first >>= next) scope words) fits := by
  rw [bind_apply]
  cases fits with
  | true =>
      obtain ⟨value, read⟩ := one
      rw [read]
      exact two value
  | false =>
      obtain ⟨fault, refused, kind⟩ := one
      rw [refused]
      exact ⟨fault, rfl, kind⟩

/-- A column is its operand where nothing follows. -/
theorem Answers.column {rules : Rules} (answers : Answers (operand rules scope words) fits) :
    Answers (column rules scope words) fits :=
  answers.bind fun _ => ⟨_, rfl⟩

theorem Wrapped.balanced (wrapped : Wrapped layers words) : words.Balanced := by
  induction wrapped with
  | name named => exact .word (by rw [named]; rfl)
  | bracket opens closes _ ih => exact ih.group opens closes
  | minus sign _ ih => exact .append (.word (by rw [sign]; rfl)) ih

theorem Wrapped.length_le (wrapped : Wrapped layers words) : layers.length ≤ words.length := by
  induction wrapped with
  | name => exact Nat.zero_le _
  | bracket | minus => simp; omega

theorem Wrapped.exists_first (wrapped : Wrapped layers words) :
    ∃ kind text glued index rest, words = ⟨kind, text, glued, index⟩ :: rest ∧
      ((∃ name, kind = .identifier name) ∨ kind = .leftParen ∨ kind = .minus) := by
  cases wrapped with
  | name named => exact ⟨_, _, _, _, _, rfl, .inl ⟨_, named⟩⟩
  | bracket opens => exact ⟨_, _, _, _, _, rfl, .inr (.inl opens)⟩
  | minus isMinus => exact ⟨_, _, _, _, _, rfl, .inr (.inr isMinus)⟩

/-- Behind a sign there is no number. -/
theorem Wrapped.negative_eq (wrapped : Wrapped layers words) (rules : Rules) :
    negative rules scope words =
      (do return .negated (← rules.operand) : Parser Operand) scope words := by
  obtain ⟨_, _, _, _, _, rfl, ⟨_, rfl⟩ | rfl | rfl⟩ := wrapped.exists_first <;> rfl

/-- In a bracket there is no statement, and there is something. -/
theorem Wrapped.contents_eq (wrapped : Wrapped layers words) (rules : Rules) (opening : Word) :
    (do
      if (← remaining).isEmpty then failAt opening .emptyBrackets
      if ← startsStatement then return .subselect (← rules.wholeStatement)
      return .bracketedColumn (← wholly rules.column) : Parser Operand) scope words =
      (do return .bracketedColumn (← wholly rules.column) : Parser Operand) scope words := by
  obtain ⟨_, _, _, _, _, rfl, ⟨_, rfl⟩ | rfl | rfl⟩ := wrapped.exists_first <;> rfl

section Operand

variable {rules : Rules} {room nesting : Nat}

/-- A sign in front of an operand opens a level if there is room for it. -/
theorem Wrapped.operand_minus {sign : Word} (isMinus : sign.kind = .minus)
    (wrapped : Wrapped layers words)
    (inside : Answers (rules.operand { room, nesting := nesting + 1 } words) fits) :
    Answers (operand rules { room, nesting } (sign :: words))
      (decide (nesting + 1 < room) && fits) := by
  have opens : operand rules { room, nesting } (sign :: words) =
      nested (negative rules) { room, nesting } words := by
    rw [operand_eq_plainOperand rfl]
    obtain ⟨kind, text, glued, index⟩ := sign
    cases isMinus
    rfl
  rw [opens, nested_apply]
  by_cases fewer : nesting + 1 < room
  · rw [decide_eq_true fewer, Bool.true_and]
    simp only [checkNesting, if_pos fewer, wrapped.negative_eq]
    exact inside.bind fun _ => ⟨_, rfl⟩
  · rw [decide_eq_false fewer, Bool.false_and]
    simp only [checkNesting, if_neg fewer]
    exact ⟨_, rfl, rfl⟩

section Bracket

variable {opening closing : Word} (opens : opening.kind = .leftParen)
  (closes : closing.kind = .rightParen) (wrapped : Wrapped layers words)

include opens closes wrapped

theorem Wrapped.openGroup_eq :
    openGroup (opening :: words ++ [closing]) =
      .ok { opening, contents := words, behind := [] } := by
  have group := Words.group?_bracket [] opens wrapped.balanced closes
  rw [List.cons_append] at group ⊢
  rw [openGroup, if_pos opens, group]

/-- A bracket takes one level of brackets, whatever prefix operators are open. -/
theorem Wrapped.operand_bracket
    (inside : Answers (rules.column { room, nesting } words) fits) :
    Answers (operand rules { room := room + 1, nesting } (opening :: words ++ [closing])) fits := by
  have whole : Answers (wholly rules.column { room, nesting } words) fits :=
    inside.bind fun _ => ⟨_, rfl⟩
  have contents : Answers ((do return .bracketedColumn (← wholly rules.column) : Parser Operand)
      { room, nesting } words) fits :=
    whole.bind fun _ => ⟨_, rfl⟩
  rw [← wrapped.contents_eq rules opening] at contents
  rw [List.cons_append, operand_at_bracket rfl opens, bracketOperand, bracketed_apply,
    ← List.cons_append, wrapped.openGroup_eq opens closes]
  simp only [enter]
  cases fits with
  | true =>
      obtain ⟨value, read⟩ := contents
      rw [read]
      exact ⟨value, rfl⟩
  | false =>
      obtain ⟨fault, refused, kind⟩ := contents
      rw [refused]
      exact ⟨fault, rfl, kind⟩

theorem Wrapped.operand_noRoom :
    Answers (operand rules { room := 0, nesting } (opening :: words ++ [closing])) false := by
  rw [List.cons_append, operand_at_bracket rfl opens, bracketOperand, bracketed_apply,
    ← List.cons_append, wrapped.openGroup_eq opens closes]
  exact ⟨_, rfl, rfl⟩

end Bracket

/-- An operand is read if there is room for its layers, and else the limit is reported. -/
theorem Wrapped.operand_answers (wrapped : Wrapped layers words) {depth : Nat}
    (deep : layers.length ≤ depth) :
    Answers (operand (Grammar.rules depth) { room, nesting } words) (fit room nesting layers) := by
  -- Each layer takes one level of rules, and changes either the room or the open prefix operators.
  induction wrapped generalizing room nesting depth with
  | @name word _ named =>
      rw [operand_eq_plainOperand rfl]
      obtain ⟨kind, text, glued, index⟩ := word
      cases named
      cases room <;> exact ⟨_, rfl⟩
  | bracket opens closes wrapped ih =>
      obtain ⟨depth, rfl⟩ := Nat.exists_eq_succ_of_ne_zero (Nat.ne_zero_of_lt deep)
      cases room with
      | zero => exact wrapped.operand_noRoom opens closes
      | succ room =>
          exact wrapped.operand_bracket opens closes (ih (Nat.le_of_succ_le_succ deep)).column
  | minus isMinus wrapped ih =>
      obtain ⟨depth, rfl⟩ := Nat.exists_eq_succ_of_ne_zero (Nat.ne_zero_of_lt deep)
      have inside : Answers (operand (Grammar.rules depth) { room, nesting := nesting + 1 } _) _ :=
        ih (Nat.le_of_succ_le_succ deep)
      have answers : Answers (operand (Grammar.rules (depth + 1)) { room, nesting } _) _ :=
        wrapped.operand_minus isMinus inside
      cases room <;> exact answers

end Operand

/-! ### Sources -/

/-- So is a column of a select list, to the end of the words. -/
theorem Wrapped.phrase_fits (wrapped : Wrapped layers words) (maxDepth : Nat) :
    match fit maxDepth 0 layers with
    | true => ∃ phrase, Rule.selectColumn.phrase maxDepth {} words = .ok phrase
    | false => ∃ fault, Rule.selectColumn.phrase maxDepth {} words = .error fault ∧
        fault.kind = .depthLimit := by
  have operand : Answers (operand (Grammar.rules (words.length + 1)) { room := maxDepth } words)
      (fit maxDepth 0 layers) :=
    wrapped.operand_answers (Nat.le_succ_of_le wrapped.length_le)
  have selected : Answers
      (selectColumn (column (rules (words.length + 1))) { room := maxDepth } words)
      (fit maxDepth 0 layers) :=
    operand.column.bind fun _ => ⟨_, rfl⟩
  have answers : Answers (Rule.selectColumn.parser { room := maxDepth } words)
      (fit maxDepth 0 layers) := selected
  revert answers
  cases fit maxDepth 0 layers with
  | true =>
      rintro ⟨phrase, read⟩
      refine ⟨phrase, ?_⟩
      rw [Rule.phrase, read]
      rfl
  | false =>
      rintro ⟨fault, refused, kind⟩
      refine ⟨fault, ?_, kind⟩
      rw [Rule.phrase, refused]
      rfl

/-- A source in layers is accepted if there is room for them, and else the limit is reported. -/
theorem Wrapped.parse_fits {source : String} {options : Options}
    (wrapped : Wrapped layers (TokenStream.ofString source).words)
    (screened : (TokenStream.ofString source).screen options = .ok ()) :
    match fit options.maxDepth 0 layers with
    | true => ∃ tree, parse .column source options {} = .ok tree
    | false => ∃ error, parse .column source options {} = .error (.refused error) ∧
        error.kind = .depthLimit := by
  have read := wrapped.phrase_fits options.maxDepth
  rw [parse_eq, TokenStream.phrase, screened]
  revert read
  cases fit options.maxDepth 0 layers with
  | true =>
      rintro ⟨phrase, read⟩
      exact ⟨phrase.tree, by simp only [EntryPoint.rule, read]; rfl⟩
  | false =>
      rintro ⟨fault, refused, kind⟩
      refine ⟨fault.report (TokenStream.ofString source) options.maxDepth, ?_, ?_⟩
      · simp only [EntryPoint.rule, refused]
        rfl
      · rw [Fault.kind_report, kind]

theorem Wrapped.parse_iff {source : String} {options : Options}
    (wrapped : Wrapped layers (TokenStream.ofString source).words)
    (screened : (TokenStream.ofString source).screen options = .ok ()) :
    (∃ tree, parse .column source options {} = .ok tree) ↔
      fit options.maxDepth 0 layers = true := by
  have outcome := wrapped.parse_fits screened
  cases fits : fit options.maxDepth 0 layers <;> rw [fits] at outcome
  · obtain ⟨error, refused, -⟩ := outcome
    simp [refused]
  · simpa using outcome

/-! ### Brackets inside and outside -/

theorem fit_nil (room nesting : Nat) : fit room nesting [] = true := by
  cases room <;> rfl

theorem fit_signs (signs room nesting : Nat) (layers : List Layer) :
    fit room nesting (List.replicate signs .minus ++ layers) = true ↔
      (signs = 0 ∨ nesting + signs < room) ∧ fit room (nesting + signs) layers = true := by
  induction signs generalizing nesting with
  | zero => simp
  | succ signs ih =>
      have one : fit room nesting (.minus :: (List.replicate signs .minus ++ layers)) =
          (decide (nesting + 1 < room) &&
            fit room (nesting + 1) (List.replicate signs .minus ++ layers)) := by
        cases room <;> rfl
      rw [List.replicate_succ, List.cons_append, one, Bool.and_eq_true, decide_eq_true_iff, ih,
        Nat.add_right_comm, Nat.add_assoc]
      constructor
      · rintro ⟨first, others, inside⟩
        exact ⟨.inr (by omega), inside⟩
      · rintro ⟨all, inside⟩
        exact ⟨by omega, by omega, inside⟩

theorem fit_brackets (brackets room nesting : Nat) (layers : List Layer) :
    fit room nesting (List.replicate brackets .bracket ++ layers) = true ↔
      brackets ≤ room ∧ fit (room - brackets) nesting layers = true := by
  induction brackets generalizing room with
  | zero => simp
  | succ brackets ih =>
      rw [List.replicate_succ, List.cons_append]
      cases room with
      | zero => simp [fit]
      | succ room => rw [fit, ih, Nat.add_le_add_iff_right, Nat.add_sub_add_right]

example : fit 2 0 [.minus, .bracket, .bracket] = true := by decide
example : fit 2 0 [.bracket, .bracket, .minus] = false := by decide

/-- Brackets inside of minus signs are counted by themselves, and so are the signs; signs inside of
brackets are counted together with the brackets. -/
theorem parses_iff (options : Options) (brackets signs : Nat) {source : String}
    (screened : (TokenStream.ofString source).screen options = .ok ()) :
    (Wrapped (List.replicate signs .minus ++ List.replicate brackets .bracket)
        (TokenStream.ofString source).words →
      ((∃ tree, parse .column source options {} = .ok tree) ↔
        brackets ≤ options.maxDepth ∧ (signs = 0 ∨ signs < options.maxDepth))) ∧
    (Wrapped (List.replicate brackets .bracket ++ List.replicate signs .minus)
        (TokenStream.ofString source).words →
      ((∃ tree, parse .column source options {} = .ok tree) ↔
        brackets ≤ options.maxDepth ∧ (signs = 0 ∨ brackets + signs < options.maxDepth))) := by
  constructor
  · intro wrapped
    rw [wrapped.parse_iff screened, fit_signs, ← List.append_nil (List.replicate brackets _),
      fit_brackets]
    simp only [fit_nil, Nat.zero_add]
    tauto
  · intro wrapped
    rw [wrapped.parse_iff screened, fit_brackets, ← List.append_nil (List.replicate signs _),
      fit_signs]
    simp only [fit_nil, Nat.zero_add, and_true]
    omega

/-- Two brackets and a sign fit into two levels if the sign is outside, and only then. -/
theorem parses_iff_twoBrackets :
    (∃ tree, parse .column "- ((a))" { maxDepth := 2 } {} = .ok tree) ∧
      ¬ ∃ tree, parse .column "((- a))" { maxDepth := 2 } {} = .ok tree := by
  let word (kind : TokenKind) (text : String) (glued : Bool) (index : Nat) : Word :=
    { kind, text, glued, index }
  have signOutside : (TokenStream.ofString "- ((a))").words =
      word .minus "-" false 0 :: (word .leftParen "(" false 1 :: (word .leftParen "(" true 2 ::
        [word (.identifier "a") "a" true 3] ++ [word .rightParen ")" true 4]) ++
        [word .rightParen ")" true 5]) := by
    decide +kernel
  have signInside : (TokenStream.ofString "((- a))").words =
      word .leftParen "(" false 0 :: (word .leftParen "(" true 1 :: (word .minus "-" true 2 ::
        [word (.identifier "a") "a" false 3]) ++ [word .rightParen ")" true 4]) ++
        [word .rightParen ")" true 5] := by
    decide +kernel
  constructor
  · refine ((parses_iff { maxDepth := 2 } 2 1 (by decide +kernel)).1 ?_).2 (by decide)
    rw [signOutside]
    exact .minus rfl (.bracket rfl rfl (.bracket rfl rfl (.name rfl)))
  · refine fun accepted => absurd
      (((parses_iff { maxDepth := 2 } 2 1 (by decide +kernel)).2 ?_).1 accepted) (by decide)
    rw [signInside]
    exact .bracket rfl rfl (.bracket rfl rfl (.minus rfl (.name rfl)))

end Layer

end SelectTree
