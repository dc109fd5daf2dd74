/-
Module: SelectTree.Proofs.Parse.Denied
Purpose: where the denied keywords of an accepted source stand.
Main exports: Node.typeText?, Written.hintList, Exempt, Guarded, guardAccount, denied_only_exempt

Only texts that are kept as written can hold denied keywords: types and hints.  In a type the policy
exempts the brackets behind an `OPTION` just as it does for a list of hints.
-/
import SelectTree.Proofs.Policy.OptionGroup
import SelectTree.Proofs.Token.Respelling
import SelectTree.Proofs.Written.Covered

namespace SelectTree

/-- The type that a node keeps as written. -/
def Node.typeText? : Node → Option String
  | .column (.cast _ type _) | .column (.convert type _ _ _) | .column (.parse _ type _ _) =>
      some type
  | _ => none

/-- Words with this text, one space for each gap. -/
def Written.reading (text : String) : Language Word :=
  {words | Words.text words = text}

/-- Hints with commas between them and perhaps one behind them. -/
def Written.hintList (hints : List String) : Language Word :=
  list 1 comma (hints.map reading) * maybe comma

/-- The word between these words is in brackets behind an `OPTION`.  They hold the hints of a node,
or they are in a type that a node keeps as written. -/
inductive Exempt (nodes : List Node) (before : Words) (word : Word) (after : Words) : Prop where
  | hints {hints : List String} {group : OptionGroup} {front back : Words} :
      .element (.optionHints hints) ∈ nodes → group.contents ∈ Written.hintList hints →
      group.Holds front before word after back → Exempt nodes before word after
  | type {node : Node} {group : OptionGroup} {outer first last further : Words} :
      node ∈ nodes → node.typeText? = some (Words.text (first ++ (group.words ++ last))) →
      group.Holds (outer ++ first) before word after (last ++ further) →
      Exempt nodes before word after

theorem Exempt.extends (nodes : List Node) : Policy.Extends (Exempt nodes) := by
  intro before word after front back exempt
  cases exempt with
  | hints member contents holds => exact .hints member contents (holds.around front back)
  | @type node group outer first last further member isType holds =>
      have around := holds.around front back
      rw [← List.append_assoc, List.append_assoc last] at around
      exact .type member isType around

/-! ### Words and nodes -/

/-- The keyword policy looks at words of this kind. -/
def TokenKind.isWatched (kind : TokenKind) : Bool :=
  kind.isDenied || kind == .keyword .OPTION

/-- Watched words are in the brackets behind an `OPTION` whose hints a node has, or in a type that a
node has.  No type is in front of a bracket. -/
inductive Guarded (nodes : List Node) : Words → Prop where
  | nil : Guarded nodes []
  | word {word : Word} {rest : Words} : word.kind.isWatched = false → Guarded nodes rest →
      Guarded nodes (word :: rest)
  | hints {hints : List String} (group : OptionGroup) {rest : Words} :
      .element (.optionHints hints) ∈ nodes → group.contents ∈ Written.hintList hints →
      Guarded nodes rest → Guarded nodes (group.words ++ rest)
  | type {node : Node} {stretch rest : Words} {next : Word} : node ∈ nodes →
      node.typeText? = some stretch.text → stretch.Balanced → next.kind ≠ .leftParen →
      Guarded nodes (next :: rest) → Guarded nodes (stretch ++ next :: rest)

namespace Guarded

variable {nodes others : List Node} {words more : Words}

/-- More nodes guard at least as much. -/
theorem mono (guarded : Guarded nodes words) (subset : nodes ⊆ others) : Guarded others words := by
  induction guarded with
  | nil => exact .nil
  | word free _ ih => exact .word free ih
  | hints group member contents _ ih => exact .hints group (subset member) contents ih
  | type member isType balanced noBracket _ ih =>
      exact .type (subset member) isType balanced noBracket ih

/-- A denied keyword is in the first words or in the second ones. -/
theorem append (one : Guarded nodes words) (two : Guarded nodes more) :
    Guarded nodes (words ++ more) := by
  induction one with
  | nil => exact two
  | word free _ ih => exact .word free ih
  | hints group member contents _ ih =>
      rw [List.append_assoc]
      exact .hints group member contents ih
  | type member isType balanced noBracket _ ih =>
      rw [List.append_assoc]
      exact .type member isType balanced noBracket ih

/-- What the policy lets pass in such words. -/
theorem exempts (guarded : Guarded nodes words)
    (passes : Policy.offences none (words.map Word.kind) = []) :
    Policy.Exempts (Exempt nodes) words := by
  induction guarded with
  | nil => exact .nil
  | @word word rest free _ ih =>
      simp only [TokenKind.isWatched, Bool.or_eq_false_iff, beq_eq_false_iff_ne] at free
      obtain ⟨goesOn, -⟩ := Policy.step_outside (fun isOption => absurd isOption free.2) passes
      exact (Policy.Exempts.word free.1).append (Exempt.extends nodes) (ih goesOn)
  | hints group member contents _ ih =>
      rw [List.map_append] at passes
      obtain ⟨goesOn, inside⟩ := Policy.passes_group group passes
      have here : Policy.Exempts (Exempt nodes) group.words :=
        (Policy.Exempts.group group inside).imp fun _ _ _ _ holds => .hints member contents holds
      exact here.append (Exempt.extends nodes) (ih goesOn)
  | @type node stretch rest next member isType balanced noBracket _ ih =>
      rw [List.map_append, List.map_cons] at passes
      obtain ⟨goesOn, inside⟩ := Policy.passes_seen balanced.seen noBracket passes
      have here : Policy.Exempts (Exempt nodes) stretch := by
        apply inside.imp
        rintro before word after split ⟨group, front, back, holds⟩
        rw [split, holds.eq_append] at isType
        have whole : group.Holds ([] ++ front) before word after (back ++ []) := by
          rwa [List.append_nil]
        exact .type member isType whole
      exact here.append (Exempt.extends nodes) (ih goesOn)

end Guarded

/-! ### What is written -/

namespace Written

/-- Words that are guarded by the nodes. -/
def guarding (nodes : List Node) : Language Word :=
  {words | Guarded nodes words}

/-- Words in which every bracket is closed. -/
def balanced : Language Word :=
  {words | Words.Balanced words}

variable {language other : Language Word} {nodes others : List Node}

theorem guarding_mono (subset : nodes ⊆ others) : guarding nodes ≤ guarding others :=
  fun _ guarded => guarded.mono subset

/-- Languages that are guarded by the same nodes are so behind each other. -/
theorem mul_le_guarding (first : language ≤ guarding nodes) (second : other ≤ guarding nodes) :
    language * other ≤ guarding nodes := by
  rintro _ ⟨words, isFirst, more, isSecond, rfl⟩
  have here : Guarded nodes words := first isFirst
  exact here.append (second isSecond)

/-- Each part is guarded by its own nodes. -/
theorem guarding_append : guarding nodes * guarding others ≤ guarding (nodes ++ others) :=
  mul_le_guarding (guarding_mono (List.subset_append_left nodes others))
    (guarding_mono (List.subset_append_right nodes others))

theorem one_le_guarding : 1 ≤ guarding nodes := by
  rintro _ rfl
  exact .nil

/-- One word that is not watched needs no guard. -/
theorem one_isMember_le_guarding {isMember : Word → Prop}
    (free : ∀ word, isMember word → word.kind.isWatched = false) :
    one isMember ≤ guarding nodes := by
  rintro _ ⟨word, found, rfl⟩
  exact .word (free word found) .nil

theorem kind_le_guarding {isKind : TokenKind} (free : isKind.isWatched = false) :
    kind isKind ≤ guarding nodes :=
  one_isMember_le_guarding fun _ found => found ▸ free

/-- Quiet words are not watched. -/
theorem isWatched_of_isQuiet {kind : TokenKind} (quietly : kind.isQuiet = true) :
    kind.isWatched = false := by
  cases kind with
  | keyword keyword => cases keyword <;> first | rfl | cases quietly
  | _ => rfl

theorem called_le_guarding (call : Grammar.SpecialCall) : called call ≤ guarding nodes :=
  one_isMember_le_guarding fun _ ⟨_, named, _⟩ =>
    isWatched_of_isQuiet (isQuiet_of_identifier? named)

/-- A type, which a word that is no bracket is behind. -/
theorem type_le_guarding {node : Node} {type : Verbatim} {closes : TokenKind}
    (member : node ∈ nodes) (isType : node.typeText? = some type.text)
    (noBracket : closes ≠ .leftParen) (behind : kind closes * language ≤ guarding nodes) :
    verbatim type * (kind closes * language) ≤ guarding nodes := by
  rintro _ ⟨stretch, ⟨balanced, text⟩, _, ⟨_, ⟨next, isNext, rfl⟩, rest, isRest, rfl⟩, rfl⟩
  have goesOn : [next] ++ rest ∈ guarding nodes :=
    behind (Language.append_mem_mul (mem_kind isNext) isRest)
  rw [← text] at isType
  exact .type member isType balanced (isNext ▸ noBracket) goesOn

/-- A type at the end of brackets. -/
theorem last_type_le_guarding {node : Node} {type : Verbatim} (member : node ∈ nodes)
    (isType : node.typeText? = some type.text) :
    verbatim type * kind .rightParen ≤ guarding nodes := by
  rw [← mul_one (kind .rightParen)]
  apply type_le_guarding member isType (by decide)
  rw [mul_one]
  exact kind_le_guarding rfl

/-- A call whose brackets end with `AS` and a type. -/
theorem call_le_guarding {call : Grammar.SpecialCall} {node : Node} {type : Verbatim}
    (isType : node.typeText? = some type.text) :
    called call * bracket (guarding nodes * keyword .AS * verbatim type) ≤
      guarding (nodes ++ [node]) := by
  have value : guarding nodes ≤ guarding (nodes ++ [node]) :=
    guarding_mono (List.subset_append_left nodes [node])
  have last : verbatim type * kind .rightParen ≤ guarding (nodes ++ [node]) :=
    last_type_le_guarding (List.mem_append_right nodes List.mem_cons_self) isType
  simp only [bracket, mul_assoc]
  apply mul_le_guarding (called_le_guarding call)
  apply mul_le_guarding (kind_le_guarding rfl)
  apply mul_le_guarding value
  exact mul_le_guarding (kind_le_guarding rfl) last

/-- A call whose brackets begin with a type. -/
theorem converted_le_guarding {call : Grammar.SpecialCall} {node : Node} {type : Verbatim}
    (isType : node.typeText? = some type.text) :
    called call * bracket (verbatim type * comma * guarding nodes * guarding others) ≤
      guarding (nodes ++ (others ++ [node])) := by
  have value : guarding nodes ≤ guarding (nodes ++ (others ++ [node])) :=
    guarding_mono (List.subset_append_left nodes _)
  have style : guarding others ≤ guarding (nodes ++ (others ++ [node])) :=
    guarding_mono (List.subset_append_of_subset_right nodes (List.subset_append_left others [node]))
  simp only [bracket, comma, mul_assoc]
  apply mul_le_guarding (called_le_guarding call)
  apply mul_le_guarding (kind_le_guarding rfl)
  apply type_le_guarding (by simp) isType (by decide)
  apply mul_le_guarding (kind_le_guarding rfl)
  apply mul_le_guarding value
  exact mul_le_guarding style (kind_le_guarding rfl)

/-- A call with a type between `AS` and `USING`. -/
theorem parsed_le_guarding {call : Grammar.SpecialCall} {node : Node} {type : Verbatim}
    (isType : node.typeText? = some type.text) :
    called call * bracket (guarding nodes * keyword .AS * verbatim type *
        (keyword .USING * guarding others)) ≤
      guarding (nodes ++ (others ++ [node])) := by
  have value : guarding nodes ≤ guarding (nodes ++ (others ++ [node])) :=
    guarding_mono (List.subset_append_left nodes _)
  have culture : guarding others ≤ guarding (nodes ++ (others ++ [node])) :=
    guarding_mono (List.subset_append_of_subset_right nodes (List.subset_append_left others [node]))
  simp only [bracket, keyword, mul_assoc]
  apply mul_le_guarding (called_le_guarding call)
  apply mul_le_guarding (kind_le_guarding rfl)
  apply mul_le_guarding value
  apply mul_le_guarding (kind_le_guarding rfl)
  apply type_le_guarding (by simp) isType (by decide)
  apply mul_le_guarding (kind_le_guarding rfl)
  exact mul_le_guarding culture (kind_le_guarding rfl)

/-- The literals are written without a watched word. -/
theorem literal_le_guarding (value : Literal) : literal value ≤ guarding nodes := by
  refine sup_le (sup_le ?plain ?signed) ?braced
  case plain =>
    apply one_isMember_le_guarding
    rintro ⟨kind, text, glued, index⟩ isConstant
    cases kind <;> first | rfl | cases isConstant
  case signed =>
    apply mul_le_guarding (kind_le_guarding rfl)
    apply one_isMember_le_guarding
    rintro ⟨kind, text, glued, index⟩ isNegated
    cases kind <;> first | rfl | cases isNegated
  case braced =>
    rintro words ⟨tag, text, form, -, -, member⟩
    have free : kind .leftBrace * kind (.identifier tag) * kind (.string text) * kind .rightBrace ≤
        guarding nodes :=
      mul_le_guarding (mul_le_guarding (mul_le_guarding (kind_le_guarding rfl)
        (kind_le_guarding rfl)) (kind_le_guarding rfl)) (kind_le_guarding rfl)
    exact free member

theorem arithmeticOperator_le_guarding (operator : ArithmeticOperator) :
    arithmeticOperator operator ≤ guarding nodes := by
  apply one_isMember_le_guarding
  rintro ⟨kind, text, glued, index⟩ isOperator
  cases kind <;> first | rfl | cases isOperator

theorem frameSide_le_guarding (side : FrameSide) : frameSide side ≤ guarding nodes := by
  cases side <;> exact kind_le_guarding rfl

theorem frameBound_le_guarding (bound : FrameBound) : frameBound bound ≤ guarding nodes := by
  cases bound with
  | unbounded side => exact mul_le_guarding (kind_le_guarding rfl) (frameSide_le_guarding side)
  | currentRow => exact mul_le_guarding (kind_le_guarding rfl) (kind_le_guarding rfl)
  | offset count side => exact mul_le_guarding (kind_le_guarding rfl) (frameSide_le_guarding side)

/-- An alias that is a string is no denied keyword. -/
theorem stringAlias_le_guarding (called : Identifier) : stringAlias called ≤ guarding nodes := by
  apply mul_le_guarding (kind_le_guarding rfl)
  apply one_isMember_le_guarding
  rintro ⟨kind, text, glued, index⟩ isString
  cases kind <;> first | rfl | cases isString

theorem one_le_balanced : 1 ≤ balanced := by
  intro words nothing
  rw [(Language.mem_one _).1 nothing]
  exact .nil

/-- Balanced words behind balanced words are balanced. -/
theorem mul_le_balanced (first : language ≤ balanced) (second : other ≤ balanced) :
    language * other ≤ balanced := by
  rintro _ ⟨words, isFirst, more, isSecond, rfl⟩
  have here : Words.Balanced words := first isFirst
  exact here.append (second isSecond)

theorem comma_le_balanced : comma ≤ balanced := by
  rintro _ ⟨word, isComma, rfl⟩
  exact .word (by rw [isComma]; rfl)

theorem verbatim_le_balanced (text : Verbatim) : verbatim text ≤ balanced :=
  fun _ kept => kept.1

/-- Hints with commas between them are balanced, since each of them is. -/
theorem hints_le_balanced (others : List Verbatim) :
    list comma comma (others.map verbatim) ≤ balanced := by
  apply list_le one_le_balanced (mul_le_balanced le_rfl le_rfl) comma_le_balanced comma_le_balanced
  exact List.forall_mem_map.2 fun text _ => verbatim_le_balanced text

/-- What is written for the hints is a hint list with their texts. -/
theorem le_hintList (first : Verbatim) (others : List Verbatim) :
    verbatim first * list comma comma (others.map verbatim) * maybe comma ≤
      hintList ((first :: others).map Verbatim.text) := by
  have texts : List.Forall₂ (· ≤ ·) ((first :: others).map verbatim)
      (((first :: others).map Verbatim.text).map reading) := by
    rw [List.map_map, List.forall₂_map_left_iff, List.forall₂_map_right_iff, List.forall₂_same]
    exact fun _ _ _ member => member.2
  have below : list 1 comma ((first :: others).map verbatim) * maybe comma ≤
      hintList ((first :: others).map Verbatim.text) :=
    mul_le_mul' (list_mono texts) le_rfl
  rwa [List.map_cons, list, one_mul] at below

/-- The brackets of hints are a group behind their `OPTION`. -/
theorem hints_le_guarding (first : Verbatim) (others : List Verbatim) :
    keyword .OPTION *
        bracket (verbatim first * list comma comma (others.map verbatim) * maybe comma) ≤
      guarding [.element (.optionHints ((first :: others).map Verbatim.text))] := by
  rintro _ ⟨_, ⟨option, isOption, rfl⟩, _, ⟨_, ⟨_, ⟨opening, opens, rfl⟩, contents, written, rfl⟩,
    _, ⟨closing, closes, rfl⟩, rfl⟩, rfl⟩
  have closed : Words.Balanced contents := mul_le_balanced (mul_le_balanced
    (verbatim_le_balanced first) (hints_le_balanced others))
    (sup_le one_le_balanced comma_le_balanced) written
  let group : OptionGroup :=
    { option, opening, contents, closing, isOption, opens, closes, balanced := closed }
  have listed : contents ∈ hintList ((first :: others).map Verbatim.text) :=
    le_hintList first others written
  have whole : Guarded [.element (.optionHints ((first :: others).map Verbatim.text))]
      (group.words ++ []) :=
    .hints group List.mem_cons_self listed .nil
  rwa [List.append_nil] at whole

end Written

open Written

/-- The words that are guarded by nodes. -/
def guardAccount : Account where
  of _ _ := guarding
  nothing _ := one_le_guarding
  append _ _ _ _ _ := guarding_append
  word _ _ _ passes :=
    kind_le_guarding (isWatched_of_isQuiet (Turn.past?_eq_some_iff.1 passes).1)
  bracket _ _ _ := mul_le_guarding (mul_le_guarding (kind_le_guarding rfl) le_rfl)
    (kind_le_guarding rfl)
  plain _ _ _ := one_le_guarding
  literal value := literal_le_guarding value
  counted value := le_trans (le_sup_of_le_left le_sup_left) (literal_le_guarding value)
  parameter _ _ := kind_le_guarding rfl
  negated nodes _ := mul_le_guarding (kind_le_guarding rfl)
    (le_trans inf_le_left (guarding_mono (List.subset_append_left nodes _)))
  operation operator nodes _ := mul_le_guarding (arithmeticOperator_le_guarding operator)
    (guarding_mono (List.subset_append_left nodes _))
  cast _ _ _ _ := call_le_guarding rfl
  convert _ _ _ _ _ _ := converted_le_guarding rfl
  parse _ _ _ _ := call_le_guarding rfl
  parseUsing _ _ _ _ _ _ := parsed_le_guarding rfl
  window turn _ _ bounds := frame_le (fun _ => one_le_guarding)
    (fun _ _ _ => mul_le_guarding le_rfl le_rfl)
    (fun _ _ _ passes =>
      kind_le_guarding (isWatched_of_isQuiet (Turn.past?_eq_some_iff.1 passes).1))
    (fun _ bound => frameBound_le_guarding bound) turn bounds
  stringAlias := stringAlias_le_guarding
  hints _ := hints_le_guarding

/-! ### Accepted sources -/

/-- What passes the screen has passed the policy. -/
theorem TokenStream.check_of_screen {stream : TokenStream} {options : Options}
    (screened : stream.screen options = .ok ()) (enforced : options.enforcePolicy = true) :
    Policy.check (stream.tokens.map Token.kind) = .ok () := by
  unfold TokenStream.screen at screened
  rw [enforced] at screened
  cases lexical : stream.lexicalError? with
  | some error =>
      rw [lexical] at screened
      cases screened
  | none =>
      rw [lexical] at screened
      cases checked : Policy.check (stream.tokens.map Token.kind) with
      | ok => rfl
      | error keywords =>
          rw [checked] at screened
          cases screened

/-- A source that is accepted under the policy has passed its check. -/
theorem check_of_parse {entry : EntryPoint} {source : String} {options : Options} {hooks : Hooks}
    {tree : Tree} (parsed : parse entry source options hooks = .ok tree)
    (enforced : options.enforcePolicy = true) :
    Policy.check ((TokenStream.ofString source).tokens.map Token.kind) = .ok () := by
  rw [parse_eq] at parsed
  obtain ⟨phrase, read, -⟩ := map_eq_ok_iff.1 parsed
  obtain ⟨_, screened, -⟩ := bind_eq_ok_iff.1 read
  exact TokenStream.check_of_screen screened enforced

/-- With the policy, an accepted source has no denied keyword but `USE`.  Each `USE` is in brackets
behind an `OPTION` that hold hints of the tree, or that are in a type which the tree keeps. -/
theorem denied_only_exempt {entry : EntryPoint} {source : String} {options : Options} {tree : Tree}
    (enforced : options.enforcePolicy = true) (parsed : parse entry source options {} = .ok tree) :
    (∀ keyword, keyword.isDenied = true →
        .keyword keyword ∈ (TokenStream.ofString source).tokens.map Token.kind → keyword = .USE) ∧
      ∀ before use after, (TokenStream.ofString source).words = before ++ use :: after →
        use.kind = .keyword .USE → Exempt tree.nodes before use after := by
  have passes := Policy.offences_eq_nil_of_check (check_of_parse parsed enforced)
  rw [← Words.map_kind_stream] at passes ⊢
  have guarded : Guarded tree.nodes (TokenStream.ofString source).words :=
    (words_mem_of_parse guardAccount parsed).elim fun _ member => member
  have exempts := guarded.exempts passes
  constructor
  · intro keyword denied member
    obtain ⟨word, inside, isKeyword⟩ := List.mem_map.1 member
    obtain ⟨before, after, split⟩ := List.append_of_mem inside
    obtain ⟨isUse, -⟩ := exempts before word after split (by rw [isKeyword]; exact denied)
    rw [isKeyword] at isUse
    cases isUse
    rfl
  · intro before use after split isUse
    exact (exempts before use after split (by rw [isUse]; rfl)).2

/-- The tree of `CAST(a AS OPTION (USE x))`.  The type is kept as written; there are no hints. -/
def castToOption : Tree :=
  { entries := #[
      { node := .root (some ⟨2⟩), parent := none },
      { node := .column (.primitive none (.plain "a")), parent := some ⟨2⟩ },
      { node := .column (.cast (some ⟨1⟩) "OPTION (USE x)" false), parent := some ⟨0⟩ }] }

theorem parse_castToOption :
    parse .column "CAST(a AS OPTION (USE x))" {} {} = .ok castToOption := by
  decide +kernel

/-- A `USE` that is in no hints. -/
theorem denied_only_exempt_castToOption :
    parse .column "CAST(a AS OPTION (USE x))" {} {} = .ok castToOption ∧
      .keyword .USE ∈ (TokenStream.ofString "CAST(a AS OPTION (USE x))").tokens.map Token.kind ∧
      (∀ hints, .element (.optionHints hints) ∉ castToOption.nodes) ∧
      ∀ before use after,
        (TokenStream.ofString "CAST(a AS OPTION (USE x))").words = before ++ use :: after →
        use.kind = .keyword .USE → Exempt castToOption.nodes before use after := by
  have exempt := (denied_only_exempt rfl parse_castToOption).2
  exact ⟨parse_castToOption, by decide +kernel, by simp [castToOption, Tree.nodes], exempt⟩

end SelectTree
