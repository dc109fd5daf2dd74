/-
Module: SelectTree.Proofs.Parse.Excerpt
Purpose: what a tree keeps as written is read again as the tokens that it was taken from.
Main exports: Excerpt, Node.excerpts, Written.holding, excerpts_read_back

Types and hints are kept as the text of a stretch of tokens.  Their account says where in the source
that stretch is; the rest is what holds of all tokens that are written again.
-/
import SelectTree.Proofs.Token.Respelling
import SelectTree.Proofs.Written.Covered

namespace SelectTree

/-- A text that is kept as written, and what may stand in front of it and behind it. -/
structure Excerpt where
  text : String
  opening : List TokenKind
  closing : List TokenKind
deriving Repr, Inhabited, DecidableEq

/-- The texts in a node that are kept as written. -/
def Node.excerpts : Node → List Excerpt
  | .column (.cast _ type _) =>
      [{ text := type, opening := [.keyword .AS], closing := [.rightParen] }]
  | .column (.convert type _ _ _) =>
      [{ text := type, opening := [.leftParen], closing := [.comma] }]
  | .column (.parse _ type _ _) =>
      [{ text := type, opening := [.keyword .AS], closing := [.rightParen, .keyword .USING] }]
  | .element (.optionHints hints) =>
      hints.map fun hint =>
        { text := hint, opening := [.leftParen, .comma], closing := [.comma, .rightParen] }
  | _ => []

namespace Written

/-- The text of the excerpt stands among the words. -/
def Holds (words : Words) (excerpt : Excerpt) : Prop :=
  ∃ first stretch last, first :: (stretch ++ [last]) <:+: words ∧
    first.kind ∈ excerpt.opening ∧ Words.text stretch = excerpt.text ∧ last.kind ∈ excerpt.closing

/-- An excerpt of a part is an excerpt of the whole. -/
theorem Holds.mono (words whole : Words) (excerpt : Excerpt) (part : words <:+: whole) :
    Holds words excerpt → Holds whole excerpt := by
  rintro ⟨first, stretch, last, inside, around⟩
  exact ⟨first, stretch, last, inside.trans part, around⟩

/-- Words among which all these texts stand. -/
def holding (excerpts : List Excerpt) : Language Word :=
  bearing Holds excerpts

variable {language other : Language Word} {excerpts others : List Excerpt}

theorem le_holding_nil : language ≤ holding [] :=
  le_bearing_nil

/-- Words that hold two lists of excerpts hold both together. -/
theorem le_holding_append (some : language ≤ holding excerpts) (more : language ≤ holding others) :
    language ≤ holding (excerpts ++ others) :=
  le_bearing_append some more

theorem le_holding_behind (holds : language ≤ holding excerpts) :
    other * language ≤ holding excerpts :=
  le_bearing_behind Holds.mono holds

theorem le_holding_before (holds : language ≤ holding excerpts) :
    language * other ≤ holding excerpts :=
  le_bearing_before Holds.mono holds

/-- A text between two words. -/
theorem le_holding_single {opens closes : TokenKind} {type : Verbatim} {excerpt : Excerpt}
    (opening : opens ∈ excerpt.opening) (text : type.text = excerpt.text)
    (closing : closes ∈ excerpt.closing) :
    kind opens * (verbatim type * (kind closes * language)) ≤ holding [excerpt] := by
  rintro _ ⟨_, ⟨first, rfl, rfl⟩, _, ⟨stretch, ⟨-, isType⟩, _,
    ⟨_, ⟨last, rfl, rfl⟩, more, -, rfl⟩, rfl⟩, rfl⟩ excerpt' kept
  obtain rfl := List.mem_singleton.1 kept
  refine ⟨first, stretch, last, ?_, opening, isType.trans text, closing⟩
  exact ⟨[], more, by simp⟩

/-- A text between the words that delimit it is the excerpt. -/
theorem le_holding_last {opens closes : TokenKind} {type : Verbatim} {excerpt : Excerpt}
    (opening : opens ∈ excerpt.opening) (text : type.text = excerpt.text)
    (closing : closes ∈ excerpt.closing) :
    kind opens * (verbatim type * kind closes) ≤ holding [excerpt] := by
  rw [← mul_one (kind closes)]
  exact le_holding_single opening text closing

/-- A call whose brackets end with `AS` and a type. -/
theorem call_le_holding {type : Verbatim}
    (last : kind (.keyword .AS) * (verbatim type * kind .rightParen) ≤ holding others) :
    other * bracket (holding excerpts * keyword .AS * verbatim type) ≤
      holding (excerpts ++ others) := by
  simp only [bracket, keyword, mul_assoc]
  exact le_holding_behind (le_holding_append (le_holding_behind (le_holding_before le_rfl))
    (le_holding_behind (le_holding_behind last)))

/-- A call whose brackets begin with a type. -/
theorem converted_le_holding {type : Verbatim} {types : List Excerpt}
    (first : ∀ behind : Language Word,
      kind .leftParen * (verbatim type * (kind .comma * behind)) ≤ holding types) :
    other * bracket (verbatim type * comma * holding excerpts * holding others) ≤
      holding (excerpts ++ (others ++ types)) := by
  simp only [bracket, comma, mul_assoc]
  apply le_holding_behind
  refine le_holding_append ?_ (le_holding_append ?_ (first _))
  · exact le_holding_behind (le_holding_behind (le_holding_behind (le_holding_before le_rfl)))
  · exact le_holding_behind (le_holding_behind (le_holding_behind (le_holding_behind
      (le_holding_before le_rfl))))

/-- A call with a type between `AS` and `USING`. -/
theorem parsed_le_holding {type : Verbatim} {types : List Excerpt}
    (middle : ∀ behind : Language Word,
      kind (.keyword .AS) * (verbatim type * (kind (.keyword .USING) * behind)) ≤ holding types) :
    other * bracket (holding excerpts * keyword .AS * verbatim type *
        (keyword .USING * holding others)) ≤
      holding (excerpts ++ (others ++ types)) := by
  simp only [bracket, keyword, mul_assoc]
  apply le_holding_behind
  apply le_holding_behind
  apply le_holding_append (le_holding_before le_rfl)
  apply le_holding_behind
  refine le_holding_append ?_ (middle _)
  exact le_holding_behind (le_holding_behind (le_holding_behind (le_holding_before le_rfl)))

/-- The text of a hint.  The comma behind a hint is the one in front of the next. -/
theorem hints_le_holding (first : Verbatim) (others : List Verbatim) {opens : TokenKind}
    (opening : opens ∈ [TokenKind.leftParen, .comma]) :
    kind opens * (verbatim first * (list comma comma (others.map verbatim) *
      (Written.maybe comma * kind .rightParen))) ≤
        holding (Node.element (.optionHints ((first :: others).map Verbatim.text))).excerpts := by
  induction others generalizing first opens with
  | nil =>
      rw [List.map_nil, list, one_mul, Written.maybe, add_mul, one_mul, mul_add, mul_add]
      exact sup_le (le_holding_last opening rfl (by simp))
        (le_holding_single opening rfl (by simp))
  | cons second others ih =>
      rw [List.map_cons, list, comma, mul_assoc, mul_assoc]
      refine le_holding_append (le_holding_single opening rfl (by simp)) ?_
      exact le_holding_behind (le_holding_behind (ih second (by decide)))

end Written

open Written

/-- The words among which all texts that the nodes keep as written stand. -/
def excerptAccount : Account where
  of _ _ nodes := holding (nodes.flatMap Node.excerpts)
  nothing _ := le_holding_nil
  append _ _ _ nodes others := by
    rw [List.flatMap_append]
    exact le_holding_append (le_holding_before le_rfl) (le_holding_behind le_rfl)
  word _ _ _ _ := le_holding_nil
  bracket _ _ _ := le_holding_before (le_holding_behind le_rfl)
  plain _ node isPlain := by
    have none : node.excerpts = [] := by
      unfold Node.isPlain at isPlain
      unfold Node.excerpts
      split <;> first | rfl | cases isPlain
    rw [List.flatMap_singleton, none]
    exact le_holding_nil
  literal _ := le_holding_nil
  counted _ := le_holding_nil
  parameter _ _ := le_holding_nil
  negated nodes operand := by
    rw [List.flatMap_append]
    exact le_holding_append (le_holding_behind inf_le_left) le_holding_nil
  operation operator nodes operand := by
    rw [List.flatMap_append]
    exact le_holding_append (le_holding_behind le_rfl) le_holding_nil
  cast lenient nodes value type := by
    rw [List.flatMap_append, List.flatMap_singleton]
    exact call_le_holding (le_holding_last (by simp) rfl (by simp))
  convert lenient type nodes others value style := by
    rw [List.flatMap_append, List.flatMap_append, List.flatMap_singleton]
    exact converted_le_holding fun _ => le_holding_single (by simp) rfl (by simp)
  parse lenient nodes value type := by
    rw [List.flatMap_append, List.flatMap_singleton]
    exact call_le_holding (le_holding_last (by simp) rfl (by simp))
  parseUsing lenient nodes others value type culture := by
    rw [List.flatMap_append, List.flatMap_append, List.flatMap_singleton]
    exact parsed_le_holding fun _ => le_holding_single (by simp) rfl (by simp)
  window _ _ _ _ := le_holding_nil
  stringAlias _ := le_holding_nil
  hints _ first others := by
    rw [List.flatMap_singleton]
    simp only [bracket, mul_assoc]
    exact le_holding_behind (hints_le_holding first others (by simp))

/-- A stretch of the words of some tokens between two other words is a stretch of the tokens between
two other tokens. -/
theorem Words.exists_of_enclosed {tokens : List Token} {first last : Word} {words : Words}
    (inside : first :: (words ++ [last]) <:+: ofTokens tokens) :
    ∃ opening range closing, opening :: (range ++ [closing]) <:+: tokens ∧
      opening.kind = first.kind ∧ Token.Respelled range words.text ∧
      closing.kind = last.kind := by
  obtain ⟨whole, stretch, stop, index, same⟩ := exists_of_infix inside
  cases whole with
  | nil => cases same
  | cons opening others =>
      rw [ofTokensBehind, List.cons.injEq] at same
      obtain ⟨rfl, same⟩ := same
      obtain ⟨range, ⟨rest, rfl⟩, rfl⟩ := exists_of_prefix ⟨[last], same⟩
      have spelled := congrArg (List.map Word.spelling) same
      rw [List.map_append, map_spelling, map_spelling, List.map_append,
        List.append_cancel_left_eq] at spelled
      obtain ⟨closing, rfl, isLast⟩ := List.map_eq_singleton_iff.1 spelled.symm
      exact ⟨opening, range, closing, stretch, rfl, respelled_text .., congrArg Prod.fst isLast⟩

/-- Tokens of a source that are written again are read again, so the text of a stretch of words is
read as that stretch, and each text that a tree keeps as written as tokens of the source. -/
theorem texts_read_back :
    (∀ {source text : String} {range : List Token},
      range <:+: (TokenStream.ofString source).tokens → Token.Respelled range text →
      TokenStream.ReadsAs text range) ∧
    (∀ {source : String} {words : Words}, words <:+: (TokenStream.ofString source).words →
      ∃ range, range <:+: (TokenStream.ofString source).tokens ∧
        words.map Word.spelling = range.map Token.spelling ∧
        Token.Respelled range words.text ∧ TokenStream.ReadsAs words.text range) ∧
    ∀ {entry : EntryPoint} {source : String} {options : Options} {tree : Tree},
      parse entry source options {} = .ok tree →
      ∀ node ∈ tree.nodes, ∀ excerpt ∈ node.excerpts, ∃ first range last,
        first :: (range ++ [last]) <:+: (TokenStream.ofString source).tokens ∧
        first.kind ∈ excerpt.opening ∧ last.kind ∈ excerpt.closing ∧
        Token.Respelled range excerpt.text ∧ TokenStream.ReadsAs excerpt.text range := by
  refine ⟨Token.Respelled.readsAs, Words.exists_respelled, ?_⟩
  intro entry source options tree parsed node isNode excerpt kept
  obtain ⟨_, held⟩ := words_mem_of_parse excerptAccount parsed
  obtain ⟨first, words, last, inside, opening, text, closing⟩ :=
    held excerpt (List.mem_flatMap.2 ⟨node, isNode, kept⟩)
  obtain ⟨firstToken, range, lastToken, stretch, isFirst, respelled, isLast⟩ :=
    Words.exists_of_enclosed inside
  rw [text] at respelled
  have enclosed : range <:+: firstToken :: (range ++ [lastToken]) := ⟨[firstToken], [lastToken], rfl⟩
  exact ⟨firstToken, range, lastToken, stretch, isFirst ▸ opening, isLast ▸ closing, respelled,
    respelled.readsAs (enclosed.trans stretch)⟩

/-- The tree of `CAST(a AS varchar/**/(5))`.  The comment in the type is kept as a space. -/
def commentedCast : Tree :=
  { entries := #[
      { node := .root (some ⟨2⟩), parent := none },
      { node := .column (.primitive none (.plain "a")), parent := some ⟨2⟩ },
      { node := .column (.cast (some ⟨1⟩) "varchar (5)" false), parent := some ⟨0⟩ }] }

theorem parse_commentedCast :
    parse .column "CAST(a AS varchar/**/(5))" {} {} = .ok commentedCast := by
  decide +kernel

/-- The tokens of `varchar/**/(5`. -/
def typeTokens : List Token :=
  ((TokenStream.ofString "CAST(a AS varchar/**/(5))").tokens.drop 4).take 3

theorem respelled_typeTokens : Token.Respelled typeTokens "varchar (  5" := by
  have parts : typeTokens =
      [{ kind := .identifier "varchar", text := "varchar", span := { start := 10, stop := 17 } },
        { kind := .leftParen, text := "(", span := { start := 21, stop := 22 } },
        { kind := .integer 5, text := "5", span := { start := 22, stop := 23 } }] := by
    decide +kernel
  rw [parts]
  exact .cons 1 (by decide) (.cons 2 (by decide) (.single _))

theorem texts_read_back_commentedCast :
    TokenStream.ReadsAs "varchar (  5" typeTokens ∧
      (∃ range, TokenStream.ReadsAs
        (TokenStream.ofString "CAST(a AS varchar/**/(5))").words.text range) ∧
      parse .column "CAST(a AS varchar/**/(5))" {} {} = .ok commentedCast ∧
      ∃ first range last,
        first :: (range ++ [last]) <:+:
          (TokenStream.ofString "CAST(a AS varchar/**/(5))").tokens ∧
        first.kind ∈ [TokenKind.keyword .AS] ∧ last.kind ∈ [TokenKind.rightParen] ∧
        Token.Respelled range "varchar (5)" ∧ TokenStream.ReadsAs "varchar (5)" range := by
  have inside : typeTokens <:+: (TokenStream.ofString "CAST(a AS varchar/**/(5))").tokens :=
    (List.take_prefix ..).isInfix.trans (List.drop_suffix ..).isInfix
  obtain ⟨range, -, -, -, reads⟩ := texts_read_back.2.1 (List.infix_refl
    (TokenStream.ofString "CAST(a AS varchar/**/(5))").words)
  have kept := texts_read_back.2.2 parse_commentedCast
    (.column (.cast (some ⟨1⟩) "varchar (5)" false)) (by decide +kernel)
    { text := "varchar (5)", opening := [.keyword .AS], closing := [.rightParen] } (.head [])
  exact ⟨texts_read_back.1 inside respelled_typeTokens, ⟨range, reads⟩, parse_commentedCast, kept⟩

end SelectTree
