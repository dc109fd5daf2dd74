/-
Module: SelectTree.Proofs.Parse.Numbers
Purpose: the numbers of a source and of its tree, and why no negation of one of them overflows.
Main exports: Node.numbers, rangeAccount, Grammar.frameBound_negative, numbers_in_range

Only the scanner makes integers, and it makes none of more than 63 bits.  A tree has them as they
are or negated, in its literals and in its frames.
-/
import SelectTree.Proofs.Grammar.Bare
import SelectTree.Proofs.Grammar.Frame
import SelectTree.Proofs.Parse.Brackets
import SelectTree.Proofs.Token.Numeral
import SelectTree.Proofs.Written.Covered

namespace SelectTree

/-! ### The numbers of a tree -/

/-- The integers in a node: an integer literal, or the bounds of a frame. -/
def Node.numbers : Node → List Int
  | .column (.literal (.integer value)) => [value]
  | .element (.window _ _ _ lower upper) => lower.toList ++ upper.toList
  | _ => []

/-- The number and its negation are integers of 64 bits with a sign. -/
def InRange (value : Int) : Prop :=
  -(2 ^ 63 - 1) ≤ value ∧ value ≤ 2 ^ 63 - 1

/-- The integers among the words are natural numbers in the range. -/
def Words.Natural (words : Words) : Prop :=
  ∀ word ∈ words, ∀ value, word.kind = .integer value → 0 ≤ value ∧ value ≤ 2 ^ 63 - 1

theorem InRange.zero : InRange 0 := by
  constructor <;> decide

/-- A number without a sign may be negated and stays in range. -/
theorem InRange.of_bounds {value : Int} (bounds : 0 ≤ value ∧ value ≤ 2 ^ 63 - 1) :
    InRange value ∧ InRange (-value) := by
  unfold InRange
  omega

/-- A constant in braces is no integer. -/
theorem Temporal.read_ne_integer {form : Form} {text : String} {value : Int} :
    read form text ≠ .ok (.integer value) := by
  intro isInteger
  obtain ⟨⟨fields, rest⟩, _, isInteger⟩ := bind_eq_ok_iff.1 isInteger
  dsimp only at isInteger
  split at isInteger
  · cases isInteger
  · cases form with
    | time => cases isInteger
    | date | timestamp =>
        dsimp only [pure_bind] at isInteger
        split at isInteger <;> cases isInteger

namespace Written

open Grammar

/-- The number is in the range, if the integers among the words are. -/
def Ranges (words : Words) (value : Int) : Prop :=
  words.Natural → InRange value

/-- A number that some words bear out is borne out by more words. -/
theorem Ranges.mono (words whole : Words) (value : Int) (part : words <:+: whole) :
    Ranges words value → Ranges whole value :=
  fun ranges natural => ranges fun word member => natural word (part.subset member)

/-- Words that keep all of these numbers in the range. -/
def ranging (numbers : List Int) : Language Word :=
  bearing Ranges numbers

variable {language other : Language Word} {numbers others : List Int}

theorem le_ranging_behind (ranges : language ≤ ranging numbers) :
    other * language ≤ ranging numbers :=
  le_bearing_behind Ranges.mono ranges

theorem le_ranging_before (ranges : language ≤ ranging numbers) :
    language * other ≤ ranging numbers :=
  le_bearing_before Ranges.mono ranges

/-- A literal that is a number is written as one, perhaps with a sign. -/
theorem literal_le_ranging (value : Literal) :
    literal value ≤ ranging (Node.numbers (.column (.literal value))) := by
  cases value with
  | integer value =>
      refine sup_le (sup_le ?plain ?signed) ?braced
      case plain =>
        rintro _ ⟨⟨kind, text, glued, index⟩, isConstant, rfl⟩ number isNumber natural
        obtain rfl := List.mem_singleton.1 isNumber
        cases kind <;> cases isConstant
        exact (InRange.of_bounds (natural _ List.mem_cons_self _ rfl)).1
      case signed =>
        apply le_ranging_behind
        rintro _ ⟨⟨kind, text, glued, index⟩, isNegated, rfl⟩ number isNumber natural
        obtain rfl := List.mem_singleton.1 isNumber
        cases kind <;> cases isNegated
        exact (InRange.of_bounds (natural _ List.mem_cons_self _ rfl)).2
      case braced =>
        rintro words ⟨tag, text, form, -, read, -⟩
        exact absurd read Temporal.read_ne_integer
  | _ => exact le_bearing_nil

/-- The number of a bound is written in it, without a sign. -/
theorem frameBound_le_ranging (bound : FrameBound) :
    frameBound bound ≤ ranging bound.distance.toList := by
  cases bound with
  | unbounded side => exact le_bearing_nil
  | currentRow =>
      intro words _ number isNumber _
      obtain rfl := List.mem_singleton.1 isNumber
      exact .zero
  | offset count side =>
      apply le_ranging_before
      rintro _ ⟨word, isCount, rfl⟩ number isNumber natural
      have bounds := natural word List.mem_cons_self count isCount
      cases side <;> obtain rfl := List.mem_singleton.1 isNumber
      · exact (InRange.of_bounds bounds).2
      · exact (InRange.of_bounds bounds).1

/-- A single bound is one of the two, and the other one is the current row. -/
theorem mem_numbers_single {unit : FrameUnit} {bound : FrameBound} {number : Int}
    (isNumber : number ∈ (Frame.single unit bound).lower.toList ++
      (Frame.single unit bound).upper.toList) :
    number = 0 ∨ number ∈ bound.distance.toList := by
  unfold Frame.single at isNumber
  split at isNumber
  · next distance isDistance =>
      rw [isDistance]
      split at isNumber <;> simpa [or_comm] using isNumber
  · exact .inl (by simpa using isNumber)

/-- The numbers of a frame are those of its bounds. -/
theorem frame_le_ranging (bounds : Option Frame) :
    frame bounds ≤
      ranging ((bounds.bind Frame.lower).toList ++ (bounds.bind Frame.upper).toList) := by
  cases bounds with
  | none => exact le_bearing_nil
  | some bounds =>
      rintro words (⟨unit, lower, upper, rfl, member⟩ | ⟨unit, bound, rfl, member⟩)
      · have both : frameUnit unit * keyword .BETWEEN * frameBound lower * keyword .AND *
            frameBound upper ≤ ranging (lower.distance.toList ++ upper.distance.toList) :=
          le_bearing_append
            (le_ranging_before (le_ranging_before (le_ranging_behind (frameBound_le_ranging lower))))
            (le_ranging_behind (frameBound_le_ranging upper))
        exact both member
      · have single : frameUnit unit * frameBound bound ≤ ranging bound.distance.toList :=
          le_ranging_behind (frameBound_le_ranging bound)
        intro number isNumber natural
        rcases mem_numbers_single isNumber with rfl | own
        · exact .zero
        · exact single member number own natural

end Written

open Written

/-- The words that keep all integers in the nodes in the range. -/
def rangeAccount : Account where
  of _ _ nodes := ranging (nodes.flatMap Node.numbers)
  nothing _ := le_bearing_nil
  append _ _ _ nodes others := by
    rw [List.flatMap_append]
    exact le_bearing_append (le_ranging_before le_rfl) (le_ranging_behind le_rfl)
  word _ _ _ _ := le_bearing_nil
  bracket _ _ _ := le_ranging_before (le_ranging_behind le_rfl)
  plain _ node isPlain := by
    have none : node.numbers = [] := by
      unfold Node.isPlain at isPlain
      unfold Node.numbers
      split <;> first | rfl | cases isPlain
    rw [List.flatMap_singleton, none]
    exact le_bearing_nil
  literal value := by
    rw [List.flatMap_singleton]
    exact literal_le_ranging value
  counted value := by
    rw [List.flatMap_singleton]
    exact le_trans (le_sup_of_le_left le_sup_left) (literal_le_ranging value)
  parameter _ _ := le_bearing_nil
  negated nodes operand := by
    rw [List.flatMap_append]
    exact le_bearing_append (le_ranging_behind inf_le_left) le_bearing_nil
  operation operator nodes operand := by
    rw [List.flatMap_append]
    exact le_bearing_append (le_ranging_behind le_rfl) le_bearing_nil
  cast lenient nodes value type := by
    simp only [bracket, mul_assoc, List.flatMap_append]
    exact le_bearing_append (le_ranging_behind (le_ranging_behind (le_ranging_before le_rfl)))
      le_bearing_nil
  convert lenient type nodes others value style := by
    simp only [bracket, mul_assoc, List.flatMap_append]
    refine le_bearing_append ?_ (le_bearing_append ?_ le_bearing_nil)
    · exact le_ranging_behind (le_ranging_behind (le_ranging_behind (le_ranging_behind
        (le_ranging_before le_rfl))))
    · exact le_ranging_behind (le_ranging_behind (le_ranging_behind (le_ranging_behind
        (le_ranging_behind (le_ranging_before le_rfl)))))
  parse lenient nodes value type := by
    simp only [bracket, mul_assoc, List.flatMap_append]
    exact le_bearing_append (le_ranging_behind (le_ranging_behind (le_ranging_before le_rfl)))
      le_bearing_nil
  parseUsing lenient nodes others value type culture := by
    simp only [bracket, mul_assoc, List.flatMap_append]
    refine le_bearing_append ?_ (le_bearing_append ?_ le_bearing_nil)
    · exact le_ranging_behind (le_ranging_behind (le_ranging_before le_rfl))
    · exact le_ranging_behind (le_ranging_behind (le_ranging_behind (le_ranging_behind
        (le_ranging_behind (le_ranging_behind (le_ranging_before le_rfl))))))
  window _ partitionBy orderBy bounds := by
    rw [List.flatMap_singleton]
    exact frame_le_ranging bounds
  stringAlias _ := le_bearing_nil
  hints _ _ _ := le_bearing_nil

/-! ### Bounds of frames -/

/-- The parser does not depend on hooks or limits. -/
def Parser.Unscoped {α : Type} (parser : Parser α) : Prop :=
  ∀ scope other words, parser scope words = parser other words

namespace Parser.Unscoped

variable {α β : Type}

theorem bind {first : Parser α} {next : α → Parser β} (one : first.Unscoped)
    (two : ∀ value, (next value).Unscoped) : (first >>= next).Unscoped := by
  intro scope other words
  rw [bind_apply, bind_apply, one scope other]
  rcases first other words with fault | ⟨value, rest⟩
  · rfl
  · exact two value scope other rest

theorem pure (value : α) : (Pure.pure value : Parser α).Unscoped :=
  fun _ _ _ => rfl

theorem peek : Parser.peek.Unscoped :=
  fun _ _ _ => rfl

theorem skip (count : Nat) : (Parser.skip count).Unscoped :=
  fun _ _ _ => rfl

theorem failHere (what : String) : (Parser.failHere what : Parser α).Unscoped :=
  fun _ _ _ => rfl

theorem failAt (word : Word) (cause : Cause) : (Parser.failAt word cause : Parser α).Unscoped :=
  fun _ _ _ => rfl

theorem eatKeyword (keyword : Keyword) : (Parser.eatKeyword keyword).Unscoped := by
  intro scope other words
  rw [Parser.eatKeyword, eat_apply, eat_apply]

theorem expectKeyword (keyword : Keyword) : (Parser.expectKeyword keyword).Unscoped := by
  apply bind peek
  intro next
  cases next with
  | none => exact failHere _
  | some word =>
      simp only
      split
      · exact bind (skip 1) fun _ => pure word
      · exact failHere _

end Parser.Unscoped

namespace Grammar

theorem frameSide_unscoped : frameSide.Unscoped := by
  apply Parser.Unscoped.bind (.eatKeyword .PRECEDING)
  intro preceding
  cases preceding with
  | true => exact .pure _
  | false =>
      apply Parser.Unscoped.bind (.eatKeyword .FOLLOWING)
      intro following
      cases following with
      | true => exact .pure _
      | false => exact .failHere _

/-- What a bound is depends on its words only, so no limit has a say in it. -/
theorem frameBound_unscoped : frameBound.Unscoped := by
  have side (convert : FrameSide → FrameBound) :
      Parser.Unscoped (do return convert (← frameSide)) :=
    .bind frameSide_unscoped fun _ => .pure _
  apply Parser.Unscoped.bind (.eatKeyword .UNBOUNDED)
  intro unbounded
  cases unbounded with
  | true => exact side .unbounded
  | false =>
      apply Parser.Unscoped.bind (.eatKeyword .CURRENT)
      intro current
      cases current with
      | true => exact .bind (.expectKeyword .ROW) fun _ => .pure _
      | false =>
          apply Parser.Unscoped.bind .peek
          intro next
          cases next with
          | none => exact .failHere _
          | some word =>
              simp only
              split
              · next count _ =>
                  have counted : Parser.Unscoped (do
                      Parser.skip 1
                      return FrameBound.offset count (← frameSide)) :=
                    .bind (.skip 1) fun _ => side (.offset count)
                  split
                  · exact .bind (.failAt word .negativeOffset) fun _ => counted
                  · exact counted
              · exact .failHere _

/-- A bound of a frame is refused for being negative only if it is, whatever the hooks are. -/
theorem frameBound_negative {scope : Scope} {words : Words} {fault : Fault}
    (refused : frameBound scope words = .error fault) (negative : fault.cause = .negativeOffset) :
    ∃ word ∈ words, ∃ count, word.kind = .integer count ∧ count < 0 := by
  rw [frameBound_unscoped scope { room := 0 }] at refused
  have sited : fault.Sited words := (sited_frameBound).of_error rfl (.refl words) refused
  obtain ⟨word, count, place, isCount, below⟩ := sited.negative negative
  exact ⟨word, sited.place word place, count, isCount, below⟩

end Grammar

/-! ### Whole sources -/

/-- An integer token of a source is never negative: its sign is a token of its own. -/
theorem TokenStream.natural_words (source : String) : (ofString source).words.Natural :=
  fun _ member _ isInteger => Words.integer_bounds member isInteger

/-- Numbers are exact and in the range, whatever the source is.  A token that begins with a digit is
the longest number written there, and no other token is a number: it is the whole number that its
digits denote if that has at most 63 bits, else the text as written, or a complaint if it ends with
the sign of an exponent.  Negating an integer never overflows.  So no bound of a frame is ever
refused for being negative, and all integers of an accepted source are in the range. -/
theorem numbers_in_range (source : String) :
    (∀ token ∈ (TokenStream.ofString source).tokens,
      token.kind.isNumeric = token.beginsWithDigit ∧
      (token.beginsWithDigit = true → ∃ (numeral : Numeral) (before behind : String),
        source = before ++ numeral.text ++ behind ∧ token.span.start = before.utf8ByteSize ∧
          token.text = numeral.text ∧ token.kind = numeral.kind ∧
          ∀ other : Numeral, other.characters <+: numeral.characters ++ behind.toList →
            other.characters.length ≤ numeral.characters.length) ∧
      ∀ value, token.kind = .integer value →
        value = Numeral.denoted token.text.toList ∧ 0 ≤ value ∧ value ≤ 2 ^ 63 - 1 ∧
          (Int64.ofInt value).toInt = value ∧ (-Int64.ofInt value).toInt = -value) ∧
    (∀ scope words fault, words <:+: (TokenStream.ofString source).words →
      Grammar.frameBound scope words = .error fault → fault.cause ≠ .negativeOffset) ∧
    ∀ entry options,
      (∀ error, parse entry source options {} = .error (.refused error) →
        error.message ≠ "frame offset must not be negative") ∧
      ∀ tree, parse entry source options {} = .ok tree →
        ∀ node ∈ tree.nodes, ∀ value ∈ node.numbers, InRange value := by
  have natural := TokenStream.natural_words source
  refine ⟨?tokens, ?bounds, fun entry options => ⟨?errors, ?trees⟩⟩
  case tokens =>
    intro token member
    refine ⟨Token.isNumeric_kind member, Token.exists_longest member, ?_⟩
    intro value isInteger
    obtain ⟨-, denotes, fits⟩ := Token.integer_eq member isInteger
    have atLeast : 0 ≤ value := denotes ▸ Int.natCast_nonneg _
    exact ⟨denotes, atLeast, fits, toInt_neg_ofInt atLeast fits⟩
  case bounds =>
    intro scope words fault part refused negative
    obtain ⟨word, member, count, isCount, below⟩ := Grammar.frameBound_negative refused negative
    have bounds := natural word (part.subset member) count isCount
    omega
  case errors =>
    intro error refused message
    rcases lexical_or_fault_of_refused refused with lexical | ⟨fault, found, rfl⟩
    · obtain ⟨token, first, points⟩ := TokenStream.exists_of_lexicalError? lexical
      have capital := Token.isUpper_of_error points.member first.1
      rw [message] at capital
      exact absurd capital (by decide +kernel)
    · rw [Fault.message_report] at message
      have sited := Rule.phrase_sited found
      obtain ⟨word, count, place, isCount, below⟩ :=
        sited.negative (Cause.eq_negativeOffset message)
      have bounds := natural word (sited.place word place) count isCount
      omega
  case trees =>
    intro tree parsed node member value isNumber
    obtain ⟨_, ranges⟩ := words_mem_of_parse rangeAccount parsed
    exact ranges value (List.mem_flatMap.2 ⟨node, member, isNumber⟩) natural

end SelectTree
