/-
Module: SelectTree.Proofs.Parse.Constants
Purpose: no constant and no variable of a source is lost, doubled or moved, and none gets a sign
  that is not its own.
Main exports: TokenKind.isConstant, Node.isConstant, Tally, Tally.ofNodes, Tally.ofKinds, Unmixed,
  constants_kept

The tokens alone tell which minus signs are prefixes (`Turns`), and so what each constant of a
source is: it is negated if it is a number directly behind a prefix.  Every other prefix is a node
of its own, and every other minus sign is a subtraction.  The same is counted in a tree.
-/
import SelectTree.Proofs.Token.Respelling
import SelectTree.Proofs.Written.Covered

namespace SelectTree

/-- The token is a constant or a variable. -/
def TokenKind.isConstant : TokenKind → Bool
  | .integer _ | .decimal _ | .string _ | .nationalString _ | .variable _ => true
  | _ => false

/-- The node is a constant or a variable. -/
def Node.isConstant : Node → Bool
  | .column (.literal _) | .column (.variable _) => true
  | _ => false

/-- The node is a minus sign in front of an operand. -/
def Node.isNegation : Node → Bool
  | .column (.negated _) => true
  | _ => false

/-- The node is a minus sign between operands. -/
def Node.isSubtraction : Node → Bool
  | .element (.arithmeticOperation .subtract _) => true
  | _ => false

/-- The node that a constant or a variable is. -/
def TokenKind.constantNode? (kind : TokenKind) : Option Node :=
  match kind with
  | .variable name => some (.column (.variable name))
  | kind => (Grammar.constant? kind).map fun value => .column (.literal value)

/-- The node that a constant or a variable is, perhaps directly behind a prefix, which is part of a
number. -/
def TokenKind.node? (kind : TokenKind) (signed : Bool) : Option Node :=
  match signed, Written.negated? kind with
  | true, some value => some (.column (.literal value))
  | _, _ => kind.constantNode?

/-- The node has the value of the token, perhaps with a minus sign in front. -/
def TokenKind.StandsFor (kind : TokenKind) (node : Node) : Prop :=
  ∃ signed, kind.node? signed = some node

/-- The token of a constant has the literal with its value as its node. -/
theorem constantNode?_of_constant? {kind : TokenKind} {value : Literal}
    (isConstant : Grammar.constant? kind = some value) :
    kind.constantNode? = some (.column (.literal value)) := by
  cases kind <;> cases isConstant <;> rfl

/-- Exactly the constants and variables are nodes, with a prefix or without. -/
theorem TokenKind.isSome_node? (kind : TokenKind) (signed : Bool) :
    (kind.node? signed).isSome = kind.isConstant := by
  cases signed <;> cases kind <;> rfl

/-! ### What is tallied -/

/-- Constants and variables, and how many minus signs of each sort are nodes. -/
@[ext]
structure Tally where
  constants : List Node
  negations : Nat
  subtractions : Nat
deriving Repr, Inhabited, DecidableEq

namespace Tally

instance : Zero Tally where
  zero := { constants := [], negations := 0, subtractions := 0 }

/-- One behind the other. -/
instance : Add Tally where
  add one other :=
    { constants := one.constants ++ other.constants
      negations := one.negations + other.negations
      subtractions := one.subtractions + other.subtractions }

instance : AddMonoid Tally where
  zero_add _ := Tally.ext (List.nil_append _) (Nat.zero_add _) (Nat.zero_add _)
  add_zero _ := Tally.ext (List.append_nil _) (Nat.add_zero _) (Nat.add_zero _)
  add_assoc _ _ _ :=
    Tally.ext (List.append_assoc _ _ _) (Nat.add_assoc _ _ _) (Nat.add_assoc _ _ _)
  nsmul := nsmulRec

variable (one other : Tally)

@[simp] theorem constants_zero : (0 : Tally).constants = [] := rfl

@[simp] theorem negations_zero : (0 : Tally).negations = 0 := rfl

@[simp] theorem subtractions_zero : (0 : Tally).subtractions = 0 := rfl

@[simp] theorem constants_add : (one + other).constants = one.constants ++ other.constants := rfl

@[simp] theorem negations_add : (one + other).negations = one.negations + other.negations := rfl

@[simp] theorem subtractions_add :
    (one + other).subtractions = one.subtractions + other.subtractions := rfl

/-- The tally of the nodes of a tree. -/
def ofNodes (nodes : List Node) : Tally :=
  { constants := nodes.filter Node.isConstant
    negations := nodes.countP Node.isNegation
    subtractions := nodes.countP Node.isSubtraction }

/-- Nodes behind other nodes add what they account for. -/
theorem ofNodes_append (nodes others : List Node) :
    ofNodes (nodes ++ others) = ofNodes nodes + ofNodes others :=
  Tally.ext (List.filter_append ..) (List.countP_append ..) (List.countP_append ..)

end Tally

/-- What a token adds.  Only here it is known of a prefix in front whether that is a node of its
own. -/
def TokenKind.tally (kind : TokenKind) (turns : Turns) : Tally :=
  { constants := (kind.node? turns.signed).toList
    negations := if turns.signed && (Written.negated? kind).isNone then 1 else 0
    subtractions := if kind = .minus ∧ turns.turn = .operator then 1 else 0 }

/-- The tally of some tokens, the first of which is here. -/
def Tally.read (turns : Turns) : List TokenKind → Tally
  | [] => 0
  | kind :: kinds => kind.tally turns + read (turns.behind kind) kinds

/-- The tally of the tokens of a source. -/
def Tally.ofKinds (kinds : List TokenKind) : Tally :=
  read .start kinds

/-- Whatever signs there are, the constants and variables match one by one. -/
theorem Tally.forall₂_constants_read (turns : Turns) (kinds : List TokenKind) :
    List.Forall₂ TokenKind.StandsFor (kinds.filter TokenKind.isConstant)
      (read turns kinds).constants := by
  induction kinds generalizing turns with
  | nil => exact .nil
  | cons kind kinds ih =>
      rw [read, constants_add, List.filter_cons]
      have isNode := kind.isSome_node? turns.signed
      cases found : kind.node? turns.signed with
      | none =>
          rw [found] at isNode
          rw [← isNode, TokenKind.tally, found]
          exact ih _
      | some node =>
          rw [found] at isNode
          rw [← isNode, TokenKind.tally, found]
          exact .cons ⟨_, found⟩ (ih _)

/-! ### Sources that are not mixed -/

/-- The tokens have nothing that takes a constant and makes no node of it: no braces, hints or
bounds of window frames, no call with a type in it, and no string as an alias. -/
structure Unmixed (kinds : List TokenKind) : Prop where
  noBrace : .leftBrace ∉ kinds
  noKeyword : ∀ keyword ∈ [Keyword.OPTION, .PRECEDING, .FOLLOWING], .keyword keyword ∉ kinds
  noCall : ∀ name, .identifier name ∈ kinds →
    name.toUpper ∉ ["CAST", "TRY_CAST", "CONVERT", "TRY_CONVERT", "PARSE", "TRY_PARSE"]
  noString : ∀ text, ¬ [.keyword .AS, .string text] <:+: kinds ∧
    ¬ [.keyword .AS, .nationalString text] <:+: kinds

/-- A part of unmixed tokens is unmixed. -/
theorem Unmixed.part {kinds whole : List TokenKind} (unmixed : Unmixed whole)
    (inside : kinds <:+: whole) : Unmixed kinds where
  noBrace member := unmixed.noBrace (inside.mem member)
  noKeyword keyword isOne member := unmixed.noKeyword keyword isOne (inside.mem member)
  noCall name member := unmixed.noCall name (inside.mem member)
  noString text := ⟨fun stretch => (unmixed.noString text).1 (stretch.trans inside),
    fun stretch => (unmixed.noString text).2 (stretch.trans inside)⟩

/-- The call has a type in it, which is kept as written. -/
def Grammar.SpecialCall.takesType : SpecialCall → Bool
  | .cast _ | .convert _ | .parse _ => true
  | .iif | .aggregation _ => false

/-- The calls that take a type as written are known by name. -/
theorem Grammar.SpecialCall.mem_of_takesType {name : String} {call : SpecialCall}
    (found : ofName? name = some call) (takes : call.takesType = true) :
    name ∈ ["CAST", "TRY_CAST", "CONVERT", "TRY_CONVERT", "PARSE", "TRY_PARSE"] := by
  unfold ofName? at found
  split at found
  case h_7 =>
    cases found
    cases takes
  case h_8 =>
    obtain ⟨function, -, rfl⟩ := Option.map_eq_some_iff.1 found
    cases takes
  all_goals decide

/-- No keyword is the name of a call that takes a type as written. -/
theorem Keyword.text_notMem_calls (keyword : Keyword) :
    keyword.text ∉ ["CAST", "TRY_CAST", "CONVERT", "TRY_CONVERT", "PARSE", "TRY_PARSE"] := by
  cases keyword <;> decide

/-- The words of a source that is not mixed, or some of them. -/
structure Words.Unmixed (words : Words) : Prop where
  spelled : ∀ word ∈ words, ∀ keyword, word.kind = .keyword keyword →
    word.text.toUpper = keyword.text
  kinds : SelectTree.Unmixed (words.map Word.kind)

namespace Words.Unmixed

variable {words : Words}

/-- A part of unmixed words is unmixed. -/
theorem part {whole : Words} (unmixed : whole.Unmixed) (inside : words <:+: whole) :
    words.Unmixed where
  spelled word member := unmixed.spelled word (inside.mem member)
  kinds := unmixed.kinds.part (inside.map Word.kind)

/-- Unmixed words hold no keyword that takes words as written or numbers of its own. -/
theorem kind_ne (unmixed : words.Unmixed) {word : Word} (member : word ∈ words)
    {keyword : Keyword} (isOne : keyword ∈ [Keyword.OPTION, .PRECEDING, .FOLLOWING]) :
    word.kind ≠ .keyword keyword :=
  fun isKeyword => unmixed.kinds.noKeyword keyword isOne (isKeyword ▸ List.mem_map_of_mem member)

/-- No word begins a call with a type in it. -/
theorem not_takesType (unmixed : words.Unmixed) {word : Word} (member : word ∈ words)
    {name : Identifier} (named : word.identifier? = some name) {call : Grammar.SpecialCall}
    (special : Grammar.specialCall? [name] = some call) : call.takesType = false := by
  rw [← Bool.not_eq_true]
  intro takes
  have kindMember := List.mem_map_of_mem (f := Word.kind) member
  cases isKind : word.kind with
  | identifier written =>
      rw [Word.identifier?, isKind] at named
      cases named
      exact unmixed.kinds.noCall written (isKind ▸ kindMember)
        (Grammar.SpecialCall.mem_of_takesType special takes)
  | delimitedIdentifier written =>
      rw [Word.identifier?, isKind] at named
      cases named
      cases special
  | keyword keyword =>
      rw [Word.identifier?, isKind] at named
      dsimp only at named
      split at named
      · cases named
      · -- A keyword that stands for a name is spelled as itself, and no call is.
        cases named
        have known := Grammar.SpecialCall.mem_of_takesType special takes
        rw [Identifier.plain, unmixed.spelled word member keyword isKind] at known
        exact keyword.text_notMem_calls known
  | _ =>
      rw [Word.identifier?, isKind] at named
      cases named

end Words.Unmixed

/-! ### Words that are tallied -/

/-- No prefix is in front. -/
def Turns.unsigned (turn : Turn) (opened : List Turn) : Turns :=
  { turn, signed := false, opened }

/-- Directly behind a prefix. -/
def Turns.behindPrefix (opened : List Turn) : Turns :=
  { turn := .operand, signed := true, opened }

namespace Tally

variable {kind : TokenKind} {kinds : List TokenKind} {turn next : Turn} {opened : List Turn}

/-- A quiet word adds nothing and moves on. -/
theorem read_quiet (passes : turn.past? kind = some next) :
    read (.unsigned turn opened) (kind :: kinds) = read (.unsigned next opened) kinds := by
  obtain ⟨quietly, rfl⟩ := Turn.past?_eq_some_iff.1 passes
  have nothing : kind.tally (.unsigned turn opened) = 0 := by
    cases kind <;> first | rfl | cases quietly
  have goesOn : (Turns.unsigned turn opened).behind kind =
      .unsigned (turn.behind kind) opened := by
    cases kind <;> first | rfl | cases quietly
  rw [read, nothing, zero_add, goesOn]

/-- An opening bracket is remembered with what was next in front of it. -/
theorem read_leftParen :
    read (.unsigned turn opened) (.leftParen :: kinds) =
      read (.unsigned .operand (turn :: opened)) kinds := by
  rw [read]
  exact zero_add _

/-- A closing bracket ends what its opening one began. -/
theorem read_rightParen :
    read (.unsigned next (turn :: opened)) (.rightParen :: kinds) =
      read (.unsigned turn.ended opened) kinds := by
  rw [read]
  exact zero_add _

/-- A constant or a variable that no prefix is in front of. -/
theorem read_constant {node : Node} (isNode : kind.constantNode? = some node) :
    read (.unsigned turn opened) (kind :: kinds) =
      ofNodes [node] + read (.unsigned turn.ended opened) kinds := by
  cases kind <;> cases isNode <;> rfl

/-- Where an operand may begin, a minus sign is a prefix, and what follows decides about it. -/
theorem read_minus :
    read (.unsigned .operand opened) (.minus :: kinds) = read (.behindPrefix opened) kinds := by
  rw [read]
  exact zero_add _

/-- A prefix that is part of the number behind it. -/
theorem read_negative {value : Literal} (isNegated : Written.negated? kind = some value) :
    read (.unsigned .operand opened) (.minus :: kind :: kinds) =
      ofNodes [.column (.literal value)] + read (.unsigned .operator opened) kinds := by
  rw [read_minus]
  cases kind <;> cases isNegated <;> rfl

/-- A prefix that is a node of its own.  It is counted with the token behind it. -/
theorem read_negation (operand : Slot) (isWhole : Written.negated? kind = none) :
    read (.unsigned .operand opened) (.minus :: kind :: kinds) =
      ofNodes [.column (.negated operand)] + read (.unsigned .operand opened) (kind :: kinds) := by
  have signed : kind.tally (.behindPrefix opened) =
      ofNodes [.column (.negated operand)] + kind.tally (.unsigned .operand opened) := by
    cases kind <;> first | rfl | cases isWhole
  have goesOn : (Turns.behindPrefix opened).behind kind =
      (Turns.unsigned .operand opened).behind kind := by
    cases kind <;> rfl
  rw [read_minus, read, signed, goesOn, add_assoc, read]

/-- Behind an operand, a minus sign is a subtraction. -/
theorem read_subtraction (operand : Slot) :
    read (.unsigned .operator opened) (.minus :: kinds) =
      ofNodes [.element (.arithmeticOperation .subtract operand)] +
        read (.unsigned .operand opened) kinds :=
  rfl

/-- A node that is no constant commutes with every tally. -/
theorem ofNodes_add_comm {node : Node} (noConstant : node.isConstant = false) (tally : Tally) :
    ofNodes [node] + tally = tally + ofNodes [node] := by
  ext <;> simp [ofNodes, noConstant, Nat.add_comm]

end Tally

namespace Written

/-- Words whose tally is that of the nodes, whatever is open in front of them and whatever follows,
if they are not mixed. -/
def tallied (first last : Turn) (nodes : List Node) : Language Word :=
  {words | Words.Unmixed words → ∀ opened behind,
    Tally.read (.unsigned first opened) (words.map Word.kind ++ behind) =
      Tally.ofNodes nodes + Tally.read (.unsigned last opened) behind}

variable {first middle last turn : Turn} {language : Language Word} {nodes others : List Node}

/-- Of words that are mixed nothing is claimed. -/
theorem mixed_le_tallied (mixed : ∀ words ∈ language, ¬ Words.Unmixed words) :
    language ≤ tallied first last nodes :=
  fun words member unmixed => absurd unmixed (mixed words member)

theorem one_le_tallied : 1 ≤ tallied turn turn [] := by
  rintro _ rfl - opened behind
  exact (zero_add _).symm

/-- Tallies of words behind each other add up. -/
theorem tallied_append :
    tallied first middle nodes * tallied middle last others ≤
      tallied first last (nodes ++ others) := by
  rintro _ ⟨words, tallies, more, follows, rfl⟩ unmixed opened behind
  have front := tallies (unmixed.part (List.prefix_append words more).isInfix) opened
  have back := follows (unmixed.part (List.suffix_append words more).isInfix) opened behind
  rw [List.map_append, List.append_assoc, front, back, Tally.ofNodes_append, add_assoc]

/-- A word that adds some nodes. -/
theorem one_isMember_le_tallied {isMember : Word → Prop}
    (adds : ∀ word, isMember word → ∀ opened behind,
      Tally.read (.unsigned first opened) (word.kind :: behind) =
        Tally.ofNodes nodes + Tally.read (.unsigned last opened) behind) :
    one isMember ≤ tallied first last nodes := by
  rintro _ ⟨word, found, rfl⟩ -
  exact adds word found

/-- A quiet word needs no node. -/
theorem kind_le_tallied {isKind : TokenKind} (passes : turn.past? isKind = some last) :
    kind isKind ≤ tallied turn last [] :=
  one_isMember_le_tallied fun _ found _ _ => by
    rw [found, Tally.read_quiet passes]
    exact (zero_add _).symm

/-- What is in brackets is tallied from a fresh turn on. -/
theorem bracket_le_tallied :
    bracket (tallied .operand last nodes) ≤ tallied turn turn.ended nodes := by
  rintro _ ⟨_, ⟨_, ⟨opening, opens, rfl⟩, words, tallies, rfl⟩, _, ⟨closing, closes, rfl⟩, rfl⟩
    unmixed opened behind
  have inside : words <:+: [opening] ++ words ++ [closing] := ⟨_, _, rfl⟩
  have inner := tallies (unmixed.part inside) (turn :: opened) (.rightParen :: behind)
  rw [Tally.read_rightParen] at inner
  rw [← inner, ← Tally.read_leftParen]
  simp [opens, closes]

/-- Nodes that are neither constants nor signs add nothing. -/
theorem le_tallied_append {node : Node} (untallied : Tally.ofNodes [node] = 0) :
    tallied first last nodes ≤ tallied first last (nodes ++ [node]) := by
  intro words tallies unmixed opened behind
  rw [Tally.ofNodes_append, untallied, add_zero]
  exact tallies unmixed opened behind

/-- A call with a type in it is mixed. -/
theorem called_le_tallied {call : Grammar.SpecialCall} (takes : call.takesType = true) :
    called call * language ≤ tallied first last nodes := by
  apply mixed_le_tallied
  rintro _ ⟨_, ⟨word, ⟨name, named, special⟩, rfl⟩, more, -, rfl⟩ unmixed
  have begins := unmixed.not_takesType (List.mem_append_left _ (List.mem_singleton_self word)) named
    special
  rw [takes] at begins
  cases begins

/-- A constant without a sign in front is a literal. -/
theorem constant_le_tallied (value : Literal) :
    one (Grammar.constant? ·.kind = some value) ≤
      tallied turn turn.ended [.column (.literal value)] :=
  one_isMember_le_tallied fun _ isConstant _ _ =>
    Tally.read_constant (constantNode?_of_constant? isConstant)

/-- A literal is one constant, whose sign, if it has one, is a prefix directly in front of it. -/
theorem literal_le_tallied (value : Literal) :
    literal value ≤ tallied .operand .operator [.column (.literal value)] := by
  refine sup_le (sup_le (constant_le_tallied value) ?_) (mixed_le_tallied ?_)
  · rintro _ ⟨_, ⟨sign, isSign, rfl⟩, _, ⟨word, isNegated, rfl⟩, rfl⟩ - opened behind
    change Tally.read _ (sign.kind :: word.kind :: behind) = _
    rw [isSign]
    exact Tally.read_negative isNegated
  · rintro words ⟨tag, text, form, -, -, member⟩ unmixed
    simp only [mul_assoc] at member
    obtain ⟨_, ⟨word, isBrace, rfl⟩, more, -, rfl⟩ := member
    exact unmixed.kinds.noBrace (isBrace ▸ List.mem_cons_self)

/-- A prefix that is not folded into a constant is a negation of what follows. -/
theorem negated_le_tallied (operand : Slot) :
    kind .minus * (tallied .operand .operator nodes ⊓ begun (negated? · = none)) ≤
      tallied .operand .operator (nodes ++ [.column (.negated operand)]) := by
  rintro _ ⟨_, ⟨sign, isSign, rfl⟩, _, ⟨tallies, word, words, rfl, isWhole⟩, rfl⟩
    unmixed opened behind
  have inner := tallies (unmixed.part (List.suffix_append [sign] _).isInfix) opened behind
  change Tally.read _ (sign.kind :: word.kind :: (words.map Word.kind ++ behind)) = _
  rw [isSign, Tally.read_negation operand isWhole, Tally.ofNodes_append,
    ← Tally.ofNodes_add_comm rfl, add_assoc, ← inner]
  rfl

/-- A minus is the only operator that counts as a sign. -/
theorem minus_or_isQuiet {isKind : TokenKind} {operator : ArithmeticOperator}
    (isOperator : Grammar.arithmeticOperator? isKind = some operator) :
    isKind = .minus ∧ operator = .subtract ∨
      Turn.operator.past? isKind = some .operand ∧ operator ≠ .subtract := by
  cases isKind <;> cases isOperator <;> simp [Turn.past?, TokenKind.isQuiet, Turn.behind]

/-- An operator behind an operand is an operation, and a minus sign among them a subtraction. -/
theorem operator_le_tallied (operator : ArithmeticOperator) (operand : Slot) :
    arithmeticOperator operator ≤
      tallied .operator .operand [.element (.arithmeticOperation operator operand)] := by
  apply one_isMember_le_tallied
  intro word isOperator opened behind
  rcases minus_or_isQuiet isOperator with ⟨isSign, rfl⟩ | ⟨passes, other⟩
  · rw [isSign]
    exact Tally.read_subtraction operand
  · rw [Tally.read_quiet passes]
    cases operator <;> first | exact (zero_add _).symm | exact absurd rfl other

/-- A bound that counts rows is mixed. -/
theorem frameBound_le_tallied (bound : FrameBound) :
    frameBound bound ≤ tallied turn .operator [] := by
  have side {language : Language Word} (isSide : FrameSide) :
      language * frameSide isSide ≤ tallied turn .operator [] := by
    apply mixed_le_tallied
    rintro _ ⟨words, -, _, isSide', rfl⟩ unmixed
    cases isSide <;> obtain ⟨word, isKeyword, rfl⟩ := isSide' <;>
      exact unmixed.kind_ne (List.mem_append_right _ List.mem_cons_self) (by decide) isKeyword
  cases bound with
  | unbounded isSide => exact side isSide
  | currentRow =>
      have current : keyword .CURRENT ≤ tallied turn .operand [] := kind_le_tallied rfl
      exact le_trans (mul_le_mul' current (kind_le_tallied rfl)) tallied_append
  | offset count isSide => exact side isSide

/-- An alias that is a string is mixed words, so nothing is claimed of it. -/
theorem stringAlias_le_tallied (called : Identifier) :
    stringAlias called ≤ tallied first last [] := by
  apply mixed_le_tallied
  rintro _ ⟨_, ⟨first, isKeyword, rfl⟩, _, ⟨word, named, rfl⟩, rfl⟩ unmixed
  have noString := unmixed.kinds.noString
  change ∀ text, ¬ [.keyword .AS, .string text] <:+: [first.kind, word.kind] ∧
    ¬ [.keyword .AS, .nationalString text] <:+: [first.kind, word.kind] at noString
  rw [isKeyword] at noString
  unfold Parser.stringName? at named
  split at named
  · next text isString => exact (noString text).1 (isString ▸ List.infix_refl _)
  · next text isString => exact (noString text).2 (isString ▸ List.infix_refl _)
  · cases named

/-- Hints are mixed words, so nothing is claimed of them. -/
theorem hints_le_tallied : keyword .OPTION * language ≤ tallied first last nodes := by
  apply mixed_le_tallied
  rintro _ ⟨_, ⟨word, isKeyword, rfl⟩, more, -, rfl⟩ unmixed
  exact unmixed.kind_ne List.mem_cons_self (by decide) isKeyword

end Written

open Written

/-- The words whose tally is that of the nodes. -/
def tallyAccount : Account where
  of := tallied
  nothing _ := one_le_tallied
  append _ _ _ _ _ := tallied_append
  word _ _ _ := kind_le_tallied
  bracket _ _ _ := bracket_le_tallied
  plain turn node isPlain := by
    have untallied : Tally.ofNodes [node] = 0 := by
      cases node with
      | column column => cases column <;> first | rfl | cases isPlain
      | element element => cases element <;> first | rfl | cases isPlain
      | _ => rfl
    exact le_trans one_le_tallied (le_tallied_append untallied)
  literal := literal_le_tallied
  counted := constant_le_tallied
  parameter _ name :=
    one_isMember_le_tallied fun _ isVariable _ _ => Tally.read_constant (isVariable ▸ rfl)
  negated _ := negated_le_tallied
  operation operator nodes operand := by
    intro words member unmixed opened behind
    have both := tallied_append (mul_le_mul' (operator_le_tallied operator operand) le_rfl member)
      unmixed opened behind
    rw [both, Tally.ofNodes_append, Tally.ofNodes_append, Tally.ofNodes_add_comm rfl]
  cast _ _ _ _ := called_le_tallied rfl
  convert _ _ _ _ _ _ := called_le_tallied rfl
  parse _ _ _ _ := called_le_tallied rfl
  parseUsing _ _ _ _ _ _ := called_le_tallied rfl
  window turn _ _ bounds := le_trans
    (frame_le (fun _ => one_le_tallied) (fun _ _ _ => tallied_append)
      (fun _ _ _ => kind_le_tallied) (fun _ => frameBound_le_tallied) turn bounds)
    (le_tallied_append rfl)
  stringAlias := stringAlias_le_tallied
  hints _ _ _ := hints_le_tallied

/-- In a source that is not mixed no constant and no variable is lost, doubled or moved: they are
the literals and variables of the tree in the order of their numbers.  A number is negated exactly
if it directly follows a prefix, which is a minus sign in front of which no operand has ended.  The
other prefixes and the subtractions are as many nodes of the tree. -/
theorem constants_kept {entry : EntryPoint} {source : String} {options : Options} {tree : Tree}
    (parsed : parse entry source options {} = .ok tree)
    (unmixed : Unmixed ((TokenStream.ofString source).tokens.map Token.kind)) :
    List.Forall₂ TokenKind.StandsFor
        (((TokenStream.ofString source).tokens.map Token.kind).filter TokenKind.isConstant)
        (tree.nodes.filter Node.isConstant) ∧
      Tally.ofNodes tree.nodes =
        Tally.ofKinds ((TokenStream.ofString source).tokens.map Token.kind) := by
  have same : Tally.ofNodes tree.nodes =
      Tally.ofKinds ((TokenStream.ofString source).tokens.map Token.kind) := by
    have kinds := Words.map_kind_stream (TokenStream.ofString source)
    rw [← kinds] at unmixed ⊢
    obtain ⟨last, tallies⟩ := words_mem_of_parse tallyAccount parsed
    have whole := tallies ⟨fun word member keyword => Words.toUpper_of_keyword member, unmixed⟩ [] []
    rw [List.append_nil] at whole
    exact (whole.trans (add_zero _)).symm
  have constants : tree.nodes.filter Node.isConstant = (Tally.ofKinds _).constants :=
    congrArg Tally.constants same
  exact ⟨constants ▸ Tally.forall₂_constants_read .start _, same⟩

/-- Of two constants alike the first is behind a prefix and the second is behind a subtraction. -/
example : Tally.ofKinds [.minus, .integer 5, .minus, .integer 5] =
    { constants := [.column (.literal (.integer (-5))), .column (.literal (.integer 5))]
      negations := 0
      subtractions := 1 } := by
  decide

/-- The tree of `-5 - -@p + f('x')`.  Of the three minus signs the first is part of the constant,
the second is the subtraction and the third is a prefix. -/
def signedOperands : Tree :=
  { entries := #[
      { node := .root (some ⟨8⟩), parent := none },
      { node := .column (.literal (.integer (-5))), parent := some ⟨8⟩ },
      { node := .column (.variable "@p"), parent := some ⟨3⟩ },
      { node := .column (.negated (some ⟨2⟩)), parent := some ⟨4⟩ },
      { node := .element (.arithmeticOperation .subtract (some ⟨3⟩)), parent := some ⟨8⟩ },
      { node := .column (.literal (.string "x")), parent := some ⟨6⟩ },
      { node := .column (.function [.plain "f"] [some ⟨5⟩]), parent := some ⟨7⟩ },
      { node := .element (.arithmeticOperation .add (some ⟨6⟩)), parent := some ⟨8⟩ },
      { node := .column (.arithmetic (some ⟨1⟩) [some ⟨4⟩, some ⟨7⟩]), parent := some ⟨0⟩ }] }

/-- The sample is accepted and its tree is the expected one. -/
theorem parse_signedOperands :
    parse .column "-5 - -@p + f('x')" {} {} = .ok signedOperands := by
  decide +kernel

/-- The tokens of the sample. -/
theorem kinds_signedOperands : (TokenStream.ofString "-5 - -@p + f('x')").tokens.map Token.kind =
    [.minus, .integer 5, .minus, .minus, .variable "@p", .plus, .identifier "f", .leftParen,
      .string "x", .rightParen] := by
  decide +kernel

theorem unmixed_signedOperands :
    Unmixed ((TokenStream.ofString "-5 - -@p + f('x')").tokens.map Token.kind) := by
  rw [kinds_signedOperands]
  refine ⟨by decide, by decide, fun name member => ?_, fun text => ?_⟩
  · obtain rfl : name = "f" := by simpa using member
    decide +kernel
  · have noAlias : TokenKind.keyword .AS ∉ [TokenKind.minus, .integer 5, .minus, .minus,
        .variable "@p", .plus, .identifier "f", .leftParen, .string "x", .rightParen] := by
      decide
    exact ⟨fun stretch => noAlias (stretch.mem List.mem_cons_self),
      fun stretch => noAlias (stretch.mem List.mem_cons_self)⟩

theorem constants_kept_signedOperands :
    parse .column "-5 - -@p + f('x')" {} {} = .ok signedOperands ∧
      List.Forall₂ TokenKind.StandsFor [.integer 5, .variable "@p", .string "x"]
        [.column (.literal (.integer (-5))), .column (.variable "@p"),
          .column (.literal (.string "x"))] ∧
      Tally.ofKinds
          [.minus, .integer 5, .minus, .minus, .variable "@p", .plus, .identifier "f", .leftParen,
            .string "x", .rightParen] =
        { constants := [.column (.literal (.integer (-5))), .column (.variable "@p"),
            .column (.literal (.string "x"))]
          negations := 1
          subtractions := 1 } := by
  obtain ⟨constants, same⟩ := constants_kept parse_signedOperands unmixed_signedOperands
  rw [kinds_signedOperands] at constants same
  exact ⟨parse_signedOperands, constants, same.symm⟩

end SelectTree
