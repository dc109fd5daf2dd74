/-
Module: SelectTree.Proofs.Token.Numeral
Purpose: how numbers are written and what they are, and that the scanner takes the longest one.
Main exports: Numeral, Numeral.kind, Lexeme.exists_numeral, Lexeme.length_le_number,
  Token.isNumeric_kind, Token.exists_longest, Words.integer_bounds

A number has up to three parts.  The scanner takes each of them as far as it goes, and no number
that stops earlier in one part can go on in a later one.
-/
import Mathlib.Data.List.TakeWhile
import Mathlib.Data.Nat.Digits.Defs
import SelectTree.Proofs.Token.Origin
import SelectTree.Proofs.Token.Respelling

namespace SelectTree

/-- An exponent as written: its mark, perhaps a sign, and digits, which can be missing behind a sign
only. -/
structure Exponent where
  mark : Char
  sign : Option Char
  digits : List Char
  isMark : mark = 'e' ∨ mark = 'E'
  isSign : ∀ c ∈ sign, c = '+' ∨ c = '-'
  isDigits : ∀ c ∈ digits, c.isDigit = true
  signed : digits = [] → sign.isSome = true

/-- A number as written: digits, perhaps a point and further digits, perhaps an exponent.  Without
digits behind the point there is no point. -/
structure Numeral where
  whole : List Char
  fraction : List Char
  exponent : Option Exponent
  isWhole : ∀ c ∈ whole, c.isDigit = true
  nonempty : whole ≠ []
  isFraction : ∀ c ∈ fraction, c.isDigit = true

def Exponent.characters (exponent : Exponent) : List Char :=
  exponent.mark :: (exponent.sign.toList ++ exponent.digits)

namespace Numeral

/-- The point and the digits behind it. -/
def point (fraction : List Char) : List Char :=
  if fraction.isEmpty then [] else '.' :: fraction

/-- The characters of an exponent that may be missing. -/
def power : Option Exponent → List Char
  | none => []
  | some exponent => exponent.characters

def characters (numeral : Numeral) : List Char :=
  numeral.whole ++ (point numeral.fraction ++ power numeral.exponent)

def text (numeral : Numeral) : String :=
  String.ofList numeral.characters

/-- The number that digits denote in base ten. -/
def denoted (digits : List Char) : Nat :=
  Nat.ofDigits 10 (digits.reverse.map fun c => c.toNat - '0'.toNat)

/-- The number that is denoted in front of the point. -/
def value (numeral : Numeral) : Nat :=
  denoted numeral.whole

/-- The number has neither a fraction nor an exponent. -/
def isWholeNumber (numeral : Numeral) : Bool :=
  numeral.fraction.isEmpty && numeral.exponent.isNone

/-- The exponent has a sign but no digit. -/
def isHalfWritten (numeral : Numeral) : Bool :=
  numeral.exponent.any fun exponent => exponent.digits.isEmpty

/-- What the number is as a token: a whole number of 63 bits, or else the exact text, unless it is
only half written. -/
def kind (numeral : Numeral) : TokenKind :=
  if numeral.isWholeNumber then
    if numeral.value ≤ 2 ^ 63 - 1 then .integer numeral.value else .decimal numeral.text
  else if numeral.isHalfWritten then .error "Invalid number: invalid float literal"
  else .decimal numeral.text

end Numeral

/-! ### The value of digits -/

theorem Decimal.value_eq_denoted (digits : List Char) : value digits = Numeral.denoted digits := by
  rw [value, Numeral.denoted, Nat.ofDigits_eq_foldr, List.foldr_map, List.foldr_reverse]
  simp only [Nat.cast_id, Nat.add_comm]

namespace Lexeme

open Numeral (point power)

/-! ### What the scanner takes is a number -/

theorem fractionPart_eq_point (cs : List Char) :
    ∃ digits, (∀ c ∈ digits, c.isDigit = true) ∧ fractionPart cs = point digits := by
  cases cs with
  | nil => exact ⟨[], nofun, rfl⟩
  | cons c cs =>
      rw [fractionPart_cons]
      split
      · next begins =>
          refine ⟨cs.takeWhile Char.isDigit, fun _ => List.mem_takeWhile_imp, ?_⟩
          cases cs with
          | nil => simp at begins
          | cons d ds =>
              have digit : d.isDigit = true := by simpa using begins.2
              simp [point, digit, begins.1]
      · exact ⟨[], nofun, rfl⟩

/-- Behind the mark there is a sign and then digits, or there are digits at once. -/
theorem exponentPart_eq_power (cs : List Char) : ∃ exponent, exponentPart cs = power exponent := by
  unfold exponentPart
  split
  · next e c cs =>
      split
      · next begins =>
          obtain ⟨isMark, digit | sign⟩ := begins
          · have digits : ∀ d ∈ c :: cs.takeWhile Char.isDigit, d.isDigit = true :=
              List.forall_mem_cons.2 ⟨digit, fun _ => List.mem_takeWhile_imp⟩
            exact ⟨some ⟨e, none, _, isMark, nofun, digits, nofun⟩, rfl⟩
          · have isSign : ∀ d ∈ some c, d = '+' ∨ d = '-' := by
              rintro _ ⟨⟩
              exact sign
            have digits : ∀ d ∈ cs.takeWhile Char.isDigit, d.isDigit = true :=
              fun _ => List.mem_takeWhile_imp
            exact ⟨some ⟨e, some c, _, isMark, isSign, digits, fun _ => rfl⟩, rfl⟩
      · exact ⟨none, rfl⟩
  · exact ⟨none, rfl⟩

theorem isEmpty_point (fraction : List Char) : (point fraction).isEmpty = fraction.isEmpty := by
  cases fraction <;> rfl

theorem isEmpty_power (exponent : Option Exponent) :
    (power exponent).isEmpty = exponent.isNone := by
  cases exponent <;> rfl

/-- Neither the mark nor the sign is a digit. -/
theorem any_isDigit_characters (exponent : Exponent) :
    exponent.characters.any Char.isDigit = !exponent.digits.isEmpty := by
  have mark : exponent.mark.isDigit = false := by
    rcases exponent.isMark with same | same <;> rw [same] <;> rfl
  have sign : exponent.sign.toList.any Char.isDigit = false := by
    cases present : exponent.sign with
    | none => rfl
    | some c => rcases exponent.isSign c present with rfl | rfl <;> rfl
  rw [Exponent.characters, List.any_cons, mark, List.any_append, sign, Bool.false_or, Bool.false_or]
  cases digits : exponent.digits with
  | nil => rfl
  | cons d ds => simp [exponent.isDigits d (by simp [digits])]

theorem numberKind_eq (numeral : Numeral) :
    numberKind numeral.whole (point numeral.fraction) (power numeral.exponent) = numeral.kind := by
  have denotes : Decimal.value numeral.whole = numeral.value := Decimal.value_eq_denoted _
  have fits : numeral.value < Decimal.wordLimit ↔ numeral.value ≤ 2 ^ 63 - 1 := by
    rw [Decimal.wordLimit]
    omega
  have half : ((power numeral.exponent).isEmpty || (power numeral.exponent).any Char.isDigit) =
      !numeral.isHalfWritten := by
    rw [Numeral.isHalfWritten]
    cases numeral.exponent with
    | none => rfl
    | some exponent => exact any_isDigit_characters exponent
  rw [numberKind, Numeral.kind, Numeral.isWholeNumber, half, isEmpty_point, isEmpty_power]
  simp only [denotes, fits]
  cases numeral.isHalfWritten <;> rfl

/-- The scanner takes a number. -/
theorem exists_numeral {c : Char} (digit : c.isDigit = true) (cs : List Char) :
    ∃ numeral : Numeral, (number (c :: cs)).text = numeral.characters ∧
      (number (c :: cs)).kind = numeral.kind := by
  obtain ⟨whole, fraction, exponent, rest, cut, parts⟩ := exists_numberParts (c :: cs)
  obtain ⟨digits, areDigits, isFraction⟩ := fractionPart_eq_point (fraction ++ (exponent ++ rest))
  obtain ⟨raised, isExponent⟩ := exponentPart_eq_power (exponent ++ rest)
  rw [parts.fraction_eq] at isFraction
  rw [parts.exponent_eq] at isExponent
  have isWhole := parts.whole_eq
  rw [← cut, List.takeWhile_cons, if_pos digit] at isWhole
  let numeral : Numeral :=
    { whole, fraction := digits, exponent := raised, isFraction := areDigits
      isWhole := by
        rw [← isWhole]
        exact List.forall_mem_cons.2 ⟨digit, fun _ => List.mem_takeWhile_imp⟩
      nonempty := by
        rw [← isWhole]
        exact List.cons_ne_nil _ _ }
  refine ⟨numeral, ?_, ?_⟩ <;> rw [cut, number_eq parts, isFraction, isExponent]
  · rfl
  · exact numberKind_eq numeral

/-! ### There is no longer one -/

/-- Digits in front of a text are all the digits at its front, or there are more. -/
theorem takeWhile_cases {digits : List Char} (areDigits : ∀ c ∈ digits, c.isDigit = true)
    (rest : List Char) :
    (digits ++ rest).takeWhile Char.isDigit = digits ∨
      digits.length < ((digits ++ rest).takeWhile Char.isDigit).length ∧
        rest.head?.any Char.isDigit = true := by
  rw [List.takeWhile_append_of_pos areDigits]
  cases rest with
  | nil => exact .inl (List.append_nil digits)
  | cons c cs =>
      cases digit : c.isDigit with
      | false => exact .inl (by simp [digit])
      | true => exact .inr (by simp [digit])

/-- What is behind the digits of a number does not begin with a digit, unless nothing is there. -/
theorem eq_nil_of_isDigit {fraction : List Char} {exponent : Option Exponent} {rest : List Char}
    (digit : (point fraction ++ (power exponent ++ rest)).head?.any Char.isDigit = true) :
    point fraction = [] ∧ power exponent = [] := by
  cases fraction with
  | cons d ds => simp [point] at digit
  | nil =>
      cases exponent with
      | none => exact ⟨rfl, rfl⟩
      | some exponent =>
          exfalso
          rcases exponent.isMark with mark | mark <;>
            simp [point, power, Exponent.characters, mark] at digit

theorem length_power_le (exponent : Option Exponent) (rest : List Char) :
    (power exponent).length ≤ (exponentPart (power exponent ++ rest)).length := by
  cases exponent with
  | none => exact Nat.zero_le _
  | some exponent =>
      have longer : exponent.digits.length ≤
          ((exponent.digits ++ rest).takeWhile Char.isDigit).length := by
        rw [List.takeWhile_append_of_pos exponent.isDigits, List.length_append]
        exact Nat.le_add_right _ _
      cases sign : exponent.sign with
      | some c =>
          have follows : c = '+' ∨ c = '-' := exponent.isSign c sign
          have begins : (exponent.mark = 'e' ∨ exponent.mark = 'E') ∧
              (c.isDigit = true ∨ c = '+' ∨ c = '-') := ⟨exponent.isMark, .inr follows⟩
          simp only [power, Exponent.characters, sign, Option.toList_some, List.cons_append,
            List.nil_append, exponentPart, if_pos begins, List.length_cons]
          omega
      | none =>
          cases digits : exponent.digits with
          | nil => simpa [sign] using exponent.signed digits
          | cons d ds =>
              have digit : d.isDigit = true := exponent.isDigits d (by simp [digits])
              have begins : (exponent.mark = 'e' ∨ exponent.mark = 'E') ∧
                  (d.isDigit = true ∨ d = '+' ∨ d = '-') := ⟨exponent.isMark, .inl digit⟩
              simp only [digits, List.cons_append, List.takeWhile_cons, if_pos digit,
                List.length_cons] at longer
              simp only [power, Exponent.characters, sign, digits, Option.toList_none,
                List.nil_append, List.cons_append, exponentPart, if_pos begins, List.length_cons]
              omega

/-- Either all digits behind the point are the number's own, and the exponent follows them, or there
are more digits, and no exponent. -/
theorem length_point_le {fraction : List Char} (areDigits : ∀ c ∈ fraction, c.isDigit = true)
    (exponent : Option Exponent) (rest : List Char) :
    let cs := point fraction ++ (power exponent ++ rest)
    (point fraction ++ power exponent).length ≤
      (fractionPart cs ++ exponentPart (cs.drop (fractionPart cs).length)).length := by
  intro cs
  rw [List.length_append, List.length_append]
  cases fraction with
  | nil =>
      cases exponent with
      | none => exact Nat.zero_le _
      | some exponent =>
          have noPoint : fractionPart cs = [] := by
            have begins : cs = exponent.mark ::
                (exponent.sign.toList ++ exponent.digits ++ rest) := rfl
            rw [begins, fractionPart_cons, if_neg]
            rintro ⟨isPoint, -⟩
            rcases exponent.isMark with mark | mark <;> rw [mark] at isPoint <;> cases isPoint
          rw [noPoint, List.length_nil, List.drop_zero]
          exact Nat.add_le_add_left (length_power_le (some exponent) rest) 0
  | cons d ds =>
      have digit : d.isDigit = true := areDigits d List.mem_cons_self
      have taken : fractionPart cs =
          '.' :: (d :: ds ++ (power exponent ++ rest)).takeWhile Char.isDigit := by
        simp [cs, point, fractionPart, digit]
      rcases takeWhile_cases areDigits (power exponent ++ rest) with all | ⟨more, goesOn⟩
      · have isFraction : fractionPart cs = point (d :: ds) := by rw [taken, all]; rfl
        have behind := length_power_le exponent rest
        rw [isFraction, List.drop_left]
        omega
      · have nothing : point [] = [] ∧ power exponent = [] := eq_nil_of_isDigit goesOn
        have ownPoint : (point (d :: ds)).length = (d :: ds).length + 1 := rfl
        rw [taken, nothing.2, List.length_cons, List.length_nil, ownPoint]
        rw [nothing.2] at more
        omega

/-- Whatever is behind a number, the scanner takes at least the number. -/
theorem length_le_number (numeral : Numeral) (rest : List Char) :
    numeral.characters.length ≤ (number (numeral.characters ++ rest)).text.length := by
  have source : numeral.characters ++ rest =
      numeral.whole ++ (point numeral.fraction ++ (power numeral.exponent ++ rest)) := by
    simp [Numeral.characters]
  rw [source, Numeral.characters, number]
  dsimp only
  rcases takeWhile_cases numeral.isWhole (point numeral.fraction ++ (power numeral.exponent ++ rest))
    with all | ⟨more, goesOn⟩
  · have behind := length_point_le numeral.isFraction numeral.exponent rest
    rw [dropWhile_of_takeWhile all, all]
    simp only [List.length_append] at behind ⊢
    omega
  · obtain ⟨noPoint, noPower⟩ := eq_nil_of_isDigit goesOn
    rw [noPoint, noPower] at more ⊢
    simp only [List.length_append, List.length_nil] at more ⊢
    omega

end Lexeme

/-! ### Tokens -/

/-- A number, or what is begun as one. -/
def TokenKind.isNumeric : TokenKind → Bool
  | .integer _ | .decimal _ => true
  | .error complaint => complaint == "Invalid number: invalid float literal"
  | _ => false

theorem TokenKind.isNumeric_of_sort {kind : TokenKind} (isNumber : kind.sort = .number) :
    kind.isNumeric = true := by
  cases kind <;> first | rfl | cases isNumber

namespace Lexeme

/-- No other complaint is the one about numbers: they differ in their first letters. -/
theorem isNumeric_unexpected (c : Char) :
    (TokenKind.error s!"Unexpected character: {c}").isNumeric = false := by
  rw [TokenKind.isNumeric, beq_eq_false_iff_ne]
  intro same
  have first := congrArg (fun complaint => complaint.toList[0]?) same
  simp [toString] at first

/-- A number begins with a digit. -/
theorem isDigit_of_isNumeric {c : Char} {cs : List Char}
    (isNumeric : (scan c cs).kind.isNumeric = true) : c.isDigit = true := by
  cases kind : (scan c cs).kind with
  | integer value | decimal text =>
      have scanned : Scanned c cs .number (scan c cs) :=
        scanned_of_sort (congrArg TokenKind.sort kind) nofun
      generalize scan c cs = lexeme at scanned
      cases scanned with
      | number digit => exact digit
  | error message =>
      rw [kind] at isNumeric
      rcases error_cases kind with ⟨listed, _⟩ | rfl | ⟨_, digit⟩ | rfl
      · simp only [List.mem_cons, List.not_mem_nil, or_false] at listed
        rcases listed with rfl | rfl | rfl <;> exact absurd isNumeric (by decide +kernel)
      · exact absurd isNumeric (by decide +kernel)
      · exact digit
      · rw [isNumeric_unexpected] at isNumeric
        cases isNumeric
  | _ =>
      rw [kind] at isNumeric
      cases isNumeric

/-- Exactly the tokens that begin with a digit are numbers. -/
theorem isNumeric_scan (c : Char) (cs : List Char) : (scan c cs).kind.isNumeric = c.isDigit := by
  cases digit : c.isDigit with
  | true =>
      rw [scan_digit digit]
      rcases number_cases (c :: cs) with isNumber | invalid
      · exact TokenKind.isNumeric_of_sort isNumber
      · rw [invalid]
        decide +kernel
  | false =>
      refine Bool.eq_false_iff.2 fun isNumeric => ?_
      rw [isDigit_of_isNumeric isNumeric] at digit
      cases digit

end Lexeme

namespace Token

variable {source : String} {token : Token}

/-- The text of the token begins with a digit. -/
def beginsWithDigit (token : Token) : Bool :=
  token.text.toList.head?.any Char.isDigit

theorem beginsWithDigit_ofLexeme (offset : Nat) (c : Char) (cs : List Char) :
    (ofLexeme offset (Lexeme.scan c cs)).beginsWithDigit = c.isDigit := by
  obtain ⟨text, taken, _⟩ := Lexeme.exists_text_eq c cs
  rw [beginsWithDigit, ofLexeme, String.toList_ofList, taken, List.head?_cons, Option.any_some]

theorem isNumeric_kind (member : token ∈ (TokenStream.ofString source).tokens) :
    token.kind.isNumeric = token.beginsWithDigit := by
  obtain ⟨start, c, cs, rfl⟩ := exists_scan_of_mem (List.mem_of_mem_filter member)
  rw [beginsWithDigit_ofLexeme]
  exact Lexeme.isNumeric_scan c cs

/-- A token that begins with a digit is the longest number that is written where it begins. -/
theorem exists_longest (member : token ∈ (TokenStream.ofString source).tokens)
    (begins : token.beginsWithDigit = true) :
    ∃ (numeral : Numeral) (before behind : String),
      source = before ++ numeral.text ++ behind ∧ token.span.start = before.utf8ByteSize ∧
        token.text = numeral.text ∧ token.kind = numeral.kind ∧
        ∀ other : Numeral, other.characters <+: numeral.characters ++ behind.toList →
          other.characters.length ≤ numeral.characters.length := by
  obtain ⟨before, c, cs, parts, rfl⟩ := exists_split_of_mem (List.mem_of_mem_filter member)
  rw [beginsWithDigit_ofLexeme] at begins
  obtain ⟨numeral, text, kind⟩ := Lexeme.exists_numeral begins cs
  obtain ⟨_, kept⟩ := Lexeme.scan_cuts c cs
  have scanned := Lexeme.scan_digit begins cs
  rw [scanned, text] at kept
  refine ⟨numeral, String.ofList before, String.ofList (Lexeme.scan c cs).rest, ?_, ?_, ?_, ?_, ?_⟩
  · rw [Numeral.text, ← String.ofList_append, ← String.ofList_append, List.append_assoc, scanned,
      kept, ← parts, String.ofList_toList]
  · rw [ofLexeme, Nat.zero_add, byteLength_eq]
  · rw [ofLexeme, scanned, text, Numeral.text]
  · rw [ofLexeme, scanned, kind]
  · rintro other ⟨rest, split⟩
    have longest := Lexeme.length_le_number other rest
    rw [String.toList_ofList, scanned, kept] at split
    rw [split, text] at longest
    exact longest

example : (TokenStream.ofString "007 9223372036854775808 1.5e+ 1e").tokens.map Token.kind =
    [.integer 7, .decimal "9223372036854775808", .error "Invalid number: invalid float literal",
      .integer 1, .identifier "e"] := by
  decide +kernel

/-- An integer is the number that its digits denote, and has at most 63 bits. -/
theorem integer_eq {value : Int} (member : token ∈ (TokenStream.ofString source).tokens)
    (isInteger : token.kind = .integer value) :
    (∀ c ∈ token.text.toList, c.isDigit = true) ∧
      value = Numeral.denoted token.text.toList ∧ value ≤ 2 ^ 63 - 1 := by
  have begins : token.beginsWithDigit = true := by
    rw [← isNumeric_kind member, isInteger]
    rfl
  obtain ⟨numeral, _, _, _, _, text, kind, _⟩ := exists_longest member begins
  rw [isInteger, Numeral.kind] at kind
  split at kind
  · next isWhole =>
      split at kind
      · next fits =>
          obtain ⟨noFraction, noExponent⟩ : numeral.fraction = [] ∧ numeral.exponent = none := by
            simpa [Numeral.isWholeNumber] using isWhole
          have characters : token.text.toList = numeral.whole := by
            rw [text, Numeral.text, String.toList_ofList, Numeral.characters, noFraction, noExponent]
            exact List.append_nil _
          have denotes : value = numeral.value := TokenKind.integer.inj kind
          rw [characters, denotes]
          exact ⟨numeral.isWhole, rfl, by omega⟩
      · cases kind
  · split at kind <;> cases kind

end Token

/-- Every integer among the words of a source is a natural number of at most 63 bits. -/
theorem Words.integer_bounds {source : String} {word : Word} {value : Int}
    (member : word ∈ (TokenStream.ofString source).words) (isInteger : word.kind = .integer value) :
    0 ≤ value ∧ value ≤ 2 ^ 63 - 1 := by
  obtain ⟨token, isToken, same⟩ := exists_token_of_mem member
  have kind : token.kind = .integer value := (Prod.mk.inj same).1.trans isInteger
  obtain ⟨_, denotes, fits⟩ := Token.integer_eq isToken kind
  exact ⟨denotes ▸ Int.natCast_nonneg _, fits⟩

/-- In this range a signed word of 64 bits is negated without overflow. -/
theorem toInt_neg_ofInt {value : Int} (natural : 0 ≤ value) (fits : value ≤ 2 ^ 63 - 1) :
    (Int64.ofInt value).toInt = value ∧ (-Int64.ofInt value).toInt = -value := by
  have exact : (Int64.ofInt value).toInt = value := by
    exact Int64.toInt_ofInt_of_le (by omega) (by omega)
  refine ⟨exact, ?_⟩
  rw [Int64.toInt_neg, exact]
  exact Int.bmod_eq_of_le (by omega) (by omega)

end SelectTree
