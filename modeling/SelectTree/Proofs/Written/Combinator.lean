/-
Module: SelectTree.Proofs.Written.Combinator
Purpose: the ways of combining parsers take words that are written as the value says.
Main exports: Parser.Takes, Parser.Spans, Parser.Exhausts, Parser.Reads

A rule is followed from its first part to its last.  What has been taken on the way is a language
that grows on the right, and at the end it must be one of the ways to write the value.
-/
import SelectTree.Proofs.Grammar.Balance
import SelectTree.Proofs.Written.Phrase

namespace SelectTree

namespace Written

variable {α : Type}

theorem mem_of_le {language other : Language Word} {words : Words} (below : language ≤ other)
    (member : words ∈ language) : words ∈ other :=
  below member

theorem flagged_le_maybe (language : Language Word) (flag : Bool) :
    flagged language flag ≤ maybe language := by
  cases flag with
  | true => exact le_sup_right
  | false => exact le_sup_left

theorem mem_one {isMember : Word → Prop} {word : Word} (member : isMember word) :
    [word] ∈ one isMember :=
  ⟨word, member, rfl⟩

theorem mem_bracket {words : Words} {opening closing : Word} (opens : opening.kind = .leftParen)
    (closes : closing.kind = .rightParen) : opening :: words ++ [closing] ∈ bracket {words} := by
  have opened : [opening] ++ words ∈ kind .leftParen * {words} :=
    Language.append_mem_mul (mem_one opens) (Set.mem_singleton words)
  exact Language.append_mem_mul opened (mem_one closes)

/-- What may stand in brackets behind something of the first language. -/
def inside (front whole : Language Word) : Language Word :=
  {words | front * bracket {words} ≤ whole}

/-- A dotted name may be the name of a function. -/
theorem path_le_functionName (parts : List Identifier) : path parts ≤ functionName parts :=
  le_sup_left

theorem path_cons (first : Identifier) (others : List Identifier) :
    path (first :: others) =
      name first * list (kind .dot) (kind .dot) (others.map name) := by
  rw [path, List.map_cons, list, one_mul]

theorem mem_kind {isKind : TokenKind} {word : Word} (found : word.kind = isKind) :
    [word] ∈ kind isKind :=
  mem_one found

theorem bracket_mono {inner other : Language Word} (below : inner ≤ other) :
    bracket inner ≤ bracket other :=
  mul_le_mul' (mul_le_mul' le_rfl below) le_rfl

/-- What may be in the brackets is what makes them a word of the whole. -/
theorem le_inside {front inner whole : Language Word} (below : front * bracket inner ≤ whole) :
    inner ≤ inside front whole := by
  intro words member
  have single : ({words} : Language Word) ≤ inner := Set.singleton_subset_iff.2 member
  exact le_trans (mul_le_mul' le_rfl (bracket_mono single)) below

/-- Something or nothing, as a parser that may give nothing takes it. -/
def optional (written : α → Language Word) : Option α → Language Word
  | none => 1
  | some value => written value

/-- Phrases of a list are written as the list of what is written for each. -/
theorem written_ofList {form : Form} (phrases : List (Phrase form)) (lead separator : Language Word) :
    (Phrases.ofList phrases).written lead separator =
      list lead separator (phrases.map Phrase.written) := by
  induction phrases generalizing lead with
  | nil => rfl
  | cons phrase phrases ih =>
      rw [Phrases.ofList, Phrases.written, List.map_cons, list, ih]

theorem list_mono {items others : List (Language Word)} {lead separator : Language Word}
    (below : List.Forall₂ (· ≤ ·) items others) :
    list lead separator items ≤ list lead separator others := by
  induction below generalizing lead with
  | nil => exact le_rfl
  | cons first _ ih => exact mul_le_mul' (mul_le_mul' le_rfl first) ih

/-- What stands in front of the first item. -/
theorem list_eq_mul {items : List (Language Word)} (some : items ≠ [])
    (lead separator : Language Word) :
    list lead separator items = lead * list 1 separator items := by
  cases items with
  | nil => exact absurd rfl some
  | cons item items => rw [list, list, one_mul, mul_assoc]

/-- Items that bring what stands in front of them. -/
theorem list_one_one (items : List α) (written : α → Language Word) (lead : Language Word) :
    list 1 1 (items.map fun item => lead * written item) = list lead lead (items.map written) := by
  induction items with
  | nil => rfl
  | cons item items ih => rw [List.map_cons, list, ih, one_mul, List.map_cons, list]

theorem mem_list_cons (first : Words) {others : Words} {separator : Language Word}
    {items : List (Language Word)} (behind : others ∈ list separator separator items) :
    first ++ others ∈ list 1 separator ({first} :: items) := by
  rw [list, one_mul]
  exact Language.append_mem_mul (Set.mem_singleton first) behind

/-- Words are their segments with commas between them. -/
theorem mem_list_segmentsFrom (depth : Nat) (words : Words) :
    words ∈ list 1 comma ((Words.segmentsFrom depth words).map ({·})) := by
  induction words generalizing depth with
  | nil => exact mem_list_cons [] Language.nil_mem_one
  | cons word words ih =>
      rw [Words.segmentsFrom]
      split
      · next here =>
          simp only [Bool.and_eq_true, decide_eq_true_eq] at here
          rw [Words.isComma, beq_iff_eq] at here
          have behind := Language.append_mem_mul (mem_one here.2 : [word] ∈ comma) (ih 0)
          rw [← list_eq_mul (by simpa using Words.segmentsFrom_ne_nil 0 words)] at behind
          exact mem_list_cons [] behind
      · have inside := ih (Words.depthBehind depth word.kind)
        split
        · next none => exact absurd none (Words.segmentsFrom_ne_nil _ words)
        · next segment segments more =>
            rw [more, List.map_cons, list, one_mul] at inside
            obtain ⟨front, same, others, member, rfl⟩ := Language.mem_mul.1 inside
            obtain rfl : front = segment := same
            exact mem_list_cons (word :: front) member

/-- Words are their segments with commas between them. -/
theorem mem_list_splitCommas (words : Words) :
    words ∈ list 1 comma ((Words.splitCommas words).map ({·})) := by
  cases words with
  | nil => exact Language.nil_mem_one
  | cons word words => exact mem_list_segmentsFrom 0 (word :: words)

end Written

open Written

namespace Parser

variable {α β : Type} {front : Language Word} {words : Words}

/-- Behind something of the first language, what the parser takes of the words is written as its
value says. -/
def Takes (front : Language Word) (parser : Parser α) (words : Words)
    (written : α → Language Word) : Prop :=
  ∀ (scope : Scope) (value : α) (rest : Words), scope.hooks = {} →
    parser scope words = .ok (value, rest) →
    ∃ used, words = used ++ rest ∧ ∀ before ∈ front, before ++ used ∈ written value

/-- Behind something of the first language, all the words are written as the value says, also those
that the parser leaves. -/
def Spans (front : Language Word) (parser : Parser α) (words : Words)
    (written : α → Language Word) : Prop :=
  ∀ (scope : Scope) (value : α) (rest : Words), scope.hooks = {} →
    parser scope words = .ok (value, rest) → ∀ before ∈ front, before ++ words ∈ written value

/-- The parser takes all the words, which are written as its value says. -/
def Exhausts (parser : Parser α) (words : Words) (written : α → Language Word) : Prop :=
  ∀ (scope : Scope) (value : α) (rest : Words), scope.hooks = {} →
    parser scope words = .ok (value, rest) → rest = [] ∧ words ∈ written value

/-- The parser takes nothing, and its value is right for the words. -/
def Learns (parser : Parser α) (words : Words) (isRight : α → Prop) : Prop :=
  ∀ (scope : Scope) (value : α) (rest : Words), scope.hooks = {} →
    parser scope words = .ok (value, rest) → rest = words ∧ isRight value

/-- Whatever the words are, what the parser takes of them is written as its value says. -/
def Reads (parser : Parser α) (written : α → Language Word) : Prop :=
  ∀ words, Takes 1 parser words written

/-! ### Words taken from the front -/

namespace Takes

variable {written : α → Language Word} {whole : β → Language Word}

theorem pure {value : α} (below : front ≤ written value) :
    Takes front (Pure.pure value) words written := by
  rintro scope _ _ - ⟨⟩
  refine ⟨[], rfl, fun before member => ?_⟩
  rw [List.append_nil]
  exact mem_of_le below member

theorem fail (fault : Fault) : Takes front (Parser.fail fault) words written := by
  rintro scope _ _ - ⟨⟩

theorem failAt (word : Word) (cause : Cause) :
    Takes front (Parser.failAt word cause) words written :=
  fail _

/-- What follows a part matters only for the values that the part gives. -/
theorem bindWith {first : Parser α} {next : α → Parser β} (one : Takes 1 first words written)
    (two : ∀ scope value rest, first scope words = .ok (value, rest) →
      Takes (front * written value) (next value) rest whole) :
    Takes front (first >>= next) words whole := by
  intro scope result rest noHooks read
  obtain ⟨value, middle, readFirst, readNext⟩ := bind_ok_iff.1 read
  obtain ⟨used, rfl, member⟩ := one scope value middle noHooks readFirst
  obtain ⟨more, rfl, goesOn⟩ := two scope value middle readFirst scope result rest noHooks readNext
  refine ⟨used ++ more, (List.append_assoc ..).symm, fun before inFront => ?_⟩
  rw [← List.append_assoc]
  exact goesOn _ (Language.append_mem_mul inFront (member [] (Language.nil_mem_one)))

theorem bind {first : Parser α} {next : α → Parser β} (one : Takes 1 first words written)
    (two : ∀ value rest, Takes (front * written value) (next value) rest whole) :
    Takes front (first >>= next) words whole :=
  one.bindWith fun _ value rest _ => two value rest

/-- A part whose value says how everything so far is written, such as the first one. -/
theorem begin {first : Parser α} {next : α → Parser β} (one : Takes front first words written)
    (two : ∀ value rest, Takes (written value) (next value) rest whole) :
    Takes front (first >>= next) words whole := by
  intro scope result rest noHooks read
  obtain ⟨value, middle, readFirst, readNext⟩ := bind_ok_iff.1 read
  obtain ⟨used, rfl, member⟩ := one scope value middle noHooks readFirst
  obtain ⟨more, rfl, goesOn⟩ := two value middle scope result rest noHooks readNext
  refine ⟨used ++ more, (List.append_assoc ..).symm, fun before inFront => ?_⟩
  rw [← List.append_assoc]
  exact goesOn _ (member before inFront)

theorem mono {parser : Parser α} {other : Language Word} (one : Takes front parser words written)
    (below : other ≤ front) : Takes other parser words written := by
  intro scope value rest noHooks read
  obtain ⟨used, rfl, member⟩ := one scope value rest noHooks read
  exact ⟨used, rfl, fun before inFront => member before (mem_of_le below inFront)⟩

/-- What takes at least one word takes the first one. -/
theorem begun {parser : Parser α} (isFirst : TokenKind → Prop)
    (one : Takes 1 parser words written)
    (occupied : ∀ value, written value ≤ Written.begun fun _ => True)
    (first : ∀ word ∈ words.head?, isFirst word.kind) :
    Takes 1 parser words fun value => written value ⊓ Written.begun isFirst := by
  intro scope value rest noHooks read
  obtain ⟨used, rfl, member⟩ := one scope value rest noHooks read
  refine ⟨used, rfl, fun before nothing => ⟨member before nothing, ?_⟩⟩
  rw [(Language.mem_one _).1 nothing]
  obtain ⟨word, more, rfl, -⟩ := occupied value (member [] Language.nil_mem_one)
  exact ⟨word, more, rfl, first word rfl⟩

/-- What follows gets a value that is made of the value. -/
theorem bindMap {first : Parser α} {γ : Type} {convert : α → γ} {next : γ → Parser β}
    (one : Takes 1 first words written)
    (two : ∀ value rest, Takes (front * written value) (next (convert value)) rest whole) :
    Takes front (convert <$> first >>= next) words whole := by
  rw [bind_map_left]
  exact one.bind two

/-- The words are looked at. -/
theorem look {next : Words → Parser β} (two : Takes front (next words) words whole) :
    Takes front (Parser.remaining >>= next) words whole :=
  fun scope value rest noHooks read => two scope value rest noHooks read

/-- The next word is looked at. -/
theorem ahead {next : Option Word → Parser β} (two : Takes front (next words.head?) words whole) :
    Takes front (Parser.peek >>= next) words whole :=
  fun scope value rest noHooks read => two scope value rest noHooks read

/-- It is looked whether the next word is of a kind. -/
theorem checked {kind : TokenKind} {next : Bool → Parser β}
    (two : Takes front (next (words.head?.any (·.kind == kind))) words whole) :
    Takes front (Parser.check kind >>= next) words whole :=
  fun scope value rest noHooks read => two scope value rest noHooks read

/-- It is looked whether the next word is a keyword. -/
theorem checkedKeyword {keyword : Keyword} {next : Bool → Parser β}
    (two : ∀ found, Takes front (next found) words whole) :
    Takes front (Parser.checkKeyword keyword >>= next) words whole :=
  checked (two _)

/-- Words of a language are taken. -/
theorem skip {language : Language Word} {taken rest : Words} (member : taken ∈ language) :
    Takes 1 (Parser.skip taken.length) (taken ++ rest) fun _ => language := by
  rintro scope _ _ - ⟨⟩
  refine ⟨taken, by rw [List.drop_left], fun before nothing => ?_⟩
  rwa [(Language.mem_one _).1 nothing]

/-- A word of a class is taken. -/
theorem word (isMember : Word → Prop) {word : Word} {rest : Words} (member : isMember word) :
    Takes 1 (Parser.skip 1) (word :: rest) fun _ => one isMember :=
  skip (mem_one member)

/-- Two words of a class each are taken. -/
theorem twoWords (isMember isNext : Word → Prop) {word next : Word} {rest : Words}
    (member : isMember word) (nextMember : isNext next) :
    Takes 1 (Parser.skip 2) (word :: next :: rest) fun _ => one isMember * one isNext :=
  skip (Language.append_mem_mul (mem_one member) (mem_one nextMember))

theorem nested {body : Parser α} (one : Takes front body words written) :
    Takes front (Parser.nested body) words written := by
  intro scope value rest noHooks read
  rw [nested_apply] at read
  split at read
  · refine one _ value rest ?_ read
    exact noHooks
  · cases read

theorem committed {body : Parser α} (one : Takes front body words written) :
    Takes front (Parser.committed body) words written := by
  intro scope value rest noHooks read
  rw [committed_apply] at read
  split at read
  · next found =>
      cases read
      exact one scope value rest noHooks found
  · cases read

/-- A reading that is given up has taken nothing. -/
theorem attempt {body : Parser α} (one : Takes 1 body words written) :
    Takes 1 (Parser.attempt body) words (optional written) := by
  intro scope value rest noHooks read
  rw [attempt_apply] at read
  split at read
  · next found =>
      cases read
      exact one scope _ rest noHooks found
  · split at read
    · cases read
      exact ⟨[], rfl, fun before nothing => by rwa [List.append_nil]⟩
    · cases read

theorem hooked {choose : Hooks → Option (Hook α)} (without : choose {} = none) :
    Takes 1 (Parser.hooked choose) words (optional written) := by
  intro scope value rest noHooks read
  rw [hooked_eq_none (by rw [noHooks, without])] at read
  cases read
  exact ⟨[], rfl, fun before nothing => by rwa [List.append_nil]⟩

/-- Behind a refusal nothing follows. -/
theorem refuse (fault : Fault) {next : α → Parser β} :
    Takes front (Parser.fail fault >>= next) words whole := by
  rintro scope _ _ - ⟨⟩

/-- A bracket whose contents, in which every bracket is closed, fit into what the value says. -/
theorem bracketedBalanced {body : Word → Parser α}
    (one : ∀ (opening : Word) (contents : Words), contents.Balanced →
      Spans 1 (body opening) contents fun value => inside front (written value)) :
    Takes front (Parser.bracketed body) words written := by
  intro scope value rest noHooks read
  rw [bracketed_apply] at read
  split at read
  · cases read
  · next group opened =>
      split at read
      · cases read
      · split at read
        · next found contents =>
            cases read
            obtain ⟨opens, balanced, closing, closes, rfl⟩ :=
              Words.exists_of_group? (group?_of_openGroup opened)
            refine ⟨group.opening :: group.contents ++ [closing], by simp, fun before inFront => ?_⟩
            have fits : group.contents ∈ inside front (written value) := by
              refine one _ group.contents balanced _ value _ ?_ contents [] Language.nil_mem_one
              exact noHooks
            exact mem_of_le fits (Language.append_mem_mul inFront (mem_bracket opens closes))
        · cases read

theorem bracketed {body : Word → Parser α}
    (one : ∀ opening contents,
      Spans 1 (body opening) contents fun value => inside front (written value)) :
    Takes front (Parser.bracketed body) words written :=
  bracketedBalanced fun opening contents _ => one opening contents

end Takes

/-! ### All words of a bracket or a segment -/

namespace Spans

variable {written : α → Language Word} {whole : β → Language Word}

theorem fail (fault : Fault) : Spans front (Parser.fail fault) words written := by
  rintro scope _ _ - ⟨⟩

theorem failAt (word : Word) (cause : Cause) :
    Spans front (Parser.failAt word cause) words written :=
  fail _

/-- Behind a refusal nothing follows. -/
theorem refuse (fault : Fault) {next : α → Parser β} :
    Spans front (Parser.fail fault >>= next) words whole := by
  rintro scope _ _ - ⟨⟩

/-- No words are left. -/
theorem ended {value : α} (below : front ≤ written value) :
    Spans front (Pure.pure value) [] written := by
  rintro scope _ _ - ⟨⟩ before member
  rw [List.append_nil]
  exact mem_of_le below member

/-- The words are known. -/
theorem known {value : α} (below : words ∈ written value) :
    Spans 1 (Pure.pure value) words written := by
  rintro scope _ _ - ⟨⟩ before nothing
  rwa [(Language.mem_one _).1 nothing]

theorem bind {first : Parser α} {next : α → Parser β} (one : Takes 1 first words written)
    (two : ∀ value rest, Spans (front * written value) (next value) rest whole) :
    Spans front (first >>= next) words whole := by
  intro scope result rest noHooks read before inFront
  obtain ⟨value, middle, readFirst, readNext⟩ := bind_ok_iff.1 read
  obtain ⟨used, rfl, member⟩ := one scope value middle noHooks readFirst
  rw [← List.append_assoc]
  apply two value middle scope result rest noHooks readNext
  exact Language.append_mem_mul inFront (member [] Language.nil_mem_one)

/-- Words of a language are taken. -/
theorem skip {language : Language Word} {taken rest : Words} {count : Nat} {next : Unit → Parser β}
    (member : taken ∈ language) (split : words = taken ++ rest) (length : taken.length = count)
    (two : ∀ rest, Spans (front * language) (next ()) rest whole) :
    Spans front (Parser.skip count >>= next) words whole := by
  subst split length
  exact bind (Takes.skip member) fun _ rest => two rest

theorem begin {first : Parser α} {next : α → Parser β} (one : Takes 1 first words written)
    (two : ∀ value rest, Spans (written value) (next value) rest whole) :
    Spans 1 (first >>= next) words whole :=
  bind one fun value rest => by
    rw [one_mul]
    exact two value rest

theorem look {next : Words → Parser β} (two : Spans front (next words) words whole) :
    Spans front (Parser.remaining >>= next) words whole :=
  fun scope value rest noHooks read => two scope value rest noHooks read

/-- It is looked whether a statement starts. -/
theorem startsStatement {next : Bool → Parser β}
    (two : ∀ starts, Spans front (next starts) words whole) :
    Spans front (Parser.startsStatement >>= next) words whole := by
  intro scope value rest noHooks read
  obtain ⟨starts, left, checked, readNext⟩ := bind_ok_iff.1 read
  obtain rfl := rest_of_startsStatement checked
  exact two starts scope value rest noHooks readNext

/-- The last part of a bracket. -/
theorem last {parser : Parser α} {whole : α → Language Word} (one : Spans 1 parser words written)
    (below : ∀ value, front * written value ≤ whole value) : Spans front parser words whole := by
  intro scope value rest noHooks read before inFront
  have member := one scope value rest noHooks read [] Language.nil_mem_one
  exact mem_of_le (below value) (Language.append_mem_mul inFront member)

theorem committed {body : Parser α} (one : Spans front body words written) :
    Spans front (Parser.committed body) words written := by
  intro scope value rest noHooks read
  rw [committed_apply] at read
  split at read
  · next found =>
      cases read
      exact one scope value rest noHooks found
  · cases read

/-- Nothing may be left. -/
theorem expectEnd {next : Unit → Parser β} (two : Spans front (next ()) [] whole) :
    Spans front (Parser.expectEnd >>= next) words whole := by
  cases words with
  | nil => exact fun scope value rest noHooks read => two scope value rest noHooks read
  | cons word words => rintro scope value rest - ⟨⟩

end Spans

namespace Exhausts

variable {written : α → Language Word} {whole : β → Language Word}

theorem wholly {body : Parser α} (one : Takes 1 body words written) :
    Exhausts (Parser.wholly body) words written := by
  intro scope value rest noHooks read
  obtain ⟨readBody, rfl⟩ := wholly_ok_iff.1 read
  obtain ⟨used, rfl, member⟩ := one scope value [] noHooks readBody
  have inside := member [] Language.nil_mem_one
  exact ⟨rfl, by simpa using inside⟩

theorem spans {parser : Parser α} (one : Exhausts parser words written) :
    Spans 1 parser words written := by
  intro scope value rest noHooks read before nothing
  rw [(Language.mem_one _).1 nothing]
  exact (one scope value rest noHooks read).2

/-- Nothing is left for what follows. -/
theorem bind {first : Parser α} {next : α → Parser β} (one : Exhausts first words written)
    (two : ∀ value, Spans (front * written value) (next value) [] whole) :
    Spans front (first >>= next) words whole := by
  intro scope result rest noHooks read before inFront
  obtain ⟨value, middle, readFirst, readNext⟩ := bind_ok_iff.1 read
  obtain ⟨rfl, member⟩ := one scope value middle noHooks readFirst
  have inside := two value scope result rest noHooks readNext _
    (Language.append_mem_mul inFront member)
  rwa [List.append_nil] at inside

theorem begin {first : Parser α} {next : α → Parser β} (one : Exhausts first words written)
    (two : ∀ value, Spans (written value) (next value) [] whole) :
    Spans 1 (first >>= next) words whole :=
  one.bind fun value => by
    rw [one_mul]
    exact two value

end Exhausts

namespace Learns

variable {isRight : α → Prop} {whole : β → Language Word}

theorem pure {value : α} (right : isRight value) : Learns (Pure.pure value) words isRight := by
  rintro scope _ _ - ⟨⟩
  exact ⟨rfl, right⟩

theorem fail (fault : Fault) : Learns (Parser.fail fault) words isRight := by
  rintro scope _ _ - ⟨⟩

theorem failAt (word : Word) (cause : Cause) : Learns (Parser.failAt word cause) words isRight :=
  fail _

theorem bind {first : Parser α} {next : α → Parser β} (one : Learns first words isRight)
    (two : ∀ value, isRight value → Spans front (next value) words whole) :
    Spans front (first >>= next) words whole := by
  intro scope result rest noHooks read
  obtain ⟨value, left, readFirst, readNext⟩ := bind_ok_iff.1 read
  obtain ⟨rfl, right⟩ := one scope value left noHooks readFirst
  exact two value right scope result rest noHooks readNext

theorem seq {first : Parser α} {next : α → Parser β} {isGood : β → Prop}
    (one : Learns first words isRight)
    (two : ∀ value, isRight value → Learns (next value) words isGood) :
    Learns (first >>= next) words isGood := by
  intro scope result rest noHooks read
  obtain ⟨value, left, readFirst, readNext⟩ := bind_ok_iff.1 read
  obtain ⟨rfl, right⟩ := one scope value left noHooks readFirst
  exact two value right scope result rest noHooks readNext

/-- Other words are read in between. -/
theorem within {body : Parser α} {range : Words} {written : α → Language Word}
    (one : Spans 1 body range written) :
    Learns (Parser.within range body) words fun value => range ∈ written value := by
  intro scope value rest noHooks read
  obtain ⟨rfl, left, readBody⟩ := within_ok_iff.1 read
  exact ⟨rfl, one scope value left noHooks readBody [] Language.nil_mem_one⟩

end Learns

/-! ### Single words and names -/

theorem reads_eat (isKind : TokenKind) : Reads (eat isKind) (flagged (kind isKind)) := by
  intro words
  apply Takes.checked
  cases words with
  | nil => exact .pure le_rfl
  | cons word rest =>
      by_cases found : word.kind = isKind
      · have isFound : (word.kind == isKind) = true := by simpa using found
        simp only [List.head?_cons, Option.any_some, isFound, if_true]
        exact (Takes.word (·.kind = isKind) found).begin fun _ _ => .pure le_rfl
      · have other : (word.kind == isKind) = false := by simpa using found
        simp only [List.head?_cons, Option.any_some, other]
        exact .pure le_rfl

theorem reads_eatKeyword (isKeyword : Keyword) :
    Reads (eatKeyword isKeyword) (flagged (keyword isKeyword)) :=
  reads_eat _

theorem reads_expect (isKind : TokenKind) (what : String) :
    Reads (expect isKind what) fun _ => kind isKind := by
  intro words
  apply Takes.ahead
  cases words with
  | nil => exact .look (.fail _)
  | cons word rest =>
      by_cases found : word.kind = isKind
      · simp only [List.head?_cons, if_pos found]
        exact (Takes.word (·.kind = isKind) found).begin fun _ _ => .pure le_rfl
      · simp only [List.head?_cons, if_neg found]
        exact .look (.fail _)

theorem reads_expectKeyword (isKeyword : Keyword) :
    Reads (expectKeyword isKeyword) fun _ => keyword isKeyword :=
  reads_expect _ _

theorem Takes.failHere {written : α → Language Word} (what : String) :
    Takes front (failHere what) words written :=
  .look (.fail _)

theorem reads_identifier (what : String) : Reads (identifier what) name := by
  intro words
  apply Takes.ahead
  cases words with
  | nil => exact .failHere what
  | cons word rest =>
      simp only [List.head?_cons, Option.bind_some]
      cases named : word.identifier? with
      | none => exact .failHere what
      | some found =>
          exact (Takes.word (·.identifier? = some found) named).begin fun _ _ => .pure le_rfl

theorem Takes.refuseHere (what : String) {next : α → Parser β} {whole : β → Language Word} :
    Takes front (Parser.failHere what >>= next) words whole := by
  rintro scope _ _ - ⟨⟩

/-- An alias that may be missing. -/
theorem reads_aliasName (allowString : Bool) :
    Reads (Parser.aliasName allowString) (aliased allowString) := by
  have plainName (words : Words) : Takes (keyword .AS) (do
      return some (← identifier "an alias after AS")) words (aliased allowString) := by
    apply (reads_identifier _ words).bind
    intro found rest
    exact .pure (le_sup_of_le_left le_sup_left)
  intro words
  apply (reads_eatKeyword .AS words).begin
  intro found rest
  cases found with
  | true =>
      apply Takes.ahead
      cases allowString with
      | false => exact plainName rest
      | true =>
          cases rest with
          | nil => exact plainName []
          | cons word rest =>
              simp only [if_true, List.head?_cons, Option.bind_some]
              cases named : stringName? word with
              | none => exact plainName _
              | some found =>
                  apply (Takes.word (stringName? · = some found) named).bind
                  intro _ rest
                  exact .pure le_sup_right
  | false =>
      apply Takes.ahead
      cases rest with
      | nil => exact .pure le_rfl
      | cons word rest =>
          simp only [List.head?_cons, Option.bind_some]
          cases named : bareAlias? word with
          | none => exact .pure le_rfl
          | some found =>
              apply (Takes.word (bareAlias? · = some found) named).begin
              intro _ rest
              exact .pure (le_sup_of_le_left le_sup_right)

/-! ### Lists -/

theorem reads_manyUpTo {item : Parser (Option α)} {written : α → Language Word}
    (reads : Reads item (optional written)) (count : Nat) :
    Reads (manyUpTo item count) fun values => list 1 1 (values.map written) := by
  induction count with
  | zero => exact fun words => .pure le_rfl
  | succ count ih =>
      intro words
      apply (reads words).begin
      intro found rest
      cases found with
      | none => exact .pure le_rfl
      | some first =>
          apply (ih rest).bind
          intro others rest
          apply Takes.pure
          rw [List.map_cons, list, one_mul]
          exact le_rfl

theorem reads_many {item : Parser (Option α)} {written : α → Language Word}
    (reads : Reads item (optional written)) :
    Reads (many item) fun values => list 1 1 (values.map written) :=
  fun words => .look (reads_manyUpTo reads words.length words)

theorem reads_commaList {item : Parser α} {written : α → Language Word} (reads : Reads item written) :
    Reads (commaList item) fun values =>
      written values.1 * list comma comma (values.2.map written) := by
  have another : Reads (do
      if ← eat .comma then return some (← item)
      return none) (optional fun value => comma * written value) := by
    intro words
    apply (reads_eat .comma words).begin
    intro found rest
    cases found with
    | false => exact .pure le_rfl
    | true => exact (reads rest).bind fun value rest => .pure le_rfl
  intro words
  apply (reads words).begin
  intro first rest
  apply (reads_many another rest).bind
  intro others rest
  exact .pure (le_of_eq (by rw [list_one_one]))

theorem forall₂_of_mapM_within {item : Parser α} {written : α → Language Word}
    (reads : Reads item written) {scope : Scope} (noHooks : scope.hooks = {}) {segments : List Words}
    {values : List α} {rest : Words}
    (read : (segments.mapM fun segment => within segment (wholly item)) scope words =
      .ok (values, rest)) :
    List.Forall₂ (· ≤ ·) (segments.map ({·} : Words → Language Word)) (values.map written) := by
  induction segments generalizing values rest with
  | nil =>
      cases read
      exact .nil
  | cons segment segments ih =>
      rw [List.mapM_cons] at read
      obtain ⟨first, left, readFirst, readOthers⟩ := bind_ok_iff.1 read
      obtain ⟨others, behind, readOthers, ⟨⟩⟩ := bind_ok_iff.1 readOthers
      obtain ⟨rfl, left, readFirst⟩ := within_ok_iff.1 readFirst
      have member := ((Exhausts.wholly (reads segment)) scope first left noHooks readFirst).2
      refine .cons ?_ (ih readOthers)
      rintro _ rfl
      exact member

/-- Reading all segments takes all words. -/
theorem exhausts_segments {item : Parser α} {written : α → Language Word} (reads : Reads item written)
    (words : Words) :
    Exhausts (segments item) words fun values => list 1 comma (values.map written) := by
  intro scope values rest noHooks read
  obtain ⟨rfl, -⟩ := segments_ok read
  refine ⟨rfl, ?_⟩
  obtain ⟨_, _, ⟨⟩, read⟩ := bind_ok_iff.1 read
  obtain ⟨found, left, readAll, read⟩ := bind_ok_iff.1 read
  obtain ⟨_, behind, _, same⟩ := bind_ok_iff.1 read
  obtain ⟨rfl, -⟩ := Prod.mk.inj (Except.ok.inj same)
  exact mem_of_le (list_mono (forall₂_of_mapM_within reads noHooks readAll))
    (mem_list_splitCommas words)

end Parser

end SelectTree
