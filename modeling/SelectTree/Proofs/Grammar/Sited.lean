/-
Module: SelectTree.Proofs.Grammar.Sited
Purpose: parsers that complain only about words of the source, only about open brackets that the
  source never closes, and only about negative counts of rows.
Main exports: Fault.Sited, Parser.Sited

A parser sees a part of the source.  It passes words of that part on, to point at them later, and it
passes parts of it on, to have them read by others.
-/
import SelectTree.Proofs.Grammar.Orderly
import SelectTree.Proofs.Grammar.Site
import SelectTree.Proofs.Words.Part

namespace SelectTree

/-- The cause may be given for any word. -/
def Cause.isPlain : Cause → Bool
  | .unmatchedBracket | .negativeOffset => false
  | _ => true

/-- The word that the fault is about is a word of the source.  If the fault is that a bracket is not
closed, then it is about such a bracket of the source, and if it is that a count of rows is
negative, then it is about a negative number. -/
structure Fault.Sited (source : Words) (fault : Fault) : Prop where
  place : ∀ word, fault.place = some word → word ∈ source
  unclosed : fault.cause = .unmatchedBracket →
    ∃ opening, fault.place = some opening ∧ source.Unclosed opening
  negative : fault.cause = .negativeOffset →
    ∃ word count, fault.place = some word ∧ word.kind = .integer count ∧ count < 0

namespace Fault.Sited

variable {source words : Words} {word : Word} {fault : Fault}

/-- A fault with a plain cause. -/
theorem of_isPlain (member : ∀ word, fault.place = some word → word ∈ source)
    (plain : fault.cause.isPlain = true) : fault.Sited source where
  place := member
  unclosed := by
    intro unmatched
    rw [unmatched] at plain
    cases plain
  negative := by
    intro negative
    rw [negative] at plain
    cases plain

/-- A fault about a word of the source is placed there. -/
theorem about (member : word ∈ source) {cause : Cause} (plain : cause.isPlain = true) :
    (Fault.about word cause).Sited source := by
  refine of_isPlain ?_ plain
  rintro _ ⟨⟩
  exact member

/-- A fault about the next word. -/
theorem ahead (part : words.PartOf source) {kind : ErrorKind} {cause : Cause}
    (plain : cause.isPlain = true) :
    Fault.Sited source { kind, cause, place := words.head? } :=
  of_isPlain (fun word next => part.mem word (List.mem_of_mem_head? next)) plain

/-- What is missing is missed at the next word, or at the end. -/
theorem expected (part : words.PartOf source) (kind : ErrorKind) (what : String) :
    (Fault.expected kind what words).Sited source :=
  ahead part rfl

theorem committed (sited : fault.Sited source) : fault.committed.Sited source := by
  unfold Fault.committed
  split
  · exact ⟨sited.place, sited.unclosed, sited.negative⟩
  · exact sited

end Fault.Sited

namespace Parser

variable {α β : Type} {source : Words}

/-- Without hooks, on a part of the source, the parser goes forward or complains about a word of the
source. -/
def Sited (source : Words) (parser : Parser α) : Prop :=
  ∀ (scope : Scope) (words : Words), scope.hooks = {} → words.PartOf source →
    match parser scope words with
    | .ok (_, rest) => rest <:+ words
    | .error fault => fault.Sited source

namespace Sited

variable {parser first body : Parser α} {next : α → Parser β}

theorem of_ok (sited : Sited source parser) {scope : Scope} {words rest : Words} {value : α}
    (hookless : scope.hooks = {}) (part : words.PartOf source)
    (read : parser scope words = .ok (value, rest)) : rest <:+ words := by
  have outcome := sited scope words hookless part
  rw [read] at outcome
  exact outcome

theorem of_error (sited : Sited source parser) {scope : Scope} {words : Words} {fault : Fault}
    (hookless : scope.hooks = {}) (part : words.PartOf source)
    (refused : parser scope words = .error fault) : fault.Sited source := by
  have outcome := sited scope words hookless part
  rw [refused] at outcome
  exact outcome

/-! ### Single words -/

theorem pure (value : α) : Sited source (Pure.pure value) :=
  fun _ words _ _ => List.suffix_refl words

theorem fail {fault : Fault} (sited : fault.Sited source) :
    Sited source (Parser.fail fault : Parser α) :=
  fun _ _ _ _ => sited

theorem failAt {word : Word} {cause : Cause} (member : word ∈ source)
    (plain : cause.isPlain = true) :
    Sited source (Parser.failAt word cause : Parser α) :=
  fail (.about member plain)

theorem failHere (what : String) : Sited source (Parser.failHere what : Parser α) :=
  fun _ _ _ part => .expected part .syntactic what

/-- What follows a part matters only for the values that the part can give. -/
theorem consult (one : Sited source first)
    (two : ∀ scope words value rest, words.PartOf source →
      first scope words = .ok (value, rest) → Sited source (next value)) :
    Sited source (first >>= next) := by
  intro scope words hookless part
  rw [bind_apply]
  rcases read : first scope words with fault | ⟨value, middle⟩
  · exact one.of_error hookless part read
  · have passed := one.of_ok hookless part read
    have goesOn := two scope words value middle part read scope middle hookless
      ((Words.PartOf.of_suffix passed).trans part)
    simp only
    rcases last : next value scope middle with fault | ⟨result, rest⟩ <;> rw [last] at goesOn
    · exact goesOn
    · exact goesOn.trans passed

/-- Parsers complain one behind the other, the second one about what the first one leaves. -/
theorem bind (one : Sited source first) (two : ∀ value, Sited source (next value)) :
    Sited source (first >>= next) :=
  consult one fun _ _ value _ _ _ => two value

/-- The words are looked at. -/
theorem look {next : Words → Parser β}
    (goesOn : ∀ words : Words, words.PartOf source → Sited source (next words)) :
    Sited source (Parser.remaining >>= next) :=
  fun scope words hookless part => goesOn words part scope words hookless part

/-- The next word is looked at. -/
theorem ahead {next : Option Word → Parser β} (absent : Sited source (next none))
    (present : ∀ word, word ∈ source → Sited source (next (some word))) :
    Sited source (Parser.peek >>= next) := by
  intro scope words hookless part
  cases words with
  | nil => exact absent scope [] hookless part
  | cons word rest =>
      exact present word (part.mem word List.mem_cons_self) scope (word :: rest) hookless part

theorem peek : Sited source Parser.peek :=
  fun _ words _ _ => List.suffix_refl words

theorem check (kind : TokenKind) : Sited source (Parser.check kind) :=
  fun _ words _ _ => List.suffix_refl words

theorem skip (count : Nat) : Sited source (Parser.skip count) :=
  fun _ words _ _ => List.drop_suffix count words

theorem eat (kind : TokenKind) : Sited source (Parser.eat kind) := by
  apply bind (check kind)
  intro found
  cases found with
  | true => exact bind (skip 1) fun _ => pure true
  | false => exact pure false

theorem eatKeyword (keyword : Keyword) : Sited source (Parser.eatKeyword keyword) :=
  eat (.keyword keyword)

/-- A keyword by itself says the answer, or the words are read in some other way. -/
theorem eatOr {keyword : Keyword} {value : α} {otherwise : Parser α}
    (sited : Sited source otherwise) :
    Sited source (do if ← Parser.eatKeyword keyword then Pure.pure value else otherwise) := by
  apply bind (eatKeyword keyword)
  intro eaten
  cases eaten with
  | true => exact pure value
  | false => exact sited

theorem expect (kind : TokenKind) (what : String) : Sited source (Parser.expect kind what) := by
  apply ahead (failHere what)
  intro word _
  simp only
  split
  · exact bind (skip 1) fun _ => pure word
  · exact failHere what

/-- The word that is expected is a word of the source. -/
theorem expected {kind : TokenKind} {what : String} {next : Word → Parser β}
    (goesOn : ∀ word, word ∈ source → Sited source (next word)) :
    Sited source (Parser.expect kind what >>= next) := by
  apply consult (expect kind what)
  intro scope words word rest part read
  obtain ⟨rfl, -⟩ := expect_ok read
  exact goesOn word (part.mem word List.mem_cons_self)

theorem expectKeyword (keyword : Keyword) : Sited source (Parser.expectKeyword keyword) :=
  expect (.keyword keyword) keyword.text

theorem expectEnd : Sited source Parser.expectEnd := by
  apply ahead (pure ())
  intro word member
  exact failAt member rfl

theorem startsStatement : Sited source Parser.startsStatement :=
  fun _ words _ _ => List.suffix_refl words

theorem identifier (what : String) : Sited source (Parser.identifier what) := by
  apply ahead (failHere what)
  intro word _
  rw [Option.bind_some]
  split
  · next name _ => exact bind (skip 1) fun _ => pure name
  · exact failHere what

theorem aliasName (allowString : Bool) : Sited source (Parser.aliasName allowString) := by
  apply bind (eatKeyword .AS)
  intro eaten
  cases eaten with
  | true =>
      apply bind peek
      intro next
      split
      · next name _ => exact bind (skip 1) fun _ => pure (some name)
      · exact bind (identifier "an alias after AS") fun name => pure (some name)
  | false =>
      apply bind peek
      intro next
      split
      · next name _ => exact bind (skip 1) fun _ => pure (some name)
      · exact pure none

/-! ### Other words -/

/-- A range of the source has no words that are not of the source. -/
theorem within {range : Words} (part : range.PartOf source) (sited : Sited source body) :
    Sited source (Parser.within range body) := by
  intro scope words hookless _
  rw [within_apply]
  rcases read : body scope range with fault | ⟨value, rest⟩
  · exact sited.of_error hookless part read
  · exact List.suffix_refl words

theorem wholly (sited : Sited source body) : Sited source (Parser.wholly body) := by
  apply bind sited
  intro value
  exact bind expectEnd fun _ => pure value

/-- A bracket that nothing closes is complained about at itself. -/
theorem of_openGroup {words : Words} {fault : Fault} (part : words.PartOf source)
    (refused : openGroup words = .error fault) : fault.Sited source := by
  unfold openGroup at refused
  cases words with
  | nil =>
      cases refused
      exact .expected part .syntactic "'('"
  | cons first rest =>
      have member : first ∈ source := part.mem first List.mem_cons_self
      simp only at refused
      split at refused
      · next opens =>
          split at refused
          · cases refused
          · next unclosed =>
              cases refused
              refine ⟨?_, fun _ => ⟨first, rfl, part.unclosed first ⟨opens, rest, ?_, ?_⟩⟩, nofun⟩
              · rintro _ ⟨⟩
                exact member
              · exact List.suffix_refl _
              · simpa [Words.group?, opens] using unclosed
      · cases refused
        exact .expected part .syntactic "'('"

/-- A nesting that is too deep is complained about at the first word inside. -/
theorem of_enter {room : Nat} {contents : Words} {fault : Fault} (part : contents.PartOf source)
    (refused : enter room contents = .error fault) : fault.Sited source := by
  cases room with
  | zero =>
      cases refused
      exact .ahead part rfl
  | succ room => cases refused

/-- The opening bracket is a word of the source, and the contents are a part of it. -/
theorem bracketed {body : Word → Parser α}
    (sited : ∀ opening, opening ∈ source → Sited source (body opening)) :
    Sited source (Parser.bracketed body) := by
  intro scope words hookless part
  rw [bracketed_apply]
  rcases opened : openGroup words with fault | group
  · exact of_openGroup part opened
  have found := group?_of_openGroup opened
  have contents : group.contents.PartOf source := (Words.PartOf.of_group? found).trans part
  obtain ⟨-, -, closing, -, split⟩ := Words.exists_of_group? found
  simp only
  rcases entered : enter scope.room group.contents with fault | room
  · exact of_enter contents entered
  have member : group.opening ∈ source := part.mem _ (by simp [split])
  have without : ({ scope with room } : Scope).hooks = {} := hookless
  simp only
  rcases read : body group.opening { scope with room } group.contents with fault | ⟨value, rest⟩
  · exact (sited _ member).of_error without contents read
  · exact (Words.shrinks_of_group? found).2.1

/-- Nesting adds one complaint, about the next word. -/
theorem nested (sited : Sited source body) : Sited source (Parser.nested body) := by
  intro scope words hookless part
  rw [nested_apply]
  by_cases fits : scope.nesting + 1 < scope.room
  · simp only [checkNesting, if_pos fits]
    exact sited { scope with nesting := scope.nesting + 1 } words hookless part
  · simp only [checkNesting, if_neg fits]
    exact .ahead part rfl

/-- An attempt complains only where its body does. -/
theorem attempt (sited : Sited source body) : Sited source (Parser.attempt body) := by
  intro scope words hookless part
  rw [attempt_apply]
  rcases read : body scope words with fault | ⟨value, rest⟩
  · by_cases given : fault.kind = .notACondition
    · simp only [if_pos given]
      exact List.suffix_refl words
    · simp only [if_neg given]
      exact sited.of_error hookless part read
  · exact sited.of_ok hookless part read

theorem committed (sited : Sited source body) : Sited source (Parser.committed body) := by
  intro scope words hookless part
  rw [committed_apply]
  rcases read : body scope words with fault | ⟨value, rest⟩
  · exact (sited.of_error hookless part read).committed
  · exact sited.of_ok hookless part read

/-- Without a hook nothing happens. -/
theorem hooked {choose : Hooks → Option (Hook α)} (noHook : choose {} = none) :
    Sited source (Parser.hooked choose) := by
  intro scope words hookless _
  rewrite [hooked_eq_none (by rw [hookless]; exact noHook)]
  exact List.suffix_refl words

/-! ### Lists -/

/-- By induction on the number of items that are looked for at most. -/
theorem manyUpTo {item : Parser (Option α)} (sited : Sited source item) (count : Nat) :
    Sited source (Parser.manyUpTo item count) := by
  induction count with
  | zero => exact pure []
  | succ count ih =>
      apply bind sited
      intro next
      cases next with
      | none => exact pure []
      | some first => exact bind ih fun others => pure (first :: others)

theorem many {item : Parser (Option α)} (sited : Sited source item) :
    Sited source (Parser.many item) :=
  look fun words _ => manyUpTo sited words.length

/-- Each item of a list complains about what its predecessors leave. -/
theorem commaList {item : Parser α} (sited : Sited source item) :
    Sited source (Parser.commaList item) := by
  have next : Sited source (do
      if ← Parser.eat .comma then return some (← item)
      return none) := by
    apply bind (eat .comma)
    intro comma
    cases comma with
    | true => exact bind sited fun next => pure (some next)
    | false => exact pure none
  apply bind sited
  intro first
  exact bind (many next) fun others => pure (first, others)

/-- Segments of the source are read one by one, each as a source of its own. -/
theorem mapM_within {item : Parser α} (sited : Sited source item) {segments : List Words}
    (parts : ∀ segment : Words, segment ∈ segments → segment.PartOf source) :
    Sited source (segments.mapM fun segment => Parser.within segment (Parser.wholly item)) := by
  induction segments with
  | nil => exact pure []
  | cons segment segments ih =>
      rw [List.mapM_cons]
      apply bind (within (parts segment List.mem_cons_self) sited.wholly)
      intro first
      apply bind (ih fun other member => parts other (List.mem_cons_of_mem segment member))
      intro others
      exact pure (first :: others)

/-- Segments of a part are parts. -/
theorem segments {item : Parser α} (sited : Sited source item) :
    Sited source (Parser.segments item) := by
  apply look
  intro words part
  apply bind (mapM_within sited fun segment member =>
    (Words.PartOf.of_splitCommas member).trans part)
  intro found
  exact bind (skip words.length) fun _ => pure found

end Sited

end Parser

end SelectTree
