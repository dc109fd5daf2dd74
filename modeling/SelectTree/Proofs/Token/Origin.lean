/-
Module: SelectTree.Proofs.Token.Origin
Purpose: the ways in which the next token comes about, and the forms of quoting.
Main exports: Quoting, TokenKind.sort, Lexeme.Scanned, Lexeme.exists_scanned,
  Lexeme.scanned_of_sort

How the next token comes about is settled by its first two characters.  What holds of all tokens is
proved by cases on that, and a token of a known sort comes about in one way only.
-/
import SelectTree.Proofs.Token.Lookahead

namespace SelectTree

/-- The forms of quoting. -/
inductive Quoting where
  /-- Written `'...'`. -/
  | single
  /-- Written `N'...'`. -/
  | upperNational
  /-- Written `n'...'`. -/
  | lowerNational
  /-- Written `[...]`. -/
  | brackets
  /-- Written `"..."`. -/
  | double
deriving Repr, Inhabited, DecidableEq

namespace Quoting

/-- The character that a quoted text begins with. -/
def first : Quoting → Char
  | .single => '\''
  | .upperNational => 'N'
  | .lowerNational => 'n'
  | .brackets => '['
  | .double => '"'

/-- What stands between the first character and the contents. -/
def lead : Quoting → List Char
  | .upperNational | .lowerNational => ['\'']
  | .single | .brackets | .double => []

/-- What stands in front of the contents. -/
def opening (quoting : Quoting) : List Char :=
  quoting.first :: quoting.lead

/-- The character behind the contents. -/
def close : Quoting → Char
  | .single | .upperNational | .lowerNational => '\''
  | .brackets => ']'
  | .double => '"'

/-- The kind of a token with these contents. -/
def kind : Quoting → String → TokenKind
  | .single => .string
  | .upperNational | .lowerNational => .nationalString
  | .brackets | .double => .delimitedIdentifier

/-- The complaint about a quoted text that is never closed. -/
def complaint : Quoting → String
  | .single | .upperNational | .lowerNational => "Unterminated string literal"
  | .brackets | .double => "Unterminated delimited identifier"

/-- Reads the quoted text behind its opening. -/
def scan (quoting : Quoting) (cs : List Char) : Lexeme :=
  Lexeme.quoted quoting.opening quoting.close quoting.kind quoting.complaint cs

end Quoting

/-- The sorts of tokens: each comes about in a way of its own, complaints apart. -/
inductive TokenSort where
  | number
  | quoted
  | word
  | «variable»
  | symbol
  | trivia
  | complaint
deriving Repr, Inhabited, DecidableEq

/-- The sort of a token of this kind. -/
def TokenKind.sort : TokenKind → TokenSort
  | .integer _ | .decimal _ => .number
  | .string _ | .nationalString _ | .delimitedIdentifier _ => .quoted
  | .identifier _ | .keyword _ => .word
  | .«variable» _ => .«variable»
  | .plus | .minus | .star | .slash | .percent | .concat => .symbol
  | .eq | .notEq | .lt | .ltEq | .gt | .gtEq => .symbol
  | .leftParen | .rightParen | .leftBrace | .rightBrace => .symbol
  | .comma | .semicolon | .dot => .symbol
  | .whitespace | .comment => .trivia
  | .error _ => .complaint

@[simp] theorem Quoting.sort_kind (quoting : Quoting) (value : String) :
    (quoting.kind value).sort = .quoted := by
  cases quoting <;> rfl

namespace Lexeme

/-! ### The sorts of the kinds -/

theorem sort_of_pairKind {c d : Char} {kind : TokenKind} (found : pairKind? c d = some kind) :
    kind.sort = .symbol := by
  unfold pairKind? at found
  split at found <;> cases found <;> rfl

theorem sort_of_singleKind {c : Char} {kind : TokenKind} (found : singleKind? c = some kind) :
    kind.sort = .symbol := by
  unfold singleKind? at found
  split at found <;> cases found <;> rfl

/-- A run of name characters is a name or a keyword. -/
theorem sort_word (opening cs : List Char) (isMember : Char → Bool) :
    (run opening isMember wordKind cs).kind.sort = .word := by
  unfold run wordKind
  dsimp only
  split <;> rfl

/-- An `@` begins a variable, or there is no name behind it. -/
theorem variable_cases (opening cs : List Char) (isMember : Char → Bool) :
    (run opening isMember variableKind cs).kind.sort = .«variable» ∨
      (run opening isMember variableKind cs).kind = .error "Expected variable name after @" := by
  unfold run variableKind
  dsimp only
  split
  · exact .inr rfl
  · exact .inl rfl

/-- A digit begins a number, or its exponent lacks a digit. -/
theorem number_cases (cs : List Char) :
    (number cs).kind.sort = .number ∨
      (number cs).kind = .error "Invalid number: invalid float literal" := by
  unfold number numberKind
  dsimp only
  split
  · split <;> exact .inl rfl
  · split
    · exact .inl rfl
    · exact .inr rfl

/-- A block comment is closed, or it goes on to the end. -/
theorem blockComment_cases (opening cs : List Char) :
    (blockComment opening cs).kind = .comment ∨
      (blockComment opening cs).kind = .error "Unterminated block comment" ∧
        (blockComment opening cs).rest = [] := by
  unfold blockComment
  split
  · exact .inl rfl
  · exact .inr ⟨rfl, rfl⟩

/-- A quoted text is closed, or it goes on to the end. -/
theorem quoting_cases (quoting : Quoting) (cs : List Char) :
    (∃ value, (quoting.scan cs).kind = quoting.kind value) ∨
      (quoting.scan cs).kind = .error quoting.complaint ∧ (quoting.scan cs).rest = [] := by
  unfold Quoting.scan quoted
  split
  · exact .inl ⟨_, rfl⟩
  · exact .inr ⟨rfl, rfl⟩

/-! ### First characters -/

/-- The characters that operators and punctuation begin with. -/
def symbols : List Char :=
  ['(', ')', '\x7b', '\x7d', ',', ';', '.', '+', '-', '*', '/', '%', '=', '<', '>', '!', '|']

theorem pairKind?_eq_none {c : Char} (other : c ∉ symbols) (d : Char) : pairKind? c d = none := by
  unfold pairKind?
  split <;> first | rfl | exact absurd (by decide) other

theorem singleKind?_eq_none {c : Char} (other : c ∉ symbols) : singleKind? c = none := by
  unfold singleKind?
  split <;> first | rfl | exact absurd (by decide) other

/-- A text that begins neither with white space nor with a symbol is read by its first character. -/
theorem scan_eq_unlisted {c : Char} (notBlank : Character.isBlank c = false) (other : c ∉ symbols)
    (cs : List Char) : scan c cs = unlisted c cs := by
  have notDash : c ≠ '-' := fun same => other (same ▸ by decide)
  have notSlash : c ≠ '/' := fun same => other (same ▸ by decide)
  have noPair : cs.head?.bind (pairKind? c) = none :=
    Option.bind_eq_none_iff.2 fun d _ => pairKind?_eq_none other d
  rw [scan_eq, if_neg (Bool.eq_false_iff.1 notBlank), if_neg fun both => notDash both.1,
    if_neg fun both => notSlash both.1, significant, noPair, singleKind?_eq_none other]

/-- What holds of the characters in some ranges, one by one, holds of every one of them. -/
theorem of_inRanges {ranges : List (Nat × Nat)} (property : Char → Bool)
    (checked : ∀ range ∈ ranges, ∀ place < range.2 + 1 - range.1,
      property (Char.ofNat (range.1 + place)) = true)
    {c : Char} (within : Character.inRanges ranges c.toNat = true) : property c = true := by
  obtain ⟨range, listed, inside⟩ := List.any_eq_true.1 within
  obtain ⟨above, below⟩ : range.1 ≤ c.toNat ∧ c.toNat ≤ range.2 := by simpa using inside
  have holds := checked range listed (c.toNat - range.1) (by omega)
  rwa [Nat.add_sub_cancel' above, Char.ofNat_toNat] at holds

/-- Blanks are in few ranges, so that a class can be checked against all of them. -/
theorem isBlank_eq_false {isMember : Char → Bool}
    (checked : ∀ range ∈ Character.blankRanges, ∀ place < range.2 + 1 - range.1,
      (!isMember (Char.ofNat (range.1 + place))) = true)
    {c : Char} (member : isMember c = true) : Character.isBlank c = false := by
  cases blank : Character.isBlank c with
  | false => rfl
  | true =>
      have outside := of_inRanges (fun c => !isMember c) checked blank
      simp [member] at outside

theorem startsName_eq_false {c : Char} (digit : c.isDigit = true) :
    Character.startsName c = false := by
  have within : Character.inRanges [(48, 57)] c.toNat = true := by
    simpa [Character.inRanges, Char.isDigit, UInt32.le_iff_toNat_le] using digit
  simpa using of_inRanges (fun c => !Character.startsName c) (by decide +kernel) within

/-- Finitely many characters can be checked against a class. -/
theorem not_mem_of_false {isMember : Char → Bool} {others : List Char}
    (checked : (others.any isMember) = false) {c : Char} (member : isMember c = true) :
    c ∉ others :=
  fun listed => List.any_eq_false.1 checked c listed member

/-- A text that begins with a digit begins with a number. -/
theorem scan_digit {c : Char} (digit : c.isDigit = true) (cs : List Char) :
    scan c cs = number (c :: cs) := by
  have notBlank : Character.isBlank c = false := isBlank_eq_false (by decide +kernel) digit
  have notSymbol : c ∉ symbols := not_mem_of_false (by decide) digit
  have notOpening : c ∉ ['\'', 'N', 'n', '[', '"', '@'] := not_mem_of_false (by decide) digit
  simp only [List.mem_cons, List.not_mem_nil, or_false, not_or] at notOpening
  rw [scan_eq_unlisted notBlank notSymbol, unlisted]
  simp [notOpening, digit]

/-- A text that begins like a name, but not with `N'`, begins with a word. -/
theorem scan_startsName {c : Char} (starts : Character.startsName c = true) {cs : List Char}
    (notNational : cs.head? ≠ some '\'') :
    scan c cs = run [c] Character.continuesName wordKind cs := by
  have notBlank : Character.isBlank c = false := isBlank_eq_false (by decide +kernel) starts
  have notSymbol : c ∉ symbols := not_mem_of_false (by decide +kernel) starts
  have notOpening : c ∉ ['\'', '[', '"', '@'] := not_mem_of_false (by decide +kernel) starts
  have notDigit : ¬ c.isDigit = true := by
    intro digit
    rw [startsName_eq_false digit] at starts
    cases starts
  simp only [List.mem_cons, List.not_mem_nil, or_false, not_or] at notOpening
  rw [scan_eq_unlisted notBlank notSymbol, unlisted]
  simp [notOpening, notNational, notDigit, starts]

/-! ### Ways in which a token comes about -/

/-- How the lexeme at the front of the text `c :: cs` comes about, for each sort of tokens.  A
complaint comes about as what was begun. -/
inductive Scanned (c : Char) (cs : List Char) : TokenSort → Lexeme → Prop where
  | blank : Character.isBlank c = true →
      Scanned c cs .trivia (run [c] Character.isBlank (fun _ => .whitespace) cs)
  | lineComment : c = '-' → cs.head? = some '-' →
      Scanned c cs .trivia (run [c] (· != '\n') (fun _ => .comment) cs)
  | blockComment : c = '/' → cs.head? = some '*' →
      Scanned c cs .trivia (blockComment [c, '*'] cs.tail)
  | pair {d : Char} {kind : TokenKind} : cs.head? = some d → pairKind? c d = some kind →
      Scanned c cs .symbol { kind, text := c :: cs.take 1, rest := cs.drop 1 }
  | single {kind : TokenKind} : singleKind? c = some kind →
      Scanned c cs .symbol { kind, text := [c], rest := cs }
  | quoted (quoting : Quoting) (behind : List Char) :
      c = quoting.first → cs = quoting.lead ++ behind → Scanned c cs .quoted (quoting.scan behind)
  | «variable» : c = '@' →
      Scanned c cs .«variable» (run [c] Character.continuesName variableKind cs)
  | number : c.isDigit = true → Scanned c cs .number (number (c :: cs))
  | word : Character.startsName c = true →
      Scanned c cs .word (run [c] Character.continuesName wordKind cs)
  | unexpected :
      Scanned c cs .complaint
        { kind := .error s!"Unexpected character: {c}", text := [c], rest := cs }

/-- A character that begins nothing else is a complaint, or begins a name, a number or a variable.
-/
theorem exists_unlisted_scanned (c : Char) (cs : List Char) :
    ∃ sort, Scanned c cs sort (unlisted c cs) := by
  unfold unlisted
  split
  · next isFirst =>
      subst isFirst
      exact ⟨_, .quoted .single cs rfl rfl⟩
  split
  · next isNational =>
      obtain ⟨isFirst, isLead⟩ := isNational
      obtain ⟨ds, rfl⟩ := List.head?_eq_some_iff.1 isLead
      rcases isFirst with rfl | rfl
      · exact ⟨_, .quoted .upperNational ds rfl rfl⟩
      · exact ⟨_, .quoted .lowerNational ds rfl rfl⟩
  split
  · next isFirst =>
      subst isFirst
      exact ⟨_, .quoted .brackets cs rfl rfl⟩
  split
  · next isFirst =>
      subst isFirst
      exact ⟨_, .quoted .double cs rfl rfl⟩
  split
  · next isFirst => exact ⟨_, .«variable» isFirst⟩
  split
  · next isDigit => exact ⟨_, .number isDigit⟩
  split
  · next starts => exact ⟨_, .word starts⟩
  · exact ⟨_, .unexpected⟩

/-- The next token comes about in one of these ways. -/
theorem exists_scanned (c : Char) (cs : List Char) : ∃ sort, Scanned c cs sort (scan c cs) := by
  rw [scan_eq]
  split
  · next blank => exact ⟨_, .blank blank⟩
  split
  · next begins => exact ⟨_, .lineComment begins.1 begins.2⟩
  split
  · next begins => exact ⟨_, .blockComment begins.1 begins.2⟩
  unfold significant
  split
  · next found =>
      obtain ⟨d, isNext, isPair⟩ := Option.bind_eq_some_iff.1 found
      exact ⟨_, .pair isNext isPair⟩
  · next _ found => exact ⟨_, .single found⟩
  · exact exists_unlisted_scanned c cs

/-- What comes about is of the sort or a complaint. -/
theorem Scanned.sort_cases {c : Char} {cs : List Char} {sort : TokenSort} {lexeme : Lexeme}
    (scanned : Scanned c cs sort lexeme) :
    lexeme.kind.sort = sort ∨ ∃ complaint, lexeme.kind = .error complaint := by
  cases scanned with
  | blank | lineComment => exact .inl rfl
  | blockComment =>
      rcases blockComment_cases [c, '*'] cs.tail with comment | ⟨unclosed, _⟩
      · exact .inl (congrArg _ comment)
      · exact .inr ⟨_, unclosed⟩
  | pair _ isPair => exact .inl (sort_of_pairKind isPair)
  | single isSingle => exact .inl (sort_of_singleKind isSingle)
  | quoted quoting behind =>
      rcases quoting_cases quoting behind with ⟨value, closed⟩ | ⟨unclosed, _⟩
      · exact .inl (closed ▸ quoting.sort_kind value)
      · exact .inr ⟨_, unclosed⟩
  | «variable» =>
      rcases variable_cases [c] cs Character.continuesName with isVariable | invalid
      · exact .inl isVariable
      · exact .inr ⟨_, invalid⟩
  | number =>
      rcases number_cases (c :: cs) with isNumber | invalid
      · exact .inl isNumber
      · exact .inr ⟨_, invalid⟩
  | word => exact .inl (sort_word _ _ _)
  | unexpected => exact .inr ⟨_, rfl⟩

/-- A token that is no complaint comes about in a way of its sort. -/
theorem scanned_of_sort {c : Char} {cs : List Char} {sort : TokenSort}
    (isSort : (scan c cs).kind.sort = sort) (proper : sort ≠ .complaint) :
    Scanned c cs sort (scan c cs) := by
  obtain ⟨begun, scanned⟩ := exists_scanned c cs
  rcases scanned.sort_cases with same | ⟨complaint, isComplaint⟩
  · rwa [← isSort, same]
  · rw [isComplaint] at isSort
    exact absurd isSort.symm proper

/-- A token of a proper sort is no complaint. -/
theorem not_error_of_sort {kind : TokenKind} {sort : TokenSort} {message : String}
    (isSort : kind.sort = sort) (proper : sort ≠ .complaint) : kind ≠ .error message := by
  rintro rfl
  exact proper isSort.symm

/-- There are four kinds of complaints, and those about an end that is missing leave nothing behind
them. -/
theorem error_cases {c : Char} {cs : List Char} {message : String}
    (isError : (scan c cs).kind = .error message) :
    message ∈ ["Unterminated string literal", "Unterminated delimited identifier",
        "Unterminated block comment"] ∧ (scan c cs).rest = [] ∨
      message = "Expected variable name after @" ∨
      message = "Invalid number: invalid float literal" ∧ c.isDigit = true ∨
      message = s!"Unexpected character: {c}" := by
  obtain ⟨sort, scanned⟩ := exists_scanned c cs
  generalize scan c cs = lexeme at isError scanned ⊢
  cases scanned with
  | blank | lineComment => cases isError
  | blockComment =>
      rcases blockComment_cases [c, '*'] cs.tail with comment | ⟨unclosed, ends⟩
      · rw [comment] at isError
        cases isError
      · rw [unclosed] at isError
        cases isError
        exact .inl ⟨by simp, ends⟩
  | pair _ isPair => exact absurd isError (not_error_of_sort (sort_of_pairKind isPair) nofun)
  | single isSingle => exact absurd isError (not_error_of_sort (sort_of_singleKind isSingle) nofun)
  | quoted quoting behind =>
      rcases quoting_cases quoting behind with ⟨value, closed⟩ | ⟨unclosed, ends⟩
      · rw [closed] at isError
        exact absurd isError (not_error_of_sort (quoting.sort_kind value) nofun)
      · rw [unclosed] at isError
        cases isError
        exact .inl ⟨by cases quoting <;> simp [Quoting.complaint], ends⟩
  | «variable» =>
      rcases variable_cases [c] cs Character.continuesName with isVariable | invalid
      · exact absurd isError (not_error_of_sort isVariable nofun)
      · rw [invalid] at isError
        cases isError
        exact .inr (.inl rfl)
  | number digit =>
      rcases number_cases (c :: cs) with isNumber | invalid
      · exact absurd isError (not_error_of_sort isNumber nofun)
      · rw [invalid] at isError
        cases isError
        exact .inr (.inr (.inl ⟨rfl, digit⟩))
  | word => exact absurd isError (not_error_of_sort (sort_word _ _ _) nofun)
  | unexpected =>
      cases isError
      exact .inr (.inr (.inr rfl))

end Lexeme

end SelectTree
