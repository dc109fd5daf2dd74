/-
Module: SelectTree.Proofs.Token.Lookahead
Purpose: how far the next token depends on what is behind it.
Main exports: Mirrors, Lexeme.Stable, Lexeme.scan_mirrors

A token ends where its characters cannot go on.  To see that, up to two further characters are
looked at, and a space or the end of the text in their place only makes it certain.
-/
import SelectTree.Token.Scan

namespace SelectTree

/-- The second text goes like the first one up to a space, or to its end. -/
def Mirrors : List Char → List Char → Prop
  | _, [] => True
  | [], _ :: _ => False
  | c :: cs, d :: ds => d = ' ' ∨ c = d ∧ Mirrors cs ds

namespace Mirrors

variable {text rest new : List Char}

theorem nil (rest : List Char) : Mirrors rest [] := by
  cases rest <;> trivial

/-- A common front changes nothing. -/
theorem append_left (mirrors : Mirrors rest new) (text : List Char) :
    Mirrors (text ++ rest) (text ++ new) := by
  induction text with
  | nil => exact mirrors
  | cons c cs ih => exact .inr ⟨rfl, ih⟩

/-- Only the end mirrors the end. -/
theorem eq_nil (mirrors : Mirrors [] new) : new = [] := by
  cases new with
  | nil => rfl
  | cons d ds => exact mirrors.elim

/-- What comes next, unless it is a space, has come next before. -/
theorem head? (mirrors : Mirrors rest new) {d : Char} (next : new.head? = some d)
    (notSpace : d ≠ ' ') : rest.head? = some d := by
  cases new with
  | nil => cases next
  | cons e es =>
      cases next
      cases rest with
      | nil => exact mirrors.elim
      | cons c cs =>
          rcases mirrors with space | ⟨rfl, _⟩
          · exact absurd space notSpace
          · rfl

/-- A class that spaces do not belong to can be looked for in either text. -/
theorem head?_any (mirrors : Mirrors rest new) {isMember : Char → Bool}
    (stops : isMember ' ' = false) (next : new.head?.any isMember = true) :
    rest.head?.any isMember = true := by
  rw [Option.any_eq_true] at next ⊢
  obtain ⟨d, isNext, holds⟩ := next
  refine ⟨d, mirrors.head? isNext ?_, holds⟩
  rintro rfl
  rw [stops] at holds
  cases holds

/-- A run of characters that is no longer with the first text is none longer with the second. -/
theorem takeWhile_eq (mirrors : Mirrors rest new) {isMember : Char → Bool}
    (stops : isMember ' ' = false) (ran : (text ++ rest).takeWhile isMember = text) :
    (text ++ new).takeWhile isMember = text := by
  induction text with
  | nil =>
      cases new with
      | nil => rfl
      | cons d ds =>
          have stopsHere : isMember d = false := by
            by_cases space : d = ' '
            · rw [space, stops]
            · have next := mirrors.head? rfl space
              obtain ⟨cs, rfl⟩ := List.head?_eq_some_iff.1 next
              cases goesOn : isMember d with
              | false => rfl
              | true => simp [goesOn] at ran
          simp [stopsHere]
  | cons c cs ih =>
      rw [List.cons_append, List.takeWhile_cons] at ran ⊢
      cases goesOn : isMember c with
      | false => simp [goesOn] at ran
      | true =>
          rw [goesOn, if_pos rfl] at ran
          rw [if_pos rfl, ih (List.cons.inj ran).2]

end Mirrors

/-- A run that is the front leaves what is behind the front. -/
theorem dropWhile_of_takeWhile {text rest : List Char} {isMember : Char → Bool}
    (ran : (text ++ rest).takeWhile isMember = text) :
    (text ++ rest).dropWhile isMember = rest := by
  have parts := List.takeWhile_append_dropWhile (p := isMember) (l := text ++ rest)
  rw [ran] at parts
  exact List.append_cancel_left parts

namespace Lexeme

/-- What the scanner takes behind the opening characters does not change when the text behind it
mirrors what was there before. -/
def Stable (opening : List Char) (scanner : List Char → Lexeme) : Prop :=
  ∀ text rest new : List Char, (scanner (text ++ rest)).text = opening ++ text →
    Mirrors rest new → scanner (text ++ new) = { scanner (text ++ rest) with rest := new }

/-! ### Runs -/

/-- A run ends at a space at the latest. -/
theorem stable_run (opening : List Char) {isMember : Char → Bool} (stops : isMember ' ' = false)
    (kind : List Char → TokenKind) : Stable opening (run opening isMember kind) := by
  intro text rest new taken mirrors
  have ran : (text ++ rest).takeWhile isMember = text := List.append_cancel_left taken
  have runs := mirrors.takeWhile_eq stops ran
  simp only [run, ran, runs, dropWhile_of_takeWhile runs]

/-! ### Quoted texts and comments -/

/-- A quoted text ends at its closing character, unless it is doubled, which a space behind it rules
out. -/
theorem quotedText_mirrors {close : Char} (notSpace : close ≠ ' ') {source new : List Char}
    {found : QuotedText} (scanned : QuotedText.scan? close source = some found)
    (mirrors : Mirrors found.rest new) :
    QuotedText.scan? close (found.text ++ new) = some { found with rest := new } := by
  fun_induction QuotedText.scan? close source generalizing found with
  | case1 => cases scanned
  | case2 =>
      cases scanned
      obtain rfl := mirrors.eq_nil
      simp [QuotedText.scan?]
  | case3 ds ih =>
      obtain ⟨inner, scannedInner, rfl⟩ := Option.map_eq_some_iff.1 scanned
      have again := ih scannedInner mirrors
      simp [QuotedText.scan?, QuotedText.prepend, again]
  | case4 d ds other =>
      cases scanned
      cases new with
      | nil => simp [QuotedText.scan?]
      | cons e es =>
          have single : e ≠ close := by
            rcases mirrors with rfl | ⟨rfl, _⟩
            · exact notSpace.symm
            · exact other
          simp [QuotedText.scan?, single]
  | case5 c cs other ih =>
      obtain ⟨inner, scannedInner, rfl⟩ := Option.map_eq_some_iff.1 scanned
      have again := ih scannedInner mirrors
      rw [QuotedText.prepend, List.singleton_append, List.cons_append, QuotedText.scan?.eq_def]
      simp only [if_neg other, again]
      rfl

/-- A quoted text that is closed does not depend on what is behind it, but for a further closing
character. -/
theorem stable_quoted (opening : List Char) {close : Char} (notSpace : close ≠ ' ')
    (kind : String → TokenKind) (complaint : String) :
    Stable opening (quoted opening close kind complaint) := by
  intro text rest new taken mirrors
  unfold quoted at taken ⊢
  cases scanned : QuotedText.scan? close (text ++ rest) with
  | some found =>
      rw [scanned] at taken
      obtain rfl : found.text = text := List.append_cancel_left taken
      obtain rfl : found.rest = rest := List.append_cancel_left (quotedText_append_rest scanned)
      rw [quotedText_mirrors notSpace scanned mirrors]
  | none =>
      -- The whole text was taken, so nothing is behind it.
      rw [scanned] at taken
      obtain rfl : rest = [] := by simpa using taken
      obtain rfl := mirrors.eq_nil
      rw [scanned]

theorem blockEnd_ne_nil {source text rest : List Char}
    (ended : blockEnd? source = some (text, rest)) : text ≠ [] := by
  rintro rfl
  cases source with
  | nil => cases ended
  | cons c cs =>
      rw [blockEnd?] at ended
      split at ended
      · cases ended
      · obtain ⟨_, _, same⟩ := Option.map_eq_some_iff.1 ended
        cases same

/-- What is behind the end of a block comment is never looked at. -/
theorem blockEnd_append {source text rest : List Char}
    (ended : blockEnd? source = some (text, rest)) (new : List Char) :
    blockEnd? (text ++ new) = some (text, new) := by
  fun_induction blockEnd? source generalizing text rest with
  | case1 => cases ended
  | case2 c cs closes =>
      cases ended
      rw [closes.1]
      rfl
  | case3 c cs goesOn ih =>
      obtain ⟨⟨inner, behind⟩, endedInner, same⟩ := Option.map_eq_some_iff.1 ended
      obtain ⟨rfl, rfl⟩ := Prod.mk.inj same
      obtain ⟨d, ds, rfl⟩ := List.exists_cons_of_ne_nil (blockEnd_ne_nil endedInner)
      obtain rfl := blockEnd_append_rest endedInner
      rw [List.cons_append, blockEnd?, if_neg (by simpa using goesOn), ih endedInner]
      rfl

theorem stable_blockComment (opening : List Char) : Stable opening (blockComment opening) := by
  intro text rest new taken mirrors
  unfold blockComment at taken ⊢
  cases ended : blockEnd? (text ++ rest) with
  | some parts =>
      obtain ⟨found, behind⟩ := parts
      rw [ended] at taken
      obtain rfl : found = text := List.append_cancel_left taken
      rw [blockEnd_append ended]
  | none =>
      rw [ended] at taken
      obtain rfl : rest = [] := by simpa using taken
      obtain rfl := mirrors.eq_nil
      rw [ended]

/-! ### Numbers -/

theorem fractionPart_cons (c : Char) (cs : List Char) :
    fractionPart (c :: cs) =
      if c = '.' ∧ cs.head?.any Char.isDigit = true then c :: cs.takeWhile Char.isDigit
      else [] := by
  by_cases point : c = '.'
  · subst point
    simp [fractionPart]
  · rw [if_neg fun both => point both.1]
    unfold fractionPart
    split
    · next same => exact absurd (List.cons.inj same).1 point
    · rfl

/-- A fraction that is taken is taken again, and one that is not is not made up. -/
theorem fractionPart_mirrors {text rest new : List Char} (mirrors : Mirrors rest new)
    (taken : fractionPart (text ++ rest) = text) : fractionPart (text ++ new) = text := by
  cases text with
  | nil =>
      rcases new with _ | ⟨d, ds⟩
      · rfl
      · rw [List.nil_append, fractionPart_cons, if_neg]
        rintro ⟨rfl, digit⟩
        rcases rest with _ | ⟨c, cs⟩
        · exact mirrors.elim
        · rcases mirrors with space | ⟨rfl, behind⟩
          · cases space
          · rw [List.nil_append, fractionPart_cons, if_pos ⟨rfl, behind.head?_any rfl digit⟩] at taken
            cases taken
  | cons c cs =>
      rw [List.cons_append, fractionPart_cons] at taken ⊢
      split at taken
      · next begins =>
          have digits := (List.cons.inj taken).2
          rw [mirrors.takeWhile_eq rfl digits, if_pos]
          cases cs with
          | nil =>
              rcases rest with _ | ⟨d, ds⟩
              · exact absurd begins.2 (by simp)
              · simp_all
          | cons d ds => exact begins
      · cases taken

/-- An exponent that is taken is taken again: a space neither begins nor goes on with one. -/
theorem exponentPart_mirrors {text rest new : List Char} (mirrors : Mirrors rest new)
    (taken : exponentPart (text ++ rest) = text) : exponentPart (text ++ new) = text := by
  rcases text with _ | ⟨e, _ | ⟨c, cs⟩⟩
  · unfold exponentPart
    split
    · next e c cs same =>
        rw [List.nil_append] at same
        subst same
        rw [if_neg]
        rintro ⟨isExponent, follows⟩
        rcases rest with _ | ⟨e', _ | ⟨c', cs'⟩⟩
        · exact mirrors.elim
        · rcases mirrors with rfl | ⟨_, behind⟩
          · simp at isExponent
          · exact behind.elim
        · rcases mirrors with rfl | ⟨rfl, rfl | ⟨rfl, _⟩⟩
          · simp at isExponent
          · simp at follows
          · simp [exponentPart, isExponent, follows] at taken
    · rfl
  · exfalso
    rcases rest with _ | ⟨c, cs⟩
    · cases taken
    · simp only [List.singleton_append, exponentPart] at taken
      split at taken <;> cases taken
  · simp only [List.cons_append, exponentPart] at taken ⊢
    split at taken
    · next begins =>
        have digits := (List.cons.inj (List.cons.inj taken).2).2
        rw [mirrors.takeWhile_eq rfl digits, if_pos begins]
    · cases taken

/-- The three parts of a number at the front of a text. -/
structure NumberParts (whole fraction exponent rest : List Char) : Prop where
  whole_eq : (whole ++ (fraction ++ (exponent ++ rest))).takeWhile Char.isDigit = whole
  fraction_eq : fractionPart (fraction ++ (exponent ++ rest)) = fraction
  exponent_eq : exponentPart (exponent ++ rest) = exponent

/-- Every text is cut into the parts of a number and what is behind them. -/
theorem exists_numberParts (source : List Char) :
    ∃ whole fraction exponent rest, source = whole ++ (fraction ++ (exponent ++ rest)) ∧
      NumberParts whole fraction exponent rest := by
  have cutWhole := List.takeWhile_append_dropWhile (p := Char.isDigit) (l := source)
  obtain ⟨behindFraction, cutFraction⟩ := fractionPart_isPrefix (source.dropWhile Char.isDigit)
  obtain ⟨rest, cutExponent⟩ := exponentPart_isPrefix behindFraction
  refine ⟨source.takeWhile Char.isDigit, fractionPart (source.dropWhile Char.isDigit),
    exponentPart behindFraction, rest, ?_, ?_⟩
  · rw [cutExponent, cutFraction, cutWhole]
  · constructor
    · rw [cutExponent, cutFraction, cutWhole]
    · rw [cutExponent, cutFraction]
    · rw [cutExponent]

/-- The number at the front is made of its parts. -/
theorem number_eq {whole fraction exponent rest : List Char}
    (parts : NumberParts whole fraction exponent rest) :
    number (whole ++ (fraction ++ (exponent ++ rest))) =
      { kind := numberKind whole fraction exponent, text := whole ++ (fraction ++ exponent),
        rest } := by
  simp only [number, parts.whole_eq, dropWhile_of_takeWhile parts.whole_eq, parts.fraction_eq,
    List.drop_left, parts.exponent_eq]

/-- A number is cut into the same parts before whatever mirrors what is behind it. -/
theorem stable_number : Stable [] number := by
  intro text rest new taken mirrors
  obtain ⟨whole, fraction, exponent, behind, cut, parts⟩ := exists_numberParts (text ++ rest)
  have read := number_eq parts
  rw [← cut] at read
  rw [read] at taken ⊢
  obtain rfl : whole ++ (fraction ++ exponent) = text := taken
  obtain rfl : rest = behind := by simpa using cut
  have exponentMirrors := mirrors.append_left exponent
  have fractionMirrors := exponentMirrors.append_left fraction
  have newParts : NumberParts whole fraction exponent new :=
    { whole_eq := fractionMirrors.takeWhile_eq rfl parts.whole_eq
      fraction_eq := fractionPart_mirrors exponentMirrors parts.fraction_eq
      exponent_eq := exponentPart_mirrors mirrors parts.exponent_eq }
  rw [List.append_assoc, List.append_assoc, number_eq newParts]

/-! ### Choices -/

namespace Stable

variable {opening : List Char} {scanner other : List Char → Lexeme}

/-- A choice that does not look ahead. -/
theorem ite {choice : Prop} [Decidable choice] (one : Stable opening scanner)
    (two : Stable opening other) :
    Stable opening fun cs => if choice then scanner cs else other cs := by
  intro text rest new taken mirrors
  by_cases chosen : choice
  · simp only [if_pos chosen] at taken ⊢
    exact one _ _ _ taken mirrors
  · simp only [if_neg chosen] at taken ⊢
    exact two _ _ _ taken mirrors

/-- A choice that looks at the next character, which is taken if it is the right one. -/
theorem ahead {choice : Prop} [Decidable choice] {d : Char} (notSpace : d ≠ ' ')
    (begins : ∀ cs, opening ++ [d] <+: (scanner cs).text) (one : Stable (opening ++ [d]) scanner)
    (two : Stable opening other) :
    Stable opening fun cs =>
      if choice ∧ cs.head? = some d then scanner cs.tail else other cs := by
  intro text rest new taken mirrors
  by_cases chosen : choice ∧ (text ++ rest).head? = some d
  · simp only [if_pos chosen] at taken
    obtain ⟨more, parts⟩ := begins (text ++ rest).tail
    obtain rfl : d :: more = text := by
      rw [taken, List.append_assoc] at parts
      exact List.append_cancel_left parts
    have again : choice ∧ (d :: more ++ new).head? = some d := ⟨chosen.1, rfl⟩
    simp only [if_pos chosen, if_pos again]
    refine one _ _ _ ?_ mirrors
    rw [List.append_assoc]
    exact taken
  · have whole := mirrors.append_left text
    have notAgain : ¬ (choice ∧ (text ++ new).head? = some d) :=
      fun both => chosen ⟨both.1, whole.head? both.2 notSpace⟩
    simp only [if_neg chosen] at taken
    simp only [if_neg chosen, if_neg notAgain]
    exact two _ _ _ taken mirrors

/-- One character by itself. -/
theorem single (c : Char) (kind : TokenKind) :
    Stable [c] fun cs => { kind, text := [c], rest := cs } := by
  intro text rest new taken _
  obtain rfl : text = [] := by simpa using taken.symm
  rfl

end Stable

theorem prefix_quoted (opening : List Char) (close : Char) (kind : String → TokenKind)
    (complaint : String) (cs : List Char) :
    opening <+: (quoted opening close kind complaint cs).text := by
  unfold quoted
  split <;> exact List.prefix_append ..

theorem prefix_blockComment (opening cs : List Char) :
    opening <+: (blockComment opening cs).text := by
  unfold blockComment
  split <;> exact List.prefix_append ..

/-! ### Any token -/

/-- The token at the front of a text that begins neither with trivia nor with an operator. -/
def unlisted (c : Char) (cs : List Char) : Lexeme :=
  if c = '\'' then quotedString [c] .string cs
  else if (c = 'N' ∨ c = 'n') ∧ cs.head? = some '\'' then
    quotedString [c, '\''] .nationalString cs.tail
  else if c = '[' then delimitedName [c] ']' cs
  else if c = '"' then delimitedName [c] '"' cs
  else if c = '@' then run [c] Character.continuesName variableKind cs
  else if c.isDigit then number (c :: cs)
  else if Character.startsName c then run [c] Character.continuesName wordKind cs
  else { kind := .error s!"Unexpected character: {c}", text := [c], rest := cs }

/-- The token at the front of a text that does not begin with trivia. -/
def significant (c : Char) (cs : List Char) : Lexeme :=
  match cs.head?.bind (pairKind? c), singleKind? c with
  | some kind, _ => { kind, text := c :: cs.take 1, rest := cs.drop 1 }
  | none, some kind => { kind, text := [c], rest := cs }
  | none, none => unlisted c cs

/-- How the first two characters decide what is read. -/
theorem scan_eq (c : Char) (cs : List Char) :
    scan c cs =
      if Character.isBlank c then run [c] Character.isBlank (fun _ => .whitespace) cs
      else if c = '-' ∧ cs.head? = some '-' then run [c] (· != '\n') (fun _ => .comment) cs
      else if c = '/' ∧ cs.head? = some '*' then blockComment [c, '*'] cs.tail
      else significant c cs := rfl

theorem stable_unlisted (c : Char) : Stable [c] (unlisted c) := by
  have stops : Character.continuesName ' ' = false := by decide +kernel
  have digits : Stable [c] fun cs => number (c :: cs) := by
    intro text rest new taken mirrors
    exact stable_number (c :: text) rest new taken mirrors
  refine Stable.ite (stable_quoted _ (by decide) _ _) ?_
  refine Stable.ahead (by decide) (fun _ => prefix_quoted ..) ?_ ?_
  · exact stable_quoted _ (by decide) _ _
  refine Stable.ite (stable_quoted _ (by decide) _ _) ?_
  refine Stable.ite (stable_quoted _ (by decide) _ _) ?_
  refine Stable.ite (stable_run _ stops _) ?_
  refine Stable.ite digits ?_
  exact Stable.ite (stable_run _ stops _) (.single c _)

/-- No operator ends in a space. -/
theorem pairKind_space (c : Char) : pairKind? c ' ' = none := by
  unfold pairKind?
  split <;> first | rfl | simp_all

/-- One case for each way in which a token that is neither blank nor comment may begin. -/
theorem stable_significant (c : Char) : Stable [c] (significant c) := by
  intro text rest new taken mirrors
  have whole := mirrors.append_left text
  unfold significant at taken ⊢
  cases pair : (text ++ rest).head?.bind (pairKind? c) with
  | some kind =>
      simp only [pair] at taken
      obtain ⟨d, next, isPair⟩ := Option.bind_eq_some_iff.1 pair
      obtain ⟨ds, parts⟩ := List.head?_eq_some_iff.1 next
      obtain rfl : [d] = text := by
        rw [parts] at taken
        exact (List.cons.inj taken).2
      simp [isPair]
  | none =>
      have noPair : (text ++ new).head?.bind (pairKind? c) = none := by
        rw [Option.bind_eq_none_iff]
        intro d next
        by_cases space : d = ' '
        · rw [space, pairKind_space]
        · rw [whole.head? next space] at pair
          exact pair
      rw [pair] at taken
      rw [noPair]
      cases single : singleKind? c with
      | some kind =>
          rw [single] at taken
          exact Stable.single c kind text rest new taken mirrors
      | none =>
          rw [single] at taken
          exact stable_unlisted c text rest new taken mirrors

/-- The next token, unless it is trivia, is the same in front of every text that mirrors what was
behind it.  Trivia go on with spaces. -/
theorem scan_mirrors {c : Char} {text rest new : List Char}
    (taken : (scan c (text ++ rest)).text = c :: text)
    (matters : (scan c (text ++ rest)).kind.isTrivia = false) (mirrors : Mirrors rest new) :
    scan c (text ++ new) = { scan c (text ++ rest) with rest := new } := by
  have whole := mirrors.append_left text
  rw [scan_eq] at taken matters
  rw [scan_eq, scan_eq]
  by_cases blank : Character.isBlank c = true
  · rw [if_pos blank] at matters
    cases matters
  by_cases line : c = '-' ∧ (text ++ rest).head? = some '-'
  · rw [if_neg blank, if_pos line] at matters
    cases matters
  have notLine : ¬ (c = '-' ∧ (text ++ new).head? = some '-') :=
    fun both => line ⟨both.1, whole.head? both.2 (by decide)⟩
  have behindTrivia : Stable [c] fun cs =>
      if c = '/' ∧ cs.head? = some '*' then blockComment [c, '*'] cs.tail else significant c cs :=
    Stable.ahead (by decide) (fun _ => prefix_blockComment ..) (stable_blockComment _)
      (stable_significant c)
  simp only [if_neg blank, if_neg line] at taken
  simp only [if_neg blank, if_neg line, if_neg notLine]
  exact behindTrivia text rest new taken mirrors

end Lexeme

end SelectTree
