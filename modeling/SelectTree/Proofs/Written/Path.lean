/-
Module: SelectTree.Proofs.Written.Path
Purpose: names joined by dots are read as these names again, whatever the delimited ones contain.
Main exports: Identifier.Occurs, Identifier.StandsAlone, renderPath_reads

A plain name is as long as it can be, and a dot cannot be part of it.  A delimited name ends at its
closing bracket, and every closing bracket inside it is doubled.
-/
import SelectTree.Proofs.Token.Quoting
import SelectTree.Proofs.Token.Respelling
import SelectTree.Proofs.Written.Combinator

namespace SelectTree

namespace Identifier

/-! ### Names by themselves -/

/-- Some word of some source stands for the name, be it as a name or as a string behind `AS`. -/
def Occurs (name : Identifier) : Prop :=
  ∃ (source : String), ∃ word ∈ (TokenStream.ofString source).words,
    word.identifier? = some name ∨ Parser.stringName? word = some name

/-- Written in front of a dot or of nothing, the name is one token and stands for itself. -/
structure StandsAlone (name : Identifier) (c : Char) (text : List Char) (kind : TokenKind) :
    Prop where
  written : name.render.toList = c :: text
  matters : kind.isTrivia = false
  named : ∀ word : Word, word.spelling = (kind, name.render) → word.identifier? = some name
  cut : ∀ rest : List Char, (rest = [] ∨ ∃ more, rest = '.' :: more) →
    Lexeme.scan c (text ++ rest) = { kind, text := c :: text, rest }

/-- Any text at all may stand between brackets. -/
theorem standsAlone_quoted (contents : String) :
    (quoted contents).StandsAlone '[' (QuotedText.doubled ']' contents.toList ++ [']'])
      (.delimitedIdentifier contents) where
  written := by
    have delimited : (quoted contents).delimited = true := rfl
    rw [render, if_pos delimited, String.toList_ofList]
    rfl
  matters := rfl
  named := by
    intro word spelled
    obtain ⟨kind, _⟩ := Prod.mk.inj spelled
    rw [Word.identifier?, kind]
  cut := by
    intro rest ends
    have goesOn : rest.head? ≠ some ']' := by
      rcases ends with rfl | ⟨more, rfl⟩ <;> exact nofun
    have scanned := Lexeme.scan_characters .brackets contents.toList goesOn
    rw [String.ofList_toList] at scanned
    rw [List.append_assoc]
    exact scanned

/-- A word that is not reserved ends at the dot. -/
theorem standsAlone_plain {c : Char} {text : List Char} (starts : Character.startsName c = true)
    (goesOn : ∀ d ∈ text, Character.continuesName d = true)
    (free : ∀ keyword, Lexeme.wordKind (c :: text) = .keyword keyword →
      keyword.isReserved = false) :
    (plain (String.ofList (c :: text))).StandsAlone c text (Lexeme.wordKind (c :: text)) where
  written := by
    rw [render, if_neg nofun, plain, String.toList_ofList]
  matters := by
    unfold Lexeme.wordKind
    split <;> rfl
  named := by
    intro word spelled
    obtain ⟨kind, written⟩ := Prod.mk.inj spelled
    unfold Lexeme.wordKind at kind free
    split at kind
    · next keyword found =>
        rw [found] at free
        rw [Word.identifier?, kind, written]
        exact if_neg (Bool.eq_false_iff.1 (free keyword rfl))
    · rw [Word.identifier?, kind]
  cut := by
    intro rest ends
    have notNational : (text ++ rest).head? ≠ some '\'' := by
      intro quote
      cases text with
      | nil => rcases ends with rfl | ⟨more, rfl⟩ <;> cases quote
      | cons d ds =>
          cases quote
          exact absurd (goesOn '\'' List.mem_cons_self) (by decide +kernel)
    have stops : rest.takeWhile Character.continuesName = [] := by
      rcases ends with rfl | ⟨more, rfl⟩ <;> rfl
    have ran : (text ++ rest).takeWhile Character.continuesName = text := by
      rw [List.takeWhile_append_of_pos goesOn, stops, List.append_nil]
    rw [Lexeme.scan_startsName starts notNational, Lexeme.run, ran, dropWhile_of_takeWhile ran]
    rfl

/-- A word of a source stands alone, unless it is reserved. -/
theorem exists_standsAlone_word {c : Char} {cs : List Char}
    (isWord : (Lexeme.scan c cs).kind.sort = .word)
    (free : ∀ keyword, (Lexeme.scan c cs).kind = .keyword keyword → keyword.isReserved = false) :
    ∃ text kind, (plain (String.ofList (Lexeme.scan c cs).text)).StandsAlone c text kind := by
  have scanned := Lexeme.scanned_of_sort isWord nofun
  generalize Lexeme.scan c cs = lexeme at free scanned ⊢
  cases scanned with
  | word starts =>
      have goesOn : ∀ d ∈ cs.takeWhile Character.continuesName, Character.continuesName d = true :=
        List.all_eq_true.1 List.all_takeWhile
      exact ⟨_, _, standsAlone_plain starts goesOn free⟩

/-- A plain name is the text of its token. -/
theorem name_of_identifier {c : Char} {cs : List Char} {name : String}
    (isName : (Lexeme.scan c cs).kind = .identifier name) :
    String.ofList (Lexeme.scan c cs).text = name := by
  have isWord : (Lexeme.scan c cs).kind.sort = .word := by rw [isName]; rfl
  have scanned := Lexeme.scanned_of_sort isWord nofun
  generalize Lexeme.scan c cs = lexeme at isName scanned ⊢
  cases scanned with
  | word =>
      unfold Lexeme.run Lexeme.wordKind at isName
      dsimp only at isName
      split at isName
      · cases isName
      · exact TokenKind.identifier.inj isName

/-- The name that a scanned word stands for: a plain one is the word again, unless it is reserved.
-/
theorem exists_standsAlone_of_identifier? {c : Char} {cs : List Char} {word : Word}
    {name : Identifier} (kind : (Lexeme.scan c cs).kind = word.kind)
    (text : String.ofList (Lexeme.scan c cs).text = word.text)
    (named : word.identifier? = some name) : ∃ c text kind, name.StandsAlone c text kind := by
  unfold Word.identifier? at named
  split at named
  case h_1 contents isName =>
    obtain rfl := Option.some.inj named
    rw [isName] at kind
    rw [← name_of_identifier kind]
    refine ⟨c, exists_standsAlone_word (by rw [kind]; rfl) fun keyword isKeyword => ?_⟩
    cases kind.symm.trans isKeyword
  case h_2 contents isDelimited =>
    obtain rfl := Option.some.inj named
    exact ⟨_, _, _, standsAlone_quoted contents⟩
  case h_3 keyword isKeyword =>
    obtain ⟨notReserved, isPlain⟩ := Option.ite_none_left_eq_some.1 named
    rw [isKeyword] at kind
    rw [← Option.some.inj isPlain, ← text]
    refine ⟨c, exists_standsAlone_word (by rw [kind]; rfl) fun other isOther => ?_⟩
    obtain rfl := TokenKind.keyword.inj (kind.symm.trans isOther)
    exact Bool.eq_false_iff.2 notReserved
  case h_4 => cases named

/-- A string is written again between brackets. -/
theorem exists_standsAlone_of_stringName? {word : Word} {name : Identifier}
    (called : Parser.stringName? word = some name) :
    ∃ c text kind, name.StandsAlone c text kind := by
  unfold Parser.stringName? at called
  split at called
  · cases called
    exact ⟨_, _, _, standsAlone_quoted _⟩
  · cases called
    exact ⟨_, _, _, standsAlone_quoted _⟩
  · cases called

/-- Every name that occurs stands alone where it is written again. -/
theorem Occurs.exists_standsAlone {name : Identifier} (occurs : name.Occurs) :
    ∃ c text kind, name.StandsAlone c text kind := by
  obtain ⟨source, word, member, stands⟩ := occurs
  obtain ⟨token, isToken, same⟩ := Words.exists_token_of_mem member
  obtain ⟨kind, text⟩ := Prod.mk.inj same
  obtain ⟨start, c, cs, rfl⟩ := Token.exists_scan_of_mem (List.mem_of_mem_filter isToken)
  rcases stands with named | called
  · exact exists_standsAlone_of_identifier? kind text named
  · exact exists_standsAlone_of_stringName? called

end Identifier

/-! ### Names and dots in turn -/

namespace Lexeme

/-- A dot is a token by itself. -/
theorem scan_dot (cs : List Char) :
    scan '.' cs = { kind := .dot, text := ['.'], rest := cs } := by
  have noPair : cs.head?.bind (pairKind? '.') = none :=
    Option.bind_eq_none_iff.2 fun d _ => rfl
  have notBlank : ¬ Character.isBlank '.' = true := by decide +kernel
  rw [scan_eq, if_neg notBlank, if_neg nofun, if_neg nofun, significant, noPair]
  rfl

end Lexeme

namespace Identifier

/-- The token is the name and is written as such. -/
structure Spells (token : Token) (name : Identifier) : Prop where
  matters : token.kind.isTrivia = false
  text : token.text = name.render
  named : ∀ word : Word, word.spelling = token.spelling → word.identifier? = some name

/-- The tokens are the names, with dots between them, and nothing else. -/
structure ReadAs (names : List Identifier) (tokens : List Token) : Prop where
  matters : ∀ token ∈ tokens, token.kind.isTrivia = false
  path : ∀ stop index, Words.ofTokensBehind stop index tokens ∈ Written.path names
  texts : tokens.map Token.text = (names.map render).intersperse "."

namespace ReadAs

variable {name next : Identifier} {names : List Identifier} {token dot : Token}
  {tokens : List Token}

theorem single (spells : Spells token name) : ReadAs [name] [token] where
  matters := by simpa using spells.matters
  path := by
    intro stop index
    rw [Written.path_cons, List.map_nil, Written.list, mul_one]
    exact Written.mem_one (spells.named _ rfl)
  texts := by simpa using spells.text

theorem cons (spells : Spells token name) (isDot : dot.kind = .dot) (point : dot.text = ".")
    (behind : ReadAs (next :: names) tokens) :
    ReadAs (name :: next :: names) (token :: dot :: tokens) where
  matters := by
    have dotMatters : dot.kind.isTrivia = false := by rw [isDot]; rfl
    simpa [spells.matters, dotMatters] using behind.matters
  path := by
    intro stop index
    have more := behind.path (some dot.span.stop) (index + 1 + 1)
    rw [Written.path_cons] at more ⊢
    rw [List.map_cons, Written.list, mul_assoc]
    exact Language.append_mem_mul (Written.mem_one (spells.named _ rfl))
      (Language.append_mem_mul (Written.mem_kind isDot) more)
  texts := by simp [behind.texts, spells.text, point, List.intersperse_cons_cons]

end ReadAs

/-- In front of a dot or of nothing, the text of a name is one token. -/
theorem Occurs.scanFrom_append {name : Identifier} (occurs : name.Occurs) (offset : Nat)
    {rest : List Char} (ends : rest = [] ∨ ∃ more, rest = '.' :: more) :
    ∃ token stop, Spells token name ∧
      Token.scanFrom offset (name.render.toList ++ rest) = token :: Token.scanFrom stop rest := by
  obtain ⟨c, text, kind, stands⟩ := occurs.exists_standsAlone
  refine ⟨Token.ofLexeme offset { kind, text := c :: text, rest },
    offset + byteLength (c :: text), ⟨?_, ?_, ?_⟩, ?_⟩
  · exact stands.matters
  · rw [Token.ofLexeme, ← stands.written, String.ofList_toList]
  · intro word spelled
    refine stands.named word (spelled.trans ?_)
    rw [Token.ofLexeme, Token.spelling, ← stands.written, String.ofList_toList]
  · rw [stands.written, List.cons_append, Token.scanFrom_cons, stands.cut rest ends]

theorem scanFrom_dot (offset : Nat) (rest : List Char) :
    ∃ dot stop, dot.kind = .dot ∧ dot.text = "." ∧
      Token.scanFrom offset ('.' :: rest) = dot :: Token.scanFrom stop rest := by
  refine ⟨Token.ofLexeme offset { kind := .dot, text := ['.'], rest },
    offset + byteLength ['.'], rfl, rfl, ?_⟩
  rw [Token.scanFrom_cons, Lexeme.scan_dot]

/-- The joined names are cut at the dots between them, by induction on the names. -/
theorem readAs_renderPath {name : Identifier} {names : List Identifier}
    (occur : ∀ part ∈ name :: names, part.Occurs) (offset : Nat) :
    ReadAs (name :: names) (Token.scanFrom offset (renderPath (name :: names)).toList) := by
  induction names generalizing name offset with
  | nil =>
      obtain ⟨token, stop, spells, scanned⟩ :=
        (occur name List.mem_cons_self).scanFrom_append offset (.inl rfl)
      rw [List.append_nil, Token.scanFrom_nil] at scanned
      rw [renderPath, List.map_singleton, String.intercalate_singleton, scanned]
      exact .single spells
  | cons next names ih =>
      have joined : (renderPath (name :: next :: names)).toList =
          name.render.toList ++ '.' :: (renderPath (next :: names)).toList := by
        simp [renderPath]
      obtain ⟨token, stop, spells, scanned⟩ :=
        (occur name List.mem_cons_self).scanFrom_append offset (.inr ⟨_, rfl⟩)
      obtain ⟨dot, stopDot, isDot, point, scannedDot⟩ :=
        scanFrom_dot stop (renderPath (next :: names)).toList
      rw [joined, scanned, scannedDot]
      exact .cons spells isDot point
        (ih (fun part member => occur part (List.mem_cons_of_mem name member)) stopDot)

end Identifier

/-- Names that occur in sources, joined by dots, are read as just these names and dots, with nothing
between them, whatever the delimited names among them contain. -/
theorem renderPath_reads {names : List Identifier} (some : names ≠ [])
    (occur : ∀ name ∈ names, name.Occurs) :
    let stream := TokenStream.ofString (Identifier.renderPath names)
    stream.trivia = [] ∧ stream.words ∈ Written.path names ∧
      stream.tokens.map Token.text = (names.map Identifier.render).intersperse "." := by
  intro stream
  obtain ⟨name, others, rfl⟩ := List.exists_cons_of_ne_nil some
  have read := Identifier.readAs_renderPath occur 0
  have tokens : stream.tokens = Token.scanFrom 0 (Identifier.renderPath (name :: others)).toList :=
    List.filter_eq_self.2 fun token member => by simpa using read.matters token member
  refine ⟨?_, ?_, ?_⟩
  · exact List.filter_eq_nil_iff.2 fun token member => by simpa using read.matters token member
  · rw [TokenStream.words, Words.ofTokens, tokens]
    exact read.path none 0
  · rw [tokens]
    exact read.texts

/-- A keyword that may be a name, a delimited name without contents, and a string with a dot and a
closing bracket. -/
theorem renderPath_reads_mixed :
    [Identifier.plain "Rows", .quoted "", .quoted "b].c"] ≠ [] ∧
      (TokenStream.ofString "Rows.[].[b]].c]").tokens.map Token.text =
        ["Rows", ".", "[]", ".", "[b]].c]"] := by
  have rows : (Identifier.plain "Rows").Occurs :=
    ⟨"Rows", { kind := .keyword .ROWS, text := "Rows", glued := false, index := 0 },
      by decide +kernel, .inl (by decide +kernel)⟩
  have vacant : (Identifier.quoted "").Occurs :=
    ⟨"[]", { kind := .delimitedIdentifier "", text := "[]", glued := false, index := 0 },
      by decide +kernel, .inl rfl⟩
  have string : (Identifier.quoted "b].c").Occurs :=
    ⟨"'b].c'", { kind := .string "b].c", text := "'b].c'", glued := false, index := 0 },
      by decide +kernel, .inr rfl⟩
  have occur : ∀ name ∈ [Identifier.plain "Rows", .quoted "", .quoted "b].c"], name.Occurs := by
    simp [rows, vacant, string]
  have read := renderPath_reads (List.cons_ne_nil _ _) occur
  have written : Identifier.renderPath [.plain "Rows", .quoted "", .quoted "b].c"] =
      "Rows.[].[b]].c]" := by decide +kernel
  rw [written] at read
  exact ⟨List.cons_ne_nil _ _, read.2.2⟩

end SelectTree
