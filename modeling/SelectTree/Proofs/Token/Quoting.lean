/-
Module: SelectTree.Proofs.Token.Quoting
Purpose: quoting and unquoting are inverse, for each form of quoting.
Main exports: Quoting.write, Lexeme.scan_write, Token.exists_write, quoting_inverse

A closing character inside the contents is written twice.  The scanner reads up to the first closing
character that is not, so no content can end a quoted text early.
-/
import SelectTree.Proofs.Token.Origin
import SelectTree.Proofs.Token.Tiling

namespace SelectTree

namespace QuotedText

/-- The contents as they are written: each closing character twice. -/
def doubled (close : Char) (contents : List Char) : List Char :=
  contents.flatMap fun c => if c = close then [c, c] else [c]

theorem doubled_cons (close c : Char) (cs : List Char) :
    doubled close (c :: cs) = (if c = close then [c, c] else [c]) ++ doubled close cs :=
  List.flatMap_cons

theorem doubled_close (close : Char) (cs : List Char) :
    doubled close (close :: cs) = [close, close] ++ doubled close cs := by
  rw [doubled_cons, if_pos rfl]

theorem doubled_other {close c : Char} (other : c ≠ close) (cs : List Char) :
    doubled close (c :: cs) = [c] ++ doubled close cs := by
  rw [doubled_cons, if_neg other]

variable {close : Char}

/-- A closing character at the end of the contents is the last one of the text read, unless another
one follows it. -/
theorem scan?_close {rest : List Char} (ends : rest.head? ≠ some close) :
    scan? close (close :: rest) = some { value := [], text := [close], rest } := by
  cases rest with
  | nil => simp [scan?]
  | cons d ds =>
      have other : d ≠ close := fun same => ends (congrArg some same)
      simp [scan?, other]

theorem scan?_pair (cs : List Char) :
    scan? close (close :: close :: cs) = (scan? close cs).map (prepend close [close, close]) := by
  simp [scan?]

theorem scan?_other {c : Char} (other : c ≠ close) (cs : List Char) :
    scan? close (c :: cs) = (scan? close cs).map (prepend c [c]) := by
  rw [scan?.eq_def]
  exact if_neg other

/-- Whatever was doubled is read back, by induction on the contents. -/
theorem scan?_doubled {rest : List Char} (ends : rest.head? ≠ some close) (contents : List Char) :
    scan? close (doubled close contents ++ close :: rest) =
      some { value := contents, text := doubled close contents ++ [close], rest } := by
  induction contents with
  | nil => exact scan?_close ends
  | cons c cs ih =>
      by_cases isClose : c = close
      · subst isClose
        simp only [doubled_close, List.cons_append, List.nil_append]
        rw [scan?_pair, ih]
        rfl
      · rw [doubled_other isClose, List.singleton_append, List.cons_append, scan?_other isClose, ih]
        rfl

/-- The text read is the contents, doubled, and the closing character. -/
theorem text_of_scan? {source : List Char} {found : QuotedText}
    (read : scan? close source = some found) :
    found.text = doubled close found.value ++ [close] := by
  fun_induction scan? close source generalizing found with
  | case1 => cases read
  | case2 =>
      cases read
      rfl
  | case3 ds ih =>
      obtain ⟨inner, readInner, rfl⟩ := Option.map_eq_some_iff.1 read
      rw [prepend, ih readInner, doubled_close, List.append_assoc]
  | case4 d ds other =>
      cases read
      rfl
  | case5 c cs other ih =>
      obtain ⟨inner, readInner, rfl⟩ := Option.map_eq_some_iff.1 read
      rw [prepend, ih readInner, doubled_other other, List.append_assoc]

end QuotedText

namespace Quoting

/-- The contents between their delimiters, as characters. -/
def characters (quoting : Quoting) (contents : List Char) : List Char :=
  quoting.opening ++ QuotedText.doubled quoting.close contents ++ [quoting.close]

/-- The written form of a text: its closing characters doubled, between the delimiters. -/
def write (quoting : Quoting) (contents : String) : String :=
  String.ofList (quoting.characters contents.toList)

theorem matters_kind (quoting : Quoting) (value : String) :
    (quoting.kind value).isTrivia = false := by
  cases quoting <;> rfl

end Quoting

namespace Lexeme

/-- Behind its opening a quoted text is read as such. -/
theorem scan_opening (quoting : Quoting) (cs : List Char) :
    scan quoting.first (quoting.lead ++ cs) = quoting.scan cs := by
  have notBlank : Character.isBlank quoting.first = false := by
    cases quoting <;> decide +kernel
  have notSymbol : quoting.first ∉ symbols := by
    cases quoting <;> decide
  rw [scan_eq_unlisted notBlank notSymbol]
  cases quoting <;> rfl

/-- A written text is one token, whatever follows it but its closing character. -/
theorem scan_characters (quoting : Quoting) (contents : List Char) {rest : List Char}
    (ends : rest.head? ≠ some quoting.close) :
    scan quoting.first
        (quoting.lead ++ (QuotedText.doubled quoting.close contents ++ quoting.close :: rest)) =
      { kind := quoting.kind (String.ofList contents), text := quoting.characters contents,
        rest } := by
  rw [scan_opening, Quoting.scan, quoted, QuotedText.scan?_doubled ends]
  simp [Quoting.characters]

/-- A token of quoted text is written as its value. -/
theorem exists_characters {c : Char} {cs : List Char} (isQuoted : (scan c cs).kind.sort = .quoted) :
    ∃ (quoting : Quoting) (contents : List Char),
      (scan c cs).kind = quoting.kind (String.ofList contents) ∧
        (scan c cs).text = quoting.characters contents := by
  have scanned := scanned_of_sort isQuoted nofun
  generalize scan c cs = lexeme at isQuoted scanned ⊢
  cases scanned with
  | quoted quoting behind _ _ =>
      unfold Quoting.scan quoted at isQuoted ⊢
      split at isQuoted
      · next found read =>
          refine ⟨quoting, found.value, rfl, ?_⟩
          simp [Quoting.characters, QuotedText.text_of_scan? read]
      · cases isQuoted

end Lexeme

namespace Token

theorem scanFrom_write (quoting : Quoting) (contents : String) :
    scanFrom 0 (quoting.write contents).toList =
      [{ kind := quoting.kind contents, text := quoting.write contents,
         span := { start := 0, stop := (quoting.write contents).utf8ByteSize } }] := by
  have nothingBehind : ([] : List Char).head? ≠ some quoting.close := nofun
  have scanned := Lexeme.scan_characters quoting contents.toList nothingBehind
  have written : (quoting.write contents).toList = quoting.first ::
      (quoting.lead ++
        (QuotedText.doubled quoting.close contents.toList ++ [quoting.close])) := by
    simp [Quoting.write, Quoting.characters, Quoting.opening]
  rw [written, scanFrom_cons, scanned, scanFrom_nil, ofLexeme, byteLength_eq, Nat.zero_add,
    String.ofList_toList]
  rfl

/-- A token of quoted text is written as its value, with one form of quoting. -/
theorem exists_write {offset : Nat} {source : List Char} {token : Token}
    (member : token ∈ scanFrom offset source) (isQuoted : token.kind.sort = .quoted) :
    ∃ (quoting : Quoting) (value : String),
      token.kind = quoting.kind value ∧ token.text = quoting.write value := by
  obtain ⟨start, c, cs, rfl⟩ := exists_scan_of_mem member
  obtain ⟨quoting, contents, kind, text⟩ := Lexeme.exists_characters isQuoted
  refine ⟨quoting, String.ofList contents, kind, ?_⟩
  rw [Quoting.write, String.toList_ofList, ← text]
  rfl

end Token

/-- Quoting and unquoting are inverse.  Whatever its contents are, a quoted text with its closing
characters doubled is one token, which is the whole text and has the contents as its value.  And in
every source, each token of quoted text is its value with its closing characters doubled, between
the delimiters. -/
theorem quoting_inverse :
    (∀ (quoting : Quoting) (contents : String),
      TokenStream.ofString (quoting.write contents) =
        { tokens := [{ kind := quoting.kind contents, text := quoting.write contents,
                       span := { start := 0, stop := (quoting.write contents).utf8ByteSize } }],
          trivia := [] }) ∧
      ∀ (source : String), ∀ token ∈ (TokenStream.ofString source).tokens, ∀ value : String,
        token.kind ∈ [.string value, .nationalString value, .delimitedIdentifier value] →
        ∃ quoting : Quoting, token.kind = quoting.kind value ∧
          token.text = quoting.write value := by
  constructor
  · intro quoting contents
    have scanned := Token.scanFrom_write quoting contents
    rw [Token.scanFrom] at scanned
    simp [TokenStream.ofString, Token.scanAll, scanned, quoting.matters_kind]
  · intro source token member value isQuoted
    have scanned : token ∈ Token.scanFrom 0 source.toList := List.mem_of_mem_filter member
    have sort : token.kind.sort = .quoted := by
      simp only [List.mem_cons, List.not_mem_nil, or_false] at isQuoted
      rcases isQuoted with kind | kind | kind <;> rw [kind] <;> rfl
    obtain ⟨quoting, contents, kind, text⟩ := Token.exists_write scanned sort
    have same : contents = value := by
      rw [kind] at isQuoted
      cases quoting <;> simpa [Quoting.kind] using isQuoted
    exact ⟨quoting, same ▸ kind, same ▸ text⟩

example : Quoting.double.write "a\"b" = "\"a\"\"b\"" := by decide +kernel

end SelectTree
