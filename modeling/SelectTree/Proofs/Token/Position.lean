/-
Module: SelectTree.Proofs.Token.Position
Purpose: the place that is worked out for a token is where the token stands, line breaks inside
  other tokens apart.
Main exports: Position.inBytes, Position.Before, Position.mask, position_eq_inBytes

Lines are counted in white space and comments only.  So the places are those of the source with the
line breaks inside all other tokens taken out of the way, byte for byte.
-/
import SelectTree.Proofs.Token.Tiling

namespace SelectTree

/-- The place lies in the span. -/
def Span.holds (span : Span) (place : Nat) : Bool :=
  span.start ≤ place && place < span.stop

namespace Position

/-- The byte that ends a line. -/
def newline : UInt8 :=
  10

/-- The bytes of a text in UTF-8. -/
def bytes (text : String) : List UInt8 :=
  text.toByteArray.data.toList

/-- Line and column of an offset, both read off the bytes in front of it. -/
def inBytes (bytes : List UInt8) (offset : Nat) : Position :=
  let before := bytes.take offset
  { line := before.count newline,
    column := (before.reverse.takeWhile (· ≠ newline)).length }

/-- The place is on an earlier line than the other, or on the same line and in an earlier column. -/
def Before (place other : Position) : Prop :=
  place.line < other.line ∨ place.line = other.line ∧ place.column < other.column

/-- The bytes, with another byte for every line break inside one of the tokens. -/
def mask (tokens : List Token) (other : UInt8) (bytes : List UInt8) : List UInt8 :=
  bytes.mapIdx fun place byte =>
    if byte = newline ∧ (tokens.any fun token => token.span.holds place) then other else byte

/-! ### Bytes of a text -/

theorem bytes_eq (text : String) : bytes text = text.toList.flatMap String.utf8EncodeChar := by
  rw [bytes, ← String.utf8Encode_toList, List.utf8Encode, List.data_toByteArray]

theorem bytes_append (text behind : String) :
    bytes (text ++ behind) = bytes text ++ bytes behind := by
  rw [bytes_eq, bytes_eq, bytes_eq, String.toList_append, List.flatMap_append]

theorem length_bytes (text : String) : (bytes text).length = text.utf8ByteSize := rfl

/-- The bytes of a character are a line break, or there is none among them. -/
theorem newline_notMem_utf8EncodeChar {c : Char} (other : c ≠ '\n') :
    newline ∉ String.utf8EncodeChar c := by
  have differs : c.toNat ≠ 10 := fun same => other (Char.ext (UInt32.toNat_inj.1 same))
  have ofNat_ne {n : Nat} (not : n % 256 ≠ 10) : newline ≠ UInt8.ofNat n := by
    intro same
    have value := congrArg UInt8.toNat same
    rw [UInt8.toNat_ofNat'] at value
    exact not value.symm
  unfold String.utf8EncodeChar
  rw [show c.val.toNat = c.toNat from rfl]
  dsimp only
  split
  · simpa using ofNat_ne (by omega)
  split
  · simp only [List.mem_cons, List.not_mem_nil, or_false, not_or]
    exact ⟨ofNat_ne (by omega), ofNat_ne (by omega)⟩
  split
  · simp only [List.mem_cons, List.not_mem_nil, or_false, not_or]
    exact ⟨ofNat_ne (by omega), ofNat_ne (by omega), ofNat_ne (by omega)⟩
  · simp only [List.mem_cons, List.not_mem_nil, or_false, not_or]
    exact ⟨ofNat_ne (by omega), ofNat_ne (by omega), ofNat_ne (by omega), ofNat_ne (by omega)⟩

theorem newline_notMem_bytes {text : String} (none : '\n' ∉ text.toList) :
    newline ∉ bytes text := by
  rw [bytes_eq]
  intro member
  obtain ⟨c, isIn, within⟩ := List.mem_flatMap.1 member
  exact newline_notMem_utf8EncodeChar (fun same => none (same ▸ isIn)) within

/-! ### Line starts -/

/-- The offsets just behind the line breaks of bytes that begin at an offset. -/
def starts (offset : Nat) : List UInt8 → List Nat
  | [] => []
  | byte :: bytes =>
      if byte = newline then (offset + 1) :: starts (offset + 1) bytes
      else starts (offset + 1) bytes

theorem starts_append (offset : Nat) (bytes behind : List UInt8) :
    starts offset (bytes ++ behind) =
      starts offset bytes ++ starts (offset + bytes.length) behind := by
  induction bytes generalizing offset with
  | nil => rfl
  | cons byte bytes ih =>
      rw [List.cons_append, starts, starts, ih, List.length_cons, Nat.add_assoc, Nat.add_comm 1]
      split <;> rfl

theorem starts_eq_nil {bytes : List UInt8} (none : newline ∉ bytes) (offset : Nat) :
    starts offset bytes = [] := by
  induction bytes generalizing offset with
  | nil => rfl
  | cons byte bytes ih =>
      rw [List.mem_cons, not_or] at none
      rw [starts, if_neg fun same => none.1 same.symm, ih none.2]

theorem length_starts (offset : Nat) (bytes : List UInt8) :
    (starts offset bytes).length = bytes.count newline := by
  induction bytes generalizing offset with
  | nil => rfl
  | cons byte bytes ih =>
      rw [starts]
      by_cases isNewline : byte = newline
      · rw [if_pos isNewline, List.length_cons, ih, isNewline, List.count_cons_self]
      · rw [if_neg isNewline, ih, List.count_cons_of_ne isNewline]

theorem starts_le {offset start : Nat} {bytes : List UInt8} (member : start ∈ starts offset bytes) :
    start ≤ offset + bytes.length := by
  induction bytes generalizing offset with
  | nil => cases member
  | cons byte bytes ih =>
      rw [List.length_cons]
      rw [starts] at member
      split at member
      · rcases List.mem_cons.1 member with rfl | further
        · omega
        · have := ih further
          omega
      · have := ih member
        omega

/-- The column is what is behind the last line start, by induction on the bytes from the end. -/
theorem column_eq (bytes : List UInt8) :
    (bytes.reverse.takeWhile (· ≠ newline)).length =
      bytes.length - (starts 0 bytes).getLast?.getD 0 := by
  induction bytes using List.reverseRecOn with
  | nil => rfl
  | append_singleton bytes byte ih =>
      rw [List.reverse_append, List.reverse_singleton, List.singleton_append, List.takeWhile_cons,
        starts_append, Nat.zero_add, List.length_append, List.length_singleton]
      by_cases isNewline : byte = newline
      · simp [isNewline, starts]
      · have last : (starts 0 bytes).getLast?.getD 0 ≤ bytes.length := by
          cases found : (starts 0 bytes).getLast? with
          | none => exact Nat.zero_le _
          | some start => simpa using starts_le (List.mem_of_getLast? found)
        simp only [isNewline, starts, if_false, List.append_nil, ne_eq, not_false_eq_true,
          decide_true, if_true, List.length_cons, ih]
        omega

/-- The line starts of a text are those of its bytes. -/
theorem lineStarts_eq (offset : Nat) (text : List Char) :
    lineStarts offset text = starts offset (text.flatMap String.utf8EncodeChar) := by
  induction text generalizing offset with
  | nil => rfl
  | cons c cs ih =>
      rw [lineStarts, List.flatMap_cons, starts_append, String.length_utf8EncodeChar, ih]
      by_cases isNewline : c = '\n'
      · subst isNewline
        rfl
      · rw [starts_eq_nil (newline_notMem_utf8EncodeChar isNewline)]
        simp [isNewline]

/-- Behind some bytes, line and column are given by the line starts among them. -/
theorem inBytes_append (bytes behind : List UInt8) :
    inBytes (bytes ++ behind) bytes.length =
      { line := (starts 0 bytes).length,
        column := bytes.length - (starts 0 bytes).getLast?.getD 0 } := by
  rw [inBytes, List.take_left, length_starts, ← column_eq]

/-- A later offset is a later place. -/
theorem before_of_lt {bytes : List UInt8} {offset later : Nat} (isLater : offset < later)
    (within : later ≤ bytes.length) : Before (inBytes bytes offset) (inBytes bytes later) := by
  obtain ⟨between, parts⟩ : bytes.take offset <+: bytes.take later :=
    List.take_prefix_take_left (Nat.le_of_lt isLater)
  have some : 0 < between.length := by
    have length := congrArg List.length parts
    simp only [List.length_append, List.length_take] at length
    omega
  by_cases breaks : newline ∈ between
  · left
    simp only [inBytes, ← parts, List.count_append]
    exact Nat.lt_add_of_pos_right (List.count_pos_iff.2 breaks)
  · right
    have goesOn : ∀ byte ∈ between.reverse, (decide (byte ≠ newline)) = true := by
      intro byte member
      rw [List.mem_reverse] at member
      exact decide_eq_true fun same => breaks (same ▸ member)
    simp only [inBytes, ← parts, List.count_append, List.count_eq_zero.2 breaks, Nat.add_zero,
      List.reverse_append, List.takeWhile_append_of_pos goesOn, List.length_append,
      List.length_reverse]
    exact ⟨trivial, Nat.lt_add_of_pos_left some⟩

theorem Before.ne {place other : Position} (before : place.Before other) : place ≠ other := by
  rintro rfl
  rcases before with line | ⟨_, column⟩
  · exact Nat.lt_irrefl _ line
  · exact Nat.lt_irrefl _ column

end Position

/-! ### Tokens with their line breaks replaced -/

namespace Token

open Position (newline bytes starts lineStarts)

variable {other : UInt8}

/-- The bytes of a token, with another byte for every line break unless the token is trivia. -/
def maskedBytes (other : UInt8) (token : Token) : List UInt8 :=
  (bytes token.text).map fun byte =>
    if byte = newline ∧ !token.kind.isTrivia then other else byte

theorem length_maskedBytes (other : UInt8) (token : Token) :
    (token.maskedBytes other).length = token.text.utf8ByteSize := by
  rw [maskedBytes, List.length_map, Position.length_bytes]

/-- Only line breaks of tokens that matter are replaced. -/
theorem maskedBytes_eq {token : Token}
    (kept : token.kind.isTrivia = false → '\n' ∉ token.text.toList) (other : UInt8) :
    token.maskedBytes other = bytes token.text := by
  refine (List.map_congr_left fun byte member => if_neg ?_).trans (List.map_id _)
  rintro ⟨rfl, isMatter⟩
  exact Position.newline_notMem_bytes (kept (by simpa using isMatter)) member

/-- Lines start in trivia only. -/
theorem starts_maskedBytes (proper : other ≠ newline) (offset : Nat) (token : Token) :
    starts offset (token.maskedBytes other) =
      if token.kind.isTrivia then lineStarts offset token.text.toList else [] := by
  split
  · next isTrivia =>
      rw [maskedBytes_eq (by simp [isTrivia]), Position.bytes_eq, Position.lineStarts_eq]
  · next isMatter =>
      apply Position.starts_eq_nil
      intro member
      obtain ⟨byte, _, same⟩ := List.mem_map.1 member
      split at same
      · exact proper same
      · next kept => exact kept ⟨same, by simpa using isMatter⟩

namespace Covers

variable {offset : Nat} {tokens : List Token} {source : String}

/-- The tokens cover the source in two parts. -/
theorem split {front back : List Token} (covers : Covers offset (front ++ back) source) :
    ∃ before behind, source = before ++ behind ∧ Covers offset front before ∧
      Covers (offset + before.utf8ByteSize) back behind := by
  induction front generalizing offset source with
  | nil => exact ⟨"", source, by simp, .nil offset, by simpa using covers⟩
  | cons token front ih =>
      cases covers with
      | cons solid placed closed covers =>
          obtain ⟨before, behind, rfl, one, two⟩ := ih covers
          have closedFront (unclosed : token.kind.isUnclosed = true) : front = [] :=
            (List.append_eq_nil_iff.1 (closed unclosed)).1
          refine ⟨token.text ++ before, behind, by rw [String.append_assoc], ?_, ?_⟩
          · exact .cons solid placed closedFront one
          · rw [placed] at two
            rwa [String.utf8ByteSize_append, ← Nat.add_assoc]

theorem length_maskedBytes (covers : Covers offset tokens source) (other : UInt8) :
    (tokens.flatMap (maskedBytes other)).length = source.utf8ByteSize := by
  induction covers with
  | nil => rfl
  | cons _ _ _ _ ih =>
      rw [List.flatMap_cons, List.length_append, Token.length_maskedBytes, ih,
        String.utf8ByteSize_append]

/-- The line starts are those of the trivia. -/
theorem starts_eq (covers : Covers offset tokens source) (proper : other ≠ newline) :
    starts offset (tokens.flatMap (maskedBytes other)) =
      (tokens.filter fun token => token.kind.isTrivia).flatMap fun token =>
        lineStarts token.span.start token.text.toList := by
  induction covers with
  | nil => rfl
  | cons _ placed _ _ ih =>
      rw [List.flatMap_cons, Position.starts_append, Token.length_maskedBytes,
        starts_maskedBytes proper, List.filter_cons]
      rw [placed] at ih
      rw [ih]
      split
      · rw [List.flatMap_cons, placed]
      · rw [List.nil_append]

/-- No token behind an offset holds a place in front of it. -/
theorem holds_eq_false (covers : Covers offset tokens source) {place : Nat}
    (before : place < offset) {token : Token} (member : token ∈ tokens) :
    token.span.holds place = false := by
  have after := covers.start_le member
  simp only [Span.holds, Bool.and_eq_false_iff, decide_eq_false_iff_not]
  omega

/-- Inside the first token only the first token holds anything. -/
theorem any_holds_inside {first : Token} (covers : Covers first.span.stop tokens source)
    (placed : first.span = { start := offset, stop := offset + first.text.utf8ByteSize })
    {place : Nat} (inside : place < first.text.utf8ByteSize) :
    (((first :: tokens).filter fun token => !token.kind.isTrivia).any fun token =>
      token.span.holds (offset + place)) = !first.kind.isTrivia := by
  have within : first.span.holds (offset + place) = true := by
    rw [placed]
    simpa [Span.holds] using inside
  have before : offset + place < first.span.stop := by
    rw [placed]
    exact Nat.add_lt_add_left inside offset
  cases isTrivia : first.kind.isTrivia with
  | false =>
      rw [List.filter_cons_of_pos (by simp [isTrivia]), List.any_cons, within]
      rfl
  | true =>
      rw [List.filter_cons_of_neg (by simp [isTrivia])]
      refine List.any_eq_false.2 fun token member => ?_
      rw [covers.holds_eq_false before (List.mem_of_mem_filter member)]
      exact Bool.false_ne_true

/-- Behind the first token the first token holds nothing. -/
theorem any_holds_behind {first : Token}
    (placed : first.span = { start := offset, stop := offset + first.text.utf8ByteSize })
    (place : Nat) :
    (((first :: tokens).filter fun token => !token.kind.isTrivia).any fun token =>
        token.span.holds (offset + (place + first.text.utf8ByteSize))) =
      (tokens.filter fun token => !token.kind.isTrivia).any fun token =>
        token.span.holds (first.span.stop + place) := by
  have same : offset + (place + first.text.utf8ByteSize) = first.span.stop + place := by
    rw [placed, Nat.add_assoc, Nat.add_comm place]
  have behind : first.span.holds (first.span.stop + place) = false := by
    simp [Span.holds]
  rw [same, List.filter_cons]
  split
  · rw [List.any_cons, behind, Bool.false_or]
  · rfl

/-- Masking the source masks its tokens one by one. -/
theorem mask_eq (covers : Covers offset tokens source) (other : UInt8) :
    ((bytes source).mapIdx fun place byte =>
        if byte = newline ∧ ((tokens.filter fun token => !token.kind.isTrivia).any fun token =>
          token.span.holds (offset + place)) then other else byte) =
      tokens.flatMap (maskedBytes other) := by
  induction covers with
  | nil => rfl
  | @cons offset first others rest _ placed _ covers ih =>
      rw [Position.bytes_append, List.mapIdx_append, List.flatMap_cons, ← ih,
        Position.length_bytes]
      congr 1
      · refine List.ext_getElem ?_ fun place isIn _ => ?_
        · rw [List.length_mapIdx, Token.length_maskedBytes, Position.length_bytes]
        · rw [List.length_mapIdx, Position.length_bytes] at isIn
          simp only [List.getElem_mapIdx, maskedBytes, List.getElem_map,
            covers.any_holds_inside placed isIn]
      · refine List.mapIdx_eq_mapIdx_iff.2 fun place _ => ?_
        rw [any_holds_behind placed]

theorem bytes_eq (covers : Covers offset tokens source)
    (kept : ∀ token ∈ tokens, token.kind.isTrivia = false → '\n' ∉ token.text.toList)
    (other : UInt8) : bytes source = tokens.flatMap (maskedBytes other) := by
  induction covers with
  | nil => rfl
  | @cons offset first others rest _ _ _ _ ih =>
      rw [Position.bytes_append, List.flatMap_cons,
        maskedBytes_eq (kept first List.mem_cons_self),
        ih fun token member => kept token (List.mem_cons_of_mem first member)]

/-- Only trivia in front of a token begin in front of it. -/
theorem takeWhile_trivia {front back : List Token} {token : Token}
    (covers : Covers offset (front ++ token :: back) source)
    (isMatter : token.kind.isTrivia = false) :
    ((front ++ token :: back).filter fun token => token.kind.isTrivia).takeWhile
        (fun earlier => earlier.span.start < token.span.start) =
      front.filter fun token => token.kind.isTrivia := by
  have ordered := covers.ordered
  rw [List.pairwise_append] at ordered
  obtain ⟨_, orderedBack, across⟩ := ordered
  have inFront : ∀ earlier ∈ front.filter fun token => token.kind.isTrivia,
      decide (earlier.span.start < token.span.start) = true := by
    intro earlier member
    have isFront := List.mem_of_mem_filter member
    have solid := covers.start_lt_stop (List.mem_append_left _ isFront)
    have ends := across earlier isFront token List.mem_cons_self
    exact decide_eq_true (Nat.lt_of_lt_of_le solid ends)
  rw [List.filter_append, List.filter_cons_of_neg (by simp [isMatter]),
    List.takeWhile_append_of_pos inFront]
  cases atBack : back.filter fun token => token.kind.isTrivia with
  | nil => exact List.append_nil _
  | cons first others =>
      have member : first ∈ back := List.mem_of_mem_filter (atBack ▸ List.mem_cons_self)
      have behind := (List.pairwise_cons.1 orderedBack).1 first member
      have solid := covers.start_lt_stop (List.mem_append_right front List.mem_cons_self)
      have later : ¬ (decide (first.span.start < token.span.start)) = true := by
        rw [decide_eq_true_eq]
        omega
      rw [List.takeWhile_cons, if_neg later, List.append_nil]

/-- The place of a token that matters is told by the masked bytes of the tokens in front of it. -/
theorem ofOffset_eq {front back : List Token} {token : Token}
    (covers : Covers 0 (front ++ token :: back) source) (isMatter : token.kind.isTrivia = false)
    (proper : other ≠ newline) (behind : List UInt8) :
    Position.ofOffset ((front ++ token :: back).filter fun token => token.kind.isTrivia)
        token.span.start =
      Position.inBytes (front.flatMap (maskedBytes other) ++ behind) token.span.start := by
  obtain ⟨before, _, rfl, coversFront, coversBack⟩ := covers.split
  have start : token.span.start = (front.flatMap (maskedBytes other)).length := by
    rw [coversFront.length_maskedBytes]
    simpa using coversBack.head_start token rfl
  rw [Position.ofOffset, covers.takeWhile_trivia isMatter, ← coversFront.starts_eq proper, start,
    Position.inBytes_append]

theorem ofOffset_eq_masked (covers : Covers 0 tokens source) {token : Token}
    (member : token ∈ tokens) (isMatter : token.kind.isTrivia = false) (proper : other ≠ newline) :
    Position.ofOffset (tokens.filter fun token => token.kind.isTrivia) token.span.start =
      Position.inBytes (tokens.flatMap (maskedBytes other)) token.span.start := by
  obtain ⟨front, back, rfl⟩ := List.append_of_mem member
  rw [List.flatMap_append]
  exact covers.ofOffset_eq isMatter proper _

/-- Without line breaks in front of it inside tokens that matter, a token is where it seems. -/
theorem ofOffset_eq_bytes (covers : Covers 0 tokens source) {token : Token}
    (member : token ∈ tokens) (isMatter : token.kind.isTrivia = false)
    (flat : ∀ earlier ∈ tokens, earlier.kind.isTrivia = false →
      earlier.span.start < token.span.start → '\n' ∉ earlier.text.toList) :
    Position.ofOffset (tokens.filter fun token => token.kind.isTrivia) token.span.start =
      Position.inBytes (bytes source) token.span.start := by
  obtain ⟨front, back, rfl⟩ := List.append_of_mem member
  obtain ⟨before, behind, rfl, coversFront, _⟩ := covers.split
  have ordered := (List.pairwise_append.1 covers.ordered).2.2
  have flatFront : ∀ earlier ∈ front, earlier.kind.isTrivia = false →
      '\n' ∉ earlier.text.toList := by
    intro earlier isFront matters
    have solid := coversFront.start_lt_stop isFront
    have before := ordered earlier isFront token List.mem_cons_self
    exact flat earlier (List.mem_append_left _ isFront) matters (Nat.lt_of_lt_of_le solid before)
  rw [Position.bytes_append, coversFront.bytes_eq flatFront 0]
  exact covers.ofOffset_eq isMatter (by decide) _

/-- Among the masked bytes later tokens are at later places. -/
theorem pairwise_before (covers : Covers 0 tokens source) (other : UInt8) :
    tokens.Pairwise fun token later =>
      (Position.inBytes (tokens.flatMap (maskedBytes other)) token.span.start).Before
        (Position.inBytes (tokens.flatMap (maskedBytes other)) later.span.start) := by
  refine covers.ordered.imp_of_mem fun {token later} isIn isLater ordered => ?_
  have solid := covers.start_lt_stop isIn
  obtain ⟨before, behind, parts, _, start, _⟩ := covers.exists_split isLater
  apply Position.before_of_lt (Nat.lt_of_lt_of_le solid ordered)
  rw [covers.length_maskedBytes, start, Nat.zero_add, parts, String.utf8ByteSize_append,
    String.utf8ByteSize_append]
  omega

end Covers

end Token

/-- Whatever the source is, the place of each token that matters is its place in the source with all
line breaks inside such tokens replaced.  So it is the place in the source itself if no such token
in front of it has a line break.  Later tokens are at later places. -/
theorem position_eq_inBytes (source : String) :
    let stream := TokenStream.ofString source
    let place := fun token : Token => Position.ofOffset stream.trivia token.span.start
    (∀ token ∈ stream.tokens,
      (∀ other ≠ Position.newline,
        place token = Position.inBytes
          (Position.mask stream.tokens other (Position.bytes source)) token.span.start) ∧
      ((∀ earlier ∈ stream.tokens, earlier.span.start < token.span.start →
          '\n' ∉ earlier.text.toList) →
        place token = Position.inBytes (Position.bytes source) token.span.start)) ∧
      (stream.tokens.Pairwise fun token later => (place token).Before (place later)) ∧
      (stream.tokens.map place).Nodup := by
  intro stream place
  have covers := TokenStream.covers_scanAll source
  have masked (other : UInt8) : Position.mask stream.tokens other (Position.bytes source) =
      (Token.scanAll source.toList).flatMap (Token.maskedBytes other) := by
    rw [← covers.mask_eq other]
    simp [Position.mask, stream, TokenStream.ofString]
  have matters : ∀ token ∈ stream.tokens, token.kind.isTrivia = false := fun token member => by
    simpa using (List.mem_filter.1 member).2
  have places : ∀ token ∈ stream.tokens, ∀ other ≠ Position.newline,
      place token = Position.inBytes
        (Position.mask stream.tokens other (Position.bytes source)) token.span.start := by
    intro token member other proper
    rw [masked]
    exact covers.ofOffset_eq_masked (List.mem_of_mem_filter member) (matters token member) proper
  have later : stream.tokens.Pairwise fun token later => (place token).Before (place later) := by
    refine ((covers.pairwise_before 0).filter _).imp_of_mem fun isToken isLater before => ?_
    rw [places _ isToken 0 (by decide), places _ isLater 0 (by decide), masked]
    exact before
  refine ⟨fun token member => ⟨places token member, fun flat => ?_⟩, later, ?_⟩
  · refine covers.ofOffset_eq_bytes (List.mem_of_mem_filter member) (matters token member) ?_
    intro earlier isIn matter
    exact flat earlier (List.mem_filter.2 ⟨isIn, by simp [matter]⟩)
  · rw [List.nodup_iff_pairwise_ne, List.pairwise_map]
    exact later.imp Position.Before.ne

/-- A line break in a string ends no line, one in a comment does. -/
example : (TokenStream.ofString "'a\nb' /*\n*/ c").tokens.map
    (fun token => Position.ofOffset (TokenStream.ofString "'a\nb' /*\n*/ c").trivia
      token.span.start) = [⟨0, 0⟩, ⟨1, 3⟩] := by
  decide +kernel

end SelectTree
