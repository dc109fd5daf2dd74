/-
Module: SelectTree.Proofs.Words.Outside
Purpose: the places of words that are outside of every bracket, and the keywords that are found
  there from either end.
Main exports: Words.depthAfter, Words.OutsideAt, Words.isLeast_of_breakTopFrom,
  Words.outsidePlaces, Cursor.keywords_outside

Depth is counted forwards and never goes below zero.  A scan from the end counts closing brackets
instead of opening ones, and stops at zero as well; in balanced words the two counts are the same at
every place.
-/
import Mathlib.Data.List.Induction
import Mathlib.Order.Bounds.Basic
import SelectTree.Cursor
import SelectTree.Proofs.Words.Cut

namespace SelectTree

namespace Words

variable {isMember : Word → Bool} {keyword : Keyword} {depth inner place : Nat} {word : Word}
  {words front rest : Words}

/-! ### Depth -/

/-- The depth behind words that begin at a depth. -/
def depthAfter (depth : Nat) (words : Words) : Nat :=
  words.foldl (fun depth word => depthBehind depth word.kind) depth

@[simp] theorem depthAfter_nil (depth : Nat) : depthAfter depth [] = depth := rfl

@[simp] theorem depthAfter_cons (depth : Nat) (word : Word) (words : Words) :
    depthAfter depth (word :: words) = depthAfter (depthBehind depth word.kind) words := rfl

/-- Where no bracket is closed that is not open, the depth is the number of open brackets. -/
theorem depthAfter_of_openBehind? (counted : openBehind? depth words = some inner) :
    depthAfter depth words = inner := by
  induction words generalizing depth with
  | nil => exact Option.some.inj counted
  | cons word words ih =>
      rw [openBehind?] at counted
      split at counted
      · cases counted
      · exact ih counted

/-- A front of balanced words at the end of which no bracket is open, and what is behind it. -/
theorem Balanced.of_depthAfter (balanced : Balanced (front ++ rest))
    (outside : depthAfter 0 front = 0) : front.Balanced ∧ rest.Balanced := by
  have whole := balanced
  rw [Balanced, openBehind?_append] at balanced
  obtain ⟨open', counted, -⟩ := Option.bind_eq_some_iff.1 balanced
  obtain rfl : open' = 0 := (depthAfter_of_openBehind? counted).symm.trans outside
  exact ⟨counted, whole.of_append counted⟩

/-! ### Places outside of every bracket -/

/-- At this place of words that begin at a depth there is a word of the class, outside of every
bracket. -/
def OutsideAt (isMember : Word → Bool) (depth : Nat) (words : Words) (place : Nat) : Prop :=
  words[place]?.any isMember = true ∧ depthAfter depth (words.take place) = 0

instance : Decidable (OutsideAt isMember depth words place) :=
  inferInstanceAs (Decidable (_ ∧ _))

theorem OutsideAt.lt_length (outside : OutsideAt isMember depth words place) :
    place < words.length := by
  refine Nat.lt_of_not_le fun le => ?_
  have found := outside.1
  rw [List.getElem?_eq_none le] at found
  cases found

theorem not_outsideAt_nil : ¬ OutsideAt isMember depth [] place :=
  fun outside => Nat.not_lt_zero place outside.lt_length

theorem outsideAt_zero :
    OutsideAt isMember depth (word :: words) 0 ↔ isMember word = true ∧ depth = 0 :=
  Iff.rfl

theorem outsideAt_succ :
    OutsideAt isMember depth (word :: words) (place + 1) ↔
      OutsideAt isMember (depthBehind depth word.kind) words place :=
  Iff.rfl

theorem outsideAt_length :
    OutsideAt isMember depth (front ++ word :: rest) front.length ↔
      isMember word = true ∧ depthAfter depth front = 0 := by
  simp [OutsideAt]

/-- What follows does not matter for the places in front of it. -/
theorem OutsideAt.append_right (outside : OutsideAt isMember depth front place) :
    OutsideAt isMember depth (front ++ rest) place := by
  have before := outside.lt_length
  rwa [OutsideAt, List.getElem?_append_left before,
    List.take_append_of_le_length (Nat.le_of_lt before)]

/-- Words with one more behind them. -/
theorem outsideAt_concat :
    OutsideAt isMember depth (words ++ [word]) place ↔
      OutsideAt isMember depth words place ∨
        place = words.length ∧ isMember word = true ∧ depthAfter depth words = 0 := by
  rcases Nat.lt_trichotomy place words.length with before | rfl | behind
  · have other : place ≠ words.length := Nat.ne_of_lt before
    simp [OutsideAt, other, List.getElem?_append_left before,
      List.take_append_of_le_length (Nat.le_of_lt before)]
  · rw [outsideAt_length]
    simp [OutsideAt]
  · have long : (words ++ [word]).length ≤ place := by simpa using Nat.succ_le_of_lt behind
    constructor
    · exact fun outside => absurd outside.lt_length (Nat.not_lt_of_le long)
    · rintro (outside | ⟨rfl, -⟩)
      · exact absurd outside.lt_length (Nat.lt_asymm behind)
      · exact absurd behind (Nat.lt_irrefl _)

/-! ### From the front -/

section Front

/-- In front of the cut nothing of the class is outside of every bracket. -/
theorem not_outsideAt_of_lt_breakTopFrom
    (plain : ∀ word, isMember word = true → isBracket word.kind = false)
    (before : place < (breakTopFrom isMember depth words).1.length) :
    ¬ OutsideAt isMember depth words place := by
  induction words generalizing depth place with
  | nil => exact not_outsideAt_nil
  | cons word words ih =>
      rw [breakTopFrom] at before
      split at before
      · exact absurd before (Nat.not_lt_zero place)
      · next further =>
          cases place with
          | zero =>
              rintro ⟨member, outside⟩
              obtain rfl : depth = 0 := outside
              have isMember : isMember word = true := member
              exact further (by simp [isMember, plain word isMember])
          | succ place => exact ih (Nat.lt_of_succ_lt_succ before)

theorem outsideAt_of_breakTopFrom
    (found : (breakTopFrom isMember depth words).2 = word :: rest) :
    OutsideAt isMember depth words (breakTopFrom isMember depth words).1.length := by
  induction words generalizing depth with
  | nil => cases found
  | cons next words ih =>
      rw [breakTopFrom] at found ⊢
      split
      · next here =>
          simp only [Bool.and_eq_true, decide_eq_true_eq] at here
          exact outsideAt_zero.2 ⟨here.2, here.1.1⟩
      · next further =>
          rw [if_neg further] at found
          exact outsideAt_succ.2 (ih found)

/-- Words are cut at the first place of the class that is outside of every bracket. -/
theorem isLeast_of_breakTopFrom
    (plain : ∀ word, isMember word = true → isBracket word.kind = false)
    (found : (breakTopFrom isMember depth words).2 = word :: rest) :
    IsLeast {place | OutsideAt isMember depth words place}
      (breakTopFrom isMember depth words).1.length :=
  ⟨outsideAt_of_breakTopFrom found, fun _ outside =>
    Nat.le_of_not_lt fun before => not_outsideAt_of_lt_breakTopFrom plain before outside⟩

/-- Words that are not cut have no such place. -/
theorem not_outsideAt_of_breakTopFrom
    (plain : ∀ word, isMember word = true → isBracket word.kind = false)
    (found : (breakTopFrom isMember depth words).2 = []) (place : Nat) :
    ¬ OutsideAt isMember depth words place := by
  intro outside
  have whole := breakTopFrom_append isMember depth words
  rw [found, List.append_nil] at whole
  exact not_outsideAt_of_lt_breakTopFrom plain (whole.symm ▸ outside.lt_length) outside

theorem isBracket_of_isKeyword (isKeyword : word.isKeyword keyword = true) :
    isBracket word.kind = false := by
  rw [Word.isKeyword, beq_iff_eq] at isKeyword
  rw [isKeyword]
  rfl

end Front

/-! ### From the end -/

section End

/-- Walking backwards over a word takes back what it did to the depth, and the keyword is found
where no bracket is open in front of it. -/
theorem keywordFromEnd?_cons (before : Words) (opens : closesNothing depth word = false) :
    keywordFromEnd? keyword (depthBehind depth word.kind) (word :: before) =
      if word.isKeyword keyword = true ∧ depth = 0 then some 0
      else (keywordFromEnd? keyword depth before).map (· + 1) := by
  obtain ⟨kind, text, glued, index⟩ := word
  cases kind with
  | rightParen =>
      have inside : depth ≠ 0 := by simpa [closesNothing] using opens
      obtain ⟨depth, rfl⟩ := Nat.exists_eq_add_one_of_ne_zero inside
      simp [keywordFromEnd?, depthBehind, Word.isKeyword]
  | keyword other =>
      by_cases outside : depth = 0 <;>
        simp [keywordFromEnd?, depthBehind, Word.isKeyword, outside]
  | _ => simp [keywordFromEnd?, depthBehind, Word.isKeyword]

theorem exists_of_openBehind?_concat (counted : openBehind? 0 (words ++ [word]) = some depth) :
    ∃ before, openBehind? 0 words = some before ∧ closesNothing before word = false ∧
      depth = depthBehind before word.kind := by
  rw [openBehind?_append] at counted
  obtain ⟨before, inFront, behind⟩ := Option.bind_eq_some_iff.1 counted
  rw [openBehind?] at behind
  split at behind
  · cases behind
  · next opens => exact ⟨before, inFront, Bool.eq_false_iff.2 opens, (Option.some.inj behind).symm⟩

/-- Backwards from the end of words that close no bracket that is not open, a place outside of every
bracket is found. -/
theorem outsideAt_of_keywordFromEnd? {behind : Nat} (counted : openBehind? 0 words = some depth)
    (found : keywordFromEnd? keyword depth words.reverse = some behind) :
    OutsideAt (·.isKeyword keyword) 0 words (words.length - 1 - behind) := by
  induction words using List.reverseRecOn generalizing depth behind with
  | nil => cases found
  | append_singleton words word ih =>
      obtain ⟨before, inFront, opens, rfl⟩ := exists_of_openBehind?_concat counted
      rw [List.reverse_concat, keywordFromEnd?_cons _ opens] at found
      split at found
      · next here =>
          obtain rfl : 0 = behind := Option.some.inj found
          have last : (words ++ [word]).length - 1 - 0 = words.length := by simp
          rw [last, outsideAt_length]
          exact ⟨here.1, (depthAfter_of_openBehind? inFront).trans here.2⟩
      · obtain ⟨behind, further, rfl⟩ := Option.map_eq_some_iff.1 found
        have shifted : (words ++ [word]).length - 1 - (behind + 1) = words.length - 1 - behind := by
          rw [List.length_append, List.length_singleton]
          omega
        rw [shifted, outsideAt_concat]
        exact .inl (ih inFront further)

/-- No place outside of every bracket is behind the one that is found. -/
theorem exists_of_outsideAt (counted : openBehind? 0 words = some depth)
    (outside : OutsideAt (·.isKeyword keyword) 0 words place) :
    ∃ behind, keywordFromEnd? keyword depth words.reverse = some behind ∧
      place + behind < words.length := by
  induction words using List.reverseRecOn generalizing depth with
  | nil => exact absurd outside not_outsideAt_nil
  | append_singleton words word ih =>
      obtain ⟨before, inFront, opens, rfl⟩ := exists_of_openBehind?_concat counted
      rw [List.reverse_concat, keywordFromEnd?_cons _ opens]
      rcases outsideAt_concat.1 outside with inside | ⟨rfl, isKeyword, atTop⟩
      · obtain ⟨behind, found, short⟩ := ih inFront inside
        split
        · exact ⟨0, rfl, outside.lt_length⟩
        · refine ⟨behind + 1, by rw [found]; rfl, ?_⟩
          rw [List.length_append, List.length_singleton]
          omega
      · rw [depthAfter_of_openBehind? inFront] at atTop
        rw [if_pos ⟨isKeyword, atTop⟩]
        exact ⟨0, rfl, by simp⟩

end End

/-! ### Keywords -/

/-- The places at which a keyword stands outside of every bracket. -/
def outsidePlaces (keyword : Keyword) (words : Words) : Set Nat :=
  {place | OutsideAt (·.isKeyword keyword) 0 words place}

/-- Whatever the brackets are, the first keyword is at its first place outside of them. -/
theorem isLeast_of_firstKeyword? (found : firstKeyword? keyword words = some place) :
    IsLeast (outsidePlaces keyword words) place := by
  rw [firstKeyword?] at found
  split at found
  · cases found
  · next front word rest cut =>
      cases found
      have front_eq : (breakTopFrom (·.isKeyword keyword) 0 words).1 = front :=
        congrArg Prod.fst cut
      rw [← front_eq]
      exact isLeast_of_breakTopFrom (fun _ => isBracket_of_isKeyword) (congrArg Prod.snd cut)

theorem outsidePlaces_of_firstKeyword? (absent : firstKeyword? keyword words = none) :
    outsidePlaces keyword words = ∅ := by
  rw [firstKeyword?] at absent
  split at absent
  · next front cut =>
      exact Set.eq_empty_of_forall_notMem
        (not_outsideAt_of_breakTopFrom (fun _ => isBracket_of_isKeyword) (congrArg Prod.snd cut))
  · cases absent

/-- In balanced words the keyword that is found from the end is at its last place outside of every
bracket. -/
theorem Balanced.isGreatest_of_lastKeyword? (balanced : words.Balanced)
    (found : lastKeyword? keyword words = some place) :
    IsGreatest (outsidePlaces keyword words) place := by
  obtain ⟨behind, fromEnd, rfl⟩ := Option.map_eq_some_iff.1 found
  refine ⟨outsideAt_of_keywordFromEnd? balanced fromEnd, fun other outside => ?_⟩
  obtain ⟨same, fromEnd', before⟩ := exists_of_outsideAt balanced outside
  obtain rfl : same = behind := Option.some.inj (fromEnd'.symm.trans fromEnd)
  omega

theorem Balanced.outsidePlaces_of_lastKeyword? (balanced : words.Balanced)
    (absent : lastKeyword? keyword words = none) : outsidePlaces keyword words = ∅ := by
  refine Set.eq_empty_of_forall_notMem fun place outside => ?_
  obtain ⟨behind, found, -⟩ := exists_of_outsideAt balanced outside
  rw [lastKeyword?, found] at absent
  cases absent

/-- A search that answers with an extreme place, or with nothing if there is no place, answers with
a place exactly if this is the extreme one. -/
theorem search_iff {found : Option Nat} {places : Set Nat} {IsExtreme : Set Nat → Nat → Prop}
    (mem : ∀ {place}, IsExtreme places place → place ∈ places)
    (unique : ∀ {one two}, IsExtreme places one → IsExtreme places two → one = two)
    (present : ∀ {place}, found = some place → IsExtreme places place)
    (absent : found = none → places = ∅) :
    (∀ place, found = some place ↔ IsExtreme places place) ∧ (found = none ↔ places = ∅) := by
  cases found with
  | none =>
      have none := absent rfl
      refine ⟨fun place => ⟨nofun, fun extreme => ?_⟩, fun _ => none, fun _ => rfl⟩
      exact absurd (mem extreme) (none ▸ Set.notMem_empty place)
  | some answer =>
      have extreme := present rfl
      refine ⟨fun place => ⟨present, fun also => congrArg some (unique extreme also)⟩, nofun, ?_⟩
      intro none
      exact absurd (mem extreme) (none ▸ Set.notMem_empty answer)

end Words

/-- In the balanced words at a cursor, the keyword that is found from the end is the last one and
the keyword that is found from the front is the first one of those outside of every bracket, and
each is missing exactly if there is none.  Cut at any of them, the words are two balanced parts, of
which the second begins with the keyword. -/
theorem Cursor.keywords_outside (cursor : Cursor) (keyword : Keyword)
    (balanced : cursor.rest.Balanced) :
    ((∀ place, Words.lastKeyword? keyword cursor.rest = some place ↔
        IsGreatest (cursor.rest.outsidePlaces keyword) place) ∧
      (Words.lastKeyword? keyword cursor.rest = none ↔ cursor.rest.outsidePlaces keyword = ∅)) ∧
    ((∀ place, Words.firstKeyword? keyword cursor.rest = some place ↔
        IsLeast (cursor.rest.outsidePlaces keyword) place) ∧
      (Words.firstKeyword? keyword cursor.rest = none ↔ cursor.rest.outsidePlaces keyword = ∅)) ∧
    ∀ place ∈ cursor.rest.outsidePlaces keyword,
      (cursor.splitAt place).1.Balanced ∧ (cursor.splitAt place).2.Balanced ∧
        (cursor.splitAt place).1 ++ (cursor.splitAt place).2 = cursor.rest ∧
        (cursor.splitAt place).2.head?.any (·.isKeyword keyword) = true := by
  refine ⟨Words.search_iff (fun greatest => greatest.1) (fun one two => one.unique two)
    balanced.isGreatest_of_lastKeyword? balanced.outsidePlaces_of_lastKeyword?,
    Words.search_iff (fun least => least.1) (fun one two => one.unique two)
      Words.isLeast_of_firstKeyword? Words.outsidePlaces_of_firstKeyword?, ?_⟩
  intro place outside
  have parts : cursor.splitAt place = (cursor.rest.take place, cursor.rest.drop place) :=
    List.splitAt_eq
  rw [parts]
  have whole := List.take_append_drop place cursor.rest
  obtain ⟨first, second⟩ := (whole.symm ▸ balanced).of_depthAfter outside.2
  refine ⟨first, second, whole, ?_⟩
  rw [List.head?_drop]
  exact outside.1

/-- The words behind the first two of `x AS (a AS b) AS c AS (AS)`. -/
def Cursor.nestedTypes : Cursor :=
  (Cursor.start (TokenStream.ofString "x AS (a AS b) AS c AS (AS)").words).advance 2

/-- Of the four keywords that are left, the second and the third are outside of every bracket. -/
theorem Cursor.keywords_outside_nestedTypes :
    nestedTypes.rest.Balanced ∧
      Words.lastKeyword? .AS nestedTypes.rest = some 7 ∧
      IsGreatest (nestedTypes.rest.outsidePlaces .AS) 7 ∧
      Words.firstKeyword? .AS nestedTypes.rest = some 5 ∧
      IsLeast (nestedTypes.rest.outsidePlaces .AS) 5 ∧
      (nestedTypes.splitAt 7).1.Balanced ∧ (nestedTypes.splitAt 7).2.Balanced := by
  have balanced : nestedTypes.rest.Balanced := by decide +kernel
  have last : Words.lastKeyword? .AS nestedTypes.rest = some 7 := by decide +kernel
  have first : Words.firstKeyword? .AS nestedTypes.rest = some 5 := by decide +kernel
  obtain ⟨⟨isLast, -⟩, ⟨isFirst, -⟩, cuts⟩ := keywords_outside nestedTypes .AS balanced
  have greatest := (isLast 7).1 last
  obtain ⟨front, back, -, -⟩ := cuts 7 greatest.1
  exact ⟨balanced, last, greatest, first, (isFirst 5).1 first, front, back⟩

end SelectTree
