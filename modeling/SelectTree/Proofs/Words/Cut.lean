/-
Module: SelectTree.Proofs.Words.Cut
Purpose: words that are cut at a keyword or at a comma are the parts with that word between them.
Main exports: Words.exists_of_firstKeyword?, Words.exists_of_lastKeyword?,
  Words.exists_of_textUntilComma, Words.exists_of_commaTextsUpTo, Words.sublist_of_splitCommas
-/
import SelectTree.Proofs.Words.Balance

namespace SelectTree.Words

/-- The word in front of which words are cut is of the class. -/
theorem isMember_of_breakTopFrom {isMember : Word → Bool} {words rest : Words} {word : Word}
    {depth : Nat} (found : (breakTopFrom isMember depth words).2 = word :: rest) :
    isMember word = true := by
  induction words generalizing depth with
  | nil => cases found
  | cons next words ih =>
      rw [breakTopFrom] at found
      split at found
      · next here =>
          cases found
          simp only [Bool.and_eq_true] at here
          exact here.2
      · exact ih found

/-- The first keyword stands between what is before it and what is behind it. -/
theorem exists_of_firstKeyword? {keyword : Keyword} {words : Words} {place : Nat}
    (found : firstKeyword? keyword words = some place) :
    ∃ word : Word, word.kind = .keyword keyword ∧
      words = words.take place ++ word :: words.drop (place + 1) := by
  rw [firstKeyword?] at found
  split at found
  · cases found
  · next front word rest cut =>
      cases found
      have rest_eq : (breakTopFrom (·.isKeyword keyword) 0 words).2 = word :: rest :=
        congrArg Prod.snd cut
      have isKeyword := isMember_of_breakTopFrom rest_eq
      have parts := breakTopFrom_append (·.isKeyword keyword) 0 words
      rw [← breakTop, cut] at parts
      refine ⟨word, by simpa [Word.isKeyword] using isKeyword, ?_⟩
      simp [← parts, List.drop_append]

theorem exists_of_keywordFromEnd? {keyword : Keyword} {depth behind : Nat} {words : Words}
    (found : keywordFromEnd? keyword depth words = some behind) :
    ∃ word : Word, word.kind = .keyword keyword ∧ words[behind]? = some word := by
  induction words generalizing depth behind with
  | nil => cases found
  | cons word words ih =>
      have further {depth : Nat}
          (found : (keywordFromEnd? keyword depth words).map (· + 1) = some behind) :
          ∃ word' : Word, word'.kind = .keyword keyword ∧
            (word :: words)[behind]? = some word' := by
        obtain ⟨place, inside, rfl⟩ := Option.map_eq_some_iff.1 found
        exact ih inside
      rw [keywordFromEnd?] at found
      split at found
      · exact further found
      · exact further found
      · split at found
        · next here =>
            cases found
            simp only [Bool.and_eq_true, beq_iff_eq] at here
            exact ⟨word, here.2, rfl⟩
        · exact further found

/-- The last keyword stands between what is before it and what is behind it. -/
theorem exists_of_lastKeyword? {keyword : Keyword} {words : Words} {place : Nat}
    (found : lastKeyword? keyword words = some place) :
    ∃ word : Word, word.kind = .keyword keyword ∧
      words = words.take place ++ word :: words.drop (place + 1) := by
  obtain ⟨behind, inside, rfl⟩ := Option.map_eq_some_iff.1 found
  obtain ⟨word, isKeyword, there⟩ := exists_of_keywordFromEnd? inside
  obtain ⟨short, -⟩ := List.getElem?_eq_some_iff.1 there
  rw [List.length_reverse] at short
  rw [List.getElem?_reverse short] at there
  obtain ⟨within, same⟩ := List.getElem?_eq_some_iff.1 there
  refine ⟨word, isKeyword, ?_⟩
  rw [← same, ← List.drop_eq_getElem_cons, List.take_append_drop]

/-- A text up to a comma is the text of the words before it, which are balanced if all words are.
If there is no comma nothing is behind. -/
theorem exists_of_textUntilComma (words : Words) :
    ∃ front, (textUntilComma words).1 = front.text ∧ (words.Balanced → front.Balanced) ∧
      (words = front ∧ (textUntilComma words).2 = [] ∨
        ∃ comma : Word, comma.kind = .comma ∧
          words = front ++ comma :: (textUntilComma words).2) := by
  have parts : (breakTop isComma words).1 ++ (breakTop isComma words).2 = words :=
    breakTopFrom_append isComma 0 words
  have behind_eq : (textUntilComma words).2 = (breakTop isComma words).2.tail := rfl
  rw [behind_eq]
  cases rest : (breakTop isComma words).2 with
  | nil =>
      rw [rest, List.append_nil] at parts
      exact ⟨(breakTop isComma words).1, rfl, fun balanced => parts.symm ▸ balanced,
        .inl ⟨parts.symm, rfl⟩⟩
  | cons comma behind =>
      have isComma := isMember_of_breakTopFrom rest
      rw [rest] at parts
      exact ⟨_, rfl, fun balanced => balanced_of_breakTopFrom balanced rest,
        .inr ⟨comma, by simpa [Words.isComma] using isComma, parts.symm⟩⟩

/-- Behind a text up to a comma the last words are left. -/
theorem suffix_textUntilComma (words : Words) : (textUntilComma words).2 <:+ words := by
  obtain ⟨front, -, -, ⟨-, none⟩ | ⟨comma, -, split⟩⟩ := exists_of_textUntilComma words
  · rw [none]
    exact List.nil_suffix
  · refine ⟨front ++ [comma], ?_⟩
    rw [List.append_assoc]
    exact split.symm

/-- Reading a text up to a comma leaves fewer words, if there are any. -/
theorem length_textUntilComma_le (words : Words) :
    (textUntilComma words).2.length ≤ words.length - 1 := by
  obtain ⟨front, -, -, ⟨-, none⟩ | ⟨comma, -, split⟩⟩ := exists_of_textUntilComma words
  · simp [none]
  · have lengths := congrArg List.length split
    rw [List.length_append, List.length_cons] at lengths
    omega

/-- The texts of a comma list are the text of some words in front, and either nothing is behind them
or a comma and the words of the other texts. -/
theorem exists_of_commaTextsUpTo {count : Nat} {words : Words} {text : String} {texts : List String}
    (enough : words.length ≤ count + 1) (cut : commaTextsUpTo (count + 1) words = text :: texts) :
    ∃ front, front.text = text ∧ (words.Balanced → front.Balanced) ∧
      (words = front ∧ texts = [] ∨
        ∃ (comma : Word) (behind : Words), comma.kind = .comma ∧ words = front ++ comma :: behind ∧
          behind.length ≤ count ∧ commaTextsUpTo count behind = texts) := by
  cases words with
  | nil => cases cut
  | cons word words =>
      obtain ⟨front, isFront, balanced, found⟩ := exists_of_textUntilComma (word :: words)
      have first : commaTextsUpTo (count + 1) (word :: words) =
          (textUntilComma (word :: words)).1 ::
            commaTextsUpTo count (textUntilComma (word :: words)).2 := rfl
      rw [first, List.cons.injEq] at cut
      obtain ⟨isText, others⟩ := cut
      refine ⟨front, isFront.symm.trans isText, balanced, ?_⟩
      rcases found with ⟨whole, none⟩ | ⟨comma, isComma, split⟩
      · rw [none, commaTextsUpTo] at others
        exact .inl ⟨whole, others.symm⟩
      · refine .inr ⟨comma, _, isComma, split, ?_, others⟩
        have length := congrArg List.length split
        rw [List.length_append, List.length_cons, List.length_cons] at length
        rw [List.length_cons] at enough
        omega

theorem sublist_of_segmentsFrom {words segment : Words} {depth : Nat}
    (member : segment ∈ segmentsFrom depth words) : segment.Sublist words := by
  induction words generalizing depth segment with
  | nil =>
      obtain rfl := List.mem_singleton.1 member
      exact .slnil
  | cons word words ih =>
      rw [segmentsFrom] at member
      split at member
      · rcases List.mem_cons.1 member with rfl | member
        · exact List.nil_sublist _
        · exact (ih member).cons word
      · split at member
        · next none => exact absurd none (segmentsFrom_ne_nil _ words)
        · next first segments more =>
            rcases List.mem_cons.1 member with rfl | member
            · exact (ih (more ▸ List.mem_cons_self)).cons_cons word
            · exact (ih (more ▸ List.mem_cons_of_mem first member)).cons word

/-- A comma segment leaves out words, and nothing else. -/
theorem sublist_of_splitCommas {words segment : Words} (member : segment ∈ splitCommas words) :
    segment.Sublist words := by
  cases words with
  | nil => cases member
  | cons word words => exact sublist_of_segmentsFrom member

end SelectTree.Words
