/-
Module: SelectTree.Proofs.Words.Part
Purpose: words that are cut at a comma or at a keyword keep their bracket groups.
Main exports: Words.Unclosed, Words.PartOf, Words.PartOf.of_splitCommas,
  Words.PartOf.of_firstKeyword?, Words.PartOf.of_lastKeyword?, Words.closeGroup?_eq_none_iff,
  Words.Balanced.drop_of_lastKeyword?, Words.Balanced.take_of_firstKeyword?
-/
import SelectTree.Proofs.Words.Cut

namespace SelectTree.Words

/-! ### Brackets that are not closed -/

/-- A bracket is opened and never closed. -/
def Unclosed (words : Words) (opening : Word) : Prop :=
  opening.kind = .leftParen ∧ ∃ behind, opening :: behind <:+ words ∧ closeGroup? 0 behind = none

/-- A group stays open as long as no bracket is closed that is not open. -/
theorem closeGroup?_eq_none_iff {depth : Nat} {words : Words} :
    closeGroup? depth words = none ↔ ∃ behind, openBehind? depth words = some behind := by
  induction words generalizing depth with
  | nil => simp [closeGroup?, openBehind?]
  | cons word words ih =>
      rw [closeGroup?_cons, openBehind?]
      cases closesNothing depth word with
      | true => simp
      | false => simpa using ih

/-- Balanced words leave no bracket open. -/
theorem Balanced.not_unclosed {words : Words} (balanced : words.Balanced) (opening : Word) :
    ¬ words.Unclosed opening := by
  rintro ⟨opens, behind, ⟨front, rfl⟩, unclosed⟩
  rw [Balanced, openBehind?_append] at balanced
  obtain ⟨outer, -, inside⟩ := Option.bind_eq_some_iff.1 balanced
  have opened : openBehind? (outer + 1) behind = some 0 := by
    simpa [openBehind?, closesNothing, opens, depthBehind] using inside
  obtain ⟨left, counted⟩ := closeGroup?_eq_none_iff.1 unclosed
  have stillOpen := openBehind?_add (outer + 1) counted
  rw [Nat.zero_add, opened] at stillOpen
  simp at stillOpen

/-- The words are some of the others, and no bracket lost the one that closes it. -/
structure PartOf (range words : Words) : Prop where
  mem : ∀ word ∈ range, word ∈ words
  unclosed : ∀ opening, range.Unclosed opening → words.Unclosed opening

namespace PartOf

variable {words range inner : Words}

theorem refl (words : Words) : words.PartOf words :=
  ⟨fun _ => id, fun _ => id⟩

theorem trans (one : inner.PartOf range) (two : range.PartOf words) : inner.PartOf words :=
  ⟨fun word member => two.mem word (one.mem word member),
    fun opening unclosed => two.unclosed opening (one.unclosed opening unclosed)⟩

/-- What is left of words closes what the words close. -/
theorem of_suffix (suffix : range <:+ words) : range.PartOf words where
  mem := fun _ member => suffix.subset member
  unclosed := by
    rintro opening ⟨opens, behind, inside, unclosed⟩
    exact ⟨opens, behind, inside.trans suffix, unclosed⟩

theorem of_balanced (balanced : range.Balanced) (mem : ∀ word ∈ range, word ∈ words) :
    range.PartOf words :=
  ⟨mem, fun opening unclosed => absurd unclosed (balanced.not_unclosed opening)⟩

/-- Words with one more in front. -/
theorem cons (part : range.PartOf words) (word : Word) : range.PartOf (word :: words) :=
  part.trans (.of_suffix (List.suffix_cons word words))

/-- The contents of a bracket group. -/
theorem of_group? {group : Group} (found : group? words = some group) :
    group.contents.PartOf words := by
  obtain ⟨-, balanced, closing, -, rfl⟩ := exists_of_group? found
  exact of_balanced balanced fun word member => by simp [member]

/-- The same word in front of both; a bracket must not lose the one that closes it. -/
theorem cons_cons {word : Word} (part : range.PartOf words)
    (kept : word.kind = .leftParen → closeGroup? 0 range = none → closeGroup? 0 words = none) :
    PartOf (word :: range) (word :: words) where
  mem := by
    intro other member
    rcases List.mem_cons.1 member with rfl | member
    · exact List.mem_cons_self
    · exact List.mem_cons_of_mem word (part.mem other member)
  unclosed := by
    rintro opening ⟨opens, behind, suffix, unclosed⟩
    rcases List.suffix_cons_iff.1 suffix with whole | further
    · cases whole
      exact ⟨opens, words, List.suffix_refl _, kept opens unclosed⟩
    · exact (part.cons word).unclosed opening ⟨opens, behind, further, unclosed⟩

end PartOf

/-! ### Commas and first keywords -/

/-- What is deeper before a word that closes nothing is deeper behind it. -/
theorem depthBehind_lt {inner depth : Nat} {word : Word} (inside : inner < depth)
    (opens : closesNothing inner word = false) :
    depthBehind inner word.kind < depthBehind depth word.kind := by
  obtain ⟨outer, rfl⟩ := Nat.exists_eq_add_of_lt inside
  rw [Nat.add_assoc, (depthBehind_add (outer + 1) opens).2]
  omega

/-- A group that is opened outside of a stretch is closed in front of the first cut. -/
theorem closeGroup?_of_segmentsFrom {words segment : Words} {segments : List Words}
    {inner depth : Nat} (split : segmentsFrom depth words = segment :: segments)
    (inside : inner < depth) (unclosed : closeGroup? inner segment = none) :
    closeGroup? inner words = none := by
  induction words generalizing inner depth segment segments with
  | nil => rfl
  | cons word words ih =>
      rw [segmentsFrom, if_neg (by simp [Nat.ne_zero_of_lt inside])] at split
      split at split
      · next none => exact absurd none (segmentsFrom_ne_nil _ words)
      · next first others more =>
          cases split
          rw [closeGroup?_cons] at unclosed ⊢
          cases closes : closesNothing inner word with
          | true => simp [closes] at unclosed
          | false =>
              simp only [closes, Bool.false_eq_true, if_false, Option.map_eq_none_iff] at unclosed ⊢
              exact ih more (depthBehind_lt inside closes) unclosed

theorem PartOf.of_segmentsFrom {words segment : Words} {depth : Nat}
    (member : segment ∈ segmentsFrom depth words) : segment.PartOf words := by
  induction words generalizing depth segment with
  | nil =>
      obtain rfl := List.mem_singleton.1 member
      exact .refl []
  | cons word words ih =>
      rw [segmentsFrom] at member
      split at member
      · rcases List.mem_cons.1 member with rfl | member
        · exact .of_suffix (List.nil_suffix)
        · exact (ih member).cons word
      · split at member
        · next none => exact absurd none (segmentsFrom_ne_nil _ words)
        · next first segments more =>
            rcases List.mem_cons.1 member with rfl | member
            · refine (ih (more ▸ List.mem_cons_self)).cons_cons fun opens => ?_
              have deeper : 0 < depthBehind depth word.kind := by simp [opens, depthBehind]
              exact closeGroup?_of_segmentsFrom more deeper
            · exact (ih (more ▸ List.mem_cons_of_mem first member)).cons word

/-- A comma segment cuts no bracket group. -/
theorem PartOf.of_splitCommas {words segment : Words} (member : segment ∈ splitCommas words) :
    segment.PartOf words := by
  cases words with
  | nil => cases member
  | cons word words => exact of_segmentsFrom member

theorem closeGroup?_of_breakTopFrom {isMember : Word → Bool} {words : Words} {inner depth : Nat}
    (inside : inner < depth)
    (unclosed : closeGroup? inner (breakTopFrom isMember depth words).1 = none) :
    closeGroup? inner words = none := by
  induction words generalizing inner depth with
  | nil => rfl
  | cons word words ih =>
      rw [breakTopFrom, if_neg (by simp [Nat.ne_zero_of_lt inside]), closeGroup?_cons] at unclosed
      rw [closeGroup?_cons]
      cases closes : closesNothing inner word with
      | true => simp [closes] at unclosed
      | false =>
          simp only [closes, Bool.false_eq_true, if_false, Option.map_eq_none_iff] at unclosed ⊢
          exact ih (depthBehind_lt inside closes) unclosed

/-- What stands in front of a word outside of every bracket cuts no bracket group. -/
theorem PartOf.of_breakTopFrom (isMember : Word → Bool) (depth : Nat) (words : Words) :
    (breakTopFrom isMember depth words).1.PartOf words := by
  induction words generalizing depth with
  | nil => exact .refl []
  | cons word words ih =>
      rw [breakTopFrom]
      split
      · exact .of_suffix List.nil_suffix
      · refine (ih _).cons_cons fun opens => ?_
        have deeper : 0 < depthBehind depth word.kind := by simp [opens, depthBehind]
        exact closeGroup?_of_breakTopFrom deeper

/-- What stands in front of the first keyword outside of every bracket. -/
theorem PartOf.of_firstKeyword? {keyword : Keyword} {words : Words} {place : Nat}
    (found : firstKeyword? keyword words = some place) : PartOf (words.take place) words := by
  rw [firstKeyword?] at found
  split at found
  · cases found
  · next front word rest cut =>
      cases found
      have parts := breakTopFrom_append (·.isKeyword keyword) 0 words
      have front_eq : (breakTopFrom (·.isKeyword keyword) 0 words).1 = front :=
        congrArg Prod.fst cut
      have part := of_breakTopFrom (·.isKeyword keyword) 0 words
      rw [front_eq] at parts part
      rw [← parts, List.take_left, parts]
      exact part

/-- What stands behind the first comma outside of every bracket. -/
theorem PartOf.of_textUntilComma (words : Words) : (textUntilComma words).2.PartOf words :=
  .of_suffix (suffix_textUntilComma words)

/-! ### Last keywords -/

/-- Walking backwards, a word that is no bracket at a depth of at least one is never the one that is
looked for. -/
theorem keywordFromEnd?_deep {keyword : Keyword} {depth : Nat} {word : Word} (words : Words)
    (plain : isBracket word.kind = false) :
    keywordFromEnd? keyword (depth + 1) (word :: words) =
      (keywordFromEnd? keyword (depth + 1) words).map (· + 1) := by
  obtain ⟨kind, text, glued, index⟩ := word
  cases kind <;> first | rfl | cases plain

/-- Walking backwards over a word takes back what it did to the depth. -/
theorem keywordFromEnd?_depthBehind {keyword : Keyword} {depth : Nat} {word : Word} (outer : Nat)
    (words : Words) (opens : closesNothing depth word = false) :
    keywordFromEnd? keyword (outer + depthBehind depth word.kind + 1) (word :: words) =
      (keywordFromEnd? keyword (outer + depth + 1) words).map (· + 1) := by
  by_cases plain : isBracket word.kind = false
  · rw [depthBehind_of_not_isBracket depth plain]
    exact keywordFromEnd?_deep words plain
  · obtain ⟨kind, text, glued, index⟩ := word
    cases kind with
    | leftParen => rfl
    | rightParen =>
        have inside : depth ≠ 0 := by simpa [closesNothing] using opens
        obtain ⟨depth, rfl⟩ := Nat.exists_eq_add_one_of_ne_zero inside
        rfl
    | _ => exact absurd rfl plain

/-- Walking backwards over words, the depth is counted like forwards, and what is looked for is
never inside of a bracket that is closed behind them. -/
theorem keywordFromEnd?_reverse_append {keyword : Keyword} {inner : Words} {depth left : Nat}
    (outer : Nat) (rest : Words) (counted : openBehind? depth inner = some left) :
    keywordFromEnd? keyword (outer + left + 1) (inner.reverse ++ rest) =
      (keywordFromEnd? keyword (outer + depth + 1) rest).map (· + inner.length) := by
  induction inner generalizing depth rest with
  | nil =>
      cases counted
      simp
  | cons word inner ih =>
      rw [openBehind?] at counted
      split at counted
      · cases counted
      · next opens =>
          rw [List.reverse_cons, List.append_assoc, List.singleton_append, ih _ counted,
            keywordFromEnd?_depthBehind outer rest (Bool.eq_false_iff.2 opens), Option.map_map]
          congr 1
          funext place
          simp only [Function.comp_apply, List.length_cons]
          omega

/-- What is looked for is among the first words, or behind them. -/
theorem keywordFromEnd?_append {keyword : Keyword} {first rest : Words} {depth behind : Nat}
    (found : keywordFromEnd? keyword depth (first ++ rest) = some behind) :
    behind < first.length ∨
      ∃ deeper place, keywordFromEnd? keyword deeper rest = some place ∧
        behind = place + first.length := by
  induction first generalizing depth behind with
  | nil => exact .inr ⟨depth, behind, found, rfl⟩
  | cons word first ih =>
      have further {depth : Nat}
          (found : (keywordFromEnd? keyword depth (first ++ rest)).map (· + 1) = some behind) :
          behind < (word :: first).length ∨
            ∃ deeper place, keywordFromEnd? keyword deeper rest = some place ∧
              behind = place + (word :: first).length := by
        obtain ⟨before, inside, rfl⟩ := Option.map_eq_some_iff.1 found
        rcases ih inside with short | ⟨deeper, place, there, rfl⟩
        · exact .inl (Nat.succ_lt_succ short)
        · exact .inr ⟨deeper, place, there, rfl⟩
      rw [List.cons_append, keywordFromEnd?] at found
      split at found
      · exact further found
      · exact further found
      · split at found
        · cases found
          exact .inl (Nat.succ_pos _)
        · exact further found

/-- No bracket that is opened in front of the last keyword is closed behind it. -/
theorem closeGroup?_of_keywordFromEnd? {keyword : Keyword} {front behind : Words} {word : Word}
    {depth : Nat} (isKeyword : word.kind = .keyword keyword)
    (found : keywordFromEnd? keyword depth (behind.reverse ++ word :: front) =
      some behind.length) (inner : Nat) : closeGroup? inner behind = none := by
  rcases closed : closeGroup? inner behind with _ | ⟨inside, after⟩
  · rfl
  obtain ⟨counted, closing, closes, rfl⟩ := exists_of_closeGroup? closed
  have plain : isBracket word.kind = false := by rw [isKeyword]; rfl
  rw [List.reverse_append, List.reverse_cons, List.append_assoc, List.append_assoc,
    List.singleton_append] at found
  rcases keywordFromEnd?_append found with short | ⟨outer, place, there, last⟩
  · simp only [List.length_append, List.length_cons, List.length_reverse] at short
    omega
  · have behindClosing : keywordFromEnd? keyword outer
        (closing :: (inside.reverse ++ word :: front)) =
          (keywordFromEnd? keyword (outer + 0 + 1) (inside.reverse ++ word :: front)).map
            (· + 1) := by
      rw [keywordFromEnd?, closes]
    rw [behindClosing, keywordFromEnd?_reverse_append outer _ counted,
      keywordFromEnd?_deep front plain, Option.map_map, Option.map_map] at there
    obtain ⟨further, -, rfl⟩ := Option.map_eq_some_iff.1 there
    simp only [List.length_append, List.length_cons, List.length_reverse,
      Function.comp_apply] at last
    omega

/-- Behind the last keyword outside of every bracket nothing is closed but what is opened there. -/
theorem closeGroup?_drop_of_lastKeyword? {keyword : Keyword} {words : Words} {place : Nat}
    (found : lastKeyword? keyword words = some place) (depth : Nat) :
    closeGroup? depth (words.drop (place + 1)) = none := by
  obtain ⟨word, isKeyword, split⟩ := exists_of_lastKeyword? found
  obtain ⟨last, there, rfl⟩ := Option.map_eq_some_iff.1 found
  generalize place_eq : words.length - 1 - last = place at *
  generalize words.drop (place + 1) = behind at split ⊢
  have reversed : words.reverse = behind.reverse ++ word :: (words.take place).reverse := by
    conv => lhs; rw [split]
    simp
  have isLast : last = behind.length := by
    obtain ⟨_, -, atPlace⟩ := exists_of_keywordFromEnd? there
    obtain ⟨short, -⟩ := List.getElem?_eq_some_iff.1 atPlace
    have lengths := congrArg List.length split
    simp only [List.length_append, List.length_cons, List.length_take] at lengths
    rw [List.length_reverse] at short
    omega
  rw [reversed, isLast] at there
  exact closeGroup?_of_keywordFromEnd? isKeyword there depth

/-- What stands in front of the last keyword outside of every bracket. -/
theorem PartOf.of_lastKeyword? {keyword : Keyword} {words : Words} {place : Nat}
    (found : lastKeyword? keyword words = some place) : PartOf (words.take place) words := by
  refine ⟨fun word member => List.mem_of_mem_take member, ?_⟩
  rintro opening ⟨opens, inside, ⟨front, isFront⟩, unclosed⟩
  obtain ⟨word, isKeyword, split⟩ := exists_of_lastKeyword? found
  refine ⟨opens, inside ++ word :: words.drop (place + 1), ⟨front, ?_⟩, ?_⟩
  · rw [← List.cons_append, ← List.append_assoc, isFront]
    exact split.symm
  · have plain : isBracket word.kind = false := by rw [isKeyword]; rfl
    obtain ⟨depth, counted⟩ := closeGroup?_eq_none_iff.1 unclosed
    obtain ⟨left, countedBehind⟩ :=
      closeGroup?_eq_none_iff.1 (closeGroup?_drop_of_lastKeyword? found depth)
    refine closeGroup?_eq_none_iff.2 ⟨left, ?_⟩
    rw [openBehind?_append, counted, Option.bind_some, openBehind?,
      closesNothing_of_not_isBracket depth plain, depthBehind_of_not_isBracket depth plain]
    exact countedBehind

/-! ### Parts of balanced words -/

namespace Balanced

/-- What follows the last keyword outside of every bracket. -/
theorem drop_of_lastKeyword? {words : Words} (balanced : words.Balanced) {keyword : Keyword}
    {place : Nat} (found : lastKeyword? keyword words = some place) :
    Balanced (words.drop (place + 1)) := by
  obtain ⟨word, isKeyword, split⟩ := exists_of_lastKeyword? found
  obtain ⟨left, counted⟩ := closeGroup?_eq_none_iff.1 (closeGroup?_drop_of_lastKeyword? found 0)
  -- Whatever depth the words in front leave, those behind the keyword only come back to it.
  rw [Balanced, split, openBehind?_append] at balanced
  obtain ⟨depth, -, inside⟩ := Option.bind_eq_some_iff.1 balanced
  have plain : isBracket word.kind = false := by rw [isKeyword]; rfl
  rw [openBehind?, closesNothing_of_not_isBracket depth plain,
    depthBehind_of_not_isBracket depth plain, if_neg Bool.false_ne_true] at inside
  have deeper := openBehind?_add depth counted
  rw [Nat.zero_add, inside, Option.some.injEq] at deeper
  obtain rfl : left = 0 := by omega
  exact counted

/-- What stands in front of the first keyword outside of every bracket. -/
theorem take_of_firstKeyword? {words : Words} (balanced : words.Balanced) {keyword : Keyword}
    {place : Nat} (found : firstKeyword? keyword words = some place) :
    Balanced (words.take place) := by
  rw [firstKeyword?] at found
  split at found
  · cases found
  · next front word rest cut =>
      cases found
      have front_eq : (breakTopFrom (·.isKeyword keyword) 0 words).1 = front :=
        congrArg Prod.fst cut
      have rest_eq : (breakTopFrom (·.isKeyword keyword) 0 words).2 = word :: rest :=
        congrArg Prod.snd cut
      have balancedFront := balanced_of_breakTopFrom balanced rest_eq
      have parts := breakTopFrom_append (·.isKeyword keyword) 0 words
      rw [front_eq] at balancedFront parts
      rw [← parts, List.take_left]
      exact balancedFront

end Balanced

end SelectTree.Words
