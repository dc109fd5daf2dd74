/-
Module: SelectTree.Proofs.Words.Segments
Purpose: words that are cut at the commas outside of every bracket, all at once and one after the
  other.
Main exports: Words.Uncut, Words.Joined, Words.segmentsFrom_eq, Words.comma_induction,
  Words.reported, Words.commaTexts_eq, Cursor.ReadsTexts, Cursor.commas_divide

Segments are found in one pass that carries the depth along; texts up to a comma are read by looking
for the first comma again and again, each time from depth zero.  Both cut at the same commas,
because a comma is only cut at where the depth is zero.
-/
import SelectTree.Proofs.Words.Outside

namespace SelectTree

namespace Words

variable {words front rest segment : Words} {comma : Word} {depth : Nat}

theorem isBracket_of_isComma {word : Word} (comma : isComma word = true) :
    isBracket word.kind = false := by
  rw [isComma, beq_iff_eq] at comma
  rw [comma]
  rfl

/-- No comma of the words is outside of every bracket. -/
def Uncut (words : Words) : Prop :=
  ∀ place, ¬ OutsideAt isComma 0 words place

/-- The words are the segments with one comma between any two of them, which is outside of every
bracket of the segment in front of it. -/
inductive Joined : List Words → Words → Prop where
  | last (segment : Words) : Joined [segment] segment
  | more {segment words : Words} {segments : List Words} {comma : Word} :
      depthAfter 0 segment = 0 → comma.kind = .comma → Joined segments words →
      Joined (segment :: segments) (segment ++ comma :: words)

/-! ### The first comma -/

theorem uncut_of_breakTop (cut : breakTop isComma words = (front, [])) :
    front = words ∧ words.Uncut := by
  have parts := breakTopFrom_append isComma 0 words
  rw [← breakTop, cut, List.append_nil] at parts
  exact ⟨parts, not_outsideAt_of_breakTopFrom (fun _ => isBracket_of_isComma)
    (congrArg Prod.snd cut)⟩

/-- The first comma outside of every bracket, what is before it and what is behind it. -/
theorem first_comma_of_breakTop (cut : breakTop isComma words = (front, comma :: rest)) :
    words = front ++ comma :: rest ∧ comma.kind = .comma ∧ depthAfter 0 front = 0 ∧
      front.Uncut := by
  have front_eq : (breakTopFrom isComma 0 words).1 = front := congrArg Prod.fst cut
  have found : (breakTopFrom isComma 0 words).2 = comma :: rest := congrArg Prod.snd cut
  have parts := breakTopFrom_append isComma 0 words
  rw [front_eq, found] at parts
  have least := isLeast_of_breakTopFrom (fun _ => isBracket_of_isComma) found
  rw [front_eq, ← parts] at least
  obtain ⟨isComma, outside⟩ := outsideAt_length.1 least.1
  refine ⟨parts.symm, by simpa [Words.isComma] using isComma, outside, fun place inFront => ?_⟩
  exact Nat.not_lt_of_le (least.2 inFront.append_right) inFront.lt_length

/-- Words are uncut, or they are cut at their first comma outside of every bracket. -/
theorem comma_induction {motive : Words → Prop}
    (uncut : ∀ words, breakTop isComma words = (words, []) → motive words)
    (cut : ∀ words front comma rest, breakTop isComma words = (front, comma :: rest) →
      motive rest → motive words) (words : Words) : motive words := by
  induction length : words.length using Nat.strongRecOn generalizing words with
  | ind size ih =>
      rcases found : breakTop isComma words with ⟨front, _ | ⟨comma, rest⟩⟩
      · obtain ⟨rfl, -⟩ := uncut_of_breakTop found
        exact uncut _ found
      · refine cut words front comma rest found (ih rest.length ?_ rest rfl)
        obtain ⟨rfl, -⟩ := first_comma_of_breakTop found
        rw [← length, List.length_append, List.length_cons]
        omega

/-! ### Segments -/

/-- The first segment goes up to the first comma outside of every bracket, and the others are those
of what is behind it. -/
theorem segmentsFrom_eq (depth : Nat) (words : Words) :
    segmentsFrom depth words =
      match breakTopFrom isComma depth words with
      | (front, []) => [front]
      | (front, _ :: rest) => front :: segmentsFrom 0 rest := by
  induction words generalizing depth with
  | nil => rfl
  | cons word words ih =>
      rw [segmentsFrom, breakTopFrom]
      by_cases here : depth = 0 ∧ isComma word = true
      · simp [here.1, here.2, isBracket_of_isComma here.2]
      · have goesOn : (depth = 0 && isComma word) = false := by simpa using here
        have further : (depth = 0 && !isBracket word.kind && isComma word) = false := by
          rw [Bool.and_right_comm, goesOn, Bool.false_and]
        rw [if_neg (Bool.eq_false_iff.1 goesOn), if_neg (Bool.eq_false_iff.1 further), ih]
        rcases breakTopFrom isComma (depthBehind depth word.kind) words
          with ⟨front, _ | ⟨comma, rest⟩⟩ <;> rfl

theorem segmentsFrom_of_uncut (uncut : breakTop isComma words = (words, [])) :
    segmentsFrom 0 words = [words] := by
  rw [segmentsFrom_eq, ← breakTop, uncut]

theorem segmentsFrom_of_cut (cut : breakTop isComma words = (front, comma :: rest)) :
    segmentsFrom 0 words = front :: segmentsFrom 0 rest := by
  rw [segmentsFrom_eq, ← breakTop, cut]

theorem joined_segmentsFrom (words : Words) : Joined (segmentsFrom 0 words) words := by
  induction words using comma_induction with
  | uncut words uncut =>
      rw [segmentsFrom_of_uncut uncut]
      exact .last words
  | cut words front comma rest cut ih =>
      obtain ⟨rfl, isComma, outside, -⟩ := first_comma_of_breakTop cut
      rw [segmentsFrom_of_cut cut]
      exact .more outside isComma ih

theorem uncut_of_mem_segmentsFrom (member : segment ∈ segmentsFrom 0 words) : segment.Uncut := by
  induction words using comma_induction with
  | uncut words uncut =>
      rw [segmentsFrom_of_uncut uncut] at member
      obtain rfl := List.mem_singleton.1 member
      exact (uncut_of_breakTop uncut).2
  | cut words front comma rest cut ih =>
      rw [segmentsFrom_of_cut cut] at member
      rcases List.mem_cons.1 member with rfl | behind
      · exact (first_comma_of_breakTop cut).2.2.2
      · exact ih behind

/-- At a comma outside of every bracket balanced words are cut into balanced parts. -/
theorem Joined.balanced {segments : List Words} (joined : Joined segments words)
    (balanced : words.Balanced) : ∀ segment ∈ segments, Balanced segment := by
  induction joined with
  | last whole =>
      intro segment member
      obtain rfl := List.mem_singleton.1 member
      exact balanced
  | more outside isComma _ ih =>
      obtain ⟨first, behind⟩ := balanced.of_depthAfter outside
      have plain : isBracket _ = false := isBracket_of_isComma (beq_iff_eq.2 isComma)
      intro segment member
      rcases List.mem_cons.1 member with rfl | further
      · exact first
      · exact ih (behind.of_cons plain) segment further

theorem Joined.mem {segments : List Words} (joined : Joined segments words) {word : Word}
    (inside : word ∈ segment) (member : segment ∈ segments) : word ∈ words := by
  induction joined with
  | last whole => exact List.mem_singleton.1 member ▸ inside
  | more _ _ _ ih =>
      rcases List.mem_cons.1 member with rfl | further
      · exact List.mem_append_left _ inside
      · exact List.mem_append_right _ (List.mem_cons_of_mem _ (ih further))

theorem splitCommas_of_ne_nil (filled : words ≠ []) :
    splitCommas words = segmentsFrom 0 words := by
  cases words with
  | nil => exact absurd rfl filled
  | cons word words => rfl

/-- Without words there is no segment, and otherwise the segments are joined to the words. -/
theorem splitCommas_nil_or_joined (words : Words) :
    words = [] ∧ splitCommas words = [] ∨ words ≠ [] ∧ Joined (splitCommas words) words := by
  by_cases none : words = []
  · exact .inl ⟨none, none ▸ rfl⟩
  · exact .inr ⟨none, splitCommas_of_ne_nil none ▸ joined_segmentsFrom words⟩

theorem splitCommas_eq_nil_iff : splitCommas words = [] ↔ words = [] := by
  cases words with
  | nil => exact ⟨fun _ => rfl, fun _ => rfl⟩
  | cons word words => exact ⟨fun none => absurd none (segmentsFrom_ne_nil 0 _), nofun⟩

theorem mem_segmentsFrom_of_mem_splitCommas (member : segment ∈ splitCommas words) :
    segment ∈ segmentsFrom 0 words := by
  cases words with
  | nil => cases member
  | cons word words => exact member

/-! ### Texts -/

/-- The segments that are reported when the texts of a list are read one after the other: all but an
empty last one. -/
def reported : List Words → List Words
  | [] => []
  | [segment] => if segment = [] then [] else [segment]
  | segment :: segments => segment :: reported segments

theorem reported_cons (segment : Words) {segments : List Words} (others : segments ≠ []) :
    reported (segment :: segments) = segment :: reported segments := by
  obtain ⟨next, further, rfl⟩ := List.exists_cons_of_ne_nil others
  rfl

/-- Where nothing is left behind a comma there is an empty segment, and it is not reported. -/
theorem reported_segmentsFrom (words : Words) :
    reported (segmentsFrom 0 words) = reported (splitCommas words) := by
  cases words with
  | nil => rfl
  | cons word words => rfl

/-- The first text and those of what is behind its comma. -/
theorem reported_splitCommas (filled : words ≠ []) :
    (reported (splitCommas words)).map Words.text =
      (textUntilComma words).1 ::
        (reported (splitCommas (textUntilComma words).2)).map Words.text := by
  rw [splitCommas_of_ne_nil filled, textUntilComma]
  rcases found : breakTop isComma words with ⟨front, _ | ⟨comma, rest⟩⟩
  · obtain ⟨rfl, -⟩ := uncut_of_breakTop found
    rw [segmentsFrom_of_uncut found, reported, if_neg filled]
    rfl
  · rw [segmentsFrom_of_cut found, reported_cons front (segmentsFrom_ne_nil 0 rest),
      reported_segmentsFrom]
    rfl

theorem commaTextsUpTo_eq {count : Nat} (enough : words.length ≤ count) :
    commaTextsUpTo count words = (reported (splitCommas words)).map Words.text := by
  induction count generalizing words with
  | zero =>
      obtain rfl := List.eq_nil_of_length_eq_zero (Nat.le_zero.1 enough)
      rfl
  | succ count ih =>
      cases words with
      | nil => rfl
      | cons word words =>
          have fewer := length_textUntilComma_le (word :: words)
          rw [reported_splitCommas (List.cons_ne_nil word words), ← ih (by omega)]
          rfl

theorem reported_eq (segments : List Words) :
    reported segments = if segments.getLast? = some [] then segments.dropLast else segments := by
  induction segments with
  | nil => rfl
  | cons segment segments ih =>
      cases segments with
      | nil => simp [reported]
      | cons next segments =>
          rw [reported_cons segment (List.cons_ne_nil next segments), ih,
            List.getLast?_cons_cons, List.dropLast_cons_cons]
          split <;> rfl

theorem mem_of_mem_reported {segments : List Words} (member : segment ∈ reported segments) :
    segment ∈ segments := by
  rw [reported_eq] at member
  split at member
  · exact List.dropLast_subset _ member
  · exact member

/-- An empty segment is reported, unless it is the last one. -/
theorem nil_mem_reported_iff (segments : List Words) :
    [] ∈ reported segments ↔ [] ∈ segments.dropLast := by
  rw [reported_eq]
  split
  · exact Iff.rfl
  · next filled =>
      refine ⟨fun member => ?_, (List.dropLast_subset _ ·)⟩
      obtain ⟨others, last, rfl⟩ := (List.eq_nil_or_concat segments).resolve_left
        (List.ne_nil_of_mem member)
      rw [List.concat_eq_append] at member filled ⊢
      rw [List.getLast?_concat] at filled
      rw [List.dropLast_concat]
      rcases List.mem_append.1 member with inFront | isLast
      · exact inFront
      · exact absurd (congrArg some (List.mem_singleton.1 isLast).symm) filled

/-- Words that are not empty have a text. -/
theorem text_eq_empty_iff (solid : ∀ word ∈ words, word.text ≠ "") :
    words.text = "" ↔ words = [] := by
  cases words with
  | nil => exact ⟨fun _ => rfl, fun _ => rfl⟩
  | cons word words =>
      have some : word.text ≠ "" := solid word List.mem_cons_self
      simp [text, some]

/-- The texts of a comma list are those of its segments, without an empty last one. -/
theorem commaTexts_eq (words : Words) :
    commaTexts words = (reported (splitCommas words)).map Words.text :=
  commaTextsUpTo_eq (Nat.le_refl _)

end Words

namespace Cursor

variable {cursor : Cursor} {texts : List String} {left : Words}

theorem rest_leaving (suffix : left <:+ cursor.rest) : (cursor.leaving left).rest = left := by
  have inRange : left <:+ cursor.range := suffix.trans (List.drop_suffix _ _)
  change cursor.range.drop (min (cursor.range.length - left.length) cursor.range.length) = left
  rw [Nat.min_eq_left (Nat.sub_le ..)]
  exact (List.suffix_iff_eq_drop.1 inRange).symm

theorem rest_textUntilComma (cursor : Cursor) :
    cursor.textUntilComma.2.rest = (Words.textUntilComma cursor.rest).2 :=
  rest_leaving (Words.suffix_textUntilComma cursor.rest)

theorem remaining_eq_zero_iff : cursor.remaining = 0 ↔ cursor.rest = [] := by
  rw [← List.length_eq_zero_iff, rest, List.length_drop, remaining]

/-- The texts are read one after the other, each up to the next comma outside of every bracket,
while words are left. -/
inductive ReadsTexts : Cursor → List String → Prop where
  | done {cursor : Cursor} : cursor.remaining = 0 → ReadsTexts cursor []
  | more {cursor : Cursor} {texts : List String} :
      cursor.remaining ≠ 0 → ReadsTexts cursor.textUntilComma.2 texts →
      ReadsTexts cursor (cursor.textUntilComma.1 :: texts)

/-- One after the other, the texts of the segments are read. -/
theorem ReadsTexts.eq_texts (reads : cursor.ReadsTexts texts) :
    texts = (Words.reported (Words.splitCommas cursor.rest)).map Words.text := by
  induction reads with
  | done atEnd =>
      rw [remaining_eq_zero_iff.1 atEnd]
      rfl
  | more further _ ih =>
      rw [ih, rest_textUntilComma,
        Words.reported_splitCommas fun none => further (remaining_eq_zero_iff.2 none)]
      rfl

/-- Reading one text after the other comes to an end. -/
theorem exists_readsTexts (cursor : Cursor) : ∃ texts, cursor.ReadsTexts texts := by
  induction size : cursor.rest.length using Nat.strongRecOn generalizing cursor with
  | ind size ih =>
      by_cases atEnd : cursor.remaining = 0
      · exact ⟨[], .done atEnd⟩
      · have fewer := Words.length_textUntilComma_le cursor.rest
        have some : cursor.rest.length ≠ 0 := fun none =>
          atEnd (remaining_eq_zero_iff.2 (List.length_eq_zero_iff.1 none))
        rw [← rest_textUntilComma] at fewer
        obtain ⟨texts, reads⟩ := ih _ (by omega) cursor.textUntilComma.2 rfl
        exact ⟨_, .more atEnd reads⟩

/-- All that is left at a cursor is cut at the commas outside of every bracket: without words there
is no segment, and otherwise the words are the segments with those commas between them.  If the
words are balanced, so is every segment.  The texts that are read one after the other are those of
the segments, in their order and without an empty last one. -/
theorem commas_divide (cursor : Cursor) :
    (cursor.splitCommas.2.range = cursor.range ∧ cursor.splitCommas.2.remaining = 0) ∧
    (cursor.rest = [] ∧ cursor.splitCommas.1 = [] ∨
      cursor.rest ≠ [] ∧ Words.Joined cursor.splitCommas.1 cursor.rest) ∧
    (∀ segment ∈ cursor.splitCommas.1, ∀ place, ¬ Words.OutsideAt Words.isComma 0 segment place) ∧
    (cursor.rest.Balanced → ∀ segment ∈ cursor.splitCommas.1, Words.Balanced segment) ∧
    ∀ texts, cursor.ReadsTexts texts ↔
      texts = (Words.reported cursor.splitCommas.1).map Words.text := by
  have segments_eq : cursor.splitCommas.1 = Words.splitCommas cursor.rest := rfl
  have consumed : cursor.splitCommas.2.remaining = 0 :=
    remaining_eq_zero_iff.2 (rest_leaving List.nil_suffix)
  have texts_iff (texts : List String) : cursor.ReadsTexts texts ↔
      texts = (Words.reported cursor.splitCommas.1).map Words.text := by
    constructor
    · exact fun reads => reads.eq_texts
    · rintro rfl
      obtain ⟨texts, reads⟩ := exists_readsTexts cursor
      rwa [segments_eq, ← reads.eq_texts]
  refine ⟨⟨rfl, consumed⟩, Words.splitCommas_nil_or_joined cursor.rest, ?_, ?_, texts_iff⟩
  · intro segment member
    exact Words.uncut_of_mem_segmentsFrom (Words.mem_segmentsFrom_of_mem_splitCommas member)
  · intro balanced segment member
    exact (Words.joined_segmentsFrom cursor.rest).balanced balanced segment
      (Words.mem_segmentsFrom_of_mem_splitCommas member)

/-- Two items that are empty, of which only the one that is not the last is reported. -/
theorem commas_divide_emptyItems :
    let cursor := Cursor.start (TokenStream.ofString "f(a, b), , c,").words
    cursor.rest.Balanced ∧
      (∀ segment ∈ cursor.splitCommas.1, Words.Balanced segment) ∧
      cursor.splitCommas.1.map Words.text = ["f(a, b)", "", "c", ""] ∧
      cursor.ReadsTexts ["f(a, b)", "", "c"] := by
  intro cursor
  have balanced : cursor.rest.Balanced := by decide +kernel
  have texts : ["f(a, b)", "", "c"] =
      (Words.reported cursor.splitCommas.1).map Words.text := by decide +kernel
  obtain ⟨-, -, -, segmentsBalanced, reads⟩ := commas_divide cursor
  exact ⟨balanced, segmentsBalanced balanced, by decide +kernel, (reads _).2 texts⟩

end Cursor

end SelectTree
