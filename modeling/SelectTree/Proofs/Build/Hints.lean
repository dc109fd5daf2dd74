/-
Module: SelectTree.Proofs.Build.Hints
Purpose: which lists of hints are accepted, and what is kept of them.
Main exports: Grammar.optionHints_apply, Words.empty_mem_reported_iff, Build.hints_kept

The rule reads one hint after the other while words are left.  So it refuses every empty hint in
front of a comma, and does not see that nothing is left behind the last one.
-/
import SelectTree.Proofs.Build.Progress
import SelectTree.Proofs.Token.Respelling
import SelectTree.Proofs.Words.Segments

namespace SelectTree

/-! ### Empty hints -/

namespace Words

variable {words : Words}

/-- Where every word has a text, a text is empty exactly for an empty segment in front of a
comma. -/
theorem empty_mem_reported_iff (solid : ∀ word ∈ words, word.text ≠ "") :
    "" ∈ (reported (splitCommas words)).map text ↔ [] ∈ (splitCommas words).dropLast := by
  rw [← nil_mem_reported_iff, List.mem_map]
  constructor
  · rintro ⟨segment, member, vacant⟩
    have inside := mem_segmentsFrom_of_mem_splitCommas (mem_of_mem_reported member)
    have solidToo : ∀ word ∈ segment, word.text ≠ "" := fun word isIn =>
      solid word ((joined_segmentsFrom words).mem isIn inside)
    exact (text_eq_empty_iff solidToo).1 vacant ▸ member
  · exact fun member => ⟨[], member, rfl⟩

theorem commaTexts_eq_nil_iff : commaTexts words = [] ↔ splitCommas words = [] := by
  rw [splitCommas_eq_nil_iff]
  cases words with
  | nil => exact ⟨fun _ => rfl, fun _ => rfl⟩
  | cons word words =>
      rw [commaTexts_eq, reported_splitCommas (List.cons_ne_nil word words)]
      exact ⟨nofun, nofun⟩

end Words

/-- No word of a source is without a text. -/
theorem TokenStream.text_ne_empty {source : String} {word : Word}
    (member : word ∈ (ofString source).words) : word.text ≠ "" := by
  obtain ⟨token, isToken, same⟩ := Words.exists_token_of_mem member
  have scanned := List.mem_of_mem_filter isToken
  obtain ⟨_, _, _, solid, _⟩ := (covers_scanAll source).exists_split scanned
  rw [← (Prod.mk.inj same).2]
  exact solid

/-! ### The rule -/

namespace Grammar

variable {scope : Scope} {opening : Word} {texts : List String} {words : Words}

theorem hintTexts_of_mem (vacant : "" ∈ texts) :
    hintTexts opening texts scope words = .error (.about opening .emptyHint) := by
  induction texts with
  | nil => cases vacant
  | cons text texts ih =>
      by_cases here : text = ""
      · rw [hintTexts, dif_pos here]
        rfl
      · rw [hintTexts, dif_neg here, Parser.bind_apply,
          ih ((List.mem_cons.1 vacant).resolve_left (Ne.symm here))]

theorem hintTexts_of_not_mem (filled : "" ∉ texts) :
    ∃ hints, hintTexts opening texts scope words = .ok (hints, words) ∧
      hints.map Verbatim.text = texts := by
  induction texts with
  | nil => exact ⟨[], rfl, rfl⟩
  | cons text texts ih =>
      obtain ⟨here, further⟩ := List.ne_and_not_mem_of_not_mem_cons filled
      obtain ⟨hints, read, same⟩ := ih further
      refine ⟨{ text, text_ne_empty := Ne.symm here } :: hints, ?_, by rw [List.map_cons, same]⟩
      rw [hintTexts, dif_neg (Ne.symm here), Parser.bind_apply, read]
      rfl

/-- In a bracket that may be entered the hints of all its contents are read. -/
theorem optionHints_apply {option : Word} {rest : Words} {group : Words.Group} {inner : Nat}
    (isOption : option.kind = .keyword .OPTION) (opened : Parser.openGroup rest = .ok group)
    (entered : Parser.enter scope.room group.contents = .ok inner) :
    optionHints scope (option :: rest) =
      match hintTexts group.opening (Words.commaTexts group.contents) { scope with room := inner }
        group.contents with
      | .error fault => .error fault
      | .ok ([], _) => .error (.about group.opening (.requires "OPTION" "at least one hint"))
      | .ok (first :: others, _) => .ok (.optionHints first others, group.behind) := by
  have keyword : Parser.expectKeyword .OPTION scope (option :: rest) = .ok (option, rest) :=
    Parser.expectKeyword_ok_iff.2 ⟨isOption, rfl⟩
  have look : Parser.remaining { scope with room := inner } group.contents =
      .ok (group.contents, group.contents) := rfl
  simp only [optionHints, Parser.bind_apply, keyword, Parser.bracketed_apply, opened, entered, look]
  rcases hintTexts group.opening (Words.commaTexts group.contents) { scope with room := inner }
    group.contents with fault | ⟨_ | ⟨first, others⟩, left⟩ <;> rfl

end Grammar

namespace Build

/-- Whatever the words behind `OPTION` and its brackets, the level of nesting, the hooks and the
tree are: if the brackets are closed and may be entered, their contents are cut at the commas
outside of every inner bracket, and the texts of the segments, but for an empty last one, are the
hints.  Without a segment, or with an empty hint, there is an error about the opening bracket and
nothing is added; otherwise one node is added, which keeps the hints in their order.  So where every
word has a text, each empty segment is refused but the last one. -/
theorem hints_kept {limits : Limits} {workspace : Workspace} {option : Word} {rest : Words}
    {group : Words.Group} {inner : Nat} (words : workspace.words = option :: rest)
    (isOption : option.kind = .keyword .OPTION) (opened : Parser.openGroup rest = .ok group)
    (entered : Parser.enter limits.room group.contents = .ok inner) :
    let segments := Words.splitCommas group.contents
    let hints := (Words.reported segments).map Words.text
    let outcome := Rule.optionHints.builder.on limits workspace
    (segments = [] →
      outcome = (.error (.about group.opening (.requires "OPTION" "at least one hint")),
        workspace)) ∧
    ("" ∈ hints → outcome = (.error (.about group.opening .emptyHint), workspace)) ∧
    (segments ≠ [] → "" ∉ hints →
      outcome = (.ok workspace.tree.nextId,
        { workspace with
          words := group.behind
          tree := workspace.tree.attach (.element (.optionHints hints)) })) ∧
    (segments.getLast? ≠ some [] → hints = segments.map Words.text) ∧
    ((∀ word ∈ group.contents, word.text ≠ "") → ("" ∈ hints ↔ [] ∈ segments.dropLast)) := by
  intro segments hints outcome
  have texts : Words.commaTexts group.contents = hints := Words.commaTexts_eq group.contents
  have enteredScope :
      Parser.enter (limits.scope workspace.nesting).room group.contents = .ok inner := entered
  have read := Grammar.optionHints_apply isOption opened enteredScope
  have ran : outcome = (Builder.leaf Grammar.optionHints).on limits workspace := on_deeply ..
  rw [Builder.leaf, Builder.on_bind, Builder.on_read, words, read, texts] at ran
  refine ⟨fun none => ?_, fun vacant => ?_, fun some filled => ?_, fun filled => ?_,
    Words.empty_mem_reported_iff⟩
  · rw [ran, ← texts, Words.commaTexts_eq_nil_iff.2 none]
    rfl
  · rw [ran, Grammar.hintTexts_of_mem vacant]
  · obtain ⟨kept, gathered, same⟩ := Grammar.hintTexts_of_not_mem filled
    rw [ran, gathered]
    cases kept with
    | nil => exact absurd (Words.commaTexts_eq_nil_iff.1 (texts.trans same.symm)) some
    | cons first others =>
        rw [← same]
        rfl
  · exact congrArg (List.map Words.text) ((Words.reported_eq segments).trans (if_neg filled))

/-- The words of `OPTION (RECOMPILE, MAXDOP 2,) x`. -/
def trailingComma : Workspace :=
  { words := (TokenStream.ofString "OPTION (RECOMPILE, MAXDOP 2,) x").words
    nesting := 0
    tree := .new }

/-- The brackets of the hints. -/
def trailingCommaGroup : Words.Group :=
  { opening := trailingComma.words.tail.headD default
    contents := (trailingComma.words.drop 2).take 5
    behind := trailingComma.words.drop 8 }

/-- There is nothing between the last comma and the closing bracket, and two hints are kept. -/
theorem hints_kept_trailingComma :
    let segments := Words.splitCommas trailingCommaGroup.contents
    trailingComma.words =
        trailingComma.words.headD default :: trailingComma.words.tail ∧
      Parser.openGroup trailingComma.words.tail = .ok trailingCommaGroup ∧
      segments.map Words.text = ["RECOMPILE", "MAXDOP 2", ""] ∧ [] ∉ segments.dropLast ∧
      Rule.optionHints.builder.on { room := 1 } trailingComma =
        (.ok Tree.new.nextId,
          { words := trailingCommaGroup.behind
            nesting := 0
            tree := Tree.new.attach (.element (.optionHints ["RECOMPILE", "MAXDOP 2"])) }) := by
  intro segments
  have words : trailingComma.words =
      trailingComma.words.headD default :: trailingComma.words.tail := by decide +kernel
  have isOption : (trailingComma.words.headD default).kind = .keyword .OPTION := by
    decide +kernel
  have opened : Parser.openGroup trailingComma.words.tail = .ok trailingCommaGroup := by
    decide +kernel
  have solid : ∀ word ∈ trailingCommaGroup.contents, word.text ≠ "" := fun word member =>
    TokenStream.text_ne_empty (List.mem_of_mem_drop (List.mem_of_mem_take member))
  have texts : segments.map Words.text = ["RECOMPILE", "MAXDOP 2", ""] := by decide +kernel
  have hints : (Words.reported segments).map Words.text = ["RECOMPILE", "MAXDOP 2"] := by
    decide +kernel
  have entered : Parser.enter ({ room := 1 } : Limits).room trailingCommaGroup.contents = .ok 0 :=
    rfl
  obtain ⟨-, -, accepted, -, vacant⟩ := hints_kept words isOption opened entered
  rw [hints] at accepted vacant
  refine ⟨words, opened, texts, fun empty => ?_, accepted ?_ (by decide)⟩
  · exact absurd ((vacant solid).2 empty) (by decide)
  · intro none
    cases (congrArg (List.map Words.text) none).symm.trans texts

end Build

end SelectTree
