/-
Module: SelectTree.Proofs.Build.Combinator
Purpose: each way of combining builders does what the same way of combining parsers says.
Main exports: Tracks.bracketed, Tracks.nested, Tracks.committed, Builds.attempt, Builds.many,
  Builds.segments, Builds.commaList, Builds.hooked, Builds.leaf
-/
import SelectTree.Proofs.Build.Tracks

namespace SelectTree

namespace Tracks

variable {α β γ δ : Type} {start : Nat} {done : List Node} {layout : γ → Layout δ}
  {builder : Builder δ} {parser : Parser γ}

theorem within (range : Words) (tracks : Tracks start done builder parser layout) :
    Tracks start done (Builder.within range builder) (Parser.within range parser) layout := by
  intro contained limits words nesting tree closed size
  have inner := tracks contained limits range nesting tree closed size
  rw [Builder.on_within, Parser.within_apply]
  rcases answer : parser (limits.scope nesting) range with fault | ⟨value, behind⟩ <;>
    rw [answer] at inner
  · obtain ⟨left, nodes, only, ran⟩ := agrees_error.1 inner
    exact agrees_error.2 ⟨words, nodes, only, by rw [ran]⟩
  · exact agrees_ok.2 (by rw [agrees_ok.1 inner])

theorem committed (tracks : Tracks start done builder parser layout) :
    Tracks start done (Builder.committed builder) (Parser.committed parser) layout := by
  intro contained limits words nesting tree closed size
  have inner := tracks contained limits words nesting tree closed size
  rw [Builder.on_committed, Parser.committed_apply]
  rcases answer : parser (limits.scope nesting) words with fault | ⟨value, behind⟩ <;>
    rw [answer] at inner
  · obtain ⟨left, nodes, only, ran⟩ := agrees_error.1 inner
    exact agrees_error.2 ⟨left, nodes, only, by rw [ran]⟩
  · exact agrees_ok.2 (by rw [agrees_ok.1 inner])

/-- The level is left again whatever becomes of the words. -/
theorem nested (tracks : Tracks start done builder parser layout) :
    Tracks start done (Builder.nested builder) (Parser.nested parser) layout := by
  intro contained limits words nesting tree closed size
  have inner := tracks contained limits words (nesting + 1) tree closed size
  have deeper : { limits.scope nesting with nesting := (limits.scope nesting).nesting + 1 } =
      limits.scope (nesting + 1) := rfl
  have check : Parser.checkNesting (limits.scope nesting).room
      ((limits.scope nesting).nesting + 1) words =
        Parser.checkNesting limits.room (nesting + 1) words := rfl
  rw [Builder.on_nested, Parser.nested_apply, deeper, check]
  simp only
  rcases Parser.checkNesting limits.room (nesting + 1) words with fault | _
  · exact agrees_error.2 ⟨words, done, size ▸ contained, rfl⟩
  · simp only
    rcases answer : parser (limits.scope (nesting + 1)) words with fault | ⟨value, behind⟩ <;>
      rw [answer] at inner
    · obtain ⟨left, nodes, only, ran⟩ := agrees_error.1 inner
      exact agrees_error.2 ⟨left, nodes, only, by rw [ran]; rfl⟩
    · exact agrees_ok.2 (by rw [agrees_ok.1 inner]; rfl)

theorem bracketed {body : Word → Builder δ} {parserBody : Word → Parser γ}
    (tracks : ∀ opening, Tracks start done (body opening) (parserBody opening) layout) :
    Tracks start done (Builder.bracketed body) (Parser.bracketed parserBody) layout := by
  intro contained limits words nesting tree closed size
  rw [Builder.on_bracketed, Parser.bracketed_apply]
  simp only
  rcases Parser.openGroup words with fault | group
  · exact agrees_error.2 ⟨words, done, size ▸ contained, rfl⟩
  · simp only
    have enter : Parser.enter (limits.scope nesting).room group.contents =
        Parser.enter limits.room group.contents := rfl
    rw [enter]
    rcases Parser.enter limits.room group.contents with fault | room
    · exact agrees_error.2 ⟨group.behind, done, size ▸ contained, rfl⟩
    · have inner := tracks group.opening contained { limits with room } group.contents nesting
        tree closed size
      have inside : { limits.scope nesting with room } =
          Limits.scope { limits with room } nesting := rfl
      simp only
      rw [inside]
      rcases answer : parserBody group.opening (Limits.scope { limits with room } nesting)
        group.contents with fault | ⟨value, behind⟩ <;> rw [answer] at inner
      · obtain ⟨left, nodes, only, ran⟩ := agrees_error.1 inner
        exact agrees_error.2 ⟨group.behind, nodes, only, by rw [ran]⟩
      · exact agrees_ok.2 (by rw [agrees_ok.1 inner])

/-! What a part found may be missing, or be a list. -/

/-- A part that may be missing. -/
theorem callOption {builder : Builder (Option β)} {parser : Parser (Option α)}
    {part : α → Layout β} {next : Option β → Builder δ} {rest : Option α → Parser γ}
    (builds : Builds builder parser (Layout.perhaps part))
    (absent : Tracks start done (next none) (rest none) layout)
    (present : ∀ value,
      Tracks start (done ++ ((part value).run (start + done.length)).2)
        (next (some ((part value).run (start + done.length)).1)) (rest (some value)) layout) :
    Tracks start done (builder >>= next) (parser >>= rest) layout := by
  apply Tracks.call builds
  intro value
  cases value with
  | none => simpa using absent
  | some value => simpa using present value

/-- A part that is a list, of which the first item is told apart. -/
theorem callList {builder : Builder (List β)} {parser : Parser (List α)}
    {part : α → Layout β} {next : List β → Builder δ} {rest : List α → Parser γ}
    (builds : Builds builder parser (Layout.each part))
    (empty : Tracks start done (next []) (rest []) layout)
    (nonempty : ∀ value values,
      Tracks start
        (done ++ (((part value).run (start + done.length)).2 ++
          ((Layout.each part values).run
            (start + done.length + ((part value).run (start + done.length)).2.length)).2))
        (next (((part value).run (start + done.length)).1 ::
          ((Layout.each part values).run
            (start + done.length + ((part value).run (start + done.length)).2.length)).1))
        (rest (value :: values)) layout) :
    Tracks start done (builder >>= next) (parser >>= rest) layout := by
  apply Tracks.call builds
  intro values
  cases values with
  | nil => simpa using empty
  | cons value values => simpa using nonempty value values

end Tracks

namespace Builds

variable {α β : Type} {layout : α → Layout β} {builder : Builder β} {parser : Parser α}

/-- A rule that recognises a phrase. -/
theorem phrase {form : Form} {builder : Builder NodeId} {parser : Parser (Phrase form)}
    (tracks : ∀ start, Tracks start [] builder parser Phrase.layout) :
    Builds builder parser Phrase.layout :=
  { contained := .phrase, tracks }

theorem within (builds : Builds builder parser layout) (range : Words) :
    Builds (Builder.within range builder) (Parser.within range parser) layout :=
  { contained := builds.contained, tracks := fun start => (builds.tracks start).within range }

theorem committed (builds : Builds builder parser layout) :
    Builds (Builder.committed builder) (Parser.committed parser) layout :=
  { contained := builds.contained, tracks := fun start => (builds.tracks start).committed }

theorem nested (builds : Builds builder parser layout) :
    Builds (Builder.nested builder) (Parser.nested parser) layout :=
  { contained := builds.contained, tracks := fun start => (builds.tracks start).nested }

theorem wholly (builds : Builds builder parser layout) :
    Builds (Builder.wholly builder) (Parser.wholly parser) layout where
  contained := builds.contained
  tracks := by
    intro start
    apply Tracks.call builds
    intro value
    apply Tracks.read
    intro _
    exact .return' (by simp)

/-- A reading that is given up leaves nodes that adopt only each other, and dropping them gives
back the tree from before. -/
theorem attempt (builds : Builds builder parser layout) :
    Builds (Builder.attempt builder) (Parser.attempt parser) (Layout.perhaps layout) where
  contained := builds.contained.perhaps
  tracks := by
    rintro start - limits words nesting tree closed rfl
    have inner := builds.tracks _ .nil limits words nesting tree closed rfl
    rw [Builder.on_attempt, Parser.attempt_apply]
    rcases answer : parser (limits.scope nesting) words with fault | ⟨value, behind⟩ <;>
      rw [answer] at inner
    · obtain ⟨left, nodes, only, ran⟩ := agrees_error.1 inner
      rw [ran]
      simp only
      split
      · refine agrees_ok.2 ?_
        simp [Tree.rollback_attachAll closed only]
      · exact agrees_error.2 ⟨left, nodes, only, rfl⟩
    · refine agrees_ok.2 ?_
      rw [agrees_ok.1 inner]
      simp

/-- By induction on the number of items that are looked for at most. -/
theorem manyUpTo {item : Builder (Option β)} {itemParser : Parser (Option α)}
    (builds : Builds item itemParser (Layout.perhaps layout))
    (contained : Layout.Contained layout) (count : Nat) :
    Builds (Builder.manyUpTo item count) (Parser.manyUpTo itemParser count)
      (Layout.each layout) := by
  induction count with
  | zero => exact { contained := contained.each, tracks := fun start => .return' rfl }
  | succ count ih =>
      refine { contained := contained.each, tracks := fun start => ?_ }
      refine .callOption builds (.return' rfl) fun value => ?_
      apply Tracks.call ih
      intro values
      exact .return' (by simp)

theorem many {item : Builder (Option β)} {itemParser : Parser (Option α)}
    (builds : Builds item itemParser (Layout.perhaps layout))
    (contained : Layout.Contained layout) :
    Builds (Builder.many item) (Parser.many itemParser) (Layout.each layout) where
  contained := contained.each
  tracks := fun start => .read fun words =>
    (builds.manyUpTo contained words.length).tracks start

/-- Runs of an item that a comma announces. -/
theorem commaItem (builds : Builds builder parser layout) :
    Builds (Builder.commaItem builder) (do
      if ← Parser.eat .comma then return some (← parser)
      return none) (Layout.perhaps layout) where
  contained := builds.contained.perhaps
  tracks := by
    intro start
    apply Tracks.read
    intro found
    cases found with
    | false => exact .return' rfl
    | true =>
        apply Tracks.call builds
        intro value
        exact .return' (by simp)

/-- Each item adds its nodes behind those of the items before it. -/
theorem commaList (builds : Builds builder parser layout) :
    Builds (Builder.commaList builder) (Parser.commaList parser) (Layout.eachOf layout) where
  contained := builds.contained.eachOf
  tracks := by
    intro start
    apply Tracks.call builds
    intro value
    apply Tracks.call (builds.commaItem.many builds.contained)
    intro values
    exact .return' (by simp [Layout.eachOf])

/-- By induction on the segments, each of which is built by itself. -/
theorem eachWholly (builds : Builds builder parser layout) (segments : List Words) :
    Builds (Builder.eachWholly builder segments)
      (segments.mapM fun segment => Parser.within segment (Parser.wholly parser))
      (Layout.each layout) := by
  induction segments with
  | nil => exact { contained := builds.contained.each, tracks := fun start => .return' rfl }
  | cons segment segments ih =>
      refine { contained := builds.contained.each, tracks := fun start => ?_ }
      rw [List.mapM_cons]
      apply Tracks.call (builds.wholly.within segment)
      intro value
      apply Tracks.call ih
      intro values
      exact .return' (by simp)

theorem segments (builds : Builds builder parser layout) :
    Builds (Builder.segments builder) (Parser.segments parser) (Layout.each layout) where
  contained := builds.contained.each
  tracks := by
    intro start
    apply Tracks.read
    intro words
    apply Tracks.call (builds.eachWholly _)
    intro values
    apply Tracks.read
    intro _
    exact .return' (by simp)

/-- A phrase that adds all its nodes once it is recognised. -/
theorem leaf {form : Form} (parser : Parser (Phrase form)) :
    Builds (Builder.leaf parser) parser Phrase.layout := by
  apply Builds.phrase
  intro start
  have tail : Tracks start [] (Builder.leaf parser) (parser >>= pure) Phrase.layout := by
    apply Tracks.read
    intro phrase
    exact .finish (.plant phrase.layout) (by simp)
  rwa [bind_pure] at tail

/-- What a hook gives is planted as if the grammar had read it. -/
theorem hooked {form : Form} (choose : Hooks → Option (Hook (Phrase form))) :
    Builds (Builder.hooked choose) (Parser.hooked choose) (Layout.perhaps Phrase.layout) where
  contained := Layout.Contained.phrase.perhaps
  tracks := by
    intro start
    have tail : Tracks start [] (Builder.hooked choose) (Parser.hooked choose >>= pure)
        (Layout.perhaps Phrase.layout) := by
      apply Tracks.read
      intro found
      cases found with
      | none => exact .return' rfl
      | some phrase =>
          exact .finish ((Plants.plant phrase.layout).name rfl) (by simp)
    rwa [bind_pure] at tail

end Builds

end SelectTree
