/-
Module: SelectTree.Proofs.Build.Assembled
Purpose: builders that are put together from the rules inside and from the ways of combining
  builders, with what follows for all of them.
Main exports: Build.Assembled, Build.Assembled.reaches, Build.Assembled.same

A rule is a function of the rules inside, and it may apply them only where a word is consumed.  How
a rule is put together is followed once, with the words counted against a bound; what all rules have
in common is proved by induction on that.
-/
import SelectTree.Proofs.Grammar.Orderly.Leaf

namespace SelectTree

namespace Build

open SelectTree.Grammar (Inner)

/-- A rule inside, by name. -/
def Rules.apply (rules : Rules) : Inner → Builder NodeId
  | .operand => rules.operand
  | .column => rules.column
  | .term => rules.term
  | .condition => rules.condition
  | .relation => rules.relation
  | .statement => rules.statement

end Build

/-- The rule never reports that the words are not a condition. -/
def Grammar.Inner.isSettled : Inner → Bool
  | .operand | .column | .statement => true
  | .term | .condition | .relation => false

namespace Build

open SelectTree.Grammar (Inner)

/-- The builder is put together from the rules inside, which it applies only to fewer words than the
bound.  It may begin on words of the first lead and ends, with a value, on words of the lead that
belongs to the value.  In a settled shape it does not report that the words are not a condition. -/
inductive Assembled (bound : Nat) :
    {α : Type} → Bool → Lead → (Rules → Builder α) → (α → Lead) → Prop where
  | pure {α : Type} {settled : Bool} {before : Lead} {after : α → Lead} (value : α) :
      before.Implies (after value) →
      Assembled bound settled before (fun _ => Pure.pure value) after
  | add {settled : Bool} {before : Lead} (node : Node) :
      Assembled bound settled before (fun _ => Builder.add node) fun _ => before
  | plant {α : Type} {settled : Bool} {before : Lead} (layout : Layout α) :
      Assembled bound settled before (fun _ => Builder.plant layout) fun _ => before
  | fail {α : Type} {settled : Bool} {before : Lead} {after : α → Lead} {fault : Fault} :
      fault.Plain settled →
      Assembled bound settled before (fun _ => Builder.read (Parser.fail fault)) after
  | read {α : Type} {settled : Bool} {before : Lead} {after : α → Lead} {parser : Parser α} :
      Parser.Orderly bound before parser after →
      Assembled bound settled before (fun _ => Builder.read parser) after
  /-- What follows a parser matters only for the values that the parser can give. -/
  | consult {α β : Type} {settled : Bool} {before : Lead} {middle : α → Lead} {after : β → Lead}
      {parser : Parser α} {next : Rules → α → Builder β} :
      Parser.Orderly bound before parser middle →
      (∀ scope words value rest, scope.hooks = {} → before.Holds bound words →
        parser scope words = .ok (value, rest) →
        Assembled bound settled (middle value) (fun rules => next rules value) after) →
      Assembled bound settled before (fun rules => Builder.read parser >>= next rules) after
  | inner {settled : Bool} (inner : Inner) :
      (settled = true → inner.isSettled = true) →
      Assembled bound settled .behind (fun rules => rules.apply inner) fun _ => .behind
  | bind {α β : Type} {settled : Bool} {before : Lead} {middle : α → Lead} {after : β → Lead}
      {first : Rules → Builder α} {next : Rules → α → Builder β} :
      Assembled bound settled before first middle →
      (∀ value, Assembled bound settled (middle value) (fun rules => next rules value) after) →
      Assembled bound settled before (fun rules => first rules >>= next rules) after
  | within {α : Type} {settled : Bool} {before lead : Lead} {after : α → Lead}
      {body : Rules → Builder α} {range : Words} :
      lead.Holds bound range → Assembled bound settled lead body after →
      Assembled bound settled before (fun rules => Builder.within range (body rules))
        fun _ => before
  | bracketed {α : Type} {settled : Bool} {before : Lead} {body : Rules → Word → Builder α} :
      (∀ opening, Assembled bound settled .behind (fun rules => body rules opening)
        fun _ => .behind) →
      Assembled bound settled before (fun rules => Builder.bracketed (body rules))
        fun _ => .behind
  | nested {α : Type} {settled : Bool} {before : Lead} {after : α → Lead}
      {body : Rules → Builder α} :
      Assembled bound settled before body after →
      Assembled bound settled before (fun rules => Builder.nested (body rules)) after
  | attempt {α : Type} {settled : Bool} {before : Lead} {after : α → Lead}
      {body : Rules → Builder α} :
      Assembled bound false before body after →
      Assembled bound settled before (fun rules => Builder.attempt (body rules))
        fun found => found.elim before after
  | committed {α : Type} {settled : Bool} {before : Lead} {after : α → Lead}
      {body : Rules → Builder α} :
      Assembled bound false before body after →
      Assembled bound settled before (fun rules => Builder.committed (body rules)) after
  | weaken {α : Type} {settled : Bool} {before lead : Lead} {after : α → Lead}
      {body : Rules → Builder α} :
      before.Implies lead → Assembled bound settled lead body after →
      Assembled bound settled before body after
  /-- What is settled may stand where nothing is settled. -/
  | unsettle {α : Type} {before : Lead} {after : α → Lead} {body : Rules → Builder α} :
      Assembled bound true before body after → Assembled bound false before body after
  /-- Words are never put in front again. -/
  | forward {α : Type} {settled : Bool} {before : Lead} {after : α → Lead}
      {body : Rules → Builder α} :
      before ≠ .ahead → Assembled bound settled before body after →
      Assembled bound settled before body fun _ => before

namespace Assembled

variable {α β : Type} {bound : Nat} {settled : Bool} {before : Lead} {after found : α → Lead}
  {ends : β → Lead}

/-! ### Ways of combining builders -/

/-- What needs no lead may begin anywhere. -/
theorem fromStart {body : Rules → Builder α}
    (assembled : Assembled bound settled .start body after) :
    Assembled bound settled before body after :=
  .weaken before.implies_start assembled

/-- A settled builder may stand where nothing is settled. -/
theorem unsettled {body : Rules → Builder α}
    (assembled : Assembled bound settled before body after) :
    Assembled bound false before body after := by
  cases settled with
  | false => exact assembled
  | true => exact .unsettle assembled

/-- Behind a consumed word, a builder stays behind it. -/
theorem onward {body : Rules → Builder α}
    (assembled : Assembled bound settled .start body after) :
    Assembled bound settled .behind body fun _ => .behind :=
  .forward nofun assembled.fromStart

/-- Words are read, and something follows, whatever was read. -/
theorem reads {parser : Parser α} {next : Rules → α → Builder β}
    (orderly : Parser.Orderly bound before parser after)
    (goesOn : ∀ value, Assembled bound settled (after value) (fun rules => next rules value) ends) :
    Assembled bound settled before (fun rules => Builder.read parser >>= next rules) ends :=
  .consult orderly fun _ _ value _ _ _ _ => goesOn value

/-- The words are looked at. -/
theorem look {next : Rules → Words → Builder β}
    (goesOn : ∀ words, before.Holds bound words →
      Assembled bound settled before (fun rules => next rules words) ends) :
    Assembled bound settled before (fun rules => Builder.read Parser.remaining >>= next rules)
      ends := by
  refine .consult .remaining ?_
  rintro _ words _ _ - holds ⟨⟩
  exact goesOn words holds

/-- The next word is looked at; if there is one, it is known to be there. -/
theorem ahead {next : Rules → Option Word → Builder β}
    (absent : Assembled bound settled .start (fun rules => next rules none) ends)
    (present : ∀ word, Assembled bound settled .ahead (fun rules => next rules (some word)) ends) :
    Assembled bound settled .start (fun rules => Builder.read Parser.peek >>= next rules) ends := by
  refine .reads .peekAhead fun next => ?_
  cases next with
  | none => exact absent
  | some word => exact present word

/-- Where a word is there, it is consumed. -/
theorem skipped {next : Rules → Unit → Builder β}
    (goesOn : Assembled bound settled .behind (fun rules => next rules ()) ends) :
    Assembled bound settled .ahead (fun rules => Builder.read (Parser.skip 1) >>= next rules)
      ends :=
  .reads (.skipAhead 0) fun _ => goesOn

theorem failAt (word : Word) {cause : Cause} (noLimit : cause.isLimit = false) :
    Assembled bound settled before (fun _ => (Builder.failAt word cause : Builder α)) after :=
  .read (.failAt word noLimit)

theorem failHere (what : String) :
    Assembled bound settled before (fun _ => (Builder.failHere what : Builder α)) after :=
  .read (.failHere what)

/-- Behind a refusal nothing follows. -/
theorem refuseAt (word : Word) {cause : Cause} {next : Rules → α → Builder β}
    (noLimit : cause.isLimit = false) :
    Assembled bound settled before (fun rules => Builder.failAt word cause >>= next rules)
      ends := by
  have refuses : Parser.Orderly bound before (Parser.failAt word cause : Parser α)
      fun _ => .start := .failAt word noLimit
  refine .consult refuses ?_
  rintro _ _ _ _ - - ⟨⟩

theorem refuseHere (what : String) {next : Rules → α → Builder β} :
    Assembled bound settled before (fun rules => Builder.failHere what >>= next rules) ends := by
  have refuses : Parser.Orderly bound before (Parser.failHere what : Parser α) fun _ => .start :=
    .failHere what
  refine .consult refuses ?_
  rintro _ _ _ _ - - ⟨⟩

/-- A rule inside. -/
theorem call (inner : Inner) {next : Rules → NodeId → Builder β}
    (isSettled : settled = true → inner.isSettled = true)
    (goesOn : ∀ id, Assembled bound settled .behind (fun rules => next rules id) ends) :
    Assembled bound settled .behind (fun rules => rules.apply inner >>= next rules) ends :=
  .bind (.inner inner isSettled) goesOn

theorem map {body : Rules → Builder α} (convert : α → β)
    (assembled : Assembled bound settled before body fun _ => before) :
    Assembled bound settled before (fun rules => convert <$> body rules) fun _ => before :=
  .bind assembled fun value => .pure (convert value) (.inr rfl)

theorem wholly {body : Rules → Builder α} (assembled : Assembled bound settled before body after) :
    Assembled bound settled before (fun rules => Builder.wholly (body rules)) after :=
  .bind assembled fun value => .reads .expectEnd fun _ => .pure value (.inr rfl)

/-- By induction on the number of items that are looked for at most. -/
theorem manyUpTo {item : Rules → Builder (Option α)} {found : Option α → Lead}
    (assembled : Assembled bound settled .behind item found) (count : Nat) :
    Assembled bound settled .behind (fun rules => Builder.manyUpTo (item rules) count)
      fun _ => .behind := by
  induction count with
  | zero => exact .pure [] (.inr rfl)
  | succ count ih =>
      refine .bind (.forward nofun assembled) fun next => ?_
      cases next with
      | none => exact .pure [] (.inr rfl)
      | some first => exact .bind ih fun others => .pure (first :: others) (.inr rfl)

theorem many {item : Rules → Builder (Option α)} {found : Option α → Lead}
    (assembled : Assembled bound settled .behind item found) :
    Assembled bound settled .behind (fun rules => Builder.many (item rules)) fun _ => .behind :=
  .look fun words _ => .manyUpTo assembled words.length

/-- An item that is found stands behind its comma. -/
theorem commaItem {item : Rules → Builder α}
    (assembled : Assembled bound settled .behind item after) :
    Assembled bound settled .start (fun rules => Builder.commaItem (item rules)) Lead.ofFound := by
  refine .reads (.eat .comma) fun comma => ?_
  cases comma with
  | true => exact .bind (.forward nofun assembled) fun next => .pure (some next) (.inr rfl)
  | false => exact .pure none (.inl rfl)

/-- The first item needs a word in front of it; the others have their commas. -/
theorem commaList {item : Rules → Builder α}
    (assembled : Assembled bound settled .behind item after) :
    Assembled bound settled .behind (fun rules => Builder.commaList (item rules))
      fun _ => .behind := by
  refine .bind (.forward nofun assembled) fun first => ?_
  exact .bind (.many (commaItem assembled).onward) fun others => .pure (first, others) (.inr rfl)

/-- Each segment must have a word less than the bound, as segments of a bracket do. -/
theorem eachWholly {item : Rules → Builder α}
    (assembled : Assembled bound settled .behind item after) {segments : List Words}
    (fit : ∀ segment ∈ segments, Lead.behind.Holds bound segment) :
    Assembled bound settled before (fun rules => Builder.eachWholly (item rules) segments)
      fun _ => before := by
  induction segments with
  | nil => exact .pure [] (.inr rfl)
  | cons segment segments ih =>
      refine .bind (.within (fit segment List.mem_cons_self) assembled.wholly) fun first => ?_
      refine .bind (ih fun other member => fit other (List.mem_cons_of_mem segment member)) ?_
      exact fun others => .pure (first :: others) (.inr rfl)

theorem segments {item : Rules → Builder α}
    (assembled : Assembled bound settled .behind item after) :
    Assembled bound settled .behind (fun rules => Builder.segments (item rules))
      fun _ => .behind := by
  refine .look fun words holds => ?_
  have fit : ∀ segment ∈ Words.splitCommas words, Lead.behind.Holds bound segment :=
    fun segment member => holds.behind_of_le (Words.sublist_of_splitCommas member).length_le
  refine .bind (eachWholly assembled fit) fun found => ?_
  exact .reads (.skip words.length (by decide)) fun _ => .pure found (.inr rfl)

theorem leaf {form : Form} {lead : Lead} {parser : Parser (Phrase form)}
    (orderly : Parser.Orderly bound before parser fun _ => lead) :
    Assembled bound settled before (fun _ => Builder.leaf parser) fun _ => lead :=
  .reads orderly fun phrase => .plant phrase.layout

/-- Without a hook nothing is found. -/
theorem hooked {form : Form} {choose : Hooks → Option (Hook (Phrase form))}
    (noHook : choose {} = none) :
    Assembled bound settled before (fun _ => Builder.hooked choose)
      fun found => found.elim before fun _ => .behind := by
  refine .consult (.hooked noHook) ?_
  intro scope words value rest hookless _ read
  rw [Parser.hooked_eq_none (by rw [hookless]; exact noHook)] at read
  cases read
  exact .pure none (.inr rfl)

end Assembled

end Build

/-- Words are consumed from the front, every prefix operator that was entered is left, and what is
reported is plain. -/
structure Proceeds {α : Type} (settled : Bool) (workspace : Workspace)
    (outcome : Except Fault α × Workspace) : Prop where
  words : outcome.2.words <:+ workspace.words
  nesting : outcome.2.nesting = workspace.nesting
  plain : ∀ fault, outcome.1 = .error fault → fault.Plain settled

namespace Proceeds

variable {α β : Type} {settled : Bool} {workspace behind : Workspace}

theorem of_ok (value : α) (words : behind.words <:+ workspace.words)
    (nesting : behind.nesting = workspace.nesting) :
    Proceeds settled workspace (.ok value, behind) := by
  refine ⟨words, nesting, ?_⟩
  rintro _ ⟨⟩

theorem of_error {fault : Fault} (plain : fault.Plain settled)
    (words : behind.words <:+ workspace.words) (nesting : behind.nesting = workspace.nesting) :
    Proceeds settled workspace ((.error fault : Except Fault α), behind) := by
  refine ⟨words, nesting, ?_⟩
  rintro _ ⟨⟩
  exact plain

/-- What goes on behind something that proceeds. -/
theorem trans {value : α} {outcome : Except Fault β × Workspace}
    (one : Proceeds settled workspace (.ok value, behind)) (two : Proceeds settled behind outcome) :
    Proceeds settled workspace outcome :=
  ⟨two.words.trans one.words, two.nesting.trans one.nesting, two.plain⟩

end Proceeds

/-- Without hooks, the builder proceeds whatever the words are. -/
def Builder.Orderly {α : Type} (settled : Bool) (builder : Builder α) : Prop :=
  ∀ (limits : Limits) (workspace : Workspace), limits.hooks = {} →
    Proceeds settled workspace (builder.on limits workspace)

namespace Build

open SelectTree.Grammar (Inner)

/-- All rules proceed. -/
def Rules.Orderly (rules : Rules) : Prop :=
  ∀ inner, (rules.apply inner).Orderly inner.isSettled

/-- The outcome proceeds, and with a value it has come as far as the lead says. -/
structure Reaches {α : Type} (bound : Nat) (settled : Bool) (after : α → Lead)
    (workspace : Workspace) (outcome : Except Fault α × Workspace) : Prop where
  proceeds : Proceeds settled workspace outcome
  holds : ∀ value, outcome.1 = .ok value → (after value).Holds bound outcome.2.words

/-- What holds of the room and of the open prefix operators in some place holds inside of one more
bracket and inside of one more prefix operator. -/
structure Descends (region : Nat → Nat → Prop) : Prop where
  bracket : ∀ {room nesting}, region (room + 1) nesting → region room nesting
  level : ∀ {room nesting}, region room nesting → nesting + 1 < room → region room (nesting + 1)

/-- Without hooks, the rules do the same in the region on fewer words than the bound. -/
def Rules.Agree (rules others : Rules) (region : Nat → Nat → Prop) (bound : Nat) : Prop :=
  ∀ (inner : Inner) (limits : Limits) (workspace : Workspace), limits.hooks = {} →
    region limits.room workspace.nesting → workspace.words.length < bound →
    (rules.apply inner).on limits workspace = (others.apply inner).on limits workspace

section Reaches

variable {α β : Type} {bound : Nat} {settled : Bool} {before : Lead} {after : α → Lead}
  {limits : Limits} {workspace behind : Workspace}

theorem reaches_ok {value : α} (proceeds : Proceeds settled workspace (.ok value, behind))
    (holds : (after value).Holds bound behind.words) :
    Reaches bound settled after workspace (.ok value, behind) := by
  refine ⟨proceeds, ?_⟩
  rintro _ ⟨⟩
  exact holds

theorem reaches_error {fault : Fault}
    (proceeds : Proceeds settled workspace ((.error fault : Except Fault α), behind)) :
    Reaches bound settled after workspace (.error fault, behind) := by
  refine ⟨proceeds, ?_⟩
  rintro _ ⟨⟩

/-- Reading reaches what its parser does. -/
theorem reaches_read {parser : Parser α} (orderly : Parser.Orderly bound before parser after)
    (hookless : limits.hooks = {}) (holds : before.Holds bound workspace.words) :
    Reaches bound settled after workspace ((Builder.read parser).on limits workspace) := by
  rw [Builder.on_read]
  have without : (limits.scope workspace.nesting).hooks = {} := hookless
  rcases read : parser (limits.scope workspace.nesting) workspace.words with fault | ⟨value, rest⟩
  · have plain := orderly.of_error without holds read
    exact reaches_error (.of_error plain.of_settled (List.suffix_refl _) rfl)
  · obtain ⟨passed, reached⟩ := orderly.of_ok without holds read
    exact reaches_ok (.of_ok value passed rfl) reached

/-- A part, and what follows behind the value that it gives. -/
theorem Reaches.bind {first : Builder α} {next : α → Builder β} {ends : β → Lead}
    (one : Reaches bound settled after workspace (first.on limits workspace))
    (two : ∀ value behind, first.on limits workspace = (.ok value, behind) →
      Reaches bound settled ends behind ((next value).on limits behind)) :
    Reaches bound settled ends workspace ((first >>= next).on limits workspace) := by
  rw [Builder.on_bind]
  rcases ran : first.on limits workspace with ⟨fault | value, behind⟩ <;> rw [ran] at one
  · exact reaches_error (.of_error (one.proceeds.plain fault rfl) one.proceeds.words
      one.proceeds.nesting)
  · have goesOn := two value behind ran
    exact ⟨one.proceeds.trans goesOn.proceeds, goesOn.holds⟩

end Reaches

namespace Assembled

variable {α : Type} {bound : Nat} {settled : Bool} {before : Lead} {after : α → Lead}
  {body : Rules → Builder α} {rules : Rules}

/-- What is put together from orderly rules proceeds and comes as far as it says. -/
theorem reaches (assembled : Assembled bound settled before body after)
    (orderly : rules.Orderly) :
    ∀ (limits : Limits) (workspace : Workspace), limits.hooks = {} →
      before.Holds bound workspace.words →
      Reaches bound settled after workspace ((body rules).on limits workspace) := by
  -- By induction on how the builder is put together; the words it begins on are any.
  induction assembled with
  | pure value implies =>
      intro limits workspace hookless holds
      exact reaches_ok (.of_ok value (List.suffix_refl _) rfl) (holds.imp implies)
  | add node =>
      intro limits workspace hookless holds
      exact reaches_ok (.of_ok _ (List.suffix_refl _) rfl) holds
  | plant layout =>
      intro limits workspace hookless holds
      exact reaches_ok (.of_ok _ (List.suffix_refl _) rfl) holds
  | fail plain =>
      intro limits workspace hookless holds
      exact reaches_error (.of_error plain (List.suffix_refl _) rfl)
  | read parser =>
      intro limits workspace hookless holds
      exact reaches_read parser hookless holds
  | consult parser _ next =>
      intro limits workspace hookless holds
      refine (reaches_read parser hookless holds).bind fun value behind ran => ?_
      rw [Builder.on_read] at ran
      split at ran
      · next value rest read =>
          cases ran
          have without : (limits.scope workspace.nesting).hooks = {} := hookless
          have reached := (parser.of_ok without holds read).2
          exact next _ _ _ _ without holds read limits _ hookless reached
      · cases ran
  | inner inner isSettled =>
      intro limits workspace hookless holds
      obtain ⟨words, nesting, plain⟩ := orderly inner limits workspace hookless
      refine ⟨⟨words, nesting, ?_⟩, fun _ _ => holds.suffix nofun words⟩
      exact fun fault refused => (plain fault refused).imp isSettled
  | bind _ _ first next =>
      intro limits workspace hookless holds
      have one := first limits workspace hookless holds
      refine one.bind fun value behind ran => ?_
      rw [ran] at one
      exact next value limits behind hookless (one.holds value rfl)
  | @within _ _ _ _ _ _ range fits _ inside =>
      intro limits workspace hookless holds
      have contents := (inside limits { workspace with words := range } hookless fits).proceeds
      rw [Builder.on_within]
      exact ⟨⟨List.suffix_refl _, contents.nesting, contents.plain⟩, fun _ _ => holds⟩
  | bracketed _ inside =>
      intro limits workspace hookless holds
      dsimp only
      rw [Builder.on_bracketed]
      rcases opened : Parser.openGroup workspace.words with fault | group
      · exact reaches_error
          (.of_error (Parser.plain_of_openGroup opened) (List.suffix_refl _) rfl)
      obtain ⟨contained, passed, outside⟩ :=
        Words.shrinks_of_group? (Parser.group?_of_openGroup opened)
      simp only
      rcases entered : Parser.enter limits.room group.contents with fault | room
      · exact reaches_error (.of_error (Parser.plain_of_enter entered) passed rfl)
      · have contents := (inside group.opening { limits with room }
          { workspace with words := group.contents } hookless
          (holds.behind_of_lt contained)).proceeds
        exact ⟨⟨passed, contents.nesting, contents.plain⟩,
          fun _ _ => holds.behind_of_lt outside⟩
  | nested _ inside =>
      intro limits workspace hookless holds
      dsimp only
      rw [Builder.on_nested]
      rcases checked : Parser.checkNesting limits.room (workspace.nesting + 1) workspace.words
        with fault | _
      · exact reaches_error
          (.of_error (Parser.plain_of_checkNesting checked) (List.suffix_refl _) rfl)
      · have contents := inside limits { workspace with nesting := workspace.nesting + 1 }
          hookless holds
        have level := contents.proceeds.nesting
        refine ⟨⟨contents.proceeds.words, ?_, contents.proceeds.plain⟩, contents.holds⟩
        simp only [level, Nat.add_sub_cancel]
  | attempt _ inside =>
      -- Only a report that the words are not a condition is given up, so what is left is settled.
      intro limits workspace hookless holds
      have tried := inside limits workspace hookless holds
      dsimp only
      rw [Builder.on_attempt]
      rcases ran : (_ : Builder _).on limits workspace with ⟨fault | value, behind⟩ <;>
        rw [ran] at tried
      · simp only
        split
        · exact reaches_ok (.of_ok none (List.suffix_refl _) tried.proceeds.nesting) holds
        · next other =>
            have plain := (tried.proceeds.plain fault rfl).settle other
            exact reaches_error
              (.of_error plain.of_settled tried.proceeds.words tried.proceeds.nesting)
      · exact reaches_ok (.of_ok _ tried.proceeds.words tried.proceeds.nesting)
          (tried.holds value rfl)
  | committed _ inside =>
      intro limits workspace hookless holds
      have contents := inside limits workspace hookless holds
      dsimp only
      rw [Builder.on_committed]
      rcases ran : (_ : Builder _).on limits workspace with ⟨fault | value, behind⟩ <;>
        rw [ran] at contents
      · have plain := (contents.proceeds.plain fault rfl).committed
        exact reaches_error
          (.of_error plain.of_settled contents.proceeds.words contents.proceeds.nesting)
      · exact reaches_ok (.of_ok value contents.proceeds.words contents.proceeds.nesting)
          (contents.holds value rfl)
  | weaken implies _ inside =>
      intro limits workspace hookless holds
      exact inside limits workspace hookless (holds.imp implies)
  | unsettle _ inside =>
      intro limits workspace hookless holds
      obtain ⟨⟨words, nesting, plain⟩, reached⟩ := inside limits workspace hookless holds
      exact ⟨⟨words, nesting, fun fault refused => (plain fault refused).of_settled⟩, reached⟩
  | forward steady _ inside =>
      intro limits workspace hookless holds
      have outcome := inside limits workspace hookless holds
      exact ⟨outcome.proceeds, fun _ _ => holds.suffix steady outcome.proceeds.words⟩

/-- Rules that agree where they are applied do the same when something is put together from them. -/
theorem same (assembled : Assembled bound settled before body after) {others : Rules}
    (orderly : rules.Orderly) {region : Nat → Nat → Prop} (descends : Descends region)
    (agree : rules.Agree others region bound) :
    ∀ (limits : Limits) (workspace : Workspace), limits.hooks = {} →
      region limits.room workspace.nesting → before.Holds bound workspace.words →
      (body rules).on limits workspace = (body others).on limits workspace := by
  induction assembled with
  | pure | add | plant | fail | read => exact fun _ _ _ _ _ => rfl
  | @consult _ _ _ _ _ _ parser _ proceeds _ next =>
      intro limits workspace hookless inside holds
      dsimp only
      rw [Builder.on_bind, Builder.on_bind, Builder.on_read]
      have without : (limits.scope workspace.nesting).hooks = {} := hookless
      rcases read : parser (limits.scope workspace.nesting) workspace.words
        with fault | ⟨value, rest⟩
      · rfl
      · have reached := (proceeds.of_ok without holds read).2
        exact next _ _ _ _ without holds read limits { workspace with words := rest } hookless
          inside reached
  | inner inner _ =>
      intro limits workspace hookless inside holds
      exact agree inner limits workspace hookless inside holds
  | bind assembled _ first next =>
      intro limits workspace hookless inside holds
      have reached := assembled.reaches orderly limits workspace hookless holds
      dsimp only
      rw [Builder.on_bind, Builder.on_bind, ← first limits workspace hookless inside holds]
      rcases ran : (_ : Builder _).on limits workspace with ⟨fault | value, behind⟩
      · rfl
      · rw [ran] at reached
        have there : region limits.room behind.nesting := by
          rw [reached.proceeds.nesting]
          exact inside
        exact next value limits behind hookless there (reached.holds value rfl)
  | @within _ _ _ _ _ _ range fits _ body =>
      intro limits workspace hookless inside holds
      dsimp only
      rw [Builder.on_within, Builder.on_within,
        body limits { workspace with words := range } hookless inside fits]
  | bracketed _ body =>
      intro limits workspace hookless inside holds
      dsimp only
      rw [Builder.on_bracketed, Builder.on_bracketed]
      rcases opened : Parser.openGroup workspace.words with fault | group
      · rfl
      obtain ⟨contained, -, -⟩ := Words.shrinks_of_group? (Parser.group?_of_openGroup opened)
      obtain ⟨room, hooks⟩ := limits
      cases room with
      | zero => rfl
      | succ room =>
          simp only [Parser.enter]
          rw [body group.opening { room, hooks } { workspace with words := group.contents } hookless
            (descends.bracket inside) (holds.behind_of_lt contained)]
  | nested _ body =>
      intro limits workspace hookless inside holds
      dsimp only
      rw [Builder.on_nested, Builder.on_nested]
      by_cases fits : workspace.nesting + 1 < limits.room
      · simp only [Parser.checkNesting, if_pos fits]
        rw [body limits { workspace with nesting := workspace.nesting + 1 } hookless
          (descends.level inside fits) holds]
      · simp only [Parser.checkNesting, if_neg fits]
  | attempt _ body =>
      intro limits workspace hookless inside holds
      dsimp only
      rw [Builder.on_attempt, Builder.on_attempt, body limits workspace hookless inside holds]
  | committed _ body =>
      intro limits workspace hookless inside holds
      dsimp only
      rw [Builder.on_committed, Builder.on_committed, body limits workspace hookless inside holds]
  | weaken implies _ body =>
      intro limits workspace hookless inside holds
      exact body limits workspace hookless inside (holds.imp implies)
  | unsettle _ body => exact body
  | forward _ _ body => exact body

end Assembled

end Build

end SelectTree
