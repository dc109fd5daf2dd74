/-
Module: SelectTree.Proofs.Grammar.Orderly
Purpose: parsers that only go forward, with what they report when they refuse the words.
Main exports: Lead, Fault.Plain, Parser.Orderly

Words are counted against a bound.  A lead says how far a parser has come below that bound: it is
enough to know whether a word is consumed for sure, and whether the next word is known to be there.
-/
import SelectTree.Proofs.Grammar.Balance
import SelectTree.Proofs.Words.Cut

namespace SelectTree

/-! ### How far a parser has come -/

/-- How far a parser has come. -/
inductive Lead where
  /-- Perhaps nothing is consumed. -/
  | start
  /-- Perhaps nothing is consumed, but a word is there. -/
  | ahead
  /-- At least one word is consumed. -/
  | behind
deriving DecidableEq

namespace Lead

/-- What is left of at most `bound` words agrees with the lead. -/
def Holds (bound : Nat) (words : Words) : Lead → Prop
  | .start => words.length ≤ bound
  | .ahead => words ≠ [] ∧ words.length ≤ bound
  | .behind => words.length < bound

/-- The lead behind what may have found something: it has consumed a word if it did. -/
def ofFound {α : Type} : Option α → Lead
  | none => .start
  | some _ => .behind

/-- The lead behind what may have consumed the next word, and says so. -/
def ofEaten : Bool → Lead
  | false => .start
  | true => .behind

/-- One lead says at least as much as the other one. -/
def Implies (lead other : Lead) : Prop :=
  other = .start ∨ other = lead

theorem implies_start (lead : Lead) : lead.Implies .start :=
  .inl rfl

variable {bound : Nat} {words rest : Words} {lead other : Lead}

theorem Holds.length_le (holds : lead.Holds bound words) : words.length ≤ bound := by
  cases lead with
  | start => exact holds
  | ahead => exact holds.2
  | behind => exact Nat.le_of_lt holds

/-- What says less holds too. -/
theorem Holds.imp (holds : lead.Holds bound words) (implies : lead.Implies other) :
    other.Holds bound words := by
  rcases implies with rfl | rfl
  · exact holds.length_le
  · exact holds

/-- A lead is kept when words are consumed, except that the next word may be gone. -/
theorem Holds.suffix (holds : lead.Holds bound words) (steady : lead ≠ .ahead)
    (suffix : rest <:+ words) : lead.Holds bound rest := by
  have shorter := suffix.length_le
  cases lead with
  | start => exact Nat.le_trans shorter holds
  | ahead => exact absurd rfl steady
  | behind => exact Nat.lt_of_le_of_lt shorter holds

/-- Fewer words are still behind. -/
theorem Holds.behind_of_le (holds : Lead.behind.Holds bound words)
    (le : rest.length ≤ words.length) : Lead.behind.Holds bound rest :=
  Nat.lt_of_le_of_lt le holds

/-- Where fewer words are left, one is consumed. -/
theorem Holds.behind_of_lt (holds : lead.Holds bound words) (fewer : rest.length < words.length) :
    Lead.behind.Holds bound rest :=
  Nat.lt_of_lt_of_le fewer holds.length_le

end Lead

/-- In a bracket group and behind it there are fewer words than in front of it. -/
theorem Words.shrinks_of_group? {words : Words} {group : Words.Group}
    (found : Words.group? words = some group) :
    group.contents.length < words.length ∧ group.behind <:+ words ∧
      group.behind.length < words.length := by
  obtain ⟨-, -, closing, -, rfl⟩ := Words.exists_of_group? found
  refine ⟨?_, ⟨group.opening :: group.contents ++ [closing], by simp⟩, ?_⟩ <;>
    simp only [List.cons_append, List.length_cons, List.length_append] <;> omega

/-! ### What is reported -/

/-- The cause is the limit on nesting. -/
def Cause.isLimit : Cause → Bool
  | .bracketDepth | .expressionDepth => true
  | _ => false

/-- What the grammar reports by itself: the limit where the cause is the limit, a syntax error for
any other cause, or, as long as the shape is not settled, that the words are not a condition. -/
def Fault.Plain (settled : Bool) (fault : Fault) : Prop :=
  match fault.kind with
  | .syntactic => fault.cause.isLimit = false
  | .notACondition => settled = false ∧ fault.cause.isLimit = false
  | .depthLimit => fault.cause.isLimit = true
  | .lexical | .incomplete => False

namespace Fault.Plain

variable {settled : Bool} {fault : Fault}

theorem about (word : Word) {cause : Cause} (noLimit : cause.isLimit = false) :
    (Fault.about word cause).Plain settled :=
  noLimit

theorem expected (what : String) (words : Words) :
    (Fault.expected .syntactic what words).Plain settled :=
  rfl

/-- A report is good as well where no more is settled. -/
theorem imp {other : Bool} (plain : fault.Plain settled) (le : other = true → settled = true) :
    fault.Plain other := by
  revert plain
  rw [Plain, Plain]
  cases fault.kind with
  | notACondition =>
      rintro ⟨rfl, noLimit⟩
      cases other with
      | false => exact ⟨rfl, noLimit⟩
      | true => cases le rfl
  | _ => exact id

/-- Where a report would be allowed, a fault without it is allowed too. -/
theorem of_settled (plain : fault.Plain true) : fault.Plain settled :=
  plain.imp fun _ => rfl

/-- Unless it says that the words are not a condition, a report is good inside a settled shape. -/
theorem settle (plain : fault.Plain settled) (condition : fault.kind ≠ .notACondition) :
    fault.Plain true := by
  revert plain
  rw [Plain, Plain]
  cases kind : fault.kind with
  | notACondition => exact absurd kind condition
  | _ => exact id

/-- Committing takes back the report that the words are not a condition. -/
theorem committed (plain : fault.Plain settled) : fault.committed.Plain true := by
  by_cases condition : fault.kind = .notACondition
  · rw [Fault.committed, if_pos condition]
    rw [Plain, condition] at plain
    exact plain.2
  · rw [Fault.committed, if_neg condition]
    exact plain.settle condition

/-- A fault that is plain when settled is no report that the words are not a condition. -/
theorem kind_ne (plain : fault.Plain true) : fault.kind ≠ .notACondition := by
  intro kind
  rw [Plain, kind] at plain
  cases plain.1

/-- What is no report of the limit does not mention the limit. -/
theorem isLimit_eq (plain : fault.Plain settled) (kind : fault.kind ≠ .depthLimit) :
    fault.cause.isLimit = false := by
  revert plain
  rw [Plain]
  cases found : fault.kind with
  | depthLimit => exact absurd found kind
  | syntactic => exact id
  | notACondition => exact And.right
  | lexical => exact False.elim
  | incomplete => exact False.elim

end Fault.Plain

namespace Parser

variable {α β : Type}

/-- A bracket that is missing or not closed is a plain fault. -/
theorem plain_of_openGroup {words : Words} {fault : Fault} {settled : Bool}
    (refused : openGroup words = .error fault) : fault.Plain settled := by
  unfold openGroup at refused
  split at refused
  · cases refused
    rfl
  · split at refused
    · split at refused
      · cases refused
      · cases refused
        rfl
    · cases refused
      rfl

/-- That brackets are too deep is a plain fault, as it depends on the brackets alone. -/
theorem plain_of_enter {room : Nat} {contents : Words} {fault : Fault} {settled : Bool}
    (refused : enter room contents = .error fault) : fault.Plain settled := by
  cases room with
  | zero =>
      cases refused
      rfl
  | succ room => cases refused

/-- So is that an expression is too deep. -/
theorem plain_of_checkNesting {room nesting : Nat} {words : Words} {fault : Fault} {settled : Bool}
    (refused : checkNesting room nesting words = .error fault) : fault.Plain settled := by
  unfold checkNesting at refused
  split at refused
  · cases refused
  · cases refused
    rfl

/-! ### Parsers that go forward -/

/-- Without hooks, the parser goes forward over at most `bound` words, comes as far as it says, and
never reports that the words are not a condition. -/
def Orderly (bound : Nat) (before : Lead) (parser : Parser α) (after : α → Lead) : Prop :=
  ∀ (scope : Scope) (words : Words), scope.hooks = {} → before.Holds bound words →
    match parser scope words with
    | .ok (value, rest) => rest <:+ words ∧ (after value).Holds bound rest
    | .error fault => fault.Plain true

namespace Orderly

variable {bound : Nat} {before lead : Lead} {after : α → Lead} {ends : β → Lead}

theorem of_ok {parser : Parser α} (orderly : Orderly bound before parser after) {scope : Scope}
    {words rest : Words} {value : α} (hookless : scope.hooks = {})
    (holds : before.Holds bound words) (read : parser scope words = .ok (value, rest)) :
    rest <:+ words ∧ (after value).Holds bound rest := by
  have outcome := orderly scope words hookless holds
  rw [read] at outcome
  exact outcome

theorem of_error {parser : Parser α} (orderly : Orderly bound before parser after) {scope : Scope}
    {words : Words} {fault : Fault} (hookless : scope.hooks = {})
    (holds : before.Holds bound words) (refused : parser scope words = .error fault) :
    fault.Plain true := by
  have outcome := orderly scope words hookless holds
  rw [refused] at outcome
  exact outcome

theorem pure (value : α) (reached : before.Implies (after value)) :
    Orderly bound before (Pure.pure value) after :=
  fun _ words _ holds => ⟨List.suffix_refl words, holds.imp reached⟩

theorem fail {fault : Fault} (plain : fault.Plain true) :
    Orderly bound before (Parser.fail fault : Parser α) after :=
  fun _ _ _ _ => plain

theorem failAt (word : Word) {cause : Cause} (noLimit : cause.isLimit = false) :
    Orderly bound before (Parser.failAt word cause : Parser α) after :=
  fail (.about word noLimit)

theorem failHere (what : String) :
    Orderly bound before (Parser.failHere what : Parser α) after :=
  fun _ words _ _ => Fault.Plain.expected what words

/-- Behind a refusal nothing follows. -/
theorem refuseAt (word : Word) {cause : Cause} {next : α → Parser β}
    (noLimit : cause.isLimit = false) :
    Orderly bound before (Parser.failAt word cause >>= next) ends :=
  fun _ _ _ _ => Fault.Plain.about word noLimit

/-- The second parser begins where the first one has come. -/
theorem bind {first : Parser α} {next : α → Parser β} (one : Orderly bound before first after)
    (two : ∀ value, Orderly bound (after value) (next value) ends) :
    Orderly bound before (first >>= next) ends := by
  intro scope words hookless holds
  rw [bind_apply]
  rcases read : first scope words with fault | ⟨value, middle⟩
  · exact one.of_error hookless holds read
  · obtain ⟨passed, reached⟩ := one.of_ok hookless holds read
    have goesOn := two value scope middle hookless reached
    simp only
    rcases last : next value scope middle with fault | ⟨result, rest⟩ <;> rw [last] at goesOn
    · exact goesOn
    · exact ⟨goesOn.1.trans passed, goesOn.2⟩

/-- Less may be known where the parser begins. -/
theorem weaken {parser : Parser α} (orderly : Orderly bound lead parser after)
    (reached : before.Implies lead) : Orderly bound before parser after :=
  fun scope words hookless holds => orderly scope words hookless (holds.imp reached)

/-- Going forward keeps what was reached before. -/
theorem forward {parser : Parser α} (orderly : Orderly bound before parser after)
    (steady : before ≠ .ahead) :
    Orderly bound before parser fun _ => before := by
  intro scope words hookless holds
  rcases read : parser scope words with fault | ⟨value, rest⟩
  · exact orderly.of_error hookless holds read
  · obtain ⟨passed, -⟩ := orderly.of_ok hookless holds read
    exact ⟨passed, holds.suffix steady passed⟩

/-- A part that goes forward to wherever it likes. -/
theorem seq {first : Parser α} {next : α → Parser β} (one : Orderly bound before first after)
    (two : ∀ value, Orderly bound .start (next value) ends) :
    Orderly bound before (first >>= next) ends :=
  one.bind fun value => (two value).weaken (after value).implies_start

/-- Behind a consumed word, going forward stays behind it. -/
theorem onward {parser : Parser α} (orderly : Orderly bound .start parser after) :
    Orderly bound .behind parser fun _ => .behind :=
  (orderly.weaken (.inl rfl)).forward (by decide)

/-- A part that consumes a word, and anything that goes forward. -/
theorem follow {first : Parser α} {next : α → Parser β}
    (one : Orderly bound before first fun _ => .behind)
    (two : ∀ value, Orderly bound .start (next value) fun _ => .start) :
    Orderly bound before (first >>= next) fun _ => .behind :=
  one.bind fun value => (two value).onward

theorem remaining : Orderly bound before Parser.remaining fun _ => before :=
  fun _ words _ holds => ⟨List.suffix_refl words, holds⟩

/-- Looking does not move. -/
theorem peek : Orderly bound before Parser.peek fun _ => before :=
  fun _ words _ holds => ⟨List.suffix_refl words, holds⟩

theorem check (kind : TokenKind) : Orderly bound before (Parser.check kind) fun _ => before :=
  fun _ words _ holds => ⟨List.suffix_refl words, holds⟩

/-- The next word is looked at; if there is one, it is known to be there. -/
theorem peekAhead :
    Orderly bound .start Parser.peek fun next => next.elim .start fun _ => .ahead := by
  intro scope words _ holds
  refine ⟨List.suffix_refl words, ?_⟩
  cases words with
  | nil => exact holds
  | cons word rest => exact ⟨nofun, holds⟩

/-- A word that is seen is there, so it may be consumed. -/
theorem ahead {next : Option Word → Parser β} (absent : Orderly bound .start (next none) ends)
    (present : ∀ word, Orderly bound .ahead (next (some word)) ends) :
    Orderly bound .start (Parser.peek >>= next) ends := by
  refine bind peekAhead fun word => ?_
  cases word with
  | none => exact absent
  | some word => exact present word

/-- It is looked whether the next word is of a kind; if so, it is known to be there. -/
theorem checked {kind : TokenKind} {next : Bool → Parser β}
    (absent : Orderly bound .start (next false) ends)
    (present : Orderly bound .ahead (next true) ends) :
    Orderly bound .start (Parser.check kind >>= next) ends := by
  have atWord (word : Word) : Orderly bound .ahead (next (word.kind == kind)) ends := by
    cases word.kind == kind with
    | false => exact absent.weaken (Lead.implies_start _)
    | true => exact present
  have goesOn : Orderly bound .start
      (Parser.peek >>= fun word => next (word.any (·.kind == kind))) ends :=
    ahead absent atWord
  exact goesOn

/-- Skipping may come to the end, where no word is ahead. -/
theorem skip (count : Nat) (steady : before ≠ .ahead) :
    Orderly bound before (Parser.skip count) fun _ => before :=
  fun _ words _ holds =>
    ⟨List.drop_suffix count words, holds.suffix steady (List.drop_suffix count words)⟩

/-- Where a word is there, it is consumed. -/
theorem skipAhead (count : Nat) :
    Orderly bound .ahead (Parser.skip (count + 1)) fun _ => .behind := by
  rintro scope words - ⟨present, le⟩
  cases words with
  | nil => exact absurd rfl present
  | cons word rest =>
      refine ⟨List.drop_suffix _ _, ?_⟩
      have shorter : (rest.drop count).length ≤ rest.length := by simp
      exact Nat.lt_of_lt_of_le (Nat.lt_succ_of_le shorter) le

/-- A word that is eaten is behind. -/
theorem eat (kind : TokenKind) : Orderly bound .start (Parser.eat kind) Lead.ofEaten := by
  apply checked
  · exact .pure false (.inl rfl)
  · exact (skipAhead 0).bind fun _ => .pure true (.inr rfl)

theorem eatKeyword (keyword : Keyword) :
    Orderly bound .start (Parser.eatKeyword keyword) Lead.ofEaten :=
  eat (.keyword keyword)

/-- A keyword by itself says the answer, or the words are read in some other way. -/
theorem eatOr {keyword : Keyword} {value : α} {otherwise : Parser α}
    (reached : Lead.behind.Implies (after value))
    (orderly : Orderly bound .start otherwise after) :
    Orderly bound .start
      (do if ← Parser.eatKeyword keyword then Pure.pure value else otherwise) after := by
  refine bind (eatKeyword keyword) fun eaten => ?_
  cases eaten with
  | true => exact .pure value reached
  | false => exact orderly

/-- A word that was expected and is there is behind. -/
theorem expect (kind : TokenKind) (what : String) :
    Orderly bound .start (Parser.expect kind what) fun _ => .behind := by
  apply ahead
  · exact .failHere what
  · intro word
    simp only
    split
    · exact (skipAhead 0).bind fun _ => .pure word (.inr rfl)
    · exact .failHere what

theorem expectKeyword (keyword : Keyword) :
    Orderly bound .start (Parser.expectKeyword keyword) fun _ => .behind :=
  expect (.keyword keyword) keyword.text

theorem expectEnd : Orderly bound before Parser.expectEnd fun _ => before := by
  refine bind .peek fun next => ?_
  cases next with
  | none => exact .pure () (.inr rfl)
  | some word => exact .failAt word rfl

theorem startsStatement : Orderly bound before Parser.startsStatement fun _ => before :=
  fun _ words _ holds => ⟨List.suffix_refl words, holds⟩

theorem identifier (what : String) :
    Orderly bound .start (Parser.identifier what) fun _ => .behind := by
  apply ahead
  · exact .failHere what
  · intro word
    rw [Option.bind_some]
    split
    · next name _ => exact (skipAhead 0).bind fun _ => .pure name (.inr rfl)
    · exact .failHere what

/-- An alias that is found is behind. -/
theorem aliasName (allowString : Bool) :
    Orderly bound .start (Parser.aliasName allowString) Lead.ofFound := by
  refine bind (.eatKeyword .AS) fun eaten => ?_
  cases eaten with
  | true =>
      refine bind .peek fun next => ?_
      split
      · next name _ => exact bind (.skip 1 (by decide)) fun _ => .pure (some name) (.inr rfl)
      · exact (identifier "an alias after AS").onward.bind fun name => .pure (some name) (.inr rfl)
  | false =>
      refine ahead (.pure none (.inl rfl)) fun word => ?_
      rw [Option.bind_some]
      split
      · next name _ => exact (skipAhead 0).bind fun _ => .pure (some name) (.inr rfl)
      · exact .pure none (.inl rfl)

/-- Without a hook nothing happens. -/
theorem hooked {choose : Hooks → Option (Hook α)} (noHook : choose {} = none) :
    Orderly bound before (Parser.hooked choose) fun _ => before := by
  intro scope words hookless holds
  rw [hooked_eq_none (by rw [hookless]; exact noHook)]
  exact ⟨List.suffix_refl words, holds⟩

/-- A range of its own does not move the words. -/
theorem within {body : Parser α} {range : Words} (fits : lead.Holds bound range)
    (orderly : Orderly bound lead body after) :
    Orderly bound before (Parser.within range body) fun _ => before := by
  intro scope words hookless holds
  rw [within_apply]
  rcases read : body scope range with fault | ⟨value, rest⟩
  · exact orderly.of_error hookless fits read
  · exact ⟨List.suffix_refl words, holds⟩

theorem wholly {body : Parser α} (orderly : Orderly bound before body after) :
    Orderly bound before (Parser.wholly body) after :=
  orderly.bind fun value => expectEnd.bind fun _ => .pure value (.inr rfl)

/-- Behind brackets at least one word is consumed. -/
theorem bracketed {body : Word → Parser α}
    (orderly : ∀ opening, Orderly bound .start (body opening) fun _ => .start) :
    Orderly bound before (Parser.bracketed body) fun _ => .behind := by
  intro scope words hookless holds
  rw [bracketed_apply]
  rcases opened : openGroup words with fault | group
  · exact plain_of_openGroup opened
  obtain ⟨inside, passed, outside⟩ := Words.shrinks_of_group? (group?_of_openGroup opened)
  simp only
  rcases entered : enter scope.room group.contents with fault | room
  · exact plain_of_enter entered
  simp only
  have without : ({ scope with room } : Scope).hooks = {} := hookless
  rcases read : body group.opening { scope with room } group.contents with fault | ⟨value, rest⟩
  · exact (orderly group.opening).of_error without (holds.behind_of_lt inside).length_le read
  · exact ⟨passed, holds.behind_of_lt outside⟩

/-- Segments are read within their bracket and do not move the words behind it. -/
theorem segments {item : Parser α} (orderly : Orderly bound .start item after) :
    Orderly bound .start (Parser.segments item) fun _ => .start := by
  have each (found : List Words) (fit : ∀ segment ∈ found, segment.length ≤ bound) :
      Orderly bound .start
        (found.mapM fun segment => Parser.within segment (Parser.wholly item))
        fun _ => .start := by
    induction found with
    | nil => exact .pure [] (.inl rfl)
    | cons segment found ih =>
        rw [List.mapM_cons]
        have fits : Lead.start.Holds bound segment := fit segment List.mem_cons_self
        refine (within fits orderly.wholly).bind fun first => ?_
        refine (ih fun other member => fit other (List.mem_cons_of_mem segment member)).bind ?_
        exact fun others => .pure (first :: others) (.inl rfl)
  intro scope words hookless holds
  have rest : Orderly bound .start (do
      let found ← (Words.splitCommas words).mapM fun segment =>
        Parser.within segment (Parser.wholly item)
      Parser.skip words.length
      Pure.pure found) fun _ => .start := by
    refine (each _ fun segment member => ?_).bind fun found => ?_
    · exact Nat.le_trans (Words.sublist_of_splitCommas member).length_le holds
    · exact bind (.skip words.length (by decide)) fun _ => .pure found (.inl rfl)
  exact rest scope words hookless holds

/-- By induction on the number of items that are looked for at most. -/
theorem manyUpTo {item : Parser (Option α)} {found : Option α → Lead}
    (orderly : Orderly bound .start item found) (count : Nat) :
    Orderly bound .start (Parser.manyUpTo item count) fun _ => .start := by
  induction count with
  | zero => exact .pure [] (.inl rfl)
  | succ count ih =>
      refine orderly.seq fun next => ?_
      cases next with
      | none => exact .pure [] (.inl rfl)
      | some first => exact ih.bind fun others => .pure (first :: others) (.inl rfl)

theorem many {item : Parser (Option α)} {found : Option α → Lead}
    (orderly : Orderly bound .start item found) :
    Orderly bound .start (Parser.many item) fun _ => .start :=
  bind .remaining fun words => manyUpTo orderly words.length

end Orderly

end Parser

end SelectTree
