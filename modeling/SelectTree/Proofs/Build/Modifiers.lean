/-
Module: SelectTree.Proofs.Build.Modifiers
Purpose: what the order of the modifiers in front of the columns of a select block means.
Main exports: WrittenModifier, Words.BeginsColumns, Build.WrittenBlock, Build.modifiers_permuted

Of `DISTINCT` and `ALL` each takes back what the one before it said, and a `TOP` clause is read in
the same way wherever it stands: neither a modifier nor a column begins with a word that goes on
with it.
-/
import SelectTree.Proofs.Build.TopClause

namespace SelectTree

/-! ### Modifiers as they are written -/

/-- A modifier as it is written. -/
inductive WrittenModifier where
  | distinct (word : Word) (isDistinct : word.kind = .keyword .DISTINCT)
  | all (word : Word) (isAll : word.kind = .keyword .ALL)
  | top (clause : TopClause)

namespace WrittenModifier

/-- The words of the modifier. -/
def words : WrittenModifier → Words
  | .distinct word _ | .all word _ => [word]
  | .top clause => clause.words

/-- What the modifier says about duplicates. -/
def flag? : WrittenModifier → Option Bool
  | .distinct .. => some true
  | .all .. => some false
  | .top _ => none

/-- The modifier is a `TOP` clause. -/
def isTop : WrittenModifier → Bool
  | .top _ => true
  | _ => false

/-- The words of modifiers, one behind the other. -/
def written (modifiers : List WrittenModifier) : Words :=
  modifiers.flatMap words

/-- What the last modifier says that says something about duplicates, or what was said before. -/
def lastFlag (said : Bool) (modifiers : List WrittenModifier) : Bool :=
  (modifiers.filterMap flag?).getLast?.getD said

/-- Duplicates are removed if `DISTINCT` is the last word that says something about them. -/
def isDistinct (modifiers : List WrittenModifier) : Bool :=
  lastFlag false modifiers

variable {modifiers : List WrittenModifier}

@[simp] theorem written_cons (modifier : WrittenModifier) (modifiers : List WrittenModifier) :
    written (modifier :: modifiers) = modifier.words ++ written modifiers :=
  List.flatMap_cons

theorem written_append (front back : List WrittenModifier) :
    written (front ++ back) = written front ++ written back :=
  List.flatMap_append

theorem lastFlag_flag {modifier : WrittenModifier} {flag : Bool}
    (isFlag : modifier.flag? = some flag) (said : Bool) (modifiers : List WrittenModifier) :
    lastFlag said (modifier :: modifiers) = lastFlag flag modifiers := by
  rw [lastFlag, List.filterMap_cons_some isFlag, List.getLast?_cons]
  rfl

theorem lastFlag_append (said : Bool) (front back : List WrittenModifier) :
    lastFlag said (front ++ back) = lastFlag (lastFlag said front) back := by
  rw [lastFlag, List.filterMap_append, List.getLast?_append, lastFlag, lastFlag]
  cases (back.filterMap flag?).getLast? <;> rfl

theorem lastFlag_top (said : Bool) (clause : TopClause) (modifiers : List WrittenModifier) :
    lastFlag said (.top clause :: modifiers) = lastFlag said modifiers := by
  rw [lastFlag, List.filterMap_cons_none (by rfl), lastFlag]

theorem length_le_written (modifiers : List WrittenModifier) :
    modifiers.length ≤ (written modifiers).length := by
  induction modifiers with
  | nil => exact Nat.le_refl 0
  | cons modifier modifiers ih =>
      have solid : 1 ≤ modifier.words.length := by
        cases modifier with
        | distinct | all => exact Nat.le_refl 1
        | top clause => exact Nat.succ_le_succ (Nat.zero_le _)
      rw [written_cons, List.length_append, List.length_cons]
      omega

/-- At most one `TOP` clause stands among the words about duplicates. -/
theorem flags_or_split {modifiers : List WrittenModifier}
    (single : modifiers.countP (·.isTop) ≤ 1) :
    (∀ modifier ∈ modifiers, modifier.isTop = false) ∨
      ∃ front clause back, modifiers = front ++ .top clause :: back ∧
        (∀ modifier ∈ front, modifier.isTop = false) ∧
        ∀ modifier ∈ back, modifier.isTop = false := by
  induction modifiers with
  | nil => exact .inl (List.forall_mem_nil _)
  | cons modifier modifiers ih =>
      cases isTop : modifier.isTop with
      | true =>
          rw [List.countP_cons_of_pos isTop] at single
          have none : modifiers.countP (·.isTop) = 0 :=
            Nat.le_zero.1 (Nat.le_of_succ_le_succ single)
          have flags : ∀ other ∈ modifiers, other.isTop = false := by
            simpa using List.countP_eq_zero.1 none
          cases modifier with
          | top clause => exact .inr ⟨[], clause, modifiers, rfl, List.forall_mem_nil _, flags⟩
          | distinct | all => cases isTop
      | false =>
          rw [List.countP_cons_of_neg (by simp [isTop])] at single
          rcases ih single with flags | ⟨front, clause, back, rfl, flagsFront, flagsBack⟩
          · exact .inl (List.forall_mem_cons.2 ⟨isTop, flags⟩)
          · exact .inr ⟨modifier :: front, clause, back, rfl,
              List.forall_mem_cons.2 ⟨isTop, flagsFront⟩, flagsBack⟩

/-- Unless both `DISTINCT` and `ALL` are there, the order does not matter for duplicates. -/
theorem isDistinct_eq_of_perm {permuted modifiers : List WrittenModifier}
    (perm : permuted.Perm modifiers)
    (one : some true ∉ modifiers.map flag? ∨ some false ∉ modifiers.map flag?) :
    isDistinct permuted = isDistinct modifiers := by
  obtain ⟨flag, alike⟩ : ∃ flag, ∀ found ∈ modifiers.filterMap flag?, found = flag := by
    rcases one with noDistinct | noAll
    · refine ⟨false, fun found member => ?_⟩
      obtain ⟨modifier, isModifier, isFound⟩ := List.mem_filterMap.1 member
      cases found with
      | false => rfl
      | true => exact absurd (List.mem_map.2 ⟨modifier, isModifier, isFound⟩) noDistinct
    · refine ⟨true, fun found member => ?_⟩
      obtain ⟨modifier, isModifier, isFound⟩ := List.mem_filterMap.1 member
      cases found with
      | true => rfl
      | false => exact absurd (List.mem_map.2 ⟨modifier, isModifier, isFound⟩) noAll
  have same := perm.filterMap flag?
  rw [List.eq_replicate_of_mem alike, List.perm_replicate, ← List.eq_replicate_of_mem alike] at same
  rw [isDistinct, lastFlag, same, isDistinct, lastFlag]

end WrittenModifier

namespace Words

/-- The keywords that begin a modifier, or go on with one. -/
def modifierKeywords : List Keyword :=
  [.DISTINCT, .ALL, .TOP, .PERCENT, .WITH]

/-- The words do not begin with a word of a modifier. -/
def BeginsColumns (words : Words) : Prop :=
  ∀ word ∈ words.head?, ∀ keyword ∈ modifierKeywords, word.kind ≠ .keyword keyword

instance (words : Words) : Decidable words.BeginsColumns :=
  inferInstanceAs (Decidable (∀ word ∈ words.head?, ∀ keyword ∈ modifierKeywords,
    word.kind ≠ .keyword keyword))

theorem BeginsColumns.endsTop {words : Words} (begins : BeginsColumns words) : EndsTop words :=
  fun word isFirst =>
    ⟨begins word isFirst .PERCENT (by decide), begins word isFirst .WITH (by decide)⟩

/-- Behind a `TOP` clause the words of the other modifiers do not go on with it. -/
theorem endsTop_written {modifiers : List WrittenModifier} {columns : Words}
    (flags : ∀ modifier ∈ modifiers, modifier.isTop = false) (begins : BeginsColumns columns) :
    EndsTop (WrittenModifier.written modifiers ++ columns) := by
  cases modifiers with
  | nil => exact begins.endsTop
  | cons modifier modifiers =>
      obtain ⟨here, -⟩ := List.forall_mem_cons.1 flags
      cases modifier with
      | distinct word isKeyword | all word isKeyword =>
          rintro first ⟨⟩
          rw [isKeyword]
          decide
      | top clause => cases here

end Words

namespace Build

open SelectTree.Words (BeginsColumns)
open WrittenModifier (written lastFlag isDistinct)

section

variable {rules : Rules} {limits : Limits} {rest : Words}

/-! ### One modifier after the other -/

/-- A word that says something about duplicates is taken as it stands there. -/
theorem on_modifier_flag (rules : Rules) (limits : Limits) {modifier : WrittenModifier}
    (noTop : modifier.isTop = false) (state : Modifiers) (before : Workspace) (rest : Words) :
    ∃ next flag, modifier.flag? = some flag ∧
      state.add next = { state with distinct := flag } ∧
      (Build.modifier rules state).on limits { before with words := modifier.words ++ rest } =
        (.ok (some next), { before with words := rest }) := by
  cases modifier with
  | distinct word isDistinct =>
      obtain ⟨kind, text, glued, index⟩ := word
      obtain rfl : kind = .keyword .DISTINCT := isDistinct
      exact ⟨.distinct, true, rfl, rfl, rfl⟩
  | all word isAll =>
      obtain ⟨kind, text, glued, index⟩ := word
      obtain rfl : kind = .keyword .ALL := isAll
      exact ⟨.all, false, rfl, rfl, rfl⟩
  | top clause => cases noTop

/-- The words about duplicates are taken from the first to the last. -/
theorem on_modifiersUpTo_flags {modifiers : List WrittenModifier}
    (flags : ∀ modifier ∈ modifiers, modifier.isTop = false) (count : Nat) (state : Modifiers)
    (before : Workspace) :
    (modifiersUpTo rules (modifiers.length + count) state).on limits
        { before with words := written modifiers ++ rest } =
      (modifiersUpTo rules count
        { state with distinct := lastFlag state.distinct modifiers }).on limits
          { before with words := rest } := by
  induction modifiers generalizing state with
  | nil => rw [List.length_nil, Nat.zero_add]; rfl
  | cons modifier modifiers ih =>
      obtain ⟨here, further⟩ := List.forall_mem_cons.1 flags
      obtain ⟨next, flag, isFlag, added, ran⟩ :=
        on_modifier_flag rules limits here state before (written modifiers ++ rest)
      rw [List.length_cons, Nat.add_right_comm, modifiersUpTo, Builder.on_bind,
        WrittenModifier.written_cons, List.append_assoc, ran]
      simp only
      rw [added, ih further, WrittenModifier.lastFlag_flag isFlag]

theorem on_modifier_top (rules : Rules) (limits : Limits) {word : Word}
    (isTop : word.kind = .keyword .TOP) {state : Modifiers} (noTop : state.top = none)
    (before : Workspace) (rest : Words) :
    (modifier rules state).on limits { before with words := word :: rest } =
      (do return some (.top (← top rules)) : Builder (Option Modifier)).on limits
        { before with words := word :: rest } := by
  obtain ⟨kind, text, glued, index⟩ := word
  obtain rfl : kind = .keyword .TOP := isTop
  obtain ⟨found, distinct⟩ := state
  obtain rfl : found = none := noTop
  rfl

/-- At the first `TOP` clause the clause is read. -/
theorem on_modifiersUpTo_top {clause : TopClause} {state : Modifiers} {before after : Workspace}
    {id : NodeId} (noTop : state.top = none)
    (ran : (top rules).on limits { before with words := clause.words ++ rest } =
      (.ok id, after)) (count : Nat) :
    (modifiersUpTo rules (count + 1) state).on limits
        { before with words := clause.words ++ rest } =
      (modifiersUpTo rules count { state with top := some id }).on limits after := by
  have words : clause.words ++ rest = clause.top :: _ := rfl
  rw [words] at ran ⊢
  rw [modifiersUpTo, Builder.on_bind, on_modifier_top rules limits clause.isTop noTop,
    Builder.on_bind, ran]
  rfl

/-- Behind the last modifier none is found. -/
theorem on_modifier_columns {columns : Words} (begins : BeginsColumns columns)
    (state : Modifiers) (before : Workspace) :
    (modifier rules state).on limits { before with words := columns } =
      (.ok none, { before with words := columns }) := by
  have other {keyword : Keyword} (member : keyword ∈ Words.modifierKeywords) :
      ∀ word ∈ columns.head?, word.kind ≠ .keyword keyword :=
    fun word isFirst => begins word isFirst keyword member
  refine Builder.on_bind_ok_iff.2 ⟨_, _, on_eatKeyword_other (other (by decide)), ?_⟩
  refine Builder.on_bind_ok_iff.2 ⟨_, _, on_eatKeyword_other (other (by decide)), ?_⟩
  cases state.top with
  | some id => rfl
  | none =>
      have noTop : columns.head?.any (·.kind == .keyword .TOP) = false :=
        any_head?_eq_false (other (by decide))
      refine Builder.on_bind_ok_iff.2 ⟨false, _, ?_, rfl⟩
      rw [Builder.on_read, Parser.checkKeyword, Parser.check_apply, noTop]

/-- In front of the columns the loop ends. -/
theorem on_modifiersUpTo_columns {columns : Words} (begins : BeginsColumns columns) (count : Nat)
    (state : Modifiers) (before : Workspace) :
    (modifiersUpTo rules count state).on limits { before with words := columns } =
      (.ok state, { before with words := columns }) := by
  cases count with
  | zero => rfl
  | succ count =>
      rw [modifiersUpTo, Builder.on_bind, on_modifier_columns begins]
      rfl

/-- Modifiers without a `TOP` clause. -/
theorem on_modifiers_flags {modifiers : List WrittenModifier} {columns : Words}
    (flags : ∀ modifier ∈ modifiers, modifier.isTop = false) (begins : BeginsColumns columns)
    (before : Workspace) :
    (Build.modifiers rules).on limits { before with words := written modifiers ++ columns } =
      (.ok { distinct := isDistinct modifiers }, { before with words := columns }) := by
  have enough := WrittenModifier.length_le_written modifiers
  obtain ⟨more, length⟩ : ∃ more, (written modifiers ++ columns).length = modifiers.length + more :=
    Nat.exists_eq_add_of_le (by rw [List.length_append]; omega)
  refine Builder.on_bind_ok_iff.2 ⟨_, _, rfl, ?_⟩
  rw [length]
  exact (on_modifiersUpTo_flags flags more {} before).trans
    (on_modifiersUpTo_columns begins more _ before)

/-- In front of a `TOP` clause the words about duplicates are taken, and rounds enough are left. -/
theorem exists_on_modifiers (rules : Rules) (limits : Limits) {front : List WrittenModifier}
    (flagsFront : ∀ modifier ∈ front, modifier.isTop = false) (clause : TopClause)
    (back : List WrittenModifier) (columns : Words) (before : Workspace) :
    ∃ more, (Build.modifiers rules).on limits
        { before with words := written (front ++ .top clause :: back) ++ columns } =
      (modifiersUpTo rules (back.length + more + 1) { distinct := lastFlag false front }).on limits
        { before with words := clause.words ++ (written back ++ columns) } := by
  have enough := WrittenModifier.length_le_written (front ++ .top clause :: back)
  rw [List.length_append, List.length_cons] at enough
  obtain ⟨more, length⟩ := Nat.exists_eq_add_of_le enough
  have parts : written (front ++ .top clause :: back) ++ columns =
      written front ++ (clause.words ++ (written back ++ columns)) := by
    rw [WrittenModifier.written_append, WrittenModifier.written_cons, List.append_assoc,
      List.append_assoc]
    rfl
  have rounds : (written (front ++ .top clause :: back) ++ columns).length =
      front.length + (back.length + (more + columns.length) + 1) := by
    rw [List.length_append, length]
    omega
  refine ⟨more + columns.length, ?_⟩
  rw [Build.modifiers, Builder.on_bind, Builder.on_read]
  change (modifiersUpTo rules (written (front ++ .top clause :: back) ++ columns).length {}).on
    limits { before with words := written (front ++ .top clause :: back) ++ columns } = _
  rw [rounds, parts]
  exact on_modifiersUpTo_flags flagsFront _ {} before

/-- Modifiers around a `TOP` clause, which is read in the middle of them. -/
theorem on_modifiers_top {front back : List WrittenModifier} {clause : TopClause}
    {columns : Words} {before after : Workspace} {id : NodeId}
    (flagsFront : ∀ modifier ∈ front, modifier.isTop = false)
    (flagsBack : ∀ modifier ∈ back, modifier.isTop = false) (begins : BeginsColumns columns)
    (reads : ReadsTop rules limits before clause id after) :
    (Build.modifiers rules).on limits
        { before with words := written (front ++ .top clause :: back) ++ columns } =
      (.ok { top := some id, distinct := isDistinct (front ++ .top clause :: back) },
        { after with words := columns }) := by
  obtain ⟨more, ran⟩ := exists_on_modifiers rules limits flagsFront clause back columns before
  have readsHere := reads _ (Words.endsTop_written flagsBack begins)
  rw [ran, isDistinct, WrittenModifier.lastFlag_append, WrittenModifier.lastFlag_top]
  calc (modifiersUpTo rules (back.length + more + 1) { distinct := lastFlag false front }).on limits
        { before with words := clause.words ++ (written back ++ columns) }
      = (modifiersUpTo rules (back.length + more)
          { top := some id, distinct := lastFlag false front }).on limits
            { after with words := written back ++ columns } :=
        on_modifiersUpTo_top rfl readsHere _
    _ = (modifiersUpTo rules more
          { top := some id, distinct := lastFlag (lastFlag false front) back }).on limits
            { after with words := columns } :=
        on_modifiersUpTo_flags flagsBack _ _ after
    _ = _ := on_modifiersUpTo_columns begins more _ after

/-- A `TOP` clause among accepted modifiers is accepted by itself. -/
theorem exists_ran_top {front back : List WrittenModifier} {clause : TopClause} {columns : Words}
    {before middle : Workspace} {found : Modifiers}
    (flagsFront : ∀ modifier ∈ front, modifier.isTop = false)
    (ran : (Build.modifiers rules).on limits
      { before with words := written (front ++ .top clause :: back) ++ columns } =
        (.ok found, middle)) :
    ∃ id after, (top rules).on limits
      { before with words := clause.words ++ (written back ++ columns) } = (.ok id, after) := by
  obtain ⟨more, same⟩ := exists_on_modifiers rules limits flagsFront clause back columns before
  rw [same] at ran
  obtain ⟨next, _, ranModifier, -⟩ := Builder.on_bind_ok_iff.1 ran
  have words : clause.words ++ (written back ++ columns) = clause.top :: _ := rfl
  rw [words] at ranModifier ⊢
  rw [on_modifier_top rules limits clause.isTop rfl] at ranModifier
  obtain ⟨id, after, ranTop, -⟩ := Builder.on_bind_ok_iff.1 ranModifier
  exact ⟨id, after, ranTop⟩

/-- Accepted modifiers are accepted in every order, with the same `TOP` clause. -/
theorem exists_on_permuted {depth : Nat} (hookless : limits.hooks = {})
    {modifiers : List WrittenModifier} (single : modifiers.countP (·.isTop) ≤ 1) {columns : Words}
    (begins : BeginsColumns columns) {before middle : Workspace} {found : Modifiers}
    (ran : (Build.modifiers (Build.rules depth)).on limits
      { before with words := written modifiers ++ columns } = (.ok found, middle)) :
    ∃ (top : Slot) (after : Workspace), ∀ permuted, permuted.Perm modifiers →
      (Build.modifiers (Build.rules depth)).on limits
          { before with words := written permuted ++ columns } =
        (.ok { top, distinct := isDistinct permuted }, { after with words := columns }) := by
  rcases WrittenModifier.flags_or_split single with
    flags | ⟨front, clause, back, rfl, flagsFront, flagsBack⟩
  · refine ⟨none, before, fun permuted perm => ?_⟩
    have permutedFlags : ∀ modifier ∈ permuted, modifier.isTop = false :=
      fun modifier member => flags modifier (perm.mem_iff.1 member)
    exact on_modifiers_flags permutedFlags begins before
  · obtain ⟨_, _, ranTop⟩ := exists_ran_top flagsFront ran
    obtain ⟨id, after, reads⟩ := exists_readsTop hookless ranTop
    refine ⟨some id, after, fun permuted perm => ?_⟩
    rw [← perm.countP_eq] at single
    rcases WrittenModifier.flags_or_split single with
      flags | ⟨permutedFront, other, permutedBack, rfl, flagsPermuted, flagsBehind⟩
    · cases flags (.top clause) (perm.mem_iff.2 (List.mem_append_right _ List.mem_cons_self))
    · obtain rfl : other = clause := by
        have member : .top other ∈ front ++ .top clause :: back :=
          perm.mem_iff.1 (List.mem_append_right _ List.mem_cons_self)
        rcases List.mem_append.1 member with member | member
        · cases flagsFront _ member
        · rcases List.mem_cons.1 member with same | member
          · exact WrittenModifier.top.inj same
          · cases flagsBack _ member
      exact on_modifiers_top flagsPermuted flagsBehind begins reads

/-! ### How the modifiers of an accepted block are written -/

theorem modifier_cases {state : Modifiers} {before after : Workspace} {found : Option Modifier}
    (ran : (modifier rules state).on limits before = (.ok found, after)) :
    (found = none ∧ after = before) ∨
      (∃ (modifier : WrittenModifier) (next : Modifier), found = some next ∧
        before.words = modifier.words ++ after.words ∧ modifier.isTop = false ∧
        (state.add next).top = state.top) ∨
      ∃ id, found = some (.top id) ∧ state.top = none ∧
        (top rules).on limits before = (.ok id, after) := by
  obtain ⟨_, _, readDistinct, behindDistinct⟩ := Builder.on_bind_ok_iff.1 ran
  rcases Builder.on_eat_cases readDistinct with
    ⟨rfl, -, rfl⟩ | ⟨word, rest, rfl, words, isDistinct, rfl⟩
  · obtain ⟨_, _, readAll, behindAll⟩ := Builder.on_bind_ok_iff.1 behindDistinct
    rcases Builder.on_eat_cases readAll with ⟨rfl, -, rfl⟩ | ⟨word, rest, rfl, words, isAll, rfl⟩
    · simp only [Bool.false_eq_true, if_false] at behindAll
      cases noTop : state.top with
      | some id =>
          rw [noTop] at behindAll
          cases behindAll
          exact .inl ⟨rfl, rfl⟩
      | none =>
          rw [noTop] at behindAll
          obtain ⟨isTop, _, ⟨⟩, behindLook⟩ := Builder.on_bind_ok_iff.1 behindAll
          split at behindLook
          · obtain ⟨id, _, ranTop, ended⟩ := Builder.on_bind_ok_iff.1 behindLook
            cases ended
            exact .inr (.inr ⟨id, rfl, rfl, ranTop⟩)
          · cases behindLook
            exact .inl ⟨rfl, rfl⟩
    · cases behindAll
      exact .inr (.inl ⟨.all word isAll, _, rfl, words, rfl, rfl⟩)
  · cases behindDistinct
    exact .inr (.inl ⟨.distinct word isDistinct, _, rfl, words, rfl, rfl⟩)

/-- What the loop takes are modifiers, and at most one of them is a `TOP` clause. -/
theorem exists_written {depth count : Nat} (hookless : limits.hooks = {}) {state result : Modifiers}
    {before after : Workspace}
    (ran : (modifiersUpTo (Build.rules depth) count state).on limits before =
      (.ok result, after)) :
    ∃ modifiers : List WrittenModifier, before.words = written modifiers ++ after.words ∧
      modifiers.countP (·.isTop) ≤ if state.top.isSome then 0 else 1 := by
  induction count generalizing state before with
  | zero =>
      cases ran
      exact ⟨[], rfl, Nat.zero_le _⟩
  | succ count ih =>
      obtain ⟨found, middle, ranModifier, behindModifier⟩ := Builder.on_bind_ok_iff.1 ran
      rcases modifier_cases ranModifier with
        ⟨rfl, rfl⟩ | ⟨modifier, next, rfl, words, noTop, same⟩ | ⟨id, rfl, noTop, ranTop⟩
      · cases behindModifier
        exact ⟨[], rfl, Nat.zero_le _⟩
      · obtain ⟨modifiers, further, few⟩ := ih behindModifier
        refine ⟨modifier :: modifiers, ?_, ?_⟩
        · rw [words, further, WrittenModifier.written_cons, List.append_assoc]
        · rw [List.countP_cons_of_neg (by simp [noTop])]
          rwa [same] at few
      · obtain ⟨clause, words⟩ := exists_topClause hookless ranTop
        obtain ⟨modifiers, further, few⟩ := ih behindModifier
        refine ⟨.top clause :: modifiers, ?_, ?_⟩
        · rw [words, further, WrittenModifier.written_cons, List.append_assoc]
          rfl
        · have none : modifiers.countP (·.isTop) ≤ 0 := few
          rw [List.countP_cons_of_pos rfl, noTop]
          exact Nat.succ_le_succ none

/-- No column begins with a word of a modifier. -/
theorem on_operand_modifier (rules : Rules) {word : Word} {keyword : Keyword}
    (hookless : limits.hooks = {}) (isKeyword : word.kind = .keyword keyword)
    (member : keyword ∈ Words.modifierKeywords) (before : Workspace) (rest : Words) :
    ∃ fault, (operand rules).on limits { before with words := word :: rest } =
      (.error fault, { before with words := word :: rest }) := by
  rw [on_operand_hookless hookless]
  obtain ⟨kind, text, glued, index⟩ := word
  obtain rfl : kind = .keyword keyword := isKeyword
  simp only [Words.modifierKeywords, List.mem_cons, List.not_mem_nil, or_false] at member
  rcases member with rfl | rfl | rfl | rfl | rfl <;> exact ⟨_, rfl⟩

theorem beginsColumns_of_ran {depth : Nat} (hookless : limits.hooks = {})
    {before after : Workspace} {columns : NodeId × List NodeId}
    (ran : (Builder.commaList (selectColumn (Build.rules depth).column)).on limits before =
      (.ok columns, after)) : BeginsColumns before.words := by
  intro word isFirst keyword member isKeyword
  obtain ⟨words, nesting, tree⟩ := before
  obtain ⟨rest, rfl⟩ := List.head?_eq_some_iff.1 isFirst
  obtain ⟨_, _, ranFirst, -⟩ := Builder.on_bind_ok_iff.1 ran
  obtain ⟨_, _, ranColumn, -⟩ := Builder.on_bind_ok_iff.1 ranFirst
  cases depth with
  | zero => cases ranColumn
  | succ depth =>
      obtain ⟨_, _, ranOperand, -⟩ := Builder.on_bind_ok_iff.1 ranColumn
      obtain ⟨fault, refused⟩ := on_operand_modifier (Build.rules depth) hookless isKeyword member
        { words := [], nesting, tree } rest
      cases refused.symm.trans ranOperand

end

/-! ### Select blocks -/

/-- How a node holds the columns, the sources and the clauses that are read for it. -/
abbrev BlockNode := List Slot → List Slot → Slot → Slot → Slot → Slot → Node

/-- What is read behind the modifiers, and the node that holds it. -/
def blockBehind (rules : Rules) (hold : BlockNode) : Builder NodeId := do
  let (first, others) ← Builder.commaList (selectColumn rules.column)
  let sources ← sources rules
  let pivot ← clause .PIVOT (pivot rules)
  let filter ← behind .WHERE rules.condition
  let groupBy ← clause .GROUP (groupBy rules)
  let having ← behind .HAVING rules.condition
  Builder.add (hold (slots (first :: others)) (slots sources) pivot filter groupBy having)

theorem block_eq (rules : Rules) (operator : Option SetOperator) :
    block rules operator = (do
      let _ ← Builder.read (Parser.expectKeyword .SELECT)
      let modifiers ← modifiers rules
      blockBehind rules (.select operator modifiers.top modifiers.distinct)) := rfl

/-- What is read behind the modifiers does not depend on them, up to the node that is added last. -/
theorem exists_of_blockBehind {rules : Rules} {limits : Limits} {before after : Workspace}
    {hold : BlockNode} {id : NodeId}
    (ran : (blockBehind rules hold).on limits before = (.ok id, after)) :
    ∃ (last : Workspace) (columns sources : List Slot) (pivot filter groupBy having : Slot),
      ∀ hold : BlockNode, (blockBehind rules hold).on limits before =
        (.ok last.tree.nextId,
          { last with
            tree := last.tree.attach (hold columns sources pivot filter groupBy having) }) := by
  obtain ⟨⟨first, others⟩, _, ranColumns, behindColumns⟩ := Builder.on_bind_ok_iff.1 ran
  obtain ⟨sources, _, ranSources, behindSources⟩ := Builder.on_bind_ok_iff.1 behindColumns
  obtain ⟨pivot, _, ranPivot, behindPivot⟩ := Builder.on_bind_ok_iff.1 behindSources
  obtain ⟨filter, _, ranFilter, behindFilter⟩ := Builder.on_bind_ok_iff.1 behindPivot
  obtain ⟨groupBy, _, ranGroupBy, behindGroupBy⟩ := Builder.on_bind_ok_iff.1 behindFilter
  obtain ⟨having, last, ranHaving, -⟩ := Builder.on_bind_ok_iff.1 behindGroupBy
  refine ⟨last, slots (first :: others), slots sources, pivot, filter, groupBy, having, ?_⟩
  intro hold
  refine Builder.on_bind_ok_iff.2 ⟨_, _, ranColumns, ?_⟩
  refine Builder.on_bind_ok_iff.2 ⟨_, _, ranSources, ?_⟩
  refine Builder.on_bind_ok_iff.2 ⟨_, _, ranPivot, ?_⟩
  refine Builder.on_bind_ok_iff.2 ⟨_, _, ranFilter, ?_⟩
  refine Builder.on_bind_ok_iff.2 ⟨_, _, ranGroupBy, ?_⟩
  exact Builder.on_bind_ok_iff.2 ⟨_, _, ranHaving, rfl⟩

/-- The words begin with `SELECT` and modifiers, at most one of which is a `TOP` clause, and behind
them the columns begin. -/
structure WrittenBlock (words : Words) (select : Word) (modifiers : List WrittenModifier)
    (columns : Words) : Prop where
  words_eq : words = select :: (written modifiers ++ columns)
  isSelect : select.kind = .keyword .SELECT
  single : modifiers.countP (·.isTop) ≤ 1
  begins : BeginsColumns columns

theorem eq_of_attach {tree : Tree} {node other : Node}
    (same : tree.attach node = tree.attach other) : node = other := by
  have found := congrArg (fun grown => grown.node? tree.nextId) same
  simp only [Tree.node?_attach_nextId] at found
  exact Option.some.inj found

/-- Whatever the words, the room, the level of nesting and the tree are: if a select block is
accepted without hooks, then its words begin with modifiers, at most one of which is a `TOP` clause.
With these modifiers in any other order, the block is accepted too; the nodes are the same, with the
same `TOP` clause, but for what the node of the block says about duplicates: there the last one of
`DISTINCT` and `ALL` counts.  So the outcome is the same exactly if this is the same, and always if
only one of the two words is there. -/
theorem modifiers_permuted {depth : Nat} {limits : Limits} {operator : Option SetOperator}
    {workspace after : Workspace} {id : NodeId} (hookless : limits.hooks = {})
    (accepted : (block (rules depth) operator).on limits workspace = (.ok id, after)) :
    (∃ select modifiers columns, WrittenBlock workspace.words select modifiers columns) ∧
    ∀ select modifiers columns, WrittenBlock workspace.words select modifiers columns →
      ∃ (last : Workspace) (top : Slot) (columnIds sources : List Slot)
        (pivot filter groupBy having : Slot), id = last.tree.nextId ∧
        ∀ permuted, permuted.Perm modifiers →
          let outcome := (block (rules depth) operator).on limits
            { workspace with words := select :: (written permuted ++ columns) }
          outcome = (.ok id, { last with
            tree := last.tree.attach (.select operator top (isDistinct permuted) columnIds sources
              pivot filter groupBy having) }) ∧
          (outcome = (.ok id, after) ↔ isDistinct permuted = isDistinct modifiers) ∧
          (some true ∉ modifiers.map WrittenModifier.flag? ∨
            some false ∉ modifiers.map WrittenModifier.flag? → outcome = (.ok id, after)) := by
  rw [block_eq] at accepted ⊢
  obtain ⟨word, _, readSelect, behindSelect⟩ := Builder.on_bind_ok_iff.1 accepted
  obtain ⟨rest, expected, rfl⟩ := Builder.exists_of_on_read readSelect
  obtain ⟨isSelect, words⟩ := Parser.expectKeyword_ok_iff.1 expected
  obtain ⟨found, middle, ranModifiers, ranBehind⟩ := Builder.on_bind_ok_iff.1 behindSelect
  constructor
  · obtain ⟨_, _, looked, ranLoop⟩ := Builder.on_bind_ok_iff.1 ranModifiers
    cases looked
    obtain ⟨modifiers, front, single⟩ := exists_written hookless ranLoop
    obtain ⟨_, _, ranColumns, -⟩ := Builder.on_bind_ok_iff.1 ranBehind
    have begins := beginsColumns_of_ran hookless ranColumns
    obtain rfl : rest = written modifiers ++ middle.words := front
    exact ⟨word, modifiers, middle.words, words, isSelect, single, begins⟩
  · intro select modifiers columns isWritten
    obtain ⟨rfl, rfl⟩ := List.cons.inj (words.symm.trans isWritten.words_eq)
    obtain ⟨top, mid, permutes⟩ :=
      exists_on_permuted hookless isWritten.single isWritten.begins ranModifiers
    cases (permutes modifiers (.refl _)).symm.trans ranModifiers
    obtain ⟨last, columnIds, sources, pivot, filter, groupBy, having, outcomes⟩ :=
      exists_of_blockBehind ranBehind
    cases (outcomes (.select operator top (isDistinct modifiers))).symm.trans ranBehind
    refine ⟨last, top, columnIds, sources, pivot, filter, groupBy, having, rfl, ?_⟩
    intro permuted perm outcome
    have isOutcome : outcome = (.ok last.tree.nextId, { last with
        tree := last.tree.attach (.select operator top (isDistinct permuted) columnIds sources
          pivot filter groupBy having) }) := by
      refine Builder.on_bind_ok_iff.2 ⟨_, _, on_expectKeyword isSelect, ?_⟩
      exact Builder.on_bind_ok_iff.2 ⟨_, _, permutes permuted perm, outcomes _⟩
    refine ⟨isOutcome, ⟨fun same => ?_, fun same => ?_⟩, fun one => ?_⟩
    · rw [isOutcome] at same
      have trees := congrArg Workspace.tree (Prod.mk.inj same).2
      exact (Node.select.inj (eq_of_attach trees)).2.2.1
    · rw [isOutcome, same]
    · rw [isOutcome, WrittenModifier.isDistinct_eq_of_perm perm one]

/-- The words of `SELECT DISTINCT TOP 1 PERCENT a`. -/
def distinctTop : Workspace :=
  { words := (TokenStream.ofString "SELECT DISTINCT TOP 1 PERCENT a").words
    nesting := 0
    tree := .new }

/-- The words `DISTINCT` and `TOP 1 PERCENT`. -/
def distinctTopModifiers : List WrittenModifier :=
  let word (place : Nat) := distinctTop.words.getD place default
  [.distinct (word 1) (by decide +kernel),
    .top
      { top := word 2
        count := [word 3]
        percent := some (word 4)
        ties := none
        isTop := by decide +kernel
        isCount := .word (by decide +kernel) (by decide +kernel)
        isPercent := by decide +kernel
        isTies := by decide +kernel }]

/-- With `TOP 1 PERCENT DISTINCT` the outcome is the same. -/
theorem modifiers_permuted_distinctTop :
    let modifiers := distinctTopModifiers
    let permuted := modifiers.reverse
    let columns := distinctTop.words.drop 5
    let select := distinctTop.words.headD default
    ∃ after, (block (rules 7) none).on { room := 0 } distinctTop = (.ok ⟨4⟩, after) ∧
      WrittenBlock distinctTop.words select modifiers columns ∧
      (block (rules 7) none).on { room := 0 }
          { distinctTop with words := select :: (written permuted ++ columns) } =
        (.ok ⟨4⟩, after) := by
  intro modifiers permuted columns select
  have value : ((block (rules 7) none).on { room := 0 } distinctTop).1 = .ok ⟨4⟩ := by
    decide +kernel
  have isWritten : WrittenBlock distinctTop.words select modifiers columns :=
    { words_eq := by decide +kernel
      isSelect := by decide +kernel
      single := by decide +kernel
      begins := by decide +kernel }
  have noAll : some false ∉ modifiers.map WrittenModifier.flag? := by decide +kernel
  rcases ran : (block (rules 7) none).on { room := 0 } distinctTop with ⟨answer, after⟩
  rw [ran] at value
  obtain rfl : answer = .ok ⟨4⟩ := value
  obtain ⟨-, alike⟩ := modifiers_permuted rfl ran
  obtain ⟨_, _, _, _, _, _, _, _, -, outcomes⟩ := alike select modifiers columns isWritten
  obtain ⟨-, -, same⟩ := outcomes permuted (List.reverse_perm _)
  exact ⟨after, rfl, isWritten, same (.inr noAll)⟩

/-- The words of `SELECT DISTINCT ALL 1`. -/
def distinctAll : Workspace :=
  { words := (TokenStream.ofString "SELECT DISTINCT ALL 1").words
    nesting := 0
    tree := .new }

/-- The words `DISTINCT` and `ALL`. -/
def distinctAllModifiers : List WrittenModifier :=
  let word (place : Nat) := distinctAll.words.getD place default
  [.distinct (word 1) (by decide +kernel), .all (word 2) (by decide +kernel)]

/-- A hook that refuses an operand with `DISTINCT` somewhere behind it. -/
def refuseBeforeDistinct : Hook Operand
  | first :: others =>
      if others.any (·.kind == .keyword .DISTINCT) then .error (.about first .unexpected)
      else .ok none
  | [] => .ok none

/-- The order of `DISTINCT` and `ALL` matters: `DISTINCT ALL` and `ALL DISTINCT` are both accepted,
and only the second one says that duplicates are removed.  And with a hook, which sees all words
behind a count, the order can matter for what is accepted. -/
theorem modifiers_not_permuted :
    (let modifiers := distinctAllModifiers
      let select := distinctAll.words.headD default
      let columns := distinctAll.words.drop 3
      let outcome := (block (rules 5) none).on { room := 0 } distinctAll
      let other := (block (rules 5) none).on { room := 0 }
        { distinctAll with words := select :: (written modifiers.reverse ++ columns) }
      WrittenBlock distinctAll.words select modifiers columns ∧
        outcome.1 = .ok ⟨2⟩ ∧ other.1 = .ok ⟨2⟩ ∧
        outcome.2.tree.node? ⟨2⟩ =
          some (.select none none false [some ⟨1⟩] [] none none none none) ∧
        other.2.tree.node? ⟨2⟩ =
          some (.select none none true [some ⟨1⟩] [] none none none none)) ∧
      let limits : Limits := { room := 0, hooks := { operand := some refuseBeforeDistinct } }
      let select := distinctTop.words.headD default
      let permuted := select ::
        (written distinctTopModifiers.reverse ++ distinctTop.words.drop 5)
      ((block (rules 7) none).on limits distinctTop).1 = .ok ⟨4⟩ ∧
        ∀ id, ((block (rules 7) none).on limits { distinctTop with words := permuted }).1 ≠
          .ok id := by
  constructor
  · intro modifiers select columns outcome other
    have isWritten : WrittenBlock distinctAll.words select modifiers columns :=
      { words_eq := by decide +kernel
        isSelect := by decide +kernel
        single := by decide +kernel
        begins := by decide +kernel }
    exact ⟨isWritten, by decide +kernel⟩
  · intro limits select permuted
    have refused : ((block (rules 7) none).on limits { distinctTop with words := permuted }).1 =
        .error (.about (distinctTop.words.getD 3 default) .unexpected) := by
      decide +kernel
    constructor
    · decide +kernel
    · intro id accepted
      cases refused.symm.trans accepted

end Build

end SelectTree
