/-
Module: SelectTree.Hook
Purpose: what a caller may put in the place of rules.
Main exports: Hook, Hooks, HookAction, Hook.atNames

A hook is asked before the rule.  It sees all words that are not consumed and answers as the rule
would, or it leaves them to the rule.
-/
import SelectTree.Fault
import SelectTree.Phrase

namespace SelectTree

/-- A replacement for a rule: it consumes words, refuses them, or leaves them to the rule. -/
abbrev Hook (α : Type) := Words → Except Fault (Option (α × Words))

/-- Replacements tried before the rules for operands and for condition terms. -/
structure Hooks where
  operand : Option (Hook Operand) := none
  term : Option (Hook Term) := none

instance : Inhabited Hooks := ⟨{}⟩

/-- What a hook makes of a name. -/
inductive HookAction (α : Type) where
  /-- The name stands for this. -/
  | replace (value : α)
  /-- The name is refused because something else should stand here. -/
  | refuse (kind : ErrorKind) (what : String)

/-- A hook that acts on some plain names, exactly as they are written, and leaves all else to
the rules. -/
def Hook.atNames {α : Type} (action? : String → Option (HookAction α)) : Hook α
  | [] => .ok none
  | word :: words =>
      match word.kind with
      | .identifier name =>
          match action? name with
          | none => .ok none
          | some (.replace value) => .ok (some (value, words))
          | some (.refuse kind what) => .error (.expected kind what (word :: words))
      | _ => .ok none

end SelectTree
