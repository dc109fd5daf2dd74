import SelectTree.Hook
import SelectTree.Proofs.Build.Attempt
import SelectTree.Proofs.Build.BareColumn
import SelectTree.Proofs.Build.Bracket
import SelectTree.Proofs.Build.Bracketed
import SelectTree.Proofs.Build.Nested
import SelectTree.Proofs.Parse.Contract
import SelectTree.Proofs.Parse.Flat
import SelectTree.Proofs.Tree.Edited
import SelectTree.Proofs.Tree.Made
import SelectTree.Session
import SelectTree.Tree.Command
import SelectTree.Tree.Edit
import SelectTree.Tree.Validate
import SelectTree.Tree.Walk
import SelectTree.Proofs.Token.Lookahead
import SelectTree.Proofs.Token.Respelling
import SelectTree.Proofs.Parse.Trivia
import SelectTree.Proofs.Parse.Constants
import SelectTree.Proofs.Parse.Excerpt
import SelectTree.Proofs.Build.Confined
import SelectTree.Proofs.Parse.Layers
import SelectTree.Proofs.Parse.Limit
import SelectTree.Proofs.Parse.Settled
import SelectTree.Proofs.Grammar.Sited
import SelectTree.Proofs.Grammar.Sited.Expression
import SelectTree.Proofs.Grammar.Sited.Query
import SelectTree.Proofs.Parse.Placed
import SelectTree.Proofs.Parse.Brackets
import SelectTree.Proofs.Policy.OptionGroup
import SelectTree.Proofs.Parse.Denied
import SelectTree.Proofs.Tree.Duplicate
import SelectTree.Proofs.Tree.Draft
import SelectTree.Proofs.Tree.Called
import SelectTree.Proofs.Build.BracketedTerm
import SelectTree.Proofs.Tree.Valid
import SelectTree.Proofs.Policy.Exemption
import SelectTree.Proofs.Node.Exchange
import SelectTree.Proofs.Tree.Command
import SelectTree.Proofs.Tree.ReplaceChild
import SelectTree.Proofs.Cursor.Bracketed
import SelectTree.Proofs.Tree.Undo
import SelectTree.Proofs.Words.Outside
import SelectTree.Proofs.Words.Segments
import SelectTree.Proofs.Build.Window
import SelectTree.Proofs.Build.Hints
import SelectTree.Proofs.Token.Position
import SelectTree.Proofs.Written.Path
import SelectTree.Proofs.Parse.Numbers
import SelectTree.Proofs.Tree.Descend
import SelectTree.Proofs.Token.Comment
import SelectTree.Proofs.Build.Grouping
import SelectTree.Proofs.Build.Modifiers
import SelectTree.Proofs.Node.Handle
