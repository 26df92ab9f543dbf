import ArithTree.Text.Symbol
import ArithTree.Settings.Unchecked
import ArithTree.Main
import ArithTree.Proofs.Text.Brackets
import ArithTree.Proofs.Term.Lexing
import ArithTree.Proofs.Term.Nesting
import ArithTree.Proofs.Term.Alternation
import ArithTree.Proofs.Term.Grammar
import ArithTree.Proofs.Term.Pass
import ArithTree.Proofs.Term.Layout
import ArithTree.Proofs.Term.Source
import ArithTree.Proofs.Term.Failure
import ArithTree.Proofs.Term.Prefix
import ArithTree.Proofs.Token.Lexing
import ArithTree.Proofs.Token.OperatorStack
import ArithTree.Proofs.Token.OpenBrackets
import ArithTree.Proofs.Token.Expansion
import ArithTree.Proofs.Binary.Precedence
import ArithTree.Proofs.Binary.Infix
import ArithTree.Proofs.Binary.Subtree
import ArithTree.Proofs.Binary.Listing
import ArithTree.Proofs.Binary.Postfix
import ArithTree.Proofs.Binary.Operators
import ArithTree.Proofs.Agreement
import ArithTree.Proofs.Readers
import ArithTree.Proofs.Strategies
import ArithTree.Proofs.Text.Marks
import ArithTree.Proofs.Text.Utf8
import ArithTree.Proofs.Term.Marks
import ArithTree.Proofs.Token.Marks
import ArithTree.Proofs.Caret
import ArithTree.Proofs.Record
import ArithTree.Proofs.Json.Numbers
import ArithTree.Proofs.Json.Lexing
import ArithTree.Proofs.Json.RoundTrip
import ArithTree.Proofs.Json.Spelling
import ArithTree.Proofs.Json.Parts
import ArithTree.Proofs.Settings.Named
import ArithTree.Proofs.Settings.Runs
import ArithTree.Proofs.Settings.Assigned
import ArithTree.Proofs.Settings.Resaved
import ArithTree.Proofs.Settings.Unchecked
import ArithTree.Proofs.Settings.FailedSave
import ArithTree.Proofs.Display.Labels
import ArithTree.Proofs.Display.Views
import ArithTree.Proofs.Term.Decimals
import ArithTree.Proofs.Term.Views
import ArithTree.Proofs.Term.Line
import ArithTree.Proofs.Binary.Views
import ArithTree.Proofs.Views
import ArithTree.Proofs.CommandLine.Console
import ArithTree.Proofs.Spaces
import ArithTree.Proofs.Display.Indentation
import ArithTree.Proofs.Display.Filling
import ArithTree.Proofs.Display.Rendering
import ArithTree.Proofs.Term.Resumption
import ArithTree.Proofs.Term.Shift
import ArithTree.Proofs.Text.Insertion
import ArithTree.Proofs.Term.Insertion
import ArithTree.Proofs.Term.Exactness
import ArithTree.Proofs.Token.Insertion
import ArithTree.Proofs.Binary.Outline
import ArithTree.Proofs.Binary.Equality
import ArithTree.Proofs.Term.Turns
import ArithTree.Proofs.Token.Places
import ArithTree.Proofs.Binary.Composition
import ArithTree.Proofs.Token.Conservation
import ArithTree.Proofs.Token.Language
import ArithTree.Proofs.Token.StrayBrackets
import ArithTree.Proofs.Token.StackOrder
import ArithTree.Proofs.Walks
