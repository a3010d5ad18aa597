import StyleBinding.CommandLine.FileTree
import StyleBinding.CommandLine.Help
import StyleBinding.CommandLine.Inspect
import StyleBinding.CommandLine.Options
import StyleBinding.CommandLine.Program
import StyleBinding.CommandLine.Resolve
import StyleBinding.CommandLine.Run
import StyleBinding.CommandLine.Transform
import StyleBinding.CommandLine.Usage
import StyleBinding.Document.Basic
import StyleBinding.Document.Change
import StyleBinding.Document.Element
import StyleBinding.Document.Lead
import StyleBinding.Document.Parse
import StyleBinding.Document.Print
import StyleBinding.Expression.Shape
import StyleBinding.Import.Clause
import StyleBinding.Import.Declaration
import StyleBinding.Json.Lexical
import StyleBinding.Json.Reader
import StyleBinding.Json.Writer
import StyleBinding.Main
import StyleBinding.Number.Double
import StyleBinding.Number.Shortest
import StyleBinding.Proofs.CommandLine.Checked
import StyleBinding.Proofs.CommandLine.Files
import StyleBinding.Proofs.CommandLine.InPlace
import StyleBinding.Proofs.CommandLine.Sent
import StyleBinding.Proofs.CommandLine.Steps
import StyleBinding.Proofs.Expression.Atoms
import StyleBinding.Proofs.Expression.Closing
import StyleBinding.Proofs.Expression.Described
import StyleBinding.Proofs.Expression.Pieces
import StyleBinding.Proofs.Expression.Shape
import StyleBinding.Proofs.Expression.Static
import StyleBinding.Proofs.Expression.Tokens
import StyleBinding.Proofs.Expression.Trees
import StyleBinding.Proofs.Import.Ending
import StyleBinding.Proofs.Import.Escape
import StyleBinding.Proofs.Import.Grammar
import StyleBinding.Proofs.Import.Walk
import StyleBinding.Proofs.Import.Writing
import StyleBinding.Proofs.Pass.ArrayStyle
import StyleBinding.Proofs.Pass.Attributes
import StyleBinding.Proofs.Pass.Bound
import StyleBinding.Proofs.Pass.Called
import StyleBinding.Proofs.Pass.ClassNames
import StyleBinding.Proofs.Pass.Encodable
import StyleBinding.Proofs.Pass.FreeNames
import StyleBinding.Proofs.Pass.Hygiene
import StyleBinding.Proofs.Pass.Identifiers
import StyleBinding.Proofs.Pass.Mode
import StyleBinding.Proofs.Pass.Printed
import StyleBinding.Proofs.Pass.Recognized
import StyleBinding.Proofs.Pass.Repeated
import StyleBinding.Proofs.Pass.Restyled
import StyleBinding.Proofs.Pass.Rewritten
import StyleBinding.Proofs.Pass.Selected
import StyleBinding.Proofs.Pass.Statements
import StyleBinding.Proofs.Pass.Structure
import StyleBinding.Proofs.Pass.Transformed
import StyleBinding.Proofs.Pass.Untouched
import StyleBinding.Proofs.Printing.Around
import StyleBinding.Proofs.Printing.Choice
import StyleBinding.Proofs.Printing.Edits
import StyleBinding.Proofs.Printing.Nesting
import StyleBinding.Proofs.Printing.Reference
import StyleBinding.Proofs.Printing.Revision
import StyleBinding.Proofs.Reading.Agreement
import StyleBinding.Proofs.Reading.Alignment
import StyleBinding.Proofs.Reading.Alone
import StyleBinding.Proofs.Reading.Calls
import StyleBinding.Proofs.Reading.Clauses
import StyleBinding.Proofs.Reading.Completeness
import StyleBinding.Proofs.Reading.Declarations
import StyleBinding.Proofs.Reading.Descent
import StyleBinding.Proofs.Reading.Forest
import StyleBinding.Proofs.Reading.Layout
import StyleBinding.Proofs.Reading.Lookahead
import StyleBinding.Proofs.Reading.Members
import StyleBinding.Proofs.Reading.Outcomes
import StyleBinding.Proofs.Reading.Path
import StyleBinding.Proofs.Reading.Placement
import StyleBinding.Proofs.Reading.Positions
import StyleBinding.Proofs.Reading.Prelude
import StyleBinding.Proofs.Reading.Refusals
import StyleBinding.Proofs.Reading.Relation
import StyleBinding.Proofs.Reading.Relocated
import StyleBinding.Proofs.Reading.Relocation
import StyleBinding.Proofs.Reading.Slots
import StyleBinding.Proofs.Reading.Soundness
import StyleBinding.Proofs.Reading.Spliced
import StyleBinding.Proofs.Reading.Stack
import StyleBinding.Proofs.Reading.Stages
import StyleBinding.Proofs.Reading.Staying
import StyleBinding.Proofs.Reading.Tokens
import StyleBinding.Proofs.Reading.Values
import StyleBinding.Proofs.Source.Alike
import StyleBinding.Proofs.Source.Boundary
import StyleBinding.Proofs.Source.Encoding
import StyleBinding.Proofs.Source.Escape
import StyleBinding.Proofs.Source.Gaps
import StyleBinding.Proofs.Source.Naming
import StyleBinding.Proofs.Source.Quotes
import StyleBinding.Proofs.Source.Renaming
import StyleBinding.Proofs.Source.Separators
import StyleBinding.Proofs.Style.Entries
import StyleBinding.Proofs.Style.Generated
import StyleBinding.Proofs.Style.Helper
import StyleBinding.Proofs.Style.Merging
import StyleBinding.Proofs.Style.Names
import StyleBinding.Proofs.Style.Script
import StyleBinding.Proofs.Text.ControlSequence
import StyleBinding.Proofs.Text.Cutting
import StyleBinding.Proofs.Text.Extension
import StyleBinding.Proofs.Text.ReadBack
import StyleBinding.Proofs.Text.Utf8
import StyleBinding.Source.Bracket
import StyleBinding.Source.Cursor
import StyleBinding.Source.Lexeme
import StyleBinding.Source.Literal
import StyleBinding.Source.Refusal
import StyleBinding.Source.Span
import StyleBinding.Source.Trivia
import StyleBinding.Style.Resolution
import StyleBinding.Stylesheet.Binding
import StyleBinding.Stylesheet.Classification
import StyleBinding.Stylesheet.GeneratedName
import StyleBinding.Stylesheet.Pass
import StyleBinding.Stylesheet.Restyle
import StyleBinding.Stylesheet.Settings
import StyleBinding.Stylesheet.StyleExpression
import StyleBinding.Stylesheet.Vocabulary
import StyleBinding.Text.Basic
import StyleBinding.Text.Blank
import StyleBinding.Text.Cased
import StyleBinding.Text.CodePoint
import StyleBinding.Text.ControlSequence
import StyleBinding.Text.Hexadecimal
import StyleBinding.Text.Letter
import StyleBinding.Text.Lowercase
import StyleBinding.Text.Name
import StyleBinding.Text.Numeral
import StyleBinding.Text.Path
import StyleBinding.Text.Position
import StyleBinding.Text.Printable
import StyleBinding.Text.Quoted
import StyleBinding.Text.Ranges
import StyleBinding.Text.Similarity
import StyleBinding.Text.Utf8
import StyleBinding.Value.Basic
import StyleBinding.Value.Entries
import StyleBinding.Value.Scalar
