import Unparse.Binary64
import Unparse.Binary64.Nearest
import Unparse.Binary64.Shortest
import Unparse.Command
import Unparse.Command.Arguments
import Unparse.Config
import Unparse.Dialect
import Unparse.Directory
import Unparse.Failure
import Unparse.Grammar.Index
import Unparse.Grammar.Kind
import Unparse.Grammar.Layout
import Unparse.Grammar.Names
import Unparse.Grammar.Shape
import Unparse.Host
import Unparse.Json
import Unparse.Json.Reader
import Unparse.Json.Writer
import Unparse.Literal.Numeric
import Unparse.Literal.Quoted
import Unparse.Main
import Unparse.Page
import Unparse.Payload
import Unparse.Pipeline
import Unparse.Proofs.Acceptance
import Unparse.Proofs.Agreement.Draft
import Unparse.Proofs.Agreement.Expression
import Unparse.Proofs.Agreement.Rule
import Unparse.Proofs.Agreement.Statement
import Unparse.Proofs.Binary64.Rounding
import Unparse.Proofs.Binary64.Shortest
import Unparse.Proofs.Catalogue
import Unparse.Proofs.Chains
import Unparse.Proofs.Checking
import Unparse.Proofs.Command.Arguments
import Unparse.Proofs.Compounds
import Unparse.Proofs.Conservation
import Unparse.Proofs.DecimalTexts
import Unparse.Proofs.DialectTexts
import Unparse.Proofs.Dialects
import Unparse.Proofs.Docstrings
import Unparse.Proofs.Draft.Giving
import Unparse.Proofs.Draft.Lines
import Unparse.Proofs.Draft.Running
import Unparse.Proofs.Draft.Settling
import Unparse.Proofs.FStrings
import Unparse.Proofs.Floats
import Unparse.Proofs.Form.Expression
import Unparse.Proofs.Form.FString
import Unparse.Proofs.Form.Parameters
import Unparse.Proofs.Form.Pattern
import Unparse.Proofs.Form.Rule
import Unparse.Proofs.Form.Statement
import Unparse.Proofs.Form.Verdict
import Unparse.Proofs.Form.View
import Unparse.Proofs.Form.WellFormed
import Unparse.Proofs.FormatSpecs
import Unparse.Proofs.Fragments
import Unparse.Proofs.Gating
import Unparse.Proofs.Hoisting
import Unparse.Proofs.Indentation
import Unparse.Proofs.Indexing
import Unparse.Proofs.Integers
import Unparse.Proofs.Json.Lexemes
import Unparse.Proofs.Json.Numeral
import Unparse.Proofs.Json.Texts
import Unparse.Proofs.Json.Tokens
import Unparse.Proofs.Layout
import Unparse.Proofs.Literal.CodePoint
import Unparse.Proofs.Literal.Lexicon
import Unparse.Proofs.Literal.Numeral
import Unparse.Proofs.LiteralKinds
import Unparse.Proofs.Literals
import Unparse.Proofs.Mappings
import Unparse.Proofs.Outline.Draft
import Unparse.Proofs.Outline.Outline
import Unparse.Proofs.Outline.Statement
import Unparse.Proofs.Pipelines
import Unparse.Proofs.Positions
import Unparse.Proofs.Readability
import Unparse.Proofs.Reader.Expression
import Unparse.Proofs.Reader.Parts
import Unparse.Proofs.Reader.Reader
import Unparse.Proofs.Reader.Signature
import Unparse.Proofs.Reader.Spelling
import Unparse.Proofs.Reader.View
import Unparse.Proofs.Renaming
import Unparse.Proofs.Replacements
import Unparse.Proofs.RoundTrip
import Unparse.Proofs.Scanner.Closing
import Unparse.Proofs.Scanner.Expression
import Unparse.Proofs.Scanner.FString
import Unparse.Proofs.Scanner.Fragment
import Unparse.Proofs.Scanner.Literal
import Unparse.Proofs.Scanner.Scan
import Unparse.Proofs.Scanner.View
import Unparse.Proofs.Scientific
import Unparse.Proofs.Segments
import Unparse.Proofs.Shifting
import Unparse.Proofs.Signatures
import Unparse.Proofs.Tallies
import Unparse.Proofs.Text.Grammar
import Unparse.Proofs.Traces
import Unparse.Proofs.Traversal.Children
import Unparse.Proofs.Traversal.Revisions
import Unparse.Proofs.Traversal.Tours
import Unparse.Proofs.Traversal.Walks
import Unparse.Proofs.Traversals
import Unparse.Proofs.Tree.Documents
import Unparse.Proofs.Tree.Erase
import Unparse.Proofs.Tree.Parameters
import Unparse.Proofs.Tree.Reachable
import Unparse.Proofs.Tree.Scalars
import Unparse.Proofs.Versions
import Unparse.Proofs.Weight.Draft
import Unparse.Proofs.Weight.Expression
import Unparse.Proofs.Weight.FString
import Unparse.Proofs.Weight.Parameters
import Unparse.Proofs.Weight.Pattern
import Unparse.Proofs.Weight.Rule
import Unparse.Proofs.Weight.Scale
import Unparse.Proofs.Weight.Statement
import Unparse.Proofs.Weight.View
import Unparse.Render
import Unparse.Render.Draft
import Unparse.Render.Expression
import Unparse.Render.FString
import Unparse.Render.Fault
import Unparse.Render.Parameters
import Unparse.Render.Pattern
import Unparse.Render.Rule
import Unparse.Render.Statement
import Unparse.Render.View
import Unparse.Scientific
import Unparse.Script
import Unparse.Text
import Unparse.Text.DefaultIgnorable
import Unparse.Text.GraphemeExtend
import Unparse.Text.Unprintable
import Unparse.Toml
import Unparse.Toml.Lexeme
import Unparse.Toml.Reader
import Unparse.Traversal.Children
import Unparse.Traversal.Itinerary
import Unparse.Traversal.Listing
import Unparse.Traversal.Revision
import Unparse.Traversal.Shift
import Unparse.Traversal.Tally
import Unparse.Traversal.Walk
import Unparse.Tree
import Unparse.Tree.Access
import Unparse.Tree.Build
import Unparse.Tree.Decode
import Unparse.Tree.Encode
