import ComponentMarkup.Text.Ranges
import ComponentMarkup.Text.Blank
import ComponentMarkup.Text.Letter
import ComponentMarkup.Text.Hidden
import ComponentMarkup.Text.CaseTable
import ComponentMarkup.Text.Case
import ComponentMarkup.Text.Hexadecimal
import ComponentMarkup.Text.Quoted
import ComponentMarkup.Text.Percent
import ComponentMarkup.Text.Substitution
import ComponentMarkup.Number.Binary
import ComponentMarkup.Number.Shortest
import ComponentMarkup.Number.Layout
import ComponentMarkup.Number.Numeral
import ComponentMarkup.Json.Number
import ComponentMarkup.Json.Quoted
import ComponentMarkup.Json.Lexeme
import ComponentMarkup.Json.Tree
import ComponentMarkup.Json.Value
import ComponentMarkup.Cursor
import ComponentMarkup.Dictionary
import ComponentMarkup.Registry.Basic
import ComponentMarkup.Registry.Loading
import ComponentMarkup.Markup.Token
import ComponentMarkup.Markup.Statement
import ComponentMarkup.Markup.Parse
import ComponentMarkup.Scope
import ComponentMarkup.Script.Token
import ComponentMarkup.Script.Value
import ComponentMarkup.Script.Error
import ComponentMarkup.Script.Scan
import ComponentMarkup.Script.Syntax
import ComponentMarkup.Script.Parse
import ComponentMarkup.Script.Method
import ComponentMarkup.Script.Evaluation
import ComponentMarkup.Template
import ComponentMarkup.Stylesheet
import ComponentMarkup.Expansion
import ComponentMarkup.Compiler
import ComponentMarkup.Message
import ComponentMarkup.CommandLine
import ComponentMarkup.Main
import ComponentMarkup.Proofs.Text.LowerCase
import ComponentMarkup.Proofs.Text.Spans
import ComponentMarkup.Proofs.Text.Bytes
import ComponentMarkup.Proofs.Text.Percent
import ComponentMarkup.Proofs.Text.Searching
import ComponentMarkup.Proofs.Number.Digits
import ComponentMarkup.Proofs.Number.Numerals
import ComponentMarkup.Proofs.Number.Scanning
import ComponentMarkup.Proofs.Number.Codes
import ComponentMarkup.Proofs.Number.Rounding
import ComponentMarkup.Proofs.Number.Wholes
import ComponentMarkup.Proofs.Number.Values
import ComponentMarkup.Proofs.Number.Shortest
import ComponentMarkup.Proofs.Number.Layouts
import ComponentMarkup.Proofs.Number.Fewest
import ComponentMarkup.Proofs.Dictionary.Order
import ComponentMarkup.Proofs.Registry.Loading
import ComponentMarkup.Proofs.Json.Quoted
import ComponentMarkup.Proofs.Json.Numbers
import ComponentMarkup.Proofs.Json.Spelling
import ComponentMarkup.Proofs.Json.Values
import ComponentMarkup.Proofs.Markup.Tokenizing
import ComponentMarkup.Proofs.Markup.Names
import ComponentMarkup.Proofs.Markup.Source
import ComponentMarkup.Proofs.Markup.Reading
import ComponentMarkup.Proofs.Markup.Soundness
import ComponentMarkup.Proofs.Markup.RoundTrip
import ComponentMarkup.Proofs.Markup.Limits
import ComponentMarkup.Proofs.Markup.Incomplete
import ComponentMarkup.Proofs.Markup.Lookups
import ComponentMarkup.Proofs.Cursor.Indexed
import ComponentMarkup.Proofs.Markup.Descent
import ComponentMarkup.Proofs.Markup.Descent.Agreement
import ComponentMarkup.Proofs.Template.Filling
import ComponentMarkup.Proofs.Template.Segments
import ComponentMarkup.Proofs.Template.Scan
import ComponentMarkup.Proofs.Expansion.Injection
import ComponentMarkup.Proofs.Script.Environments
import ComponentMarkup.Proofs.Script.Bindings
import ComponentMarkup.Proofs.Script.Steps
import ComponentMarkup.Proofs.Script.References
import ComponentMarkup.Proofs.Script.Height
import ComponentMarkup.Proofs.Script.Answering
import ComponentMarkup.Proofs.Script.Programs
import ComponentMarkup.Proofs.Script.Deepest
import ComponentMarkup.Proofs.Script.Stopping
import ComponentMarkup.Proofs.Script.Room
import ComponentMarkup.Proofs.Script.Separation
import ComponentMarkup.Proofs.Script.Grammar
import ComponentMarkup.Proofs.Script.Grammar.Soundness
import ComponentMarkup.Proofs.Script.Grammar.Completeness
import ComponentMarkup.Proofs.Script.Grammar.Programs
import ComponentMarkup.Proofs.Script.Readings
import ComponentMarkup.Proofs.Script.Strings
import ComponentMarkup.Proofs.Script.Separators
import ComponentMarkup.Proofs.Script.Names
import ComponentMarkup.Proofs.Script.Numbers
import ComponentMarkup.Proofs.Script.Writing
import ComponentMarkup.Proofs.Script.Declarations
import ComponentMarkup.Proofs.Script.Prelude
import ComponentMarkup.Proofs.Script.Confinement
import ComponentMarkup.Proofs.Script.NumberTexts
import ComponentMarkup.Proofs.Script.NumberFronts
import ComponentMarkup.Proofs.Script.Hexadecimals
import ComponentMarkup.Proofs.Script.NumberTokens
import ComponentMarkup.Proofs.Script.Progress
import ComponentMarkup.Proofs.Script.Method.Cells
import ComponentMarkup.Proofs.Script.Method.Searching
import ComponentMarkup.Proofs.Script.Method.Cutting
import ComponentMarkup.Proofs.Script.Method.Bounds
import ComponentMarkup.Proofs.Expansion.Stylesheets
import ComponentMarkup.Proofs.Expansion.Instances
import ComponentMarkup.Proofs.Expansion.Codes
import ComponentMarkup.Proofs.Expansion.Visits
import ComponentMarkup.Proofs.Expansion.Parameters
import ComponentMarkup.Proofs.Compiler.Documents
import ComponentMarkup.Proofs.Compiler.Concatenation
import ComponentMarkup.Proofs.Compiler.Limits
import ComponentMarkup.Proofs.Compiler.Lookups
import ComponentMarkup.Proofs.Compiler.Failures
import ComponentMarkup.Proofs.Compiler.PlainText
import ComponentMarkup.Proofs.Compiler.LetterCase
import ComponentMarkup.Proofs.Message.Bodies
