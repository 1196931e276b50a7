import AbnfCompiler.Compilation.Basic
import AbnfCompiler.Compilation.Construct
import AbnfCompiler.Compilation.Entry
import AbnfCompiler.Compilation.Failure
import AbnfCompiler.Compilation.Occurrences
import AbnfCompiler.Compilation.Terminal
import AbnfCompiler.Configuration
import AbnfCompiler.Data.Check
import AbnfCompiler.Data.Dotenv
import AbnfCompiler.Data.Json
import AbnfCompiler.Data.Value
import AbnfCompiler.Data.Yaml.Cursor
import AbnfCompiler.Data.Yaml.Document
import AbnfCompiler.Data.Yaml.Quoted
import AbnfCompiler.Data.Yaml.Scalar
import AbnfCompiler.Data.Yaml.Token
import AbnfCompiler.Decimal.Binary64
import AbnfCompiler.Decimal.FloatText
import AbnfCompiler.Decimal.Places
import AbnfCompiler.Decimal.Shortest
import AbnfCompiler.Diagnostic.Basic
import AbnfCompiler.Diagnostic.Bundled
import AbnfCompiler.Diagnostic.Classifier
import AbnfCompiler.Diagnostic.Config
import AbnfCompiler.Diagnostic.Matcher
import AbnfCompiler.Expression.Basic
import AbnfCompiler.Expression.Check
import AbnfCompiler.Generation.Batch
import AbnfCompiler.Generation.Generator
import AbnfCompiler.Generation.Loop
import AbnfCompiler.Generation.Result
import AbnfCompiler.Generation.Run
import AbnfCompiler.Generation.Summary
import AbnfCompiler.Grammar.Basic
import AbnfCompiler.Grammar.Check
import AbnfCompiler.Grammar.Core
import AbnfCompiler.Grammar.Rendering
import AbnfCompiler.Log.Channel
import AbnfCompiler.Log.Entry
import AbnfCompiler.Log.Level
import AbnfCompiler.Log.Template
import AbnfCompiler.Main
import AbnfCompiler.Path
import AbnfCompiler.Pattern.Basic
import AbnfCompiler.Pattern.Reader
import AbnfCompiler.Proofs.Compilation.Definitions
import AbnfCompiler.Proofs.Compilation.Meaning
import AbnfCompiler.Proofs.Compilation.Occurrences
import AbnfCompiler.Proofs.Compilation.Terminal
import AbnfCompiler.Proofs.Data.Json
import AbnfCompiler.Proofs.Expression.Language
import AbnfCompiler.Proofs.Expression.Productions
import AbnfCompiler.Proofs.Expression.SpelledOut
import AbnfCompiler.Proofs.Generation.Run
import AbnfCompiler.Proofs.Generation.Termination
import AbnfCompiler.Proofs.Generation.Turn
import AbnfCompiler.Proofs.Generation.Validity
import AbnfCompiler.Proofs.Grammar.Flaw
import AbnfCompiler.Proofs.Grammar.Language
import AbnfCompiler.Proofs.Grammar.Presentation
import AbnfCompiler.Proofs.Grammar.Preservation
import AbnfCompiler.Proofs.Grammar.Script
import AbnfCompiler.Proofs.RuleName
import AbnfCompiler.Proofs.Script.Language
import AbnfCompiler.Proofs.Script.Literal
import AbnfCompiler.Proofs.Script.Term
import AbnfCompiler.Proofs.Script.Token
import AbnfCompiler.Proofs.Session.Fix
import AbnfCompiler.Proofs.Session.NormalForm
import AbnfCompiler.Proofs.Session.Preservation
import AbnfCompiler.Proofs.Session.Reach
import AbnfCompiler.Proofs.Session.Room
import AbnfCompiler.Proofs.Session.Search
import AbnfCompiler.Proofs.SyntaxTree.Meaning
import AbnfCompiler.Proofs.Text.Blank
import AbnfCompiler.Proofs.Text.Numeral
import AbnfCompiler.RuleName
import AbnfCompiler.Session.Basic
import AbnfCompiler.Session.Compile
import AbnfCompiler.Session.Fix
import AbnfCompiler.Session.Reach
import AbnfCompiler.Session.Room
import AbnfCompiler.Settings
import AbnfCompiler.Source
import AbnfCompiler.SpanTree
import AbnfCompiler.SyntaxTree
import AbnfCompiler.Text.Blank
import AbnfCompiler.Text.Case
import AbnfCompiler.Text.Codepoint
import AbnfCompiler.Text.Digit
import AbnfCompiler.Text.Hex
import AbnfCompiler.Text.JsonString
import AbnfCompiler.Text.Numeral
import AbnfCompiler.Text.Printable
import AbnfCompiler.Text.Quoted
import AbnfCompiler.Text.Ranges
import AbnfCompiler.Text.ShellWord
import AbnfCompiler.Text.Sorted
import AbnfCompiler.Text.Split
import AbnfCompiler.Text.Utf8
import AbnfCompiler.Text.Word
import AbnfCompiler.Trace
import AbnfCompiler.Workspace
import AbnfCompiler.Proofs.Session.Circle
import AbnfCompiler.Proofs.Generation.Circle
import AbnfCompiler.Proofs.Compilation.Operands
import AbnfCompiler.Proofs.Compilation.Failure
import AbnfCompiler.Proofs.Compilation.Record
import AbnfCompiler.Proofs.Compilation.Rulelist
import AbnfCompiler.Proofs.Workspace
import AbnfCompiler.Proofs.Generation.Replay
import AbnfCompiler.Proofs.Generation.Step
import AbnfCompiler.Proofs.Generation.Report
import AbnfCompiler.Proofs.Expression.Substitution
import AbnfCompiler.Proofs.Grammar.Reading
import AbnfCompiler.Proofs.Grammar.Key
import AbnfCompiler.Proofs.Compilation.Trivia
import AbnfCompiler.Proofs.Expression.NormalForm
import AbnfCompiler.Proofs.Compilation.NormalForm
import AbnfCompiler.Proofs.Session.Rendering
import AbnfCompiler.Proofs.Session.Order
import AbnfCompiler.Proofs.Text.Case
import AbnfCompiler.Proofs.Pattern.Search
import AbnfCompiler.Proofs.Diagnostic.Report
import AbnfCompiler.Proofs.Session.Symbol
import AbnfCompiler.Proofs.Generation.Failure
import AbnfCompiler.Proofs.Generation.Batch
import AbnfCompiler.Proofs.Expression.Repetition
import AbnfCompiler.Proofs.Compilation.Hexadecimal
import AbnfCompiler.Proofs.Session.Compile
import AbnfCompiler.Proofs.Path
import AbnfCompiler.Proofs.Generation.Descriptor
import AbnfCompiler.Proofs.Compilation.Decoding
import AbnfCompiler.Proofs.Compilation.Alike
import AbnfCompiler.Proofs.Compilation.Duplicate
import AbnfCompiler.Proofs.Data.Check
import AbnfCompiler.Proofs.Session.Change
import AbnfCompiler.Proofs.Grammar.Spelling
import AbnfCompiler.Proofs.Text.Digit
import AbnfCompiler.Proofs.Text.Utf8
import AbnfCompiler.Proofs.Source
import AbnfCompiler.Proofs.Configuration
