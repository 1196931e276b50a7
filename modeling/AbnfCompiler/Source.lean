import AbnfCompiler.Log.Channel
import AbnfCompiler.Path
import AbnfCompiler.SpanTree
import AbnfCompiler.Trace

/-!
Grammar sources. A parser answers a text with a span tree and a word on whether it met errors;
the tree is then resolved over the octets of the text.
-/
namespace AbnfCompiler.Source

open Log

/-- What a parser makes of a text. -/
structure Parse where
  root : Option SpanTree
  erroneous : Bool := false
deriving Inhabited

abbrev Parser := String → Parse

inductive Error
  | noRoot
  | unreadable (path : Path) (reason : String)
  | noLibrary (path : Path)
  | unusable (name : String) (path : Path) (reason : String)
deriving Repr

def Error.message : Error → String
  | .noRoot => "Failed to parse ABNF source"
  | .unreadable path reason => "Failed to read ABNF source " ++ path.toText ++ ": " ++ reason
  | .noLibrary path => "Tree-sitter library not found at " ++ path.toText
      ++ ". Build tree-sitter-abnf as a shared library first."
  | .unusable name path reason =>
    "Failed to load " ++ name ++ " grammar from " ++ path.toText ++ ": " ++ reason

def log : Channel := ⟨"abnf_ts.services.abnf_parser", []⟩

def ready : Entry := log.entry .info "ABNF parser initialized successfully"

def erroneousEntry : Entry :=
  log.entry .warning
    "ABNF source contains syntax errors; affected rules will be reported as unsupported"

def parse (parser : Parser) (text : String) : Traced Entry Error SyntaxTree :=
  let found := parser text
  match found.root with
  | none => throw .noRoot
  | some root => do
    .reportWhen found.erroneous erroneousEntry
    return root.resolve (Text.Utf8.encode text)

end AbnfCompiler.Source
