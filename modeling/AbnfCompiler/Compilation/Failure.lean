import AbnfCompiler.SyntaxTree
import AbnfCompiler.Compilation.Occurrences

/-!
What can go wrong with a syntax tree. A construct that cannot be compiled is refused, recorded
and left out; a tree of a wrong shape, and a dotted value whose digits are none, end the
compilation.
-/
namespace AbnfCompiler

inductive Reason
  | kind
  | base
  | incompleteRange
  | invertedRange
  | hexValue
  | hexDigits
  | outOfRange
  | definition (rule : String)
  | occurrences (error : Occurrences.OperatorError)
  | bounds (error : Expression.BoundsError)
deriving DecidableEq, Repr

def Reason.message : Reason → String
  | .kind => "unsupported node type"
  | .base => "unsupported numeric base"
  | .incompleteRange => "incomplete hex range"
  | .invertedRange => "inverted hex range"
  | .hexValue => "unsupported hex value"
  | .hexDigits => "invalid hex digits"
  | .outOfRange => "hex value outside the unicode range"
  | .definition rule => "unsupported operator in rule " ++ rule
  | .occurrences error => error.message
  | .bounds error => error.message

structure Unsupported where
  kind : String
  text : String
  line : Int
  reason : String := Reason.kind.message
deriving DecidableEq, Repr

namespace Unsupported

def of (node : SyntaxTree) (reason : Reason) : Unsupported :=
  ⟨node.kind, node.text, node.line, reason.message⟩

def describe (u : Unsupported) : String := u.reason ++ ": " ++ u.kind ++ "\t" ++ u.text

end Unsupported

inductive Violation.Cause
  | root
  | rulelist
  | noName
  | noBody
  | operator (text : String)
  | duplicate (rule : String)
  | noChildren
  | wrapper
  | repetition
  | option
  | numeral
  | noTokens
deriving DecidableEq, Repr

/-- A node that breaks a rule about the shape of trees. -/
structure Violation where
  cause : Violation.Cause
  node : SyntaxTree
deriving Repr

namespace Violation

def Cause.message (kind : String) : Cause → String
  | .root => "expected a source_file root"
  | .rulelist => "source_file must contain exactly one rulelist"
  | .noName => "rule has no name"
  | .noBody => "rule has no body"
  | .operator text => "unknown definition operator " ++ Text.quoted text
  | .duplicate rule => "rule " ++ rule ++ " is defined more than once"
  | .noChildren => kind ++ " has no children"
  | .wrapper => kind ++ " must wrap exactly one node"
  | .repetition => "repetition must have an element and at most one repeat operator"
  | .option => "option must have exactly one child"
  | .numeral => "numeric value must be '%' followed by a value"
  | .noTokens => "hex value has no tokens"

def message (v : Violation) : String :=
  v.cause.message v.node.kind ++ " (line " ++ toString v.node.line ++ ": " ++ v.node.kind ++ " "
    ++ Text.quoted v.node.text ++ ")"

end Violation

namespace Compilation

inductive Failure
  | violation (v : Violation)
  | notHex (digits : String)
  | notCodepoint

/-- The answer of a construct that has no expression. -/
inductive Refusal
  | unsupported (u : Unsupported)
  | failure (f : Failure)

/-- The message of a number that is no code point or no number. -/
def Failure.message : Failure → String
  | .violation v => v.message
  | .notHex digits => "invalid literal for int() with base 16: " ++ Text.quoted digits
  | .notCodepoint => "chr() arg not in range(0x110000)"

def Refusal.message : Refusal → String
  | .unsupported u => u.describe
  | .failure f => f.message

variable {α : Type}

def refuse (node : SyntaxTree) (reason : Reason) : Except Refusal α :=
  .error (.unsupported (.of node reason))

def violate (node : SyntaxTree) (cause : Violation.Cause) : Except Refusal α :=
  .error (.failure (.violation ⟨cause, node⟩))

end Compilation

end AbnfCompiler
