import AbnfCompiler.SyntaxTree
import AbnfCompiler.Text.Utf8

/-!
Parse trees that point into the octets of a source, and the syntax trees they stand for: the text
of a node is the slice that its span covers.
-/
namespace AbnfCompiler

/-- A node with the octets from `start` up to `stop`. -/
structure SpanTree where
  kind : String
  named : Bool
  start : Nat
  stop : Nat
  children : List SpanTree
deriving Inhabited

namespace SpanTree

def slice (octets : List UInt8) (start stop : Nat) : List UInt8 := (octets.take stop).drop start

def lineFeed : UInt8 := 10

/-- The number of line ends before an offset, and the octets since the last one. -/
def position (octets : List UInt8) (start : Nat) : Nat × Nat :=
  let before := octets.take start
  let tail := (before.reverse.takeWhile (· ≠ lineFeed)).length
  (before.count lineFeed, start - (before.length - tail))

mutual

/-- The syntax tree over `octets`. -/
def resolve (octets : List UInt8) : SpanTree → SyntaxTree
  | ⟨kind, named, start, stop, children⟩ =>
    let (line, column) := position octets start
    { kind, named, text := Text.Utf8.decode (slice octets start stop),
      line := line + 1, column := column, children := resolveAll octets children }

def resolveAll (octets : List UInt8) : List SpanTree → List SyntaxTree
  | [] => []
  | t :: ts => resolve octets t :: resolveAll octets ts

end

theorem resolveAll_eq_map (octets : List UInt8) (ts : List SpanTree) :
    resolveAll octets ts = ts.map (resolve octets) := by
  induction ts with
  | nil => rfl
  | cons t ts ih => simp [resolveAll, ih]

end SpanTree

end AbnfCompiler
