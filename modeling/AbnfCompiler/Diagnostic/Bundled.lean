import AbnfCompiler.Diagnostic.Matcher

/-!
The matcher for tree-sitter. A report on a conflict lists every way to solve it, so the pattern
that asks for a conflict group comes before those that ask for precedence or associativity.
-/
namespace AbnfCompiler.Diagnostic.Bundled

open Pattern

def oneOrMore (p : Pattern) : Pattern := .many p 1 none false

def maybe (p : Pattern) : Pattern := .many p 0 (some 1) false

def all (ps : List Pattern) : Pattern := ps.foldr .sequence .empty

def backtick : Pattern := .letter '\x60'

def notBacktick : Pattern := .set true [.range 0x60 0x60]

def notLineFeed : Pattern := .set true [.range 0x0A 0x0A]

def wordCharacter : Pattern := .set false [.word false]

/-- The name of a rule behind one of two words. -/
def inOrForRule : Pattern :=
  all [.either (text "in") (text "for"), text " ", maybe backtick,
    .group "rule" (oneOrMore wordCharacter), maybe backtick]

def emptyMatch : Pattern :=
  all [text "The rule ", backtick, .group "rule" (oneOrMore notBacktick), backtick,
    text " matches the empty string"]

def missingConflict : Pattern :=
  all [text "Add a conflict for these rules:", .group "rules" (oneOrMore notLineFeed)]

def needsPrecedence : Pattern := all [text "Specify a higher precedence ", inOrForRule]

def needsAssociativity : Pattern :=
  all [text "Specify ", maybe (text "a left or right "), text "associativity ", inOrForRule]

def patterns : List (Kind × Pattern) :=
  [(.emptyMatch, emptyMatch), (.missingConflict, missingConflict),
   (.needsPrecedence, needsPrecedence), (.needsAssociativity, needsAssociativity)]

def matcher : Matcher := ⟨.text Matcher.defaultGenerator, patterns⟩

end AbnfCompiler.Diagnostic.Bundled
