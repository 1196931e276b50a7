import AbnfCompiler.Data.Check

/-!
Diagnostics: what went wrong in a run of the generator, and which rules it is about.
-/
namespace AbnfCompiler

namespace Diagnostic

inductive Kind
  | emptyMatch
  | missingConflict
  | needsPrecedence
  | needsAssociativity
  | unrecognized
deriving DecidableEq, Repr

namespace Kind

def tag : Kind → String
  | .emptyMatch => "empty_rule_match"
  | .missingConflict => "missing_conflict_declaration"
  | .needsPrecedence => "needs_precedence"
  | .needsAssociativity => "needs_associativity"
  | .unrecognized => "unrecognized"

def all : List Kind :=
  [.emptyMatch, .missingConflict, .needsPrecedence, .needsAssociativity, .unrecognized]

def ofTag? (s : String) : Option Kind := all.find? (·.tag == s)

/-- Whether a change of the session can mend the failure. -/
def isFixable : Kind → Bool
  | .emptyMatch | .missingConflict => true
  | _ => false

/-- Whether somebody has to decide. -/
def isActionable : Kind → Bool
  | .needsPrecedence | .needsAssociativity => true
  | _ => false

end Kind

end Diagnostic

structure Diagnostic where
  kind : Diagnostic.Kind
  rules : List String := []
  raw : String := ""
deriving DecidableEq, Repr

namespace Diagnostic

/-- What to do next, for somebody who reads the diagnostic. -/
def guidance (d : Diagnostic) : String :=
  let names := ", ".intercalate (d.rules.map fun r ↦ "`" ++ r ++ "`")
  match d.kind with
  | .needsPrecedence =>
    "Specify a higher precedence for " ++ names ++ " in the grammar configuration."
  | .needsAssociativity => "Specify associativity for " ++ names ++ " in the grammar configuration."
  | .emptyMatch =>
    "Inline " ++ names ++ " so it no longer matches the empty string as a named rule."
  | .missingConflict => "Declare a conflict between " ++ names ++ "."
  | .unrecognized => "Unrecognized generator failure; see the raw diagnostic output."

open Data Checked

def Kind.ofValue : Value → Checked Kind
  | .text s =>
    match Kind.ofTag? s with
    | some kind => .ok kind
    | none => fail .notMember
  | _ => fail .notMember

def Kind.unknownText (v : Value) : String := v.shown ++ " is not a valid DiagnosticKind"

def ofValue (v : Value) : Checked Diagnostic :=
  asRecord v fun entries ↦
    Diagnostic.mk <$> required entries "kind" Kind.ofValue
      <*> defaulted entries "rules" (asList asText) [] <*> defaulted entries "raw" asText ""

end Diagnostic

end AbnfCompiler
