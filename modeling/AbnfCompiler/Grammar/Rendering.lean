import AbnfCompiler.Grammar.Basic
import AbnfCompiler.Grammar.Core
import AbnfCompiler.Text.JsonString
import AbnfCompiler.Text.Sorted

/-!
Grammars as text for the generator. A hidden rule has an underscore before its name wherever it
occurs. An inlined rule is no rule of the text: it becomes a function, and every reference to it
is a call.
-/
namespace AbnfCompiler

/-- What keeps a grammar from being rendered. -/
inductive Flaw
  | duplicates (names : List String)
  | noStart (name : String)
  | unknownConflict (name : String)
  | inlinedConflict (name : String)
deriving DecidableEq, Repr

def Flaw.message : Flaw → String
  | .duplicates names => "rules defined more than once: " ++ ", ".intercalate names
  | .noStart name => "start rule " ++ name ++ " is not defined"
  | .unknownConflict name => "conflict group references unknown rule " ++ name
  | .inlinedConflict name => "conflict group references inlined rule " ++ name

inductive RenderError
  | flaw (flaw : Flaw)
  | bounds (error : Expression.BoundsError)
deriving DecidableEq, Repr

def RenderError.message : RenderError → String
  | .flaw f => f.message
  | .bounds e => e.message

namespace Grammar

variable (g : Grammar)

def symbol (name : String) : String :=
  if g.isHidden name then RuleName.hidden name else RuleName.normal name

def reference (name : String) : String :=
  if g.isInlined name then RuleName.helper name ++ "($)" else "$." ++ g.symbol name

def classMember (n : Nat) : String :=
  if 0xFFFF < n then "\\u\x7b" ++ String.ofList (Text.capitalHexDigits 0 n) ++ "\x7d"
  else "\\u" ++ String.ofList (Text.capitalHexDigits 4 n)

def call (function : String) (arguments : List String) : String :=
  function ++ "(" ++ ", ".intercalate arguments ++ ")"

mutual

/-- The text of an expression whose repetitions are all native. -/
def nativeText : Expression → String
  | .reference name => g.reference name
  | .literal value => Text.jsonString value
  | .charClass range => "/[" ++ classMember range.low ++ "-" ++ classMember range.high ++ "]/"
  | .sequence items => call "seq" (nativeTexts items)
  | .choice items => call "choice" (nativeTexts items)
  | .repetition element bounds =>
    call (if bounds.least = 1 then "repeat1" else "repeat") [nativeText element]
  | .optional element => call "optional" [nativeText element]

def nativeTexts : List Expression → List String
  | [] => []
  | e :: es => nativeText e :: nativeTexts es

end

def expressionText (e : Expression) : Except Expression.BoundsError String :=
  return g.nativeText (← e.spelledOut)

def duplicates : List String :=
  let names := g.rules.map fun r ↦ RuleName.normal r.name
  Text.Sorted.ofList (names.filter fun n ↦ 1 < names.count n)

/-- The first fault among conflict groups: every member has to be a rule of its own. -/
def conflictFlaw? : Option Flaw :=
  g.conflicts.flatten.findSome? fun name ↦
    match g.resolve? name with
    | none => some (.unknownConflict name)
    | some r => if r.inlined then some (.inlinedConflict name) else none

/-- What keeps the grammar from being rendered, if anything does. -/
def flaw? : Option Flaw :=
  if g.duplicates ≠ [] then some (.duplicates g.duplicates)
  else if (g.resolve? g.start).isNone then some (.noStart (RuleName.normal g.start))
  else g.conflictFlaw?

def indent : String := "    "

def helperLine (r : Rule) : Except Expression.BoundsError String :=
  return "const " ++ RuleName.helper r.name ++ " = $ => " ++ (← g.expressionText r.body) ++ ";"

def commentLine (comment : String) : String := Text.stripEnd (indent ++ "// " ++ comment)

def ruleEntry (comments : List String) (r : Rule) : Except Expression.BoundsError String :=
  return "\n".intercalate (comments.map commentLine ++
    [indent ++ g.symbol r.name ++ ": $ => " ++ (← g.expressionText r.body)])

/-- The comments of rules: the first core rule has a heading on top. -/
def withHeading : List Rule → List (List String × Rule)
  | [] => []
  | r :: rs =>
    if r.core then (CoreRules.heading :: r.comments, r) :: rs.map fun r ↦ (r.comments, r)
    else (r.comments, r) :: withHeading rs

def conflictLine (group : List String) : String :=
  indent ++ "[" ++ ", ".intercalate (group.map fun name ↦ "$." ++ g.symbol name) ++ "],"

/-- The rule from which the generated parser starts. -/
def entryRule : String := "source_file"

def conflictLines : List String :=
  if g.conflicts = [] then []
  else "  conflicts: $ => [" :: g.conflicts.map g.conflictLine ++ ["  ],", ""]

def render : Except RenderError String :=
  match g.flaw? with
  | some flaw => .error (.flaw flaw)
  | none =>
    let text : Except Expression.BoundsError String := do
      let helpers ← (g.rules.filter Rule.inlined).mapM g.helperLine
      let entries ← (withHeading (g.rules.filter fun r ↦ !r.inlined)).mapM fun (cs, r) ↦
        g.ruleEntry cs r
      let start := indent ++ entryRule ++ ": $ => " ++ g.reference g.start
      return "\n".intercalate
        (helpers ++ (if helpers = [] then [] else [""])
          ++ ["module.exports = grammar(\x7b", "  name: " ++ Text.jsonText g.name ++ ",", ""]
          ++ g.conflictLines
          ++ ["  rules: \x7b", ",\n\n".intercalate (start :: entries), "  \x7d", "\x7d);"]) ++ "\n"
    text.mapError .bounds

end Grammar

end AbnfCompiler
