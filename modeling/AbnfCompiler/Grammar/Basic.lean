import AbnfCompiler.Expression.Basic
import AbnfCompiler.RuleName

/-!
Grammars: named rules in order, the rule to start from, and groups of rules whose conflicts the
generator is to accept.
-/
namespace AbnfCompiler

structure Rule where
  name : String
  body : Expression
  hidden : Bool := false
  inlined : Bool := false
  core : Bool := false
  comments : List String := []
deriving BEq, Repr

structure Grammar where
  name : String
  start : String
  withCore : Bool := false
  rules : List Rule := []
  conflicts : List (List String) := []
deriving BEq, Repr

namespace Grammar

def ruleNames (g : Grammar) : List String := g.rules.map Rule.name

/-- The first rule of exactly this name. -/
def rule? (g : Grammar) (name : String) : Option Rule := g.rules.find? (·.name == name)

/-- The rule that a name refers to in any spelling; of rules that share a name it is the last. -/
def resolve? (g : Grammar) (name : String) : Option Rule :=
  g.rules.reverse.find? fun r ↦ RuleName.normal r.name == RuleName.normal name

def isInlined (g : Grammar) (name : String) : Bool := (g.resolve? name).any Rule.inlined

def isHidden (g : Grammar) (name : String) : Bool := (g.resolve? name).any Rule.hidden

end Grammar

end AbnfCompiler
