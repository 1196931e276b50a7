import AbnfCompiler.Diagnostic.Basic
import AbnfCompiler.Session.Basic
import AbnfCompiler.Session.Reach

/-!
Mending a failure of the generator by changing the session: a rule that matches the empty string
is inlined, and a conflict that was not declared is declared.
-/
namespace AbnfCompiler.Session

variable (s : Session)

/-- The rule behind a name as the generator writes it: hidden rules have a mark in front. -/
def ruleOf (reported : String) : String :=
  let name := RuleName.normal reported
  match name.toList with
  | c :: cs =>
    if c = RuleName.hiddenMark ∧ String.ofList cs ∈ s.hidden then String.ofList cs else name
  | [] => name

inductive Obstacle
  | conflict (name : String) (group : List String)
  | recursion (name : String)
deriving DecidableEq, Repr

def Obstacle.message : Obstacle → String
  | .conflict name group =>
    "Cannot inline `" ++ name ++ "`: it is named in conflict group [" ++ ", ".intercalate group
      ++ "]. Remove the group or give `" ++ name
      ++ "` a definition that does not match the empty string."
  | .recursion name =>
    "Cannot inline `" ++ name ++ "`: it refers to itself through inlined rules. Give `" ++ name
      ++ "` a definition that does not match the empty string."

/-- What keeps the rules of a diagnostic from being inlined. -/
def obstacle? (d : Diagnostic) (g : Option Grammar) : Option Obstacle :=
  if d.kind ≠ .emptyMatch then none
  else
    let names := d.rules.map s.ruleOf
    let conflict := names.findSome? fun name ↦
      (s.conflicts.find? (·.contains name)).map (Obstacle.conflict name)
    let recursion := g.bind fun g ↦
      (names.find? fun name ↦ g.reachesItself (s.inlined ++ names) name).map .recursion
    conflict.or recursion

/-- The session with the change that a diagnostic asks for. -/
def amended (d : Diagnostic) : Session :=
  let names := d.rules.map s.ruleOf
  if d.kind = .emptyMatch then names.foldl withInlined s else s.withConflict names

/-- Whether all rules that a diagnostic names are defined. -/
def knows (d : Diagnostic) (g : Grammar) : Bool :=
  d.rules.all fun r ↦ (g.rule? (s.ruleOf r)).isSome

/-- The session for the next attempt. There is none if the diagnostic cannot be mended, names no
rule or an unknown one, if something keeps a rule from being inlined, or if nothing would
change. -/
def fix? (d : Diagnostic) (g : Option Grammar) : Option Session :=
  if d.kind.isFixable ∧ d.rules ≠ [] ∧ s.obstacle? d g = none ∧ g.all (s.knows d) ∧
      s.amended d ≠ s then
    some (s.amended d)
  else none

end AbnfCompiler.Session
