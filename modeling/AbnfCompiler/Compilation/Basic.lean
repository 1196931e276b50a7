import AbnfCompiler.Grammar.Core
import AbnfCompiler.Grammar.Basic
import AbnfCompiler.Compilation.Construct

/-!
The rules of a syntax tree. They depend on the tree and on the wish for core rules alone; which
rules are hidden or inlined is decided later.
-/
namespace AbnfCompiler

structure Definition where
  name : String
  body : Expression
  comments : List String := []
  core : Bool := false
deriving BEq, Repr

namespace Definition

/-- The rule of a definition, given the names of hidden and of inlined rules. -/
def toRule (hidden inlined : List String) (d : Definition) : Rule :=
  ⟨d.name, d.body, hidden.contains d.name, inlined.contains d.name, d.core, d.comments⟩

end Definition

namespace Compilation

abbrev Compiling := Traced Event Failure

def violation {α : Type} (node : SyntaxTree) (cause : Violation.Cause) : Compiling α :=
  throw (.violation ⟨cause, node⟩)

/-- The text of a comment without its mark. -/
def commentText (text : String) : String :=
  Text.strip (Text.dropLeading ';' (Text.strip text))

/-- The operator that defines a rule, and the one that adds to a rule. -/
def defines : String := "="

def adds : String := "=/"

/-- Name and body of a rule node; nothing where the rule has to be left out. -/
def rule? (node : SyntaxTree) : Compiling (Option (String × Expression)) :=
  match node.child? "rulename" with
  | none => violation node .noName
  | some nameNode =>
    if Text.isAllBlank nameNode.text then violation node .noName
    else
      match node.child? "elements" with
      | none => violation node .noBody
      | some elements => do
        let name := RuleName.normal nameNode.text
        let operator := node.child? "defined_as"
        let sign := (operator.map fun o ↦ Text.withoutBlanks o.text).getD defines
        if sign = adds then
          .report (.unsupported (.of (operator.getD node) (.definition name)))
          return none
        else if sign ≠ defines then violation (operator.getD node) (.operator sign)
        else
          match ← expression? elements with
          | some body => return some (name, body)
          | none =>
            .report (.skipped name)
            return none

/-- The rules among nodes, given the names that were defined before and the comments since the
last rule. -/
def definitionsFrom (seen pending : List String) : List SyntaxTree → Compiling (List Definition)
  | [] => pure []
  | node :: nodes =>
    if node.kind = "comment" then definitionsFrom seen (pending ++ [commentText node.text]) nodes
    else if node.kind = "rule" then do
      match ← rule? node with
      | none => definitionsFrom seen [] nodes
      | some (name, body) =>
        if seen.contains name then violation node (.duplicate name)
        else
          let rest ← definitionsFrom (name :: seen) [] nodes
          return ⟨name, body, pending, false⟩ :: rest
    else do
      .reportWhen (!Text.isAllBlank node.text) (.unsupported (.of node .kind))
      definitionsFrom seen pending nodes

def rulelist (root : SyntaxTree) : Compiling SyntaxTree :=
  if root.kind = "rulelist" then pure root
  else if root.kind ≠ "source_file" then violation root .root
  else
    match root.namedChildren.filter (·.kind == "rulelist") with
    | [list] => pure list
    | _ => violation root .rulelist

/-- The core rules whose names are not taken. -/
def coreFrom (taken : List String) : List (String × Expression) → Compiling (List Definition)
  | [] => pure []
  | (name, body) :: rest =>
    if taken.contains name then do
      .report (.keptCore name)
      coreFrom taken rest
    else do
      let more ← coreFrom taken rest
      return ⟨name, body, [], true⟩ :: more

def rules (root : SyntaxTree) (withCore : Bool) : Compiling (List Definition) := do
  let list ← rulelist root
  let own ← definitionsFrom [] [] list.namedChildren
  let core ← if withCore then coreFrom (own.map Definition.name) CoreRules.bodies else pure []
  return own ++ core

def Event.unsupported? : Event → Option Unsupported
  | .unsupported u => some u
  | _ => none

def unsupported (events : List Event) : List Unsupported := events.filterMap Event.unsupported?

@[simp] theorem unsupported_append (xs ys : List Event) :
    unsupported (xs ++ ys) = unsupported xs ++ unsupported ys := List.filterMap_append

/-- The rules of a syntax tree, followed by the core rules if they are wished for. -/
def definitions (root : SyntaxTree) (withCore : Bool) : Compiling (List Definition) :=
  let found := rules root withCore
  found >>= fun ds ↦ do
    .report (.compiled ds.length (unsupported found.trace).length)
    return ds

end Compilation

end AbnfCompiler
