import AbnfCompiler.Session.Basic

/-!
The grammar of a syntax tree for a session. The session says under which names rules are marked as
hidden and as inlined when they are made, and which conflicts the grammar has.
-/
namespace AbnfCompiler.Session

open Compilation

/-- The rules so far, and the comments since the last of them. -/
structure Walk where
  rules : List Rule := []
  comments : List String := []

variable (s : Session)

def makeRule (name : String) (body : Expression) (comments : List String) (core : Bool) : Rule :=
  { name, body, comments, core,
    hidden := (s.hidden.map RuleName.normal).contains name,
    inlined := (s.inlined.map RuleName.normal).contains name }

/-- What a node of the list of rules adds to the rules so far. -/
def visit (w : Walk) (node : SyntaxTree) : Compiling Walk :=
  if node.kind = "comment" then
    return { w with comments := w.comments ++ [commentText node.text] }
  else if node.kind = "rule" then do
    match ← rule? node with
    | none => return { w with comments := [] }
    | some (name, body) =>
      if (w.rules.map Rule.name).contains name then violation node (.duplicate name)
      else return ⟨w.rules ++ [s.makeRule name body w.comments false], []⟩
  else do
    .reportWhen (!Text.isAllBlank node.text) (.unsupported (.of node .kind))
    return w

/-- The rules with a core rule at the end, unless its name is taken. -/
def addCore (taken : List String) (rules : List Rule) : String × Expression → Compiling (List Rule)
  | (name, body) =>
    if taken.contains name then do
      .report (.keptCore name)
      return rules
    else return rules ++ [s.makeRule name body [] true]

def rulesOf (root : SyntaxTree) : Compiling (List Rule) := do
  let list ← rulelist root
  let own ← Walk.rules <$> list.namedChildren.foldlM s.visit {}
  if s.withCore then CoreRules.bodies.foldlM (s.addCore (own.map Rule.name)) own else return own

/-- The grammar of a syntax tree under the policy of the session. -/
def compile (root : SyntaxTree) : Compiling Grammar :=
  let found := s.rulesOf root
  found >>= fun rules ↦ do
    .report (.compiled rules.length (unsupported found.trace).length)
    return ⟨s.language, RuleName.normal s.start, s.withCore, rules, s.conflicts⟩

end AbnfCompiler.Session
