import AbnfCompiler.RuleName
import AbnfCompiler.Trace
import AbnfCompiler.Compilation.Terminal

/-!
Expression nodes. Each kind of node says how its expression is made from those of its meaningful
children; a node that is refused is reported and gives no expression.
-/
namespace AbnfCompiler.Compilation

/-- What is reported on the way. -/
inductive Event
  | unsupported (u : Unsupported)
  | skipped (rule : String)
  | keptCore (rule : String)
  | compiled (rules omitted : Nat)
deriving DecidableEq, Repr

/-- The kinds of nodes that have an expression. -/
inductive Construct
  | elements
  | alternation
  | concatenation
  | repetition
  | option
  | element
  | numeral
  | hexValue
  | quotedString
  | wrapper
deriving DecidableEq, Repr

def constructs : List (String × Construct) :=
  [("elements", .elements), ("alternation", .alternation), ("concatenation", .concatenation),
   ("repetition", .repetition), ("option", .option), ("element", .element),
   ("num_val", .numeral), ("hex_val", .hexValue), ("quoted_string", .quotedString),
   ("group", .wrapper), ("char_val", .wrapper), ("case_insensitive_string", .wrapper),
   ("case_sensitive_string", .wrapper)]

def construct? (kind : String) : Option Construct := constructs.lookup kind

/-- Kinds of nodes that name a rule. -/
def referenceKinds : List String := ["rulename", "core_rulename"]

/-- An expression under way, whose construct may be refused. -/
abbrev Drafting (ω : Type) := Traced ω Refusal

variable {ω : Type}

/-- A meaningful child with its expression. -/
abbrev Part (ω : Type) := SyntaxTree × Drafting ω (Option Expression)

/-- The expressions of all parts that have one. -/
def gather : List (Part ω) → Drafting ω (List Expression)
  | [] => pure []
  | (_, draft) :: parts => do
    let e ← draft
    let es ← gather parts
    return e.toList ++ es

def nonempty (node : SyntaxTree) (parts : List (Part ω)) : Drafting ω Unit :=
  .ofExcept (if parts.isEmpty then violate node .noChildren else .ok ())

/-- The text of an operator: that of its children, or its own. -/
def operatorText (operator : SyntaxTree) : String :=
  let text := String.join (operator.children.map SyntaxTree.text)
  if text = "" then operator.text else text

def counted (operator : SyntaxTree) (e : Expression) : Except Refusal Expression :=
  match Occurrences.ofText? (operatorText operator) with
  | .error error => refuse operator (.occurrences error)
  | .ok count =>
    match Expression.repeated count.lower (count.upper.map Int.ofNat) e with
    | .error error => refuse operator (.bounds error)
    | .ok repeated => .ok repeated

/-- A repetition holds an element, or an operator and an element. -/
def repetition (node : SyntaxTree) : List (Part ω) → Drafting ω (Option Expression)
  | [(_, draft)] => draft
  | [(operator, _), (_, draft)] => do
    match ← draft with
    | none => return none
    | some e => some <$> .ofExcept (counted operator e)
  | _ => .ofExcept (violate node .repetition)

def option (node : SyntaxTree) : List (Part ω) → Drafting ω (Option Expression)
  | [(_, draft)] => return (← draft).map .optional
  | _ => .ofExcept (violate node .option)

/-- An element holds the name of a rule or a node with an expression. -/
def element (node : SyntaxTree) : List (Part ω) → Drafting ω (Option Expression)
  | [] => .ofExcept (violate node .noChildren)
  | (child, draft) :: _ =>
    if referenceKinds.contains child.kind then
      return some (.reference (RuleName.normal child.text))
    else draft

/-- A wrapper stands for the node it holds; one that holds nothing may be a quoted string. -/
def wrapper (node : SyntaxTree) : List (Part ω) → Drafting ω (Option Expression)
  | [(_, draft)] => draft
  | parts =>
    if parts.isEmpty ∧ node.text.toList.head? = some '"' then return some (quotedString node)
    else .ofExcept (violate node .wrapper)

/-- The expression of a node from those of its meaningful children. -/
def assemble (node : SyntaxTree) (parts : List (Part ω)) : Drafting ω (Option Expression) :=
  match construct? node.kind with
  | none => .ofExcept (refuse node .kind)
  | some .elements => return Expression.sequenceOf (← gather parts)
  | some .alternation => do
    nonempty node parts
    return Expression.choiceOf (← gather parts)
  | some .concatenation => do
    nonempty node parts
    return Expression.sequenceOf (← gather parts)
  | some .repetition => repetition node parts
  | some .option => option node parts
  | some .element => element node parts
  | some .numeral => some <$> .ofExcept (numeral node)
  | some .hexValue => some <$> .ofExcept (hexValue node)
  | some .quotedString => return some (quotedString node)
  | some .wrapper => wrapper node parts

/-- Reports a refused construct, which then has no expression. -/
def settle (draft : Drafting Event (Option Expression)) :
    Traced Event Failure (Option Expression) :=
  match draft.result with
  | .ok e => ⟨draft.trace, .ok e⟩
  | .error (.unsupported u) => ⟨draft.trace ++ [.unsupported u], .ok none⟩
  | .error (.failure f) => ⟨draft.trace, .error f⟩

mutual

def expression? : SyntaxTree → Traced Event Failure (Option Expression)
  | ⟨kind, named, text, line, column, children⟩ =>
    settle (assemble ⟨kind, named, text, line, column, children⟩ (parts children))

def parts : List SyntaxTree → List (Part Event)
  | [] => []
  | t :: ts =>
    if t.isMeaningful then (t, (expression? t).relabel id .failure) :: parts ts else parts ts

end

end AbnfCompiler.Compilation
