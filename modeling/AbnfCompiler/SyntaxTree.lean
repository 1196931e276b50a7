import AbnfCompiler.Data.Check

/-!
Concrete syntax trees of grammar sources. Punctuation is kept as unnamed nodes: the operators of
repetitions and the values of terminals can only be told from their tokens.
-/
namespace AbnfCompiler

structure SyntaxTree where
  kind : String
  named : Bool := true
  text : String := ""
  line : Int := 1
  column : Int := 0
  children : List SyntaxTree := []
deriving Repr, BEq, Inhabited

namespace SyntaxTree

def token (kind text : String) : SyntaxTree := { kind, named := false, text }

def leaf (kind text : String) : SyntaxTree := { kind, text }

/-- A node whose text is that of its children. -/
def branch (kind : String) (children : List SyntaxTree) : SyntaxTree :=
  { kind, text := String.join (children.map text), children }

/-- Kinds of named nodes that carry no meaning. -/
def triviaKinds : List String := ["comment", "c_wsp", "c_nl"]

def isTrivia (t : SyntaxTree) : Bool := triviaKinds.contains t.kind

def isMeaningful (t : SyntaxTree) : Bool := t.named && !t.isTrivia

def namedChildren (t : SyntaxTree) : List SyntaxTree := t.children.filter named

/-- The named children that are neither comments nor white space. -/
def meaningful (t : SyntaxTree) : List SyntaxTree := t.children.filter isMeaningful

def child? (t : SyntaxTree) (kind : String) : Option SyntaxTree :=
  t.children.find? (·.kind == kind)

section Check

open Data Checked

def fieldsWith (entries : List (Value × Value)) (children : Checked (List SyntaxTree)) :
    Checked SyntaxTree :=
  SyntaxTree.mk <$> required entries "kind" asText <*> defaulted entries "named" asTruth true
    <*> defaulted entries "text" asText "" <*> defaulted entries "start_line" asInteger 1
    <*> defaulted entries "start_column" asInteger 0 <*> children

mutual

def ofValue : Value → Checked SyntaxTree
  | .map entries => fieldsWith entries (childrenOf entries)
  | _ => fail .notRecord

def childrenOf : List (Value × Value) → Checked (List SyntaxTree)
  | [] => .ok []
  | (k, v) :: rest =>
    if k.isText "children" then within (.field "children") (listOf v) else childrenOf rest

def listOf : Value → Checked (List SyntaxTree)
  | .list items => itemsOf 0 items
  | _ => fail .notList

def itemsOf (i : Nat) : List Value → Checked (List SyntaxTree)
  | [] => .ok []
  | v :: vs => .cons <$> within (.index i) (ofValue v) <*> itemsOf (i + 1) vs

end

end Check

end SyntaxTree

end AbnfCompiler
