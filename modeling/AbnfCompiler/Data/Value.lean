import AbnfCompiler.Decimal.FloatText
import AbnfCompiler.Text.Quoted

/-!
Values of data files: scalars, lists and maps, whose keys may be any scalar.
-/
namespace AbnfCompiler.Data

inductive Value
  | null
  | bool (b : Bool)
  | int (n : Int)
  | float (x : Float)
  | text (s : String)
  | list (items : List Value)
  | map (entries : List (Value × Value))
deriving Repr, Inhabited

namespace Value

/-- Number behind a scalar; a truth value counts as zero or one. -/
def number? : Value → Option Float
  | .bool b => some (if b then 1 else 0)
  | .int n => some (Float.ofInt n)
  | .float x => some x
  | _ => none

/-- Whether two scalars are the same key: numbers by value, all else by kind and content. -/
def sameKey : Value → Value → Bool
  | .null, .null => true
  | .text s, .text t => s == t
  | .int m, .int n => m == n
  | a, b =>
    match a.number?, b.number? with
    | some x, some y => x == y
    | _, _ => false

def isScalar : Value → Bool
  | .list _ | .map _ => false
  | _ => true

def isText (s : String) : Value → Bool
  | .text t => s == t
  | _ => false

def isNull : Value → Bool
  | .null => true
  | _ => false

def find? (key : String) (entries : List (Value × Value)) : Option Value :=
  (entries.find? fun (k, _) ↦ k.isText key).map (·.2)

/-- Sets the entry under a key: an entry that is there keeps its place. -/
def put (key value : Value) : List (Value × Value) → List (Value × Value)
  | [] => [(key, value)]
  | (k, v) :: rest => if k.sameKey key then (k, value) :: rest else (k, v) :: put key value rest

/-- A map from entries of which the last one under a key counts. -/
def ofEntries (entries : List (Value × Value)) : Value :=
  .map (entries.foldl (fun acc (k, v) ↦ put k v acc) [])

/-- A map whose keys are texts. -/
def record (fields : List (String × Value)) : Value :=
  .map (fields.map fun (k, v) ↦ (.text k, v))

/-- Whether the value stands for something: neither nothing, nor zero, nor empty. -/
def isTruthy : Value → Bool
  | .null => false
  | .bool b => b
  | .int n => n ≠ 0
  | .float x => x != 0
  | .text s => s ≠ ""
  | .list items => !items.isEmpty
  | .map entries => !entries.isEmpty

mutual

/-- The value in literal notation on one line. -/
def shown : Value → String
  | .null => "None"
  | .bool b => if b then "True" else "False"
  | .int n => toString n
  | .float x => Decimal.floatText x
  | .text s => Text.quoted s
  | .list items => "[" ++ ", ".intercalate (shownItems items) ++ "]"
  | .map entries => "\x7b" ++ ", ".intercalate (shownEntries entries) ++ "\x7d"

def shownItems : List Value → List String
  | [] => []
  | v :: vs => v.shown :: shownItems vs

def shownEntries : List (Value × Value) → List String
  | [] => []
  | (k, v) :: rest => (k.shown ++ ": " ++ v.shown) :: shownEntries rest

end

/-- The value as part of a message: texts stand without quotes. -/
def plain : Value → String
  | .text s => s
  | v => v.shown

end Value

end AbnfCompiler.Data
