import AbnfCompiler.Data.Yaml.Document
import AbnfCompiler.Diagnostic.Matcher
import AbnfCompiler.Workspace

/-!
Documents that describe matchers. All fields have to be there, and every pattern needs a kind.
-/
namespace AbnfCompiler.Diagnostic.Config

open Data

inductive Error
  | absent (path : Path)
  | malformed
  | kind
  | missingField (field : String) (path : Path)
  | incomplete (path : Path)
  | unknownKind (value : Value)
deriving Repr

def Error.message : Error → String
  | .absent path => "Matcher configuration not found: " ++ path.toText
  | .missingField field path => "Missing required field '" ++ field ++ "' in " ++ path.toText
  | .incomplete path => "Pattern entries need 'kind' and 'pattern' in " ++ path.toText
  | .unknownKind value => Kind.unknownText value
  | .malformed => "The document cannot be read"
  | .kind => "A value is of the wrong kind"

def occurs (word : List Char) : List Char → Bool
  | [] => word.isEmpty
  | c :: cs => word.isPrefixOf (c :: cs) || occurs word cs

/-- Whether a value has a word: as a part of a text, as an item or as a key. -/
def has (word : String) : Value → Except Error Bool
  | .text s => .ok (occurs word.toList s.toList)
  | .list items => .ok (items.any (·.isText word))
  | .map fields => .ok (Value.find? word fields).isSome
  | _ => .error .kind

def requiredFields : List String := ["name", "version", "generator", "patterns"]

def checkFields (path : Path) (v : Value) : List String → Except Error Unit
  | [] => .ok ()
  | field :: fields => do
    if ← has field v then checkFields path v fields
    else .error (.missingField field path)

def checkEntry (path : Path) (v : Value) : Except Error Unit := do
  if !(← has "kind" v) then .error (.incomplete path)
  else if !(← has "pattern" v) then .error (.incomplete path)
  else
    match v with
    | .map fields =>
      let kind := (Value.find? "kind" fields).getD .null
      match Kind.ofValue kind with
      | .ok _ => return ()
      | .issues _ => .error (.unknownKind kind)
    | _ => .error .kind

/-- Checks the document of a matcher: all fields have to be there, and every entry needs a kind
and a pattern. -/
def check (path : Path) (v : Value) : Except Error Unit := do
  checkFields path v requiredFields
  match v with
  | .map fields =>
    match Matcher.itemsOf ((Value.find? "patterns" fields).getD .null) with
    | .ok items => items.forM (checkEntry path)
    | .error _ => .error .kind
  | _ => .error .kind

def read (files : Workspace) (path : Path) : Except Error Value := do
  match files.read path with
  | .error _ => .error (.absent path)
  | .ok text =>
    match Yaml.read? text with
    | none => .error .malformed
    | some v =>
      check path v
      return v

end AbnfCompiler.Diagnostic.Config
