import AbnfCompiler.Data.Yaml.Document
import AbnfCompiler.Log.Channel
import AbnfCompiler.Session.Basic
import AbnfCompiler.Trace
import AbnfCompiler.Workspace

/-!
The list of grammars to generate parsers for. Relative paths in it are seen from the folder of the
file that holds it.
-/
namespace AbnfCompiler

structure Configuration where
  source : Path
  start : String
  name : Option String := none
  withCore : Bool := false
  hidden : List String := []
  inlined : List String := []
  conflicts : List (List String) := []
  location : Option Path := none
deriving Repr

namespace Configuration

open Data Checked Log

/-- The name of the language: the given one, or that of the source file. -/
def language (c : Configuration) : String :=
  match c.name with
  | none | some "" => c.source.stem
  | some name => name

/-- The session to begin with. Without a location, the folder below `root` that has the name of
the language is used. -/
def session (c : Configuration) (root : Path) : Session :=
  Session.canonical
    ⟨c.source, c.location.getD (root.join (.ofText c.language)), c.start, c.language, c.withCore,
      c.hidden, c.inlined, c.conflicts⟩

def ofEntries (entries : List (Value × Value)) : Checked Configuration :=
  Configuration.mk <$> required entries "source" asPath <*> required entries "start_rule" asText
    <*> defaulted entries "name" (nullable asText) none
    <*> defaulted entries "uses_core_rules" asTruth false
    <*> defaulted entries "hidden_rules" (asList asText) []
    <*> defaulted entries "inline_rules" (asList asText) []
    <*> defaulted entries "conflicts" (asList (asList asText)) []
    <*> defaulted entries "location" (nullable asPath) none

def ofValue (v : Value) : Checked Configuration := asRecord v ofEntries

inductive Error
  | absent (file : Path)
  | unreadable (error : SystemError)
  | malformed (file : Path)
  | notList (file : Path)
  | notMap (index : Nat) (file : Path)
  | missing (field : String) (index : Nat) (file : Path)
  | invalid (index : Nat) (file : Path) (issues : List Issue)
  | wrongKind
deriving Repr

def Error.message : Error → String
  | .absent file => "Grammar configuration not found: " ++ file.toText
  | .unreadable error => error.message
  | .malformed file => "Malformed grammar configuration " ++ file.toText
  | .notList file => "'grammars' must be a list in " ++ file.toText
  | .notMap index file =>
    "Grammar entry " ++ toString index ++ " in " ++ file.toText ++ " must be a mapping"
  | .missing field index file =>
    "Missing required field '" ++ field ++ "' in grammar entry " ++ toString index ++ " of "
      ++ file.toText
  | .invalid index file _ => "Invalid grammar entry " ++ toString index ++ " in " ++ file.toText
  | .wrongKind => "a path has to be a text, and so has a key"

/-- Whether the file is to blame, and not the system or the kind of a value. -/
def Error.isDeclared : Error → Bool
  | .unreadable _ | .wrongKind => false
  | _ => true

def requiredFields : List String := ["source", "start_rule"]

/-- A path as seen from the folder of the file. -/
def resolved (file : Path) (v : Value) : Except Error Value :=
  match v with
  | .null => .ok .null
  | .text s => .ok (.text (file.parent.join (.ofText s)).toText)
  | _ => .error .wrongKind

def resolvedField (file : Path) (name : String) (entries : List (Value × Value)) :
    Except Error (List (Value × Value)) :=
  match Value.find? name entries with
  | none => .ok entries
  | some v => return Value.put (.text name) (← resolved file v) entries

def hasTextKeys (entries : List (Value × Value)) : Bool :=
  entries.all fun (k, _) ↦
    match k with
    | .text _ => true
    | _ => false

def ofEntry (file : Path) (index : Nat) : Value → Except Error Configuration
  | .map entries =>
    match requiredFields.find? fun field ↦ (Value.find? field entries).isNone with
    | some field => .error (.missing field index file)
    | none => do
      let entries ← resolvedField file "location" (← resolvedField file "source" entries)
      if hasTextKeys entries then
        match ofEntries entries with
        | .ok c => return c
        | .issues found => .error (.invalid index file found)
      else .error .wrongKind
  | _ => .error (.notMap index file)

def ofItems (file : Path) (index : Nat) : List Value → Except Error (List Configuration)
  | [] => .ok []
  | v :: vs => return (← ofEntry file index v) :: (← ofItems file (index + 1) vs)

/-- The list in a document; a document that stands for nothing has an empty one. -/
def itemsOf (file : Path) (v : Value) : Except Error (List Value) :=
  if !v.isTruthy then .ok []
  else
    let items := match v with
      | .map entries => (Value.find? "grammars" entries).getD (.list [])
      | v => v
    match items with
    | .list items => .ok items
    | _ => .error (.notList file)

def log : Channel := ⟨"abnf_ts.services.grammar_config", []⟩

def ofDocument (file : Path) (v : Value) : Traced Entry Error (List Configuration) := do
  let configurations ← .ofExcept (do ofItems file 0 (← itemsOf file v))
  .report (log.entry .info ("Loaded " ++ toString configurations.length
    ++ " grammar configurations from " ++ file.toText))
  return configurations

def load (files : Workspace) (file : Path) : Traced Entry Error (List Configuration) :=
  if !files.holds file then throw (.absent file)
  else
    match files.read file with
    | .error fault => throw (.unreadable (fault.error file))
    | .ok text =>
      match Yaml.read? text with
      | none => do
        .report (log.entry .error ("Failed to parse grammar configuration " ++ file.toText))
        throw (.malformed file)
      | some v => ofDocument file v

end Configuration

end AbnfCompiler
