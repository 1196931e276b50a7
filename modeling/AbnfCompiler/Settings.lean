import AbnfCompiler.Data.Check
import AbnfCompiler.Data.Dotenv
import AbnfCompiler.Data.Json

/-!
Settings. Each may be given by a variable of the environment, or else by a file of variables; the
name of the variable is that of the setting with a mark in front, in small or in capital letters.
-/
namespace AbnfCompiler

structure Settings where
  grammarsFile : Path := .ofText "grammars.yaml"
  buildRoot : Path := .ofText "build/test"
  filename : String := "grammar.js"
  library : Path := .ofText "build/abnf.so"
  libraryName : String := "abnf"
  command : List String := ["tree-sitter", "generate"]
  maxAttempts : Option Int := none
  logLevel : String := "INFO"
deriving Repr

namespace Settings

open Data Checked

def commandName : String := "generator_command"

def names : List String :=
  ["grammars_file", "build_root", "descriptor_filename", "abnf_language_library",
   "abnf_language_name", commandName, "max_attempts", "log_level"]

/-- Finds fault with all entries that are no settings. -/
def noOthers (entries : List (Value × Value)) : Checked Unit :=
  entries.foldr (fun (k, _) rest ↦
    if names.any k.isText then rest
    else (fun _ u ↦ u) <$> within (.field k.plain) (fail (α := Unit) .unexpected) <*> rest) (.ok ())

def ofEntries (entries : List (Value × Value)) : Checked Settings :=
  let default : Settings := {}
  (fun s _ ↦ s) <$>
    (Settings.mk <$> defaulted entries "grammars_file" asPath default.grammarsFile
      <*> defaulted entries "build_root" asPath default.buildRoot
      <*> defaulted entries "descriptor_filename" asText default.filename
      <*> defaulted entries "abnf_language_library" asPath default.library
      <*> defaulted entries "abnf_language_name" asText default.libraryName
      <*> defaulted entries commandName (asList asText) default.command
      <*> defaulted entries "max_attempts" (nullable asInteger) none
      <*> defaulted entries "log_level" asText default.logLevel)
    <*> noOthers entries

inductive Source
  | environment
  | file
deriving DecidableEq, Repr

def Source.name : Source → String
  | .environment => "EnvSettingsSource"
  | .file => "DotEnvSettingsSource"

/-- A variable that cannot be read as a list. -/
structure Unreadable where
  source : Source
deriving Repr

def Unreadable.message (u : Unreadable) : String :=
  "error parsing value for field \"" ++ commandName ++ "\" from source \"" ++ u.source.name ++ "\""

def mark : String := "abnf_ts_"

def small (name : String) : String := String.ofList (name.toList.map Char.toLower)

/-- The settings among some variables, whose names are in small letters. -/
def chosen (source : Source) (given : List (String × String)) :
    List String → Except Unreadable (List (Value × Value))
  | [] => .ok []
  | name :: rest =>
    match given.lookup (mark ++ name) with
    | none => chosen source given rest
    | some v =>
      if name = commandName then
        match Json.read? v with
        | none => .error ⟨source⟩
        | some .null => chosen source given rest
        | some v => return (.text name, v) :: (← chosen source given rest)
      else return (.text name, .text v) :: (← chosen source given rest)

/-- Whether a variable is that of a setting; what the name of the command starts counts too. -/
def isSetting (name : String) : Bool :=
  names.contains name || names.any (fun n ↦ name == mark ++ n)
    || (mark ++ commandName).toList.isPrefixOf name.toList

def others (given : List (String × String)) : List (Value × Value) :=
  (given.filter fun (n, v) ↦ v ≠ "" ∧ !isSetting n).map fun (n, v) ↦ (.text n, .text v)

/-- Variables with names in small letters, of which the last one under a name counts. -/
def smallNamed (vs : List (String × String)) : List (String × String) :=
  vs.foldl (fun found (n, v) ↦ (found.filter (·.1 ≠ small n)) ++ [(small n, v)]) []

/-- The settings from the environment and from the text of a file. -/
def read (environment : List (String × String)) (file : Option String) :
    Except Unreadable (Checked Settings) := do
  let first ← chosen .environment (smallNamed environment) names
  let fileGiven := smallNamed <|
    ((file.map (Dotenv.read environment)).getD []).filterMap fun (n, v) ↦ v.map fun v ↦ (n, v)
  let second ← chosen .file fileGiven names
  let later := second.filter fun (k, _) ↦ !first.any fun (k', _) ↦ k.sameKey k'
  return ofEntries (first ++ later ++ others fileGiven)

end Settings

end AbnfCompiler
