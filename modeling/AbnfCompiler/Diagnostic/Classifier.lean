import AbnfCompiler.Diagnostic.Bundled
import AbnfCompiler.Diagnostic.Config

/-!
Classifiers: matchers under the names of their generators. A text is given to the matchers in the
order in which they were registered, and one that none of them knows stays unrecognized.
-/
namespace AbnfCompiler.Diagnostic

open Log Data

/-- Matchers by their generators, and the documents that were loaded. -/
structure Classifier where
  matchers : List (Value × Matcher) := []
  documents : List (Path × Value) := []

namespace Classifier

def log : Channel := ⟨"diagnostics.classifier", []⟩

variable (c : Classifier)

def generators : List Value := c.matchers.map (·.1)

def matcher? (generator : Value) : Option Matcher :=
  (c.matchers.find? fun (name, _) ↦ name.sameKey generator).map (·.2)

/-- Sets the matcher of a generator; one that is there keeps its place. -/
def put (generator : Value) (m : Matcher) : List (Value × Matcher) → List (Value × Matcher)
  | [] => [(generator, m)]
  | (name, old) :: rest =>
    if name.sameKey generator then (name, m) :: rest else (name, old) :: put generator m rest

/-- The classifier with one more matcher. The name of its generator has to be a scalar. -/
def register (m : Matcher) : Traced Entry Matcher.Error Classifier :=
  let named := "generator '" ++ m.generator.plain ++ "'"
  if m.generator.isScalar then do
    .reportWhen (c.matcher? m.generator).isSome
      (log.entry .warning ("Matcher for " ++ named ++ " already registered, overwriting"))
    .report (log.entry .info ("Registered diagnostic matcher for " ++ named))
    return { c with matchers := put m.generator m c.matchers }
  else throw .kind

/-- The classifier without the matcher of a generator, if there is one. -/
def unregister? (generator : Value) : Option (Entry × Classifier) :=
  (c.matcher? generator).map fun _ ↦
    (log.entry .info ("Unregistered diagnostic matcher for generator '" ++ generator.plain ++ "'"),
      { c with matchers := c.matchers.filter fun (name, _) ↦ !name.sameKey generator })

def classifyWith (text : String) : List Matcher → List Entry × Diagnostic
  | [] => ([], ⟨.unrecognized, [], text⟩)
  | m :: ms =>
    match Matcher.diagnose text m.patterns with
    | (entries, some d) =>
      (entries ++ [log.entry .debug ("Classified " ++ m.generator.plain ++ " diagnostic as "
        ++ d.kind.tag ++ ": " ++ ", ".intercalate d.rules)], d)
    | (entries, none) =>
      let (more, d) := classifyWith text ms
      (entries ++ more, d)

/-- The diagnostic of a text, by the matcher of one generator or by all. -/
def classify (text : String) (generator : Option Value) : List Entry × Diagnostic :=
  classifyWith text <| match generator with
    | some name => (c.matcher? name).toList
    | none => c.matchers.map (·.2)

def bundled : Classifier := { matchers := [(Bundled.matcher.generator, Bundled.matcher)] }

def bundledPath : Path := Path.ofText "diagnostics/tree_sitter_cli/config.yaml"

def loaded (path : Path) : Entry :=
  log.entry .info ("Loaded matcher configuration from " ++ path.toText)

def bundledEntries : List Entry :=
  [loaded bundledPath,
   Matcher.ready Bundled.patterns.length,
   log.entry .info
    ("Registered diagnostic matcher for generator '" ++ Matcher.defaultGenerator ++ "'")]

/-- The document of the matcher in a folder, which is read only once. -/
def load (files : Workspace) (folder : Path) : Traced Entry Config.Error (Classifier × Value) :=
  let path := folder.join (.ofText "config.yaml")
  match c.documents.lookup path with
  | some document => return (c, document)
  | none =>
    match Config.read files path with
    | .ok document => do
      .report (loaded path)
      return ({ c with documents := (path, document) :: c.documents }, document)
    | .error e => do
      if let .malformed := e then
        .report (log.entry .error ("Failed to parse matcher configuration " ++ path.toText))
      throw e

end Classifier

end AbnfCompiler.Diagnostic
