import AbnfCompiler.Configuration
import AbnfCompiler.Generation.Loop
import AbnfCompiler.Generation.Summary
import AbnfCompiler.Settings

/-!
A batch: one parser for each grammar in the configuration. What is wrong with one grammar does not
keep the others from being generated.
-/
namespace AbnfCompiler.Generation

open Log

def sourceTree (parser : Source.Parser) (path : Path) : Run SyntaxTree := do
  match (← getThe Site).files.read path with
  | .error fault => throw (.source (.unreadable path (fault.error path).message))
  | .ok text =>
    let tree ← Run.relay ((Source.parse parser text).relabel id .source)
    Run.log (Source.log.entry .debug ("Successfully parsed ABNF file: " ++ path.toText))
    return tree

def Loop.generate (c : Loop) (parser : Source.Parser) (root : Path)
    (configuration : Configuration) : Run Result := do
  let s := configuration.session root
  c.run (← sourceTree parser s.source) s

/-- The note on a failure that only one grammar is to blame for. -/
def Failure.note? (f : Failure) : Option ErrorNote :=
  match f with
  | .source _ => some ⟨"AbnfParseError", f.message⟩
  | .compilation (.violation _) | .rendering (.flaw _) => some ⟨"StructuralViolation", f.message⟩
  | .generator _ _ => some ⟨"GeneratorUnavailableError", f.message⟩
  | _ => none

/-- What a batch works with. There may be no parser for sources. -/
structure Batch where
  settings : Settings
  parser : Except Source.Error Source.Parser
  answers : Nat → Except SystemError Outcome

namespace Batch

/-- What ends a batch at once. -/
inductive Stop
  | threshold (error : ThresholdError)
  | configuration (error : Configuration.Error)
  | noCommand
  | failed (cause : Failure)

def noCommandMessage : String := "generator command must not be empty"

def Stop.message : Stop → String
  | .threshold error => error.message
  | .configuration error => error.message
  | .noCommand => noCommandMessage
  | .failed cause => cause.message

abbrev Step := ExceptT Stop (StateM Site)

def lift {α : Type} (x : Run α) : Step α := ExceptT.adapt Stop.failed x

variable (b : Batch)

def log : Channel := ⟨"generate_grammars", []⟩

def banner : List String :=
  [Summary.thick, "ABNF to tree-sitter Grammar Generator", Summary.thick]

def heading (c : Configuration) : List String :=
  ["\n" ++ Summary.thin, "Generating " ++ c.language ++ " from " ++ c.source.toText, Summary.thin]

def sayAll (texts : List String) : Run Unit := texts.forM Run.say

def aborted (language : String) (note : ErrorNote) : Entry :=
  log.failed ("Generation aborted for " ++ language) note [("grammar", .text language)]

def loop : Loop :=
  ⟨⟨b.settings.command, b.answers⟩,
    fun text ↦ Diagnostic.Classifier.bundled.classify text none,
    b.settings.filename, b.settings.maxAttempts⟩

/-- The result for one grammar; there is none when its generation is aborted. -/
def grammar (parser : Source.Parser) (c : Configuration) : Run (Option Result) := do
  sayAll (heading c)
  tryCatch (some <$> b.loop.generate parser b.settings.buildRoot c) fun cause ↦
    match cause.note? with
    | some note => do
      Run.log (aborted c.language note)
      return none
    | none => throw cause

/-- The results and the names of the grammars without one. -/
def grammars (parser : Source.Parser) : List Configuration → Run (List Result × List String)
  | [] => return ([], [])
  | c :: cs => do
    let found ← b.grammar parser c
    let (results, names) ← grammars parser cs
    match found with
    | some result => return (result :: results, names)
    | none => return (results, c.language :: names)

/-- The configurations; none when the file with them is refused. -/
def configurations? : Step (Option (List Configuration)) := do
  let loaded := Configuration.load (← getThe Site).files b.settings.grammarsFile
  lift (Run.logAll loaded.trace)
  match loaded.result with
  | .ok cs => return some cs
  | .error e =>
    if e.isDeclared then
      lift (Run.say ("Failed to load grammar configuration: " ++ e.message))
      return none
    else throw (.configuration e)

/-- The exit code of a batch. -/
def run : Step Nat := do
  if let .error e := threshold b.settings.logLevel then throw (.threshold e)
  lift (sayAll banner)
  let some cs ← b.configurations? | return 1
  match b.parser with
  | .error e =>
    lift (Run.say ("Failed to load the ABNF parser: " ++ e.message))
    return 1
  | .ok parser =>
    lift (Run.log Source.ready)
    if b.settings.command.isEmpty then throw .noCommand
    lift (Run.logAll Diagnostic.Classifier.bundledEntries)
    let (results, names) ← lift (b.grammars parser cs)
    lift (sayAll (Summary.lines results names))
    return if names.isEmpty && results.all Result.succeeded then 0 else 1

end Batch

end AbnfCompiler.Generation
