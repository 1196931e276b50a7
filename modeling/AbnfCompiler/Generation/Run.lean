import AbnfCompiler.Grammar.Rendering
import AbnfCompiler.Log.Channel
import AbnfCompiler.Source
import AbnfCompiler.Compilation.Basic
import AbnfCompiler.Workspace

/-!
Runs: what happens to the files, to the generator and on the output while parsers are generated.
What happened before a failure stays.
-/
namespace AbnfCompiler.Generation

open Log

inductive Line
  | said (text : String)
  | logged (entry : Entry)

/-- A call of the generator, with the grammar text that it found. -/
structure Call where
  command : List String
  folder : Path
  text : String
deriving DecidableEq, Repr

structure Site where
  files : Workspace := {}
  calls : List Call := []
  lines : List Line := []

inductive Failure
  | source (error : Source.Error)
  | compilation (failure : Compilation.Failure)
  | rendering (error : RenderError)
  | file (error : SystemError)
  | generator (commandLine : String) (error : SystemError)

def Failure.message : Failure → String
  | .source error => error.message
  | .compilation failure => failure.message
  | .rendering error => error.message
  | .file error => error.message
  | .generator commandLine error =>
    "Cannot run generator command " ++ Text.quoted commandLine ++ ": " ++ error.message

abbrev Run := ExceptT Failure (StateM Site)

namespace Run

variable {α ε : Type}

def emit (line : Line) : Run Unit :=
  modifyThe Site fun site ↦ { site with lines := site.lines ++ [line] }

def log (entry : Entry) : Run Unit := emit (.logged entry)

def say (text : String) : Run Unit := emit (.said text)

def logAll (entries : List Entry) : Run Unit :=
  modifyThe Site fun site ↦ { site with lines := site.lines ++ entries.map Line.logged }

/-- Logs what a computation reports, and goes on with its result. -/
def relay (x : Traced Entry Failure α) : Run α := do
  logAll x.trace
  match x.result with
  | .ok a => return a
  | .error e => throw e

def change (x : Except SystemError Workspace) : Run Unit :=
  match x with
  | .ok files => modifyThe Site fun site ↦ { site with files }
  | .error e => throw (.file e)

end Run

end AbnfCompiler.Generation
