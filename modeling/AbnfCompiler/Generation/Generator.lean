import AbnfCompiler.Data.Check
import AbnfCompiler.Generation.Run
import AbnfCompiler.Text.ShellWord

/-!
The generator: a command that is run in the folder of a grammar, after the text of the grammar was
written there.
-/
namespace AbnfCompiler.Generation

open Log Data

/-- How a run of the generator ended, and what it wrote. -/
structure Outcome where
  code : Int
  output : String := ""
  errors : String := ""
  duration : Float := 0.0
deriving Repr

namespace Outcome

def succeeded (o : Outcome) : Bool := o.code = 0

/-- What the generator wrote on errors, or else what it wrote at all. -/
def diagnosticText (o : Outcome) : String := if Text.isAllBlank o.errors then o.output else o.errors

open Checked

def ofValue (v : Value) : Checked Outcome :=
  asRecord v fun entries ↦
    Outcome.mk <$> required entries "returncode" asInteger <*> defaulted entries "stdout" asText ""
      <*> defaulted entries "stderr" asText "" <*> defaulted entries "duration_ms" asFloat 0.0

end Outcome

/-- A command and what it answers, call by call. -/
structure Generator where
  command : List String
  answers : Nat → Except SystemError Outcome

namespace Generator

def log : Channel := ⟨"abnf_ts.services.generator", []⟩

/-- What is logged as the error of a call. -/
def complaint (o : Outcome) : String :=
  if o.succeeded then ""
  else if o.diagnosticText = "" then "exit status " ++ toString o.code
  else o.diagnosticText

def invoke (g : Generator) (folder : Path) (text : String) : Run Outcome := do
  let line := Text.commandLine g.command
  let number := (← getThe Site).calls.length
  modifyThe Site fun site ↦ { site with calls := site.calls ++ [⟨g.command, folder, text⟩] }
  match g.answers number with
  | .ok o =>
    Run.log (log.generatorCall line folder.toText (some o.code) none (complaint o))
    return o
  | .error e =>
    Run.log (log.generatorCall line folder.toText none none e.message)
    throw (.generator line e)

/-- Writes the text of a grammar into a folder, which is made if it is not there. -/
def writeGrammar (folder : Path) (text filename : String) : Run Path := do
  Run.change ((← getThe Site).files.ensure folder)
  let path := folder.join (.ofText filename)
  Run.change (((← getThe Site).files.write path text).mapError fun fault ↦ fault.error path)
  Run.log (log.entry .debug ("Wrote grammar descriptor to " ++ path.toText))
  return path

end Generator

end AbnfCompiler.Generation
