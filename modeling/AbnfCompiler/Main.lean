import AbnfCompiler.Data.Json
import AbnfCompiler.Generation.Batch

/-!
The command line. It takes the settings from the environment and from the file `.env`, and prints
what a batch has to say. Parsers in shared libraries cannot be loaded, so a batch ends when it asks
for one.
-/
namespace AbnfCompiler.CommandLine

open Generation

def contents? (name : String) : IO (Option String) := do
  try
    return some (← IO.FS.readFile name)
  catch _ => return none

def variableNames : List String :=
  Settings.names.flatMap fun name ↦
    let small := Settings.mark ++ name
    [small, String.ofList (small.toList.map Char.toUpper)]

def environment : IO (List (String × String)) :=
  variableNames.filterMapM fun name ↦ return (← IO.getEnv name).map fun v ↦ (name, v)

/-- The files that a batch reads, as far as they are there. -/
def workspace (settings : Settings) : IO Workspace := do
  let file := settings.grammarsFile
  let some text ← contents? file.toText | return {}
  match ({} : Workspace).ensure file.parent with
  | .error _ => return {}
  | .ok made =>
    match made.write file text with
    | .ok files => return files
    | .error _ => return made

def source (settings : Settings) : IO Source.Error := do
  let library := settings.library
  if (← contents? library.toText).isSome then
    return .unusable settings.libraryName library "shared libraries are not supported"
  else return .noLibrary library

def print (threshold : Int) : Line → IO Unit
  | .said text => IO.println text
  | .logged entry =>
    if entry.passes threshold then IO.println (Data.Json.render entry.document) else return ()

def run (settings : Settings) : IO UInt32 := do
  let refusal ← source settings
  let answers (_ : Nat) : Except SystemError Outcome := .error ⟨2, FileFault.absent.text, ""⟩
  let batch : Batch := ⟨settings, .error refusal, answers⟩
  let (exit, site) := batch.run.run { files := ← workspace settings }
  let threshold := (Log.threshold settings.logLevel).toOption.getD 0
  site.lines.forM (print threshold)
  match exit with
  | .ok code => return UInt32.ofNat code
  | .error stop =>
    IO.eprintln stop.message
    return 1

def command : IO UInt32 := do
  match Settings.read (← environment) (← contents? ".env") with
  | .error e =>
    IO.eprintln e.message
    return 1
  | .ok (.issues issues) =>
    for issue in issues do
      IO.eprintln issue.text
    return 1
  | .ok (.ok settings) => run settings

end AbnfCompiler.CommandLine

def main : IO UInt32 := AbnfCompiler.CommandLine.command
