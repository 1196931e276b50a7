import AbnfCompiler.Log.Entry
import AbnfCompiler.Log.Template

/-!
Channels of the log. A channel adds its fields to all of its entries; fields given with an entry
win over those of the channel. The entries for the main events of a run are laid down here.
-/
namespace AbnfCompiler.Log

open Data

structure Channel where
  name : String
  fields : Fields := []
deriving Repr

namespace Channel

variable (c : Channel)

def withContext (more : Fields) : Channel := { c with fields := c.fields.update more }

def entry (level : Level) (message : String) (extra : Fields := []) : Entry :=
  ⟨level, c.name, message, c.fields.update extra, none⟩

/-- A step from one state of a run to the next. -/
def transition (grammar : String) (attempt : Int) (before after : String) : Entry :=
  c.entry .info ("Controller state " ++ before ++ " -> " ++ after)
    [("grammar", .text grammar), ("attempt", .int attempt), ("phase", .text after),
     ("from_state", .text before)]

/-- Durations are given with two decimal places. -/
def rounded : Value → Value
  | .float x => .float (Decimal.roundPlaces 2 x)
  | v => v

def generatorCall (command cwd : String) (code : Option Int) (duration : Option Value)
    (error : String) : Entry :=
  let extra := [("command", Value.text command), ("cwd", .text cwd)]
    ++ (code.map fun n ↦ ("returncode", Value.int n)).toList
    ++ (duration.map fun d ↦ ("duration_ms", rounded d)).toList
  if error = "" then c.entry .info ("Generator call: " ++ command) extra
  else c.entry .error ("Generator failed: " ++ command ++ "\n" ++ error) extra

def failed (message : String) (note : ErrorNote) (extra : Fields) : Entry :=
  { c.entry .error (message ++ ": " ++ note.message) extra with error := some note }

end Channel

end AbnfCompiler.Log
