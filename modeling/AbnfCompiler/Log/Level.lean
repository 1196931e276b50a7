import AbnfCompiler.Data.Value

/-!
Levels of log entries, and thresholds below which entries are not shown.
-/
namespace AbnfCompiler.Log

inductive Level
  | debug
  | info
  | warning
  | error
  | critical
deriving DecidableEq, Repr

namespace Level

def number : Level → Int
  | .debug => 10
  | .info => 20
  | .warning => 30
  | .error => 40
  | .critical => 50

def name : Level → String
  | .debug => "DEBUG"
  | .info => "INFO"
  | .warning => "WARNING"
  | .error => "ERROR"
  | .critical => "CRITICAL"

def all : List Level := [.debug, .info, .warning, .error, .critical]

end Level

def thresholds : List (String × Int) :=
  [("CRITICAL", 50), ("FATAL", 50), ("ERROR", 40), ("WARN", 30), ("WARNING", 30), ("INFO", 20),
   ("DEBUG", 10), ("NOTSET", 0)]

inductive ThresholdError
  | unknown (name : String)
  | kind
deriving DecidableEq, Repr

def ThresholdError.message : ThresholdError → String
  | .unknown name => "Unknown level: " ++ Text.quoted name
  | .kind => "Level not an integer or a valid string"

def threshold (name : String) : Except ThresholdError Int :=
  match thresholds.lookup name with
  | some n => .ok n
  | none => .error (.unknown name)

def thresholdOf : Data.Value → Except ThresholdError Int
  | .text name => threshold name
  | .int n => .ok n
  | _ => .error .kind

end AbnfCompiler.Log
