import AbnfCompiler.Log.Level

/-!
Log entries with named fields, and the document that an entry is written as.
-/
namespace AbnfCompiler.Log

open Data

abbrev Fields := List (String × Value)

namespace Fields

def put (name : String) (value : Value) : Fields → Fields
  | [] => [(name, value)]
  | (n, v) :: rest => if n = name then (n, value) :: rest else (n, v) :: put name value rest

def update (fields more : Fields) : Fields := more.foldl (fun fs (n, v) ↦ put n v fs) fields

end Fields

/-- Kind and text of an error that an entry is about. -/
structure ErrorNote where
  kind : String
  message : String
deriving DecidableEq, Repr

structure Entry where
  level : Level
  channel : String
  message : String
  fields : Fields := []
  error : Option ErrorNote := none
deriving Repr

/-- Fields that tell what is being generated; they stand beside the message. -/
def contextNames : List String := ["grammar", "attempt", "phase", "rule"]

/-- Names of the parts of an entry, which no field may have. -/
def ownNames : List String :=
  ["name", "msg", "args", "levelname", "levelno", "pathname", "filename", "module", "exc_info",
   "exc_text", "stack_info", "lineno", "funcName", "created", "msecs", "relativeCreated",
   "thread", "threadName", "processName", "process", "message", "asctime"]

/-- Fields that are never shown. -/
def unshownNames : List String := ["taskName"]

/-- A field with the name of a part of the entry. -/
structure Clash where
  name : String
deriving DecidableEq, Repr

def Clash.text (c : Clash) : String := "Attempt to overwrite " ++ Text.quoted c.name ++
  " in LogRecord"

namespace Entry

/-- The entry, if none of its fields has the name of a part of it. -/
def checked (e : Entry) : Except Clash Entry :=
  match e.fields.find? fun (n, _) ↦ ownNames.contains n with
  | some (n, _) => .error ⟨n⟩
  | none => .ok e

def contextFields (e : Entry) : Fields :=
  contextNames.filterMap fun n ↦ (e.fields.lookup n).map fun v ↦ (n, v)

def otherFields (e : Entry) : Fields :=
  e.fields.filter fun (n, _) ↦ !contextNames.contains n && !unshownNames.contains n

def document (e : Entry) : Value :=
  .record <|
    [("level", .text e.level.name), ("logger", .text e.channel), ("message", .text e.message)]
    ++ e.contextFields
    ++ (if e.otherFields.isEmpty then [] else [("context", .record e.otherFields)])
    ++ (e.error.map fun n ↦
        ("error", Value.record [("type", .text n.kind), ("message", .text n.message)])).toList

def passes (threshold : Int) (e : Entry) : Bool := threshold ≤ e.level.number

end Entry

end AbnfCompiler.Log
