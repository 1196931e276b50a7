import AbnfCompiler.Diagnostic.Basic
import AbnfCompiler.Session.Basic

/-!
What came of the generation of a parser.
-/
namespace AbnfCompiler

namespace Generation

inductive Phase
  | idle
  | invoking
  | diagnosing
  | done
  | givenUp
deriving DecidableEq, Repr

namespace Phase

def name : Phase → String
  | .idle => "idle"
  | .invoking => "invoking"
  | .diagnosing => "diagnosing"
  | .done => "done"
  | .givenUp => "given_up"

def all : List Phase := [.idle, .invoking, .diagnosing, .done, .givenUp]

end Phase

structure Fix where
  kind : Diagnostic.Kind
  rules : List String
  attempt : Int
deriving DecidableEq, Repr

namespace Fix

/-- The rules that are new in a session: those that are inlined, or else those of the first new
conflict group. -/
def addedRules (before after : Session) : List String :=
  match after.inlined.filter fun n ↦ !before.inlined.contains n with
  | [] => ((after.conflicts.find? fun g ↦ !before.conflicts.contains g).getD [])
  | names => names

def describe (f : Fix) : String :=
  let names := ", ".intercalate f.rules
  if f.kind = .emptyMatch then
    "Rule matches the empty string; inlining " ++ names ++ " and retrying"
  else "Adding conflict group [" ++ names ++ "] and retrying"

end Fix

structure Result where
  language : String
  phase : Phase
  session : Session
  attempts : Int
  fixes : List Fix := []
  diagnostic : Option Diagnostic := none
  message : Option String := none
  path : Option Path := none
  width : Option Int := none
  unsupported : List Unsupported := []
deriving Repr

namespace Result

def succeeded (r : Result) : Bool := r.phase = .done

end Result

section Check

open Data Checked

def Phase.ofValue : Value → Checked Phase
  | .text s =>
    match Phase.all.find? (·.name == s) with
    | some phase => .ok phase
    | none => fail .notMember
  | _ => fail .notMember

def Fix.ofValue (v : Value) : Checked Fix :=
  asRecord v fun entries ↦
    Fix.mk <$> required entries "kind" Diagnostic.Kind.ofValue
      <*> required entries "rules" (asList asText) <*> required entries "attempt" asInteger

end Check

end Generation

open Data Checked

def Unsupported.ofValue (v : Value) : Checked Unsupported :=
  asRecord v fun entries ↦
    Unsupported.mk <$> required entries "node_kind" asText <*> required entries "text" asText
      <*> required entries "line" asInteger
      <*> defaulted entries "reason" asText Reason.kind.message

def Generation.Result.ofValue (v : Value) : Checked Generation.Result :=
  asRecord v fun entries ↦
    Generation.Result.mk <$> required entries "language_name" asText
      <*> required entries "state" Generation.Phase.ofValue
      <*> required entries "session" Session.ofValue <*> required entries "attempts" asInteger
      <*> defaulted entries "fixes" (asList Generation.Fix.ofValue) []
      <*> defaulted entries "diagnostic" (nullable Diagnostic.ofValue) none
      <*> defaulted entries "message" (nullable asText) none
      <*> defaulted entries "descriptor_path" (nullable asPath) none
      <*> defaulted entries "emitted_width" (nullable asInteger) none
      <*> defaulted entries "unsupported" (asList Unsupported.ofValue) []

end AbnfCompiler
