import AbnfCompiler.Data.Value
import AbnfCompiler.Path
import AbnfCompiler.Text.Blank

/-!
Checking values against the shape of a record. All faults are found, in the order of the fields,
each with the place where it lies.
-/
namespace AbnfCompiler.Data

/-- A step from a value to a part of it. -/
inductive Step
  | field (name : String)
  | index (i : Nat)
deriving DecidableEq, Repr

inductive Fault
  | missing
  | notText
  | notList
  | notTuple
  | notPath
  | notMember
  | notRecord
  | notObject
  | notInteger
  | badInteger
  | longInteger
  | fraction
  | notFinite
  | notTruth
  | badTruth
  | notNumber
  | badNumber
  | noTag
  | badTag
  | tooSmall
  | tooLarge
  | frozen
  | unexpected
  | rule (message : String)
deriving DecidableEq, Repr

def Fault.tag : Fault → String
  | .missing => "missing"
  | .notText => "string_type"
  | .notList => "list_type"
  | .notTuple => "tuple_type"
  | .notPath => "path_type"
  | .notMember => "enum"
  | .notRecord => "model_type"
  | .notObject => "model_attributes_type"
  | .notInteger => "int_type"
  | .badInteger => "int_parsing"
  | .longInteger => "int_parsing_size"
  | .fraction => "int_from_float"
  | .notFinite => "finite_number"
  | .notTruth => "bool_type"
  | .badTruth => "bool_parsing"
  | .notNumber => "float_type"
  | .badNumber => "float_parsing"
  | .noTag => "union_tag_not_found"
  | .badTag => "union_tag_invalid"
  | .tooSmall => "greater_than_equal"
  | .tooLarge => "less_than_equal"
  | .frozen => "frozen_instance"
  | .unexpected => "extra_forbidden"
  | .rule _ => "value_error"

structure Issue where
  place : List Step
  fault : Fault
deriving DecidableEq, Repr

def Step.text : Step → String
  | .field name => name
  | .index i => toString i

/-- The place and the word for the fault. -/
def Issue.text (i : Issue) : String :=
  ".".intercalate (i.place.map Step.text) ++ ": " ++ i.fault.tag

/-- A checked value or the issues found. -/
inductive Checked (α : Type)
  | ok (a : α)
  | issues (found : List Issue)
deriving Inhabited

namespace Checked

variable {α β : Type}

def fail (f : Fault) : Checked α := .issues [⟨[], f⟩]

def bind (x : Checked α) (f : α → Checked β) : Checked β :=
  match x with
  | .ok a => f a
  | .issues is => .issues is

/-- Applies a checked function; the issues of both sides are kept. -/
def apply (f : Checked (α → β)) (x : Checked α) : Checked β :=
  match f, x with
  | .ok f, .ok a => .ok (f a)
  | .ok _, .issues is => .issues is
  | .issues is, .ok _ => .issues is
  | .issues is, .issues js => .issues (is ++ js)

instance : Applicative Checked where
  pure := .ok
  seq f x := apply f (x ())

/-- Moves the issues into a part of a value. -/
def within (s : Step) : Checked α → Checked α
  | .ok a => .ok a
  | .issues is => .issues (is.map fun i ↦ ⟨s :: i.place, i.fault⟩)

/-- Checks every element; the places count from `i`. -/
def eachFrom (check : Value → Checked α) (i : Nat) : List Value → Checked (List α)
  | [] => .ok []
  | v :: vs => .cons <$> within (.index i) (check v) <*> eachFrom check (i + 1) vs

end Checked

open Checked

def asRecord {α : Type} (v : Value) (k : List (Value × Value) → Checked α) : Checked α :=
  match v with
  | .map entries => k entries
  | _ => fail .notRecord

section Fields

variable {α : Type} (entries : List (Value × Value)) (name : String) (check : Value → Checked α)

def required : Checked α :=
  within (.field name) <| match Value.find? name entries with
    | some v => check v
    | none => fail .missing

/-- A field with a value for its absence. -/
def defaulted (default : α) : Checked α :=
  match Value.find? name entries with
  | some v => within (.field name) (check v)
  | none => .ok default

end Fields

def nullable {α : Type} (check : Value → Checked α) : Value → Checked (Option α)
  | .null => .ok none
  | v => some <$> check v

def asText : Value → Checked String
  | .text s => .ok s
  | _ => fail .notText

def asPath : Value → Checked Path
  | .text s => .ok (Path.ofText s)
  | _ => fail .notPath

def asList {α : Type} (check : Value → Checked α) : Value → Checked (List α)
  | .list items => eachFrom check 0 items
  | _ => fail .notList

/-- A list that is reported as a tuple. -/
def asTuple {α : Type} (check : Value → Checked α) : Value → Checked (List α)
  | .list items => eachFrom check 0 items
  | _ => fail .notTuple

def truthWords : List (String × Bool) :=
  [("0", false), ("off", false), ("f", false), ("false", false), ("n", false), ("no", false),
   ("1", true), ("on", true), ("t", true), ("true", true), ("y", true), ("yes", true)]

def asTruthNumber (n : Int) : Checked Bool :=
  if n = 0 then .ok false else if n = 1 then .ok true else fail .badTruth

/-- The integer that a float stands for. -/
def wholeNumber? (x : Float) : Option Int :=
  match Decimal.Binary64.ofFloat? x with
  | none => none
  | some b =>
    let (n, d) := Decimal.Binary64.fraction b.mantissa b.exponent
    if n % d = 0 then some (if b.negative then -(n / d : Nat) else (n / d : Nat)) else none

def asTruth : Value → Checked Bool
  | .bool b => .ok b
  | .int n => asTruthNumber n
  | .float x =>
    match wholeNumber? x with
    | some n => asTruthNumber n
    | none => fail .notTruth
  | .text s =>
    match truthWords.lookup (String.ofList (s.toList.map Char.toLower)) with
    | some b => .ok b
    | none => fail .badTruth
  | _ => fail .notTruth

/-- Blanks around a number: all but the separators from U+001C to U+001F. -/
def trimNumber (s : String) : List Char :=
  Text.trimBoth (fun c ↦ Text.isBlank c && !(0x1C ≤ c.toNat && c.toNat ≤ 0x1F)) s.toList

/-- The digits of a run in which single underscores may stand between digits. -/
def plainDigits? : List Char → Option (List Char)
  | [] => none
  | [c] => if c.isDigit then some [c] else none
  | c :: '_' :: cs => if c.isDigit then (plainDigits? cs).map (c :: ·) else none
  | c :: cs => if c.isDigit then (plainDigits? cs).map (c :: ·) else none

/-- A decimal integer with an optional sign; a point followed by zeros only is allowed. -/
def integer? (cs : List Char) : Option Int :=
  let whole := cs.takeWhile (· ≠ '.')
  if (cs.drop (whole.length + 1)).all (· = '0') then
    match whole with
    | '-' :: ds => (plainDigits? ds).map fun ds ↦ -(Decimal.asciiNumber ds : Int)
    | '+' :: ds => (plainDigits? ds).map fun ds ↦ (Decimal.asciiNumber ds : Int)
    | ds => (plainDigits? ds).map fun ds ↦ (Decimal.asciiNumber ds : Int)
  else none

/-- Longest text that is read as an integer. -/
def integerTextLimit : Nat := 4300

def asInteger : Value → Checked Int
  | .int n => .ok n
  | .bool b => .ok (if b then 1 else 0)
  | .float x =>
    match wholeNumber? x with
    | some n => .ok n
    | none => if (Decimal.Binary64.ofFloat? x).isSome then fail .fraction else fail .notFinite
  | .text s =>
    let cs := trimNumber s
    if integerTextLimit < cs.length then fail .longInteger
    else
      match integer? cs with
      | some n => .ok n
      | none => fail .badInteger
  | _ => fail .notInteger

def number? (cs : List Char) : Option Float :=
  let read (cs : List Char) : Option Float :=
    match String.ofList (cs.map Char.toLower) with
    | "inf" | "infinity" => some (1.0 / 0.0)
    | "nan" => some (0.0 / 0.0)
    | _ => Decimal.floatMagnitude? cs
  match cs with
  | '-' :: ds => (read ds).map (- ·)
  | '+' :: ds => read ds
  | ds => read ds

def asFloat : Value → Checked Float
  | .float x => .ok x
  | .int n => .ok (Float.ofInt n)
  | .bool b => .ok (if b then 1 else 0)
  | .text s =>
    match number? (trimNumber s) with
    | some x => .ok x
    | none => fail .badNumber
  | _ => fail .notNumber

end AbnfCompiler.Data
