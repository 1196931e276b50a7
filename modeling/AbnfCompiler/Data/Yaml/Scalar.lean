import AbnfCompiler.Data.Value
import AbnfCompiler.Text.Split

/-!
What a plain scalar stands for: nothing, a truth value, a number or a text.
-/
namespace AbnfCompiler.Data.Yaml.Scalar

def yesWords : List String :=
  ["yes", "Yes", "YES", "true", "True", "TRUE", "on", "On", "ON"]

def noWords : List String :=
  ["no", "No", "NO", "false", "False", "FALSE", "off", "Off", "OFF"]

def nullWords : List String := ["", "~", "null", "Null", "NULL"]

/-- A number in front of which a sign may stand. -/
def signed (cs : List Char) : Bool × List Char :=
  match cs with
  | '-' :: ds => (true, ds)
  | '+' :: ds => (false, ds)
  | ds => (false, ds)

def withoutUnderscores (cs : List Char) : List Char := cs.filter (· ≠ '_')

def digitValue (c : Char) : Nat :=
  if c.isDigit then c.toNat - '0'.toNat else c.toLower.toNat - 'a'.toNat + 10

/-- The number of digits in a base among which underscores may stand. -/
def inBase? (base : Nat) (isDigit : Char → Bool) (cs : List Char) : Option Nat :=
  let digits := withoutUnderscores cs
  if digits ≠ [] ∧ digits.all isDigit then
    some (digits.foldl (fun n d ↦ n * base + digitValue d) 0)
  else none

def isHexDigit (c : Char) : Bool :=
  c.isDigit || ('a' ≤ c && c ≤ 'f') || ('A' ≤ c && c ≤ 'F')

/-- The parts of a number in base sixty, most significant first. -/
def sixties? : List (List Char) → Option (List Nat)
  | [] => some []
  | part :: parts =>
    if (part.length = 1 ∨ part.length = 2 ∧ part.head?.any (· ≤ '5')) ∧ part.all Char.isDigit then
      (sixties? parts).map (Decimal.asciiNumber part :: ·)
    else none

def startsWithDigit (cs : List Char) : Bool := cs.head?.any Char.isDigit

def magnitude? (cs : List Char) : Option Nat :=
  match cs with
  | '0' :: 'b' :: ds => inBase? 2 (fun c ↦ c == '0' || c == '1') ds
  | '0' :: 'x' :: ds => inBase? 16 isHexDigit ds
  | ['0'] => some 0
  | '0' :: ds => inBase? 8 (fun c ↦ '0' ≤ c && c ≤ '7') ('0' :: ds)
  | _ =>
    match Text.pieces ':' cs with
    | [whole] =>
      if startsWithDigit whole then inBase? 10 Char.isDigit whole else none
    | whole :: parts => do
      if startsWithDigit whole then
        let n ← inBase? 10 Char.isDigit whole
        return (← sixties? parts).foldl (fun m d ↦ m * 60 + d) n
      else none
    | [] => none

def integer? (cs : List Char) : Option Int :=
  let (negative, ds) := signed cs
  (magnitude? ds).map fun n ↦ if negative then -(n : Int) else n

def isDigitOrUnderscore (c : Char) : Bool := c.isDigit || c == '_'

/-- An exponent needs a sign. -/
def isExponent : List Char → Bool
  | [] => true
  | e :: sign :: ds =>
    (e == 'e' || e == 'E') && (sign == '+' || sign == '-') && !ds.isEmpty && ds.all Char.isDigit
  | _ => false

/-- A number with a point, without a sign. -/
def pointed? (cs : List Char) : Option Float :=
  let whole := cs.takeWhile isDigitOrUnderscore
  match cs.dropWhile isDigitOrUnderscore with
  | '.' :: more =>
    let exponent := more.dropWhile isDigitOrUnderscore
    if (if whole.isEmpty then startsWithDigit more else startsWithDigit whole)
        ∧ isExponent exponent then
      Decimal.floatMagnitude? (withoutUnderscores cs)
    else none
  | _ => none

/-- A number in base sixty with a point at its end, added up from its last part on. -/
def pointedSixties? (cs : List Char) : Option Float :=
  match Text.pieces ':' (cs.takeWhile (· ≠ '.')), cs.dropWhile (· ≠ '.') with
  | whole :: part :: parts, '.' :: fraction =>
    if startsWithDigit whole ∧ whole.all isDigitOrUnderscore ∧ fraction.all isDigitOrUnderscore then
      match sixties? (part :: parts) with
      | some ns =>
        let last := (Text.pieces ':' cs).getLast?.getD []
        let first := Decimal.asciiNumber (withoutUnderscores whole)
        let inner := ((first :: ns).dropLast.reverse).map fun n ↦ Decimal.nearest n 0
        (Decimal.floatMagnitude? (withoutUnderscores last)).map fun x ↦
          (inner.foldl (fun (sum, base) y ↦ (sum + y * base, base * 60)) (x, 60)).1
      | none => none
    else none
  | _, _ => none

def infinityWords : List String := [".inf", ".Inf", ".INF"]

def nanWords : List String := [".nan", ".NaN", ".NAN"]

def float? (cs : List Char) : Option Float :=
  let (negative, ds) := signed cs
  if nanWords.contains (String.ofList cs) then some (0.0 / 0.0)
  else if infinityWords.contains (String.ofList ds) then
    some (if negative then -1.0 / 0.0 else 1.0 / 0.0)
  else
    -- a number that starts with its point has no sign
    if ds.head? = some '.' ∧ ds ≠ cs then none
    else ((pointed? ds).or (pointedSixties? ds)).map fun x ↦ if negative then -x else x

/-- The value of a plain scalar. A lone equals sign has none. -/
def ofPlain? (s : String) : Option Value :=
  let cs := s.toList
  if s = "=" then none
  else if nullWords.contains s then some .null
  else if yesWords.contains s then some (.bool true)
  else if noWords.contains s then some (.bool false)
  else
    match float? cs, integer? cs with
    | some x, _ => some (.float x)
    | none, some n => some (.int n)
    | none, none => some (.text s)

end AbnfCompiler.Data.Yaml.Scalar
