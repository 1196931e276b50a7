import AbnfCompiler.Data.Value
import AbnfCompiler.Text.JsonString

/-!
JSON documents as values, read and written. Strings are read with all their escapes; a surrogate
that stands alone is read as the replacement character.
-/
namespace AbnfCompiler.Data.Json

def isSpace (c : Char) : Bool := c == ' ' || c == '\n' || c == '\t' || c == '\r'

def skip (cs : List Char) : List Char := cs.dropWhile isSpace

def digit? (c : Char) : Option Nat :=
  if c.isDigit then some (c.toNat - '0'.toNat)
  else if 'a' ≤ c ∧ c ≤ 'f' then some (c.toNat - 'a'.toNat + 10)
  else if 'A' ≤ c ∧ c ≤ 'F' then some (c.toNat - 'A'.toNat + 10)
  else none

def unit? (a b c d : Char) : Option Nat := do
  return (((← digit? a) * 16 + (← digit? b)) * 16 + (← digit? c)) * 16 + (← digit? d)

/-- The character of a two-character escape. -/
def simpleEscape? : Char → Option Char
  | '"' => some '"'
  | '\\' => some '\\'
  | '/' => some '/'
  | 'b' => some '\x08'
  | 'f' => some '\x0c'
  | 'n' => some '\n'
  | 'r' => some '\r'
  | 't' => some '\t'
  | _ => none

def isHigh (n : Nat) : Bool := 0xD800 ≤ n && n < 0xDC00

def isLow (n : Nat) : Bool := 0xDC00 ≤ n && n < 0xE000

def unitChar (n : Nat) : Char := if isHigh n || isLow n then '\uFFFD' else Char.ofNat n

/-- A string after its opening quote. -/
def stringBody : List Char → Option (List Char × List Char)
  | [] => none
  | '"' :: cs => some ([], cs)
  | '\\' :: 'u' :: a :: b :: c :: d :: '\\' :: 'u' :: e :: f :: g :: h :: cs => do
    let m ← unit? a b c d
    match unit? e f g h with
    | some n =>
      if isHigh m ∧ isLow n then
        let (body, rest) ← stringBody cs
        return (Char.ofNat (0x10000 + (m - 0xD800) * 0x400 + (n - 0xDC00)) :: body, rest)
      else
        let (body, rest) ← stringBody ('\\' :: 'u' :: e :: f :: g :: h :: cs)
        return (unitChar m :: body, rest)
    | none => none
  | '\\' :: 'u' :: a :: b :: c :: d :: cs => do
    let m ← unit? a b c d
    let (body, rest) ← stringBody cs
    return (unitChar m :: body, rest)
  | '\\' :: c :: cs => do
    let e ← simpleEscape? c
    let (body, rest) ← stringBody cs
    return (e :: body, rest)
  | c :: cs => do
    if c < ' ' then none
    else
      let (body, rest) ← stringBody cs
      return (c :: body, rest)

def digits (cs : List Char) : List Char × List Char :=
  (cs.takeWhile Char.isDigit, cs.dropWhile Char.isDigit)

/-- Sign and digits of an exponent, if there is one. -/
def exponentPart (cs : List Char) : List Char × List Char :=
  match cs with
  | mark :: more =>
    if mark = 'e' ∨ mark = 'E' then
      let (sign, more) := match more with
        | '+' :: more => (['+'], more)
        | '-' :: more => (['-'], more)
        | _ => ([], more)
      match digits more with
      | ([], _) => ([], cs)
      | (ds, rest) => (mark :: sign ++ ds, rest)
    else ([], cs)
  | [] => ([], [])

def fractionPart (cs : List Char) : List Char × List Char :=
  match cs with
  | '.' :: more =>
    match digits more with
    | ([], _) => ([], cs)
    | (ds, rest) => ('.' :: ds, rest)
  | _ => ([], cs)

/-- A number without sign: an integer unless it has a fraction or an exponent. -/
def magnitude? (negative : Bool) (cs : List Char) : Option (Value × List Char) :=
  let (whole, rest) := match cs with
    | '0' :: rest => (['0'], rest)
    | _ => digits cs
  if whole.isEmpty then none
  else
    let (fraction, rest) := fractionPart rest
    let (exponent, rest) := exponentPart rest
    if fraction.isEmpty && exponent.isEmpty then
      let n := Decimal.asciiNumber whole
      some (.int (if negative then -(n : Int) else n), rest)
    else
      (Decimal.floatMagnitude? (whole ++ fraction ++ exponent)).map fun x ↦
        (.float (if negative then -x else x), rest)

def word? (word : String) (v : Value) (cs : List Char) : Option (Value × List Char) :=
  if word.toList.isPrefixOf cs then some (v, cs.drop word.length) else none

mutual

/-- A value at the start of a text, with what follows it. Every level of nesting takes one unit
of the first argument. -/
def value? : Nat → List Char → Option (Value × List Char)
  | 0, _ => none
  | depth + 1, cs =>
    match cs with
    | '"' :: cs => (stringBody cs).map fun (s, rest) ↦ (.text (String.ofList s), rest)
    | '[' :: cs =>
      match skip cs with
      | ']' :: rest => some (.list [], rest)
      | cs => do
        let (items, rest) ← elements? depth cs
        return (.list items, rest)
    | '\x7b' :: cs =>
      match skip cs with
      | '\x7d' :: rest => some (.map [], rest)
      | cs => do
        let (entries, rest) ← members? depth cs
        return (Value.ofEntries entries, rest)
    | 'n' :: _ => word? "null" .null cs
    | 't' :: _ => word? "true" (.bool true) cs
    | 'f' :: _ => word? "false" (.bool false) cs
    | 'N' :: _ => word? "NaN" (.float (0.0 / 0.0)) cs
    | 'I' :: _ => word? "Infinity" (.float (1.0 / 0.0)) cs
    | '-' :: 'I' :: _ => word? "-Infinity" (.float (-1.0 / 0.0)) cs
    | '-' :: cs => magnitude? true cs
    | cs => magnitude? false cs

def elements? : Nat → List Char → Option (List Value × List Char)
  | 0, _ => none
  | depth + 1, cs => do
    let (v, rest) ← value? depth cs
    match skip rest with
    | ']' :: rest => return ([v], rest)
    | ',' :: rest =>
      let (vs, rest) ← elements? depth (skip rest)
      return (v :: vs, rest)
    | _ => none

def members? : Nat → List Char → Option (List (Value × Value) × List Char)
  | 0, _ => none
  | depth + 1, cs =>
    match cs with
    | '"' :: cs => do
      let (key, rest) ← stringBody cs
      match skip rest with
      | ':' :: rest =>
        let (v, rest) ← value? depth (skip rest)
        let entry := (Value.text (String.ofList key), v)
        match skip rest with
        | '\x7d' :: rest => return ([entry], rest)
        | ',' :: rest =>
          let (more, rest) ← members? depth (skip rest)
          return (entry :: more, rest)
        | _ => none
      | _ => none
    | _ => none

end

def read? (s : String) : Option Value :=
  let cs := s.toList
  match value? (2 * cs.length + 2) (skip cs) with
  | some (v, rest) => if (skip rest).isEmpty then some v else none
  | none => none

/-- A key as a string; scalars that are no texts are written out. -/
def keyText : Value → String
  | .text s => s
  | .null => "null"
  | .bool b => if b then "true" else "false"
  | v => v.shown

def floatLiteral (x : Float) : String :=
  if x.isNaN then "NaN" else if x.isInf then (if x < 0 then "-Infinity" else "Infinity")
  else Decimal.floatText x

mutual

/-- The document of a value on one line. -/
def render : Value → String
  | .null => "null"
  | .bool b => if b then "true" else "false"
  | .int n => toString n
  | .float x => floatLiteral x
  | .text s => Text.jsonText s
  | .list items => "[" ++ ", ".intercalate (renderItems items) ++ "]"
  | .map entries => "\x7b" ++ ", ".intercalate (renderEntries entries) ++ "\x7d"

def renderItems : List Value → List String
  | [] => []
  | v :: vs => render v :: renderItems vs

def renderEntries : List (Value × Value) → List String
  | [] => []
  | (k, v) :: rest => (Text.jsonText (keyText k) ++ ": " ++ render v) :: renderEntries rest

end

end AbnfCompiler.Data.Json
