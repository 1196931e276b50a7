import AbnfCompiler.Data.Value
import AbnfCompiler.Decimal.Places
import AbnfCompiler.Text.Codepoint

/-!
Messages with places for values, such as `%s`, `%5d` and `%-8.3f`. A place may name the entry of
a map.
-/
namespace AbnfCompiler.Log

open Data

/-- How a value is to be written. -/
structure Place where
  key : Option String := none
  left : Bool := false
  zeros : Bool := false
  plus : Bool := false
  space : Bool := false
  alternate : Bool := false
  width : Nat := 0
  precision : Option Nat := none
  conversion : Char := 's'
deriving Repr

namespace Place

/-- Fills up to the width, with zeros behind the sign for a number. -/
def padded (p : Place) (numeric : Bool) (sign body : List Char) : List Char :=
  let fill := p.width - (sign.length + body.length)
  if p.left then sign ++ body ++ List.replicate fill ' '
  else if p.zeros && numeric then sign ++ List.replicate fill '0' ++ body
  else List.replicate fill ' ' ++ sign ++ body

def signOf (p : Place) (negative : Bool) : List Char :=
  if negative then ['-'] else if p.plus then ['+'] else if p.space then [' '] else []

def cutText (p : Place) (s : String) : List Char :=
  match p.precision with
  | some n => s.toList.take n
  | none => s.toList

def textPlace (p : Place) (s : String) : List Char := p.padded false [] (p.cutText s)

/-- An integer in a base, with the mark of the base where it is asked for. -/
def integerPlace (p : Place) (base : Nat) (mark : List Char) (capital : Bool) (n : Int) :
    List Char :=
  let digits := Nat.toDigits base n.natAbs
  let digits := List.replicate (p.precision.getD 0 - digits.length) '0' ++
    if capital then digits.map Char.toUpper else digits
  p.padded true (p.signOf (n < 0) ++ if p.alternate then mark else []) digits

/-- A number in a notation that takes the precision. -/
def numberPlace (p : Place) (write : Nat → Decimal.Binary64 → List Char) (capital : Bool)
    (x : Float) : List Char :=
  let (negative, body) := match Decimal.Binary64.ofFloat? x with
    | some b => (b.negative, write (p.precision.getD 6) b)
    | none => (x < 0, (if x.isNaN then "nan" else "inf").toList)
  p.padded true (p.signOf negative) (if capital then body.map Char.toUpper else body)

/-- The integer that a number is cut to. -/
def whole? : Value → Option Int
  | .int n => some n
  | .bool b => some (if b then 1 else 0)
  | .float x =>
    (Decimal.Binary64.ofFloat? x).map fun b ↦
      let (n, d) := Decimal.Binary64.fraction b.mantissa b.exponent
      if b.negative then -(n / d : Nat) else (n / d : Nat)
  | _ => none

def integral? : Value → Option Int
  | .int n => some n
  | .bool b => some (if b then 1 else 0)
  | _ => none

def character? : Value → Option (List Char)
  | .text s => if s.length = 1 then some s.toList else none
  | v => do
    let n ← integral? v
    if n < 0 then none else return [← (← Codepoint.ofNat? n.toNat).toChar?]

/-- The value as the place wants it, if the value is of the right kind. -/
def fill? (p : Place) (v : Value) : Option (List Char) :=
  match p.conversion with
  | 's' => some (p.textPlace v.plain)
  | 'r' => some (p.textPlace v.shown)
  | 'a' => some (p.textPlace (Text.asciiOnly v.shown))
  | 'd' | 'i' | 'u' => (whole? v).map (p.integerPlace 10 [] false)
  | 'o' => (integral? v).map (p.integerPlace 8 ['0', 'o'] false)
  | 'x' => (integral? v).map (p.integerPlace 16 ['0', 'x'] false)
  | 'X' => (integral? v).map (p.integerPlace 16 ['0', 'X'] true)
  | 'f' => v.number?.map (p.numberPlace (Decimal.fixedText p.alternate) false)
  | 'F' => v.number?.map (p.numberPlace (Decimal.fixedText p.alternate) true)
  | 'e' => v.number?.map (p.numberPlace (Decimal.scientificText p.alternate) false)
  | 'E' => v.number?.map (p.numberPlace (Decimal.scientificText p.alternate) true)
  | 'g' => v.number?.map (p.numberPlace (Decimal.generalText p.alternate) false)
  | 'G' => v.number?.map (p.numberPlace (Decimal.generalText p.alternate) true)
  | 'c' => (character? v).map (p.padded false [])
  | _ => none

/-- Reads the flags before the width. -/
def flags (p : Place) : List Char → Place × List Char
  | '-' :: cs => flags { p with left := true } cs
  | '0' :: cs => flags { p with zeros := true } cs
  | '+' :: cs => flags { p with plus := true } cs
  | ' ' :: cs => flags { p with space := true } cs
  | '#' :: cs => flags { p with alternate := true } cs
  | cs => (p, cs)

def number (cs : List Char) : Nat × List Char :=
  (Decimal.asciiNumber (cs.takeWhile Char.isDigit), cs.dropWhile Char.isDigit)

/-- The length of a name up to the parenthesis that closes it, given how many are open. -/
def keyLength? (depth : Nat) : List Char → Option Nat
  | [] => none
  | ')' :: cs => if depth = 0 then some 0 else (keyLength? (depth - 1) cs).map (· + 1)
  | c :: cs => (keyLength? (if c = '(' then depth + 1 else depth) cs).map (· + 1)

/-- A letter that tells the size of an integer means nothing. -/
def skipSize : List Char → List Char
  | 'h' :: cs | 'l' :: cs | 'L' :: cs => cs
  | cs => cs

def read? (cs : List Char) : Option (Place × List Char) := do
  let (key, cs) ← match cs with
    | '(' :: more => do
      let n ← keyLength? 0 more
      some (some (String.ofList (more.take n)), more.drop (n + 1))
    | _ => some (none, cs)
  let (p, cs) := flags { key } cs
  let (width, cs) := number cs
  let (precision, cs) := match cs with
    | '.' :: more => let (n, rest) := number more; (some n, rest)
    | _ => (none, cs)
  match skipSize cs with
  | conversion :: rest => some ({ p with width, precision, conversion }, rest)
  | [] => none

end Place

/-- What the places of a message are filled with: values in a row, or the entries of a map. One
place may take the map itself, before any place has taken an entry. -/
inductive Arguments
  | row (values : List Value)
  | named (entries : List (Value × Value)) (whole : Bool)

/-- The value for a place and the values left. -/
def Arguments.next? (p : Place) : Arguments → Option (Value × Arguments)
  | .row (v :: vs) => if p.key.isNone then some (v, .row vs) else none
  | .row [] => none
  | .named entries whole =>
    match p.key with
    | some key => (Value.find? key entries).map fun v ↦ (v, .named entries false)
    | none => if whole then some (.map entries, .named entries false) else none

def Arguments.isSpent : Arguments → Bool
  | .row vs => vs.isEmpty
  | .named _ _ => true

/-- Fills the places of a message; `steps` bounds the number of places. -/
def fillFrom : Nat → Arguments → List Char → Option (List Char)
  | 0, _, _ => none
  | steps + 1, args, cs =>
    let plain := cs.takeWhile (· ≠ '%')
    match cs.dropWhile (· ≠ '%') with
    | [] => if args.isSpent then some plain else none
    | _ :: '%' :: rest => return plain ++ '%' :: (← fillFrom steps args rest)
    | _ :: cs => do
      let (p, rest) ← Place.read? cs
      let (v, args) ← args.next? p
      return plain ++ (← p.fill? v) ++ (← fillFrom steps args rest)

/-- The message with its places filled. Without values it stays as it is; a single map that is
not empty gives its entries. -/
def fill? (message : String) (values : List Value) : Option String :=
  let cs := message.toList
  match values with
  | [] => some message
  | [.map (e :: entries)] =>
    (fillFrom (cs.length + 1) (.named (e :: entries) true) cs).map String.ofList
  | _ => (fillFrom (cs.length + 1) (.row values) cs).map String.ofList

end AbnfCompiler.Log
