import AbnfCompiler.Expression.Check
import AbnfCompiler.Compilation.Failure

/-!
Terminal values: `%x20-7E` is a range, `%x0D.0A` a literal of several code points, `%xE9` of one,
and a quoted string stands for its text. Only the hexadecimal base is supported.
-/
namespace AbnfCompiler.Compilation

structure HexToken where
  kind : String
  text : String
deriving DecidableEq, Repr

namespace HexToken

def digitKind : String := "HEXDIG"

def isDigit (t : HexToken) : Bool := t.kind == digitKind

def isMarker (t : HexToken) : Bool := t.kind == "x" || t.kind == "X"

def isDash (t : HexToken) : Bool := t.kind == "-"

def isDot (t : HexToken) : Bool := t.kind == "."

/-- The token of a character: signs stand for themselves, all else counts as a digit. -/
def ofChar (c : Char) : HexToken :=
  ⟨if "xX-.".toList.contains c then c.toString else digitKind, c.toString⟩

/-- The tokens of a node. Runs of digits are taken apart, and a node without children is read
character by character. -/
def ofTree (t : SyntaxTree) : List HexToken :=
  if t.children.isEmpty then (t.text.toList.filter fun c ↦ !Text.isBlank c).map ofChar
  else
    t.children.flatMap fun c ↦
      if c.kind = digitKind ∧ 1 < c.text.length then
        c.text.toList.map fun d ↦ ⟨digitKind, d.toString⟩
      else [⟨c.kind, c.text⟩]

def digits (ts : List HexToken) : List Char := (ts.filter isDigit).flatMap (·.text.toList)

/-- Pairs of digits: the first one behind a marker, the others behind dots. -/
def pairs? (leads : HexToken → Bool) : List HexToken → Option (List (List Char))
  | [] => some []
  | lead :: a :: b :: ts =>
    if leads lead && a.isDigit && b.isDigit then
      (pairs? isDot ts).map ((a.text.toList ++ b.text.toList) :: ·)
    else none
  | _ => none

/-- Most tokens of a single value: a marker and six digits. -/
def singleLimit : Nat := 7

def single? (ts : List HexToken) : Option (List Char) :=
  match ts with
  | marker :: rest =>
    let ds := digits rest
    if ts.length ≤ singleLimit ∧ marker.isMarker ∧ ds.length = rest.length ∧ ds ≠ [] then
      some ds
    else none
  | [] => none

end HexToken

open HexToken

/-- Fewest digits of a number; zeros are put before shorter ones. -/
def leastDigits : Nat := 4

def padded (ds : List Char) : List Char := List.replicate (leastDigits - ds.length) '0' ++ ds

/-- The number behind digits, at most the last code point. -/
def hexNumber (node : SyntaxTree) (ds : List Char) : Except Refusal Int :=
  match Text.hexadecimal? (padded ds) with
  | none => refuse node .hexDigits
  | some n => if 0x10FFFF < n then refuse node .outOfRange else .ok n

def codepoint (n : Int) : Except Refusal Codepoint :=
  match n with
  | .ofNat n =>
    match Codepoint.ofNat? n with
    | some c => .ok c
    | none => .error (.failure .notCodepoint)
  | .negSucc _ => .error (.failure .notCodepoint)

def pairValue (ds : List Char) : Except Refusal Codepoint :=
  match Text.hexadecimal? ds with
  | some n => codepoint n
  | none => .error (.failure (.notHex (String.ofList ds)))

/-- A range between the first dash and the rest. -/
def hexRange (node : SyntaxTree) (ts : List HexToken) : Except Refusal Expression := do
  let low := digits (ts.takeWhile fun t ↦ !t.isDash)
  let high := digits ((ts.dropWhile fun t ↦ !t.isDash).drop 1)
  if low = [] ∨ high = [] then refuse node .incompleteRange
  else
    match Expression.codeRange? (← hexNumber node low) (← hexNumber node high) with
    | some range => return .charClass range
    | none => refuse node .invertedRange

def hexValue (node : SyntaxTree) : Except Refusal Expression :=
  let ts := HexToken.ofTree node
  if ts = [] then violate node .noTokens
  else if ts.any isDash then hexRange node ts
  else
    match pairs? isMarker ts with
    | some pairs => return .literal (← pairs.mapM pairValue)
    | none =>
      match single? ts with
      | some ds => return .literal [← codepoint (← hexNumber node ds)]
      | none => refuse node .hexValue

/-- The expression of a percent sign and a value of some base. -/
def numeral (node : SyntaxTree) : Except Refusal Expression :=
  match node.children with
  | [percent, value] =>
    if percent.kind ≠ "%" then violate node .numeral
    else if value.kind = "hex_val" then hexValue value
    else refuse value .base
  | _ => violate node .numeral

/-- The text between double quotes at both ends; without them, the whole text. -/
def unquoted (text : String) : String :=
  let cs := text.toList
  if 2 ≤ cs.length ∧ cs.head? = some '"' ∧ cs.getLast? = some '"' then
    String.ofList (cs.drop 1).dropLast
  else text

def quotedString (node : SyntaxTree) : Expression := .text (unquoted node.text)

end AbnfCompiler.Compilation
