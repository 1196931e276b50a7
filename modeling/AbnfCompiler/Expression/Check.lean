import AbnfCompiler.Data.Check
import AbnfCompiler.Expression.Basic

/-!
Expressions as values: what a description of an expression has to look like.
-/
namespace AbnfCompiler.Expression

open Data Checked

def expressionTags : List String :=
  ["reference", "literal", "char_class", "sequence", "choice", "repeat", "optional"]

def asCodepoint (v : Value) : Checked Nat :=
  (asInteger v).bind fun n ↦
    if n < 0 then fail .tooSmall else if 0x10FFFF < n then fail .tooLarge else .ok n.toNat

/-- A range from its ends, which have to be code points in this order. -/
def codeRange? (low high : Int) : Option CodeRange :=
  if h : 0 ≤ low ∧ low ≤ high ∧ high ≤ 0x10FFFF then
    some ⟨low.toNat, high.toNat, by omega, by omega⟩
  else none

/-- The marker and the digits of a hexadecimal number. -/
def marked (n : Nat) : String := "0x" ++ String.ofList (Nat.toDigits 16 n)

def asRange (entries : List (Value × Value)) : Checked Expression :=
  let ends := Prod.mk <$> required entries "low" asCodepoint <*> required entries "high" asCodepoint
  ends.bind fun (low, high) ↦
    match codeRange? low high with
    | some range => .ok (.charClass range)
    | none => fail (.rule ("char class low bound " ++ marked low ++ " exceeds high bound " ++
        marked high))

def asCount (v : Value) : Checked Nat :=
  (asInteger v).bind fun n ↦ if n < 0 then fail .tooSmall else .ok n.toNat

def asRepetition (entries : List (Value × Value)) (element : Checked Expression) :
    Checked Expression :=
  let parts := (fun e least most ↦ (e, least, most)) <$> element
    <*> defaulted entries "min" asCount 0
    <*> defaulted entries "max" (nullable asInteger) none
  parts.bind fun (e, least, most) ↦
    match most with
    | none => .ok (.repetition e (.atLeast least))
    | some most =>
      if h : (least : Int) ≤ most then
        .ok (.repetition e ⟨least, some most.toNat, fun n hn ↦ by cases hn; omega⟩)
      else fail (.rule ("repeat lower bound " ++ toString least ++ " exceeds upper bound " ++
        toString most))

mutual

def ofValue : Value → Checked Expression
  | .map entries =>
    match Value.find? "kind" entries with
    | none => fail .noTag
    | some (.text tag) =>
      if expressionTags.contains tag then
        within (.field tag) <| match tag with
          | "reference" => .reference <$> required entries "name" asText
          | "literal" => .text <$> required entries "value" asText
          | "char_class" => asRange entries
          | "sequence" => .sequence <$> itemsOf entries
          | "choice" => .choice <$> itemsOf entries
          | "repeat" => asRepetition entries (elementOf entries)
          | _ => .optional <$> elementOf entries
      else fail .badTag
    | some _ => fail .badTag
  | _ => fail .notObject

def elementOf : List (Value × Value) → Checked Expression
  | [] => within (.field "element") (fail .missing)
  | (k, v) :: rest =>
    if k.isText "element" then within (.field "element") (ofValue v) else elementOf rest

def itemsOf : List (Value × Value) → Checked (List Expression)
  | [] => within (.field "items") (fail .missing)
  | (k, v) :: rest =>
    if k.isText "items" then within (.field "items") (listOf v) else itemsOf rest

def listOf : Value → Checked (List Expression)
  | .list items => eachOf 0 items
  | _ => fail .notList

def eachOf (i : Nat) : List Value → Checked (List Expression)
  | [] => .ok []
  | v :: vs => .cons <$> within (.index i) (ofValue v) <*> eachOf (i + 1) vs

end

end AbnfCompiler.Expression
