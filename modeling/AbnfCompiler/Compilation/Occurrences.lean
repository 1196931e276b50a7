import AbnfCompiler.Expression.Basic
import AbnfCompiler.Text.Numeral
import AbnfCompiler.Text.Quoted

/-!
Repeat operators such as `*`, `1*`, `*3`, `2*4` and `3`: how often an element may occur.
-/
namespace AbnfCompiler

structure Occurrences where
  lower : Nat
  upper : Option Nat
deriving DecidableEq, Repr

namespace Occurrences

inductive OperatorError
  | notOperator (text : String)
  | tooLong (digits : Nat)
deriving DecidableEq, Repr

/-- The longest run of digits that is read as a number. -/
def digitLimit : Nat := 4300

def OperatorError.message : OperatorError → String
  | .notOperator text => "not a repeat operator: " ++ Text.quoted text
  | .tooLong digits =>
    "Exceeds the limit (" ++ toString digitLimit ++
      " digits) for integer string conversion: value has " ++ toString digits ++
      " digits; use sys.set_int_max_str_digits() to increase the limit"

def count? (digits : List Char) : Except OperatorError (Option Nat) :=
  if digitLimit < digits.length then .error (.tooLong digits.length)
  else .ok (Text.decimal? digits)

/-- Reads an operator: digits for an exact number, or a star with the least number before it and
the greatest number after it, both of which may be missing. Blanks count nowhere. -/
def ofText? (text : String) : Except OperatorError Occurrences :=
  let cs := (Text.withoutBlanks text).toList
  let lower := cs.takeWhile Text.isDigit
  match cs.dropWhile Text.isDigit with
  | [] => do
    match ← count? lower with
    | some n => return ⟨n, some n⟩
    | none => .error (.notOperator text)
  | c :: upper =>
    if c = '*' ∧ upper.all Text.isDigit then do
      let least ← count? lower
      let most ← count? upper
      return ⟨least.getD 0, most⟩
    else .error (.notOperator text)

end Occurrences

end AbnfCompiler
