import AbnfCompiler.Decimal.FloatText

/-!
Numbers with a given count of decimal places or of significant digits. Roundings are exact, and a
half goes to the even neighbour.
-/
namespace AbnfCompiler.Decimal

/-- A point between whole and part, unless there is no part and none is asked for. -/
def pointed (keepPoint : Bool) (whole part : List Char) : List Char :=
  if part.isEmpty && !keepPoint then whole else whole ++ '.' :: part

/-- The digits before and behind the point. -/
def fixedDigits (places : Nat) (b : Binary64) : List Char × List Char :=
  let (n, d) := Binary64.fraction b.mantissa b.exponent
  let digits := padded (places + 1) (roundHalfEven (n * powerOfTen places) d)
  digits.splitAt (digits.length - places)

/-- The given count of digits, and the decimal exponent of the first one. -/
def significantDigits (count : Nat) (b : Binary64) : List Char × Int :=
  if b.mantissa = 0 then (List.replicate count '0', 0)
  else
    let (n, d) := Binary64.fraction b.mantissa b.exponent
    let first := decimalPoint n d - 1
    let shift := (count : Int) - 1 - first
    let rounded := roundHalfEven (n * powerOfTen shift.toNat) (d * powerOfTen (-shift).toNat)
    let digits := Nat.toDigits 10 rounded
    if count < digits.length then (digits.take count, first + 1) else (digits, first)

def exponentText (e : Int) : List Char :=
  'e' :: (if e < 0 then '-' else '+') :: padded floatLayout.exponentWidth e.natAbs

def fixedText (keepPoint : Bool) (places : Nat) (b : Binary64) : List Char :=
  let (whole, part) := fixedDigits places b
  pointed keepPoint whole part

/-- One digit before the point, and an exponent. -/
def scientificText (keepPoint : Bool) (places : Nat) (b : Binary64) : List Char :=
  let (digits, e) := significantDigits (places + 1) b
  pointed keepPoint (digits.take 1) (digits.drop 1) ++ exponentText e

/-- Some significant digits, with an exponent if the number is small or has more digits than
that before its point. Zeros at the end are dropped, unless the point is to be kept. -/
def generalText (keepPoint : Bool) (count : Nat) (b : Binary64) : List Char :=
  let count := max count 1
  let trimmed (part : List Char) : List Char :=
    if keepPoint then part else (part.reverse.dropWhile (· = '0')).reverse
  let (digits, e) := significantDigits count b
  if floatLayout.least ≤ e ∧ e < count then
    let (whole, part) := fixedDigits ((count : Int) - 1 - e).toNat b
    pointed keepPoint whole (trimmed part)
  else pointed keepPoint (digits.take 1) (trimmed (digits.drop 1)) ++ exponentText e

end AbnfCompiler.Decimal
