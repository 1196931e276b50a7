import AbnfCompiler.Decimal.Shortest

/-!
The written form of floating-point numbers, and the numbers that written forms stand for.
-/
namespace AbnfCompiler.Decimal

/-- Which decimal exponents are written without a mark, and the width of a marked exponent. -/
structure FloatLayout where
  least : Int
  bound : Int
  exponentWidth : Nat

/-- Numbers from a ten-thousandth up to ten to the sixteenth are written without exponent. -/
def floatLayout : FloatLayout := ⟨-4, 16, 2⟩

def padded (width n : Nat) : List Char :=
  let ds := Nat.toDigits 10 n
  List.replicate (width - ds.length) '0' ++ ds

def Digits.positional (d : Digits) : List Char :=
  if d.point ≤ 0 then '0' :: '.' :: List.replicate (-d.point).toNat '0' ++ d.digits
  else
    let k := d.point.toNat
    if d.digits.length ≤ k then d.digits ++ List.replicate (k - d.digits.length) '0' ++ ['.', '0']
    else d.digits.take k ++ '.' :: d.digits.drop k

def Digits.scientific (layout : FloatLayout) (d : Digits) : List Char :=
  let e := d.point - 1
  let tail := if d.digits.length ≤ 1 then [] else '.' :: d.digits.drop 1
  d.digits.take 1 ++ tail ++ 'e' :: (if e < 0 then '-' else '+') ::
    padded layout.exponentWidth e.natAbs

/-- The shortest text that reads back as the same float. -/
def floatText (x : Float) : String :=
  match Binary64.ofFloat? x with
  | none => if x.isNaN then "nan" else if x < 0 then "-inf" else "inf"
  | some b =>
    let d := shortest b
    let body :=
      if floatLayout.least ≤ d.point - 1 ∧ d.point - 1 < floatLayout.bound then d.positional
      else d.scientific floatLayout
    String.ofList (if b.negative then '-' :: body else body)

def asciiNumber (cs : List Char) : Nat := cs.foldl (fun n (c : Char) ↦ n * 10 + (c.toNat - 48)) 0

/-- Reads digits with an optional point and exponent, without sign or blanks. -/
def floatMagnitude? (cs : List Char) : Option Float :=
  let whole := cs.takeWhile Char.isDigit
  let rest := cs.dropWhile Char.isDigit
  let (part, rest) := match rest with
    | '.' :: more => (more.takeWhile Char.isDigit, more.dropWhile Char.isDigit)
    | _ => ([], rest)
  let digits := whole ++ part
  let number := asciiNumber digits
  let exponent? : Option Int := match rest with
    | [] => some 0
    | mark :: more =>
      let (sign, ds) := match more with
        | '-' :: ds => (-1, ds)
        | '+' :: ds => (1, ds)
        | ds => ((1 : Int), ds)
      if (mark = 'e' ∨ mark = 'E') ∧ ds ≠ [] ∧ ds.all Char.isDigit then
        some (sign * (asciiNumber ds : Int))
      else none
  if digits.isEmpty then none
  else exponent?.map fun e ↦ nearest number (e - part.length)

end AbnfCompiler.Decimal
