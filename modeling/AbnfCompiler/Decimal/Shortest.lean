import AbnfCompiler.Decimal.Binary64

/-!
The fewest decimal digits that read back as the same floating-point number, and of those the
nearest to it.
-/
namespace AbnfCompiler.Decimal

/-- Digits and a decimal exponent: the number `0.d₁d₂… * 10 ^ point`. -/
structure Digits where
  digits : List Char
  point : Int

/-- The reals that round to one float, as numerators over one denominator. -/
structure Interval where
  low : Nat
  mid : Nat
  high : Nat
  den : Nat
  closed : Bool

def Interval.of (b : Binary64) : Interval :=
  let m := b.mantissa
  let down := if m = powerOfTwo 52 ∧ -1074 < b.exponent then 1 else 2
  let e := b.exponent - 2
  let scale := if 0 ≤ e then powerOfTwo e.toNat else 1
  ⟨(4 * m - down) * scale, 4 * m * scale, (4 * m + 2) * scale,
    if 0 ≤ e then 1 else powerOfTwo (-e).toNat, m % 2 = 0⟩

/-- Whether `c * 10 ^ e` lies in the interval. -/
def Interval.covers (i : Interval) (c : Nat) (e : Int) : Bool :=
  let n := if 0 ≤ e then c * powerOfTen e.toNat * i.den else c * i.den
  let s := if 0 ≤ e then 1 else powerOfTen (-e).toNat
  if i.closed then i.low * s ≤ n ∧ n ≤ i.high * s else i.low * s < n ∧ n < i.high * s

/-- The decimal exponent `k` with `10 ^ (k - 1) ≤ n / d < 10 ^ k`, for `0 < n`. -/
def decimalPoint (n d : Nat) : Int :=
  if d ≤ n then ((Nat.toDigits 10 (n / d)).length : Int)
  else
    let guess := (Nat.toDigits 10 (d / n)).length
    if d ≤ n * powerOfTen (guess - 1) then 2 - (guess : Int) else 1 - (guess : Int)

/-- The point of the grid of `count` digits that lies in the interval and nearest to the number. -/
def Interval.onGrid? (i : Interval) (k : Int) (count : Nat) : Option (Nat × Int) :=
  let e := k - count
  let n := if 0 ≤ e then i.mid else i.mid * powerOfTen (-e).toNat
  let d := if 0 ≤ e then i.den * powerOfTen e.toNat else i.den
  let c := n / d
  let r := n % d
  match i.covers c e, i.covers (c + 1) e with
  | true, true => some (if 2 * r < d ∨ 2 * r = d ∧ c % 2 = 0 then c else c + 1, e)
  | true, false => some (c, e)
  | false, true => some (c + 1, e)
  | false, false => none

def shortest (b : Binary64) : Digits :=
  if b.mantissa = 0 then ⟨['0'], 1⟩
  else
    let i := Interval.of b
    let k := decimalPoint i.mid i.den
    match (List.range 17).findSome? fun n ↦ i.onGrid? k (n + 1) with
    | some (c, e) =>
      let cs := Nat.toDigits 10 c
      ⟨(cs.reverse.dropWhile (· = '0')).reverse, e + cs.length⟩
    | none => ⟨['0'], 1⟩

end AbnfCompiler.Decimal
