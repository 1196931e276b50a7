/-!
Finite floating-point numbers as a sign and an integer times a power of two, and roundings of
such numbers in exact arithmetic.
-/
namespace AbnfCompiler.Decimal

def powerOfTwo (n : Nat) : Nat := Nat.pow 2 n

def powerOfTen (n : Nat) : Nat := Nat.pow 10 n

/-- The number `mantissa * 2 ^ exponent`, with a sign. -/
structure Binary64 where
  negative : Bool
  mantissa : Nat
  exponent : Int
deriving DecidableEq, Repr

namespace Binary64

def ofFloat? (x : Float) : Option Binary64 :=
  let bits := x.toBits.toNat
  let biased : Nat := bits / powerOfTwo 52 % powerOfTwo 11
  let fraction : Nat := bits % powerOfTwo 52
  let negative := bits / powerOfTwo 63 == 1
  if biased = 2047 then none
  else if biased = 0 then some ⟨negative, fraction, -1074⟩
  else some ⟨negative, powerOfTwo 52 + fraction, (biased : Int) - 1075⟩

def fraction (n : Nat) (e : Int) : Nat × Nat :=
  if 0 ≤ e then (n * powerOfTwo e.toNat, 1) else (n, powerOfTwo (-e).toNat)

end Binary64

/-- The integer nearest to `n / d`, of two the even one. -/
def roundHalfEven (n d : Nat) : Nat :=
  let q := n / d
  let r := n % d
  if 2 * r < d then q else if d < 2 * r then q + 1 else q + q % 2

/-- The number nearest to `x` among those with the given count of decimal places. -/
def roundPlaces (places : Nat) (x : Float) : Float :=
  match Binary64.ofFloat? x with
  | none => x
  | some b =>
    let (n, d) := Binary64.fraction b.mantissa b.exponent
    let y := Float.ofScientific (roundHalfEven (n * powerOfTen places) d) true places
    if b.negative then -y else y

/-- The float nearest to `n * 10 ^ e`. Exponents far outside the range of floats are cut. -/
def nearest (n : Nat) (e : Int) : Float :=
  let e := max (-6000) (min 6000 e)
  Float.ofScientific n (e < 0) e.natAbs

end AbnfCompiler.Decimal
