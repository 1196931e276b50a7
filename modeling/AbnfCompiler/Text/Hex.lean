/-!
Hexadecimal digits of a number, padded to a width.
-/
namespace AbnfCompiler.Text

/-- `n` in small hexadecimal digits, at least `width` of them. -/
def hexDigits (width n : Nat) : List Char :=
  let digits := Nat.toDigits 16 n
  List.replicate (width - digits.length) '0' ++ digits

def capitalHexDigits (width n : Nat) : List Char := (hexDigits width n).map Char.toUpper

end AbnfCompiler.Text
