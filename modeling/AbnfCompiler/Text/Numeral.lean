import AbnfCompiler.Text.Blank
import AbnfCompiler.Text.Digit

/-!
Numerals: runs of digits of any script, and hexadecimal numerals with sign, marker and
underscores between the digits.
-/
namespace AbnfCompiler.Text

/-- Value of digits written in a base, the first one the most significant. -/
def ofDigits (base : Nat) (digits : List Nat) : Nat := digits.foldl (fun n d ↦ n * base + d) 0

/-- Value of a run of decimal digits; no digit at all gives nothing. -/
def decimal? (cs : List Char) : Option Nat :=
  if cs.isEmpty then none else (cs.mapM digit?).map (ofDigits 10)

/-- Blanks that may stand around a numeral: the separators from U+001C to U+001F may not. -/
def isNumeralBlank (c : Char) : Bool := isBlank c && !(0x1C ≤ c.toNat && c.toNat ≤ 0x1F)

/-- The digits of a run in which single underscores may stand between digits. -/
def hexRun? : List Char → Option (List Nat)
  | [] => none
  | [c] => (hexDigit? c).map ([·])
  | c :: '_' :: cs => do return (← hexDigit? c) :: (← hexRun? cs)
  | c :: cs => do return (← hexDigit? c) :: (← hexRun? cs)

/-- A hexadecimal numeral without sign: an optional marker `0x`, after which one underscore may
stand, and digits. -/
def hexMagnitude? : List Char → Option Nat
  | '0' :: x :: '_' :: cs =>
    if x = 'x' ∨ x = 'X' then (hexRun? cs).map (ofDigits 16)
    else (hexRun? ('0' :: x :: '_' :: cs)).map (ofDigits 16)
  | '0' :: x :: cs =>
    if x = 'x' ∨ x = 'X' then (hexRun? cs).map (ofDigits 16)
    else (hexRun? ('0' :: x :: cs)).map (ofDigits 16)
  | cs => (hexRun? cs).map (ofDigits 16)

/-- A hexadecimal numeral with an optional sign and blanks around it. -/
def hexadecimal? (cs : List Char) : Option Int :=
  match trimBoth isNumeralBlank cs with
  | '-' :: ds => (hexMagnitude? ds).map fun n ↦ -(n : Int)
  | '+' :: ds => (hexMagnitude? ds).map Int.ofNat
  | ds => (hexMagnitude? ds).map Int.ofNat

end AbnfCompiler.Text
