import AbnfCompiler.Text.Codepoint
import AbnfCompiler.Text.Hex

/-!
JSON strings in ASCII: all but the printable ASCII characters are written as escapes, those
beyond the sixteenth bit as a pair of surrogates.
-/
namespace AbnfCompiler.Text

/-- `\u` and four digits. -/
def unicodeEscape (n : Nat) : List Char := '\\' :: 'u' :: hexDigits 4 n

/-- One code point between the quotes. -/
def jsonEscaped (c : Codepoint) : List Char :=
  let n := c.val
  if n = 0x22 then ['\\', '"']
  else if n = 0x5C then ['\\', '\\']
  else if n = 0x0A then ['\\', 'n']
  else if n = 0x0D then ['\\', 'r']
  else if n = 0x09 then ['\\', 't']
  else if n = 0x08 then ['\\', 'b']
  else if n = 0x0C then ['\\', 'f']
  else if 0x20 ≤ n ∧ n ≤ 0x7E then [Char.ofNat n]
  else if n ≤ 0xFFFF then unicodeEscape n
  else unicodeEscape (0xD800 + (n - 0x10000) / 0x400) ++
    unicodeEscape (0xDC00 + (n - 0x10000) % 0x400)

def jsonString (cs : List Codepoint) : String :=
  String.ofList ('"' :: cs.flatMap jsonEscaped ++ ['"'])

def jsonText (s : String) : String := jsonString (Codepoint.ofText s)

end AbnfCompiler.Text
