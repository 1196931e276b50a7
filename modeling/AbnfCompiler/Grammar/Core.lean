import AbnfCompiler.Expression.Basic

/-!
The core rules of RFC 5234, Appendix B.
-/
namespace AbnfCompiler.CoreRules

open Expression

def heading : String := "Rules defined in RFC 5234, Appendix B."

def letters : CodeRange := ⟨0x41, 0x5A, by decide, by decide⟩

def smallLetters : CodeRange := ⟨0x61, 0x7A, by decide, by decide⟩

def digits : CodeRange := ⟨0x30, 0x39, by decide, by decide⟩

def hexLetters : CodeRange := ⟨0x41, 0x46, by decide, by decide⟩

def smallHexLetters : CodeRange := ⟨0x61, 0x66, by decide, by decide⟩

def visible : CodeRange := ⟨0x21, 0x7E, by decide, by decide⟩

/-- The core rules in the order of the appendix. Hexadecimal digits may also be small letters. -/
def bodies : List (String × Expression) :=
  [("ALPHA", .choice [.charClass letters, .charClass smallLetters]),
   ("BIT", .choice [.text "0", .text "1"]),
   ("DIGIT", .charClass digits),
   ("CR", .text "\r"),
   ("CRLF", .sequence [.reference "CR", .reference "LF"]),
   ("DQUOTE", .text "\""),
   ("HEXDIG", .choice [.charClass digits, .charClass hexLetters, .charClass smallHexLetters]),
   ("HTAB", .text "\t"),
   ("LF", .text "\n"),
   ("SP", .text " "),
   ("VCHAR", .charClass visible),
   ("WSP", .choice [.reference "SP", .reference "HTAB"])]

end AbnfCompiler.CoreRules
