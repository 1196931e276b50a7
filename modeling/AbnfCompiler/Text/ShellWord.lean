import AbnfCompiler.Text.Quoted

/-!
Words of a command line as a shell reads them back.
-/
namespace AbnfCompiler.Text

/-- Characters that mean themselves to a shell. -/
def isShellSafe (c : Char) : Bool :=
  c.isAlphanum || "_@%+=:,./-".toList.contains c

/-- A word as it is, when every character means itself, otherwise in apostrophes; an apostrophe
within is written between double quotes. -/
def shellWord (s : String) : String :=
  if s ≠ "" ∧ s.toList.all isShellSafe then s
  else
    let body := s.toList.flatMap fun c ↦
      if c = apostrophe then [apostrophe, '"', apostrophe, '"', apostrophe] else [c]
    String.ofList (apostrophe :: body ++ [apostrophe])

def commandLine (words : List String) : String := " ".intercalate (words.map shellWord)

end AbnfCompiler.Text
