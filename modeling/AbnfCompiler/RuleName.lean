import AbnfCompiler.Text.Blank

/-!
Rule names. A grammar may spell a name with hyphens and blanks around it; its normal form is an
identifier, under which the rule is defined and referred to.
-/
namespace AbnfCompiler.RuleName

def plainMark (c : Char) : Char := if c = '-' then '_' else c

/-- The name without blanks at its ends and with underscores for hyphens. -/
def normal (name : String) : String :=
  String.ofList ((Text.trimBoth Text.isBlank name.toList).map plainMark)

/-- What a hidden name starts with. -/
def hiddenMark : Char := '_'

/-- The symbol of a hidden rule. -/
def hidden (name : String) : String := String.ofList (hiddenMark :: (normal name).toList)

/-- The name of the function that stands for an inlined rule. -/
def helper (name : String) : String := "inline_" ++ normal name

@[simp] theorem toList_normal (name : String) :
    (normal name).toList = (Text.trimBoth Text.isBlank name.toList).map plainMark :=
  String.toList_ofList

end AbnfCompiler.RuleName
