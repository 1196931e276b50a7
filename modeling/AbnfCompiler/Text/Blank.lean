import AbnfCompiler.Text.Ranges

/-!
Blanks of every script, and texts without the blanks at their ends or anywhere.
-/
namespace AbnfCompiler.Text

def blanks : Ranges :=
  [(0x9, 0xD), (0x1C, 0x20), (0x85, 0x85), (0xA0, 0xA0), (0x1680, 0x1680), (0x2000, 0x200A),
   (0x2028, 0x2029), (0x202F, 0x202F), (0x205F, 0x205F), (0x3000, 0x3000)]

def isBlank (c : Char) : Bool := blanks.covers c.toNat

/-- The characters without those at either end that satisfy `p`. -/
def trimBoth (p : Char → Bool) (cs : List Char) : List Char :=
  ((cs.dropWhile p).reverse.dropWhile p).reverse

/-- The text without the blanks at its ends. -/
def strip (s : String) : String := String.ofList (trimBoth isBlank s.toList)

/-- The text without the blanks at its end. -/
def stripEnd (s : String) : String := String.ofList (s.toList.reverse.dropWhile isBlank).reverse

/-- The text without the copies of `c` at its start. -/
def dropLeading (c : Char) (s : String) : String := String.ofList (s.toList.dropWhile (· == c))

/-- The text without any blank. -/
def withoutBlanks (s : String) : String := String.ofList (s.toList.filter fun c ↦ !isBlank c)

def isAllBlank (s : String) : Bool := s.toList.all isBlank

@[simp] theorem toList_strip (s : String) : (strip s).toList = trimBoth isBlank s.toList :=
  String.toList_ofList

@[simp] theorem toList_withoutBlanks (s : String) :
    (withoutBlanks s).toList = s.toList.filter fun c ↦ !isBlank c := String.toList_ofList

end AbnfCompiler.Text
