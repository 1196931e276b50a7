import AbnfCompiler.Text.Blank
import AbnfCompiler.Text.Case
import AbnfCompiler.Text.Digit
import AbnfCompiler.Text.Word

/-!
Patterns for texts, with named groups. Letter case does not count. A pattern may match in several
ways, which are tried in a fixed order: the left alternative before the right one, and more
repetitions before fewer, unless the repetition is reluctant.
-/
namespace AbnfCompiler

inductive SetItem
  | range (low high : Nat)
  | word (complement : Bool)
  | digit (complement : Bool)
  | blank (complement : Bool)
deriving DecidableEq, Repr

def SetItem.has (c : Char) : SetItem → Bool
  | .range low high => (Text.caseForms c).any fun n ↦ low ≤ n && n ≤ high
  | .word complement => (Text.isWord c || c == '_') != complement
  | .digit complement => Text.isDigit c != complement
  | .blank complement => Text.isBlank c != complement

inductive Pattern
  | empty
  | letter (c : Char)
  | set (complement : Bool) (items : List SetItem)
  | textStart
  | textEnd
  | lineEnd
  | wordEdge (complement : Bool)
  | sequence (p q : Pattern)
  | either (p q : Pattern)
  | many (p : Pattern) (least : Nat) (most : Option Nat) (reluctant : Bool)
  | group (name : String) (p : Pattern)
deriving Repr, Inhabited

namespace Pattern

def text (s : String) : Pattern := s.toList.foldr (fun c p ↦ .sequence (.letter c) p) .empty

/-- A way to match: what is taken, what is left, and the texts of groups, the latest last. -/
structure Way where
  taken : List Char
  rest : List Char
  groups : List (String × String) := []
deriving Repr, DecidableEq

namespace Way

def followedBy (v w : Way) : Way := ⟨v.taken ++ w.taken, w.rest, v.groups ++ w.groups⟩

/-- The last character before what is left. -/
def last (before : Option Char) (w : Way) : Option Char := w.taken.getLast?.or before

def named (name : String) (w : Way) : Way :=
  { w with groups := w.groups ++ [(name, String.ofList w.taken)] }

def group? (w : Way) (name : String) : Option String := w.groups.reverse.lookup name

end Way

def isWordPart (c : Char) : Bool := Text.isWord c || c == '_'

def setHas (complement : Bool) (items : List SetItem) (c : Char) : Bool :=
  items.any (·.has c) != complement

def when (holds : Bool) (cs : List Char) : List Way := if holds then [⟨[], cs, []⟩] else []

def take (holds : Char → Bool) : List Char → List Way
  | c :: cs => if holds c then [⟨[c], cs, []⟩] else []
  | [] => []

/-- Repetitions of a step. Beyond the least number only those count that take something, so `fuel`
above the number of characters and the least number is never used up. -/
def repetitions (step : Option Char → List Char → List Way) (reluctant : Bool) :
    Nat → Nat → Option Nat → Option Char → List Char → List Way
  | 0, least, _, _, cs => when (least == 0) cs
  | fuel + 1, least, most, before, cs =>
    let stop := when (least == 0) cs
    let go :=
      if most = some 0 then []
      else
        (step before cs).flatMap fun w ↦
          if w.taken.isEmpty && least == 0 then []
          else
            (repetitions step reluctant fuel (least - 1) (most.map (· - 1)) (w.last before)
              w.rest).map w.followedBy
    if reluctant then stop ++ go else go ++ stop

/-- The ways to match at the start of a text, in the order in which they are tried. The character
before the text decides on edges. -/
def ways : Pattern → Option Char → List Char → List Way
  | .empty, _, cs => when true cs
  | .letter c, _, cs => take (Text.sameLetter c) cs
  | .set complement items, _, cs => take (setHas complement items) cs
  | .textStart, before, cs => when before.isNone cs
  | .textEnd, _, cs => when cs.isEmpty cs
  | .lineEnd, _, cs => when (cs == [] || cs == ['\n']) cs
  | .wordEdge complement, before, cs =>
    when (((before.any isWordPart) != (cs.head?.any isWordPart)) != complement) cs
  | .sequence p q, before, cs =>
    (p.ways before cs).flatMap fun w ↦ (q.ways (w.last before) w.rest).map w.followedBy
  | .either p q, before, cs => p.ways before cs ++ q.ways before cs
  | .many p least most reluctant, before, cs =>
    repetitions p.ways reluctant (cs.length + least + 1) least most before cs
  | .group name p, before, cs => (p.ways before cs).map (·.named name)

/-- The first way to match at the first place where there is one. -/
def searchFrom (p : Pattern) (before : Option Char) : List Char → Option Way
  | [] => (p.ways before []).head?
  | c :: cs =>
    match (p.ways before (c :: cs)).head? with
    | some w => some w
    | none => searchFrom p (some c) cs

def search (p : Pattern) (s : String) : Option Way := p.searchFrom none s.toList

def groupNames : Pattern → List String
  | .sequence p q | .either p q => p.groupNames ++ q.groupNames
  | .many p _ _ _ => p.groupNames
  | .group name p => name :: p.groupNames
  | _ => []

end Pattern

end AbnfCompiler
