import AbnfCompiler.Text.Split

/-!
POSIX paths. Empty and `.` components are dropped when a path is read, `..` is kept.
-/
namespace AbnfCompiler

/-- Where a path starts: two slashes are a root of their own, three or more are one. -/
inductive Anchor
  | here
  | root
  | doubleRoot
deriving DecidableEq, Repr

structure Path where
  anchor : Anchor
  parts : List String
deriving DecidableEq, Repr

namespace Path

def anchorOf : List Char → Anchor
  | '/' :: '/' :: '/' :: _ => .root
  | '/' :: '/' :: _ => .doubleRoot
  | '/' :: _ => .root
  | _ => .here

def ofText (s : String) : Path :=
  ⟨anchorOf s.toList, (Text.splitAt '/' s).filter fun p ↦ p ≠ "" ∧ p ≠ "."⟩

def toText (p : Path) : String :=
  let body := "/".intercalate p.parts
  match p.anchor with
  | .here => if p.parts.isEmpty then "." else body
  | .root => "/" ++ body
  | .doubleRoot => "//" ++ body

def isAbsolute (p : Path) : Bool := p.anchor ≠ .here

/-- `q` as seen from `p`; an absolute `q` stays as it is. -/
def join (p q : Path) : Path := if q.isAbsolute then q else ⟨p.anchor, p.parts ++ q.parts⟩

def parent (p : Path) : Path := ⟨p.anchor, p.parts.dropLast⟩

def name (p : Path) : String := p.parts.getLast?.getD ""

/-- The name up to its last dot, unless that dot is the first or the last character. -/
def stem (p : Path) : String :=
  let cs := p.name.toList
  let ending := cs.reverse.takeWhile (· ≠ '.')
  let i := cs.length - ending.length - 1
  if cs.contains '.' ∧ 0 < i ∧ ending ≠ [] then String.ofList (cs.take i) else p.name

@[simp] theorem join_absolute {p q : Path} (h : q.isAbsolute) : p.join q = q := by simp [join, h]

end Path

end AbnfCompiler
