import AbnfCompiler.Path
import AbnfCompiler.Text.Quoted
import AbnfCompiler.Text.Split

/-!
Files and folders, seen from a working folder. A name is looked up step by step: every step before
the last has to be a folder, and `..` leads back to the folder above.
-/
namespace AbnfCompiler

/-- What keeps a file or folder from being used. -/
inductive FileFault
  | absent
  | taken
  | notFolder
  | isFolder
deriving DecidableEq, Repr

namespace FileFault

def number : FileFault → Nat
  | .absent => 2
  | .taken => 17
  | .notFolder => 20
  | .isFolder => 21

def text : FileFault → String
  | .absent => "No such file or directory"
  | .taken => "File exists"
  | .notFolder => "Not a directory"
  | .isFolder => "Is a directory"

end FileFault

/-- An error with the number and text of its kind and the name it is about. -/
structure SystemError where
  number : Int
  text : String
  name : String
deriving DecidableEq, Repr

def SystemError.message (e : SystemError) : String :=
  "[Errno " ++ toString e.number ++ "] " ++ e.text ++ ": " ++ Text.quoted e.name

def FileFault.error (fault : FileFault) (path : Path) : SystemError :=
  ⟨fault.number, fault.text, path.toText⟩

/-- A place below the root, the last step first. -/
abbrev Place := List String

structure Workspace where
  files : List (Place × String) := []
  folders : List Place := []
deriving Repr

namespace Workspace

/-- The folder from which relative paths lead. -/
def home : Place := ["workspace"]

variable (w : Workspace)

def isFolder (place : Place) : Bool :=
  place.isEmpty || place == home || w.folders.contains place

def file? (place : Place) : Option String := w.files.lookup place

def isTaken (place : Place) : Bool := w.isFolder place || (w.file? place).isSome

/-- One step down, or up for `..`. -/
def step (place : Place) (part : String) : Place :=
  if part = ".." then place.drop 1 else part :: place

/-- Follows steps; all places before the last one have to be folders. -/
def follow (place : Place) : List String → Except FileFault Place
  | [] => .ok place
  | part :: parts =>
    if w.isFolder place then follow (step place part) parts
    else .error (if (w.file? place).isSome then .notFolder else .absent)

def locate (p : Path) : Except FileFault Place :=
  w.follow (if p.isAbsolute then [] else home) p.parts

def holds (p : Path) : Bool :=
  match w.locate p with
  | .ok place => w.isTaken place
  | .error _ => false

def holdsFolder (p : Path) : Bool :=
  match w.locate p with
  | .ok place => w.isFolder place
  | .error _ => false

def content (p : Path) : Except FileFault String := do
  let place ← w.locate p
  if w.isFolder place then .error .isFolder
  else
    match w.file? place with
    | some text => return text
    | none => .error .absent

/-- The content of a file with plain line ends. -/
def read (p : Path) : Except FileFault String :=
  return String.ofList (Text.plainLines (← w.content p).toList)

/-- Puts a text in the place of a file, which need not be there. -/
def write (p : Path) (text : String) : Except FileFault Workspace := do
  let place ← w.locate p
  if w.isFolder place then .error .isFolder
  else return { w with files := (place, text) :: w.files.filter (·.1 != place) }

def makeFolder (p : Path) : Except FileFault Workspace := do
  let place ← w.locate p
  if w.isTaken place then .error .taken
  else return { w with folders := place :: w.folders }

def ensureFolder (p : Path) : Except SystemError Workspace :=
  match w.makeFolder p with
  | .ok w' => .ok w'
  | .error fault => if w.holdsFolder p then .ok w else .error (fault.error p)

/-- Makes a folder of some parts and the folders above it, unless they are there. The parts are
given from the last one on. -/
def ensureParts (w : Workspace) (anchor : Anchor) : List String → Except SystemError Workspace
  | [] => w.ensureFolder ⟨anchor, []⟩
  | part :: above =>
    let p : Path := ⟨anchor, (part :: above).reverse⟩
    match w.makeFolder p with
    | .ok w' => .ok w'
    | .error .absent => do (← ensureParts w anchor above).ensureFolder p
    | .error fault => if w.holdsFolder p then .ok w else .error (fault.error p)

def ensure (p : Path) : Except SystemError Workspace := w.ensureParts p.anchor p.parts.reverse

end Workspace

end AbnfCompiler
