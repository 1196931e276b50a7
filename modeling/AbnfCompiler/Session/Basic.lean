import AbnfCompiler.Grammar.Basic
import AbnfCompiler.Path
import AbnfCompiler.Text.Sorted
import AbnfCompiler.Compilation.Basic

/-!
Sessions: what is to be generated, and which rules are hidden, inlined or in conflict. Names are
kept in normal form and no name or group twice.
-/
namespace AbnfCompiler

structure Session where
  source : Path
  location : Path
  start : String
  language : String
  withCore : Bool := false
  hidden : List String := []
  inlined : List String := []
  conflicts : List (List String) := []
deriving DecidableEq, Repr

namespace Session

variable {α : Type} [DecidableEq α]

/-- Puts an element at the end, unless it is there. -/
def addNew (xs : List α) (x : α) : List α := if x ∈ xs then xs else xs ++ [x]

/-- The elements in the order of their first places. -/
def distinct (xs : List α) : List α := xs.foldl addNew []

/-- The names of a conflict group in normal form and in order. -/
def groupOf (names : List String) : List String :=
  Text.Sorted.ofList (names.map RuleName.normal)

/-- The session with all names in normal form and without repeats. -/
def canonical (s : Session) : Session :=
  { s with
    start := RuleName.normal s.start
    hidden := distinct (s.hidden.map RuleName.normal)
    inlined := distinct (s.inlined.map RuleName.normal)
    conflicts := distinct (s.conflicts.map groupOf) }

def withInlined (s : Session) (name : String) : Session :=
  { s with inlined := addNew s.inlined (RuleName.normal name) }

def withConflict (s : Session) (names : List String) : Session :=
  { s with conflicts := addNew s.conflicts (groupOf names) }

def isHidden (s : Session) (name : String) : Bool := s.hidden.contains (RuleName.normal name)

def isInlined (s : Session) (name : String) : Bool := s.inlined.contains (RuleName.normal name)

def grammar (s : Session) (definitions : List Definition) : Grammar :=
  ⟨s.language, s.start, s.withCore, definitions.map (Definition.toRule s.hidden s.inlined),
    s.conflicts⟩

theorem ruleNames_grammar (s : Session) (definitions : List Definition) :
    (s.grammar definitions).ruleNames = definitions.map Definition.name := by
  simp [grammar, Grammar.ruleNames, Definition.toRule, Function.comp_def]

theorem mem_addNew {x y : α} {xs : List α} : y ∈ addNew xs x ↔ y ∈ xs ∨ y = x := by
  unfold addNew
  split
  · next h => exact ⟨Or.inl, fun hy ↦ hy.elim id fun he ↦ he ▸ h⟩
  · simp

section Check

open Data Checked

def ofValue (v : Value) : Checked Session :=
  canonical <$> asRecord v fun entries ↦
    Session.mk <$> required entries "source" asPath <*> required entries "location" asPath
      <*> required entries "start_rule" asText <*> required entries "language_name" asText
      <*> defaulted entries "include_core_rules" asTruth false
      <*> defaulted entries "hidden_rules" (asTuple asText) []
      <*> defaulted entries "inline_rules" (asTuple asText) []
      <*> defaulted entries "conflicts" (asTuple (asTuple asText)) []

end Check

end Session

end AbnfCompiler
