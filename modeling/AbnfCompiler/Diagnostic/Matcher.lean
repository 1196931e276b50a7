import AbnfCompiler.Diagnostic.Basic
import AbnfCompiler.Log.Channel
import AbnfCompiler.Pattern.Reader
import AbnfCompiler.Trace

/-!
Matchers know what a generator writes about its failures. The patterns are tried in order, and
the first one that names rules decides.
-/
namespace AbnfCompiler.Diagnostic

open Log Data

structure Matcher where
  generator : Value
  patterns : List (Kind × Pattern)

namespace Matcher

def log : Channel := ⟨"diagnostics.tree_sitter_cli.matcher", []⟩

/-- Texts between backticks, given the characters since an open one. -/
def backquotedFrom : Option (List Char) → List Char → List String
  | _, [] => []
  | none, c :: cs => backquotedFrom (if c = '\x60' then some [] else none) cs
  | some [], c :: cs => backquotedFrom (some (if c = '\x60' then [] else [c])) cs
  | some (a :: as), c :: cs =>
    if c = '\x60' then String.ofList (a :: as) :: backquotedFrom none cs
    else backquotedFrom (some (a :: as ++ [c])) cs

/-- The texts between backticks; an empty one does not count. -/
def backquoted (s : String) : List String := backquotedFrom none s.toList

/-- Names between backticks, or between commas if there is no backtick. -/
def ruleList (s : String) : List String :=
  match backquoted s with
  | [] => ((Text.splitAt ',' s).map Text.strip).filter (· ≠ "")
  | names => names

/-- The rules that the groups of a match name. -/
def rulesOf (w : Pattern.Way) : List String :=
  match w.group? "rules", w.group? "rule" with
  | none, none | some "", none | none, some "" | some "", some "" => []
  | none, some rule | some "", some rule => [rule]
  | some rules, _ => ruleList rules

/-- The diagnostic of the first pattern that matches a text and names rules. -/
def diagnose (text : String) : List (Kind × Pattern) → List Entry × Option Diagnostic
  | [] => ([], none)
  | (kind, pattern) :: rest =>
    match pattern.search text with
    | none => diagnose text rest
    | some way =>
      match rulesOf way with
      | [] =>
        let (entries, found) := diagnose text rest
        (log.entry .debug ("Pattern for " ++ kind.tag ++ " matched without rule names") :: entries,
          found)
      | rules => ([], some ⟨kind, rules, text⟩)

inductive Error
  | notMap
  | kind
  | missing (key : String)
  | unknownKind (value : Value)
  | badPattern
deriving Repr

/-- The generator of a matcher that names none. -/
def defaultGenerator : String := "tree-sitter"

def entryOf : Value → Except Error (Kind × Pattern)
  | .map fields =>
    match Value.find? "kind" fields with
    | none => .error (.missing "kind")
    | some v =>
      match Kind.ofValue v with
      | .issues _ => .error (.unknownKind v)
      | .ok kind =>
        match Value.find? "pattern" fields with
        | none => .error (.missing "pattern")
        | some (.text s) =>
          match Pattern.read? s with
          | some p => .ok (kind, p)
          | none => .error .badPattern
        | some _ => .error .kind
  | _ => .error .kind

/-- What stands in the place of a list of entries, item by item. -/
def itemsOf : Value → Except Error (List Value)
  | .list items => .ok items
  | .text s => .ok (s.toList.map fun c ↦ .text c.toString)
  | .map fields => .ok (fields.map (·.1))
  | _ => .error .kind

def ready (count : Nat) : Entry :=
  log.entry .info ("tree-sitter matcher initialized with " ++ toString count ++ " patterns")

def ofValue (v : Value) : Traced Entry Error Matcher :=
  match v with
  | .map fields => do
    let items ← .ofExcept (itemsOf ((Value.find? "patterns" fields).getD (.list [])))
    let patterns ← .ofExcept (items.mapM entryOf)
    .report (ready patterns.length)
    return ⟨(Value.find? "generator" fields).getD (.text defaultGenerator), patterns⟩
  | _ => throw .notMap

end Matcher

end AbnfCompiler.Diagnostic
