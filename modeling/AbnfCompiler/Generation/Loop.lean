import AbnfCompiler.Diagnostic.Classifier
import AbnfCompiler.Generation.Generator
import AbnfCompiler.Generation.Result
import AbnfCompiler.Session.Room
import AbnfCompiler.Compilation.Entry

/-!
The feedback loop. A grammar is written and given to the generator; when the generator refuses it,
the failure is diagnosed, and if a change of the session can mend it, the next attempt follows.
Every change takes some of the room for changes, so the loop ends without a limit on attempts.
-/
namespace AbnfCompiler.Generation

open Log

structure Loop where
  generator : Generator
  classify : String → List Entry × Diagnostic
  filename : String := "grammar.js"
  maxAttempts : Option Int := none

namespace Loop

def log (language : String) : Channel :=
  ⟨"abnf_ts.services.feedback", [("grammar", .text language)]⟩

def transition (language : String) (attempt : Int) (before after : Phase) : Entry :=
  (log language).transition language attempt before.name after.name

/-- Why nothing more is tried, when nothing keeps a rule from being inlined. -/
def resignation (d : Diagnostic) : String :=
  if d.kind = .unrecognized then "Unrecognized generator failure:\n" ++ d.raw
  else if d.kind.isActionable then d.guidance
  else "Automatic fix for " ++ d.kind.tag ++ " made no progress: " ++ ", ".intercalate d.rules

def finished (language : String) (path : Path) (width : Nat) (attempt : Int) : Entry :=
  (log language).entry .info
    ("Generated parser for " ++ language ++ " from " ++ path.toText ++ " (" ++ toString width
      ++ " chars, " ++ toString attempt ++ " attempts)")
    [("attempt", .int attempt)]

def gaveUp (language : String) (attempt : Int) (d : Diagnostic) (message : String) : Entry :=
  (log language).entry .error message
    [("attempt", .int attempt), ("diagnostic_kind", .text d.kind.tag)]

def exhausted (language : String) (attempt : Int) (message : String) : Entry :=
  (log language).entry .error message [("attempt", .int attempt)]

def fixed (language : String) (f : Fix) : Entry :=
  (log language).entry .warning f.describe
    [("attempt", .int f.attempt), ("rule", .text (", ".intercalate f.rules))]

def renderedEntry (name text : String) : Entry :=
  (⟨"abnf_ts.translator.assembler", []⟩ : Channel).entry .debug
    ("Rendered grammar " ++ name ++ " (" ++ toString text.length ++ " chars)")
    [("grammar", .text name), ("phase", .text "assemble")]

def render (g : Grammar) : Traced Entry Failure String := do
  let text ← .ofExcept (g.render.mapError .rendering)
  .report (renderedEntry g.name text)
  return text

variable (c : Loop)

/-- An attempt up to the answer of the generator: the file, the width of the text, the answer. -/
def attempt (reports : List Entry) (g : Grammar) (folder : Path) : Run (Path × Nat × Outcome) := do
  Run.logAll reports
  let text ← Run.relay (render g)
  let path ← Generator.writeGrammar folder text c.filename
  let outcome ← c.generator.invoke folder text
  return (path, text.length, outcome)

/-- Attempts from one on, given the session, the fixes so far and the state before. The reports
and definitions of the compilation are the same in all attempts. -/
def attemptsFrom (reports : List Entry) (definitions : List Definition)
    (unsupported : List Unsupported) (s : Session) (number : Nat) (fixes : List Fix)
    (before : Phase) : Run Result := do
  Run.log (transition s.language number before .invoking)
  let g := s.grammar definitions
  let (path, width, outcome) ← c.attempt reports g s.location
  if outcome.succeeded then
    Run.log (transition s.language number .invoking .done)
    Run.log (finished s.language path width number)
    return ⟨s.language, .done, s, number, fixes, none, none, path, some width, unsupported⟩
  else
    Run.log (transition s.language number .invoking .diagnosing)
    let (entries, d) := c.classify outcome.diagnosticText
    Run.logAll entries
    match _h : s.fix? d (some g) with
    | none =>
      let message := ((s.obstacle? d (some g)).map Session.Obstacle.message).getD (resignation d)
      Run.log (gaveUp s.language number d message)
      Run.log (transition s.language number .diagnosing .givenUp)
      return ⟨s.language, .givenUp, s, number, fixes, d, message, path, none, unsupported⟩
    | some next =>
      if c.maxAttempts.any (· ≤ (number : Int)) then
        let message := "Giving up after " ++ toString number ++ " attempts; last diagnostic: "
          ++ d.kind.tag
        Run.log (exhausted s.language number message)
        Run.log (transition s.language number .diagnosing .givenUp)
        return ⟨s.language, .givenUp, s, number, fixes, d, message, path, none, unsupported⟩
      else
        let fix : Fix := ⟨d.kind, Fix.addedRules s next, number⟩
        Run.log (fixed s.language fix)
        attemptsFrom reports definitions unsupported next (number + 1) (fixes ++ [fix]) .diagnosing
termination_by s.room (definitions.map Definition.name)
decreasing_by
  have := Session.room_fix_lt _h
  rwa [Session.ruleNames_grammar] at this

def run (tree : SyntaxTree) (s : Session) : Run Result := do
  let compiled := Compilation.definitions tree s.withCore
  let reports := compiled.trace.map (Compilation.Event.entry s.language)
  match compiled.result with
  | .ok definitions =>
    c.attemptsFrom reports definitions (Compilation.unsupported compiled.trace) s 1 [] .idle
  | .error failure =>
    Run.log (transition s.language 1 .idle .invoking)
    Run.logAll reports
    throw (.compilation failure)

end Loop

end AbnfCompiler.Generation
